import Markup.Proofs.Call.ScanStep
import Markup.Proofs.Text.LineEndings

/-! # Scanning a text with other line ends

A region whose line feeds all become newlines of two characters is scanned as before, with the
newlines in all parts rewritten (`scanRegion_crlf`).  No character that settles what is scanned is a
part of a newline: a name ends at either, an argument goes over both, and a backslash in an
argument, which takes the next character with it, leaves a line feed behind that opens and closes
nothing (`takeBalanced_crlf`).  Only for the newlines themselves the text may not have had a
carriage return before (`scanBreaks_crlf_of_notMem`). -/

namespace Markup

open Text

/-! ### What is scanned -/

/-- The argument with newlines of two characters. -/
def RawArgument.crlf (a : RawArgument) : RawArgument := ⟨Text.crlf a.space, Text.crlf a.content⟩

/-- The arguments with newlines of two characters, and what follows them. -/
def ArgumentScan.crlf (s : ArgumentScan) : ArgumentScan :=
  ⟨s.args.map RawArgument.crlf, Text.crlf s.rest, s.unclosed.map Text.crlf⟩

/-- The command with newlines of two characters. -/
def RawCall.crlf (c : RawCall) : RawCall := ⟨Text.crlf c.name, c.scan.crlf⟩

/-- The part with newlines of two characters. -/
def RawPiece.crlf : RawPiece → RawPiece
  | text run => .text (Text.crlf run)
  | breaks ends => .breaks (ends.map fun _ => .crlf)
  | call name args => .call (Text.crlf name) (args.map RawArgument.crlf)

/-- The stop of a scan of the text with newlines of two characters. -/
def ScanStop.crlf : ScanStop → ScanStop
  | unclosed name args space =>
    .unclosed (Text.crlf name) (args.map RawArgument.crlf) (Text.crlf space)
  | nameless => .nameless
  | unexpected c => .unexpected c

/-- The parts with newlines of two characters, and what stopped the scan. -/
def RegionScan.crlf (s : RegionScan) : RegionScan :=
  ⟨s.pieces.map RawPiece.crlf, s.stop.map ScanStop.crlf⟩

/-! ### Names and arguments -/

/-- A name ends at a newline, whichever it is. -/
theorem scanName_crlf (cs : List Char) :
    scanName (crlf cs) = (scanName cs).map (Prod.map crlf crlf) := by
  have hcontinue : isNameContinue '\r' = isNameContinue '\n' := by decide +kernel
  have hstart : ∀ c, isNameStart c = true → c ≠ '\n' := by
    rintro c hc rfl
    exact absurd hc (by decide +kernel)
  match cs with
  | [] => rfl
  | [b] =>
      by_cases hb : b = '\n'
      · subst hb
        rfl
      · rw [crlf_cons hb]
        rfl
  | b :: c :: rest =>
      by_cases hb : b = '\n'
      · subst hb
        rfl
      rw [crlf_cons hb]
      by_cases hc : c = '\n'
      · subst hc
        have hnot : ∀ d, d = '\r' ∨ d = '\n' → isNameStart d = false := by
          rintro d (rfl | rfl) <;> decide +kernel
        simp [scanName, hnot]
      · rw [crlf_cons hc, scanName, scanName]
        split
        · rw [takeWhile_crlf hcontinue, dropWhile_crlf hcontinue, ← crlf_cons hc]
          rfl
        · rfl

/-- Braces that close the one text close the other. -/
theorem takeBalanced_crlf (depth : Nat) (cs : List Char) :
    takeBalanced depth (crlf cs) = (takeBalanced depth cs).map (Prod.map crlf crlf) := by
  fun_induction takeBalanced depth cs with
  | case1 => rfl
  | case2 => rfl
  | case3 depth e rest ih =>
      rw [crlf_cons (by decide)]
      by_cases he : e = '\n'
      · subst he
        rw [crlf_cons_lf, takeBalanced_escape,
          takeBalanced_char _ _ (by decide) (by decide) (by decide), ih]
        cases takeBalanced depth rest <;> rfl
      · rw [crlf_cons he, takeBalanced_escape, ih]
        cases takeBalanced depth rest with
        | none => rfl
        | some p => simp [crlf_cons, he]
  | case4 depth rest _ ih =>
      rw [crlf_cons (by decide), takeBalanced_open, ih]
      cases takeBalanced (depth + 1) rest <;> rfl
  | case5 rest =>
      rw [crlf_cons (by decide), takeBalanced_end]
      rfl
  | case6 rest depth _ _ ih =>
      rw [crlf_cons (by decide), takeBalanced_close, ih]
      cases takeBalanced depth rest <;> rfl
  | case7 depth c rest hslash hopen hclose ih =>
      by_cases hc : c = '\n'
      · subst hc
        rw [crlf_cons_lf, takeBalanced_char _ _ (by decide) (by decide) (by decide),
          takeBalanced_char _ _ hslash hopen hclose, ih]
        cases takeBalanced depth rest <;> rfl
      · rw [crlf_cons hc, takeBalanced_char _ _ hslash hopen hclose, ih]
        cases takeBalanced depth rest with
        | none => rfl
        | some p => simp [crlf_cons hc]

/-- What a run of arguments begins with settles how it goes on. -/
theorem scanArguments_eq (cs : List Char) :
    scanArguments cs = match cs.dropWhile isInlineSpace with
      | [] => ⟨[], cs, none⟩
      | c :: body =>
        if c = '{' then
          match takeBalanced 0 body with
          | none => ⟨[], cs, some (cs.takeWhile isInlineSpace)⟩
          | some (content, rest) =>
            { scanArguments rest with
              args := ⟨cs.takeWhile isInlineSpace, content⟩ :: (scanArguments rest).args }
        else ⟨[], cs, none⟩ := by
  conv => lhs; rw [scanArguments]
  split
  · next hdrop => rw [hdrop]
  · next c body hdrop =>
    rw [hdrop]
    dsimp only
    split
    · split
      · next hb => rw [hb]
      · next hb => rw [hb]
    · rfl

theorem scanArguments_crlf (cs : List Char) :
    scanArguments (crlf cs) = (scanArguments cs).crlf := by
  have hspace : isInlineSpace '\r' = isInlineSpace '\n' := by decide
  fun_induction scanArguments cs with
  | case1 cs hdrop =>
      rw [scanArguments_eq, dropWhile_crlf hspace, hdrop]
      rfl
  | case2 cs body hb hdrop =>
      rw [scanArguments_eq, dropWhile_crlf hspace, hdrop, crlf_cons (by decide)]
      dsimp only
      rw [if_pos rfl, takeBalanced_crlf, hb, takeWhile_crlf hspace]
      rfl
  | case3 cs body content rest hb scan hdrop ih =>
      rw [scanArguments_eq, dropWhile_crlf hspace, hdrop, crlf_cons (by decide)]
      dsimp only
      rw [if_pos rfl, takeBalanced_crlf, hb, takeWhile_crlf hspace]
      dsimp only [Option.map_some, Prod.map]
      rw [ih]
      rfl
  | case4 cs c body hdrop hc =>
      rw [scanArguments_eq, dropWhile_crlf hspace, hdrop]
      by_cases hbreak : c = '\n'
      · subst hbreak
        rfl
      · rw [crlf_cons hbreak]
        dsimp only
        rw [if_neg hc]
        rfl

theorem scanCall_crlf (cs : List Char) : scanCall (crlf cs) = (scanCall cs).map RawCall.crlf := by
  rw [scanCall, scanCall, scanName_crlf, Option.map_map, Option.map_map]
  congr 1
  funext p
  exact congrArg (RawCall.mk _) (scanArguments_crlf p.2)

theorem splitKeyword_crlf (content : List Char) :
    splitKeyword (crlf content) = (splitKeyword content).map (Prod.map crlf crlf) := by
  have hstop : (!isKeywordStop '\r') = (!isKeywordStop '\n') := by decide
  unfold splitKeyword
  rw [dropWhile_crlf hstop, takeWhile_crlf hstop]
  cases hdrop : content.dropWhile (!isKeywordStop ·) with
  | nil => rfl
  | cons c value =>
      -- A newline settles nothing, so it is not what was stopped at.
      have hc : c ≠ '\n' := by
        rintro rfl
        have hsettles := head?_dropWhile_of_mem content '\n' (by rw [hdrop]; rfl)
        exact absurd hsettles (by decide)
      rw [crlf_cons hc]
      dsimp only
      split <;> rfl

/-! ### Newlines -/

theorem noBreak_cons {c : Char} (hlf : c ≠ '\n') (hcr : c ≠ '\r') (cs : List Char) :
    NoBreak (c :: cs) := by
  rintro (_ | _) hprefix
  · exact hlf (List.cons_prefix_cons.mp hprefix).1.symm
  · exact hcr (List.cons_prefix_cons.mp hprefix).1.symm

/-- A run of newlines is a run of as many. -/
theorem scanBreaks_crlf_of_notMem {cs : List Char} (h : '\r' ∉ cs) :
    scanBreaks (crlf cs) =
      ((scanBreaks cs).1.map fun _ => Newline.crlf, crlf (scanBreaks cs).2) := by
  fun_induction scanBreaks cs with
  | case1 => rfl
  | case2 rest ih =>
      rw [crlf_cons_lf, scanBreaks_crlf, ih fun hmem => h (List.mem_cons_of_mem _ hmem)]
      rfl
  | case3 c _ d rest hcd => exact (h (hcd.1 ▸ List.mem_cons_self)).elim
  | case4 c hc | case5 c hc =>
      have hcr : c ≠ '\r' := fun heq => h (heq ▸ List.mem_cons_self)
      rw [crlf_cons hc]
      exact scanBreaks_of_noBreak (noBreak_cons hc hcr _)

/-! ### Regions -/

/-- What is neither text nor part of a command in a text without carriage returns is a line feed or
a backslash. -/
theorem eq_of_not_isTextChar {c : Char} (hcr : c ≠ '\r') (htext : ¬ isTextChar c = true) :
    c = '\n' ∨ c = '\\' := by
  by_contra hne
  rw [not_or] at hne
  exact htext (by simp [isTextChar, hne, hcr])

/-- **Line ends do not matter to a scan.** -/
theorem scanRegion_crlf {cs : List Char} (h : '\r' ∉ cs) :
    scanRegion (crlf cs) = (scanRegion cs).crlf := by
  have hstop : isTextChar '\r' = isTextChar '\n' := by decide
  fun_induction scanRegion cs with
  | case1 =>
      rw [crlf_nil, scanRegion]
      rfl
  | case2 c tail call hc space hspace =>
      obtain ⟨name, args, rest, unclosed⟩ := call
      obtain rfl : unclosed = some space := hspace
      have hcall : scanCall (crlf (c :: tail)) =
          some ⟨crlf name, args.map RawArgument.crlf, crlf rest, some (crlf space)⟩ := by
        rw [scanCall_crlf, hc]
        rfl
      exact scanRegion_unclosed hcall
  | case3 c tail call hc hclosed ih =>
      obtain ⟨name, args, rest, unclosed⟩ := call
      obtain rfl : unclosed = none := hclosed
      have hchars := (commandAt_of_scanCall hc).1.chars
      have hrest : '\r' ∉ rest := fun hmem => h (by
        rw [hchars]
        exact List.mem_append_right _ hmem)
      have hcall : scanCall (crlf (c :: tail)) =
          some ⟨crlf name, args.map RawArgument.crlf, crlf rest, none⟩ := by
        rw [scanCall_crlf, hc]
        rfl
      rw [scanRegion_call hcall, ih hrest]
      rfl
  | case4 c tail hc htext ih =>
      have hbreak : c ≠ '\n' := by
        rintro rfl
        cases htext
      have htail : '\r' ∉ tail.dropWhile isTextChar := fun hmem =>
        h (List.mem_cons_of_mem c ((List.dropWhile_sublist _).subset hmem))
      rw [crlf_cons hbreak, scanRegion_text htext, takeWhile_crlf hstop, dropWhile_crlf hstop,
        ih htail, ← crlf_cons hbreak]
      rfl
  | case5 c tail hc htext rest hb =>
      have hcr : c ≠ '\r' := fun heq => h (heq ▸ List.mem_cons_self)
      rcases eq_of_not_isTextChar hcr htext with rfl | rfl
      · rw [scanBreaks_lf] at hb
        cases hb
      · have hcall : ¬ StartsCommand (crlf ('\\' :: tail)) := by
          rw [← scanCall_eq_none_iff, scanCall_crlf, hc]
          rfl
        rw [crlf_cons (by decide)] at hcall ⊢
        exact scanRegion_stop hcall (by decide) (noBreak_cons (by decide) (by decide) _)
  | case6 c tail hc htext e ends rest hb ih =>
      have hcr : c ≠ '\r' := fun heq => h (heq ▸ List.mem_cons_self)
      have hchars := scanBreaks_append (c :: tail)
      have hbreaks := scanBreaks_crlf_of_notMem h
      rw [hb] at hchars hbreaks
      have hrest : '\r' ∉ rest := fun hmem => h (by
        rw [hchars]
        exact List.mem_append_right _ hmem)
      rcases eq_of_not_isTextChar hcr htext with rfl | rfl
      · rw [crlf_cons_lf] at hbreaks ⊢
        rw [scanRegion_breaks (by decide) (by decide) hbreaks, ih hrest]
        rfl
      · rw [scanBreaks_of_noBreak (noBreak_cons (by decide) hcr tail)] at hb
        cases hb

end Markup
