import Markup.Proofs.Call.Grammar

/-! # What one step of a scan takes

`scanRegion` takes a command, a run of text or a run of newlines off a region, each as long as it
can be, and goes on with what is left.  `ScanStep` says what each of the three is without the
scan, `ScanStuck` where no step is possible, and `ScanRun` puts steps together.  What is proved of
scans starts from `scanRegion_run`, and from the converse: a step that is possible is the one that
the scan takes (`ScanStep.scanRegion_eq`). -/

namespace Markup

open Text

/-- No newline comes first. -/
def NoBreak (cs : List Char) : Prop := ∀ e : Newline, ¬ e.chars <+: cs

/-- One step takes `p` off a text and leaves `rest`. -/
inductive ScanStep : List Char → RawPiece → List Char → Prop
  /-- A command with all its arguments. -/
  | call {cs name : List Char} {args : List RawArgument} {rest : List Char}
      (h : CommandAt cs name args rest) (hclosed : ¬ Unclosed rest) :
      ScanStep cs (.call name args) rest
  /-- As many text characters as there are. -/
  | text {run rest : List Char} (hne : run ≠ []) (hrun : ∀ c ∈ run, isTextChar c = true)
      (hstop : ∀ c ∈ rest.head?, isTextChar c = false) : ScanStep (run ++ rest) (.text run) rest
  /-- As many newlines as there are. -/
  | breaks {ends : List Newline} {rest : List Char} (hne : ends ≠ []) (hstop : NoBreak rest) :
      ScanStep (ends.flatMap Newline.chars ++ rest) (.breaks ends) rest

/-- No step is possible, for the reason that `stop` gives. -/
inductive ScanStuck : List Char → ScanStop → Prop
  /-- A command, and then a brace that never closes. -/
  | unclosed {cs name : List Char} {args : List RawArgument} {space rest : List Char}
      (h : CommandAt cs name args rest) (hopen : Unclosed rest) :
      ScanStuck cs (.unclosed name args space)
  /-- A backslash that no name follows. -/
  | nameless {rest : List Char} (h : ¬ StartsCommand ('\\' :: rest)) :
      ScanStuck ('\\' :: rest) .nameless
  /-- A part of a newline without the other part. -/
  | unexpected {c : Char} {rest : List Char} (hslash : c ≠ '\\') (htext : isTextChar c = false)
      (hbreak : NoBreak (c :: rest)) : ScanStuck (c :: rest) (.unexpected c)

/-- A scan of a whole text, step by step. -/
inductive ScanRun : List Char → RegionScan → Prop
  | done : ScanRun [] ⟨[], none⟩
  | step {cs rest : List Char} {p : RawPiece} {scan : RegionScan} (hstep : ScanStep cs p rest)
      (h : ScanRun rest scan) : ScanRun cs (scan.cons p)
  | stuck {cs : List Char} {stop : ScanStop} (h : ScanStuck cs stop) :
      ScanRun cs ⟨[], some stop⟩

theorem ScanStep.chars {cs rest : List Char} {p : RawPiece} (h : ScanStep cs p rest) :
    cs = p.chars ++ rest := by
  cases h with
  | call h => exact h.chars
  | text => rfl
  | breaks => rfl

/-- A run of newlines is taken as long as it is. -/
theorem noBreak_scanBreaks (cs : List Char) : NoBreak (scanBreaks cs).2 := by
  fun_induction scanBreaks cs with
  | case1 => intro e; cases e <;> decide
  | case2 rest ih => exact ih
  | case3 c _ d rest _ ih => exact ih
  | case4 c hc d rest hcd =>
      intro e
      cases e with
      | lf => simp [Newline.chars, Ne.symm hc]
      | crlf =>
          simp only [Newline.chars, List.cons_prefix_cons, List.nil_prefix, and_true]
          rintro ⟨rfl, rfl⟩
          exact hcd ⟨rfl, rfl⟩
  | case5 c hc =>
      intro e
      cases e with
      | lf => simp [Newline.chars, Ne.symm hc]
      | crlf => simp [Newline.chars]

/-- **A scan goes step by step**, to the end of the region or to where it is stuck. -/
theorem scanRegion_run (cs : List Char) : ScanRun cs (scanRegion cs) := by
  fun_induction scanRegion cs with
  | case1 => exact .done
  | case2 c tail call hc space hspace =>
      obtain ⟨h, hunclosed⟩ := commandAt_of_scanCall hc
      exact .stuck (.unclosed h (hunclosed.mp (by rw [hspace]; rfl)))
  | case3 c tail call hc hclosed ih =>
      obtain ⟨h, hunclosed⟩ := commandAt_of_scanCall hc
      refine .step (.call h fun hopen => ?_) ih
      rw [← hunclosed, hclosed] at hopen
      cases hopen
  | case4 c tail hc htext ih =>
      have e : c :: tail = (c :: tail.takeWhile isTextChar) ++ tail.dropWhile isTextChar := by simp
      rw [e]
      refine .step (.text (List.cons_ne_nil _ _) ?_ (head?_dropWhile_of_mem tail)) ih
      intro d hd
      rcases List.mem_cons.mp hd with rfl | hd
      · exact htext
      · exact List.mem_takeWhile_imp hd
  | case5 c tail hc htext rest hb =>
      -- Neither a command, nor text, nor a newline: the first character tells why.
      have hbreaks := scanBreaks_append (c :: tail)
      have hstop := noBreak_scanBreaks (c :: tail)
      rw [hb] at hbreaks hstop
      split
      · next hslash =>
        subst hslash
        exact .stuck (.nameless (scanCall_eq_none_iff.mp hc))
      · next hslash =>
        refine .stuck (.unexpected hslash (Bool.eq_false_iff.mpr htext) ?_)
        rw [hbreaks]
        exact hstop
  | case6 c tail hc htext e ends rest hb ih =>
      have hbreaks := scanBreaks_append (c :: tail)
      have hstop := noBreak_scanBreaks (c :: tail)
      rw [hb] at hbreaks hstop
      rw [hbreaks]
      exact .step (.breaks (List.cons_ne_nil _ _) hstop) ih

/-! ### The one way to go on -/

theorem scanRegion_call {cs name rest : List Char} {args : List RawArgument}
    (h : scanCall cs = some ⟨name, args, rest, none⟩) :
    scanRegion cs = (scanRegion rest).cons (.call name args) := by
  cases cs with
  | nil => cases h
  | cons c tail =>
      rw [scanRegion]
      split
      · next call hc =>
        rw [h] at hc
        obtain rfl := Option.some.inj hc
        rfl
      · next hc =>
        rw [h] at hc
        cases hc

theorem scanRegion_unclosed {cs name rest space : List Char} {args : List RawArgument}
    (h : scanCall cs = some ⟨name, args, rest, some space⟩) :
    scanRegion cs = ⟨[], some (.unclosed name args space)⟩ := by
  cases cs with
  | nil => cases h
  | cons c tail =>
      rw [scanRegion]
      split
      · next call hc =>
        rw [h] at hc
        obtain rfl := Option.some.inj hc
        rfl
      · next hc =>
        rw [h] at hc
        cases hc

/-- Only a backslash starts a command. -/
theorem scanCall_eq_none_of_ne {c : Char} (hc : c ≠ '\\') (tail : List Char) :
    scanCall (c :: tail) = none := by
  rw [scanCall_eq_none_iff]
  rintro ⟨d, rest, heq, -⟩
  exact hc (List.cons.inj heq).1

theorem scanRegion_text {c : Char} {tail : List Char} (hc : isTextChar c = true) :
    scanRegion (c :: tail) =
      (scanRegion (tail.dropWhile isTextChar)).cons (.text (c :: tail.takeWhile isTextChar)) := by
  have hslash : c ≠ '\\' := by
    rintro rfl
    cases hc
  have hnone := scanCall_eq_none_of_ne hslash tail
  rw [scanRegion]
  split
  · next call hcall =>
    rw [hnone] at hcall
    cases hcall
  · rw [if_pos hc]

theorem scanBreaks_lf (cs : List Char) :
    scanBreaks ('\n' :: cs) = (scanBreaks cs).map (.lf :: ·) id := by
  rw [scanBreaks.eq_def]
  rfl

theorem scanBreaks_crlf (cs : List Char) :
    scanBreaks ('\r' :: '\n' :: cs) = (scanBreaks cs).map (.crlf :: ·) id := by
  rw [scanBreaks.eq_def]
  rfl

theorem scanBreaks_of_noBreak {cs : List Char} (h : NoBreak cs) : scanBreaks cs = ([], cs) := by
  have hchars := scanBreaks_append cs
  cases hscan : scanBreaks cs with
  | mk ends rest =>
      rw [hscan] at hchars
      cases ends with
      | nil => rw [hchars]; rfl
      | cons e ends =>
          rw [List.flatMap_cons, List.append_assoc] at hchars
          exact (h e ⟨_, hchars.symm⟩).elim

/-- The newlines that come first are all taken. -/
theorem scanBreaks_flatMap (ends : List Newline) {rest : List Char} (hstop : NoBreak rest) :
    scanBreaks (ends.flatMap Newline.chars ++ rest) = (ends, rest) := by
  induction ends with
  | nil => exact scanBreaks_of_noBreak hstop
  | cons e ends ih =>
      rw [List.flatMap_cons, List.append_assoc]
      cases e with
      | lf =>
          rw [Newline.chars, List.singleton_append, scanBreaks_lf, ih]
          rfl
      | crlf =>
          rw [Newline.chars, List.cons_append, List.singleton_append, scanBreaks_crlf, ih]
          rfl

theorem scanRegion_breaks {c : Char} {tail rest : List Char} {e : Newline} {ends : List Newline}
    (hslash : c ≠ '\\') (htext : isTextChar c = false)
    (h : scanBreaks (c :: tail) = (e :: ends, rest)) :
    scanRegion (c :: tail) = (scanRegion rest).cons (.breaks (e :: ends)) := by
  have hnone := scanCall_eq_none_of_ne hslash tail
  rw [scanRegion]
  split
  · next call hcall =>
    rw [hnone] at hcall
    cases hcall
  · rw [if_neg (by simp [htext])]
    split
    · next hb =>
      rw [h] at hb
      cases hb
    · next hb =>
      rw [h] at hb
      cases hb
      rfl

/-- **A step that is possible is the one that the scan takes.** -/
theorem ScanStep.scanRegion_eq {cs rest : List Char} {p : RawPiece} (h : ScanStep cs p rest) :
    scanRegion cs = (scanRegion rest).cons p := by
  cases h with
  | call h hclosed =>
      obtain ⟨unclosed, hscan, hunclosed⟩ := h.scanCall_eq
      cases unclosed with
      | none => exact scanRegion_call hscan
      | some space => exact (hclosed (hunclosed.mp rfl)).elim
  | @text run _ hne hrun hstop =>
      cases run with
      | nil => exact (hne rfl).elim
      | cons c run =>
          have hmore : ∀ d ∈ run, isTextChar d = true := fun d hd =>
            hrun d (List.mem_cons_of_mem c hd)
          rw [List.cons_append, scanRegion_text (hrun c List.mem_cons_self),
            takeWhile_append_of_stop hmore hstop, dropWhile_append_of_stop hmore hstop]
  | @breaks ends _ hne hstop =>
      cases ends with
      | nil => exact (hne rfl).elim
      | cons e ends =>
          have hscan := scanBreaks_flatMap (e :: ends) hstop
          cases e with
          | lf => exact scanRegion_breaks (by decide) (by decide) hscan
          | crlf => exact scanRegion_breaks (by decide) (by decide) hscan

theorem scanRegion_stop {c : Char} {tail : List Char} (hcall : ¬ StartsCommand (c :: tail))
    (htext : isTextChar c = false) (hbreak : NoBreak (c :: tail)) :
    scanRegion (c :: tail) = ⟨[], some (if c = '\\' then .nameless else .unexpected c)⟩ := by
  have hnone := scanCall_eq_none_iff.mpr hcall
  have hbreaks := scanBreaks_of_noBreak hbreak
  rw [scanRegion]
  split
  · next call hsome =>
    rw [hnone] at hsome
    cases hsome
  · rw [if_neg (by simp [htext])]
    split
    · rfl
    · next hb =>
      rw [hbreaks] at hb
      cases hb

/-- Where no step is possible, the scan stops at once. -/
theorem ScanStuck.scanRegion_eq {cs : List Char} {stop : ScanStop} (h : ScanStuck cs stop) :
    ∃ found, scanRegion cs = ⟨[], some found⟩ := by
  cases h with
  | unclosed h hopen =>
      obtain ⟨unclosed, hscan, hunclosed⟩ := h.scanCall_eq
      obtain ⟨space, rfl⟩ := Option.isSome_iff_exists.mp (hunclosed.mpr hopen)
      exact ⟨_, scanRegion_unclosed hscan⟩
  | @nameless rest h =>
      have hbreak : NoBreak ('\\' :: rest) := by
        intro e
        cases e <;> simp [Newline.chars]
      exact ⟨_, scanRegion_stop h (by decide) hbreak⟩
  | unexpected hslash htext hbreak =>
      refine ⟨_, scanRegion_stop ?_ htext hbreak⟩
      rintro ⟨d, rest, heq, -⟩
      exact hslash (List.cons.inj heq).1

end Markup
