import Markup.Proofs.Call.Tiling

/-! # What pieces say, wherever they stand

A piece has its place in a source, but what evaluation makes of it depends on its words alone: the
text, the name of the command, and the names and values of its arguments (`Piece.wording`).  Reading
a region gives pieces whose words are those of its scan (`readMarkup_wording`), so that regions of
the same text are read to pieces of the same words (`readMarkup_of_fragment_eq`).

A run of newlines divides a text for the reader: nothing in front of it reaches over it
(`ScanStep.append`), and so a text with a run of newlines in it is scanned like its two parts
(`scanRegion_append_breaks`). -/

namespace Markup

open Text

/-! ### Words -/

/-- What a piece says: a text, or a command with its arguments, each with its name, if any, and its
value. -/
inductive Wording where
  | text (text : String)
  | call (name : String) (args : List (Option String × String))
deriving DecidableEq, Repr

/-- What an argument says. -/
def Argument.wording (a : Argument) : Option String × String :=
  (a.name.map Span.fragment, a.value.fragment)

/-- What a piece says. -/
def Piece.wording : Piece → Wording
  | .text span => .text span.fragment
  | .call c => .call c.name.fragment (c.args.map Argument.wording)

/-- What a scanned argument says. -/
def RawArgument.wording (a : RawArgument) : Option String × String :=
  match splitKeyword a.content with
  | some (key, value) => (some (String.ofList key), String.ofList value)
  | none => (none, String.ofList a.content)

/-- What a part of a scan says. -/
def RawPiece.wording : RawPiece → Wording
  | .text run => .text (String.ofList run)
  | .breaks ends =>
    if ends.length = 1 then .text (String.ofList (ends.flatMap Newline.chars))
    else .call parCommand []
  | .call name args => .call (String.ofList name) (args.map RawArgument.wording)

/-! ### Reading -/

theorem Argument.Reads.wording {offset : Int} {raw : RawArgument} {a : Argument}
    (h : a.Reads offset raw.content) : a.wording = raw.wording := by
  unfold Argument.wording RawArgument.wording
  rcases h with ⟨key, value, name, hform, hname, hkey, hvalue⟩ | ⟨hnone, hname, hvalue⟩
  · rw [splitKeyword_eq_some_iff.mpr hform, hname, Option.map_some, hkey.2, hvalue.2]
  · have hsplit : splitKeyword raw.content = none := by
      cases hsplit : splitKeyword raw.content with
      | none => rfl
      | some found => exact (hnone found.1 found.2 (splitKeyword_eq_some_iff.mp hsplit)).elim
    rw [hsplit, hname, Option.map_none, hvalue.2]

theorem ArgumentsRead.wording {offset : Int} {raws : List RawArgument} {args : List Argument}
    (h : ArgumentsRead offset raws args) :
    args.map Argument.wording = raws.map RawArgument.wording := by
  induction h with
  | nil => rfl
  | cons ha _ ih => rw [List.map_cons, List.map_cons, ha.wording, ih]

namespace Reader

theorem piece_wording {r : Reader} {p : RawPiece} {ahead : List Char}
    (h : r.rest = p.chars ++ ahead) : (r.piece p).1.wording = p.wording := by
  cases p with
  | text run =>
      have hcovers : ((r.skip run.length).span r.pos (r.pos + run.length : Nat)).1.Covers
          (r.region.offset + r.pos) run := span_covers _ h rfl rfl
      exact congrArg Wording.text hcovers.2
  | call name args =>
      obtain ⟨hname, hargs, -⟩ := r.call_reads h
      change Wording.call (r.call name args).1.name.fragment
        ((r.call name args).1.args.map Argument.wording) = _
      rw [hname.2, hargs.wording]
      rfl
  | breaks ends =>
      by_cases hone : ends.length = 1
      · obtain ⟨e, rfl⟩ := List.length_eq_one_iff.mp hone
        rw [RawPiece.chars, List.flatMap_singleton] at h
        have hcovers : (r.span r.pos (r.pos + e.chars.length : Nat)).1.Covers
            (r.region.offset + r.pos) e.chars := r.span_covers h rfl rfl
        rw [RawPiece.wording, if_pos hone, List.flatMap_singleton]
        exact congrArg Wording.text hcovers.2
      · simp only [Reader.piece, RawPiece.wording, if_neg hone]
        rfl

theorem pieces_wording : ∀ {r : Reader} {raw : List RawPiece} {ahead : List Char},
    r.rest = raw.flatMap RawPiece.chars ++ ahead →
      (r.pieces raw).1.map Piece.wording = raw.map RawPiece.wording
  | _, [], _, _ => rfl
  | r, p :: raw, ahead, h => by
      rw [List.flatMap_cons, List.append_assoc] at h
      obtain ⟨htext, hpos⟩ := r.piece_after p
      have hafter : (r.piece p).2.rest = raw.flatMap RawPiece.chars ++ ahead := by
        rw [Reader.rest, htext, hpos]
        exact drop_add_of_drop h
      change (r.piece p).1.wording :: ((r.piece p).2.pieces raw).1.map Piece.wording = _
      rw [piece_wording h, pieces_wording hafter, List.map_cons]

end Reader

section reading

variable {source source' : Source} {region region' : Span} {pieces : List Piece}

/-- **The words of what is read are those of the scan.** -/
theorem readMarkup_wording (h : readMarkup source region = .ok pieces) :
    pieces.map Piece.wording =
      (scanRegion region.fragment.toList).pieces.map RawPiece.wording := by
  obtain ⟨-, rfl⟩ := readMarkup_eq_ok_iff.mp h
  obtain ⟨after, hchars⟩ := (scanRegion_covers region.fragment.toList).chars
  exact Reader.pieces_wording hchars

theorem exists_readMarkup (hstop : (scanRegion region.fragment.toList).stop = none) :
    ∃ pieces, readMarkup source region = .ok pieces :=
  ⟨_, readMarkup_eq_ok_iff.mpr ⟨hstop, rfl⟩⟩

/-- A region of the same text is read to the same words. -/
theorem readMarkup_of_fragment_eq (h : readMarkup source region = .ok pieces)
    (htext : region.fragment = region'.fragment) :
    ∃ pieces', readMarkup source' region' = .ok pieces' ∧
      pieces.map Piece.wording = pieces'.map Piece.wording := by
  have hstop := (readMarkup_eq_ok_iff.mp h).1
  rw [htext] at hstop
  obtain ⟨pieces', hread⟩ : ∃ pieces', readMarkup source' region' = .ok pieces' :=
    exists_readMarkup hstop
  refine ⟨pieces', hread, ?_⟩
  rw [readMarkup_wording h, readMarkup_wording hread, htext]

theorem ArgMode.read_of_fragment_eq {mode : ArgMode} (h : mode.read source region = .ok pieces)
    (htext : region.fragment = region'.fragment) :
    ∃ pieces', mode.read source' region' = .ok pieces' ∧
      pieces.map Piece.wording = pieces'.map Piece.wording := by
  cases mode with
  | markup => exact readMarkup_of_fragment_eq h htext
  | literal =>
      cases h
      refine ⟨readLiteral region', rfl, ?_⟩
      simp [readLiteral, Piece.wording, htext]

end reading

/-! ### Scanning up to a newline -/

/-- No brace comes first, after inline space. -/
def NoBrace (cs : List Char) : Prop := ∀ c ∈ (cs.dropWhile isInlineSpace).head?, c ≠ '{'

theorem scanArguments_of_noBrace {cs : List Char} (h : NoBrace cs) :
    scanArguments cs = ⟨[], cs, none⟩ := by
  rw [scanArguments]
  split
  · rfl
  · next c body hdrop =>
    have hc : c ≠ '{' := h c (by rw [hdrop]; rfl)
    rw [if_neg hc]

/-- Behind arguments that are all closed there is no brace. -/
theorem noBrace_scanArguments {cs : List Char} (h : ¬ Unclosed (scanArguments cs).rest) :
    NoBrace (scanArguments cs).rest := by
  rw [← scanArguments_unclosed_iff] at h
  fun_induction scanArguments cs with
  | case1 cs hdrop =>
      intro c hc
      rw [hdrop] at hc
      cases hc
  | case2 => exact (h rfl).elim
  | case3 cs body content rest hb scan hdrop ih => exact ih h
  | case4 cs c body hdrop hc =>
      intro d hd
      rw [hdrop] at hd
      obtain rfl := Option.some.inj hd
      exact hc

section append

variable {e : Newline} {tail : List Char}

theorem noBrace_append {cs : List Char} (h : NoBrace cs) : NoBrace (cs ++ (e.chars ++ tail)) := by
  have hspace : isInlineSpace '\n' = false ∧ isInlineSpace '\r' = false := by decide +kernel
  unfold NoBrace at h ⊢
  rw [List.dropWhile_append]
  split
  · intro c hc
    cases e with
    | lf =>
        rw [Newline.chars, List.singleton_append, List.dropWhile_cons_of_neg (by simp [hspace.1])]
          at hc
        obtain rfl := Option.some.inj hc
        decide
    | crlf =>
        rw [Newline.chars, List.cons_append, List.dropWhile_cons_of_neg (by simp [hspace.2])] at hc
        obtain rfl := Option.some.inj hc
        decide
  · next hne =>
    rw [List.head?_append_of_ne_nil _ (by simpa using hne)]
    exact h

theorem LongestArguments.append {cs rest : List Char} {args : List RawArgument}
    (h : LongestArguments cs args rest) (hclosed : ¬ Unclosed rest) :
    LongestArguments (cs ++ (e.chars ++ tail)) args (rest ++ (e.chars ++ tail)) ∧
      ¬ Unclosed (rest ++ (e.chars ++ tail)) := by
  obtain ⟨hargs, hrest⟩ := h.eq_scan
  have hbrace : NoBrace rest := by
    rw [hrest] at hclosed ⊢
    exact noBrace_scanArguments hclosed
  have hscan := scanArguments_flatMap h.valid (rest ++ (e.chars ++ tail))
  rw [scanArguments_of_noBrace (noBrace_append hbrace), List.append_nil, ← List.append_assoc,
    ← h.chars] at hscan
  have hlongest := scanArguments_longest (cs ++ (e.chars ++ tail))
  have hunclosed := scanArguments_unclosed_iff (cs ++ (e.chars ++ tail))
  rw [hscan] at hlongest hunclosed
  refine ⟨hlongest, fun hopen => ?_⟩
  have hsome := hunclosed.mpr hopen
  cases hsome

theorem NameAt.append {cs name after : List Char} (h : NameAt cs name after) :
    NameAt (cs ++ (e.chars ++ tail)) name (after ++ (e.chars ++ tail)) := by
  have hcontinue : isNameContinue '\r' = false ∧ isNameContinue '\n' = false := by decide +kernel
  refine ⟨by rw [h.chars, List.append_assoc], h.name, ?_⟩
  cases after with
  | cons c after => exact h.longest
  | nil =>
      intro c hc
      cases e with
      | lf =>
          obtain rfl := Option.some.inj hc
          exact hcontinue.2
      | crlf =>
          obtain rfl := Option.some.inj hc
          exact hcontinue.1

theorem noBreak_append {cs : List Char} (h : NoBreak cs) (hne : cs ≠ []) (hcr : cs ≠ ['\r']) :
    NoBreak (cs ++ tail) := by
  match cs, hne with
  | [c], _ =>
      intro e' hprefix
      cases e' with
      | lf =>
          obtain ⟨rfl, -⟩ := List.cons_prefix_cons.mp hprefix
          exact h .lf (List.prefix_refl _)
      | crlf =>
          obtain ⟨rfl, -⟩ := List.cons_prefix_cons.mp hprefix
          exact hcr rfl
  | c :: d :: more, _ =>
      intro e' hprefix
      refine h e' ?_
      cases e' with
      | lf => simpa [Newline.chars] using hprefix
      | crlf => simpa [Newline.chars] using hprefix

/-- A step that leaves something, or does not end in a newline, is the same in front of a
newline. -/
theorem ScanStep.append {cs rest : List Char} {p : RawPiece} (h : ScanStep cs p rest)
    (hend : cs.getLast? ≠ some '\n') (hcr : rest ≠ ['\r']) :
    ScanStep (cs ++ (e.chars ++ tail)) p (rest ++ (e.chars ++ tail)) := by
  cases h with
  | call h hclosed =>
      obtain ⟨after, hname, hargs⟩ := h
      obtain ⟨hargs', hclosed'⟩ := hargs.append hclosed
      exact .call ⟨_, hname.append, hargs'⟩ hclosed'
  | text hne hrun hstop =>
      rw [List.append_assoc]
      refine .text hne hrun ?_
      cases rest with
      | cons c rest => exact hstop
      | nil =>
          intro c hc
          cases e with
          | lf =>
              obtain rfl := Option.some.inj hc
              decide
          | crlf =>
              obtain rfl := Option.some.inj hc
              decide
  | @breaks ends _ hne hstop =>
      have hrest : rest ≠ [] := by
        rintro rfl
        obtain ⟨more, last, rfl⟩ := List.eq_nil_or_concat ends |>.resolve_left hne
        cases last <;> simp [Newline.chars] at hend
      rw [List.append_assoc]
      exact .breaks hne (noBreak_append hstop hrest hcr)

theorem scanRegion_cr : scanRegion ['\r'] = ⟨[], some (.unexpected '\r')⟩ := by
  refine scanRegion_stop ?_ (by decide) ?_
  · rintro ⟨c, rest, heq, -⟩
    cases heq
  · intro e'
    cases e' <;> decide

/-- **A text that is scanned to its end is scanned the same way in front of a newline.** -/
theorem scanRegion_append {cs : List Char} (hstop : (scanRegion cs).stop = none)
    (hend : cs.getLast? ≠ some '\n') :
    scanRegion (cs ++ (e.chars ++ tail)) =
      ⟨(scanRegion cs).pieces ++ (scanRegion (e.chars ++ tail)).pieces,
        (scanRegion (e.chars ++ tail)).stop⟩ := by
  -- The induction follows the steps of the scan.
  have hrun := scanRegion_run cs
  generalize scanRegion cs = scan at hrun
  induction hrun with
  | done => simp
  | stuck h =>
      obtain ⟨found, hscan⟩ := h.scanRegion_eq
      rw [hscan] at hstop
      cases hstop
  | @step cs rest p scan hstep hrun ih =>
      rw [hstep.scanRegion_eq] at hstop
      have hlast : rest.getLast? ≠ some '\n' := by
        intro hlast
        obtain ⟨front, hfront⟩ := List.getLast?_eq_some_iff.mp hlast
        rw [hstep.chars, hfront, ← List.append_assoc, List.getLast?_concat] at hend
        exact hend rfl
      have hcr : rest ≠ ['\r'] := by
        rintro rfl
        rw [scanRegion_cr] at hstop
        cases hstop
      have hnext : ScanStep (cs ++ (e.chars ++ tail)) p (rest ++ (e.chars ++ tail)) :=
        hstep.append hend hcr
      rw [hnext.scanRegion_eq, ih hstop hlast]
      rfl

end append

/-- **A run of newlines divides a text into two that are scanned apart.** -/
theorem scanRegion_append_breaks {cs rest : List Char} {ends : List Newline}
    (hstop : (scanRegion cs).stop = none) (hend : cs.getLast? ≠ some '\n') (hne : ends ≠ [])
    (hrest : NoBreak rest) :
    scanRegion (cs ++ (ends.flatMap Newline.chars ++ rest)) =
      ⟨(scanRegion cs).pieces ++ .breaks ends :: (scanRegion rest).pieces,
        (scanRegion rest).stop⟩ := by
  have hbreaks := (ScanStep.breaks hne hrest).scanRegion_eq
  cases ends with
  | nil => exact (hne rfl).elim
  | cons e ends =>
      rw [List.flatMap_cons, List.append_assoc] at hbreaks ⊢
      rw [scanRegion_append hstop hend, hbreaks]
      rfl

/-- Two texts with a paragraph break between them are read to the pieces of the first, the paragraph
command and the pieces of the second. -/
theorem readMarkup_append_breaks {source source' joined : Source} {ps qs : List Piece}
    {ends : List Newline} (hread : readMarkup source source.span = .ok ps)
    (hread' : readMarkup source' source'.span = .ok qs)
    (hend : source.text.toList.getLast? ≠ some '\n') (hstart : NoBreak source'.text.toList)
    (hmany : 2 ≤ ends.length) (hjoined : joined.text.toList =
      source.text.toList ++ (ends.flatMap Newline.chars ++ source'.text.toList)) :
    ∃ pieces, readMarkup joined joined.span = .ok pieces ∧
      (ps ++ .call ⟨Source.parSpan default, []⟩ :: qs).map Piece.wording =
        pieces.map Piece.wording := by
  have hne : ends ≠ [] := by
    rintro rfl
    cases hmany
  obtain ⟨hstop, -⟩ := readMarkup_eq_ok_iff.mp hread
  obtain ⟨hstop', -⟩ := readMarkup_eq_ok_iff.mp hread'
  have hscan := scanRegion_append_breaks hstop hend hne hstart
  have hjoint : joined.span.fragment.toList =
      source.span.fragment.toList ++ (ends.flatMap Newline.chars ++ source'.text.toList) := hjoined
  rw [← hjoint] at hscan
  obtain ⟨pieces, hok⟩ : ∃ pieces, readMarkup joined joined.span = .ok pieces := by
    refine exists_readMarkup ?_
    rw [hscan]
    exact hstop'
  refine ⟨pieces, hok, ?_⟩
  have hbreak : (RawPiece.breaks ends).wording = .call parCommand [] := by
    rw [RawPiece.wording, if_neg (by omega)]
  rw [readMarkup_wording hok, hscan, List.map_append, List.map_append, List.map_cons,
    List.map_cons, readMarkup_wording hread, readMarkup_wording hread', hbreak]
  rfl

end Markup
