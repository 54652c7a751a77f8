import Markup.Proofs.Call.Wording

/-! # Text without commands

A text without backslashes, in which every carriage return stands before a line feed, has no markup
(`MarkupFree`).  It can be read to its end, and all that is found in it is text, single newlines,
which are text too, and runs of newlines, which stand for the paragraph command.

`segments` divides a text at its runs of two or more newlines, and knows nothing of commands.  What
is read between the paragraph commands of a text without markup makes up its segments
(`MarkupFree.scan` and `MarkupFree.exists_readMarkup`). -/

namespace Markup

open Text

/-! ### Segments -/

/-- The number of newlines that a text starts with, and what follows them. -/
def newlineRun : List Char → Nat × List Char
  | '\n' :: rest => ((newlineRun rest).1 + 1, (newlineRun rest).2)
  | '\r' :: '\n' :: rest => ((newlineRun rest).1 + 1, (newlineRun rest).2)
  | cs => (0, cs)

theorem newlineRun_length (cs : List Char) :
    (newlineRun cs).1 + (newlineRun cs).2.length ≤ cs.length := by
  fun_induction newlineRun cs with
  | case1 rest ih =>
      simp only [List.length_cons]
      omega
  | case2 rest ih =>
      simp only [List.length_cons]
      omega
  | case3 cs => simp

/-- What stands before, between and after the runs of two or more newlines of a text. -/
def segments : List Char → List (List Char)
  | [] => [[]]
  | c :: cs =>
    if 2 ≤ (newlineRun (c :: cs)).1 then [] :: segments (newlineRun (c :: cs)).2
    else (segments cs).modifyHead (c :: ·)
termination_by cs => cs.length
decreasing_by
  · have := newlineRun_length (c :: cs)
    omega
  · simp

/-- The newlines that come first are those that a scan takes. -/
theorem newlineRun_eq (cs : List Char) :
    newlineRun cs = ((scanBreaks cs).1.length, (scanBreaks cs).2) := by
  fun_induction newlineRun cs with
  | case1 rest ih =>
      rw [ih, scanBreaks_lf]
      rfl
  | case2 rest ih =>
      rw [ih, scanBreaks_crlf]
      rfl
  | case3 cs hlf hcrlf =>
      have hbreak : NoBreak cs := by
        rintro (_ | _) ⟨rest, rfl⟩
        · exact hlf rest rfl
        · exact hcrlf rest rfl
      rw [scanBreaks_of_noBreak hbreak]
      rfl

theorem newlineRun_flatMap (ends : List Newline) {rest : List Char} (h : NoBreak rest) :
    newlineRun (ends.flatMap Newline.chars ++ rest) = (ends.length, rest) := by
  rw [newlineRun_eq, scanBreaks_flatMap ends h]

/-- A character that starts no run of two newlines belongs to the first segment. -/
theorem segments_cons {c : Char} {cs : List Char} (h : (newlineRun (c :: cs)).1 < 2) :
    segments (c :: cs) = (segments cs).modifyHead (c :: ·) := by
  rw [segments, if_neg (by omega)]

theorem noBreak_of_isTextChar {c : Char} (h : isTextChar c = true) (cs : List Char) :
    NoBreak (c :: cs) := by
  rintro (_ | _) hprefix
  · obtain ⟨rfl, -⟩ := List.cons_prefix_cons.mp hprefix
    cases h
  · obtain ⟨rfl, -⟩ := List.cons_prefix_cons.mp hprefix
    cases h

theorem modifyHead_nil_append {α : Type} (xss : List (List α)) :
    xss.modifyHead ([] ++ ·) = xss := by
  cases xss <;> rfl

theorem segments_text {run rest : List Char} (h : ∀ c ∈ run, isTextChar c = true) :
    segments (run ++ rest) = (segments rest).modifyHead (run ++ ·) := by
  induction run with
  | nil => rw [List.nil_append, modifyHead_nil_append]
  | cons c run ih =>
      have hbreak : NoBreak (c :: (run ++ rest)) :=
        noBreak_of_isTextChar (h c List.mem_cons_self) _
      have hnone : newlineRun (c :: (run ++ rest)) = (0, c :: (run ++ rest)) :=
        newlineRun_flatMap [] hbreak
      have hcons : segments (c :: (run ++ rest)) =
          (segments (run ++ rest)).modifyHead (c :: ·) := segments_cons (by simp [hnone])
      rw [List.cons_append, hcons, ih fun d hd => h d (List.mem_cons_of_mem c hd),
        List.modifyHead_modifyHead]
      rfl

/-- A single newline belongs to the segment around it. -/
theorem segments_newline (e : Newline) {rest : List Char} (h : NoBreak rest) :
    segments (e.chars ++ rest) = (segments rest).modifyHead (e.chars ++ ·) := by
  have hlf : newlineRun ('\n' :: rest) = (1, rest) := newlineRun_flatMap [.lf] h
  have hcrlf : newlineRun ('\r' :: '\n' :: rest) = (1, rest) := newlineRun_flatMap [.crlf] h
  cases e with
  | lf =>
      change segments ('\n' :: rest) = _
      rw [segments_cons (by simp [hlf])]
      rfl
  | crlf =>
      change segments ('\r' :: '\n' :: rest) = _
      rw [segments_cons (by simp [hcrlf]), segments_cons (by simp [hlf]),
        List.modifyHead_modifyHead]
      rfl

/-- A run of newlines ends a segment. -/
theorem segments_breaks {ends : List Newline} {rest : List Char} (hmany : 2 ≤ ends.length)
    (h : NoBreak rest) :
    segments (ends.flatMap Newline.chars ++ rest) = [] :: segments rest := by
  have hrun := newlineRun_flatMap ends h
  cases hcs : ends.flatMap Newline.chars ++ rest with
  | nil =>
      rw [hcs] at hrun
      have hlength : 0 = ends.length := congrArg Prod.fst hrun
      omega
  | cons c cs =>
      rw [hcs] at hrun
      rw [segments, hrun, if_pos hmany]

/-! ### Words in groups -/

/-- Text, or the paragraph command. -/
def Wording.Plain : Wording → Prop
  | .text _ => True
  | .call name args => name = parCommand ∧ args = []

/-- The texts, in groups that commands divide. -/
def textGroups : List Wording → List (List String)
  | [] => [[]]
  | .text t :: rest => (textGroups rest).modifyHead (t :: ·)
  | .call _ _ :: rest => [] :: textGroups rest

theorem map_join_modifyHead (t : String) (gs : List (List String)) :
    (gs.modifyHead (t :: ·)).map String.join = (gs.map String.join).modifyHead (t ++ ·) := by
  cases gs with
  | nil => rfl
  | cons g gs => simp [String.join_cons]

theorem map_ofList_modifyHead (run : List Char) (segs : List (List Char)) :
    (segs.modifyHead (run ++ ·)).map String.ofList =
      (segs.map String.ofList).modifyHead (String.ofList run ++ ·) := by
  cases segs with
  | nil => rfl
  | cons seg segs => simp

/-! ### Texts without markup -/

/-- No backslash, and no carriage return but before a line feed. -/
structure MarkupFree (cs : List Char) : Prop where
  slash : '\\' ∉ cs
  returns : ∀ i < cs.length, cs[i]? = some '\r' → cs[i + 1]? = some '\n'

namespace MarkupFree

theorem of_append {front rest : List Char} (h : MarkupFree (front ++ rest)) : MarkupFree rest where
  slash := fun hmem => h.slash (List.mem_append_right front hmem)
  returns := by
    intro i hi hreturn
    have hshift : ∀ j, (front ++ rest)[front.length + j]? = rest[j]? := fun j => by
      rw [List.getElem?_append_right (Nat.le_add_right _ _), Nat.add_sub_cancel_left]
    have hlength : front.length + i < (front ++ rest).length := by
      rw [List.length_append]
      omega
    have hnext := h.returns (front.length + i) hlength (by rw [hshift, hreturn])
    rw [Nat.add_assoc, hshift] at hnext
    exact hnext

theorem not_commandAt {cs name rest : List Char} {args : List RawArgument} (h : MarkupFree cs) :
    ¬ CommandAt cs name args rest := by
  intro hcommand
  refine h.slash ?_
  rw [hcommand.chars]
  simp

theorem not_stuck {cs : List Char} {stop : ScanStop} (h : MarkupFree cs) : ¬ ScanStuck cs stop := by
  intro hstuck
  cases hstuck with
  | unclosed hcommand _ => exact h.not_commandAt hcommand
  | nameless _ => exact h.slash List.mem_cons_self
  | @unexpected c rest hslash htext hbreak =>
      have hc : c = '\r' ∨ c = '\n' := by
        simp only [isTextChar, Bool.and_eq_false_iff, bne_eq_false_iff_eq] at htext
        tauto
      rcases hc with rfl | rfl
      · have hnext := h.returns 0 (by simp) rfl
        rw [List.getElem?_cons_succ, ← List.head?_eq_getElem?] at hnext
        obtain ⟨after, rfl⟩ := List.head?_eq_some_iff.mp hnext
        exact hbreak .crlf ⟨after, rfl⟩
      · exact hbreak .lf ⟨rest, rfl⟩

/-- One step takes text off the first segment, or ends that segment with the paragraph command. -/
theorem step {cs rest : List Char} {p : RawPiece} (h : MarkupFree cs) (hstep : ScanStep cs p rest) :
    (∃ run, p.wording = .text (String.ofList run) ∧
      segments cs = (segments rest).modifyHead (run ++ ·)) ∨
    (p.wording = .call parCommand [] ∧ segments cs = [] :: segments rest) := by
  cases hstep with
  | call hcommand _ => exact (h.not_commandAt hcommand).elim
  | @text run _ _ hrun _ => exact .inl ⟨run, rfl, segments_text hrun⟩
  | @breaks ends _ hne hstop =>
      by_cases hone : ends.length = 1
      · obtain ⟨e, rfl⟩ := List.length_eq_one_iff.mp hone
        rw [List.flatMap_singleton]
        refine .inl ⟨e.chars, ?_, segments_newline e hstop⟩
        rw [RawPiece.wording, if_pos hone, List.flatMap_singleton]
      · have hpos := List.length_pos_iff.mpr hne
        refine .inr ⟨?_, segments_breaks (by omega) hstop⟩
        rw [RawPiece.wording, if_neg hone]

/-- **A scan of a text without markup comes to its end, finds no command in it, and the texts that
it finds between runs of newlines make up the segments.** -/
theorem scan {cs : List Char} (h : MarkupFree cs) :
    (scanRegion cs).stop = none ∧
      (∀ word ∈ (scanRegion cs).pieces.map RawPiece.wording, word.Plain) ∧
      (textGroups ((scanRegion cs).pieces.map RawPiece.wording)).map String.join =
        (segments cs).map String.ofList := by
  -- The induction follows the steps of the scan.
  have hrun := scanRegion_run cs
  generalize scanRegion cs = found at hrun
  induction hrun with
  | done => simp [textGroups, segments, String.join_nil]
  | stuck hstuck => exact (h.not_stuck hstuck).elim
  | @step cs rest p found hstep _ ih =>
      have hrest : MarkupFree rest := of_append (hstep.chars ▸ h)
      obtain ⟨hstop, hplain, hsegments⟩ := ih hrest
      simp only [RegionScan.cons, List.map_cons, List.forall_mem_cons]
      rcases h.step hstep with ⟨run, hword, hcs⟩ | ⟨hword, hcs⟩
      · rw [hword, hcs, textGroups, map_join_modifyHead, map_ofList_modifyHead, hsegments]
        exact ⟨hstop, ⟨trivial, hplain⟩, rfl⟩
      · rw [hword, hcs, textGroups, List.map_cons, List.map_cons, hsegments]
        exact ⟨hstop, ⟨⟨rfl, rfl⟩, hplain⟩, rfl⟩

/-- A text without markup is read to texts and paragraph commands, and the texts between those are
its segments. -/
theorem exists_readMarkup {source : Source} (h : MarkupFree source.text.toList) :
    ∃ pieces, readMarkup source source.span = .ok pieces ∧
      (∀ p ∈ pieces, p.wording.Plain) ∧
      (textGroups (pieces.map Piece.wording)).map String.join =
        (segments source.text.toList).map String.ofList := by
  obtain ⟨hstop, hplain, hsegments⟩ := h.scan
  obtain ⟨pieces, hread⟩ : ∃ pieces, readMarkup source source.span = .ok pieces :=
    Markup.exists_readMarkup hstop
  have hwords := readMarkup_wording hread
  change pieces.map Piece.wording =
    (scanRegion source.text.toList).pieces.map RawPiece.wording at hwords
  rw [← hwords] at hplain hsegments
  exact ⟨pieces, hread, fun p hp => hplain _ (List.mem_map_of_mem hp), hsegments⟩

end MarkupFree

end Markup
