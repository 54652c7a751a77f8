import Markup.Proofs.Call.Segments
import Markup.Proofs.Library.Metadata

/-! # Arguments taken as text

Targets, languages and metadata are taken as text: the argument is read for commands and text as any
other, and the texts are put together again.  Nothing is lost on the way, since what is read takes
up the whole region (`Tiles`).  A command on the way is an error, and so are two newlines in a row,
which stand for a command: `IsText` says when there is neither, and `Tiles.isText_iff` that then,
and only then, all pieces are text.

An argument may be used once, and taking it as text uses it whether or not it is text.  The main
statement is `intoString_lossless`. -/

namespace Markup

open Text

/-! ### Texts without commands -/

/-- No command starts anywhere in a text, and no newline follows another. -/
structure IsText (cs : List Char) : Prop where
  noCommand : ∀ rest, rest <:+ cs → ¬ StartsCommand rest
  noBreaks : ∀ e e' : Newline, ¬ e.chars ++ e'.chars <:+: cs

namespace IsText

theorem nil : IsText [] where
  noCommand := by
    rintro rest hsuffix ⟨c, more, rfl, -⟩
    cases List.suffix_nil.mp hsuffix
  noBreaks := by
    intro e e' h
    have := List.infix_nil.mp h
    cases e <;> cases this

theorem cons {c : Char} {cs : List Char} (h : IsText cs) (hslash : c ≠ '\\')
    (hbreaks : ∀ e e' : Newline, ¬ e.chars ++ e'.chars <+: c :: cs) : IsText (c :: cs) where
  noCommand := by
    intro rest hsuffix hstarts
    rcases List.suffix_cons_iff.mp hsuffix with rfl | hsuffix
    · obtain ⟨d, more, heq, -⟩ := hstarts
      exact hslash (List.cons.inj heq).1
    · exact h.noCommand rest hsuffix hstarts
  noBreaks := by
    intro e e' hwithin
    rcases List.infix_cons_iff.mp hwithin with hfront | hwithin
    · exact hbreaks e e' hfront
    · exact h.noBreaks e e' hwithin

theorem of_append {front rest : List Char} (h : IsText (front ++ rest)) : IsText rest where
  noCommand := fun more hsuffix => h.noCommand more (hsuffix.trans (List.suffix_append front rest))
  noBreaks := fun e e' hwithin =>
    h.noBreaks e e' (hwithin.trans (List.suffix_append front rest).isInfix)

theorem text_append {run rest : List Char} (hrun : ∀ c ∈ run, isTextChar c = true)
    (h : IsText rest) : IsText (run ++ rest) := by
  induction run with
  | nil => exact h
  | cons c run ih =>
      have hc := hrun c List.mem_cons_self
      have hslash : c ≠ '\\' := by
        rintro rfl
        cases hc
      refine (ih fun d hd => hrun d (List.mem_cons_of_mem c hd)).cons hslash fun e e' hfront => ?_
      exact noBreak_of_isTextChar hc (run ++ rest) e ((List.prefix_append _ _).trans hfront)

theorem lf_append {rest : List Char} (h : IsText rest) (hstop : NoBreak rest) :
    IsText ('\n' :: rest) := by
  refine h.cons (by decide) fun e e' hfront => ?_
  cases e with
  | lf => exact hstop e' (List.cons_prefix_cons.mp hfront).2
  | crlf => cases (List.cons_prefix_cons.mp hfront).1

/-- A newline that has no other behind it. -/
theorem newline_append (e : Newline) {rest : List Char} (h : IsText rest) (hstop : NoBreak rest) :
    IsText (e.chars ++ rest) := by
  cases e with
  | lf => exact h.lf_append hstop
  | crlf =>
      refine (h.lf_append hstop).cons (by decide) fun e e' hfront => ?_
      cases e with
      | lf => cases (List.cons_prefix_cons.mp hfront).1
      | crlf =>
          exact hstop e'
            (List.cons_prefix_cons.mp (List.cons_prefix_cons.mp hfront).2).2

end IsText

/-! ### Pieces -/

/-- A piece that is text, be it a run or a newline. -/
def Piece.IsText : Piece → Prop
  | .text _ => True
  | .call _ => False

theorem NameAt.startsCommand {cs name after : List Char} (h : NameAt cs name after) :
    StartsCommand cs := by
  obtain ⟨c, more, hname, hc, -⟩ := h.name
  exact ⟨c, more ++ after, by rw [h.chars, hname]; rfl, hc⟩

/-- Where a command is taken off a region, the region is not text. -/
theorem Piece.TakesUp.isText {region : Span} {before part after : List Char} {p : Piece}
    (h : p.TakesUp region before part after) (htext : Markup.IsText (part ++ after)) :
    p.IsText := by
  cases h with
  | run => trivial
  | newline => trivial
  | @paragraph c ends last hpart hmany =>
      -- The last two of the newlines stand side by side.
      obtain ⟨front, e, rfl⟩ := List.eq_nil_or_concat' ends |>.resolve_left hmany
      refine htext.noBreaks e last ⟨front.flatMap Newline.chars, after, ?_⟩
      rw [hpart, List.flatMap_append, List.flatMap_singleton]
      simp only [List.append_assoc]
  | command hcommand =>
      obtain ⟨behind, hname, -⟩ := hcommand
      exact htext.noCommand _ List.suffix_rfl hname.startsCommand

/-- **All pieces of a region are text exactly if the region is.** -/
theorem Tiles.isText_iff {region : Span} {before : List Char} {pieces : List Piece}
    (h : Tiles region before pieces) : ∀ {ahead : List Char},
      region.fragment.toList = before ++ ahead →
      ((∀ p ∈ pieces, p.IsText) ↔ IsText ahead) := by
  induction h with
  | done =>
      intro ahead hahead
      have hnil : ahead = [] := by simpa using hahead
      rw [hnil]
      exact iff_of_true (List.forall_mem_nil _) .nil
  | @next before part after p rest hchars hne hp htiles ih =>
      intro ahead hahead
      obtain rfl : ahead = part ++ after := by
        rw [hchars, List.append_assoc] at hahead
        exact (List.append_cancel_left hahead).symm
      rw [List.forall_mem_cons, ih hchars]
      constructor
      · rintro ⟨hpiece, hafter⟩
        cases hp with
        | run _ hrun _ => exact .text_append hrun hafter
        | newline hpart _ _ hstop => exact hpart ▸ .newline_append _ hafter hstop
        | paragraph => exact hpiece.elim
        | command => exact hpiece.elim
      · intro htext
        exact ⟨hp.isText htext, htext.of_append⟩

theorem readMarkup_isText_iff {source : Source} {region : Span} {pieces : List Piece}
    (h : readMarkup source region = .ok pieces) :
    (∀ p ∈ pieces, p.IsText) ↔ IsText region.fragment.toList := by
  obtain ⟨hend, rfl⟩ := readMarkup_eq_ok_iff.mp h
  have hbetween : (Reader.ofRegion region).Between [] region.fragment.toList := ⟨rfl, rfl, rfl⟩
  have htiles := (scanRegion_run region.fragment.toList).tiles hend hbetween
    (.inr fun c hc => by cases hc)
  exact htiles.isText_iff rfl

/-- What is taken as text, or the first command in it. -/
theorem literalText_cases : ∀ pieces : List Piece,
    ((∀ p ∈ pieces, p.IsText) ∧ ∃ s, literalText pieces = .ok s) ∨
    ∃ before c after, pieces = before ++ .call c :: after ∧ (∀ p ∈ before, p.IsText) ∧
      literalText pieces =
        .error ⟨.shape (.commandInText c.name.fragment), some c.name, none⟩
  | [] => .inl ⟨List.forall_mem_nil _, "", rfl⟩
  | .call c :: rest => .inr ⟨[], c, rest, rfl, List.forall_mem_nil _, rfl⟩
  | .text span :: rest => by
      rcases literalText_cases rest with ⟨htext, s, hs⟩ | ⟨before, c, after, rfl, htext, hs⟩
      · refine .inl ⟨List.forall_mem_cons.mpr ⟨trivial, htext⟩, span.fragment ++ s, ?_⟩
        rw [literalText, hs]
        rfl
      · refine .inr ⟨.text span :: before, c, after, rfl,
          List.forall_mem_cons.mpr ⟨trivial, htext⟩, ?_⟩
        rw [literalText, hs]
        rfl

/-! ### Arguments used before -/

namespace Deferred

/-- Whatever is asked of an argument, the answer is that it was used before, and nothing else
happens. -/
structure UsedUp (t : Deferred) : Prop where
  text : t.intoString.1 = .error ⟨.alreadyUsed, none, none⟩
  force : ∀ run s, t.force run s = (.error (.command ⟨.alreadyUsed, none, none⟩), s)
  blocks : ∀ run s, t.intoBlocks run s = (.error (.command ⟨.alreadyUsed, none, none⟩), s)
  inlines : ∀ run s, t.intoInlines run s = (.error (.command ⟨.alreadyUsed, none, none⟩), s)

theorem usedUp_of_spent {t : Deferred} (h : t.spent = true) : t.UsedUp := by
  obtain ⟨content, spent⟩ := t
  obtain rfl : spent = true := h
  exact ⟨rfl, fun _ _ => rfl, fun _ _ => rfl, fun _ _ => rfl⟩

/-- Once an argument has been used, it stays so. -/
theorem spent_iterate {t : Deferred} (h : t.spent = true) (n : Nat) :
    ((fun u : Deferred => u.use.2)^[n] t).spent = true := by
  induction n with
  | zero => exact h
  | succ n ih => rw [Function.iterate_succ_apply']; rfl

/-- **Taking an argument as text loses nothing.**  For an argument that was read off a region, the
text is that of the region if no command is in it, and no newline next to another.  Otherwise the
error is at the name of the first command, which may be a paragraph command that newlines stand for.
Either way the argument is used up, also after further attempts to use it. -/
theorem intoString_lossless {source : Source} {region : Span} {pieces : List Piece}
    (h : readMarkup source region = .ok pieces) :
    (IsText region.fragment.toList → (ofPieces pieces).intoString.1 = .ok region.fragment) ∧
    (¬ IsText region.fragment.toList →
      ∃ before c after, pieces = before ++ .call c :: after ∧ (∀ p ∈ before, p.IsText) ∧
        (ofPieces pieces).intoString.1 =
          .error ⟨.shape (.commandInText c.name.fragment), some c.name, none⟩) ∧
    ∀ n, UsedUp ((fun t : Deferred => t.use.2)^[n] (ofPieces pieces).intoString.2) := by
  have hinto : (ofPieces pieces).intoString.1 = literalText pieces := rfl
  rw [hinto, ← readMarkup_isText_iff h]
  refine ⟨fun htext => ?_, fun hcommand => ?_, fun n => usedUp_of_spent (spent_iterate rfl n)⟩
  · rcases literalText_cases pieces with ⟨-, s, hs⟩ | ⟨before, c, after, rfl, -⟩
    · have hread : ArgMode.markup.read source region = .ok pieces := h
      rw [hs, ArgMode.read_literalText hread hs]
    · exact (htext (.call c) (by simp)).elim
  · rcases literalText_cases pieces with ⟨htext, -⟩ | hfound
    · exact (hcommand htext).elim
    · exact hfound

/-- Two newlines, a command behind them, and the pieces that are read off this. -/
def brokenSource : Source where
  text := "a\r\n\ny\\emph\x7bz\x7d"

def brokenPieces : List Piece :=
  [.text ⟨0, 1, "a"⟩, .call ⟨⟨3, 2, "par"⟩, []⟩, .text ⟨4, 3, "y"⟩,
    .call ⟨⟨6, 3, "emph"⟩, [⟨none, ⟨11, 3, "z"⟩⟩]⟩]

theorem intoString_lossless_broken :
    readMarkup brokenSource brokenSource.span = .ok brokenPieces ∧
    (ofPieces brokenPieces).intoString.1 =
      .error ⟨.shape (.commandInText "par"), some ⟨3, 2, "par"⟩, none⟩ ∧
    (ofPieces brokenPieces).intoString.2.UsedUp := by
  have hread : readMarkup brokenSource brokenSource.span = .ok brokenPieces := by decide +kernel
  obtain ⟨-, hcommand, hused⟩ := intoString_lossless hread
  have hbroken : ¬ IsText brokenSource.span.fragment.toList :=
    fun h => h.noBreaks .crlf .lf (by decide)
  obtain ⟨before, c, after, hpieces, hbefore, herror⟩ := hcommand hbroken
  have hc : c = ⟨⟨3, 2, "par"⟩, []⟩ := by
    match before, hpieces, hbefore with
    | [_], hpieces, _ =>
        cases hpieces
        rfl
    | _ :: .call d :: _, _, hbefore => exact (hbefore (.call d) (by simp)).elim
  rw [hc] at herror
  exact ⟨hread, herror, hused 0⟩

end Deferred

end Markup
