import Markup.Proofs.Error.Highlight

/-! # Columns in code units

Editors count the columns of a position in UTF-16 code units, of which a character outside the
basic plane takes two (`utf16`).  A diagnostic counts characters instead.  So where a range starts
and where it ends falls short by the number of such characters on the line up to there, and both
ends are where an editor looks for them exactly if there is none (`diagnose_columns`).

The characters that count are those in front of the span on its line (`Span.lead`) and those that
the range goes over (`Span.marked`). -/

namespace Markup

open Text

/-! ### Code units -/

/-- A character outside the basic plane. -/
def IsSupplementary (c : Char) : Prop := 0x10000 ≤ c.toNat

instance (c : Char) : Decidable (IsSupplementary c) :=
  inferInstanceAs (Decidable (0x10000 ≤ c.toNat))

/-- The code units of a character: itself, or a high and a low surrogate. -/
def utf16 (c : Char) : List Nat :=
  if IsSupplementary c then
    [0xD800 + (c.toNat - 0x10000) / 0x400, 0xDC00 + (c.toNat - 0x10000) % 0x400]
  else [c.toNat]

/-- The number of code units of a text. -/
def units16 (cs : List Char) : Nat := (cs.flatMap utf16).length

/-- The number of characters outside the basic plane in a text. -/
def supplementaries (cs : List Char) : Nat := cs.countP (IsSupplementary ·)

/-- **Each character outside the basic plane counts once more.** -/
theorem units16_eq (cs : List Char) : units16 cs = cs.length + supplementaries cs := by
  induction cs with
  | nil => rfl
  | cons c cs ih =>
      have hcons : units16 (c :: cs) = (utf16 c).length + units16 cs := by
        rw [units16, List.flatMap_cons, List.length_append]
        rfl
      have hcount : supplementaries (c :: cs) =
          supplementaries cs + if IsSupplementary c then 1 else 0 := by
        simp [supplementaries, List.countP_cons]
      rw [hcons, hcount, ih, utf16, List.length_cons]
      split <;> simp only [List.length_cons, List.length_nil] <;> omega

example : utf16 '😀' = [0xD83D, 0xDE00] ∧ units16 ['a', '😀', 'b'] = 4 := by decide

theorem supplementaries_append (cs rest : List Char) :
    supplementaries (cs ++ rest) = supplementaries cs + supplementaries rest :=
  List.countP_append

theorem supplementaries_eq_zero_iff {cs : List Char} :
    supplementaries cs = 0 ↔ ∀ c ∈ cs, ¬ IsSupplementary c := by
  rw [supplementaries, List.countP_eq_zero]
  simp

/-! ### What stands where -/

/-- What the line of a span holds in front of it. -/
def Span.lead (text : List Char) (s : Span) : List Char := lineTail (text.take s.offset.toNat)

/-- What a range for a span goes over: the reach of the span, or one character if there is a line
feed in its reach. -/
def Span.marked (text : List Char) (s : Span) : List Char :=
  let after := text.drop s.offset.toNat
  after.take (if '\n' ∈ after.take s.reach then 1 else s.reach)

/-- The columns of a range count the characters up to its ends. -/
theorem column_rangeOf {text : String} {before after : List Char}
    (htext : text.toList = before ++ after) {span : Span} (hoffset : span.offset = before.length) :
    (rangeOf text (some span)).start.column = (span.lead text.toList).length ∧
      (rangeOf text (some span)).stop.column =
        (span.lead text.toList ++ span.marked text.toList).length := by
  obtain ⟨hstart, hstop⟩ := rangeOf_append text htext span hoffset
  have hlead : span.lead text.toList = lineTail before := by
    rw [Span.lead, hoffset, Int.toNat_natCast, htext, List.take_left]
  have hmarked : span.marked text.toList =
      after.take (if '\n' ∈ after.take span.reach then 1 else span.reach) := by
    rw [Span.marked, hoffset, Int.toNat_natCast, htext, List.drop_left]
  rw [hstart, hstop, hlead, hmarked, List.length_append]
  refine ⟨rfl, ?_⟩
  split
  · next hbreak =>
    have hpos := List.length_pos_of_mem (List.mem_of_mem_take hbreak)
    rw [List.length_take_of_le hpos]
    rfl
  · rfl

section diagnostics

variable {source : Source} {e : Error} {span : Span}

/-- **How far the columns of a diagnostic fall short.**  If an error with a place is what an editor
shows of a text, each end of the range it is shown at is as many code units too far left as there
are characters outside the basic plane between the start of the line and that end; so the columns
are those that the editor takes them for exactly if no such character is in front of the span or in
the range. -/
theorem diagnose_columns (h : source.error? = some e) (hspan : e.span? = some span) :
    let lead := span.lead source.text.toList
    let marked := span.marked source.text.toList
    ∃ d, diagnose source = [d] ∧
      units16 lead = d.range.start.column + supplementaries lead ∧
      units16 (lead ++ marked) = d.range.stop.column + supplementaries (lead ++ marked) ∧
      (d.range.start.column = units16 lead ∧ d.range.stop.column = units16 (lead ++ marked) ↔
        ∀ c ∈ lead ++ marked, ¬ IsSupplementary c) := by
  intro lead marked
  obtain ⟨d, hd, hrange⟩ := diagnose_of_error? h hspan
  obtain ⟨hfound, -⟩ := report_of_error? h hspan
  obtain ⟨before, after, htext, hoffset, -⟩ := hfound.exists_split
  obtain ⟨hstart, hstop⟩ := column_rangeOf htext hoffset
  rw [← hrange] at hstart hstop
  have hlead : units16 lead = d.range.start.column + supplementaries lead := by
    rw [units16_eq, hstart]
  have hboth : units16 (lead ++ marked) =
      d.range.stop.column + supplementaries (lead ++ marked) := by
    rw [units16_eq, hstop]
  refine ⟨d, hd, hlead, hboth, ?_⟩
  have happend := supplementaries_append lead marked
  rw [← supplementaries_eq_zero_iff]
  omega

/-- A command that is not known, with a character outside the basic plane in front of it and one in
its name. -/
theorem diagnose_columns_unknown :
    let source : Source := { text := "a\n𝛼 \\𝛽b" }
    let span : Span := ⟨5, 2, "𝛽b"⟩
    let e : Error := .command ⟨.unbound "𝛽b", some span, some "a\n𝛼 \\𝛽b"⟩
    let lead := span.lead source.text.toList
    let marked := span.marked source.text.toList
    source.error? = some e ∧ e.span? = some span ∧
    ∃ d, diagnose source = [d] ∧
      units16 lead = d.range.start.column + supplementaries lead ∧
      units16 (lead ++ marked) = d.range.stop.column + supplementaries (lead ++ marked) ∧
      (d.range.start.column = units16 lead ∧ d.range.stop.column = units16 (lead ++ marked) ↔
        ∀ c ∈ lead ++ marked, ¬ IsSupplementary c) := by
  intro source span e lead marked
  have herror : source.error? = some e := by decide +kernel
  exact ⟨herror, rfl, diagnose_columns herror rfl⟩

/-- Behind one character outside the basic plane, both ends of a range are one unit too far left. -/
theorem diagnose_miscounts_units :
    let source : Source := { text := "😀\\" }
    let span : Span := ⟨1, 1, "\\"⟩
    source.error? = some (.parse ⟨.nameExpected, span, source.text⟩) ∧
      (diagnose source).map Diagnostic.range = [⟨⟨0, 1⟩, ⟨0, 2⟩⟩] ∧
      units16 (span.lead source.text.toList) = 2 ∧
      units16 (span.lead source.text.toList ++ span.marked source.text.toList) = 3 := by
  decide +kernel

end diagnostics

end Markup
