import Mathlib.Data.Prod.Lex
import Mathlib.Order.Interval.Set.Defs
import Mathlib.Order.Monotone.Defs
import Markup.Source
import Markup.Proofs.Text

/-! # Offsets and places

Between its line feeds a text has lines (`linesBetween`), one more than there are line feeds.  An
offset within the text stands on exactly one of them, at most right behind its last character:
`Place.IsAt` says so in terms of the lines alone.  The place at which the part of the text before an
offset ends (`placeAt`) is that one (`isAt_iff`), and a later offset has a later place
(`strictMonoOn_placeAt`).

Every part of a text up to some offset ends on a line, at a place (`endPlace`); all of the above is
about how such a part goes on.

Programs count line feeds, look for the last one before an offset, and subtract: that comes to the
length of the line that the part before the offset ends on (`rfind_lineFeed`), and the next line
feed from the offset on is where this line ends (`find_lineFeed`). -/

namespace Markup.Text

/-- The offset moved into the text. -/
def clampOffset (cs : List Char) (offset : Int) : Nat := min offset.toNat cs.length

/-- What the line that a prefix ends in holds so far. -/
def lineTail (before : List Char) : List Char :=
  (before.reverse.takeWhile (· != '\n')).reverse

/-- The place of an offset. -/
def placeAt (cs : List Char) (offset : Int) : Place :=
  let before := cs.take (clampOffset cs offset)
  ⟨before.count '\n', (lineTail before).length⟩

variable {cs before mid after body rest : List Char} {p : Place} {o : Nat}

/-! ### Lines between line feeds -/

/-- What stands between the line feeds of a text, before the first and behind the last of them. -/
def linesBetween (cs : List Char) : List (List Char) := cs.splitOn '\n'

/-- Number of characters of some lines with a line feed behind each. -/
def extent : List (List Char) → Nat
  | [] => 0
  | line :: lines => line.length + 1 + extent lines

theorem linesBetween_of_notMem (h : '\n' ∉ cs) : linesBetween cs = [cs] :=
  List.splitOn_eq_singleton h

/-- A line feed ends the last line before it and starts a new one. -/
theorem linesBetween_append_lineFeed (before after : List Char) :
    linesBetween (before ++ '\n' :: after) = linesBetween before ++ linesBetween after :=
  List.splitOn_append_cons_self before after

theorem linesBetween_cons (h : '\n' ∉ body) (rest : List Char) :
    linesBetween (body ++ '\n' :: rest) = body :: linesBetween rest := by
  rw [linesBetween_append_lineFeed, linesBetween_of_notMem h, List.singleton_append]

/-! ### The line that a text starts with and the line that it ends on -/

theorem lineFeed_notMem_firstLine (cs : List Char) : '\n' ∉ firstLine cs := by
  intro hmem
  simpa using List.mem_takeWhile_imp hmem

theorem firstLine_of_notMem (h : '\n' ∉ cs) : firstLine cs = cs :=
  List.takeWhile_eq_self_iff.mpr (ne_lineFeed_of_notMem h)

theorem firstLine_append (h : '\n' ∉ before) (after : List Char) :
    firstLine (before ++ after) = before ++ firstLine after :=
  List.takeWhile_append_of_pos (ne_lineFeed_of_notMem h)

theorem firstLine_append_lineFeed (h : '\n' ∉ body) (rest : List Char) :
    firstLine (body ++ '\n' :: rest) = body := by
  rw [firstLine_append h, firstLine, List.takeWhile_cons_of_neg (by decide), List.append_nil]

theorem lineFeed_notMem_lineTail (cs : List Char) : '\n' ∉ lineTail cs := by
  intro hmem
  exact lineFeed_notMem_firstLine cs.reverse (List.mem_reverse.mp hmem)

theorem lineTail_of_notMem (h : '\n' ∉ cs) : lineTail cs = cs := by
  have hreverse : '\n' ∉ cs.reverse := fun hmem => h (List.mem_reverse.mp hmem)
  rw [lineTail, ← firstLine, firstLine_of_notMem hreverse, List.reverse_reverse]

/-- What has no line feed goes on with the line. -/
theorem lineTail_append (before : List Char) (h : '\n' ∉ mid) :
    lineTail (before ++ mid) = lineTail before ++ mid := by
  have hreverse : '\n' ∉ mid.reverse := fun hmem => h (List.mem_reverse.mp hmem)
  rw [lineTail, List.reverse_append, ← firstLine, firstLine_append hreverse, List.reverse_append,
    List.reverse_reverse]
  rfl

/-- Before the last line feed nothing counts. -/
theorem lineTail_append_lineFeed (before after : List Char) :
    lineTail (before ++ '\n' :: after) = lineTail after := by
  have htake : ∀ cs : List Char, (cs ++ '\n' :: before.reverse).takeWhile (· != '\n') =
      cs.takeWhile (· != '\n') := by
    intro cs
    induction cs with
    | nil => rfl
    | cons c cs ih => rw [List.cons_append, List.takeWhile_cons, List.takeWhile_cons, ih]
  rw [lineTail, List.reverse_append, List.reverse_cons, List.append_assoc, List.singleton_append,
    htake]
  rfl

/-- A text starts with its first line. -/
theorem exists_linesBetween_eq_cons (cs : List Char) :
    ∃ lines, linesBetween cs = firstLine cs :: lines := by
  induction cs using lines_induction with
  | nil => exact ⟨[], rfl⟩
  | last cs _ hnone => exact ⟨[], by rw [linesBetween_of_notMem hnone, firstLine_of_notMem hnone]⟩
  | cons body rest hbody _ =>
      exact ⟨linesBetween rest,
        by rw [linesBetween_cons hbody, firstLine_append_lineFeed hbody]⟩

/-! ### The place at which a part of a text ends -/

/-- The place right behind a text. -/
def endPlace (before : List Char) : Place := ⟨before.count '\n', (lineTail before).length⟩

theorem placeAt_eq_endPlace (cs : List Char) (offset : Int) :
    placeAt cs offset = endPlace (cs.take (clampOffset cs offset)) := rfl

theorem clampOffset_of_le (h : o ≤ cs.length) : clampOffset cs o = o := by
  rw [clampOffset, Int.toNat_natCast, Nat.min_eq_left h]

theorem placeAt_of_le (h : o ≤ cs.length) : placeAt cs o = endPlace (cs.take o) := by
  rw [placeAt_eq_endPlace, clampOffset_of_le h]

theorem endPlace_of_notMem (h : '\n' ∉ cs) : endPlace cs = ⟨0, cs.length⟩ := by
  rw [endPlace, List.count_eq_zero_of_not_mem h, lineTail_of_notMem h]

theorem endPlace_cons (h : '\n' ∉ body) (rest : List Char) :
    endPlace (body ++ '\n' :: rest) = ⟨(endPlace rest).line + 1, (endPlace rest).column⟩ := by
  rw [endPlace, List.count_append, List.count_eq_zero_of_not_mem h, List.count_cons_self,
    Nat.zero_add, lineTail_append_lineFeed]
  rfl

/-- **Around every offset there is one line**: what the part before ends on, with the first line of
what follows.  The lines before it, each with its line feed, are the rest of the part before. -/
theorem exists_linesBetween_append (before after : List Char) : ∃ earlier later,
    linesBetween (before ++ after) = earlier ++ (lineTail before ++ firstLine after) :: later ∧
      earlier.length = before.count '\n' ∧
      extent earlier + (lineTail before).length = before.length := by
  have hunbroken : ∀ cs : List Char, '\n' ∉ cs → ∃ earlier later,
      linesBetween (cs ++ after) = earlier ++ (lineTail cs ++ firstLine after) :: later ∧
        earlier.length = cs.count '\n' ∧ extent earlier + (lineTail cs).length = cs.length := by
    intro cs hnone
    obtain ⟨later, hlines⟩ := exists_linesBetween_eq_cons (cs ++ after)
    refine ⟨[], later, ?_, (List.count_eq_zero_of_not_mem hnone).symm, ?_⟩
    · rw [hlines, firstLine_append hnone, lineTail_of_notMem hnone, List.nil_append]
    · rw [lineTail_of_notMem hnone, extent, Nat.zero_add]
  induction before using lines_induction with
  | nil => exact hunbroken [] List.not_mem_nil
  | last cs _ hnone => exact hunbroken cs hnone
  | cons body rest hbody ih =>
      obtain ⟨earlier, later, hlines, hcount, hextent⟩ := ih
      refine ⟨body :: earlier, later, ?_, ?_, ?_⟩
      · rw [List.append_assoc, List.cons_append, linesBetween_cons hbody, hlines,
          lineTail_append_lineFeed, List.cons_append]
      · rw [List.length_cons, hcount, List.count_append, List.count_eq_zero_of_not_mem hbody,
          List.count_cons_self, Nat.zero_add]
      · rw [extent, lineTail_append_lineFeed, List.length_append, List.length_cons]
        omega

/-- A text ends on its last line. -/
theorem getLast?_linesBetween (cs : List Char) :
    (linesBetween cs).getLast? = some (lineTail cs) := by
  have hunbroken : ∀ cs : List Char, '\n' ∉ cs →
      (linesBetween cs).getLast? = some (lineTail cs) := by
    intro cs hnone
    rw [linesBetween_of_notMem hnone, lineTail_of_notMem hnone]
    rfl
  induction cs using lines_induction with
  | nil => exact hunbroken [] List.not_mem_nil
  | last cs _ hnone => exact hunbroken cs hnone
  | cons body rest hbody ih =>
      rw [linesBetween_cons hbody, lineTail_append_lineFeed, List.getLast?_cons, ih]
      rfl

/-! ### Looking for line feeds -/

theorem max_min_toNat (cs : List Char) (offset : Int) :
    (max 0 (min offset cs.length)).toNat = clampOffset cs offset := by
  rw [clampOffset]
  omega

theorem clampOffset_le (cs : List Char) (offset : Int) : clampOffset cs offset ≤ cs.length :=
  Nat.min_le_right ..

/-- The first line feed stands behind the first line. -/
theorem idxOf?_lineFeed (cs : List Char) :
    cs.idxOf? '\n' = if '\n' ∈ cs then some (firstLine cs).length else none := by
  induction cs with
  | nil => rfl
  | cons c cs ih =>
      by_cases hc : c = '\n'
      · subst hc
        rfl
      · by_cases hmem : '\n' ∈ cs <;>
          simp [List.idxOf?_cons, firstLine, ih, hc, Ne.symm hc, hmem]

theorem lineTail_suffix (before : List Char) : lineTail before <:+ before := by
  rw [lineTail, ← List.reverse_prefix, List.reverse_reverse]
  exact List.takeWhile_prefix _

/-- **The last line feed before an offset** is as far back as the line goes that the text before the
offset ends on. -/
theorem rfind_lineFeed (cs : List Char) (stop : Nat) :
    rfind '\n' cs stop + 1 =
      ((cs.take stop).length - (lineTail (cs.take stop)).length : Nat) := by
  have hle := (lineTail_suffix (cs.take stop)).length_le
  have hlength : (firstLine (cs.take stop).reverse).length = (lineTail (cs.take stop)).length := by
    rw [lineTail, List.length_reverse, firstLine]
  rw [rfind, idxOf?_lineFeed, hlength]
  by_cases hmem : '\n' ∈ cs.take stop
  · -- The line is shorter than the text before the offset, which has a line feed in front of it.
    have hne : (lineTail (cs.take stop)).length ≠ (cs.take stop).length := fun heq => by
      rw [← (lineTail_suffix _).eq_of_length heq] at hmem
      exact lineFeed_notMem_lineTail _ hmem
    rw [if_pos (List.mem_reverse.mpr hmem)]
    dsimp only
    omega
  · rw [if_neg fun h => hmem (List.mem_reverse.mp h), lineTail_of_notMem hmem, Nat.sub_self]
    rfl

/-- **The next line feed** is where the line ends that an offset is on. -/
theorem find_lineFeed (h : o ≤ cs.length) :
    (if find '\n' cs o = -1 then cs.length else (find '\n' cs o).toNat) =
      o + (firstLine (cs.drop o)).length := by
  rw [find, idxOf?_lineFeed]
  by_cases hmem : '\n' ∈ cs.drop o
  · rw [if_pos hmem]
    dsimp only
    rw [if_neg (by omega)]
    omega
  · rw [if_neg hmem, firstLine_of_notMem hmem, List.length_drop]
    dsimp only
    rw [if_pos rfl]
    omega

/-! ### Offsets at a place -/

/-- An offset is at a place if it is as far behind the start of the line as the column says, where
the line goes at least that far, and a line starts behind the lines before it, each with its line
feed. -/
def Place.IsAt (cs : List Char) (p : Place) (o : Nat) : Prop :=
  ∃ earlier line later, linesBetween cs = earlier ++ line :: later ∧ p.line = earlier.length ∧
    p.column ≤ line.length ∧ o = extent earlier + p.column

/-- On the first line an offset is its column. -/
theorem Place.eq_of_no_line_before {line : List Char}
    (hline : p.line = ([] : List (List Char)).length) (hcolumn : p.column ≤ line.length)
    (hoffset : o = extent [] + p.column) : p = ⟨0, o⟩ ∧ o ≤ line.length := by
  obtain rfl : o = p.column := by rw [hoffset, extent, Nat.zero_add]
  exact ⟨by rw [← List.length_nil (α := List Char), ← hline], hcolumn⟩

theorem Place.IsAt.of_notMem (hat : p.IsAt cs o) (h : '\n' ∉ cs) : p = ⟨0, o⟩ ∧ o ≤ cs.length := by
  obtain ⟨earlier, line, later, hlines, hline, hcolumn, hoffset⟩ := hat
  rw [linesBetween_of_notMem h] at hlines
  obtain ⟨rfl, hlines⟩ | ⟨_, _, hlines⟩ := List.cons_eq_append_iff.mp hlines
  · obtain ⟨rfl, _⟩ := List.cons.inj hlines
    exact eq_of_no_line_before hline hcolumn hoffset
  · exact absurd hlines.symm (by simp)

/-- An offset of a text with a line in front is on that line, or it is that much further behind, and
one line further down, than an offset of the rest. -/
theorem Place.IsAt.of_cons (hat : p.IsAt (body ++ '\n' :: rest) o) (h : '\n' ∉ body) :
    (p = ⟨0, o⟩ ∧ o ≤ body.length) ∨
      ∃ q k, Place.IsAt rest q k ∧ p = ⟨q.line + 1, q.column⟩ ∧ o = body.length + 1 + k := by
  obtain ⟨earlier, line, later, hlines, hline, hcolumn, hoffset⟩ := hat
  rw [linesBetween_cons h] at hlines
  obtain ⟨rfl, hlines⟩ | ⟨earlier, rfl, hlines⟩ := List.cons_eq_append_iff.mp hlines
  · obtain ⟨rfl, _⟩ := List.cons.inj hlines
    exact .inl (eq_of_no_line_before hline hcolumn hoffset)
  · rw [extent] at hoffset
    rw [List.length_cons] at hline
    refine .inr ⟨⟨earlier.length, p.column⟩, extent earlier + p.column,
      ⟨earlier, line, later, (List.cons.inj hlines).2, rfl, hcolumn, rfl⟩, ?_, by omega⟩
    rw [← hline]

theorem Place.IsAt.placeAt_eq (hat : p.IsAt cs o) : o ≤ cs.length ∧ placeAt cs o = p := by
  have hunbroken : ∀ (cs : List Char) (p : Place) (o : Nat), '\n' ∉ cs → p.IsAt cs o →
      o ≤ cs.length ∧ placeAt cs o = p := by
    intro cs p o hnone hat
    obtain ⟨rfl, hle⟩ := hat.of_notMem hnone
    refine ⟨hle, ?_⟩
    rw [placeAt_of_le hle, endPlace_of_notMem fun hmem => hnone (List.mem_of_mem_take hmem),
      List.length_take, Nat.min_eq_left hle]
  induction cs using lines_induction generalizing p o with
  | nil => exact hunbroken [] p o List.not_mem_nil hat
  | last cs _ hnone => exact hunbroken cs p o hnone hat
  | cons body rest hbody ih =>
      have hlength : (body ++ '\n' :: rest).length = body.length + 1 + rest.length := by
        rw [List.length_append, List.length_cons]
        omega
      rcases hat.of_cons hbody with ⟨rfl, hle⟩ | ⟨q, k, hq, rfl, rfl⟩
      · have hle' : o ≤ (body ++ '\n' :: rest).length := by omega
        refine ⟨hle', ?_⟩
        rw [placeAt_of_le hle', List.take_append_of_le_length hle,
          endPlace_of_notMem fun hmem => hbody (List.mem_of_mem_take hmem), List.length_take,
          Nat.min_eq_left hle]
      · obtain ⟨hk, hplace⟩ := ih hq
        rw [placeAt_of_le hk] at hplace
        have hle' : body.length + 1 + k ≤ (body ++ '\n' :: rest).length := by omega
        refine ⟨hle', ?_⟩
        rw [placeAt_of_le hle', Nat.add_assoc, Nat.add_comm 1 k, List.take_length_add_append,
          List.take_succ_cons, endPlace_cons hbody, hplace]

/-- **The place of an offset is the one place it is at**, and the offsets within a text are those
that are at a place. -/
theorem isAt_iff (cs : List Char) (p : Place) (o : Nat) :
    p.IsAt cs o ↔ o ≤ cs.length ∧ placeAt cs o = p := by
  refine ⟨Place.IsAt.placeAt_eq, ?_⟩
  rintro ⟨hle, rfl⟩
  obtain ⟨earlier, later, hlines, hcount, hextent⟩ :=
    exists_linesBetween_append (cs.take o) (cs.drop o)
  rw [List.take_append_drop] at hlines
  rw [List.length_take, Nat.min_eq_left hle] at hextent
  rw [placeAt_of_le hle]
  refine ⟨earlier, _, later, hlines, hcount.symm, ?_, hextent.symm⟩
  rw [List.length_append]
  exact Nat.le_add_right ..

/-! ### Order -/

/-- Places in reading order. -/
def Place.key (p : Place) : Nat ×ₗ Nat := toLex (p.line, p.column)

/-- A text that goes on ends at a later place: on a later line, or further on the same one. -/
theorem key_endPlace_lt (before : List Char) (h : mid ≠ []) :
    (endPlace before).key < (endPlace (before ++ mid)).key := by
  rw [Place.key, Place.key, Prod.Lex.toLex_lt_toLex, endPlace, endPlace, List.count_append]
  by_cases hmid : '\n' ∈ mid
  · have hcount := List.count_pos_iff.mpr hmid
    exact .inl (Nat.lt_add_of_pos_right hcount)
  · refine .inr ⟨by rw [List.count_eq_zero_of_not_mem hmid, Nat.add_zero], ?_⟩
    rw [lineTail_append before hmid, List.length_append]
    exact Nat.lt_add_of_pos_right (List.length_pos_iff.mpr h)

/-- **A later offset has a later place.** -/
theorem strictMonoOn_placeAt (cs : List Char) :
    StrictMonoOn (fun o : Nat => (placeAt cs o).key) (Set.Iic cs.length) := by
  intro o ho o' ho' hlt
  change (placeAt cs o).key < (placeAt cs o').key
  have hsplit := List.take_append_drop o (cs.take o')
  rw [List.take_take, Nat.min_eq_left (Nat.le_of_lt hlt)] at hsplit
  have hne : (cs.take o').drop o ≠ [] := by
    rw [← List.length_pos_iff, List.length_drop, List.length_take, Nat.min_eq_left ho']
    omega
  rw [placeAt_of_le ho, placeAt_of_le ho', ← hsplit]
  exact key_endPlace_lt _ hne

end Markup.Text
