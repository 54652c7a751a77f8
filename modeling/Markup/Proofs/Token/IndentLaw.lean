import Markup.Proofs.Text
import Markup.Token
import Mathlib.Data.List.Infix

/-! # The law of indentation

Which indentation a line may have is said here without a walk down the open levels.  The levels that
are open have cumulative prefixes (`openPrefix`), and a line is accepted if the inline space in
front of it is one of them, or goes on behind the last (`AcceptsIndent`).  In the first case the
levels further in are closed, in the second one more is opened (`Shifts`); blank lines are passed
over.

The levels add something each, so that all cumulative prefixes are different, and the law leaves no
choice, neither for a line (`Shifts.unique`) nor for lines in turn (`IndentRun.unique`).  So there
is at most one line at which it refuses a text (`RefusedAt.unique`). -/

namespace Markup

open Text

/-! ### The law -/

/-- A line of nothing but inline space. -/
def Text.Line.isBlank (l : Line) : Bool := l.content.all isInlineSpace

/-- The inline space in front of a line. -/
def Text.Line.indent (l : Line) : List Char := l.content.takeWhile isInlineSpace

/-- The prefixes of the `j` outermost open levels, put together. -/
def openPrefix (levels : List (List Char)) (j : Nat) : List Char := (levels.take j).flatten

/-- Inline space that a line may have in front where these levels are open: a cumulative prefix, or
more than the longest. -/
def AcceptsIndent (levels : List (List Char)) (space : List Char) : Prop :=
  (∃ j ≤ levels.length, space = openPrefix levels j) ∨
    openPrefix levels levels.length <+: space ∧ openPrefix levels levels.length ≠ space

/-- What happens to the open levels: one more, which adds some space, or so many fewer. -/
inductive Shift where
  | opens (space : List Char)
  | closes (count : Int)
deriving DecidableEq, Repr

/-- What a line with this space in front does to the open levels, and those open after it. -/
inductive Shifts (levels : List (List Char)) (space : List Char) :
    List Shift → List (List Char) → Prop
  | closes {j : Nat} (hj : j < levels.length) (hspace : space = openPrefix levels j) :
      Shifts levels space [.closes (levels.length - j)] (levels.take j)
  | stays (hspace : space = openPrefix levels levels.length) : Shifts levels space [] levels
  | opens {more : List Char} (hmore : more ≠ [])
      (hspace : space = openPrefix levels levels.length ++ more) :
      Shifts levels space [.opens more] (levels ++ [more])

/-- The lines that are not blank, with their numbers, where `first` is that of the first line. -/
def contentLines (first : Nat) (lines : List Line) : List (Line × Nat) :=
  (lines.zipIdx first).filter (!·.1.isBlank)

/-- Lines in turn, each with its number, do this to the open levels. -/
inductive IndentRun : List (List Char) → List (Line × Nat) → List (Int × Shift) →
    List (List Char) → Prop
  | nil {levels : List (List Char)} : IndentRun levels [] [] levels
  | cons {levels next last : List (List Char)} {l : Line} {number : Nat} {ls : List (Line × Nat)}
      {here : List Shift} {after : List (Int × Shift)} (hline : Shifts levels l.indent here next)
      (hrest : IndentRun next ls after last) :
      IndentRun levels ((l, number) :: ls) (here.map ((number : Int), ·) ++ after) last

/-- All lines before the one with this number are accepted, or blank, and that one is neither. -/
def RefusedAt (lines : List Line) (number : Int) : Prop :=
  ∃ before l after shifts levels, lines = before ++ l :: after ∧ number = before.length + 1 ∧
    IndentRun [] (contentLines 1 before) shifts levels ∧
    l.isBlank = false ∧ ¬ AcceptsIndent levels l.indent

/-! ### Cumulative prefixes -/

section prefixes

variable {levels : List (List Char)} {space : List Char}

theorem openPrefix_length : openPrefix levels levels.length = levels.flatten := by
  rw [openPrefix, List.take_length]

theorem openPrefix_append_of_le {kept missed : List (List Char)} {j : Nat}
    (hj : j ≤ kept.length) : openPrefix (kept ++ missed) j = openPrefix kept j := by
  rw [openPrefix, List.take_append_of_le_length hj, openPrefix]

theorem openPrefix_succ {j : Nat} (hj : j < levels.length) :
    openPrefix levels (j + 1) = openPrefix levels j ++ levels[j] := by
  rw [openPrefix, List.take_succ_eq_append_getElem hj, List.flatten_append, List.flatten_singleton,
    openPrefix]

theorem openPrefix_length_le (levels : List (List Char)) (j : Nat) :
    (openPrefix levels j).length ≤ levels.flatten.length := by
  have hsplit := congrArg List.flatten (List.take_append_drop j levels)
  rw [List.flatten_append] at hsplit
  rw [openPrefix, ← hsplit, List.length_append]
  omega

/-- One prefix more is a longer one. -/
theorem openPrefix_length_lt (hne : ∀ p ∈ levels, p ≠ []) {i j : Nat} (hij : i < j)
    (hj : j ≤ levels.length) : (openPrefix levels i).length < (openPrefix levels j).length := by
  induction hij with
  | refl =>
      have hpos := List.length_pos_of_ne_nil (hne _ (List.getElem_mem hj))
      rw [openPrefix_succ hj, List.length_append]
      omega
  | step _ ih =>
      have hbefore := ih (by omega)
      rw [openPrefix_succ hj, List.length_append]
      omega

theorem openPrefix_inj (hne : ∀ p ∈ levels, p ≠ []) {i j : Nat} (hi : i ≤ levels.length)
    (hj : j ≤ levels.length) (h : openPrefix levels i = openPrefix levels j) : i = j := by
  rcases Nat.lt_trichotomy i j with hlt | heq | hgt
  · have hlength := openPrefix_length_lt hne hlt hj
    rw [h] at hlength
    omega
  · exact heq
  · have hlength := openPrefix_length_lt hne hgt hi
    rw [h] at hlength
    omega

/-- More than the longest prefix is none of them. -/
theorem openPrefix_ne_append (hne : ∀ p ∈ levels, p ≠ []) {j : Nat} (hj : j ≤ levels.length)
    {more : List Char} (hmore : more ≠ []) :
    openPrefix levels levels.length ++ more ≠ openPrefix levels j := by
  intro h
  have hlength := congrArg List.length h
  have hpos := List.length_pos_of_ne_nil hmore
  rw [List.length_append] at hlength
  rcases Nat.lt_or_ge j levels.length with hlt | hge
  · have := openPrefix_length_lt hne hlt (Nat.le_refl _)
    omega
  · obtain rfl : j = levels.length := by omega
    omega

end prefixes

/-! ### The law leaves no choice -/

section law

variable {levels : List (List Char)} {space : List Char}

/-- The law says what a line does exactly if the line is accepted. -/
theorem acceptsIndent_iff :
    AcceptsIndent levels space ↔ ∃ here next, Shifts levels space here next := by
  constructor
  · rintro (⟨j, hj, hspace⟩ | ⟨⟨more, rfl⟩, hne⟩)
    · rcases Nat.lt_or_ge j levels.length with hlt | hge
      · exact ⟨_, _, .closes hlt hspace⟩
      · obtain rfl : j = levels.length := by omega
        exact ⟨_, _, .stays hspace⟩
    · have hmore : more ≠ [] := by
        rintro rfl
        exact hne (List.append_nil _).symm
      exact ⟨_, _, .opens hmore rfl⟩
  · rintro ⟨here, next, h⟩
    cases h with
    | closes hj hspace => exact .inl ⟨_, Nat.le_of_lt hj, hspace⟩
    | stays hspace => exact .inl ⟨_, Nat.le_refl _, hspace⟩
    | @opens more hmore hspace =>
        refine .inr ⟨⟨more, hspace.symm⟩, ?_⟩
        rw [hspace]
        intro h
        exact hmore (List.append_right_eq_self.mp h.symm)

theorem Shifts.ne_nil {here : List Shift} {next : List (List Char)}
    (h : Shifts levels space here next) (hne : ∀ p ∈ levels, p ≠ []) : ∀ p ∈ next, p ≠ [] := by
  intro p hp
  cases h with
  | closes => exact hne p (List.mem_of_mem_take hp)
  | stays => exact hne p hp
  | opens hmore =>
      rcases List.mem_append.mp hp with hp | hp
      · exact hne p hp
      · rw [List.mem_singleton.mp hp]
        exact hmore

theorem Shifts.unique {here here' : List Shift} {next next' : List (List Char)}
    (hne : ∀ p ∈ levels, p ≠ []) (h : Shifts levels space here next)
    (h' : Shifts levels space here' next') : here = here' ∧ next = next' := by
  cases h with
  | @closes j hj hspace =>
      cases h' with
      | closes hj' hspace' =>
          obtain rfl := openPrefix_inj hne (Nat.le_of_lt hj) (Nat.le_of_lt hj')
            (hspace.symm.trans hspace')
          exact ⟨rfl, rfl⟩
      | stays hspace' =>
          have heq := openPrefix_inj hne (Nat.le_of_lt hj) (Nat.le_refl _)
            (hspace.symm.trans hspace')
          omega
      | opens hmore hspace' =>
          exact (openPrefix_ne_append hne (Nat.le_of_lt hj) hmore
            (hspace'.symm.trans hspace)).elim
  | stays hspace =>
      cases h' with
      | closes hj' hspace' =>
          have heq := openPrefix_inj hne (Nat.le_of_lt hj') (Nat.le_refl _)
            (hspace'.symm.trans hspace)
          omega
      | stays => exact ⟨rfl, rfl⟩
      | opens hmore hspace' =>
          exact (openPrefix_ne_append hne (Nat.le_refl _) hmore (hspace'.symm.trans hspace)).elim
  | opens hmore hspace =>
      cases h' with
      | closes hj' hspace' =>
          exact (openPrefix_ne_append hne (Nat.le_of_lt hj') hmore
            (hspace.symm.trans hspace')).elim
      | stays hspace' =>
          exact (openPrefix_ne_append hne (Nat.le_refl _) hmore (hspace.symm.trans hspace')).elim
      | opens hmore' hspace' =>
          obtain rfl := List.append_cancel_left (hspace.symm.trans hspace')
          exact ⟨rfl, rfl⟩

/-- Space that goes on behind some of the levels, but not as the next one does. -/
theorem not_acceptsIndent {kept ps : List (List Char)} {p more : List Char} (hmore : more ≠ [])
    (hp : ¬ p <+: more) : ¬ AcceptsIndent (kept ++ p :: ps) (kept.flatten ++ more) := by
  have hbeyond : ∀ others, kept.flatten ++ more ≠ kept.flatten ++ (p ++ others) := by
    intro others heq
    exact hp ⟨others, (List.append_cancel_left heq).symm⟩
  rintro (⟨j, hj, heq⟩ | ⟨⟨others, heq⟩, -⟩)
  · rcases Nat.lt_or_ge kept.length j with hlt | hge
    · obtain ⟨n, hn⟩ : ∃ n, j - kept.length = n + 1 := ⟨j - kept.length - 1, by omega⟩
      apply hbeyond (ps.take n).flatten
      rw [heq, openPrefix, List.take_append, List.take_of_length_le (by omega), hn,
        List.take_succ_cons, List.flatten_append, List.flatten_cons]
    · have hlength := congrArg List.length heq
      have hpos := List.length_pos_of_ne_nil hmore
      have hle := openPrefix_length_le kept j
      rw [openPrefix_append_of_le hge, List.length_append] at hlength
      omega
  · rw [openPrefix_length, List.flatten_append, List.flatten_cons, List.append_assoc,
      List.append_assoc] at heq
    exact hbeyond _ heq.symm

end law

/-! ### Lines in turn -/

section runs

/-- Lines in turn lead to one result. -/
theorem IndentRun.unique {levels last last' : List (List Char)} {ls : List (Line × Nat)}
    {shifts shifts' : List (Int × Shift)} (hne : ∀ p ∈ levels, p ≠ [])
    (h : IndentRun levels ls shifts last) (h' : IndentRun levels ls shifts' last') :
    shifts = shifts' ∧ last = last' := by
  induction h generalizing shifts' last' with
  | nil =>
      cases h'
      exact ⟨rfl, rfl⟩
  | cons hline _ ih =>
      cases h' with
      | cons hline' hrest' =>
          obtain ⟨rfl, rfl⟩ := hline.unique hne hline'
          obtain ⟨rfl, rfl⟩ := ih (hline.ne_nil hne) hrest'
          exact ⟨rfl, rfl⟩

/-- Lines in two parts: the second one starts where the first one leads to. -/
theorem IndentRun.exists_of_append {levels last : List (List Char)} {first rest : List (Line × Nat)}
    {shifts : List (Int × Shift)} (h : IndentRun levels (first ++ rest) shifts last) :
    ∃ before after next, IndentRun levels first before next ∧ IndentRun next rest after last := by
  induction first generalizing levels shifts with
  | nil => exact ⟨[], shifts, levels, .nil, h⟩
  | cons l first ih =>
      cases h with
      | cons hline hrest =>
          obtain ⟨before, after, next, hfirst, hsecond⟩ := ih hrest
          exact ⟨_, after, next, .cons hline hfirst, hsecond⟩

theorem contentLines_cons (first : Nat) (l : Line) (lines : List Line) :
    contentLines first (l :: lines) =
      if l.isBlank then contentLines (first + 1) lines
      else (l, first) :: contentLines (first + 1) lines := by
  rw [contentLines, List.zipIdx_cons, List.filter_cons]
  cases l.isBlank <;> rfl

/-- A line that the law refuses is not read. -/
theorem not_indentRun_of_refusedAt {lines : List Line} {number : Int}
    (h : RefusedAt lines number) {shifts : List (Int × Shift)} {last : List (List Char)} :
    ¬ IndentRun [] (contentLines 1 lines) shifts last := by
  obtain ⟨before, l, after, shifts', levels, rfl, -, hrun, hblank, hnot⟩ := h
  have hsplit : contentLines 1 (before ++ l :: after) =
      contentLines 1 before ++ contentLines (1 + before.length) (l :: after) := by
    rw [contentLines, List.zipIdx_append, List.filter_append, contentLines, contentLines]
  rw [hsplit, contentLines_cons, hblank]
  intro hall
  obtain ⟨_, _, next, hbefore, hrest⟩ := hall.exists_of_append
  obtain ⟨-, rfl⟩ := hrun.unique (fun _ hp => (List.not_mem_nil hp).elim) hbefore
  cases hrest with
  | cons hline => exact hnot (acceptsIndent_iff.mpr ⟨_, _, hline⟩)

/-- No line before the one that is refused is refused. -/
theorem RefusedAt.le {lines : List Line} {number number' : Int} (h : RefusedAt lines number)
    (h' : RefusedAt lines number') : number ≤ number' := by
  obtain ⟨before, l, after, shifts, levels, hsplit, rfl, hrun, -⟩ := h
  obtain ⟨before', l', after', shifts', levels', hsplit', rfl, hrun', hrefused⟩ := h'
  by_contra hlt
  rw [hsplit] at hsplit'
  rcases List.append_eq_append_iff.mp hsplit' with ⟨more, rfl, -⟩ | ⟨more, rfl, hmore⟩
  · rw [List.length_append] at hlt
    omega
  · cases more with
    | nil =>
        rw [List.append_nil] at hlt
        omega
    | cons m more =>
        obtain ⟨rfl, -⟩ := List.cons.inj hmore
        have hearlier : RefusedAt (before' ++ l' :: more) (before'.length + 1) :=
          ⟨before', l', more, shifts', levels', rfl, rfl, hrun', hrefused⟩
        exact not_indentRun_of_refusedAt hearlier hrun

theorem RefusedAt.unique {lines : List Line} {number number' : Int} (h : RefusedAt lines number)
    (h' : RefusedAt lines number') : number = number' := Int.le_antisymm (h.le h') (h'.le h)

end runs

end Markup
