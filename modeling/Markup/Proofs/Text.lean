import Markup.Text
import Mathlib.Data.List.TakeWhile

/-! # Runs and lines

A text is divided at the first character of some kind, again and again.  A division into a run of
one kind and a rest that starts with another kind is the one that `takeWhile` and `dropWhile` make;
in particular, a text that starts with a line has that line first, and the lines of the rest after
it (`linesOf_cons`). -/

namespace Markup.Text

/-! ### Runs -/

section runs

variable {α : Type} {p : α → Bool} {run rest : List α}

/-- A run of one kind, up to something of another kind, is the longest run of that kind. -/
theorem takeWhile_append_of_stop (hrun : ∀ c ∈ run, p c = true)
    (hstop : ∀ c ∈ rest.head?, p c = false) : (run ++ rest).takeWhile p = run := by
  rw [List.takeWhile_append_of_pos hrun]
  cases rest with
  | nil => simp
  | cons c rest =>
      have hc := hstop c rfl
      simp [hc]

theorem dropWhile_append_of_stop (hrun : ∀ c ∈ run, p c = true)
    (hstop : ∀ c ∈ rest.head?, p c = false) : (run ++ rest).dropWhile p = rest := by
  rw [List.dropWhile_append_of_pos hrun]
  cases rest with
  | nil => rfl
  | cons c rest =>
      have hc := hstop c rfl
      simp [hc]

/-- What follows the longest run of a kind starts with something of another kind. -/
theorem head?_dropWhile_of_mem (cs : List α) : ∀ c ∈ (cs.dropWhile p).head?, p c = false := by
  intro c hc
  have hhead := List.head?_dropWhile_not p cs
  rw [Option.mem_def.mp hc] at hhead
  exact hhead

end runs

/-! ### Lines -/

theorem ne_lineFeed_of_notMem {body : List Char} (h : '\n' ∉ body) :
    ∀ c ∈ body, (c != '\n') = true := by
  intro c hc
  rw [bne_iff_ne]
  rintro rfl
  exact h hc

theorem linesOf_nil : linesOf [] = [] := by simp [linesOf]

/-- A line that a line feed ends comes before the lines of the rest. -/
theorem linesOf_cons {body : List Char} (h : '\n' ∉ body) (rest : List Char) :
    linesOf (body ++ '\n' :: rest) = .ofBody body :: linesOf rest := by
  have hbody := ne_lineFeed_of_notMem h
  have hstop : ∀ c ∈ ('\n' :: rest).head?, (c != '\n') = false := by simp
  have hdrop := dropWhile_append_of_stop hbody hstop
  rw [linesOf, if_neg (by simp), takeWhile_append_of_stop hbody hstop]
  split
  · next hnil =>
    rw [hdrop] at hnil
    cases hnil
  · next c tail hcons =>
    rw [hdrop] at hcons
    obtain ⟨rfl, rfl⟩ := List.cons.inj hcons
    rfl

/-- A text without a line feed is one line. -/
theorem linesOf_last {cs : List Char} (hne : cs ≠ []) (h : '\n' ∉ cs) :
    linesOf cs = [⟨cs, none⟩] := by
  have hdrop : cs.dropWhile (· != '\n') = [] :=
    List.dropWhile_eq_nil_iff.mpr (ne_lineFeed_of_notMem h)
  rw [linesOf, if_neg (by simpa using hne)]
  split
  · rfl
  · next c tail hcons =>
    rw [hdrop] at hcons
    cases hcons

/-- What holds of the empty text, of a last line, and of a line in front of a text of which it
holds, holds of every text. -/
@[elab_as_elim] theorem lines_induction {motive : List Char → Prop} (nil : motive [])
    (last : ∀ cs, cs ≠ [] → '\n' ∉ cs → motive cs)
    (cons : ∀ body rest, '\n' ∉ body → motive rest → motive (body ++ '\n' :: rest))
    (cs : List Char) : motive cs := by
  fun_induction linesOf cs with
  | case1 cs hnil =>
      rw [List.isEmpty_iff.mp hnil]
      exact nil
  | case2 cs hsome hdrop =>
      refine last cs (fun hnil => hsome (List.isEmpty_iff.mpr hnil)) fun hmem => ?_
      simpa using List.dropWhile_eq_nil_iff.mp hdrop '\n' hmem
  | case3 cs _ c rest hdrop ih =>
      have hc : (c != '\n') = false := head?_dropWhile_of_mem cs c (by rw [hdrop]; rfl)
      rw [bne_eq_false_iff_eq] at hc
      subst hc
      have hbody : '\n' ∉ cs.takeWhile (· != '\n') := fun hmem => by
        simpa using List.mem_takeWhile_imp hmem
      rw [← List.takeWhile_append_dropWhile (p := (· != '\n')) (l := cs), hdrop]
      exact cons _ rest hbody ih

/-- The line comes first in every text that starts with it, where a line without an end is the last
one. -/
def Line.Leads (l : Line) : Prop :=
  ∀ cs, (l.ending = none → cs = []) → linesOf (l.chars ++ cs) = l :: linesOf cs

theorem Line.leads_last {cs : List Char} (hne : cs ≠ []) (h : '\n' ∉ cs) :
    Line.Leads ⟨cs, none⟩ := by
  intro rest hrest
  obtain rfl := hrest rfl
  rw [Line.chars, Line.endingChars, Option.elim_none, List.append_nil, List.append_nil,
    linesOf_nil, linesOf_last hne h]

theorem Line.leads_ofBody {body : List Char} (h : '\n' ∉ body) : (Line.ofBody body).Leads := by
  intro rest _
  rw [Line.chars_ofBody, List.append_assoc, List.singleton_append, linesOf_cons h]

/-- What stands on a line goes no further than the text that its end was taken off. -/
theorem Line.mem_body_of_mem_content {body : List Char} {c : Char}
    (h : c ∈ (Line.ofBody body).content) : c ∈ body := by
  unfold Line.ofBody at h
  split at h
  · exact body.dropLast_subset h
  · exact h

/-- A line feed ends a line, and never stands on one. -/
theorem lineFeed_notMem_content {cs : List Char} : ∀ l ∈ linesOf cs, '\n' ∉ l.content := by
  induction cs using lines_induction with
  | nil =>
      rw [linesOf_nil]
      exact fun l hl => (List.not_mem_nil hl).elim
  | last cs hne hnone =>
      intro l hl
      rw [linesOf_last hne hnone] at hl
      rwa [List.mem_singleton.mp hl]
  | cons body rest hbody ih =>
      intro l hl hmem
      rw [linesOf_cons hbody] at hl
      rcases List.mem_cons.mp hl with rfl | hl
      · exact hbody (Line.mem_body_of_mem_content hmem)
      · exact ih l hl hmem

/-- The lines of a text that ends with a line feed are followed by those of the rest. -/
theorem linesOf_append {cs : List Char} (h : ∀ c ∈ cs.getLast?, c = '\n') (rest : List Char) :
    linesOf (cs ++ rest) = linesOf cs ++ linesOf rest := by
  induction cs using lines_induction with
  | nil => rw [linesOf_nil, List.nil_append, List.nil_append]
  | last cs hne hnone =>
      have hlast := h _ (List.getLast?_eq_some_getLast hne)
      exact (hnone (hlast ▸ List.getLast_mem hne)).elim
  | cons body tail hbody ih =>
      have htail : ∀ c ∈ tail.getLast?, c = '\n' := by
        intro c hc
        refine h c ?_
        rw [List.getLast?_append, List.getLast?_cons, Option.mem_def.mp hc]
        rfl
      rw [List.append_assoc, List.cons_append, linesOf_cons hbody, linesOf_cons hbody, ih htail]
      rfl

theorem Line.ofBody_ending (body : List Char) : (Line.ofBody body).ending ≠ none := by
  unfold Line.ofBody
  split <;> simp

end Markup.Text
