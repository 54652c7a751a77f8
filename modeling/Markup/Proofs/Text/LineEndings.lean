import Markup.Proofs.Text

/-! # Line ends written in two characters

`crlf` writes a carriage return before every line feed of a text.  Whatever treats the two
characters alike passes over a newline as it passed over the line feed, so runs of one kind go with
the rewriting (`takeWhile_crlf`, `dropWhile_crlf`).  A text that had no carriage return is then
divided into the same lines, with ends of two characters (`linesOf_crlf`). -/

namespace Markup.Text

/-! ### Texts -/

/-- A carriage return before every line feed. -/
def crlf (cs : List Char) : List Char := cs.flatMap fun c => if c = '\n' then ['\r', '\n'] else [c]

@[simp] theorem crlf_nil : crlf [] = [] := rfl

@[simp] theorem crlf_cons_lf (cs : List Char) : crlf ('\n' :: cs) = '\r' :: '\n' :: crlf cs := rfl

theorem crlf_cons {c : Char} (hc : c ≠ '\n') (cs : List Char) : crlf (c :: cs) = c :: crlf cs := by
  rw [crlf, List.flatMap_cons, if_neg hc]
  rfl

@[simp] theorem crlf_append (first rest : List Char) :
    crlf (first ++ rest) = crlf first ++ crlf rest := List.flatMap_append

theorem crlf_of_notMem {cs : List Char} (h : '\n' ∉ cs) : crlf cs = cs := by
  induction cs with
  | nil => rfl
  | cons c cs ih =>
      rw [List.mem_cons, not_or] at h
      rw [crlf_cons (Ne.symm h.1), ih h.2]

/-- Every line feed takes one more character. -/
theorem length_crlf (cs : List Char) : (crlf cs).length = cs.length + cs.count '\n' := by
  induction cs with
  | nil => rfl
  | cons c cs ih =>
      by_cases hc : c = '\n'
      · subst hc
        rw [crlf_cons_lf, List.count_cons_self, List.length_cons, List.length_cons, ih,
          List.length_cons]
        omega
      · rw [crlf_cons hc, List.count_cons_of_ne hc, List.length_cons, ih, List.length_cons]
        omega

/-- No line is added. -/
theorem count_crlf (cs : List Char) : (crlf cs).count '\n' = cs.count '\n' := by
  induction cs with
  | nil => rfl
  | cons c cs ih =>
      by_cases hc : c = '\n'
      · subst hc
        rw [crlf_cons_lf, List.count_cons_of_ne (by decide), List.count_cons_self,
          List.count_cons_self, ih]
      · rw [crlf_cons hc, List.count_cons_of_ne hc, List.count_cons_of_ne hc, ih]

/-! ### Runs -/

section runs

variable {p : Char → Bool}

/-- A run that takes or leaves both characters of a newline is the same run. -/
theorem takeWhile_crlf (hp : p '\r' = p '\n') (cs : List Char) :
    (crlf cs).takeWhile p = crlf (cs.takeWhile p) := by
  induction cs with
  | nil => rfl
  | cons c cs ih =>
      by_cases hc : c = '\n'
      · subst hc
        cases h : p '\n' with
        | false => simp [hp, h]
        | true => simp [hp, h, ih]
      · cases h : p c with
        | false => simp [crlf_cons hc, h]
        | true => simp [crlf_cons hc, h, ih]

theorem dropWhile_crlf (hp : p '\r' = p '\n') (cs : List Char) :
    (crlf cs).dropWhile p = crlf (cs.dropWhile p) := by
  induction cs with
  | nil => rfl
  | cons c cs ih =>
      by_cases hc : c = '\n'
      · subst hc
        cases h : p '\n' with
        | false => simp [hp, h]
        | true => simp [hp, h, ih]
      · cases h : p c with
        | false => simp [crlf_cons hc, h]
        | true => simp [crlf_cons hc, h, ih]

end runs

/-! ### Lines -/

/-- The line with an end of two characters, if it has one. -/
def Line.crlf (l : Line) : Line := { l with ending := l.ending.map fun _ => .crlf }

/-- A line feed by itself, or the end of the text, ends the line. -/
def Line.EndsPlain (l : Line) : Prop := l.ending ≠ some .crlf

theorem Line.EndsPlain.crlf_endingChars {l : Line} (h : l.EndsPlain) :
    Text.crlf l.endingChars = l.crlf.endingChars := by
  obtain ⟨content, ending⟩ := l
  cases ending with
  | none => rfl
  | some e =>
      cases e with
      | lf => rfl
      | crlf => exact (h rfl).elim

theorem Line.EndsPlain.crlf_chars {l : Line} (h : l.EndsPlain) (hnone : '\n' ∉ l.content) :
    Text.crlf l.chars = l.crlf.chars := by
  rw [Line.chars, crlf_append, crlf_of_notMem hnone, h.crlf_endingChars]
  rfl

theorem Line.ofBody_of_notMem {body : List Char} (h : '\r' ∉ body) :
    Line.ofBody body = ⟨body, some .lf⟩ := by
  rw [Line.ofBody, if_neg]
  exact fun hlast => h (List.mem_of_getLast? hlast)

theorem Line.ofBody_concat (body : List Char) :
    Line.ofBody (body ++ ['\r']) = ⟨body, some .crlf⟩ := by
  simp [Line.ofBody]

/-- **Lines are the same lines**, each with an end of two characters. -/
theorem linesOf_crlf {cs : List Char} (h : '\r' ∉ cs) :
    linesOf (crlf cs) = (linesOf cs).map Line.crlf ∧ ∀ l ∈ linesOf cs, l.EndsPlain := by
  induction cs using lines_induction with
  | nil =>
      rw [crlf_nil, linesOf_nil]
      exact ⟨rfl, fun l hl => (List.not_mem_nil hl).elim⟩
  | last cs hne hnone =>
      rw [crlf_of_notMem hnone, linesOf_last hne hnone]
      refine ⟨rfl, fun l hl => ?_⟩
      rw [List.mem_singleton.mp hl]
      exact nofun
  | cons body rest hbody ih =>
      rw [List.mem_append, List.mem_cons, not_or, not_or] at h
      obtain ⟨hlines, hplain⟩ := ih h.2.2
      have hboth : '\n' ∉ body ++ ['\r'] := by simpa using hbody
      rw [linesOf_cons hbody, Line.ofBody_of_notMem h.1]
      refine ⟨?_, fun l hl => ?_⟩
      · rw [crlf_append, crlf_of_notMem hbody, crlf_cons_lf, ← List.singleton_append,
          ← List.append_assoc, linesOf_cons hboth, Line.ofBody_concat, hlines]
        rfl
      · rcases List.mem_cons.mp hl with rfl | hl
        · exact nofun
        · exact hplain l hl

end Markup.Text
