import Markup.Token.Lexer
import Mathlib.Data.List.Basic

/-! # What reading a line does

`lexLine` walks down the open levels with a look at one more character.  `LineStep` says in four
cases what comes of it, without the walk: a blank line, a line at the innermost level, a line that
opens a level, and a line that closes some.  In the last three the content of the line is divided
into the prefixes that were found and what follows them.  Everything that is proved of runs of the
reader starts from `lineStep_of_lexLine`. -/

namespace Markup

open Text

variable {seg : Segmenter}

/-! ### The open levels against a line -/

/-- The levels that were found, and the rest of the line after them, make up the line. -/
theorem flatten_kept_append_rest (levels : List (List Char)) (cs : List Char) :
    (matchLevels levels cs).kept.flatten ++ (matchLevels levels cs).rest = cs := by
  induction levels generalizing cs with
  | nil => rfl
  | cons p ps ih =>
      rw [matchLevels]
      cases h : p.isPrefixOf? cs with
      | none => rfl
      | some after =>
          simp only [List.flatten_cons, List.append_assoc]
          rw [ih after, List.append_eq_of_isPrefixOf?_eq_some h]

/-- The levels that were found come before those that were not. -/
theorem kept_append_missed (levels : List (List Char)) (cs : List Char) :
    (matchLevels levels cs).kept ++ (matchLevels levels cs).missed = levels := by
  induction levels generalizing cs with
  | nil => rfl
  | cons p ps ih =>
      rw [matchLevels]
      cases p.isPrefixOf? cs with
      | none => rfl
      | some after => simp only [List.cons_append, ih]

/-! ### The four cases -/

/-- No inline space in front. -/
def Flush (cs : List Char) : Prop := cs.takeWhile isInlineSpace = []

/-- The tokens of a line `l` read in state `s`, and the levels that are open after it. -/
inductive LineStep (seg : Segmenter) (s : LexState) (l : Line) :
    List Token → List (List Char) → Prop
  /-- Nothing but inline space: the levels stay as they are. -/
  | blank (hblank : l.content.all isInlineSpace) :
      LineStep seg s l [⟨.blankLines, lineSpan s.line s.offset l.chars, 1⟩] s.levels
  /-- All open levels, and nothing more. -/
  | level {rest : List Char} (hcontent : l.content = s.levels.flatten ++ rest)
      (hflush : Flush rest) :
      LineStep seg s l
        (contentTokens seg s.line (s.offset + s.levels.flatten.length) rest l.endingChars) s.levels
  /-- All open levels and some space, which is a level of its own. -/
  | opens {space body : List Char} (hcontent : l.content = s.levels.flatten ++ (space ++ body))
      (hne : space ≠ []) (hspace : space.all isInlineSpace) (hflush : Flush body) :
      LineStep seg s l
        (⟨.indent, lineSpan s.line (s.offset + s.levels.flatten.length) space, 1⟩ ::
          contentTokens seg s.line (s.offset + s.levels.flatten.length + space.length) body
            l.endingChars)
        (s.levels ++ [space])
  /-- The outer levels only; the others are closed. -/
  | closes {kept missed : List (List Char)} {rest : List Char} (hlevels : s.levels = kept ++ missed)
      (hcontent : l.content = kept.flatten ++ rest) (hne : missed ≠ []) (hflush : Flush rest) :
      LineStep seg s l
        (⟨.deindent, lineSpan s.line (s.offset + kept.flatten.length) [], missed.length⟩ ::
          contentTokens seg s.line (s.offset + kept.flatten.length) rest l.endingChars)
        kept

theorem flush_dropWhile (cs : List Char) : Flush (cs.dropWhile isInlineSpace) := by
  unfold Flush
  induction cs with
  | nil => rfl
  | cons c cs ih =>
      by_cases h : isInlineSpace c
      · rw [List.dropWhile_cons_of_pos h, ih]
      · rw [List.dropWhile_cons_of_neg h, List.takeWhile_cons_of_neg h]

/-- Reading a line does what one of the four cases says, and moves on to the next line. -/
theorem lineStep_of_lexLine {s s' : LexState} {l : Line} {tokens : List Token}
    (h : lexLine seg s l = .ok (tokens, s')) :
    LineStep seg s l tokens s'.levels ∧ s' = s.advance l s'.levels := by
  have hcontent := (flatten_kept_append_rest s.levels l.content).symm
  have hlevels := (kept_append_missed s.levels l.content).symm
  unfold lexLine at h
  dsimp only at h
  generalize matchLevels s.levels l.content = m at h hcontent hlevels
  have hstart : s.offset + (l.content.length - m.rest.length) =
      s.offset + m.kept.flatten.length := by
    rw [hcontent, List.length_append]; omega
  have hspace := (List.takeWhile_append_dropWhile (p := isInlineSpace) (l := m.rest)).symm
  rw [hstart] at h
  split at h
  · next hblank =>
    obtain ⟨rfl, rfl⟩ := Prod.mk.inj (Except.ok.inj h)
    exact ⟨.blank hblank, rfl⟩
  · split at h
    · next hmissed =>
      rw [List.isEmpty_iff.mp hmissed, List.append_nil] at hlevels
      rw [← hlevels] at h hcontent
      split at h
      · next hflush =>
        obtain ⟨rfl, rfl⟩ := Prod.mk.inj (Except.ok.inj h)
        exact ⟨.level hcontent (List.isEmpty_iff.mp hflush), rfl⟩
      · next hsome =>
        obtain ⟨rfl, rfl⟩ := Prod.mk.inj (Except.ok.inj h)
        rw [hspace] at hcontent
        refine ⟨.opens hcontent ?_ List.all_takeWhile (flush_dropWhile _), rfl⟩
        exact fun hnil => hsome (List.isEmpty_iff.mpr hnil)
    · next hmissed =>
      split at h
      · next hflush =>
        obtain ⟨rfl, rfl⟩ := Prod.mk.inj (Except.ok.inj h)
        refine ⟨.closes hlevels hcontent ?_ (List.isEmpty_iff.mp hflush), rfl⟩
        exact fun hnil => hmissed (List.isEmpty_iff.mpr hnil)
      · cases h

/-! ### Lines in turn -/

/-- Lines are read one after the other. -/
theorem lexLines_cons (s : LexState) (l : Line) (ls : List Line) :
    lexLines seg s (l :: ls) = match lexLine seg s l with
      | .ok (here, s') => (lexLines seg s' ls).map (here ++ ·)
      | .error e => .error e := by
  rw [lexLines]
  cases lexLine seg s l with
  | error e => rfl
  | ok p =>
      obtain ⟨here, s'⟩ := p
      change (lexLines seg s' ls >>= fun after => pure (here ++ after)) =
        (lexLines seg s' ls).map (here ++ ·)
      cases lexLines seg s' ls <;> rfl

/-- Reading lines that begins with a line reads that line, and then the others from there. -/
theorem exists_of_lexLines_cons {s : LexState} {l : Line} {ls : List Line} {tokens : List Token}
    (h : lexLines seg s (l :: ls) = .ok tokens) :
    ∃ here s' after, lexLine seg s l = .ok (here, s') ∧ lexLines seg s' ls = .ok after ∧
      tokens = here ++ after := by
  rw [lexLines_cons] at h
  cases hline : lexLine seg s l with
  | error e => rw [hline] at h; cases h
  | ok p =>
      obtain ⟨here, s'⟩ := p
      rw [hline] at h
      dsimp only at h
      cases hrest : lexLines seg s' ls with
      | error e => rw [hrest] at h; cases h
      | ok after =>
          rw [hrest] at h
          exact ⟨here, s', after, rfl, hrest, (Except.ok.inj h).symm⟩

/-- Lines are refused for the first of them, or for one of those that are read behind it. -/
theorem lexLine_or_of_lexLines_cons {s : LexState} {l : Line} {ls : List Line} {e : LexStop}
    (h : lexLines seg s (l :: ls) = .error e) :
    lexLine seg s l = .error e ∨
      ∃ here s', lexLine seg s l = .ok (here, s') ∧ lexLines seg s' ls = .error e := by
  rw [lexLines_cons] at h
  cases hline : lexLine seg s l with
  | error stop =>
      rw [hline] at h
      exact .inl (congrArg Except.error (Except.error.inj h))
  | ok p =>
      obtain ⟨here, s'⟩ := p
      rw [hline] at h
      dsimp only at h
      cases hrest : lexLines seg s' ls with
      | error stop =>
          rw [hrest] at h
          cases h
          exact .inr ⟨here, s', rfl, hrest⟩
      | ok after => rw [hrest] at h; cases h

end Markup
