import Markup.Proofs.Token.Grammar
import Markup.Proofs.Token.IndentLaw

/-! # Indentation is read by the law

Reading walks down the open levels, takes their prefixes off a line while they match, and then looks
at one more character.  What comes of it is what the law of indentation says: a line that is read
does to the open levels what the law does (`shifts_of_lexLine`), and a line that is refused is one
that the law refuses (`not_acceptsIndent_of_lexLine`).  The open levels consist of inline space, and
each of them adds some (`SomeSpace`).

So it is with all lines of a text in turn (`lex_indentation`). -/

namespace Markup

open Text

variable {seg : Segmenter}

/-! ### Lines -/

section lines

variable {s s' : LexState} {l : Line} {tokens : List Token}

/-- What a token tells of the open levels, and in which line. -/
def Token.shift? (t : Token) : Option (Int × Shift) :=
  match t.kind with
  | .indent => some (t.span.line, .opens t.chars)
  | .deindent => some (t.span.line, .closes t.count)
  | _ => none

/-- What tokens tell of the open levels, in turn. -/
def shiftsOf (tokens : List Token) : List (Int × Shift) := tokens.filterMap Token.shift?

theorem shiftsOf_append (first rest : List Token) :
    shiftsOf (first ++ rest) = shiftsOf first ++ shiftsOf rest := List.filterMap_append

theorem shiftsOf_contentTokens (line offset : Nat) (content ending : List Char) :
    shiftsOf (contentTokens seg line offset content ending) = [] := by
  have hruns : ∀ (runs : List (CharClass × List Char)) (offset : Nat),
      shiftsOf (runTokens line offset runs) = [] := by
    intro runs
    induction runs with
    | nil => exact fun _ => rfl
    | cons r runs ih =>
        obtain ⟨kind, run⟩ := r
        intro offset
        rw [runTokens, shiftsOf, List.filterMap_cons_none]
        · exact ih _
        · cases kind <;> rfl
  rw [contentTokens, shiftsOf_append, hruns]
  rfl

/-- Joining blank lines concerns no other token. -/
theorem shiftsOf_mergeBlanks (tokens : List Token) :
    shiftsOf (mergeBlanks tokens) = shiftsOf tokens := by
  induction tokens with
  | nil => rfl
  | cons t tokens ih =>
      have hcons : shiftsOf (t :: tokens) = shiftsOf (t :: mergeBlanks tokens) := by
        rw [shiftsOf, List.filterMap_cons, ← shiftsOf, ← ih, shiftsOf, shiftsOf,
          List.filterMap_cons]
      rw [hcons, mergeBlanks]
      cases mergeBlanks tokens with
      | nil => rfl
      | cons u us =>
          dsimp only
          split
          · next hblank =>
            have ht : t.shift? = none := by simp [Token.shift?, hblank.1]
            have hu : u.shift? = none := by simp [Token.shift?, hblank.2]
            have hboth : (joinBlanks t u).shift? = none := rfl
            simp [shiftsOf, ht, hu, hboth]
          · rfl

/-- Open levels of which each adds some inline space. -/
def SomeSpace (levels : List (List Char)) : Prop :=
  SpaceLevels levels ∧ ∀ p ∈ levels, p ≠ []

theorem someSpace_nil : SomeSpace [] :=
  ⟨fun _ h => (List.not_mem_nil h).elim, fun _ h => (List.not_mem_nil h).elim⟩

/-- Space in front of a text that has none. -/
theorem takeWhile_append_of_flush {space rest : List Char}
    (hspace : ∀ c ∈ space, isInlineSpace c = true) (hflush : Flush rest) :
    (space ++ rest).takeWhile isInlineSpace = space := by
  rw [List.takeWhile_append_of_pos hspace, hflush, List.append_nil]

theorem SpaceLevels.flatten {levels : List (List Char)} (h : SpaceLevels levels) :
    ∀ c ∈ levels.flatten, isInlineSpace c = true := by
  intro c hc
  obtain ⟨p, hp, hcp⟩ := List.mem_flatten.mp hc
  exact List.all_eq_true.mp (h p hp) c hcp

/-- **A line that is read does what the law says.** -/
theorem shifts_of_lexLine (hlevels : SomeSpace s.levels) (hblank : l.isBlank = false)
    (h : lexLine seg s l = .ok (tokens, s')) :
    ∃ here, Shifts s.levels l.indent here s'.levels ∧
      shiftsOf tokens = here.map ((s.line : Int), ·) := by
  have hstep := (lineStep_of_lexLine h).1
  generalize s'.levels = levels at hstep ⊢
  have hspaces := hlevels.1.flatten
  cases hstep with
  | blank hall =>
      rw [Line.isBlank, hall] at hblank
      cases hblank
  | level hcontent hflush =>
      refine ⟨[], .stays ?_, shiftsOf_contentTokens ..⟩
      rw [openPrefix_length, Line.indent, hcontent, takeWhile_append_of_flush hspaces hflush]
  | @opens space body hcontent hne hspace hflush =>
      refine ⟨[.opens space], .opens hne ?_, ?_⟩
      · have hboth : ∀ c ∈ s.levels.flatten ++ space, isInlineSpace c = true := by
          intro c hc
          rcases List.mem_append.mp hc with hc | hc
          · exact hspaces c hc
          · exact List.all_eq_true.mp hspace c hc
        rw [openPrefix_length, Line.indent, hcontent, ← List.append_assoc,
          takeWhile_append_of_flush hboth hflush]
      · rw [shiftsOf, List.filterMap_cons, ← shiftsOf, shiftsOf_contentTokens]
        simp [Token.shift?, Token.chars, lineSpan]
  | @closes _ missed rest hkept hcontent hne hflush =>
      have hsome := List.length_pos_of_ne_nil hne
      have hlength : s.levels.length = levels.length + missed.length := by
        rw [hkept, List.length_append]
      have htake : s.levels.take levels.length = levels := by
        rw [hkept, List.take_left]
      have hspaces' : SpaceLevels levels := fun p hp => hlevels.1 p (by
        rw [hkept]
        exact List.mem_append_left _ hp)
      have hclose : Shifts s.levels l.indent [.closes (s.levels.length - levels.length)]
          (s.levels.take levels.length) := by
        refine .closes (by omega) ?_
        rw [openPrefix, htake, Line.indent, hcontent,
          takeWhile_append_of_flush hspaces'.flatten hflush]
      have hcount : (s.levels.length : Int) - levels.length = missed.length := by omega
      rw [htake, hcount] at hclose
      refine ⟨_, hclose, ?_⟩
      rw [shiftsOf, List.filterMap_cons, ← shiftsOf, shiftsOf_contentTokens]
      rfl

theorem someSpace_of_lexLine (hlevels : SomeSpace s.levels)
    (h : lexLine seg s l = .ok (tokens, s')) : SomeSpace s'.levels := by
  refine ⟨(lineStep_of_lexLine h).1.spaceLevels hlevels.1, ?_⟩
  by_cases hblank : l.isBlank = false
  · obtain ⟨here, hshifts, -⟩ := shifts_of_lexLine hlevels hblank h
    exact hshifts.ne_nil hlevels.2
  · rw [lexLine, if_pos (by simpa [Line.isBlank] using hblank)] at h
    obtain ⟨-, rfl⟩ := Prod.mk.inj (Except.ok.inj h)
    exact hlevels.2

/-- The first level that is not found does not start what follows the others. -/
theorem not_prefix_of_matchLevels {levels ps : List (List Char)} {p : List Char} {cs : List Char}
    (h : (matchLevels levels cs).missed = p :: ps) : ¬ p <+: (matchLevels levels cs).rest := by
  induction levels generalizing cs with
  | nil => cases h
  | cons q qs ih =>
      rw [matchLevels] at h ⊢
      cases hfound : q.isPrefixOf? cs with
      | some after =>
          rw [hfound] at h
          exact ih h
      | none =>
          rw [hfound] at h
          obtain ⟨rfl, rfl⟩ := List.cons.inj h
          rintro ⟨after, rfl⟩
          have hsome : q.isPrefixOf? (q ++ after) = some after :=
            List.isPrefixOf?_eq_some_iff_append_eq.mpr rfl
          rw [hsome] at hfound
          cases hfound

/-- **A line that is refused is one that the law refuses.** -/
theorem not_acceptsIndent_of_lexLine {e : LexStop} (hlevels : SomeSpace s.levels)
    (h : lexLine seg s l = .error e) :
    l.isBlank = false ∧ ¬ AcceptsIndent s.levels l.indent ∧ e.span.line = s.line := by
  have hcontent := (flatten_kept_append_rest s.levels l.content).symm
  have hkept := (kept_append_missed s.levels l.content).symm
  have hmissed : ∀ p ps, (matchLevels s.levels l.content).missed = p :: ps →
      ¬ p <+: (matchLevels s.levels l.content).rest := fun _ _ => not_prefix_of_matchLevels
  unfold lexLine at h
  dsimp only at h
  generalize matchLevels s.levels l.content = m at h hcontent hkept hmissed
  split at h
  · cases h
  next hblank =>
  split at h
  · split at h <;> cases h
  next hsome =>
  split at h
  · cases h
  next hspace =>
  cases h
  refine ⟨by simpa [Line.isBlank] using hblank, ?_, rfl⟩
  obtain ⟨p, ps, hps⟩ : ∃ p ps, m.missed = p :: ps :=
    List.exists_cons_of_ne_nil fun hnil => hsome (List.isEmpty_iff.mpr hnil)
  have hkeptSpace : SpaceLevels m.kept := fun p hp => hlevels.1 p (by
    rw [hkept]
    exact List.mem_append_left _ hp)
  -- The space in front is that of the levels found, and more, which does not go on as it should.
  have hindent : l.indent = m.kept.flatten ++ m.rest.takeWhile isInlineSpace := by
    rw [Line.indent, hcontent, List.takeWhile_append_of_pos hkeptSpace.flatten]
  rw [hkept, hps, hindent]
  refine not_acceptsIndent (fun hnil => hspace (List.isEmpty_iff.mpr hnil)) fun hp => ?_
  exact hmissed p ps hps (hp.trans (List.takeWhile_prefix _))

end lines

/-! ### All lines -/

/-- Every line but the last has an end. -/
def LinesEnd (lines : List Line) : Prop := lines.IsChain fun l _ => l.ending ≠ none

theorem linesEnd_linesOf (cs : List Char) : LinesEnd (linesOf cs) := by
  induction cs using lines_induction with
  | nil =>
      rw [linesOf_nil]
      exact .nil
  | last cs hne hnone =>
      rw [linesOf_last hne hnone]
      exact .singleton _
  | cons body rest hbody ih =>
      rw [linesOf_cons hbody]
      exact List.isChain_cons.mpr ⟨fun _ _ => Line.ofBody_ending _, ih⟩

/-- The next line has the next number. -/
theorem line_of_lexLine {s s' : LexState} {l m : Line} {lines : List Line} {tokens : List Token}
    (hend : LinesEnd (l :: m :: lines)) (h : lexLine seg s l = .ok (tokens, s')) :
    s'.line = s.line + 1 := by
  have hending := (List.isChain_cons_cons.mp hend).1
  rw [(lineStep_of_lexLine h).2, LexState.advance]
  cases he : l.ending with
  | none => exact (hending he).elim
  | some e => rfl

/-- One line in front of lines that follow the law. -/
theorem indentRun_cons {s s' : LexState} {l : Line} {lines : List Line} {tokens : List Token}
    {shifts : List (Int × Shift)} {last : List (List Char)} (hlevels : SomeSpace s.levels)
    (h : lexLine seg s l = .ok (tokens, s'))
    (hrest : IndentRun s'.levels (contentLines (s.line + 1) lines) shifts last) :
    IndentRun s.levels (contentLines s.line (l :: lines)) (shiftsOf tokens ++ shifts) last := by
  rw [contentLines_cons]
  cases hblank : l.isBlank with
  | true =>
      rw [lexLine, if_pos (by simpa [Line.isBlank] using hblank)] at h
      obtain ⟨rfl, rfl⟩ := Prod.mk.inj (Except.ok.inj h)
      exact hrest
  | false =>
      obtain ⟨here, hshifts, htokens⟩ := shifts_of_lexLine hlevels hblank h
      rw [htokens]
      exact .cons hshifts hrest

/-- What closes the levels that are open at the end. -/
def closingShifts (levels : List (List Char)) : List Shift :=
  if levels.isEmpty then [] else [.closes levels.length]

/-- Lines that are read do in turn what the law says. -/
theorem indentRun_of_lexLines : ∀ {lines : List Line} {s : LexState} {tokens : List Token},
    SomeSpace s.levels → LinesEnd lines → lexLines seg s lines = .ok tokens →
      ∃ shifts levels closing, IndentRun s.levels (contentLines s.line lines) shifts levels ∧
        shiftsOf tokens = shifts ++ closing ∧ closing.map Prod.snd = closingShifts levels
  | [], s, tokens, _, _, h => by
      obtain rfl := Except.ok.inj h
      refine ⟨[], s.levels, _, .nil, rfl, ?_⟩
      unfold closingShifts
      split <;> rfl
  | l :: lines, s, tokens, hlevels, hend, h => by
      obtain ⟨here, s', after, hline, hrest, rfl⟩ := exists_of_lexLines_cons h
      obtain ⟨shifts, levels, closing, hrun, hshifts, hclosing⟩ :=
        indentRun_of_lexLines (someSpace_of_lexLine hlevels hline) hend.tail hrest
      refine ⟨shiftsOf here ++ shifts, levels, closing, ?_, ?_, hclosing⟩
      · apply indentRun_cons hlevels hline
        cases lines with
        | nil => exact hrun
        | cons m lines => rwa [line_of_lexLine hend hline] at hrun
      · rw [shiftsOf_append, hshifts, List.append_assoc]

/-- Lines that are refused are so at the first one that the law refuses. -/
theorem refused_of_lexLines : ∀ {lines : List Line} {s : LexState} {e : LexStop},
    SomeSpace s.levels → LinesEnd lines → lexLines seg s lines = .error e →
      ∃ before l after shifts levels, lines = before ++ l :: after ∧
        e.span.line = (s.line + before.length : Nat) ∧
        IndentRun s.levels (contentLines s.line before) shifts levels ∧
        l.isBlank = false ∧ ¬ AcceptsIndent levels l.indent
  | l :: lines, s, e, hlevels, hend, h => by
      rcases lexLine_or_of_lexLines_cons h with hline | ⟨here, s', hline, hrest⟩
      · obtain ⟨hblank, hnot, hnumber⟩ := not_acceptsIndent_of_lexLine hlevels hline
        exact ⟨[], l, lines, [], s.levels, rfl, hnumber, .nil, hblank, hnot⟩
      · obtain ⟨before, l', after, shifts, levels, rfl, hnumber, hrun, hblank, hnot⟩ :=
          refused_of_lexLines (someSpace_of_lexLine hlevels hline) hend.tail hrest
        have hnext : s'.line = s.line + 1 := by
          cases before with
          | nil => exact line_of_lexLine hend hline
          | cons m before => exact line_of_lexLine hend hline
        rw [hnext] at hrun hnumber
        refine ⟨l :: before, l', after, _, levels, rfl, ?_, indentRun_cons hlevels hline hrun,
          hblank, hnot⟩
        rw [hnumber, List.length_cons]
        omega

/-- **Which indentation is accepted, and what it does.**  If a text has tokens, its lines that are
not blank follow the law in turn, and the tokens tell of just that, each in the line where it
happens, and of the levels that are left in the end.  A text has no tokens exactly if the law
refuses a line, and the error is in the first such line. -/
theorem lex_indentation (text : String) :
    (∀ tokens, lex text seg = .ok tokens → ∃ shifts levels closing,
      IndentRun [] (contentLines 1 (linesOf text.toList)) shifts levels ∧
      shiftsOf tokens = shifts ++ closing ∧ closing.map Prod.snd = closingShifts levels) ∧
    ∀ number, (∃ e, lex text seg = .error e ∧ e.span.line = number) ↔
      RefusedAt (linesOf text.toList) number := by
  have hend := linesEnd_linesOf text.toList
  unfold lex lexChars
  cases hlines : lexLines seg {} (linesOf text.toList) with
  | ok lines =>
      obtain ⟨shifts, levels, closing, hrun, hshifts, hclosing⟩ :=
        indentRun_of_lexLines someSpace_nil hend hlines
      refine ⟨?_, fun number => ⟨?_, fun h => (not_indentRun_of_refusedAt h hrun).elim⟩⟩
      · intro tokens h
        obtain rfl := Except.ok.inj h
        exact ⟨shifts, levels, closing, hrun, by rw [shiftsOf_mergeBlanks, hshifts], hclosing⟩
      · rintro ⟨e, h, -⟩
        cases h
  | error stop =>
      obtain ⟨before, l, after, shifts, levels, hsplit, hnumber, hrefused⟩ :=
        refused_of_lexLines someSpace_nil hend hlines
      have hat : RefusedAt (linesOf text.toList) stop.span.line := by
        refine ⟨before, l, after, shifts, levels, hsplit, ?_, hrefused⟩
        rw [hnumber]
        dsimp only
        omega
      refine ⟨fun tokens h => (nomatch h), fun number => ⟨?_, ?_⟩⟩
      · rintro ⟨e, h, rfl⟩
        cases h
        exact hat
      · intro h
        exact ⟨_, rfl, hat.unique h⟩

/-- Two levels are opened, on both sides of a blank line, and closed at once. -/
example : (lex "a\n\tb\n \n\t  c\nd").map shiftsOf =
    .ok [(2, .opens ['\t']), (4, .opens [' ', ' ']), (5, .closes 2)] := by decide +kernel

end Markup
