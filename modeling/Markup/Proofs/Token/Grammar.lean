import Markup.Proofs.Text
import Markup.Proofs.Token.Stream

/-! # Tokens follow the grammar

The tokens that `lex` gives for a text are a `TokenStream`.  Reading makes tokens line by line, and
blank lines are joined afterwards; the proof goes over the lines of the text from its end, and puts
one line in front of tokens that are right already (`TokenStream.cons_line`).  Open levels hold
inline space only, so a line that is not blank has content behind its indentation.  The main
statement is `lex_stream`. -/

namespace Markup

open Text

variable {seg : Segmenter}

/-! ### Joining blank lines -/

theorem mergeBlanks_append {head : List Token} (h : ∀ t ∈ head, t.kind ≠ .blankLines)
    (rest : List Token) : mergeBlanks (head ++ rest) = head ++ mergeBlanks rest := by
  induction head with
  | nil => rfl
  | cons t head ih =>
      have ht := h t List.mem_cons_self
      rw [List.cons_append, mergeBlanks, ih fun u hu => h u (List.mem_cons_of_mem t hu)]
      rw [List.cons_append]
      cases head ++ mergeBlanks rest with
      | nil => rfl
      | cons u us => simp [ht]

theorem LineTokens.ne_blank {depth after : Nat} {head : List Token}
    (h : LineTokens seg depth head after) : ∀ t ∈ head, t.kind ≠ .blankLines := by
  have hcontent : ∀ {content : List Token}, LineContent seg content →
      ∀ t ∈ content, t.kind ≠ .blankLines := fun h t ht => (h.kind t ht).ne_others.2.2.2
  cases h with
  | level h => exact hcontent h
  | opens hkind _ _ h | closes hkind _ _ _ h =>
      intro t ht
      rcases List.mem_cons.mp ht with rfl | ht
      · simp [hkind]
      · exact hcontent h t ht

theorem LineTokens.ne_nil {depth after : Nat} {head : List Token}
    (h : LineTokens seg depth head after) : head ≠ [] := by
  cases h with
  | level h => exact h.nonempty
  | opens | closes => exact List.cons_ne_nil _ _

/-- What begins with blank lines goes on without. -/
theorem TokenStream.of_blank {depth : Nat} {t : Token} {rest : List Token}
    (h : TokenStream seg depth (t :: rest)) (ht : t.kind = .blankLines) :
    BlankToken t ∧ (∀ u ∈ rest.head?, u.kind ≠ .blankLines) ∧ TokenStream seg depth rest := by
  generalize htokens : t :: rest = tokens at h
  cases h with
  | finished => cases htokens
  | closed hkind =>
      obtain ⟨rfl, -⟩ := List.cons.inj htokens
      rw [ht] at hkind
      cases hkind
  | blank hu hnext h =>
      obtain ⟨rfl, rfl⟩ := List.cons.inj htokens
      exact ⟨hu, hnext, h⟩
  | @line _ _ head _ _ hhead =>
      cases head with
      | nil => exact (hhead.ne_nil rfl).elim
      | cons u head =>
          obtain ⟨rfl, -⟩ := List.cons.inj htokens
          exact (hhead.ne_blank t List.mem_cons_self ht).elim

/-- The token of one blank line. -/
structure BlankLineToken (t : Token) (l : Line) : Prop where
  kind : t.kind = .blankLines
  chars : t.chars = l.chars
  count : t.count = 1
  blank : l.content.all isInlineSpace
  leads : l.Leads

theorem BlankLineToken.blankToken {t : Token} {l : Line} (h : BlankLineToken t l) :
    BlankToken t := by
  have hline : linesOf t.chars = [l] := by
    have hone := h.leads [] fun _ => rfl
    rw [List.append_nil] at hone
    rw [h.chars, hone]
    simp [linesOf]
  refine ⟨h.kind, ?_, ?_, ?_⟩
  · simp [hline]
  · simpa [hline] using h.blank
  · simp [hline, h.count]

/-- The lines of a joined token are the new line and those that were there. -/
theorem BlankLineToken.join {t u : Token} {l : Line} (h : BlankLineToken t l) (hu : BlankToken u)
    (hending : l.ending ≠ none) : BlankToken (joinBlanks t u) := by
  have hjoined : linesOf (joinBlanks t u).chars = l :: linesOf u.chars := by
    rw [← h.leads u.chars fun hnone => (hending hnone).elim, ← h.chars]
    simp [Token.chars, joinBlanks]
  refine ⟨rfl, ?_, ?_, ?_⟩
  · simp [hjoined]
  · intro l' hl'
    rw [hjoined] at hl'
    rcases List.mem_cons.mp hl' with rfl | hl'
    · exact h.blank
    · exact hu.blank l' hl'
  · rw [hjoined, List.length_cons]
    simp only [joinBlanks, h.count, hu.count]
    omega

/-- A blank line in front: it is counted with the blank lines that follow it. -/
theorem TokenStream.cons_blank {depth : Nat} {t : Token} {l : Line} {tokens : List Token}
    (h : TokenStream seg depth (mergeBlanks tokens)) (ht : BlankLineToken t l)
    (hlast : l.ending = none → ∀ t ∈ mergeBlanks tokens, t.kind = .deindent) :
    TokenStream seg depth (mergeBlanks (t :: tokens)) := by
  rw [mergeBlanks]
  cases hmerged : mergeBlanks tokens with
  | nil =>
      rw [hmerged] at h
      exact .blank ht.blankToken (by simp) h
  | cons u us =>
      rw [hmerged] at h hlast
      dsimp only
      split
      · next hboth =>
        obtain ⟨hu, hnext, hus⟩ := h.of_blank hboth.2
        -- Something other than the end follows, so the line has an end of its own.
        have hending : l.ending ≠ none := by
          intro hnone
          have hdeindent := hlast hnone u List.mem_cons_self
          rw [hboth.2] at hdeindent
          cases hdeindent
        exact .blank (ht.join hu hending) hnext hus
      · next hneither =>
        refine .blank ht.blankToken ?_ h
        intro v hv
        obtain rfl := Option.some.inj hv
        exact fun hkind => hneither ⟨ht.kind, hkind⟩

/-! ### One line -/

/-- Levels that hold inline space only. -/
def SpaceLevels (levels : List (List Char)) : Prop := ∀ p ∈ levels, p.all isInlineSpace

/-- Behind inline space, a line that is not blank has content. -/
theorem ne_nil_of_not_blank {content rest : List Char} {levels : List (List Char)}
    (hblank : ¬ content.all isInlineSpace) (hlevels : SpaceLevels levels)
    (hcontent : content = levels.flatten ++ rest) : rest ≠ [] := by
  rintro rfl
  apply hblank
  rw [hcontent, List.append_nil, List.all_flatten]
  exact List.all_eq_true.mpr hlevels

theorem LineStep.spaceLevels {s : LexState} {l : Line} {here : List Token}
    {levels : List (List Char)} (h : LineStep seg s l here levels)
    (hlevels : SpaceLevels s.levels) : SpaceLevels levels := by
  cases h with
  | blank | level => exact hlevels
  | @opens space body _ _ hspace =>
      intro p hp
      rcases List.mem_append.mp hp with hp | hp
      · exact hlevels p hp
      · rw [List.mem_singleton.mp hp]
        exact hspace
  | @closes kept missed rest hkept =>
      intro p hp
      refine hlevels p ?_
      rw [hkept]
      exact List.mem_append_left missed hp

/-- A line that is not blank has the tokens of a line and a newline. -/
theorem LineStep.exists_lineTokens {s : LexState} {l : Line} {here : List Token}
    {levels : List (List Char)} (h : LineStep seg s l here levels)
    (hblank : ¬ l.content.all isInlineSpace) (hlevels : SpaceLevels s.levels) :
    ∃ head newline, here = head ++ [newline] ∧ LineTokens seg s.levels.length head levels.length ∧
      newline.kind = .newline ∧ newline.chars = l.endingChars := by
  have hafter := h.spaceLevels hlevels
  cases h with
  | blank h => exact (hblank h).elim
  | @level rest hcontent hflush =>
      have hne := ne_nil_of_not_blank hblank hlevels hcontent
      refine ⟨_, _, rfl, .level (lineContent_runTokens _ _ hne hflush), rfl, ?_⟩
      exact String.toList_ofList
  | @opens space body hcontent hne hspace hflush =>
      have hbody : body ≠ [] := ne_nil_of_not_blank hblank hafter (by simpa using hcontent)
      have htoken : (Token.mk .indent (lineSpan s.line (s.offset + s.levels.flatten.length) space)
          1).chars = space := String.toList_ofList
      refine ⟨_ :: runTokens _ _ _, _, rfl, ?_, rfl, String.toList_ofList⟩
      rw [List.length_append, List.length_singleton]
      refine .opens rfl ?_ ?_ (lineContent_runTokens _ _ hbody hflush)
      · rw [htoken]
        exact hne
      · rw [htoken]
        exact hspace
  | @closes kept missed rest hkept hcontent hne hflush =>
      have hrest := ne_nil_of_not_blank hblank hafter hcontent
      have hsome := List.length_pos_of_ne_nil hne
      have hdepth : levels.length = s.levels.length - missed.length := by
        rw [hkept, List.length_append]
        omega
      refine ⟨_ :: runTokens _ _ _, _, rfl, ?_, rfl, String.toList_ofList⟩
      rw [hdepth]
      refine .closes rfl rfl hsome ?_ (lineContent_runTokens _ _ hrest hflush)
      rw [hkept, List.length_append]
      omega

theorem fragment_of_chars {t : Token} {text : String} (h : t.chars = text.toList) :
    t.span.fragment = text := String.toList_inj.mp h

/-- A line in front of tokens that are right already. -/
theorem TokenStream.cons_line {s s' : LexState} {l : Line} {here tokens : List Token}
    (hline : lexLine seg s l = .ok (here, s')) (hlevels : SpaceLevels s.levels) (hleads : l.Leads)
    (hlast : l.ending = none → ∀ t ∈ mergeBlanks tokens, t.kind = .deindent)
    (h : TokenStream seg s'.levels.length (mergeBlanks tokens)) :
    TokenStream seg s.levels.length (mergeBlanks (here ++ tokens)) := by
  by_cases hblank : l.content.all isInlineSpace
  · rw [lexLine, if_pos hblank] at hline
    obtain ⟨rfl, rfl⟩ := Prod.mk.inj (Except.ok.inj hline)
    exact h.cons_blank ⟨rfl, String.toList_ofList, rfl, hblank, hleads⟩ hlast
  · have hstep := (lineStep_of_lexLine hline).1
    obtain ⟨head, newline, rfl, hhead, hkind, hchars⟩ := hstep.exists_lineTokens hblank hlevels
    have hmerge : mergeBlanks (head ++ [newline] ++ tokens) =
        head ++ newline :: mergeBlanks tokens := by
      rw [mergeBlanks_append, List.append_assoc, List.singleton_append]
      intro t ht
      rcases List.mem_append.mp ht with ht | ht
      · exact hhead.ne_blank t ht
      · rw [List.mem_singleton.mp ht]
        simp [hkind]
    rw [hmerge]
    refine .line hhead hkind ?_ h
    rw [Line.endingChars] at hchars
    cases hending : l.ending with
    | none =>
        rw [hending] at hchars
        exact .inr (.inr ⟨fragment_of_chars hchars, hlast hending⟩)
    | some e =>
        rw [hending] at hchars
        cases e with
        | lf => exact .inl (fragment_of_chars hchars)
        | crlf => exact .inr (.inl (fragment_of_chars hchars))

/-! ### All lines -/

/-- Behind the last line, the open levels are closed. -/
theorem stream_of_lexLines_nil {s : LexState} {tokens : List Token}
    (h : lexLines seg s [] = .ok tokens) :
    TokenStream seg s.levels.length (mergeBlanks tokens) ∧
      ∀ t ∈ mergeBlanks tokens, t.kind = .deindent := by
  obtain rfl := Except.ok.inj h
  split
  · next hnone =>
    rw [List.isEmpty_iff.mp hnone]
    exact ⟨.finished, fun t ht => (List.not_mem_nil ht).elim⟩
  · next hsome =>
    have hopen : 1 ≤ s.levels.length := List.length_pos_of_ne_nil fun hnil =>
      hsome (List.isEmpty_iff.mpr hnil)
    refine ⟨.closed rfl rfl hopen, ?_⟩
    intro t ht
    rw [List.mem_singleton.mp ht]

/-- The tokens of lines are right, whatever levels are open before them. -/
theorem stream_of_lexLines {cs : List Char} {s : LexState} {tokens : List Token}
    (hlevels : SpaceLevels s.levels) (h : lexLines seg s (linesOf cs) = .ok tokens) :
    TokenStream seg s.levels.length (mergeBlanks tokens) := by
  -- The induction gives the tokens of the lines that follow, whatever state they are read in.
  induction cs using lines_induction generalizing s tokens with
  | nil =>
      rw [linesOf_nil] at h
      exact (stream_of_lexLines_nil h).1
  | last cs hne hnone =>
      rw [linesOf_last hne hnone] at h
      obtain ⟨here, s', after, hline, hrest, rfl⟩ := exists_of_lexLines_cons h
      obtain ⟨hstream, hlast⟩ := stream_of_lexLines_nil hrest
      exact hstream.cons_line hline hlevels (Line.leads_last hne hnone) fun _ => hlast
  | cons body rest hbody ih =>
      rw [linesOf_cons hbody] at h
      obtain ⟨here, s', after, hline, hrest, rfl⟩ := exists_of_lexLines_cons h
      have hstep := (lineStep_of_lexLine hline).1
      refine (ih (hstep.spaceLevels hlevels) hrest).cons_line hline hlevels
        (Line.leads_ofBody hbody) ?_
      exact fun hending => (Line.ofBody_ending _ hending).elim

/-- Levels opened and closed, blank lines, both kinds of newline, and a last line without one. -/
def levelledText : String := "a\n\tb 1\r\n \n\r\n\t  c\u0301!\n\td\r\n\t  e"

end Markup
