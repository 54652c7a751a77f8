import Markup.Proofs.Token.Restore

/-! # Lines read in another place

What a line is read as depends on the levels that are open and on what stands on it; the offset and
the number of the line, and how it ends, only show in the spans.  Two lines that have the same on
them are therefore read as the same, up to a map of spans that takes the places of the one to those
of the other (`SameLine`, `lexLine_mapSpan`).  So it is with lines in turn (`SameLines`,
`lexLines_mapSpan`), and joining blank lines goes with every map that can be taken to the parts of a
span (`mergeBlanks_mapSpan`). -/

namespace Markup

open Text

variable {seg : Segmenter}

/-- The token with another span. -/
def Token.mapSpan (f : Span → Span) (t : Token) : Token := { t with span := f t.span }

@[simp] theorem Token.mapSpan_mk (f : Span → Span) (kind : TokenKind) (span : Span) (count : Int) :
    Token.mapSpan f ⟨kind, span, count⟩ = ⟨kind, f span, count⟩ := rfl

/-- The refusal with another span. -/
def LexStop.mapSpan (f : Span → Span) (e : LexStop) : LexStop := { e with span := f e.span }

/-! ### Tokens of a line -/

section tokens

variable {f : Span → Span} {line line' offset offset' : Nat}

theorem runTokens_mapSpan {runs : List (CharClass × List Char)}
    (hpart : ∀ n part, part ⊆ runs.flatMap (·.2) →
      f (lineSpan line (offset + n) part) = lineSpan line' (offset' + n) part) :
    (runTokens line offset runs).map (Token.mapSpan f) = runTokens line' offset' runs := by
  induction runs generalizing offset offset' with
  | nil => rfl
  | cons r runs ih =>
      obtain ⟨kind, run⟩ := r
      rw [List.flatMap_cons] at hpart
      have hrun := hpart 0 run (List.subset_append_left _ _)
      have hruns := @ih (offset + run.length) (offset' + run.length) fun n part hsub => by
        have h := hpart (run.length + n) part (List.subset_append_of_subset_right _ hsub)
        rwa [← Nat.add_assoc, ← Nat.add_assoc] at h
      rw [runTokens, runTokens, List.map_cons, hruns, Token.mapSpan_mk]
      exact congrArg (fun span => Token.mk _ span 1 :: _) hrun

theorem contentTokens_mapSpan {content ending ending' : List Char}
    (hpart : ∀ n part, part ⊆ content →
      f (lineSpan line (offset + n) part) = lineSpan line' (offset' + n) part)
    (hending : f (lineSpan line (offset + content.length) ending) =
      lineSpan line' (offset' + content.length) ending') :
    (contentTokens seg line offset content ending).map (Token.mapSpan f) =
      contentTokens seg line' offset' content ending' := by
  have hruns : (classRuns (seg.split content)).flatMap (·.2) = content := by
    rw [flatMap_classRuns, seg.flatten_split]
  rw [contentTokens, contentTokens, List.map_append, List.map_singleton, Token.mapSpan_mk,
    hending, runTokens_mapSpan]
  rw [hruns]
  exact hpart

end tokens

/-! ### One line -/

@[simp] theorem LexState.advance_levels (s : LexState) (l : Line) (levels : List (List Char)) :
    (s.advance l levels).levels = levels := rfl

/-- The second line has on it what the first one has, with the same levels open, and the map takes
the places on the first one to those on the second one. -/
structure SameLine (f : Span → Span) (s s' : LexState) (l l' : Line) : Prop where
  levels : s'.levels = s.levels
  content : l'.content = l.content
  part : ∀ n part, part ⊆ l.content →
    f (lineSpan s.line (s.offset + n) part) = lineSpan s'.line (s'.offset + n) part
  ending : ∀ n, f (lineSpan s.line (s.offset + n) l.endingChars) =
    lineSpan s'.line (s'.offset + n) l'.endingChars
  whole : f (lineSpan s.line s.offset l.chars) = lineSpan s'.line s'.offset l'.chars

/-- What reading a line gives, in the place of another line. -/
def lineElsewhere (f : Span → Span) (s' : LexState) (l' : Line) :
    Except LexStop (List Token × LexState) → Except LexStop (List Token × LexState)
  | .ok (tokens, next) => .ok (tokens.map (Token.mapSpan f), s'.advance l' next.levels)
  | .error e => .error (e.mapSpan f)

section line

variable {f : Span → Span} {s s' : LexState} {l l' : Line}

/-- The tokens of a part of the line. -/
theorem SameLine.contentTokens (h : SameLine f s s' l l') {n : Nat} {part : List Char}
    (hpart : part ⊆ l.content) :
    (Markup.contentTokens seg s.line (s.offset + n) part l.endingChars).map (Token.mapSpan f) =
      Markup.contentTokens seg s'.line (s'.offset + n) part l'.endingChars := by
  apply contentTokens_mapSpan
  · intro m run hrun
    rw [Nat.add_assoc, Nat.add_assoc]
    exact h.part _ run (List.Subset.trans hrun hpart)
  · rw [Nat.add_assoc, Nat.add_assoc]
    exact h.ending _

/-- **A line is read as another that has the same on it.** -/
theorem lexLine_mapSpan (h : SameLine f s s' l l') :
    lexLine seg s' l' = lineElsewhere f s' l' (lexLine seg s l) := by
  have hcontent := (flatten_kept_append_rest s.levels l.content).symm
  unfold lexLine
  dsimp only
  rw [h.content, h.levels]
  generalize matchLevels s.levels l.content = m at hcontent ⊢
  have hrest : m.rest ⊆ l.content := by
    rw [hcontent]
    exact List.subset_append_right _ _
  have hspace : m.rest.takeWhile isInlineSpace ⊆ l.content :=
    List.Subset.trans (List.takeWhile_sublist _).subset hrest
  have hbody : m.rest.dropWhile isInlineSpace ⊆ l.content :=
    List.Subset.trans (List.dropWhile_sublist _).subset hrest
  split
  · rw [lineElsewhere, List.map_singleton, Token.mapSpan_mk, h.whole, LexState.advance_levels]
  split
  · split
    · rw [lineElsewhere, h.contentTokens hrest, LexState.advance_levels]
    · rw [lineElsewhere, List.map_cons, Nat.add_assoc s.offset, h.contentTokens hbody,
        Token.mapSpan_mk, h.part _ _ hspace, Nat.add_assoc, LexState.advance_levels]
  split
  · rw [lineElsewhere, List.map_cons, h.contentTokens hrest, Token.mapSpan_mk,
      h.part _ _ (List.nil_subset _), LexState.advance_levels]
  · rw [lineElsewhere, LexStop.mapSpan, h.part _ _ hspace]

end line

/-! ### All lines -/

/-- Lines that are the same in turn, whatever levels each of them leaves open. -/
inductive SameLines (f : Span → Span) : LexState → LexState → List Line → List Line → Prop
  | nil {s s' : LexState} (hlevels : s'.levels = s.levels)
      (hspan : f (lineSpan s.line s.offset []) = lineSpan s'.line s'.offset []) :
      SameLines f s s' [] []
  | cons {s s' : LexState} {l l' : Line} {lines lines' : List Line} (h : SameLine f s s' l l')
      (hrest : ∀ levels, SameLines f (s.advance l levels) (s'.advance l' levels) lines lines') :
      SameLines f s s' (l :: lines) (l' :: lines')

/-- What reading gives, in another place. -/
def tokensElsewhere (f : Span → Span) (read : Except LexStop (List Token)) :
    Except LexStop (List Token) :=
  (read.map (List.map (Token.mapSpan f))).mapError (LexStop.mapSpan f)

/-- **Lines are read as others that have the same on them.** -/
theorem lexLines_mapSpan {f : Span → Span} {s s' : LexState} {lines lines' : List Line}
    (h : SameLines f s s' lines lines') :
    lexLines seg s' lines' = tokensElsewhere f (lexLines seg s lines) := by
  induction h with
  | @nil s s' hlevels hspan =>
      rw [lexLines, lexLines, hlevels, ← hspan]
      split <;> rfl
  | @cons s s' l l' lines lines' hline _ ih =>
      rw [lexLines_cons, lexLines_cons, lexLine_mapSpan hline]
      cases hread : lexLine seg s l with
      | error e => rfl
      | ok p =>
          obtain ⟨here, next⟩ := p
          have hnext := (lineStep_of_lexLine hread).2
          rw [lineElsewhere]
          dsimp only
          rw [ih next.levels, ← hnext]
          cases lexLines seg next lines with
          | error e => rfl
          | ok rest => exact congrArg Except.ok (List.map_append ..).symm

/-- The map can be taken to the parts of a span. -/
def Span.MapsParts (f : Span → Span) : Prop := ∀ a b : Span,
  f { a with fragment := a.fragment ++ b.fragment } =
    { f a with fragment := (f a).fragment ++ (f b).fragment }

/-- Blank lines are joined in one place as in the other. -/
theorem mergeBlanks_mapSpan {f : Span → Span} (hf : Span.MapsParts f) (tokens : List Token) :
    mergeBlanks (tokens.map (Token.mapSpan f)) = (mergeBlanks tokens).map (Token.mapSpan f) := by
  induction tokens with
  | nil => rfl
  | cons t tokens ih =>
      rw [List.map_cons, mergeBlanks, mergeBlanks, ih]
      cases mergeBlanks tokens with
      | nil => rfl
      | cons u us =>
          have hjoin : joinBlanks (t.mapSpan f) (u.mapSpan f) = (joinBlanks t u).mapSpan f :=
            congrArg (fun span => Token.mk .blankLines span _) (hf t.span u.span).symm
          rw [List.map_cons]
          dsimp only
          rw [hjoin, apply_ite (List.map (Token.mapSpan f))]
          rfl

end Markup
