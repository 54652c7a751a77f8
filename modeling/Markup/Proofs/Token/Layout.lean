import Markup.Proofs.Call.Spans
import Markup.Proofs.Token.Indentation
import Markup.Proofs.Token.Restore

/-! # Where tokens stand in the text

The tokens of a text lie one behind another, each where its span says (`Layout`).  All that lies
between them is indentation: a line that is not blank begins with the prefixes of the levels that
are open on it, and of these a token covers at most the one that the line itself opens.

Offsets and line numbers are counted on from line to line, and the tokens of adjacent blank lines
are put together afterwards.  The layout is therefore built over the lines from the end of the text,
one line in front of tokens that are laid out already (`Layout.cons_line`), and what is asked of the
tokens is read off it.  The main statement is `lex_located`. -/

namespace Markup

open Text

variable {seg : Segmenter}

/-! ### Layout -/

/-- The span is that of the text behind `before`. -/
structure Span.At (text before : List Char) (s : Span) : Prop where
  offset : s.offset = before.length
  line : s.line = 1 + before.count '\n'
  chars : before ++ s.fragment.toList <+: text

/-- The prefixes of the levels that are open after a token. -/
def Token.levelsAfter (t : Token) (levels : List (List Char)) : List (List Char) :=
  match t.kind with
  | .indent => levels ++ [t.chars]
  | .deindent => levels.take (levels.length - t.count.toNat)
  | _ => levels

/-- The prefixes of the levels that are open after tokens. -/
def levelsAfter (levels : List (List Char)) (tokens : List Token) : List (List Char) :=
  tokens.foldl (fun levels t => t.levelsAfter levels) levels

/-- What stands behind `before` up to the tokens of a line is in the indentation of that line, which
is not blank; all of the indentation is that of the levels that are open on the line. -/
structure Indented (text before : List Char) (levels : List (List Char)) (space : List Char)
    (tokens : List Token) : Prop where
  notBlank : ∀ t ∈ tokens.head?, t.kind ≠ .blankLines
  line : ∃ (first others : List Line) (l : Line) (shift rest : List Token) (t : Token),
    linesOf text = first ++ l :: others ∧ before = first.flatMap Line.chars ∧
    l.isBlank = false ∧ space <+: l.indent ∧ tokens = shift ++ t :: rest ∧ t.kind.IsContent ∧
    t.span.offset = (before ++ l.indent).length ∧ l.indent = (levelsAfter levels shift).flatten

/-- Behind `before`, where `levels` are open, the text is made up of the tokens and of
indentation. -/
inductive Layout (text : List Char) : List Char → List (List Char) → List Token → Prop
  | finished {levels : List (List Char)} : Layout text text levels []
  | token {before : List Char} {levels : List (List Char)} {t : Token} {rest : List Token}
      (ht : t.span.At text before)
      (h : Layout text (before ++ t.chars) (t.levelsAfter levels) rest) :
      Layout text before levels (t :: rest)
  | space {before space : List Char} {levels : List (List Char)} {tokens : List Token}
      (hspace : Indented text before levels space tokens)
      (h : Layout text (before ++ space) levels tokens) : Layout text before levels tokens

/-! ### What a layout says -/

section layout

variable {text before : List Char} {levels : List (List Char)} {tokens : List Token}

theorem Span.At.standsIn {s : Span} (h : s.At text before) : s.StandsIn text := by
  obtain ⟨after, hafter⟩ := h.chars
  exact ⟨before, after, hafter.symm, h.offset, h.line⟩

theorem Span.At.stop_eq {t : Token} (h : t.span.At text before) :
    t.span.stop = (before ++ t.chars).length := by
  rw [Span.stop, h.offset, List.length_append, Token.chars, String.length_toList]
  omega

theorem Layout.standsIn (h : Layout text before levels tokens) :
    ∀ t ∈ tokens, t.span.StandsIn text := by
  induction h with
  | finished => exact fun t ht => (List.not_mem_nil ht).elim
  | token ht _ ih =>
      intro u hu
      rcases List.mem_cons.mp hu with rfl | hu
      · exact ht.standsIn
      · exact ih u hu
  | space _ _ ih => exact ih

theorem Layout.le_offset (h : Layout text before levels tokens) :
    ∀ t ∈ tokens, (before.length : Int) ≤ t.span.offset := by
  induction h with
  | finished => exact fun t ht => (List.not_mem_nil ht).elim
  | token ht _ ih =>
      intro u hu
      rcases List.mem_cons.mp hu with rfl | hu
      · exact Int.le_of_eq ht.offset.symm
      · have hle := ih u hu
        rw [List.length_append] at hle
        omega
  | space _ _ ih =>
      intro u hu
      have hle := ih u hu
      rw [List.length_append] at hle
      omega

/-- A token ends before the next one begins. -/
theorem Layout.pairwise (h : Layout text before levels tokens) :
    tokens.Pairwise fun t u => t.span.stop ≤ u.span.offset := by
  induction h with
  | finished => exact .nil
  | token ht hrest ih =>
      refine .cons ?_ ih
      intro u hu
      rw [ht.stop_eq]
      exact hrest.le_offset u hu
  | space _ _ ih => exact ih

/-- The token covers the character at `i`. -/
def Token.Covers (t : Token) (i : Nat) : Prop := t.span.offset ≤ i ∧ (i : Int) < t.span.stop

/-- The character at `i` is in the indentation of a line that is not blank, and this indentation is
that of the levels that are open on the line: those that the tokens in front of its content leave
open. -/
def InIndentation (text : List Char) (tokens : List Token) (i : Nat) : Prop :=
  ∃ (first others : List Line) (l : Line) (shift rest : List Token) (t : Token),
    linesOf text = first ++ l :: others ∧ l.isBlank = false ∧
    (first.flatMap Line.chars).length ≤ i ∧
    i < (first.flatMap Line.chars ++ l.indent).length ∧
    tokens = shift ++ t :: rest ∧ t.kind.IsContent ∧
    t.span.offset = (first.flatMap Line.chars ++ l.indent).length ∧
    l.indent = (levelsAfter [] shift).flatten

theorem levelsAfter_append (levels : List (List Char)) (first rest : List Token) :
    levelsAfter levels (first ++ rest) = levelsAfter (levelsAfter levels first) rest :=
  List.foldl_append

/-- **What no token covers is indentation.** -/
theorem Layout.inIndentation (h : Layout text before levels tokens) {earlier : List Token}
    (hlevels : levelsAfter [] earlier = levels) {i : Nat} (hfirst : before.length ≤ i)
    (hlast : i < text.length) (hnone : ∀ t ∈ tokens, ¬ t.Covers i) :
    InIndentation text (earlier ++ tokens) i := by
  induction h generalizing earlier with
  | finished => omega
  | @token before levels t rest ht _ ih =>
      have hbehind : (before ++ t.chars).length ≤ i := by
        by_contra hlt
        refine hnone t List.mem_cons_self ⟨?_, ?_⟩
        · rw [ht.offset]
          omega
        · rw [ht.stop_eq]
          omega
      have hafter : levelsAfter [] (earlier ++ [t]) = t.levelsAfter levels := by
        rw [levelsAfter_append, hlevels]
        rfl
      have hrest := ih hafter hbehind fun u hu => hnone u (List.mem_cons_of_mem t hu)
      rwa [List.append_assoc] at hrest
  | @space before space levels tokens hspace _ ih =>
      rcases Nat.lt_or_ge i (before ++ space).length with hin | hbehind
      · obtain ⟨first, others, l, shift, rest, t, hlines, rfl, hblank, hprefix, rfl, hkind, hoffset,
          hindent⟩ := hspace.line
        have hle := hprefix.length_le
        rw [List.length_append] at hin
        refine ⟨first, others, l, earlier ++ shift, rest, t, hlines, hblank, hfirst, ?_, ?_, hkind,
          hoffset, ?_⟩
        · rw [List.length_append]
          omega
        · rw [List.append_assoc]
        · rw [levelsAfter_append, hlevels]
          exact hindent
      · exact ih hlevels hbehind hnone

end layout

/-! ### Laying out a line -/

/-- The place behind `before` has this offset and is on this line. -/
structure PlaceOf (before : List Char) (line offset : Nat) : Prop where
  offset : offset = before.length
  line : line = 1 + before.count '\n'

section lines

variable {text before : List Char} {levels : List (List Char)} {line offset : Nat}
  {rest : List Token}

theorem PlaceOf.append {part : List Char} (h : PlaceOf before line offset) (hpart : '\n' ∉ part) :
    PlaceOf (before ++ part) line (offset + part.length) := by
  refine ⟨?_, ?_⟩
  · rw [h.offset, List.length_append]
  · rw [h.line, List.count_append, List.count_eq_zero.mpr hpart, Nat.add_zero]

theorem PlaceOf.advance {s : LexState} {l : Line} (h : PlaceOf before s.line s.offset)
    (hcontent : '\n' ∉ l.content) :
    PlaceOf (before ++ l.chars) (s.advance l levels).line (s.advance l levels).offset := by
  have hnone := List.count_eq_zero.mpr hcontent
  refine ⟨?_, ?_⟩
  · rw [LexState.advance, h.offset, List.length_append]
  · rw [LexState.advance, h.line, Line.chars, Line.endingChars, List.count_append,
      List.count_append, hnone]
    cases l.ending with
    | none => rfl
    | some e => cases e <;> rfl

theorem Layout.isPrefix {tokens : List Token} (h : Layout text before levels tokens) :
    before <+: text := by
  induction h with
  | finished => exact List.prefix_rfl
  | token ht => exact (List.prefix_append _ _).trans ht.chars
  | space _ _ ih => exact (List.prefix_append _ _).trans ih

theorem PlaceOf.span {cs : List Char} (h : PlaceOf before line offset)
    (hchars : before ++ cs <+: text) : (lineSpan line offset cs).At text before := by
  refine ⟨?_, ?_, ?_⟩
  · rw [lineSpan, h.offset]
  · rw [lineSpan, h.line]
    push_cast
    rfl
  · rw [lineSpan, String.toList_ofList]
    exact hchars

/-- One more token in front. -/
theorem Layout.cons {kind : TokenKind} {cs : List Char} {count : Int}
    (h : PlaceOf before line offset)
    (hrest : Layout text (before ++ cs)
      (Token.levelsAfter ⟨kind, lineSpan line offset cs, count⟩ levels) rest) :
    Layout text before levels (⟨kind, lineSpan line offset cs, count⟩ :: rest) := by
  have hchars : Token.chars ⟨kind, lineSpan line offset cs, count⟩ = cs := String.toList_ofList
  refine .token (h.span hrest.isPrefix) ?_
  rwa [hchars]

/-- The tokens of some runs lie side by side. -/
theorem Layout.runs (runs : List (CharClass × List Char)) :
    ∀ {before : List Char} {offset : Nat}, PlaceOf before line offset →
      '\n' ∉ runs.flatMap (·.2) → Layout text (before ++ runs.flatMap (·.2)) levels rest →
      Layout text before levels (runTokens line offset runs ++ rest) := by
  induction runs with
  | nil =>
      intro before offset _ _ hrest
      rw [List.flatMap_nil, List.append_nil] at hrest
      exact hrest
  | cons r runs ih =>
      obtain ⟨kind, run⟩ := r
      intro before offset h hnone hrest
      rw [List.flatMap_cons, List.mem_append, not_or] at hnone
      rw [List.flatMap_cons, ← List.append_assoc] at hrest
      rw [runTokens, List.cons_append]
      refine .cons h ?_
      have hlevels : Token.levelsAfter ⟨.ofClass kind, lineSpan line offset run, 1⟩ levels =
          levels := by cases kind <;> rfl
      rw [hlevels]
      exact ih (h.append hnone.1) hnone.2 hrest

/-- The tokens of a content and the end of its line. -/
theorem Layout.content {content ending : List Char} (h : PlaceOf before line offset)
    (hnone : '\n' ∉ content) (hrest : Layout text (before ++ content ++ ending) levels rest) :
    Layout text before levels (contentTokens seg line offset content ending ++ rest) := by
  have hruns : (classRuns (seg.split content)).flatMap (·.2) = content := by
    rw [flatMap_classRuns, seg.flatten_split]
  rw [contentTokens, List.append_assoc, List.singleton_append]
  refine .runs _ h ?_ ?_
  · rw [hruns]
    exact hnone
  · rw [hruns]
    exact .cons (h.append hnone) hrest

/-- Content begins with a token of its own kind, right where it begins. -/
theorem exists_contentTokens_cons (line offset : Nat) {content : List Char} (hne : content ≠ [])
    (hflush : Flush content) (ending : List Char) :
    ∃ t more, contentTokens seg line offset content ending = t :: more ∧ t.kind.IsContent ∧
      t.span.offset = offset := by
  obtain ⟨kind, run, more, hruns, -⟩ := exists_classRuns_of_flush hne hflush
  rw [contentTokens, hruns, runTokens]
  exact ⟨_, _, rfl, TokenKind.isContent_ofClass kind, rfl⟩

end lines

/-! ### Lines in front of others -/

/-- The space in front of a line is that of the levels that are open after it. -/
theorem indent_eq_flatten {l : Line} {levels : List (List Char)} {rest : List Char}
    (hlevels : SpaceLevels levels) (hcontent : l.content = levels.flatten ++ rest)
    (hflush : Flush rest) : l.indent = levels.flatten := by
  rw [Line.indent, hcontent, takeWhile_append_of_flush hlevels.flatten hflush]

section lines

variable {text : List Char} {first others : List Line} {s s' : LexState} {l : Line}
  {tokens : List Token}

/-- The tokens in front of the content of a line, and the levels that are open behind them. -/
inductive LevelShift (s : LexState) : List Token → List (List Char) → Prop
  | stays : LevelShift s [] s.levels
  | opens (space : List Char) :
      LevelShift s [⟨.indent, lineSpan s.line (s.offset + s.levels.flatten.length) space, 1⟩]
        (s.levels ++ [space])
  | closes {kept missed : List (List Char)} (hlevels : s.levels = kept ++ missed) :
      LevelShift s [⟨.deindent, lineSpan s.line (s.offset + kept.flatten.length) [], missed.length⟩]
        kept

/-- The content of a line that is not blank stands behind the space of the levels that the line
leaves open. -/
theorem LineStep.exists_shift {levels : List (List Char)} {here : List Token}
    (h : LineStep seg s l here levels) (hblank : ¬ l.content.all isInlineSpace) :
    ∃ shift rest, LevelShift s shift levels ∧ l.content = levels.flatten ++ rest ∧ Flush rest ∧
      here = shift ++
        contentTokens seg s.line (s.offset + levels.flatten.length) rest l.endingChars := by
  cases h with
  | blank hall => exact (hblank hall).elim
  | @level rest hcontent hflush => exact ⟨[], rest, .stays, hcontent, hflush, rfl⟩
  | @opens space body hcontent _ _ hflush =>
      refine ⟨_, body, .opens space, ?_, hflush, ?_⟩
      · rw [hcontent, List.flatten_append, List.flatten_singleton, List.append_assoc]
      · rw [List.flatten_append, List.flatten_singleton, List.length_append, ← Nat.add_assoc]
        rfl
  | @closes kept missed rest hlevels hcontent _ hflush =>
      exact ⟨_, rest, .closes hlevels, hcontent, hflush, rfl⟩

section shift

variable {before : List Char} {levels : List (List Char)} {shift : List Token}

theorem LevelShift.levelsAfter_eq (h : LevelShift s shift levels) :
    levelsAfter s.levels shift = levels := by
  cases h with
  | stays => rfl
  | opens space => simp [levelsAfter, Token.levelsAfter, Token.chars, lineSpan]
  | closes hlevels => simp [levelsAfter, Token.levelsAfter, hlevels]

theorem LevelShift.ne_blank (h : LevelShift s shift levels) :
    ∀ t ∈ shift, t.kind ≠ .blankLines := by
  intro t ht
  cases h with
  | stays => exact (List.not_mem_nil ht).elim
  | opens | closes => simp [List.mem_singleton.mp ht]

/-- Of the space in front of a line, the tokens there cover what the line itself opens. -/
theorem LevelShift.layout (h : LevelShift s shift levels) (hplace : PlaceOf before s.line s.offset)
    (hnone : '\n' ∉ levels.flatten)
    (hspace : ∀ space, space <+: levels.flatten →
      Indented text before s.levels space (shift ++ tokens))
    (hrest : Layout text (before ++ levels.flatten) levels tokens) :
    Layout text before s.levels (shift ++ tokens) := by
  have hafter := h.levelsAfter_eq
  cases h with
  | stays => exact .space (hspace _ List.prefix_rfl) hrest
  | opens space =>
      rw [List.flatten_append, List.flatten_singleton] at hnone hspace hrest
      rw [List.mem_append, not_or] at hnone
      rw [← List.append_assoc, ← hafter] at hrest
      exact .space (hspace _ (List.prefix_append _ _)) (.cons (hplace.append hnone.1) hrest)
  | closes =>
      rw [← List.append_nil (before ++ _)] at hrest
      refine .space (hspace _ List.prefix_rfl) (.cons (hplace.append hnone) ?_)
      exact hafter.symm ▸ hrest

end shift

/-- A line that is not blank, in front of tokens that are laid out behind it. -/
theorem Layout.cons_line {levels : List (List Char)} {here : List Token}
    (hlines : linesOf text = first ++ l :: others)
    (hplace : PlaceOf (first.flatMap Line.chars) s.line s.offset) (hlevels : SpaceLevels s.levels)
    (hblank : l.isBlank = false) (hstep : LineStep seg s l here levels)
    (h : Layout text (first.flatMap Line.chars ++ l.chars) levels tokens) :
    Layout text (first.flatMap Line.chars) s.levels (here ++ tokens) := by
  have hnone : '\n' ∉ l.content := lineFeed_notMem_content l (by rw [hlines]; simp)
  have hafter := hstep.spaceLevels hlevels
  have hsome : ¬ l.content.all isInlineSpace := by simpa [Line.isBlank] using hblank
  obtain ⟨shift, rest, hshift, hcontent, hflush, rfl⟩ := hstep.exists_shift hsome
  have hrest := ne_nil_of_not_blank hsome hafter hcontent
  have hindent := indent_eq_flatten hafter hcontent hflush
  rw [hcontent, List.mem_append, not_or] at hnone
  rw [Line.chars, hcontent, ← List.append_assoc, ← List.append_assoc] at h
  rw [List.append_assoc]
  refine hshift.layout hplace hnone.1 (fun space hspace => ?_)
    (.content (hplace.append hnone.1) hnone.2 h)
  -- The content begins with a token of its own kind, by which the line is found.
  obtain ⟨t, more, hcons, hkind, hstart⟩ := exists_contentTokens_cons s.line
    (s.offset + levels.flatten.length) hrest hflush l.endingChars
  rw [hcons, List.cons_append]
  refine ⟨fun u hu => ?_, first, others, l, shift, more ++ tokens, t, hlines, rfl, hblank, ?_, rfl,
    hkind, ?_, ?_⟩
  · have hfront : u ∈ shift ∨ u = t := by
      cases shift with
      | nil => exact .inr (Option.some.inj hu).symm
      | cons v shift => exact .inl (Option.some.inj hu ▸ List.mem_cons_self)
    rcases hfront with hu | rfl
    · exact hshift.ne_blank u hu
    · exact hkind.ne_others.2.2.2
  · rwa [hindent]
  · rw [hstart, hindent, List.length_append, hplace.offset]
  · rw [hindent, hshift.levelsAfter_eq]

/-! #### Blank lines -/

/-- A token of blank lines stands right where it is expected. -/
theorem Layout.of_blank {before : List Char} {levels : List (List Char)} {t : Token}
    (h : Layout text before levels (t :: tokens)) (ht : t.kind = .blankLines) :
    Layout text (before ++ t.chars) levels tokens := by
  generalize htokens : t :: tokens = all at h
  cases h with
  | finished => cases htokens
  | token _ h =>
      obtain ⟨rfl, rfl⟩ := List.cons.inj htokens
      rwa [Token.levelsAfter, ht] at h
  | space hspace =>
      rw [← htokens] at hspace
      exact (hspace.notBlank t rfl ht).elim

/-- A blank line in front: its token reaches over the blank lines that follow it. -/
theorem Layout.cons_blank {before : List Char} {levels : List (List Char)} {line offset : Nat}
    (hplace : PlaceOf before line offset)
    (h : Layout text (before ++ l.chars) levels (mergeBlanks tokens)) :
    Layout text before levels
      (mergeBlanks (⟨.blankLines, lineSpan line offset l.chars, 1⟩ :: tokens)) := by
  rw [mergeBlanks]
  cases hmerged : mergeBlanks tokens with
  | nil =>
      rw [hmerged] at h
      exact .cons hplace h
  | cons u us =>
      rw [hmerged] at h
      dsimp only
      split
      · next hboth =>
        have hus := h.of_blank hboth.2
        have hchars : (joinBlanks ⟨.blankLines, lineSpan line offset l.chars, 1⟩ u).chars =
            l.chars ++ u.chars := by
          simp [joinBlanks, Token.chars, lineSpan]
        rw [List.append_assoc, ← hchars] at hus
        exact .token ⟨(hplace.span h.isPrefix).offset, (hplace.span h.isPrefix).line,
          hus.isPrefix⟩ hus
      · exact .cons hplace h

/-! ### All lines -/

/-- A line, blank or not, in front of tokens that are laid out behind it. -/
theorem Layout.cons_lexLine {here : List Token} (hlines : linesOf text = first ++ l :: others)
    (hplace : PlaceOf (first.flatMap Line.chars) s.line s.offset) (hlevels : SpaceLevels s.levels)
    (hline : lexLine seg s l = .ok (here, s'))
    (h : Layout text (first.flatMap Line.chars ++ l.chars) s'.levels (mergeBlanks tokens)) :
    Layout text (first.flatMap Line.chars) s.levels (mergeBlanks (here ++ tokens)) := by
  by_cases hblank : l.content.all isInlineSpace
  · rw [lexLine, if_pos hblank] at hline
    obtain ⟨rfl, rfl⟩ := Prod.mk.inj (Except.ok.inj hline)
    exact .cons_blank hplace h
  · have hstep := (lineStep_of_lexLine hline).1
    obtain ⟨head, newline, rfl, hhead, hkind, -⟩ := hstep.exists_lineTokens hblank hlevels
    rw [mergeBlanks_append]
    · exact .cons_line hlines hplace hlevels (by simpa [Line.isBlank] using hblank) hstep h
    · intro t ht
      rcases List.mem_append.mp ht with ht | ht
      · exact hhead.ne_blank t ht
      · rw [List.mem_singleton.mp ht]
        simp [hkind]

end lines

/-- The place behind a line that is read is known too. -/
theorem PlaceOf.next {text : List Char} {first others : List Line} {l : Line} {s s' : LexState}
    {here : List Token} (h : PlaceOf (first.flatMap Line.chars) s.line s.offset)
    (hlines : linesOf text = first ++ l :: others) (hline : lexLine seg s l = .ok (here, s')) :
    PlaceOf ((first ++ [l]).flatMap Line.chars) s'.line s'.offset := by
  have hnone : '\n' ∉ l.content := lineFeed_notMem_content l (by rw [hlines]; simp)
  rw [(lineStep_of_lexLine hline).2, List.flatMap_append, List.flatMap_singleton]
  exact h.advance hnone

/-- Behind the last line, what closes the open levels stands at the end of the text. -/
theorem layout_of_lexLines_nil {text : List Char} {s : LexState} {tokens : List Token}
    (hplace : PlaceOf text s.line s.offset) (h : lexLines seg s [] = .ok tokens) :
    Layout text text s.levels (mergeBlanks tokens) := by
  obtain rfl := Except.ok.inj h
  split
  · exact .finished
  · refine .cons hplace ?_
    rw [List.append_nil]
    exact .finished

/-- The tokens of the lines behind some others are laid out behind the characters of those. -/
theorem layout_of_lexLines {text : List Char} : ∀ {lines first : List Line} {s : LexState}
    {tokens : List Token}, linesOf text = first ++ lines →
      PlaceOf (first.flatMap Line.chars) s.line s.offset → SpaceLevels s.levels →
      lexLines seg s lines = .ok tokens →
      Layout text (first.flatMap Line.chars) s.levels (mergeBlanks tokens)
  | [], first, s, tokens, hlines, hplace, _, h => by
      have htext : first.flatMap Line.chars = text := by
        rw [← flatMap_chars_linesOf text, hlines, List.append_nil]
      rw [htext] at hplace ⊢
      exact layout_of_lexLines_nil hplace h
  | l :: lines, first, s, tokens, hlines, hplace, hlevels, h => by
      obtain ⟨here, s', after, hline, hrest, rfl⟩ := exists_of_lexLines_cons h
      have hstep := (lineStep_of_lexLine hline).1
      have hbehind := layout_of_lexLines (by rw [hlines, List.append_assoc]; rfl)
        (hplace.next hlines hline) (hstep.spaceLevels hlevels) hrest
      rw [List.flatMap_append, List.flatMap_singleton] at hbehind
      exact .cons_lexLine hlines hplace hlevels hline hbehind

/-- A line that is refused is refused for space that stands on it. -/
theorem standsIn_of_lexLine {text : List Char} {first others : List Line} {l : Line}
    {s : LexState} {e : LexStop} (hlines : linesOf text = first ++ l :: others)
    (hplace : PlaceOf (first.flatMap Line.chars) s.line s.offset)
    (h : lexLine seg s l = .error e) : e.span.StandsIn text := by
  have hnone : '\n' ∉ l.content := lineFeed_notMem_content l (by rw [hlines]; simp)
  have hcontent := (flatten_kept_append_rest s.levels l.content).symm
  have htext : first.flatMap Line.chars ++ l.content <+: text := by
    rw [← flatMap_chars_linesOf text, hlines, List.flatMap_append, List.flatMap_cons, Line.chars,
      List.append_assoc l.content, ← List.append_assoc]
    exact List.prefix_append _ _
  unfold lexLine at h
  dsimp only at h
  generalize matchLevels s.levels l.content = m at h hcontent
  have hstart : s.offset + (l.content.length - m.rest.length) =
      s.offset + m.kept.flatten.length := by
    rw [hcontent, List.length_append]
    omega
  rw [hstart] at h
  split at h
  · cases h
  split at h
  · split at h <;> cases h
  split at h
  · cases h
  cases h
  rw [hcontent, List.mem_append, not_or] at hnone
  rw [hcontent, ← List.append_assoc] at htext
  refine ((hplace.append hnone.1).span ?_).standsIn
  exact ((List.prefix_append_right_inj _).mpr (List.takeWhile_prefix _)).trans htext

/-- Lines that are refused are so for space that stands in the text. -/
theorem standsIn_of_lexLines {text : List Char} : ∀ {lines first : List Line} {s : LexState}
    {e : LexStop}, linesOf text = first ++ lines →
      PlaceOf (first.flatMap Line.chars) s.line s.offset → lexLines seg s lines = .error e →
      e.span.StandsIn text
  | l :: lines, first, s, e, hlines, hplace, h => by
      rcases lexLine_or_of_lexLines_cons h with hline | ⟨here, s', hline, hrest⟩
      · exact standsIn_of_lexLine hlines hplace hline
      · refine standsIn_of_lexLines ?_ (hplace.next hlines hline) hrest
        rw [hlines, List.append_assoc]
        rfl

/-- **Every token stands where its span says**, in the order of the text and without overlap, and
what no token covers is indentation of the levels that are open there; so does the span of an error,
if the text is refused. -/
theorem lex_located (text : String) :
    match lex text seg with
    | .ok tokens =>
      (∀ t ∈ tokens, t.span.StandsIn text.toList) ∧
      tokens.Pairwise (fun t u => t.span.stop ≤ u.span.offset) ∧
      ∀ i < text.length, (∀ t ∈ tokens, ¬ t.Covers i) → InIndentation text.toList tokens i
    | .error e => e.span.StandsIn text.toList ∧ e.source = text := by
  have hfirst : linesOf text.toList = [] ++ linesOf text.toList := rfl
  have hstart : PlaceOf (([] : List Line).flatMap Line.chars) (LexState.line {})
      (LexState.offset {}) := ⟨rfl, rfl⟩
  unfold lex lexChars
  cases hlines : lexLines seg {} (linesOf text.toList) with
  | error e => exact ⟨standsIn_of_lexLines hfirst hstart hlines, rfl⟩
  | ok lines =>
      have hnoLevels : SpaceLevels ([] : List (List Char)) := fun p hp =>
        (List.not_mem_nil hp).elim
      have hlayout := layout_of_lexLines hfirst hstart hnoLevels hlines
      refine ⟨hlayout.standsIn, hlayout.pairwise, fun i hi hnone => ?_⟩
      rw [← String.length_toList] at hi
      have hstack : levelsAfter [] [] = LexState.levels {} := rfl
      exact hlayout.inIndentation hstack (Nat.zero_le i) hi hnone

/-- Of two lines at one level, only the first has a token for its indentation. -/
example : (lex "\ta\n\tb").map (List.map fun t => (t.kind, t.span.offset, t.span.stop)) =
    .ok [(.indent, 0, 1), (.word, 1, 2), (.newline, 2, 3), (.word, 4, 5), (.newline, 5, 5),
      (.deindent, 5, 5)] := by decide +kernel

end Markup
