import Markup.Proofs.Text
import Markup.Proofs.Token.Moved

/-! # Blank lines and block structure

A blank line that is put between two lines of a text, or in front of them or behind, moves all that
follows and does nothing else: the text has tokens just if it had some before, and besides those of
blank lines they are the same, as to what they are, what they cover and what they count
(`lex_blankLine`).  A text that is refused is refused as before, for the same space.

Reading leaves the levels at a blank line as they are, so the lines behind it are read as they were,
in another place (`SameLines.move`); blank lines that are joined do not show in the structure
(`structureOf_mergeBlanks`). -/

namespace Markup

open Text

variable {seg : Segmenter}

/-! ### Structure -/

/-- A token apart from its place: what it is, what it covers and what it counts. -/
def Token.shape (t : Token) : TokenKind × String × Int := (t.kind, t.span.fragment, t.count)

/-- Tokens apart from their places, without those of blank lines. -/
def structureOf (tokens : List Token) : List (TokenKind × String × Int) :=
  (tokens.filter (·.kind ≠ .blankLines)).map Token.shape

/-- A refusal apart from its place. -/
def LexStop.shape (e : LexStop) : LexFault × String := (e.fault, e.span.fragment)

/-- An error apart from its place. -/
def LexError.shape (e : LexError) : LexFault × String := (e.fault, e.span.fragment)

/-- The structure that was read, or why nothing was. -/
def readStructure (read : Except LexStop (List Token)) :
    Except (LexFault × String) (List (TokenKind × String × Int)) :=
  (read.map structureOf).mapError LexStop.shape

theorem structureOf_append (first rest : List Token) :
    structureOf (first ++ rest) = structureOf first ++ structureOf rest := by
  rw [structureOf, List.filter_append, List.map_append]
  rfl

/-- Joined or not, blank lines are no part of the structure. -/
theorem structureOf_mergeBlanks (tokens : List Token) :
    structureOf (mergeBlanks tokens) = structureOf tokens := by
  induction tokens with
  | nil => rfl
  | cons t tokens ih =>
      have hcons : structureOf (t :: tokens) = structureOf (t :: mergeBlanks tokens) := by
        rw [← List.singleton_append, structureOf_append, ← ih, ← structureOf_append]
        rfl
      rw [hcons, mergeBlanks]
      cases mergeBlanks tokens with
      | nil => rfl
      | cons u us =>
          dsimp only
          split
          · next hblank => simp [structureOf, joinBlanks, hblank.1, hblank.2]
          · rfl

/-- What is read behind some tokens shows in the structure behind theirs. -/
theorem readStructure_append {read read' : Except LexStop (List Token)}
    (h : readStructure read = readStructure read') (here : List Token) :
    readStructure (read.map (here ++ ·)) = readStructure (read'.map (here ++ ·)) := by
  cases read with
  | error e =>
      cases read' with
      | error e' => exact h
      | ok tokens' => cases h
  | ok tokens =>
      cases read' with
      | error e' => cases h
      | ok tokens' =>
          have hsame : structureOf tokens = structureOf tokens' := Except.ok.inj h
          refine congrArg Except.ok ?_
          rw [structureOf_append, structureOf_append, hsame]

/-! ### Lines that are moved -/

/-- The span moved by some characters and lines. -/
def Span.move (chars lines : Nat) (s : Span) : Span :=
  ⟨s.offset + chars, s.line + lines, s.fragment⟩

theorem move_lineSpan (chars lines line offset : Nat) (cs : List Char) :
    Span.move chars lines (lineSpan line offset cs) =
      lineSpan (line + lines) (offset + chars) cs := by
  simp [Span.move, lineSpan]

theorem SameLines.move {chars number : Nat} : ∀ {lines : List Line} {s s' : LexState},
    s'.levels = s.levels → s'.offset = s.offset + chars → s'.line = s.line + number →
      SameLines (Span.move chars number) s s' lines lines
  | [], s, s', hlevels, hoffset, hline => by
      refine .nil hlevels ?_
      rw [move_lineSpan, hoffset, hline]
  | l :: lines, s, s', hlevels, hoffset, hline => by
      refine .cons ⟨hlevels, rfl, fun n part _ => ?_, fun n => ?_, ?_⟩ fun levels => ?_
      · rw [move_lineSpan, hoffset, hline, Nat.add_right_comm]
      · rw [move_lineSpan, hoffset, hline, Nat.add_right_comm]
      · rw [move_lineSpan, hoffset, hline]
      · refine SameLines.move rfl ?_ ?_
        · rw [LexState.advance, LexState.advance, hoffset, Nat.add_right_comm]
        · rw [LexState.advance, LexState.advance, hline]
          dsimp only
          split
          · rfl
          · rw [Nat.add_right_comm]

/-- Moving tokens changes nothing of the structure. -/
theorem readStructure_move (chars lines : Nat) (read : Except LexStop (List Token)) :
    readStructure (tokensElsewhere (Span.move chars lines) read) = readStructure read := by
  cases read with
  | error e => rfl
  | ok tokens =>
      refine congrArg Except.ok ?_
      rw [structureOf, List.filter_map, List.map_map]
      rfl

/-! ### One more blank line -/

/-- A line that holds nothing but inline space, with its end. -/
def BlankLine (cs : List Char) : Prop :=
  ∃ (space : List Char) (e : Newline), cs = space ++ e.chars ∧ space.all isInlineSpace

theorem BlankLine.exists_line {cs : List Char} (h : BlankLine cs) :
    ∃ l : Line, l.content.all isInlineSpace ∧ l.ending ≠ none ∧
      ∀ rest, linesOf (cs ++ rest) = l :: linesOf rest := by
  obtain ⟨space, e, rfl, hspace⟩ := h
  have hinline := List.all_eq_true.mp hspace
  have hnone : '\n' ∉ space := fun hmem => absurd (hinline _ hmem) (by decide)
  cases e with
  | lf =>
      refine ⟨.ofBody space, List.all_eq_true.mpr fun c hc => ?_, Line.ofBody_ending _,
        fun rest => ?_⟩
      · exact hinline c (Line.mem_body_of_mem_content hc)
      · rw [Newline.chars, List.append_assoc, List.singleton_append, linesOf_cons hnone]
  | crlf =>
      refine ⟨.ofBody (space ++ ['\r']), ?_, Line.ofBody_ending _, fun rest => ?_⟩
      · simpa [Line.ofBody] using hspace
      · rw [Newline.chars, ← linesOf_cons (by simpa using hnone)]
        simp

/-- Behind any lines, one more blank line changes nothing of the structure. -/
theorem readStructure_blankLine {l : Line} (hblank : l.content.all isInlineSpace)
    (hending : l.ending ≠ none) (lines : List Line) : ∀ (first : List Line) (s : LexState),
      readStructure (lexLines seg s (first ++ l :: lines)) =
        readStructure (lexLines seg s (first ++ lines))
  | [], s => by
      have hline : (s.advance l s.levels).line = s.line + 1 := by
        simp [LexState.advance, hending]
      have hmoved : SameLines (Span.move l.chars.length 1) s (s.advance l s.levels) lines lines :=
        .move rfl rfl hline
      rw [List.nil_append, List.nil_append, lexLines_cons, lexLine, if_pos hblank]
      dsimp only
      rw [lexLines_mapSpan hmoved, ← readStructure_move l.chars.length 1 (lexLines seg s lines)]
      cases lexLines seg s lines <;> rfl
  | a :: first, s => by
      rw [List.cons_append, List.cons_append, lexLines_cons, lexLines_cons]
      cases lexLine seg s a with
      | error e => rfl
      | ok p =>
          exact readStructure_append (readStructure_blankLine hblank hending lines first p.2) _

/-- The structure of a text, or the fault that it has. -/
theorem lex_structure (text : String) :
    ((lex text seg).map structureOf).mapError LexError.shape =
      readStructure (lexLines seg {} (linesOf text.toList)) := by
  unfold lex lexChars
  cases lexLines seg {} (linesOf text.toList) with
  | error e => rfl
  | ok tokens => exact congrArg Except.ok (structureOf_mergeBlanks tokens)

/-- **Blank lines never affect block structure.**  A blank line at the start of a text, or behind a
line feed, changes neither whether the text has tokens nor what they are, besides those of blank
lines; and a text that is refused is refused for the same space. -/
theorem lex_blankLine {first blank rest : String} (hfirst : ∀ c ∈ first.toList.getLast?, c = '\n')
    (hblank : BlankLine blank.toList) :
    ((lex (first ++ blank ++ rest) seg).map structureOf).mapError LexError.shape =
      ((lex (first ++ rest) seg).map structureOf).mapError LexError.shape := by
  obtain ⟨l, hspace, hending, hlines⟩ := hblank.exists_line
  rw [lex_structure, lex_structure, String.toList_append, String.toList_append,
    String.toList_append, List.append_assoc, linesOf_append hfirst, linesOf_append hfirst, hlines]
  exact readStructure_blankLine hspace hending _ _ _

/-- Less space than is open there, behind a blank line and in front of a line that closes levels:
the two blank lines make one token that counts both, and the other tokens are those of the text
without the second one. -/
theorem lex_blankLine_shorter :
    BlankLine "\t\r\n".toList ∧
      (lex ("a\n\tb\n\t  c\n\n" ++ "\t\r\n" ++ "\td\ne")).map (List.map Token.shape) =
        .ok [(.word, "a", 1), (.newline, "\n", 1), (.indent, "\t", 1), (.word, "b", 1),
          (.newline, "\n", 1), (.indent, "  ", 1), (.word, "c", 1), (.newline, "\n", 1),
          (.blankLines, "\n\t\r\n", 2), (.deindent, "", 1), (.word, "d", 1), (.newline, "\n", 1),
          (.deindent, "", 1), (.word, "e", 1), (.newline, "", 1)] ∧
      ((lex ("a\n\tb\n\t  c\n\n" ++ "\t\r\n" ++ "\td\ne")).map structureOf).mapError
          LexError.shape =
        ((lex ("a\n\tb\n\t  c\n\n" ++ "\td\ne")).map structureOf).mapError LexError.shape := by
  have hblank : BlankLine "\t\r\n".toList := ⟨['\t'], .crlf, by decide, by decide⟩
  exact ⟨hblank, by decide +kernel, lex_blankLine (by simp) hblank⟩

end Markup
