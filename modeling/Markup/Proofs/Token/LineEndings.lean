import Markup.Proofs.Text.LineEndings
import Markup.Proofs.Token.Moved

/-! # Tokens of a text with other line ends

A text whose line feeds all become newlines of two characters has the same tokens, in the same
lines, and each of them covers what it covered with the newlines in it rewritten; a text that is
refused is refused in the same line (`lex_crlf`).  What is on a line does not change, and the places
on a line are moved by one character for each line in front of it (`SameLines.crlf`). -/

namespace Markup

open Text

variable {seg : Segmenter}

/-- The text with newlines of two characters. -/
def crlfText (text : String) : String := String.ofList (crlf text.toList)

@[simp] theorem toList_crlfText (text : String) : (crlfText text).toList = crlf text.toList :=
  String.toList_ofList

theorem crlfText_ofList (cs : List Char) :
    crlfText (String.ofList cs) = String.ofList (crlf cs) := by
  rw [crlfText, String.toList_ofList]

theorem crlfText_of_notMem {text : String} (h : '\n' ∉ text.toList) : crlfText text = text := by
  rw [crlfText, crlf_of_notMem h, String.ofList_toList]

/-- The span in the text with newlines of two characters. -/
def Span.crlf (s : Span) : Span := ⟨s.offset + (s.line - 1), s.line, crlfText s.fragment⟩

/-- The error in the text with newlines of two characters. -/
def LexError.crlf (e : LexError) : LexError := ⟨e.fault, e.span.crlf, crlfText e.source⟩

theorem crlf_lineSpan (line offset : Nat) (cs : List Char) :
    (lineSpan line offset cs).crlf = ⟨offset + (line - 1), line, String.ofList (crlf cs)⟩ := by
  rw [lineSpan, Span.crlf, crlfText_ofList]

theorem mapsParts_crlf : Span.MapsParts Span.crlf := by
  intro a b
  simp [Span.crlf, crlfText, String.toList_append, String.ofList_append]

/-! ### Lines -/

section lines

variable {s s' : LexState} {l : Line}

/-- The state before the same line of the rewritten text. -/
structure LexState.Crlf (s s' : LexState) : Prop where
  levels : s'.levels = s.levels
  line : s'.line = s.line
  offset : s'.offset = s.offset + (s.line - 1)
  pos : 1 ≤ s.line

theorem LexState.Crlf.lineSpan (h : s.Crlf s') (n : Nat) (cs : List Char) :
    (Markup.lineSpan s.line (s.offset + n) cs).crlf =
      Markup.lineSpan s'.line (s'.offset + n) (Text.crlf cs) := by
  have hpos := h.pos
  rw [crlf_lineSpan, Markup.lineSpan, h.line, h.offset, Span.mk.injEq]
  exact ⟨by omega, rfl, rfl⟩

theorem LexState.Crlf.sameLine (h : s.Crlf s') (hplain : l.EndsPlain) (hnone : '\n' ∉ l.content) :
    SameLine Span.crlf s s' l l.crlf := by
  refine ⟨h.levels, rfl, fun n part hpart => ?_, fun n => ?_, ?_⟩
  · rw [h.lineSpan, crlf_of_notMem fun hmem => hnone (hpart hmem)]
  · rw [h.lineSpan, hplain.crlf_endingChars]
  · rw [← hplain.crlf_chars hnone]
    exact h.lineSpan 0 l.chars

theorem LexState.Crlf.advance (h : s.Crlf s') (hplain : l.EndsPlain) (levels : List (List Char)) :
    (s.advance l levels).Crlf (s'.advance l.crlf levels) := by
  have hpos := h.pos
  obtain ⟨content, ending⟩ := l
  cases ending with
  | none =>
      refine ⟨rfl, h.line, ?_, hpos⟩
      simp only [LexState.advance, h.offset, Line.crlf, Line.chars, Line.endingChars,
        Option.map_none, Option.isNone_none, if_true]
      omega
  | some e =>
      cases e with
      | lf =>
          refine ⟨rfl, congrArg (· + 1) h.line, ?_, Nat.le_add_left 1 _⟩
          simp only [LexState.advance, h.offset, Line.crlf, Line.chars, Line.endingChars,
            Option.map_some, Option.isNone_some, Option.elim_some, Newline.chars,
            List.length_append, List.length_cons, List.length_nil, Bool.false_eq_true, if_false]
          omega
      | crlf => exact (hplain rfl).elim

theorem SameLines.crlf : ∀ {lines : List Line} {s s' : LexState}, s.Crlf s' →
    (∀ l ∈ lines, '\n' ∉ l.content ∧ l.EndsPlain) →
      SameLines Span.crlf s s' lines (lines.map Line.crlf)
  | [], s, s', h, _ => .nil h.levels (h.lineSpan 0 [])
  | l :: lines, s, s', h, hlines => by
      obtain ⟨hnone, hplain⟩ := hlines l List.mem_cons_self
      exact .cons (h.sameLine hplain hnone) fun levels =>
        .crlf (h.advance hplain levels) fun m hm => hlines m (List.mem_cons_of_mem l hm)

end lines

/-! ### Texts -/

/-- **Line ends do not matter to tokens.** -/
theorem lex_crlf {text : String} (h : '\r' ∉ text.toList) :
    lex (crlfText text) seg =
      ((lex text seg).map (List.map (Token.mapSpan Span.crlf))).mapError LexError.crlf := by
  obtain ⟨hlines, hplain⟩ := linesOf_crlf h
  have hstart : LexState.Crlf {} {} := ⟨rfl, rfl, rfl, Nat.le_refl 1⟩
  have hsame := SameLines.crlf hstart fun l hl => ⟨lineFeed_notMem_content l hl, hplain l hl⟩
  unfold lex lexChars
  rw [toList_crlfText, hlines, lexLines_mapSpan hsame]
  cases lexLines seg {} (linesOf text.toList) with
  | error e => rfl
  | ok tokens => exact congrArg Except.ok (mergeBlanks_mapSpan mapsParts_crlf tokens)

end Markup
