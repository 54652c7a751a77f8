import Markup.Proofs.Token.LineStep

/-! # Tokens keep the text

Writing the tokens of a text back gives the text.  The indentation of enclosing levels is taken off
every line and stands in no token, so reading and writing each keep a stack of open levels; the
proof is a simulation between the two.  At the start of every line the writer's stack is the
reader's (`restoreFrom_lexLine`): a new level is pushed on both, closed levels are cut off both by
their number, and blank lines touch neither.  Joining adjacent blank lines afterwards changes
nothing that is writerLevels (`restoreFrom_mergeBlanks`), and the levels that are closed at the end
of the text write nothing.  The main statement is `restore_lex`. -/

namespace Markup

open Text

variable {seg : Segmenter}

/-! ### Writing one token -/

namespace Token

/-- A token that stands on a line: it is written after the open levels if it is the first one. -/
def OnLine (t : Token) : Prop := t.kind ≠ .indent ∧ t.kind ≠ .deindent ∧ t.kind ≠ .blankLines

theorem restoreFrom_onLine {t : Token} (h : t.OnLine) (levels : List String) (start : Bool)
    (rest : List Token) :
    restoreFrom levels start (t :: rest) =
      (if start then String.join levels else "") ++
        (t.span.fragment ++ restoreFrom levels (t.kind == .newline) rest) := by
  obtain ⟨kind, span, count⟩ := t
  obtain ⟨h1, h2, h3⟩ := h
  cases kind <;> first | rfl | contradiction

/-- The levels that stay open when the others are closed by their number. -/
theorem closeLevels_append (kept missed : List String) :
    closeLevels (kept ++ missed) missed.length = kept := by
  have e : ((kept ++ missed).length : Int) - (missed.length : Int) = (kept.length : Nat) := by
    rw [List.length_append]; omega
  unfold closeLevels
  rw [e, resolveIndex_natCast (by rw [List.length_append]; omega), List.take_left]

end Token

open Token

/-! ### Joining blank lines -/

theorem restoreFrom_blankLines {t : Token} (h : t.kind = .blankLines) (levels : List String)
    (start : Bool) (rest : List Token) :
    restoreFrom levels start (t :: rest) = t.span.fragment ++ restoreFrom levels start rest := by
  rw [restoreFrom, h]

/-- What a token does to the rest of a list depends on the text of the rest alone. -/
theorem restoreFrom_cons_congr (t : Token) {us vs : List Token}
    (h : ∀ levels start, restoreFrom levels start us = restoreFrom levels start vs)
    (levels : List String) (start : Bool) :
    restoreFrom levels start (t :: us) = restoreFrom levels start (t :: vs) := by
  rw [restoreFrom, restoreFrom]
  cases t.kind <;> simp only [h]

/-- Joining adjacent blank lines keeps the text, whatever levels are open. -/
theorem restoreFrom_mergeBlanks (tokens : List Token) (levels : List String) (start : Bool) :
    restoreFrom levels start (mergeBlanks tokens) = restoreFrom levels start tokens := by
  induction tokens generalizing levels start with
  | nil => rfl
  | cons t rest ih =>
      rw [← restoreFrom_cons_congr t ih levels start, mergeBlanks]
      cases mergeBlanks rest with
      | nil => rfl
      | cons u us =>
          dsimp only
          split
          · next hk =>
            rw [restoreFrom_blankLines hk.1, restoreFrom_blankLines hk.2,
              restoreFrom_blankLines rfl]
            simp only [joinBlanks, String.append_assoc]
          · rfl

/-! ### The content of a line -/

/-- Putting neighbours of one class together loses no character. -/
theorem flatMap_classRuns (ks : List (List Char)) :
    (classRuns ks).flatMap (·.2) = ks.flatten := by
  induction ks with
  | nil => rfl
  | cons k ks ih =>
      rw [List.flatten_cons, ← ih, classRuns]
      cases classRuns ks with
      | nil => simp
      | cons r rest =>
          dsimp only
          split <;> simp [List.append_assoc]

/-- The tokens of runs up to the end of their line: the open levels are written once, in front of
whatever comes first. -/
theorem restoreFrom_runTokens (levels : List String) (line : Nat) (ending : Span)
    (rest : List Token) (runs : List (CharClass × List Char)) (offset : Nat) (start : Bool) :
    restoreFrom levels start (runTokens line offset runs ++ ⟨.newline, ending, 1⟩ :: rest) =
      (if start then String.join levels else "") ++
        (String.ofList (runs.flatMap (·.2)) ++
        (ending.fragment ++ restoreFrom levels true rest)) := by
  induction runs generalizing offset start with
  | nil =>
      rw [runTokens, List.nil_append, restoreFrom_onLine (by simp [OnLine])]
      simp
  | cons r runs ih =>
      obtain ⟨kind, run⟩ := r
      have hline : OnLine ⟨.ofClass kind, lineSpan line offset run, 1⟩ := by
        cases kind <;> simp [OnLine, TokenKind.ofClass]
      have hnewline : (TokenKind.ofClass kind == .newline) = false := by cases kind <;> rfl
      rw [runTokens, List.cons_append, restoreFrom_onLine hline, hnewline, ih]
      simp [lineSpan, String.ofList_append, String.append_assoc]

theorem restoreFrom_contentTokens (levels : List String) (line offset : Nat)
    (content ending : List Char) (rest : List Token) :
    restoreFrom levels true (contentTokens seg line offset content ending ++ rest) =
      String.join levels ++ (String.ofList content ++
        (String.ofList ending ++ restoreFrom levels true rest)) := by
  rw [contentTokens, List.append_assoc, List.singleton_append, restoreFrom_runTokens,
    flatMap_classRuns, seg.flatten_split]
  rfl

/-! ### The simulation -/

/-- The stack of the writer that stands for a stack of the reader. -/
def writerLevels (levels : List (List Char)) : List String := levels.map String.ofList

theorem join_writerLevels (levels : List (List Char)) :
    String.join (writerLevels levels) = String.ofList levels.flatten := by
  induction levels with
  | nil => rfl
  | cons p ps ih =>
      rw [writerLevels, List.map_cons, String.join_cons, List.flatten_cons,
        String.ofList_append, ← ih]
      rfl

theorem writerLevels_concat (levels : List (List Char)) (space : List Char) :
    writerLevels levels ++ [String.ofList space] = writerLevels (levels ++ [space]) := by
  simp [writerLevels]

/-- Closing by number is the same on both stacks. -/
theorem closeLevels_writerLevels (kept missed : List (List Char)) :
    closeLevels (writerLevels (kept ++ missed)) missed.length = writerLevels kept := by
  have := closeLevels_append (writerLevels kept) (writerLevels missed)
  simpa [writerLevels] using this

/-- One line: from equal stacks, what is written for its tokens is the line, and the stacks are
equal again after it. -/
theorem restoreFrom_lexLine {s s' : LexState} {l : Line} {tokens : List Token}
    (h : lexLine seg s l = .ok (tokens, s')) (rest : List Token) :
    restoreFrom (writerLevels s.levels) true (tokens ++ rest) =
      String.ofList l.chars ++ restoreFrom (writerLevels s'.levels) true rest := by
  have hstep := (lineStep_of_lexLine h).1
  generalize s'.levels = levels at hstep ⊢
  cases hstep with
  | blank => rfl
  | level hcontent =>
      rw [restoreFrom_contentTokens, join_writerLevels, Line.chars, hcontent]
      simp only [String.ofList_append, String.append_assoc]
  | @opens space body hcontent =>
      rw [List.cons_append, restoreFrom]
      dsimp only [lineSpan]
      rw [writerLevels_concat, restoreFrom_contentTokens, join_writerLevels, Line.chars, hcontent]
      simp only [List.flatten_append, List.flatten_singleton, String.ofList_append,
        String.append_assoc]
  | @closes kept missed rest hlevels hcontent =>
      rw [List.cons_append, restoreFrom, hlevels]
      dsimp only
      rw [closeLevels_writerLevels, restoreFrom_contentTokens, join_writerLevels, Line.chars,
          hcontent]
      simp only [String.ofList_append, String.append_assoc]

/-- All lines: the levels that are still open at the end write nothing. -/
theorem restoreFrom_lexLines {s : LexState} {ls : List Line} {tokens : List Token}
    (h : lexLines seg s ls = .ok tokens) :
    restoreFrom (writerLevels s.levels) true tokens = String.ofList (ls.flatMap Line.chars) := by
  induction ls generalizing s tokens with
  | nil =>
      rw [lexLines] at h
      obtain rfl := Except.ok.inj h
      split <;> rfl
  | cons l ls ih =>
      obtain ⟨here, s', after, hline, hrest, rfl⟩ := exists_of_lexLines_cons h
      rw [restoreFrom_lexLine hline, ih hrest, List.flatMap_cons, String.ofList_append]

/-- **Tokens are lossless**: a text that has tokens is what its tokens are written back as. -/
theorem restore_lex {text : String} {tokens : List Token} (h : lex text seg = .ok tokens) :
    restore tokens = text := by
  unfold lex lexChars at h
  cases hlines : lexLines seg {} (linesOf text.toList) with
  | error e => rw [hlines] at h; cases h
  | ok lines =>
      rw [hlines] at h
      obtain rfl := Except.ok.inj h
      have hwritten := restoreFrom_lexLines hlines
      rw [flatMap_chars_linesOf, String.ofList_toList] at hwritten
      rw [restore, restoreFrom_mergeBlanks]
      exact hwritten

/-- Tabs and wide spaces as indentation, blank lines inside a block, two levels closed at once and
one at the end, both kinds of line end, a lone carriage return and no line end at the last line. -/
theorem restore_lex_mixed :
    ∃ tokens,
      lex "a\n\tb\r\n \n\n\t\u3000\u00a0c d\n\t\u3000\u00a0 e\r!\n\tf\n\r\n\t g" = .ok tokens ∧
      tokens.length = 23 ∧
      restore tokens = "a\n\tb\r\n \n\n\t\u3000\u00a0c d\n\t\u3000\u00a0 e\r!\n\tf\n\r\n\t g" := by
  have hlength : (lex "a\n\tb\r\n \n\n\t\u3000\u00a0c d\n\t\u3000\u00a0 e\r!\n\tf\n\r\n\t g").map
      List.length = .ok 23 := by decide +kernel
  cases h : lex "a\n\tb\r\n \n\n\t\u3000\u00a0c d\n\t\u3000\u00a0 e\r!\n\tf\n\r\n\t g" with
  | error e => rw [h] at hlength; cases hlength
  | ok tokens =>
      rw [h] at hlength
      exact ⟨tokens, rfl, Except.ok.inj hlength, restore_lex h⟩

end Markup
