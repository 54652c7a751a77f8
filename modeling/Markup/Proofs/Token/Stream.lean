import Markup.Proofs.Token.Content
import Mathlib

/-! # The grammar of token lists

The tokens of a text are those of its lines one after the other (`TokenStream`).  A line is one
token for blank lines, which covers all that follow each other, or an optional token that opens a
level or closes some, the tokens of the content (`LineContent`) and a newline.  The newline is
empty only on the last line; levels that are still open behind it are closed by one more token.

The grammar carries the number of levels that are open, so that none is left in the end
(`TokenStream.openLevels_eq`) and no more are closed anywhere than there are
(`TokenStream.closesOpen`). -/

namespace Markup

open Text

variable {seg : Segmenter}

/-! ### The grammar -/

/-- The tokens of a line up to its newline, from `depth` open levels to those open after it. -/
inductive LineTokens (seg : Segmenter) (depth : Nat) : List Token → Nat → Prop
  | level {content : List Token} (h : LineContent seg content) : LineTokens seg depth content depth
  /-- Inline space that opens a level. -/
  | opens {t : Token} {content : List Token} (hkind : t.kind = .indent) (hne : t.chars ≠ [])
      (hspace : t.chars.all isInlineSpace) (h : LineContent seg content) :
      LineTokens seg depth (t :: content) (depth + 1)
  /-- Some of the open levels are closed. -/
  | closes {t : Token} {content : List Token} {closed : Nat} (hkind : t.kind = .deindent)
      (hcount : t.count = closed) (hsome : 1 ≤ closed) (hopen : closed ≤ depth)
      (h : LineContent seg content) : LineTokens seg depth (t :: content) (depth - closed)

/-- A token for blank lines, which counts the lines that it covers. -/
structure BlankToken (t : Token) : Prop where
  kind : t.kind = .blankLines
  lines : linesOf t.chars ≠ []
  blank : ∀ l ∈ linesOf t.chars, l.content.all isInlineSpace
  count : t.count = (linesOf t.chars).length

/-- The tokens of lines one after the other, from `depth` open levels to none. -/
inductive TokenStream (seg : Segmenter) : Nat → List Token → Prop
  | finished : TokenStream seg 0 []
  /-- Levels that are open at the end are closed there. -/
  | closed {depth : Nat} {t : Token} (hkind : t.kind = .deindent) (hcount : t.count = depth)
      (hopen : 1 ≤ depth) : TokenStream seg depth [t]
  /-- Blank lines, and no more blank lines after them. -/
  | blank {depth : Nat} {t : Token} {rest : List Token} (ht : BlankToken t)
      (hnext : ∀ u ∈ rest.head?, u.kind ≠ .blankLines) (h : TokenStream seg depth rest) :
      TokenStream seg depth (t :: rest)
  /-- A line with content; it has no newline only if no line follows. -/
  | line {depth after : Nat} {head rest : List Token} {newline : Token}
      (hhead : LineTokens seg depth head after) (hkind : newline.kind = .newline)
      (hend : newline.span.fragment = "\n" ∨ newline.span.fragment = "\r\n" ∨
        newline.span.fragment = "" ∧ ∀ t ∈ rest, t.kind = .deindent)
      (h : TokenStream seg after rest) : TokenStream seg depth (head ++ newline :: rest)

/-! ### Levels -/

/-- The number of levels that tokens leave open: those they open less those they close. -/
def openLevels (tokens : List Token) : Int :=
  (tokens.countP (·.kind = .indent) : Int) -
    ((tokens.filter (·.kind = .deindent)).map Token.count).sum

theorem openLevels_append (first rest : List Token) :
    openLevels (first ++ rest) = openLevels first + openLevels rest := by
  simp only [openLevels, List.countP_append, List.filter_append, List.map_append, List.sum_append]
  omega

theorem openLevels_cons_indent {t : Token} (h : t.kind = .indent) (rest : List Token) :
    openLevels (t :: rest) = 1 + openLevels rest := by
  unfold openLevels
  rw [List.countP_cons_of_pos (by simp [h]), List.filter_cons_of_neg (by simp [h])]
  omega

theorem openLevels_cons_deindent {t : Token} (h : t.kind = .deindent) (rest : List Token) :
    openLevels (t :: rest) = -t.count + openLevels rest := by
  unfold openLevels
  rw [List.countP_cons_of_neg (by simp [h]), List.filter_cons_of_pos (by simp [h]), List.map_cons,
    List.sum_cons]
  omega

theorem openLevels_cons_other {t : Token} (hopen : t.kind ≠ .indent) (hclose : t.kind ≠ .deindent)
    (rest : List Token) : openLevels (t :: rest) = openLevels rest := by
  unfold openLevels
  rw [List.countP_cons_of_neg (by simp [hopen]), List.filter_cons_of_neg (by simp [hclose])]

/-- A token of the content of a line is none of the others. -/
theorem TokenKind.IsContent.ne_others {kind : TokenKind} (h : kind.IsContent) :
    kind ≠ .indent ∧ kind ≠ .deindent ∧ kind ≠ .newline ∧ kind ≠ .blankLines := by
  cases kind <;> first | exact h.elim | simp

theorem openLevels_of_isContent {tokens : List Token} (h : ∀ t ∈ tokens, t.kind.IsContent) :
    openLevels tokens = 0 := by
  induction tokens with
  | nil => rfl
  | cons t tokens ih =>
      have ht := (h t List.mem_cons_self).ne_others
      rw [openLevels_cons_other ht.1 ht.2.1]
      exact ih fun u hu => h u (List.mem_cons_of_mem t hu)

theorem LineTokens.openLevels_eq {depth after : Nat} {head : List Token}
    (h : LineTokens seg depth head after) : depth + openLevels head = after := by
  cases h with
  | level h => rw [openLevels_of_isContent h.kind, Int.add_zero]
  | opens hkind _ _ h => rw [openLevels_cons_indent hkind, openLevels_of_isContent h.kind]; omega
  | closes hkind hcount _ hopen h =>
      rw [openLevels_cons_deindent hkind, openLevels_of_isContent h.kind, hcount]
      omega

/-- **Levels are balanced**: all that are open are closed in the end. -/
theorem TokenStream.openLevels_eq {depth : Nat} {tokens : List Token}
    (h : TokenStream seg depth tokens) : depth + openLevels tokens = 0 := by
  induction h with
  | finished => rfl
  | @closed depth t hkind hcount =>
      have hnil : openLevels [] = 0 := rfl
      rw [openLevels_cons_deindent hkind, hcount, hnil]
      omega
  | blank ht _ _ ih => rw [openLevels_cons_other (by simp [ht.kind]) (by simp [ht.kind]), ih]
  | line hhead hkind _ _ ih =>
      have hline := hhead.openLevels_eq
      rw [openLevels_append, openLevels_cons_other (by simp [hkind]) (by simp [hkind])]
      omega

/-! ### Closing -/

/-- From `depth` open levels on, every token that closes levels closes some, and no more than are
open there. -/
def ClosesOpen : Int → List Token → Prop
  | _, [] => True
  | depth, t :: rest =>
    (t.kind = .deindent → 1 ≤ t.count ∧ t.count ≤ depth) ∧
      ClosesOpen (depth + openLevels [t]) rest

theorem closesOpen_append {depth : Int} {first rest : List Token} :
    ClosesOpen depth (first ++ rest) ↔
      ClosesOpen depth first ∧ ClosesOpen (depth + openLevels first) rest := by
  induction first generalizing depth with
  | nil => simp [ClosesOpen, openLevels]
  | cons t first ih =>
      have hopen : depth + openLevels [t] + openLevels first = depth + openLevels (t :: first) := by
        have happend := openLevels_append [t] first
        rw [List.singleton_append] at happend
        omega
      rw [List.cons_append, ClosesOpen, ClosesOpen, ih, hopen, and_assoc]

/-- A token that neither opens nor closes levels. -/
theorem ClosesOpen.cons_other {depth : Int} {t : Token} {rest : List Token}
    (hopen : t.kind ≠ .indent) (hclose : t.kind ≠ .deindent) (h : ClosesOpen depth rest) :
    ClosesOpen depth (t :: rest) := by
  refine ⟨fun ht => (hclose ht).elim, ?_⟩
  have hnil : openLevels [] = 0 := rfl
  rwa [openLevels_cons_other hopen hclose, hnil, Int.add_zero]

theorem closesOpen_of_isContent {depth : Int} {tokens : List Token}
    (h : ∀ t ∈ tokens, t.kind.IsContent) : ClosesOpen depth tokens := by
  induction tokens with
  | nil => trivial
  | cons t tokens ih =>
      have ht := (h t List.mem_cons_self).ne_others
      exact .cons_other ht.1 ht.2.1 (ih fun u hu => h u (List.mem_cons_of_mem t hu))

theorem LineTokens.closesOpen {depth after : Nat} {head : List Token}
    (h : LineTokens seg depth head after) : ClosesOpen depth head := by
  cases h with
  | level h => exact closesOpen_of_isContent h.kind
  | opens hkind _ _ h =>
      refine ⟨?_, closesOpen_of_isContent h.kind⟩
      simp [hkind]
  | closes _ hcount hsome hopen h =>
      refine ⟨fun _ => ?_, closesOpen_of_isContent h.kind⟩
      rw [hcount]
      omega

theorem TokenStream.closesOpen {depth : Nat} {tokens : List Token}
    (h : TokenStream seg depth tokens) : ClosesOpen depth tokens := by
  induction h with
  | finished => trivial
  | closed _ hcount hopen =>
      refine ⟨fun _ => ?_, trivial⟩
      rw [hcount]
      omega
  | blank ht _ _ ih => exact .cons_other (by simp [ht.kind]) (by simp [ht.kind]) ih
  | line hhead hkind _ _ ih =>
      refine closesOpen_append.mpr ⟨hhead.closesOpen, ?_⟩
      rw [hhead.openLevels_eq]
      exact .cons_other (by simp [hkind]) (by simp [hkind]) ih

end Markup
