import Markup.Proofs.Token.LineStep
import Mathlib.Data.List.Chain

/-! # The tokens of a line's content

What stands on a line behind its indentation becomes tokens of four kinds.  `LineContent` says what
they are like: there is at least one, none is empty, neighbours differ in kind, the first is no
space, and each is made of whole clusters of the content, so that no cluster is cut in two.  All
this comes from `classRuns`, which puts neighbouring clusters of one class together; the content of
a line that is not blank always gives such tokens (`lineContent_runTokens`). -/

namespace Markup

open Text

variable {seg : Segmenter}

/-- The kinds of tokens that hold the content of a line. -/
def TokenKind.IsContent : TokenKind → Prop
  | .word | .space | .punct | .num => True
  | .indent | .deindent | .newline | .blankLines => False

/-- The characters that a token covers. -/
def Token.chars (t : Token) : List Char := t.span.fragment.toList

/-- The tokens of the content of a line. -/
structure LineContent (seg : Segmenter) (tokens : List Token) : Prop where
  nonempty : tokens ≠ []
  kind : ∀ t ∈ tokens, t.kind.IsContent
  chars : ∀ t ∈ tokens, t.chars ≠ []
  /-- Neighbours differ in kind. -/
  changes : tokens.IsChain fun t u => t.kind ≠ u.kind
  first : ∀ t ∈ tokens.head?, t.kind ≠ .space
  /-- The clusters of the content, the first of which starts behind the indentation, can be grouped
  so that each group makes up a token. -/
  clusters : ∃ groups : List (List (List Char)),
    groups.flatten = seg.split (tokens.flatMap Token.chars) ∧
      groups.map List.flatten = tokens.map Token.chars

/-! ### Runs of one class -/

/-- A run is made of whole clusters. -/
theorem exists_groups_classRuns (ks : List (List Char)) :
    ∃ groups : List (List (List Char)), groups.flatten = ks ∧
      groups.map List.flatten = (classRuns ks).map (·.2) := by
  induction ks with
  | nil => exact ⟨[], rfl, rfl⟩
  | cons k ks ih =>
      obtain ⟨groups, hflatten, hruns⟩ := ih
      rw [classRuns]
      cases hmore : classRuns ks with
      | nil =>
          rw [hmore] at hruns
          obtain rfl := List.map_eq_nil_iff.mp hruns
          refine ⟨[[k]], ?_, by simp⟩
          rw [← hflatten]
          rfl
      | cons r rest =>
          rw [hmore] at hruns
          dsimp only
          -- The cluster joins the first group, or makes a group of its own.
          split
          · cases groups with
            | nil => cases hruns
            | cons g groups =>
                obtain ⟨hg, hrest⟩ := List.cons.inj hruns
                refine ⟨(k :: g) :: groups, ?_, ?_⟩
                · rw [← hflatten]
                  rfl
                · rw [List.map_cons, List.map_cons, List.flatten_cons, hg, hrest]
          · refine ⟨[k] :: groups, ?_, ?_⟩
            · rw [← hflatten]
              rfl
            · rw [List.map_cons, hruns]
              simp

/-- The first run has the class of the first cluster. -/
theorem exists_classRuns_cons (k : List Char) (ks : List (List Char)) :
    ∃ run rest, classRuns (k :: ks) = (CharClass.of (k.headD ' '), run) :: rest := by
  rw [classRuns]
  cases classRuns ks with
  | nil => exact ⟨_, _, rfl⟩
  | cons r rest =>
      dsimp only
      split <;> exact ⟨_, _, rfl⟩

/-- Neighbouring runs differ in class. -/
theorem isChain_classRuns (ks : List (List Char)) :
    (classRuns ks).IsChain fun r r' => r.1 ≠ r'.1 := by
  induction ks with
  | nil => exact .nil
  | cons k ks ih =>
      rw [classRuns]
      cases hmore : classRuns ks with
      | nil => exact .singleton _
      | cons r rest =>
          rw [hmore] at ih
          dsimp only
          split
          · next hkind =>
            rw [List.isChain_cons] at ih ⊢
            rw [hkind]
            exact ih
          · next hkind => exact .cons_cons hkind ih

theorem ne_nil_of_mem_classRuns {ks : List (List Char)} (hks : ∀ k ∈ ks, k ≠ []) :
    ∀ r ∈ classRuns ks, r.2 ≠ [] := by
  induction ks with
  | nil => exact fun r hr => (List.not_mem_nil hr).elim
  | cons k ks ih =>
      have hk := hks k List.mem_cons_self
      have hrest := ih fun k' hk' => hks k' (List.mem_cons_of_mem k hk')
      rw [classRuns]
      cases hmore : classRuns ks with
      | nil => simpa using hk
      | cons r rest =>
          rw [hmore] at hrest
          dsimp only
          split
          · intro r' hr'
            rcases List.mem_cons.mp hr' with rfl | hr'
            · exact fun hnil => hk (List.append_eq_nil_iff.mp hnil).1
            · exact hrest r' (List.mem_cons_of_mem r hr')
          · intro r' hr'
            rcases List.mem_cons.mp hr' with rfl | hr'
            · exact hk
            · exact hrest r' hr'

/-! ### Tokens of runs -/

theorem TokenKind.isContent_ofClass (k : CharClass) : (TokenKind.ofClass k).IsContent := by
  cases k <;> trivial

theorem TokenKind.ofClass_injective {k k' : CharClass} (h : ofClass k = ofClass k') : k = k' := by
  cases k <;> cases k' <;> first | rfl | cases h

/-- A character that is no inline space is not of the class of spaces. -/
theorem CharClass.of_ne_space {c : Char} (h : isInlineSpace c = false) :
    CharClass.of c ≠ .space := by
  unfold CharClass.of
  rw [h]
  split
  · simp
  · split <;> simp

theorem map_kind_runTokens (line : Nat) : ∀ (offset : Nat) (runs : List (CharClass × List Char)),
    (runTokens line offset runs).map Token.kind = runs.map fun r => .ofClass r.1
  | _, [] => rfl
  | offset, (kind, run) :: runs => by
      rw [runTokens, List.map_cons, List.map_cons, map_kind_runTokens line _ runs]

theorem map_chars_runTokens (line : Nat) : ∀ (offset : Nat) (runs : List (CharClass × List Char)),
    (runTokens line offset runs).map Token.chars = runs.map (·.2)
  | _, [] => rfl
  | offset, (kind, run) :: runs => by
      rw [runTokens, List.map_cons, List.map_cons, map_chars_runTokens line _ runs, Token.chars,
        lineSpan, String.toList_ofList]

/-- A content that starts with no inline space starts with a run of another class. -/
theorem exists_classRuns_of_flush {content : List Char} (hne : content ≠ [])
    (hflush : Flush content) :
    ∃ kind run rest, classRuns (seg.split content) = (kind, run) :: rest ∧
      kind ≠ .space := by
  cases content with
  | nil => exact (hne rfl).elim
  | cons c cs =>
      have hc : isInlineSpace c = false := by
        cases hspace : isInlineSpace c with
        | false => rfl
        | true =>
            rw [Flush, List.takeWhile_cons_of_pos hspace] at hflush
            cases hflush
      obtain ⟨k, ks, hsplit⟩ := seg.exists_split_cons c cs
      obtain ⟨run, rest, hruns⟩ := exists_classRuns_cons (c :: k) ks
      exact ⟨CharClass.of c, run, rest, by rw [hsplit, hruns, List.headD_cons],
        CharClass.of_ne_space hc⟩

/-- **Content becomes tokens**: a content that does not start with inline space, and is not empty,
gives tokens as they should be. -/
theorem lineContent_runTokens (line offset : Nat) {content : List Char} (hne : content ≠ [])
    (hflush : Flush content) :
    LineContent seg (runTokens line offset (classRuns (seg.split content))) := by
  have hkinds := map_kind_runTokens line offset (classRuns (seg.split content))
  have hchars := map_chars_runTokens line offset (classRuns (seg.split content))
  have hchain := isChain_classRuns (seg.split content)
  have hruns := ne_nil_of_mem_classRuns (seg.ne_nil content)
  obtain ⟨groups, hflatten, hgroups⟩ := exists_groups_classRuns (seg.split content)
  obtain ⟨kind, run, rest, hfirst, hspace⟩ := exists_classRuns_of_flush hne hflush
  generalize classRuns (seg.split content) = runs at *
  constructor
  · rw [hfirst]
    exact List.cons_ne_nil _ _
  · intro t ht
    have hmem := List.mem_map_of_mem (f := Token.kind) ht
    rw [hkinds] at hmem
    obtain ⟨r, -, hr⟩ := List.mem_map.mp hmem
    rw [← hr]
    exact TokenKind.isContent_ofClass r.1
  · intro t ht
    have hmem := List.mem_map_of_mem (f := Token.chars) ht
    rw [hchars] at hmem
    obtain ⟨r, hr, heq⟩ := List.mem_map.mp hmem
    rw [← heq]
    exact hruns r hr
  · rw [← List.isChain_map Token.kind, hkinds, List.isChain_map]
    exact hchain.imp fun r r' hne heq => hne (TokenKind.ofClass_injective heq)
  · intro t ht
    rw [hfirst] at ht
    obtain rfl := Option.some.inj ht
    exact fun heq => hspace (TokenKind.ofClass_injective heq)
  · refine ⟨groups, ?_, hgroups.trans hchars.symm⟩
    rw [List.flatMap_def, hchars, ← hgroups, ← List.flatten_flatten, hflatten,
      seg.flatten_split]

end Markup
