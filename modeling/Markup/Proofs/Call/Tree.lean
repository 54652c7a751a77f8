import Markup.Proofs.Call.Spans

/-! # Parse trees

Reading a region gives its pieces, with the arguments of its calls still to be read.  The parse
tree is what comes of reading on: every argument without a name is read in its turn, in the mode
that the command asks for, down to the texts (`piecesTrees`).  Arguments with a name are kept as
they were written.

This ends since an argument is shorter than the region it is written in: `piecesWeight` bounds
what is still to be read, and the pieces of a region weigh at most as much as the region is long
(`readRegion_weight`). -/

namespace Markup

open Text

mutual

/-- A piece with all that is inside it. -/
inductive Tree where
  | text (text : String)
  | call (name : String) (args : List TreeArgument)

/-- An argument with all that is inside it, or a keyword as it is written. -/
inductive TreeArgument where
  | positional (content : List Tree)
  | keyword (name value : String)

end

/-! ### How much there is to read -/

/-- A measure of what is still to be read in arguments. -/
def argumentsWeight : List Argument → Nat
  | [] => 0
  | a :: rest => a.value.fragment.length + 2 + argumentsWeight rest

/-- A measure of what is still to be read in pieces. -/
def piecesWeight : List Piece → Nat
  | [] => 0
  | .text _ :: rest => 1 + piecesWeight rest
  | .call c :: rest => 1 + argumentsWeight c.args + piecesWeight rest

namespace Reader

theorem span_length_le (r : Reader) (start stop : Nat) :
    (r.span start stop).1.fragment.length ≤ stop - start := by
  rw [r.fragment_span, String.length_ofList, List.length_take]
  omega

theorem argument_weight (r : Reader) (a : RawArgument) :
    (r.argument a).1.value.fragment.length + 2 ≤ a.chars.length := by
  have hchars : a.chars.length = a.space.length + 1 + a.content.length + 1 := by
    simp only [RawArgument.chars, List.length_append, List.length_cons, List.length_nil]
    omega
  unfold Reader.argument
  dsimp only
  split
  · refine Nat.le_trans (Nat.add_le_add_right (span_length_le _ _ _) 2) ?_
    omega
  · refine Nat.le_trans (Nat.add_le_add_right (span_length_le _ _ _) 2) ?_
    omega

theorem arguments_weight : ∀ (r : Reader) (args : List RawArgument),
    argumentsWeight (r.arguments args).1 ≤ (args.flatMap RawArgument.chars).length
  | _, [] => Nat.zero_le _
  | r, a :: args => by
      have hfirst := r.argument_weight a
      have hrest := arguments_weight (r.argument a).2 args
      simp only [Reader.arguments, argumentsWeight, List.flatMap_cons, List.length_append]
      omega

theorem piece_weight (r : Reader) {p : RawPiece} (hne : p.chars ≠ []) (rest : List Piece) :
    piecesWeight ((r.piece p).1 :: rest) ≤ p.chars.length + piecesWeight rest := by
  have hpos := List.length_pos_of_ne_nil hne
  cases p with
  | text run =>
      simp only [Reader.piece, piecesWeight]
      omega
  | call name args =>
      have hargs := arguments_weight
        ((r.skip (name.length + 1)).span (r.pos + 1) (r.pos + 1 + name.length : Nat)).2 args
      simp only [Reader.piece, Reader.call, piecesWeight, RawPiece.chars, List.length_append,
        List.length_cons]
      omega
  | breaks ends =>
      simp only [Reader.piece]
      split
      · simp only [piecesWeight]
        omega
      · simp only [piecesWeight, argumentsWeight]
        omega

theorem pieces_weight : ∀ (r : Reader) {raw : List RawPiece}, (∀ p ∈ raw, p.chars ≠ []) →
    piecesWeight (r.pieces raw).1 ≤ (raw.flatMap RawPiece.chars).length
  | _, [], _ => Nat.zero_le _
  | r, p :: raw, hne => by
      have hfirst := r.piece_weight (hne p List.mem_cons_self) ((r.piece p).2.pieces raw).1
      have hrest := pieces_weight (r.piece p).2 fun q hq => hne q (List.mem_cons_of_mem p hq)
      simp only [Reader.pieces, List.flatMap_cons, List.length_append]
      omega

end Reader

theorem readRegion_weight {region : Span} {pieces : List Piece}
    (h : readRegion region = .ok pieces) : piecesWeight pieces ≤ region.fragment.length := by
  have hscan := scanRegion_covers (Reader.ofRegion region).text
  obtain ⟨after, hchars⟩ := hscan.chars
  have hlength := congrArg List.length hchars
  have hweight := (Reader.ofRegion region).pieces_weight hscan.nonempty
  simp only [List.length_append] at hlength
  unfold readRegion at h
  dsimp only at h
  split at h
  · cases h
    rw [← String.length_toList]
    exact Nat.le_trans hweight (Nat.le.intro hlength.symm)
  · cases h

theorem readMarkup_weight {source : Source} {region : Span} {pieces : List Piece}
    (h : readMarkup source region = .ok pieces) : piecesWeight pieces ≤ region.fragment.length := by
  unfold readMarkup at h
  cases hregion : readRegion region with
  | error stop =>
      rw [hregion] at h
      cases h
  | ok found =>
      rw [hregion] at h
      cases h
      exact readRegion_weight hregion

theorem ArgMode.read_weight {source : Source} {mode : ArgMode} {region : Span}
    {pieces : List Piece} (h : mode.read source region = .ok pieces) :
    piecesWeight pieces < region.fragment.length + 2 := by
  cases mode with
  | markup =>
      have hweight := readMarkup_weight h
      omega
  | literal =>
      cases h
      simp only [readLiteral, piecesWeight]
      omega

/-! ### Trees -/

mutual

/-- The trees of pieces, where `modes` says how the arguments of a command are read. -/
def piecesTrees (source : Source) (modes : String → ArgMode) :
    List Piece → Except ParseError (List Tree)
  | [] => .ok []
  | .text span :: rest => do
    let trees ← piecesTrees source modes rest
    return .text span.fragment :: trees
  | .call c :: rest => do
    let args ← argumentsTrees source modes (modes c.name.fragment) c.args
    let trees ← piecesTrees source modes rest
    return .call c.name.fragment args :: trees
termination_by pieces => piecesWeight pieces
decreasing_by all_goals simp only [piecesWeight]; omega

/-- The trees of the arguments of a command. -/
def argumentsTrees (source : Source) (modes : String → ArgMode) (mode : ArgMode) :
    List Argument → Except ParseError (List TreeArgument)
  | [] => .ok []
  | a :: rest =>
    match a.name with
    | some name => do
      let trees ← argumentsTrees source modes mode rest
      return .keyword name.fragment a.value.fragment :: trees
    | none =>
      match _h : mode.read source a.value with
      | .error e => .error e
      | .ok pieces => do
        let content ← piecesTrees source modes pieces
        let trees ← argumentsTrees source modes mode rest
        return .positional content :: trees
termination_by args => argumentsWeight args
decreasing_by
  · simp only [argumentsWeight]
    omega
  · have hweight := ArgMode.read_weight _h
    simp only [argumentsWeight]
    omega
  · simp only [argumentsWeight]
    omega

end

section trees

variable {source : Source} {modes : String → ArgMode} {mode : ArgMode}

theorem piecesTrees_text {rest : List Piece} {trees : List Tree}
    (h : piecesTrees source modes rest = .ok trees) (span : Span) :
    piecesTrees source modes (.text span :: rest) = .ok (.text span.fragment :: trees) := by
  rw [piecesTrees, h]
  rfl

theorem piecesTrees_call {c : Call} {args : List TreeArgument} {rest : List Piece}
    {trees : List Tree}
    (hargs : argumentsTrees source modes (modes c.name.fragment) c.args = .ok args)
    (h : piecesTrees source modes rest = .ok trees) :
    piecesTrees source modes (.call c :: rest) = .ok (.call c.name.fragment args :: trees) := by
  rw [piecesTrees, hargs, h]
  rfl

theorem argumentsTrees_keyword {a : Argument} {name : Span} {rest : List Argument}
    {args : List TreeArgument} (hname : a.name = some name)
    (h : argumentsTrees source modes mode rest = .ok args) :
    argumentsTrees source modes mode (a :: rest) =
      .ok (.keyword name.fragment a.value.fragment :: args) := by
  rw [argumentsTrees, hname]
  dsimp only
  rw [h]
  rfl

theorem argumentsTrees_positional {a : Argument} {pieces : List Piece} {content : List Tree}
    {rest : List Argument} {args : List TreeArgument} (hname : a.name = none)
    (hread : mode.read source a.value = .ok pieces)
    (hcontent : piecesTrees source modes pieces = .ok content)
    (h : argumentsTrees source modes mode rest = .ok args) :
    argumentsTrees source modes mode (a :: rest) = .ok (.positional content :: args) := by
  rw [argumentsTrees, hname]
  dsimp only
  split
  · next hread' =>
    rw [hread] at hread'
    cases hread'
  · next hread' =>
    rw [hread] at hread'
    cases hread'
    rw [hcontent, h]
    rfl

end trees

end Markup
