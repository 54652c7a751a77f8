import Markup.Call
import Markup.Proofs.Call.Grammar

/-! # Reading a command follows the grammar

`Reader.command` reads the command that starts where the reader stands.  It finds none exactly
where no backslash and name start there, and then it has not moved.  Where a command does stand
there (`CommandAt`), the reader is afterwards behind its last argument, whatever came of it; it
fails if a brace follows that never closes, else if there are fewer arguments than asked for, and
otherwise it returns the command with its name and arguments as they are written.  An argument has
a name if it is of the form `KeywordForm`, and is taken as a whole if it is not.  The main statement
is `Reader.command_grammar`. -/

namespace Markup

open Text

/-! ### Spans of a command -/

/-- The span covers the characters `cs` at `offset`. -/
def Span.Covers (offset : Int) (cs : List Char) (s : Span) : Prop :=
  s.offset = offset ∧ s.fragment = String.ofList cs

/-- The argument that is made of `content` at `offset`: with a name if it is written as a keyword,
and otherwise without one, the whole content being its value. -/
def Argument.Reads (offset : Int) (content : List Char) (a : Argument) : Prop :=
  (∃ key value name, KeywordForm content key value ∧ a.name = some name ∧ name.Covers offset key ∧
    a.value.Covers (offset + key.length + 1) value) ∨
  ((∀ key value, ¬ KeywordForm content key value) ∧ a.name = none ∧
    a.value.Covers offset content)

/-- The arguments that are made of scanned ones, one after the other from `offset` on. -/
inductive ArgumentsRead : Int → List RawArgument → List Argument → Prop
  | nil {offset : Int} : ArgumentsRead offset [] []
  | cons {offset : Int} {raw : RawArgument} {raws : List RawArgument} {a : Argument}
      {args : List Argument} (ha : a.Reads (offset + (raw.space.length + 1)) raw.content)
      (h : ArgumentsRead (offset + raw.chars.length) raws args) :
      ArgumentsRead offset (raw :: raws) (a :: args)

namespace Reader

theorem span_covers (r : Reader) {start stop : Nat} {offset : Int} {part after : List Char}
    (htext : r.text.drop start = part ++ after) (hoffset : offset = r.region.offset + start)
    (hstop : stop = start + part.length) : (r.span start stop).1.Covers offset part := by
  refine ⟨hoffset.symm, ?_⟩
  rw [r.fragment_span, htext, hstop, Nat.add_sub_cancel_left, List.take_left]

/-- What is left behind a part of what is left. -/
theorem drop_add_of_drop {cs part after : List Char} {start : Nat}
    (h : cs.drop start = part ++ after) : cs.drop (start + part.length) = after := by
  rw [← List.drop_drop, h, List.drop_left]

/-- Reading an argument moves behind it, and changes nothing else but the count of lines. -/
theorem argument_after (r : Reader) (a : RawArgument) :
    (r.argument a).2.text = r.text ∧ (r.argument a).2.region = r.region ∧
      (r.argument a).2.pos = r.pos + a.chars.length := by
  have hchars : r.pos + a.space.length + 1 + a.content.length + 1 = r.pos + a.chars.length := by
    simp only [RawArgument.chars, List.length_append, List.length_cons, List.length_nil]
    omega
  unfold Reader.argument
  dsimp only
  split <;> exact ⟨rfl, rfl, hchars⟩

theorem argument_reads (r : Reader) {a : RawArgument} {ahead : List Char}
    (h : r.text.drop r.pos = a.chars ++ ahead) :
    (r.argument a).1.Reads (r.region.offset + r.pos + (a.space.length + 1)) a.content := by
  have hcontent : r.text.drop (r.pos + a.space.length + 1) = a.content ++ '}' :: ahead := by
    have e : a.chars ++ ahead = (a.space ++ ['{']) ++ (a.content ++ '}' :: ahead) := by
      simp [RawArgument.chars]
    rw [e] at h
    have hdrop := drop_add_of_drop h
    rwa [List.length_append, List.length_singleton, ← Nat.add_assoc] at hdrop
  unfold Reader.argument
  dsimp only
  split
  · next key value hsplit =>
    have hform := splitKeyword_eq_some_iff.mp hsplit
    have hkey : r.text.drop (r.pos + a.space.length + 1) =
        key ++ '=' :: (value ++ '}' :: ahead) := by
      rw [hcontent, hform.1]
      simp
    have hvalue : r.text.drop (r.pos + a.space.length + 1 + key.length + 1) =
        value ++ '}' :: ahead := by
      have hdrop := drop_add_of_drop hkey
      rw [← List.drop_drop, hdrop, List.drop_one, List.tail_cons]
    have hlength := congrArg List.length hform.1
    rw [List.length_append, List.length_cons] at hlength
    refine .inl ⟨key, value, _, hform, rfl, ?_, ?_⟩
    · exact span_covers _ hkey (by dsimp only; omega) rfl
    · exact span_covers _ hvalue (by dsimp only [Reader.span]; omega) (by omega)
  · next hsplit =>
    refine .inr ⟨?_, rfl, ?_⟩
    · intro key value hform
      rw [splitKeyword_eq_some_iff.mpr hform] at hsplit
      cases hsplit
    · exact span_covers _ hcontent (by dsimp only; omega) rfl

theorem arguments_read (r : Reader) {args : List RawArgument} {ahead : List Char}
    (h : r.text.drop r.pos = args.flatMap RawArgument.chars ++ ahead) :
    ArgumentsRead (r.region.offset + r.pos) args (r.arguments args).1 ∧
      (r.arguments args).2.pos = r.pos + (args.flatMap RawArgument.chars).length := by
  induction args generalizing r with
  | nil => exact ⟨.nil, rfl⟩
  | cons a args ih =>
      rw [List.flatMap_cons, List.append_assoc] at h
      obtain ⟨htext, hregion, hpos⟩ := r.argument_after a
      have hafter : (r.argument a).2.text.drop (r.argument a).2.pos =
          args.flatMap RawArgument.chars ++ ahead := by
        rw [htext, hpos]
        exact drop_add_of_drop h
      obtain ⟨hargs, hend⟩ := ih (r.argument a).2 hafter
      rw [hregion, hpos, Int.natCast_add, ← Int.add_assoc] at hargs
      refine ⟨.cons (r.argument_reads h) hargs, ?_⟩
      rw [List.flatMap_cons, List.length_append, ← Nat.add_assoc, ← hpos]
      exact hend

/-- Reading a command gives its name and its arguments as they are written, and moves behind
them. -/
theorem call_reads (r : Reader) {name : List Char} {args : List RawArgument} {ahead : List Char}
    (h : r.rest = '\\' :: name ++ args.flatMap RawArgument.chars ++ ahead) :
    (r.call name args).1.name.Covers (r.region.offset + r.pos + 1) name ∧
      ArgumentsRead (r.region.offset + r.pos + 1 + name.length) args (r.call name args).1.args ∧
      (r.call name args).2.pos =
        r.pos + ('\\' :: name ++ args.flatMap RawArgument.chars).length := by
  have hname : r.text.drop (r.pos + 1) = name ++ (args.flatMap RawArgument.chars ++ ahead) := by
    have hrest : r.text.drop r.pos =
        ['\\'] ++ (name ++ (args.flatMap RawArgument.chars ++ ahead)) := by
      rw [← List.append_assoc, ← List.append_assoc]
      exact h
    exact drop_add_of_drop hrest
  have hpos : r.pos + 1 + name.length = r.pos + (name.length + 1) := by omega
  have hargs := drop_add_of_drop hname
  rw [hpos] at hargs
  obtain ⟨hread, hend⟩ := arguments_read
    ((r.skip (name.length + 1)).span (r.pos + 1) (r.pos + 1 + name.length : Nat)).2 hargs
  refine ⟨span_covers _ hname ?_ rfl, ?_, ?_⟩
  · simp only [Reader.skip]
    omega
  · have hoffset : r.region.offset + r.pos + 1 + name.length =
        r.region.offset + ((r.pos + (name.length + 1) : Nat) : Int) := by omega
    rw [hoffset]
    exact hread
  · refine hend.trans ?_
    simp only [Reader.span, Reader.skip, List.length_append, List.length_cons]
    omega

end Reader

/-! ### Outcomes -/

/-- What comes of reading a command with a name and arguments, in front of `rest`, when at least
`minArgs` arguments are asked for. A brace that follows and never closes is reported whatever was
asked for. -/
structure Reader.CommandRead (r : Reader) (minArgs : Int) (name : List Char)
    (args : List RawArgument) (rest : List Char) : Prop where
  pos : (r.command minArgs).2.pos =
    r.pos + ('\\' :: name ++ args.flatMap RawArgument.chars).length
  unclosed : (∃ stop, (r.command minArgs).1 = .error stop ∧ stop.fault = .unclosedBrace) ↔
    Unclosed rest
  tooFew : (∃ stop, (r.command minArgs).1 = .error stop ∧
      stop.fault = .tooFewArguments minArgs (String.ofList name) args.length) ↔
    ¬ Unclosed rest ∧ args.length < minArgs
  found : (∃ call, (r.command minArgs).1 = .ok (some call)) ↔
    ¬ Unclosed rest ∧ minArgs ≤ args.length
  reads : ∀ call, (r.command minArgs).1 = .ok (some call) →
    call.name.Covers (r.region.offset + r.pos + 1) name ∧
      ArgumentsRead (r.region.offset + r.pos + 1 + name.length) args call.args

theorem ArgumentsRead.length_eq {offset : Int} {raws : List RawArgument} {args : List Argument}
    (h : ArgumentsRead offset raws args) : args.length = raws.length := by
  induction h with
  | nil => rfl
  | cons _ _ ih => rw [List.length_cons, List.length_cons, ih]

namespace Reader

theorem command_eq_none (r : Reader) (minArgs : Int) (h : ¬ StartsCommand r.rest) :
    r.command minArgs = (.ok none, r) := by
  unfold Reader.command
  rw [scanCall_eq_none_iff.mpr h]

section outcomes

variable {r after : Reader} {minArgs : Int} {name rest : List Char} {args : List RawArgument}
  {call : Call}

theorem command_eq_unclosed {space : List Char}
    (hscan : scanCall r.rest = some ⟨name, args, rest, some space⟩)
    (hcall : r.call name args = (call, after)) :
    r.command minArgs = (.error (after.unclosed space).1, (after.unclosed space).2) := by
  unfold Reader.command
  rw [hscan]
  simp only [hcall]

theorem command_eq_tooFew (hscan : scanCall r.rest = some ⟨name, args, rest, none⟩)
    (hcall : r.call name args = (call, after)) (hfew : (call.args.length : Int) < minArgs) :
    ∃ stop moved, r.command minArgs = (.error stop, moved) ∧ moved.pos = after.pos ∧
      stop.fault = .tooFewArguments minArgs call.name.fragment call.args.length := by
  unfold Reader.command
  rw [hscan]
  simp only [hcall, if_pos hfew]
  exact ⟨_, _, rfl, rfl, rfl⟩

theorem command_eq_call (hscan : scanCall r.rest = some ⟨name, args, rest, none⟩)
    (hcall : r.call name args = (call, after)) (henough : ¬ (call.args.length : Int) < minArgs) :
    r.command minArgs = (.ok (some call), after) := by
  unfold Reader.command
  rw [hscan]
  simp only [hcall, if_neg henough]

end outcomes

theorem commandRead_of_commandAt (r : Reader) (minArgs : Int) {name : List Char}
    {args : List RawArgument} {rest : List Char} (h : CommandAt r.rest name args rest) :
    r.CommandRead minArgs name args rest := by
  obtain ⟨unclosed, hscan, hunclosed⟩ := h.scanCall_eq
  obtain ⟨hname, hargs, hpos⟩ := r.call_reads h.chars
  cases hcall : r.call name args with
  | mk call after =>
      simp only [hcall] at hname hargs hpos
      have hlength := hargs.length_eq
      -- A brace that never closes is looked for before the arguments are counted.
      cases unclosed with
      | some space =>
          have hopen : Unclosed rest := hunclosed.mp rfl
          have hcommand : r.command minArgs = _ := command_eq_unclosed hscan hcall
          have hfault : (after.unclosed space).1.fault = .unclosedBrace := rfl
          refine ⟨?_, ?_, ?_, ?_, ?_⟩
          · rw [hcommand]
            exact hpos
          all_goals simp [hcommand, hfault, hopen]
      | none =>
          have hclosed : ¬ Unclosed rest := fun hopen => Bool.false_ne_true (hunclosed.mpr hopen)
          by_cases hfew : (args.length : Int) < minArgs
          · rw [← hlength] at hfew
            obtain ⟨stop, moved, hcommand, hmoved, hfault⟩ := command_eq_tooFew hscan hcall hfew
            rw [hname.2, hlength] at hfault
            rw [hlength] at hfew
            refine ⟨?_, ?_, ?_, ?_, ?_⟩
            · rw [hcommand]
              exact hmoved.trans hpos
            all_goals simp [hcommand, hfault, hclosed, hfew]
          · rw [← hlength] at hfew
            have hcommand := command_eq_call hscan hcall hfew
            rw [hlength] at hfew
            have henough : minArgs ≤ (args.length : Int) := Int.not_lt.mp hfew
            refine ⟨?_, ?_, ?_, ?_, ?_⟩
            · rw [hcommand]
              exact hpos
            · simp [hcommand, hclosed]
            · simp [hcommand, hclosed, henough]
            · simp [hcommand, hclosed, henough]
            · intro found hfound
              rw [hcommand] at hfound
              cases hfound
              exact ⟨hname, hargs⟩

/-- One of the three outcomes comes of reading where a command stands. -/
theorem CommandRead.ne_none {r : Reader} {minArgs : Int} {name : List Char}
    {args : List RawArgument} {rest : List Char} (h : r.CommandRead minArgs name args rest) :
    (r.command minArgs).1 ≠ .ok none := by
  intro hnone
  by_cases hopen : Unclosed rest
  · obtain ⟨stop, hstop, -⟩ := h.unclosed.mpr hopen
    rw [hnone] at hstop
    cases hstop
  · by_cases hfew : (args.length : Int) < minArgs
    · obtain ⟨stop, hstop, -⟩ := h.tooFew.mpr ⟨hopen, hfew⟩
      rw [hnone] at hstop
      cases hstop
    · obtain ⟨call, hcall⟩ := h.found.mpr ⟨hopen, Int.not_lt.mp hfew⟩
      rw [hnone] at hcall
      cases hcall

/-- **Commands are read as the grammar has them**: none where none starts, without moving; and where
one starts, as much of it as there is, with an error only for a brace that never closes or for too
few arguments. -/
theorem command_grammar (r : Reader) (minArgs : Int) :
    ((r.command minArgs).1 = .ok none ↔ ¬ StartsCommand r.rest) ∧
      ((r.command minArgs).1 = .ok none → (r.command minArgs).2 = r) ∧
      (StartsCommand r.rest → ∃ name args rest, CommandAt r.rest name args rest) ∧
      ∀ name args rest, CommandAt r.rest name args rest → r.CommandRead minArgs name args rest := by
  have hiff : (r.command minArgs).1 = .ok none ↔ ¬ StartsCommand r.rest := by
    constructor
    · intro hnone hstarts
      obtain ⟨name, args, rest, h⟩ := exists_commandAt hstarts
      exact (r.commandRead_of_commandAt minArgs h).ne_none hnone
    · intro h
      rw [r.command_eq_none minArgs h]
  refine ⟨hiff, ?_, exists_commandAt, fun _ _ _ => r.commandRead_of_commandAt minArgs⟩
  intro hnone
  rw [r.command_eq_none minArgs (hiff.mp hnone)]

/-- Too few arguments are not all that matters: a brace that never closes is reported first, however
many arguments there are in front of it. -/
theorem not_tooFew_iff_length_lt :
    ¬ ∀ (r : Reader) (minArgs : Int) (name : List Char) (args : List RawArgument)
      (rest : List Char), CommandAt r.rest name args rest →
        ((∃ stop, (r.command minArgs).1 = .error stop ∧
          stop.fault = .tooFewArguments minArgs (String.ofList name) args.length) ↔
            (args.length : Int) < minArgs) := by
  intro h
  let r := ofRegion ⟨0, 1, "\\a\x7b"⟩
  have hscan : scanCall r.rest = some ⟨['a'], [], ['{'], some []⟩ := by decide +kernel
  have hcommand : (r.command 1).1 = .error ⟨.unclosedBrace, ⟨2, 1, "\x7b"⟩⟩ := by decide +kernel
  obtain ⟨stop, hstop, hfault⟩ := (h r 1 _ _ _ (commandAt_of_scanCall hscan).1).mpr (by decide)
  rw [hcommand] at hstop
  obtain rfl := Except.error.inj hstop
  cases hfault

end Reader

end Markup
