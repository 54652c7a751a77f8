import Markup.Proofs.Doc.EarlyDrain
import Markup.Proofs.Library.Paragraphs

/-! # What pieces add, and the blocks they come to

A piece that is evaluated adds one thing to the builder, and it is the same thing whatever the
builder holds and whatever was told before (`Eval.Adds`).  What kind of thing it is can be told from
the command (`Builtin.Makes`).

So the blocks that pieces come to can be read off what each of them adds (`intoBlocks_eq_ok_iff`).
The additions fall into groups: inline content in front of all blocks, and each block with the run
of inline content behind it (`groups`).  The run in front becomes a paragraph, every other run is
drained into the block before it, and what this gives stands one after the other. -/

namespace Markup

/-! ### Additions -/

/-- What a piece adds to a builder. -/
inductive Addition where
  | nothing
  | inline (value : Inline)
  | block (value : Block)

namespace Addition

/-- Adds it. -/
def perform : Addition → Build Unit
  | nothing => pure ()
  | inline value => Build.pushInline value
  | block value => Build.pushBlock value

/-- The blocks and the pending run, where there was nothing before. -/
def alone : Addition → List Block × List Inline
  | nothing => ([], [])
  | inline value => ([], [value])
  | block value => ([value], [])

theorem eq_of_alone_eq : ∀ {a a' : Addition}, a.alone = a'.alone → a = a'
  | nothing, nothing, _ => rfl
  | inline _, inline _, h => by
      cases h
      rfl
  | block _, block _, h => by
      cases h
      rfl

end Addition

namespace Eval

/-- Whatever the builder holds, this is added to it; keys of the metadata may be set besides. -/
def Adds (x : Eval Unit) (a : Addition) : Prop :=
  ∀ b log, ∃ metadata last f, x ⟨b, log⟩ = ExceptT.adapt f a.perform ⟨{ b with metadata }, last⟩

namespace AddsOne

variable {x : Eval Unit} {log : List LogEntry} {s' : Session}

/-- What a step can do to some builder, it can do to an empty one. -/
theorem ok_of_empty (h : AddsOne x log) {b : Builder} (hok : x ⟨b, log⟩ = (.ok (), s')) :
    ∃ s, x ⟨{}, log⟩ = (.ok (), s) := by
  cases h with
  | sets outcome entries last h =>
      rw [h] at hok
      obtain ⟨rfl, -⟩ := Prod.mk.inj hok
      exact ⟨_, h {}⟩
  | inline i last h => exact ⟨_, h {}⟩
  | block value last f h => exact ⟨_, h {}⟩

theorem exists_addition (h : AddsOne x log) (hok : x ⟨{}, log⟩ = (.ok (), s')) :
    ∃ a : Addition, a.alone = (s'.builder.blocks, s'.builder.pending) ∧ ∀ b, ∃ metadata last f,
      x ⟨b, log⟩ = ExceptT.adapt f a.perform ⟨{ b with metadata }, last⟩ := by
  cases h with
  | sets outcome entries last h =>
      rw [h] at hok
      obtain ⟨rfl, rfl⟩ := Prod.mk.inj hok
      exact ⟨.nothing, rfl, fun b => ⟨_, last, Failure.ofBuild, h b⟩⟩
  | inline i last h =>
      rw [h] at hok
      obtain ⟨-, rfl⟩ := Prod.mk.inj hok
      exact ⟨.inline i, rfl, fun b => ⟨b.metadata, last, Failure.ofBuild, h b⟩⟩
  | block value last f h =>
      rw [h] at hok
      cases hok
      exact ⟨.block value, rfl, fun b => ⟨b.metadata, last, f, h b⟩⟩

end AddsOne

/-- **A step that returns adds the same to every builder.** -/
theorem exists_adds {x : Eval Unit} (hone : ∀ log, AddsOne x log) (hself : Repeats x x)
    {s s' : Session} (hok : x s = (.ok (), s')) :
    ∃ a, x.Adds a ∧ ∃ last, x ⟨{}, s.log⟩ = (.ok (), last) ∧
      a.alone = (last.builder.blocks, last.builder.pending) := by
  obtain ⟨empty, hempty⟩ := (hone s.log).ok_of_empty hok
  obtain ⟨a, halone, -⟩ := (hone s.log).exists_addition hempty
  refine ⟨a, fun b log => ?_, empty, hempty, halone⟩
  -- With another log the step does the same to an empty builder, so it adds the same.
  obtain ⟨last, hrun⟩ := hself _ () _ hempty log
  obtain ⟨a', halone', hadds⟩ := (hone log).exists_addition hrun
  obtain rfl : a' = a := Addition.eq_of_alone_eq (halone'.trans halone.symm)
  exact hadds b

end Eval

/-! ### What each command adds -/

/-- What a standard command adds, if it returns. -/
inductive Builtin.Makes : Builtin → Addition → Prop
  | par : Makes .par (.block (.par []))
  | heading (level : Int) (text : List Inline) :
      Makes (.heading level) (.block (.heading level text))
  | rule : Makes .rule (.block .rule)
  | quote (content : List Block) : Makes .quote (.block (.blockQuote content))
  | metadata : Makes .metadata .nothing
  | styled (style : Style) (content : List Inline) :
      Makes (.styled style) (.inline (.styled style content))
  | code (content : String) (language : Option String) :
      Makes (.code false) (.inline (.code content language))
  | codeBlock (content : String) (language : Option String) :
      Makes (.code true) (.block (.codeBlock language [.text content]))
  | math (tex : String) : Makes (.math false) (.inline (.math tex))
  | mathBlock (tex : String) : Makes (.math true) (.block (.mathBlock tex))
  | footnote (content : List Block) : Makes .footnote (.inline (.footnote content))
  | link (target : String) (content : Option (List Inline)) :
      Makes .link (.inline (.link target content none .url))
  | list (kind : ListKind) (items : List ListItem) : Makes (.list kind) (.block (.list kind items))
  | item (content : List Block) : Makes .item (.block (.list .unordered [.mk content none]))
  | terms (items : List TermItem) : Makes .terms (.block (.termList items))
  | term (term : List Inline) (content : List Block) :
      Makes .term (.block (.termList [.mk term content]))

/-- The step leaves in an empty builder what the command makes. -/
def Builtin.LeavesMade (kind : Builtin) (x : Eval Unit) : Prop :=
  ∀ log, Ensures x ⟨{}, log⟩
    (fun _ s => ∃ a, kind.Makes a ∧ a.alone = (s.builder.blocks, s.builder.pending)) fun _ => True

section leavesMade

variable {kind : Builtin}

theorem leavesMade_pushInline {i : Inline} (h : kind.Makes (.inline i)) :
    kind.LeavesMade (Eval.pushInline i) := by
  intro log
  rw [Eval.pushInline, Eval.push, Eval.ofBuild, Build.push]
  exact ⟨_, h, rfl⟩

theorem leavesMade_pushBlock {value : Block} (h : kind.Makes (.block value)) :
    kind.LeavesMade (Eval.pushBlock value) := by
  intro log
  rw [Eval.pushBlock, Eval.push, Eval.ofBuild, Build.push]
  exact ⟨_, h, rfl⟩

/-- Steps that leave the builder alone may come first. -/
theorem Eval.Silent.bind_leavesMade {α : Type} {y : Eval α} {f : α → Eval Unit} (h : y.Silent)
    (hnext : ∀ a, kind.LeavesMade (f a)) : kind.LeavesMade (y >>= f) := by
  intro log
  obtain ⟨outcome, last, hy⟩ := h log
  cases outcome with
  | error e =>
      unfold Ensures
      rw [bind_run, hy]
      trivial
  | ok a =>
      unfold Ensures
      rw [bind_run, hy]
      exact hnext a last

end leavesMade

open Eval Args in
/-- **Each command makes what it is there for.** -/
theorem Builtin.invoke_makes (kind : Builtin) :
    Returns (fun i => ∀ run, kind.LeavesMade (i.body run)) kind.invoke := by
  cases kind with
  | par => exact .bind fun _ => .pure fun _ => leavesMade_pushBlock .par
  | rule => exact .bind fun _ => .pure fun _ => leavesMade_pushBlock .rule
  | heading level =>
      refine .bind fun t => .pure fun run => ?_
      exact (silent_nested _).bind_leavesMade fun text => leavesMade_pushBlock (.heading level text)
  | quote =>
      refine .bind fun t => .pure fun run => ?_
      exact (silent_nested _).bind_leavesMade fun content => leavesMade_pushBlock (.quote content)
  | styled style =>
      refine .bind fun t => .pure fun run => ?_
      exact (silent_nested _).bind_leavesMade fun content =>
        leavesMade_pushInline (.styled style content)
  | footnote =>
      refine .bind fun t => .pure fun run => ?_
      exact (silent_nested _).bind_leavesMade fun content =>
        leavesMade_pushInline (.footnote content)
  | item =>
      refine .bind fun t => .pure fun run => ?_
      exact (silent_nested _).bind_leavesMade fun content => leavesMade_pushBlock (.item content)
  | list kind =>
      refine .bind fun t => .pure fun run => ?_
      refine (silent_nested _).bind_leavesMade fun blocks => ?_
      exact (silent_collected _).bind_leavesMade fun items =>
        leavesMade_pushBlock (.list kind items)
  | terms =>
      refine .bind fun t => .pure fun run => ?_
      refine (silent_nested _).bind_leavesMade fun blocks => ?_
      exact (silent_collected _).bind_leavesMade fun items => leavesMade_pushBlock (.terms items)
  | term =>
      refine .bind fun t => .bind fun u => .bind fun _ => .pure fun run => ?_
      refine (silent_nested _).bind_leavesMade fun term => ?_
      exact (silent_nested _).bind_leavesMade fun content =>
        leavesMade_pushBlock (.term term content)
  | metadata =>
      refine .bind fun _ => .bind fun entries => .pure fun run log => ?_
      obtain ⟨outcome, sets, last, hrun⟩ := setEntries_run entries log
      unfold Ensures
      dsimp only
      rw [hrun]
      cases outcome with
      | error e => trivial
      | ok u => exact ⟨.nothing, .metadata, rfl⟩
  | math display =>
      refine .bind fun t => .pure fun run => ?_
      refine (silent_string t).bind_leavesMade fun tex => ?_
      cases display with
      | true => exact leavesMade_pushBlock (.mathBlock tex)
      | false => exact leavesMade_pushInline (.math tex)
  | code block =>
      refine .bind fun t => .bind fun lang => .bind fun _ => .pure fun run => ?_
      refine (silent_string t).bind_leavesMade fun content => ?_
      refine (silent_mapM silent_string lang).bind_leavesMade fun language => ?_
      cases block with
      | true => exact leavesMade_pushBlock (.codeBlock content language)
      | false => exact leavesMade_pushInline (.code content language)
  | link =>
      have hbody : ∀ (url : Deferred) (text : Option Deferred) (run : Runner),
          Builtin.link.LeavesMade (do
            let content ← text.mapM (Deferred.intoInlines run)
            Eval.pushInline (.link (← url.string) content none .url)) := by
        intro url text run
        refine (silent_mapM (fun t => silent_nested _) text).bind_leavesMade fun content => ?_
        exact (silent_string url).bind_leavesMade fun target =>
          leavesMade_pushInline (.link target content)
      -- The address may be a keyword, and the text may be missing.
      refine .bind fun found => ?_
      cases found with
      | some url =>
          refine .bind fun url => .bind fun args => ?_
          dsimp only
          split
          · exact .bind fun text => .bind fun _ => .pure (hbody url text)
          · exact .bind fun text => .bind fun _ => .pure (hbody url text)
      | none =>
          refine .bind fun url => .bind fun args => ?_
          dsimp only
          split
          · exact .bind fun text => .bind fun _ => .pure (hbody url text)
          · exact .bind fun text => .bind fun _ => .pure (hbody url text)

/-! ### What pieces add -/

/-- What a piece may add, by its text or by the command that it names. -/
def Piece.Makes (scope : Scope Builtin) : Piece → Addition → Prop
  | .text span, a => a = .inline (.text span.fragment)
  | .call c, a => ∃ d, scope.find? c.name.fragment = some d ∧ d.kind.Makes a

/-- What a piece adds in a world. -/
structure World.PieceAdds (w : World Builtin) (p : Piece) (a : Addition) : Prop where
  adds : (runPiece (w.call {} Builtin.library) p).Adds a
  makes : p.Makes w.scope a

theorem callWithin_makes (levels : Nat) {w : World Builtin} {c : Call} {log : List LogEntry}
    {s : Session} (h : w.callWithin {} Builtin.library levels c ⟨{}, log⟩ = (.ok (), s)) :
    ∃ d, w.scope.find? c.name.fragment = some d ∧ ∃ a, d.kind.Makes a ∧
      a.alone = (s.builder.blocks, s.builder.pending) := by
  cases levels with
  | zero => cases h
  | succ levels =>
      rw [World.callWithin_succ, World.callBody_run] at h
      cases hfound : w.found Builtin.library c with
      | error e =>
          rw [hfound] at h
          cases h
      | ok found =>
          obtain ⟨d, i⟩ := found
          rw [hfound] at h
          obtain ⟨hfind, args, rest, -, hbind⟩ := World.exists_of_found_eq_ok hfound
          rw [Builtin.library_invoke] at hbind
          have hmade := Builtin.invoke_makes d.kind args i rest hbind
            (runPieces ((w.inner i.locals).callWithin {} Builtin.library levels)) (log ++ w.tells c)
          have hadapt : Ensures (ExceptT.adapt (w.settle c) _) _ _ fun _ => True :=
            hmade.adapt fun _ _ => trivial
          exact ⟨d, hfind, hadapt.of_eq_ok h⟩

theorem exists_pieceAdds {w : World Builtin} {p : Piece} {s s' : Session}
    (h : runPiece (w.call {} Builtin.library) p s = (.ok (), s')) : ∃ a, w.PieceAdds p a := by
  cases p with
  | text span =>
      refine ⟨.inline (.text span.fragment), fun b log => ?_, rfl⟩
      refine ⟨b.metadata, log, Failure.ofBuild, ?_⟩
      rw [runPiece, Eval.push, Eval.ofBuild, Build.push]
      rfl
  | call c =>
      have hself : Repeats (w.call {} Builtin.library c) (w.call {} Builtin.library c) :=
        callWithin_repeats _ rfl rfl
      obtain ⟨a, hadds, last, hempty, halone⟩ :=
        Eval.exists_adds (fun log => callWithin_addsOne _ w c log) hself h
      obtain ⟨d, hfind, a', hmakes, halone'⟩ := callWithin_makes _ hempty
      obtain rfl : a' = a := Addition.eq_of_alone_eq (halone'.trans halone.symm)
      exact ⟨a', hadds, d, hfind, hmakes⟩

theorem exists_pieceAdds_of_run {w : World Builtin} : ∀ {pieces : List Piece} {s s' : Session},
    w.run {} Builtin.library pieces s = (.ok (), s') → ∃ adds, List.Forall₂ w.PieceAdds pieces adds
  | [], _, _, _ => ⟨[], .nil⟩
  | p :: rest, s, s', h => by
      rw [World.run, runPieces_cons] at h
      obtain ⟨_, between, hp, hrest⟩ := exists_of_bind_eq_ok h
      obtain ⟨a, ha⟩ := exists_pieceAdds hp
      obtain ⟨adds, hadds⟩ := exists_pieceAdds_of_run hrest
      exact ⟨a :: adds, .cons ha hadds⟩

/-! ### Blocks and the runs behind them -/

/-- The inline content in front of all blocks, and each block with the run behind it. -/
def groups : List Addition → List Inline × List (Block × List Inline)
  | [] => ([], [])
  | .nothing :: rest => groups rest
  | .inline i :: rest => (i :: (groups rest).1, (groups rest).2)
  | .block b :: rest => ([], (b, (groups rest).1) :: (groups rest).2)

/-- Drains a run into blocks, if there is a run. -/
def place (run : List Inline) (bs : List Block) : Except BuildError (List Block) :=
  if run = [] then .ok bs else (absorbBlocks run bs).map Prod.fst

theorem place_nil (bs : List Block) : place [] bs = .ok bs := if_pos rfl

theorem place_append {run : List Inline} {bs : List Block} (hne : bs ≠ []) (front : List Block) :
    place run (front ++ bs) = (place run bs).map (front ++ ·) := by
  unfold place
  split
  · rfl
  · rw [absorbBlocks_append run hne]
    cases absorbBlocks run bs <;> rfl

/-- Each block, with the run behind it drained into it, comes to one of the parts. -/
abbrev AllPlaced : List (Block × List Inline) → List (List Block) → Prop :=
  List.Forall₂ fun group part => place group.2 [group.1] = .ok part

/-- A run behind blocks goes no further than the last of them. -/
theorem exists_place_append_iff {run : List Inline} {bs blocks : List Block} {value : Block}
    {gs : List (Block × List Inline)} :
    (∃ front parts, place run (bs ++ [value]) = .ok front ∧ AllPlaced gs parts ∧
      blocks = front ++ parts.flatten) ↔
      ∃ parts, AllPlaced ((value, run) :: gs) parts ∧ blocks = bs ++ parts.flatten := by
  rw [place_append (List.cons_ne_nil _ _)]
  constructor
  · rintro ⟨front, parts, hfront, hparts, rfl⟩
    cases hplace : place run [value] with
    | error e =>
        rw [hplace] at hfront
        cases hfront
    | ok part =>
        rw [hplace] at hfront
        cases hfront
        refine ⟨part :: parts, .cons hplace hparts, ?_⟩
        rw [List.flatten_cons, List.append_assoc]
  · rintro ⟨parts, hparts, rfl⟩
    cases hparts with
    | @cons _ part _ parts hplace hrest =>
        refine ⟨bs ++ part, parts, ?_, hrest, ?_⟩
        · rw [hplace]
          rfl
        · rw [List.flatten_cons, List.append_assoc]

/-- A drain places the run that is pending. -/
theorem drain_place (s : Session) : ∃ last,
    Build.drain s = match place s.builder.pending s.builder.blocks with
      | .ok bs => (.ok (), ⟨⟨s.builder.metadata, bs, []⟩, last⟩)
      | .error e => (.error (.build e), ⟨⟨s.builder.metadata, s.builder.blocks, []⟩, last⟩) := by
  by_cases hnil : s.builder.pending = []
  · refine ⟨s.log, ?_⟩
    rw [drain_of_pending_nil hnil, hnil, place_nil]
    obtain ⟨⟨metadata, blocks, pending⟩, log⟩ := s
    cases hnil
    rfl
  · unfold place
    rw [if_neg hnil]
    cases hdrain : absorbBlocks s.builder.pending s.builder.blocks with
    | error e => exact ⟨s.log, drain_of_absorb_error hnil hdrain⟩
    | ok drained => exact ⟨s.log ++ drained.2, drain_of_absorb_ok hnil hdrain⟩

/-- Evaluates pieces to blocks. -/
def World.intoBlocks (w : World Builtin) (pieces : List Piece) : Eval (List Block) := do
  w.run {} Builtin.library pieces
  Eval.ofBuild Build.intoBlocks

theorem World.intoBlocks_cons (w : World Builtin) (p : Piece) (rest : List Piece) (s : Session) :
    w.intoBlocks (p :: rest) s = match runPiece (w.call {} Builtin.library) p s with
      | (.ok _, s') => w.intoBlocks rest s'
      | (.error e, s') => (.error e, s') := by
  rw [World.intoBlocks, bind_run, World.run, runPieces_cons, bind_run]
  rcases runPiece (w.call {} Builtin.library) p s with ⟨e | u, s'⟩
  · rfl
  · dsimp only
    rw [World.intoBlocks, bind_run]
    rfl

/-- **The blocks that pieces come to, by what each of them adds.** -/
theorem intoBlocks_eq_ok_iff {w : World Builtin} {pieces : List Piece} {adds : List Addition}
    (h : List.Forall₂ w.PieceAdds pieces adds) : ∀ {s : Session} {blocks : List Block},
    (∃ s', w.intoBlocks pieces s = (.ok blocks, s')) ↔ ∃ front parts,
      place (s.builder.pending ++ (groups adds).1) s.builder.blocks = .ok front ∧
        AllPlaced (groups adds).2 parts ∧ blocks = front ++ parts.flatten := by
  induction h with
  | nil =>
      intro s blocks
      obtain ⟨last, hdrain⟩ := drain_place s
      have hrun : w.intoBlocks [] s = Eval.ofBuild Build.intoBlocks s := rfl
      rw [hrun, Eval.ofBuild, adapt_run, Build.intoBlocks, bind_run, hdrain, groups,
        List.append_nil]
      cases place s.builder.pending s.builder.blocks with
      | error e =>
          refine iff_of_false ?_ ?_
          · rintro ⟨s', hs'⟩
            cases hs'
          · rintro ⟨front, parts, hfront, -⟩
            cases hfront
      | ok bs =>
          constructor
          · rintro ⟨s', hs'⟩
            cases hs'
            exact ⟨bs, [], rfl, .nil, (List.append_nil _).symm⟩
          · rintro ⟨front, parts, hfront, hparts, rfl⟩
            cases hfront
            cases hparts
            rw [List.flatten_nil, List.append_nil]
            exact ⟨_, rfl⟩
  | @cons p a pieces adds hp _ ih =>
      intro s blocks
      obtain ⟨metadata, last, f, hrun⟩ := hp.adds s.builder s.log
      rw [w.intoBlocks_cons, hrun]
      cases a with
      | nothing => exact ih
      | inline i =>
          rw [groups, List.append_cons]
          exact ih
      | block value =>
          -- The run in front is placed, and the run behind goes no further than the block.
          obtain ⟨told, hdrain⟩ := drain_place ⟨{ s.builder with metadata }, last⟩
          rw [Addition.perform, adapt_run, pushBlock_run, hdrain, groups, List.append_nil]
          dsimp only
          cases place s.builder.pending s.builder.blocks with
          | error e =>
              refine iff_of_false ?_ ?_
              · rintro ⟨s', hs'⟩
                cases hs'
              · rintro ⟨front, parts, hfront, -⟩
                cases hfront
          | ok bs =>
              refine ih.trans ?_
              rw [List.nil_append, exists_place_append_iff]
              constructor
              · rintro ⟨parts, hparts, rfl⟩
                exact ⟨bs, parts, rfl, hparts, rfl⟩
              · rintro ⟨front, parts, hfront, hparts, rfl⟩
                cases hfront
                exact ⟨parts, hparts, rfl⟩

end Markup
