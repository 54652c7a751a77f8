import Markup.Proofs.Eval.Comparison

/-! # Evaluation with shared scopes

In evaluation a scope is a value that is handed from call to call, so that no call can change what
another one sees.  Here scopes are kept the other way: in one table that all calls share.  A call
knows its scope by number and looks names up in the table as it is at that moment
(`World.callShared`).  A command that brings names along adds an empty scope to the table, binds the
names in it one after the other (`ScopeTable.enter`), and leaves it there, so that what a call finds
might depend on all that was run before it, inside the calls around it or beside them.  Every call
that is tried is noted, with the table that it finds (`Visit`).

`evaluateShared_eq` says that it does not: a run with shared scopes does what the run with scopes
as values does.  What holds of the first scope, and is passed on by calls to the scopes of their
arguments, holds at every call that the run has noted.  No scope is ever changed once its names are
bound.  The proof goes along the run: `Mirrors` says of two steps that one does in the table what
the other does with values, and that it keeps all scopes that were there before. -/

namespace Markup

variable {κ : Type}

/-! ### Tables -/

/-- A name that is new is bound behind the others. -/
theorem Frame.bind_of_notMem {name : String} (d : Definition κ) :
    ∀ {frame : Frame κ}, name ∉ frame.map Prod.fst → frame.bind name d = frame ++ [(name, d)]
  | [], _ => rfl
  | (n, old) :: rest, h => by
      rw [List.map_cons, List.mem_cons, not_or] at h
      rw [Frame.bind, if_neg (Ne.symm h.1), Frame.bind_of_notMem d h.2]
      rfl

namespace ScopeTable

/-- Binds names in a scope, one after the other. -/
def bindAll (t : ScopeTable κ) (i : Nat) (frame : Frame κ) : ScopeTable κ :=
  frame.foldl (fun t (name, d) => t.bind i name d) t

/-- A scope for the arguments of a command: a new one inside scope `i` where the names that the
command brings along are bound, or scope `i` itself. -/
def enter (t : ScopeTable κ) (i : Nat) : Option (Frame κ) → ScopeTable κ × Nat
  | none => (t, i)
  | some frame => ((t.add [] (some i)).bindAll t.length frame, t.length)

/-- Every scope lies inside one of lower number. -/
def Nested (t : ScopeTable κ) : Prop :=
  ∀ (i : Nat) (e : ScopeEntry κ), t[i]? = some e → ∀ p, e.parent = some p → p < i

section tables

variable {t t' t'' : ScopeTable κ} {i : Nat}

/-- A chain is as long as it is, however many steps are allowed. -/
theorem Nested.chain_eq (h : t.Nested) {steps : Nat} (hi : i < steps) :
    t.chain steps (some i) = t.get i := by
  induction i using Nat.strongRecOn generalizing steps with
  | _ i ih =>
      cases steps with
      | zero => omega
      | succ steps =>
          rw [get, chain, chain]
          cases he : t[i]? with
          | none => rfl
          | some e =>
              dsimp only
              cases hp : e.parent with
              | none => rw [chain, chain]
              | some p =>
                  have hlt := h i e he p hp
                  rw [ih p hlt hlt, ih p hlt (by omega)]

/-- A scope begins with its own names, and goes on with the scope around it. -/
theorem Nested.get_eq (h : t.Nested) {e : ScopeEntry κ} {p : Nat} (he : t[i]? = some e)
    (hp : e.parent = some p) : t.get i = (t.get p).inside e.frame := by
  rw [get, chain, he]
  dsimp only
  rw [hp, h.chain_eq (h i e he p hp)]
  rfl

/-- Scopes that are added later change no chain. -/
theorem Nested.chain_append (h : t.Nested) (more : ScopeTable κ) (steps : Nat) :
    ∀ {i : Nat}, i < t.length → (t ++ more).chain steps (some i) = t.chain steps (some i) := by
  induction steps with
  | zero => intro i _; rw [chain, chain]
  | succ steps ih =>
      intro i hi
      rw [chain, chain, List.getElem?_append_left hi]
      cases he : t[i]? with
      | none => rfl
      | some e =>
          dsimp only
          cases hp : e.parent with
          | none => rw [chain, chain]
          | some p => rw [ih (Nat.lt_trans (h i e he p hp) hi)]

theorem Nested.add (h : t.Nested) (hi : i < t.length) (frame : Frame κ) :
    Nested (t.add frame (some i)) := by
  intro j e he p hp
  rw [ScopeTable.add] at he
  rcases Nat.lt_or_ge j t.length with hj | hj
  · rw [List.getElem?_append_left hj] at he
    exact h j e he p hp
  · rw [List.getElem?_append_right hj] at he
    obtain ⟨hzero, rfl⟩ : j - t.length = 0 ∧ ⟨frame, some i⟩ = e := by
      cases hsub : j - t.length with
      | zero =>
          rw [hsub] at he
          exact ⟨rfl, Option.some.inj he⟩
      | succ n =>
          rw [hsub] at he
          cases he
    cases hp
    omega

/-- Binding a name in the last scope binds it in its frame. -/
theorem bind_add (t : ScopeTable κ) (frame : Frame κ) (parent : Option Nat) (name : String)
    (d : Definition κ) :
    (t.add frame parent).bind t.length name d = t.add (frame.bind name d) parent := by
  unfold ScopeTable.bind ScopeTable.add
  rw [List.modify_eq_set_getElem?, List.getElem?_concat_length]
  simp

/-- Names that are bound one after the other make up the frame that has them all. -/
theorem bindAll_add (t : ScopeTable κ) (parent : Option Nat) {new : Frame κ} :
    ∀ {frame : Frame κ}, ((frame ++ new).map Prod.fst).Nodup →
      (t.add frame parent).bindAll t.length new = t.add (frame ++ new) parent := by
  induction new with
  | nil =>
      intro frame _
      rw [List.append_nil]
      rfl
  | cons entry new ih =>
      intro frame hnames
      obtain ⟨name, d⟩ := entry
      have hfresh : name ∉ frame.map Prod.fst := by
        rw [List.map_append, List.map_cons] at hnames
        exact fun hmem => (List.nodup_append.mp hnames).2.2 name hmem name List.mem_cons_self rfl
      have hbind := (t.bind_add frame parent name d).trans
        (by rw [Frame.bind_of_notMem d hfresh])
      rw [List.append_cons] at hnames ⊢
      rw [← ih hnames, ← hbind]
      rfl

theorem enter_some (t : ScopeTable κ) (i : Nat) {frame : Frame κ}
    (hnames : (frame.map Prod.fst).Nodup) :
    t.enter i (some frame) = (t.add frame (some i), t.length) := by
  have hbind : (t.add [] (some i)).bindAll t.length frame = t.add frame (some i) :=
    bindAll_add t (some i) hnames
  rw [enter, hbind]

/-- The second table has all scopes of the first as they were. -/
structure Keeps (t t' : ScopeTable κ) : Prop where
  nested : t'.Nested
  length : t.length ≤ t'.length
  get : ∀ i < t.length, t'.get i = t.get i

theorem Nested.keeps (h : t.Nested) : t.Keeps t := ⟨h, Nat.le_refl _, fun _ _ => rfl⟩

theorem Keeps.trans (h : t.Keeps t') (h' : t'.Keeps t'') : t.Keeps t'' where
  nested := h'.nested
  length := Nat.le_trans h.length h'.length
  get i hi := (h'.get i (Nat.lt_of_lt_of_le hi h.length)).trans (h.get i hi)

/-- What a command does to the table when it is entered: old scopes stay as they are, and the scope
of its arguments is the one that they would see. -/
theorem Nested.enter (h : t.Nested) (hi : i < t.length) {locals : Option (Frame κ)}
    (hnames : ∀ frame ∈ locals, (frame.map Prod.fst).Nodup) (w : World κ)
    (hscope : w.scope = t.get i) :
    t.Keeps (t.enter i locals).1 ∧ (t.enter i locals).2 < (t.enter i locals).1.length ∧
      (t.enter i locals).1.get (t.enter i locals).2 = (w.inner locals).scope := by
  cases locals with
  | none => exact ⟨h.keeps, hi, hscope.symm⟩
  | some frame =>
      have hadd := h.add hi frame
      have hold : ∀ j < t.length, (t.add frame (some i)).get j = t.get j :=
        fun j hj => h.chain_append _ _ hj
      have hentry : (t.add frame (some i))[t.length]? = some ⟨frame, some i⟩ := by
        simp [ScopeTable.add]
      have hget := hadd.get_eq hentry rfl
      rw [hold i hi, ← hscope] at hget
      rw [enter_some t i (hnames frame rfl)]
      refine ⟨⟨hadd, ?_, hold⟩, ?_, hget⟩
      · simp [ScopeTable.add]
      · simp [ScopeTable.add]

end tables

end ScopeTable

/-! ### Runs -/

/-- A call that was tried: the names of the calls around it, innermost first, the number of its
scope, and the table at that moment. -/
structure Visit (κ : Type) where
  call : Call
  active : List String
  scope : Nat
  table : ScopeTable κ

/-- A run with shared scopes. -/
structure Shared (κ : Type) where
  session : Session := {}
  table : ScopeTable κ
  visits : List (Visit κ) := []

/-- Evaluation steps that share a table of scopes. -/
abbrev SharedEval (κ : Type) := ExceptT Failure (StateM (Shared κ))

namespace SharedEval

variable {α : Type}

/-- A step that has nothing to do with scopes. -/
def lift (step : Eval α) : SharedEval κ α :=
  ExceptT.mk fun s =>
    let (outcome, session) := step.run s.session
    (outcome, { s with session })

theorem lift_run (step : Eval α) (s : Shared κ) :
    lift step s = ((step s.session).1, { s with session := (step s.session).2 }) := rfl

/-- A step on a builder of its own. -/
def nested (step : SharedEval κ α) : SharedEval κ α :=
  ExceptT.mk fun s =>
    let (outcome, after) := step.run { s with session := { s.session with builder := {} } }
    (outcome, { after with session := { after.session with builder := s.session.builder } })

/-- Notes that a call is tried. -/
def visit (i : Nat) (active : List String) (c : Call) : SharedEval κ Unit :=
  modify fun s => { s with visits := s.visits ++ [⟨c, active, i, s.table⟩] }

/-- Enters a command in the table. -/
def enter (i : Nat) (locals : Option (Frame κ)) : SharedEval κ Nat :=
  modifyGet fun s => ((s.table.enter i locals).2, { s with table := (s.table.enter i locals).1 })

/-- Evaluates pieces in turn, where `call` says what a call does. -/
def pieces (call : Call → SharedEval κ Unit) : List Piece → SharedEval κ Unit
  | [] => return
  | .text span :: rest => do
    lift (Eval.push (.span span))
    pieces call rest
  | .call c :: rest => do
    call c
    pieces call rest

variable (run : List Piece → SharedEval κ Unit)

/-- Evaluates content into the builder. -/
def force : DeferredContent → SharedEval κ Unit
  | .unevaluated pieces => run pieces
  | .evaluated blocks => lift (Eval.push (.seq (blocks.map Element.ofBlock)))

/-- Takes the steps of a command one after the other, with the arguments that are held. -/
def steps : Steps α → List Deferred → SharedEval κ α
  | .done a, _ => return a
  | .fail failure, _ => throw failure
  | .push e next, held => do
    lift (Eval.push e)
    steps next held
  | .setMetadata key value next, held => do
    lift (Eval.ofBuild (Build.setMetadata key value))
    steps next held
  | .force i next, held => do
    let (content, held) ← lift (useAt held i)
    force run content
    steps next held
  | .string i next, held => do
    let (content, held) ← lift (useAt held i)
    steps (next (← lift (Eval.ofCommand content.text))) held
  | .blocks i next, held => do
    let (content, held) ← lift (useAt held i)
    let blocks ← nested do
      force run content
      lift (Eval.ofBuild Build.intoBlocks)
    steps (next blocks) held
  | .inlines i next, held => do
    let (content, held) ← lift (useAt held i)
    let run ← nested do
      force run content
      lift (Eval.ofBuild Build.intoInlines)
    steps (next run) held

end SharedEval

namespace World

open SharedEval

/-- Runs a call in scope number `i` inside the calls `active`, where `levels` more calls may lie
inside each other; the scope of the world itself is not looked at. -/
def callShared (interpreter : Interpreter) (lib : Library κ) :
    Nat → Nat → List String → World κ → Call → SharedEval κ Unit
  | 0, i, active, w, c => do
    visit i active c
    lift (w.refuse interpreter c)
  | levels + 1, i, active, w, c => do
    visit i active c
    if interpreter.enters w.depth c then do
      let w := { w with scope := (← get).table.get i }
      let (_, command) ← lift (w.resolve lib c)
      let j ← enter i command.locals
      let inner := callShared interpreter lib levels j (c.name.fragment :: active)
        { w with depth := w.depth + 1 }
      ExceptT.adapt (w.settle c) <|
        if interpreter.runs w.depth c then steps (pieces inner) command.steps command.arguments
        else throw (.overflow .stack)
    else throw (.overflow .stack)

end World

/-- Evaluates pieces to a document, where scope number 0 is the one around all calls. -/
def evaluatePiecesShared (interpreter : Interpreter) (lib : Library κ) (w : World κ)
    (ps : List Piece) : SharedEval κ Document := do
  SharedEval.pieces (w.callShared interpreter lib (w.maxDepth - w.depth).toNat 0 []) ps
  SharedEval.lift interpreter.finish

/-- Evaluates a source to a document from a table of scopes, and tells what there was to tell; the
run is given back as it has ended. -/
def evaluateShared (interpreter : Interpreter) (lib : Library κ) (t : ScopeTable κ) (w : World κ) :
    (Except Error Document × List LogEntry) × Shared κ :=
  match readMarkup w.source w.source.span with
  | .error e => ((.error (.parse e), []), { table := t })
  | .ok ps =>
    let (outcome, after) := (evaluatePiecesShared interpreter lib w ps).run.run { table := t }
    ((outcome.mapError Failure.toError, after.session.log), after)

/-! ### Runs with tables and with values -/

/-- On every table that has kept the scopes of `t`, the first step does what the second does, and
keeps all scopes; what holds of the calls that were tried before holds of those that it tries. -/
def Mirrors (Good : Visit κ → Prop) (t : ScopeTable κ) {α : Type} (x : SharedEval κ α)
    (y : Eval α) : Prop :=
  ∀ s : Shared κ, t.Keeps s.table → (∀ v ∈ s.visits, Good v) →
    ∃ s', x s = ((y s.session).1, s') ∧ s'.session = (y s.session).2 ∧
      s.table.Keeps s'.table ∧ ∀ v ∈ s'.visits, Good v

namespace Mirrors

variable {Good : Visit κ → Prop} {t : ScopeTable κ} {α β : Type}

theorem lift (y : Eval α) : Mirrors Good t (SharedEval.lift y) y :=
  fun s hkeeps hvisits => ⟨{ s with session := (y s.session).2 }, rfl, rfl, hkeeps.nested.keeps,
    hvisits⟩

theorem pure (a : α) : Mirrors Good t (Pure.pure a) (Pure.pure a) := lift (Pure.pure a)

theorem throw (e : Failure) : Mirrors (α := α) Good t (MonadExcept.throw e) (MonadExcept.throw e) :=
  lift (MonadExcept.throw e)

theorem bind {x : SharedEval κ α} {y : Eval α} {f : α → SharedEval κ β} {g : α → Eval β}
    (h : Mirrors Good t x y) (hnext : ∀ a, Mirrors Good t (f a) (g a)) :
    Mirrors Good t (x >>= f) (y >>= g) := by
  intro s hkeeps hvisits
  obtain ⟨s₁, hrun, hsession, hkeeps₁, hvisits₁⟩ := h s hkeeps hvisits
  rw [bind_run, bind_run, hrun]
  rcases hy : y s.session with ⟨e | a, session⟩
  · rw [hy] at hsession
    exact ⟨s₁, rfl, hsession, hkeeps₁, hvisits₁⟩
  · rw [hy] at hsession
    obtain ⟨s₂, hrun₂, hsession₂, hkeeps₂, hvisits₂⟩ := hnext a s₁ (hkeeps.trans hkeeps₁) hvisits₁
    rw [hsession] at hrun₂ hsession₂
    exact ⟨s₂, hrun₂, hsession₂, hkeeps₁.trans hkeeps₂, hvisits₂⟩

theorem adapt {x : SharedEval κ α} {y : Eval α} (h : Mirrors Good t x y) (f : Failure → Failure) :
    Mirrors Good t (ExceptT.adapt f x) (ExceptT.adapt f y) := by
  intro s hkeeps hvisits
  obtain ⟨s₁, hrun, hsession, hkeeps₁, hvisits₁⟩ := h s hkeeps hvisits
  rw [adapt_run, adapt_run, hrun]
  rcases hy : y s.session with ⟨e | a, session⟩ <;> rw [hy] at hsession <;>
    exact ⟨s₁, rfl, hsession, hkeeps₁, hvisits₁⟩

theorem ite {x x' : SharedEval κ α} {y y' : Eval α} (h : Mirrors Good t x y) (p : Prop)
    [Decidable p] (h' : Mirrors Good t x' y') :
    Mirrors Good t (if p then x else x') (if p then y else y') := by
  split
  · exact h
  · exact h'

theorem nested {x : SharedEval κ α} {y : Eval α} (h : Mirrors Good t x y) :
    Mirrors Good t (SharedEval.nested x) (Eval.nested y) := by
  intro s hkeeps hvisits
  obtain ⟨s₁, hrun, hsession, hkeeps₁, hvisits₁⟩ :=
    h { s with session := { s.session with builder := {} } } hkeeps hvisits
  refine ⟨{ s₁ with session := { s₁.session with builder := s.session.builder } }, ?_, ?_,
    hkeeps₁, hvisits₁⟩
  · change (let (outcome, after) := x _; (outcome, _)) = _
    rw [hrun, nested_run]
  · rw [hsession, nested_run]

theorem run_eq {x : SharedEval κ α} {y : Eval α} (h : Mirrors Good t x y) (hnested : t.Nested) :
    ∃ s', x { table := t } = ((y {}).1, s') ∧ s'.session = (y {}).2 ∧ t.Keeps s'.table ∧
      ∀ v ∈ s'.visits, Good v :=
  h { table := t } hnested.keeps fun _ hv => (List.not_mem_nil hv).elim

section runs

variable {call : Call → SharedEval κ Unit} {call' : Call → Eval Unit}

theorem pieces (h : ∀ c, Mirrors Good t (call c) (call' c)) :
    ∀ ps : List Piece, Mirrors Good t (SharedEval.pieces call ps) (runPieces call' ps)
  | [] => pure ()
  | .text span :: rest => (lift (Eval.push (.span span))).bind fun _ => pieces h rest
  | .call c :: rest => (h c).bind fun _ => pieces h rest

variable {run : List Piece → SharedEval κ Unit} {run' : Runner}

theorem force (h : ∀ ps, Mirrors Good t (run ps) (run' ps)) :
    ∀ content : DeferredContent, Mirrors Good t (SharedEval.force run content) (content.force run')
  | .unevaluated ps => h ps
  | .evaluated blocks => lift (Eval.push (.seq (blocks.map Element.ofBlock)))

theorem steps (h : ∀ ps, Mirrors Good t (run ps) (run' ps)) (todo : Steps α) :
    ∀ held : List Deferred,
      Mirrors Good t (SharedEval.steps run todo held) (todo.run run' held) := by
  induction todo with
  | done a => exact fun _ => pure a
  | fail failure => exact fun _ => throw failure
  | push e next ih => exact fun held => (lift (Eval.push e)).bind fun _ => ih held
  | setMetadata key value next ih => exact fun held => (lift _).bind fun _ => ih held
  | force i next ih =>
      exact fun held => (lift (useAt held i)).bind fun p => (force h p.1).bind fun _ => ih p.2
  | string i next ih =>
      exact fun held => (lift (useAt held i)).bind fun p =>
        (lift (Eval.ofCommand p.1.text)).bind fun text => ih text p.2
  | blocks i next ih =>
      exact fun held => (lift (useAt held i)).bind fun p =>
        (nested ((force h p.1).bind fun _ => lift _)).bind fun bs => ih bs p.2
  | inlines i next ih =>
      exact fun held => (lift (useAt held i)).bind fun p =>
        (nested ((force h p.1).bind fun _ => lift _)).bind fun is => ih is p.2

end runs

end Mirrors

/-! ### Calls -/

namespace World

variable {interpreter : Interpreter} {lib : Library κ}

theorem resolve_lift (w : World κ) (c : Call) (s : Shared κ) :
    SharedEval.lift (w.resolve lib c) s =
      (w.looked lib c,
        { s with session := { s.session with log := s.session.log ++ w.tells c } }) := by
  rw [SharedEval.lift_run, resolve_run]

/-- A call that passes the limit, run with shared scopes. -/
theorem callShared_run (levels i : Nat) (active : List String) (w : World κ) (c : Call)
    (s : Shared κ) :
    callShared interpreter lib (levels + 1) i active w c s =
      if interpreter.enters w.depth c then
        match { w with scope := s.table.get i }.looked lib c with
        | .error e => (.error e, { s with
            session.log := s.session.log ++ { w with scope := s.table.get i }.tells c
            visits := s.visits ++ [⟨c, active, i, s.table⟩] })
        | .ok (_, command) => ExceptT.adapt (w.settle c)
            (if interpreter.runs w.depth c then
              SharedEval.steps (SharedEval.pieces (callShared interpreter lib levels
                  (s.table.enter i command.locals).2 (c.name.fragment :: active)
                  { w with scope := s.table.get i, depth := w.depth + 1 }))
                command.steps command.arguments
            else throw (.overflow .stack))
            { session := { s.session with
                log := s.session.log ++ { w with scope := s.table.get i }.tells c }
              table := (s.table.enter i command.locals).1
              visits := s.visits ++ [⟨c, active, i, s.table⟩] }
      else (.error (.overflow .stack),
        { s with visits := s.visits ++ [⟨c, active, i, s.table⟩] }) := by
  rw [callShared, bind_run]
  change (if _ then _ else _ : SharedEval κ Unit) _ = _
  split
  · rw [bind_run]
    change (SharedEval.lift (resolve lib { w with scope := s.table.get i } c) >>= _) _ = _
    rw [bind_run, resolve_lift]
    cases { w with scope := s.table.get i }.looked lib c <;> rfl
  · rfl

/-- What a call passes on to the calls inside it, whose names it must bind once each. -/
def PassesOn (lib : Library κ) (Holds : List String → Scope κ → Prop) : Prop :=
  ∀ {active : List String} {w : World κ} {c : Call} {d : Definition κ} {command : Command κ},
    Holds active w.scope → w.looked lib c = .ok (d, command) →
      (∀ frame ∈ command.locals, (frame.map Prod.fst).Nodup) ∧
      Holds (c.name.fragment :: active) (w.inner command.locals).scope

/-- A call finds what it should, and the first scope as it was. -/
def Finds (Holds : List String → Scope κ → Prop) (root : Scope κ) (v : Visit κ) : Prop :=
  Holds v.active (v.table.get v.scope) ∧ v.table.get 0 = root

variable {root : Scope κ} {Holds : List String → Scope κ → Prop}

theorem callShared_mirrors (interpreter : Interpreter) (hpass : PassesOn lib Holds) (levels : Nat)
    {t : ScopeTable κ} {i : Nat}
    {active : List String} (w : World κ) (c : Call) (hi : i < t.length) (hroot : t.get 0 = root)
    (hholds : Holds active (t.get i)) :
    Mirrors (Finds Holds root) t (w.callShared interpreter lib levels i active c)
      (callWithin interpreter lib levels { w with scope := t.get i } c) := by
  induction levels generalizing t i active w c with
  | zero =>
      intro s hkeeps hvisits
      have hfinds : Finds Holds root ⟨c, active, i, s.table⟩ :=
        ⟨by rwa [hkeeps.get i hi], by rwa [hkeeps.get 0 (Nat.zero_lt_of_lt hi)]⟩
      have hvisited : ∀ v ∈ s.visits ++ [⟨c, active, i, s.table⟩], Finds Holds root v :=
        List.forall_mem_append.mpr ⟨hvisits, List.forall_mem_singleton.mpr hfinds⟩
      exact Mirrors.lift _ { s with visits := s.visits ++ [_] } hkeeps hvisited
  | succ levels ih =>
      intro s hkeeps hvisits
      have hget := hkeeps.get i hi
      have hfinds : Finds Holds root ⟨c, active, i, s.table⟩ :=
        ⟨by rwa [hget], by rwa [hkeeps.get 0 (Nat.zero_lt_of_lt hi)]⟩
      have hvisited : ∀ v ∈ s.visits ++ [⟨c, active, i, s.table⟩], Finds Holds root v :=
        List.forall_mem_append.mpr ⟨hvisits, List.forall_mem_singleton.mpr hfinds⟩
      rw [callShared_run, callWithin_run, hget]
      split
      swap
      · exact ⟨_, rfl, rfl, hkeeps.nested.keeps, hvisited⟩
      cases hlooked : { w with scope := t.get i }.looked lib c with
      | error e => exact ⟨_, rfl, rfl, hkeeps.nested.keeps, hvisited⟩
      | ok found =>
          obtain ⟨d, command⟩ := found
          obtain ⟨hnames, hpassed⟩ := hpass hholds hlooked
          -- the scope that is entered is the one that a call inside would see
          obtain ⟨hentered, hj, hscope⟩ := hkeeps.nested.enter
            (Nat.lt_of_lt_of_le hi hkeeps.length) hnames { w with scope := t.get i } hget.symm
          have hroot' : (s.table.enter i command.locals).1.get 0 = root :=
            (hentered.get 0 (Nat.lt_of_lt_of_le (Nat.zero_lt_of_lt hi) hkeeps.length)).trans
              hfinds.2
          have hcall := fun c' => ih { w with scope := t.get i, depth := w.depth + 1 } c' hj hroot'
            (hscope.symm ▸ hpassed)
          rw [hscope] at hcall
          have hsteps := Mirrors.steps (Mirrors.pieces hcall) command.steps command.arguments
          obtain ⟨s', hrun, hsession, hkeeps', hvisits'⟩ :=
            ((hsteps.ite (interpreter.runs w.depth c) (.throw _)).adapt (w.settle c))
              ⟨_, (s.table.enter i command.locals).1, _⟩ hentered.nested.keeps hvisited
          exact ⟨s', hrun, hsession, hentered.trans hkeeps', hvisits'⟩

end World

/-- If what holds of the first scope is passed on by calls, it holds at every call that is tried,
and the evaluation with shared scopes is the one in that scope, which stays as it is. -/
theorem evaluateShared_eq {lib : Library κ} {t : ScopeTable κ}
    {Holds : List String → Scope κ → Prop} (hpass : World.PassesOn lib Holds)
    (interpreter : Interpreter) (w : World κ) (hnested : t.Nested) (hsize : 0 < t.length)
    (hholds : Holds [] (t.get 0)) :
    (evaluateShared interpreter lib t w).1 =
      evaluate lib { w with scope := t.get 0 } interpreter ∧
    t.Keeps (evaluateShared interpreter lib t w).2.table ∧
    ∀ v ∈ (evaluateShared interpreter lib t w).2.visits, World.Finds Holds (t.get 0) v := by
  unfold evaluateShared evaluate
  cases readMarkup w.source w.source.span with
  | error e => exact ⟨rfl, hnested.keeps, fun _ h => (List.not_mem_nil h).elim⟩
  | ok ps =>
      have hcall := fun c => World.callShared_mirrors interpreter hpass
        (w.maxDepth - w.depth).toNat w c hsize rfl hholds
      have hmirrors : Mirrors (World.Finds Holds (t.get 0)) t
          (evaluatePiecesShared interpreter lib w ps)
          (evaluatePieces interpreter lib { w with scope := t.get 0 } ps) :=
        (Mirrors.pieces hcall ps).bind fun _ => Mirrors.lift interpreter.finish
      obtain ⟨s', hrun, hsession, hkeeps, hvisits⟩ := hmirrors.run_eq hnested
      have hrun' : (evaluatePiecesShared interpreter lib w ps).run.run { table := t } = _ := hrun
      dsimp only
      rw [hrun']
      dsimp only
      rw [hsession]
      exact ⟨rfl, hkeeps, hvisits⟩

end Markup
