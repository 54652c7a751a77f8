import Markup.Proofs.Doc.Telling
import Markup.Proofs.Eval.Unlimited
import Markup.Proofs.Library.Evaluation
import Markup.Proofs.Library.Uniform

/-! # The limit on nesting

Evaluation ends without any limit on nesting, since the arguments of a call weigh less than the call
does, and so no call can be deeper than the text is long.  The limit only decides whether the
evaluation is cut off: if no call is deeper than the limit, the evaluation ends as it would without
one, and if some call is, it fails for that reason (`evaluateStandard_limit`).

Two comparisons carry the proof.  `sameWithin` compares runs that differ in their fuel and in what
is done at a cut, and finds them equal where the pieces are light enough.  `limitedTo` compares a
run without a limit and a run with one: `KeepsLimit` says of two steps that they do the same until
the first one tells of a call that is too deep, at which the second one fails. -/

namespace Markup

/-! ### Weights -/

theorem length_value_lt_argumentsWeight {a : Argument} : ∀ {args : List Argument}, a ∈ args →
    a.value.fragment.length + 2 ≤ argumentsWeight args
  | b :: rest, h => by
      rw [argumentsWeight]
      rcases List.mem_cons.mp h with rfl | hmem
      · omega
      · have hrest := length_value_lt_argumentsWeight hmem
        omega

/-- The arguments of a call are read to pieces that weigh less than the arguments. -/
theorem Comparison.invocations_of_found (C : Comparison) {w : World Builtin} {c : Call}
    (hpieces : ∀ ps, piecesWeight ps < argumentsWeight c.args → C.Pieces ps ps)
    {d : Definition Builtin} {i : Invocation Builtin}
    (h : w.found Builtin.library c = .ok (d, i)) : C.Invocations i i := by
  have hargs : ∀ mode, List.Forall₂ (C.ReadsAlike mode w.source w.source) c.args c.args := by
    intro mode
    refine List.forall₂_same.mpr fun a ha => ⟨rfl, fun ps hread => ⟨ps, hread, hpieces ps ?_⟩⟩
    have hweight := ArgMode.read_weight hread
    have hvalue := length_value_lt_argumentsWeight ha
    omega
  obtain ⟨i', hfound, hinvocations⟩ := C.found_invocations rfl rfl hargs h
  rw [h] at hfound
  cases hfound
  exact hinvocations

/-! ### Calls by their bodies -/

theorem callWithin_limited (levels : Nat) (w : World Builtin) (limit : Int) (c : Call) :
    World.callWithin {} Builtin.library (levels + 1) { w with maxDepth := limit } c =
      w.callBody Builtin.library c fun i =>
        World.callWithin {} Builtin.library levels { w.inner i.locals with maxDepth := limit } :=
  rfl

theorem callFreely_succ (cut : World Builtin → Call → Eval Unit) (fuel : Nat) (w : World Builtin)
    (c : Call) : World.callFreely Builtin.library cut (fuel + 1) w c = (do
      w.attempt c
      w.callBody Builtin.library c fun i =>
        World.callFreely Builtin.library cut fuel (w.inner i.locals)) := rfl

/-! ### Enough fuel -/

/-- Equal runs of pieces that weigh at most `weight`. -/
def sameWithin (weight : Nat) : Comparison where
  Pieces ps qs := ps = qs ∧ piecesWeight ps ≤ weight
  Inner x y := x = y
  Steps x y := x = y
  pure _ := rfl
  bind := by
    rintro _ _ x _ f g rfl hnext
    rw [funext hnext]
  fail _ := rfl
  pushInline _ := rfl
  pushBlock _ := rfl
  setMetadata _ _ := rfl
  string h := by rw [h.1]
  intoBlocks h := by rw [h]
  intoInlines h := by rw [h]

theorem runPieces_eq {weight : Nat} {call call' : Call → Eval Unit}
    (h : ∀ c : Call, argumentsWeight c.args < weight → call c = call' c) :
    ∀ {pieces : List Piece}, piecesWeight pieces ≤ weight →
      runPieces call pieces = runPieces call' pieces
  | [], _ => rfl
  | .text span :: rest, hweight => by
      rw [piecesWeight] at hweight
      rw [runPieces, runPieces, runPieces_eq h (by omega)]
  | .call c :: rest, hweight => by
      rw [piecesWeight] at hweight
      rw [runPieces, runPieces, h c (by omega), runPieces_eq h (by omega)]

theorem callBody_eq {weight : Nat} {w : World Builtin} {c : Call}
    (hweight : argumentsWeight c.args ≤ weight) {call call' : Invocation Builtin → Call → Eval Unit}
    (h : ∀ i c, argumentsWeight c.args < weight → call i c = call' i c) :
    w.callBody Builtin.library c call = w.callBody Builtin.library c call' := by
  funext s
  rw [World.callBody_run, World.callBody_run]
  cases hfound : w.found Builtin.library c with
  | error e => rfl
  | ok found =>
      obtain ⟨d, i⟩ := found
      have hinvocations : (sameWithin weight).Invocations i i := by
        refine Comparison.invocations_of_found (sameWithin weight) (fun ps hps => ?_) hfound
        exact ⟨rfl, by omega⟩
      have hrun : (sameWithin weight).Runners (runPieces (call i)) (runPieces (call' i)) := by
        rintro ps _ ⟨rfl, hps⟩
        exact runPieces_eq (h i) hps
      have hbody : i.body _ = i.body _ := hinvocations.2 _ _ hrun
      dsimp only
      rw [hbody]

/-- With fuel for its weight, a call does not come to a cut. -/
theorem callFreely_eq {cut cut' : World Builtin → Call → Eval Unit} :
    ∀ {weight fuel fuel' : Nat} {w : World Builtin} {c : Call}, argumentsWeight c.args < weight →
      weight ≤ fuel → weight ≤ fuel' →
        w.callFreely Builtin.library cut fuel c = w.callFreely Builtin.library cut' fuel' c
  | weight + 1, fuel + 1, fuel' + 1, w, c, hweight, hfuel, hfuel' => by
      rw [callFreely_succ, callFreely_succ]
      rw [callBody_eq (Nat.le_of_lt_succ hweight)]
      intro i c hc
      exact callFreely_eq hc (Nat.le_of_succ_le_succ hfuel) (Nat.le_of_succ_le_succ hfuel')

/-! ### Runs with a limit and without -/

theorem Discards.deepest_eq {told : List LogEntry} (h : Discards told) : deepest told = 0 := by
  induction told with
  | nil => rfl
  | cons e told ih =>
      obtain ⟨count, rfl⟩ := h e List.mem_cons_self
      have hrest := ih fun e he => h e (List.mem_cons_of_mem _ he)
      rw [deepest_cons, hrest]
      rfl

/-- The second step does what the first one does, unless that tells of a call deeper than `limit`:
then it fails for that reason.  The first step tells of no call deeper than `most`. -/
def KeepsLimit (limit most : Nat) {α : Type} (x y : Eval α) : Prop :=
  ∀ b log log', ∃ outcome after told, x ⟨b, log⟩ = (outcome, ⟨after, log ++ told⟩) ∧
    deepest told ≤ most ∧
    (deepest told ≤ limit → ∃ last, y ⟨b, log'⟩ = (outcome, ⟨after, last⟩)) ∧
    (limit < deepest told → ∃ e s, y ⟨b, log'⟩ = (.error (.command e), s) ∧
      e.cause = .nesting (.deeperThan limit))

namespace KeepsLimit

variable {limit most : Nat} {α β : Type}

/-- A step that tells of no call, and whose doing does not depend on the log. -/
theorem of_eq {x : Eval α} (h : ∀ b, ∃ outcome after told, deepest told = 0 ∧
    ∀ log, x ⟨b, log⟩ = (outcome, ⟨after, log ++ told⟩)) : KeepsLimit limit most x x := by
  intro b log log'
  obtain ⟨outcome, after, told, htold, hrun⟩ := h b
  refine ⟨outcome, after, told, hrun log, by omega, fun _ => ⟨_, hrun log'⟩, ?_⟩
  intro hlimit
  omega

theorem pure (a : α) : KeepsLimit limit most (Pure.pure a) (Pure.pure a) :=
  of_eq fun b => ⟨.ok a, b, [], rfl, fun log => by rw [List.append_nil]; rfl⟩

theorem throw (f : Failure) :
    KeepsLimit limit most (MonadExcept.throw f : Eval α) (MonadExcept.throw f) :=
  of_eq fun b => ⟨.error f, b, [], rfl, fun log => by rw [List.append_nil]; rfl⟩

/-- A step of the builder. -/
theorem ofBuild {step : Build α} (h : step.Quiet) :
    KeepsLimit limit most (Eval.ofBuild step) (Eval.ofBuild step) := by
  refine of_eq fun b => ?_
  obtain ⟨outcome, after, told, htold, hrun⟩ := h b
  cases outcome with
  | ok a =>
      refine ⟨.ok a, after, told, htold.deepest_eq, fun log => ?_⟩
      rw [Eval.ofBuild, adapt_run, hrun]
  | error e =>
      refine ⟨.error (.ofBuild e), after, told, htold.deepest_eq, fun log => ?_⟩
      rw [Eval.ofBuild, adapt_run, hrun]

theorem bind {x y : Eval α} {f g : α → Eval β} (h : KeepsLimit limit most x y)
    (hnext : ∀ a s s', x s = (.ok a, s') → KeepsLimit limit most (f a) (g a)) :
    KeepsLimit limit most (x >>= f) (y >>= g) := by
  intro b log log'
  obtain ⟨outcome, after, told, hrun, hmost, hsame, hfail⟩ := h b log log'
  cases outcome with
  | error e =>
      refine ⟨.error e, after, told, by rw [bind_run, hrun], hmost, ?_, ?_⟩
      · intro hlimit
        obtain ⟨last, hlast⟩ := hsame hlimit
        exact ⟨last, by rw [bind_run, hlast]⟩
      · intro hlimit
        obtain ⟨e, s, hstop, hcause⟩ := hfail hlimit
        exact ⟨e, s, by rw [bind_run, hstop], hcause⟩
  | ok a =>
      obtain ⟨outcome, after', more, hrun', hmost', hsame', hfail'⟩ :=
        hnext a _ _ hrun after (log ++ told) (y ⟨b, log'⟩).2.log
      refine ⟨outcome, after', told ++ more, ?_, ?_, ?_, ?_⟩
      · rw [bind_run, hrun]
        dsimp only
        rw [hrun', List.append_assoc]
      · rw [deepest_append]
        omega
      · intro hboth
        rw [deepest_append] at hboth
        obtain ⟨last, hlast⟩ := hsame (by omega)
        rw [hlast] at hsame'
        rw [bind_run, hlast]
        exact hsame' (by omega)
      · intro hboth
        rw [deepest_append] at hboth
        -- The call that is too deep may be in the first step or in the next.
        by_cases hlimit : deepest told ≤ limit
        · obtain ⟨last, hlast⟩ := hsame hlimit
          rw [hlast] at hfail'
          rw [bind_run, hlast]
          exact hfail' (by omega)
        · obtain ⟨e, s, hstop, hcause⟩ := hfail (by omega)
          exact ⟨e, s, by rw [bind_run, hstop], hcause⟩

theorem adapt {x y : Eval α} {f : Failure → Failure} (h : KeepsLimit limit most x y)
    (hf : ∀ e, ∃ e', f (.command e) = .command e' ∧ e'.cause = e.cause) :
    KeepsLimit limit most (ExceptT.adapt f x) (ExceptT.adapt f y) := by
  intro b log log'
  obtain ⟨outcome, after, told, hrun, hmost, hsame, hfail⟩ := h b log log'
  refine ⟨outcome.mapError f, after, told, ?_, hmost, ?_, ?_⟩
  · rw [adapt_run, hrun]
    cases outcome <;> rfl
  · intro hlimit
    obtain ⟨last, hlast⟩ := hsame hlimit
    refine ⟨last, ?_⟩
    rw [adapt_run, hlast]
    cases outcome <;> rfl
  · intro hlimit
    obtain ⟨e, s, hstop, hcause⟩ := hfail hlimit
    obtain ⟨e', hadapt, hcause'⟩ := hf e
    refine ⟨e', s, ?_, hcause'.trans hcause⟩
    rw [adapt_run, hstop]
    dsimp only
    rw [hadapt]

theorem nested {x y : Eval α} (h : KeepsLimit limit most x y) :
    KeepsLimit limit most (Eval.nested x) (Eval.nested y) := by
  intro b log log'
  obtain ⟨outcome, after, told, hrun, hmost, hsame, hfail⟩ := h {} log log'
  refine ⟨outcome, b, told, ?_, hmost, ?_, ?_⟩
  · rw [nested_run, hrun]
  · intro hlimit
    obtain ⟨last, hlast⟩ := hsame hlimit
    exact ⟨last, by rw [nested_run, hlast]⟩
  · intro hlimit
    obtain ⟨e, s, hstop, hcause⟩ := hfail hlimit
    exact ⟨e, { s with builder := b }, by rw [nested_run, hstop], hcause⟩

theorem string (t : Deferred) : KeepsLimit limit most t.string t.string := by
  unfold Deferred.string
  cases t.intoString.1 with
  | ok text => exact .pure text
  | error e => exact .throw _

end KeepsLimit

/-- Runs of pieces that weigh at most `weight`, without a limit and with one. -/
def limitedTo (limit most weight : Nat) : Comparison where
  Pieces ps qs := ps = qs ∧ piecesWeight ps ≤ weight
  Inner := KeepsLimit limit most
  Steps := KeepsLimit limit most
  pure := .pure
  bind h hnext := h.bind fun a _ _ _ => hnext a
  fail _ := .throw _
  pushInline _ := .ofBuild (Build.quiet_push _)
  pushBlock _ := .ofBuild (Build.quiet_push _)
  setMetadata _ _ := .ofBuild (Build.quiet_change _)
  string h := by
    obtain ⟨rfl, -⟩ := h
    exact .string _
  intoBlocks h := .nested (h.bind fun _ _ _ _ => .ofBuild Build.quiet_intoBlocks)
  intoInlines h := .nested (h.bind fun _ _ _ _ => .ofBuild Build.quiet_intoInlines)

theorem settle_cause {κ : Type} (w : World κ) (c : Call) (e : CommandError) :
    ∃ e', w.settle c (.command e) = .command e' ∧ e'.cause = e.cause :=
  ⟨_, rfl, rfl⟩

section calls

variable {limit most : Nat}

theorem runPieces_keepsLimit {weight : Nat} {call call' : Call → Eval Unit}
    (h : ∀ c : Call, argumentsWeight c.args < weight → KeepsLimit limit most (call c) (call' c)) :
    ∀ {pieces : List Piece}, piecesWeight pieces ≤ weight →
      KeepsLimit limit most (runPieces call pieces) (runPieces call' pieces)
  | [], _ => .pure ()
  | .text span :: rest, hweight => by
      rw [piecesWeight] at hweight
      have hpush : KeepsLimit limit most (Eval.push (.span span)) (Eval.push (.span span)) :=
        .ofBuild (Build.quiet_push _)
      exact hpush.bind fun _ _ _ _ => runPieces_keepsLimit h (by omega)
  | .call c :: rest, hweight => by
      rw [piecesWeight] at hweight
      exact (h c (by omega)).bind fun _ _ _ _ => runPieces_keepsLimit h (by omega)

/-- A call that is tried tells of its own depth before what it tells besides. -/
theorem attempt_run {w : World Builtin} {c : Call} {depth : Nat} (hdepth : w.depth = depth)
    {x : Eval Unit} {b after : Builder} {log told : List LogEntry} {outcome : Except Failure Unit}
    (h : x ⟨b, log ++ [.resolved c.name.fragment c.name.line w.depth]⟩ = (outcome,
      ⟨after, log ++ [.resolved c.name.fragment c.name.line w.depth] ++ told⟩)) :
    ∃ told', (do w.attempt c; x : Eval Unit) ⟨b, log⟩ = (outcome, ⟨after, log ++ told'⟩) ∧
      deepest told' = max (depth + 1) (deepest told) := by
  refine ⟨.resolved c.name.fragment c.name.line w.depth :: told, ?_, ?_⟩
  · rw [bind_run, World.attempt, tell_run]
    dsimp only
    rw [h, List.append_assoc, List.singleton_append]
  · rw [deepest_cons, hdepth]
    rfl

/-- A call within the limit. -/
theorem KeepsLimit.attempt {x y : Eval Unit} (h : KeepsLimit limit most x y) {w : World Builtin}
    {depth : Nat} (hdepth : w.depth = depth) (hlimit : depth < limit) (hmost : depth < most)
    (c : Call) : KeepsLimit limit most (do w.attempt c; x) y := by
  intro b log log'
  obtain ⟨outcome, after, told, hrun, hdeep, hsame, hfail⟩ := h b _ log'
  obtain ⟨told', hrun', hdeepest⟩ := attempt_run hdepth hrun
  refine ⟨outcome, after, told', hrun', by omega, ?_, ?_⟩
  · intro hle
    exact hsame (by omega)
  · intro hlt
    exact hfail (by omega)

/-- A call at the limit, which fails there whatever it would have done. -/
theorem KeepsLimit.attempt_atLimit {limit' : Nat} {x y : Eval Unit}
    (h : KeepsLimit limit' most x y) {w : World Builtin} (hdepth : w.depth = limit)
    (hmost : limit < most) (c : Call) : KeepsLimit limit most (do w.attempt c; x)
      (World.failAt w c (.nesting (.deeperThan limit))) := by
  intro b log log'
  obtain ⟨outcome, after, told, hrun, hdeep, -, -⟩ := h b _ log'
  obtain ⟨told', hrun', hdeepest⟩ := attempt_run hdepth hrun
  refine ⟨outcome, after, told', hrun', by omega, ?_, ?_⟩
  · intro hle
    omega
  · intro _
    exact ⟨_, _, rfl, rfl⟩

theorem callBody_keepsLimit (weight : Nat) {w : World Builtin} {c : Call} {depth : Nat}
    (hdepth : w.depth = depth) (hlimit : depth < limit) (hmost : depth < most)
    (hweight : argumentsWeight c.args ≤ weight) (call call' : Invocation Builtin → Call → Eval Unit)
    (h : ∀ i c, argumentsWeight c.args < weight → KeepsLimit limit most (call i c) (call' i c)) :
    KeepsLimit limit most (w.callBody Builtin.library c call)
      (w.callBody Builtin.library c call') := by
  have htells : deepest (w.tells c) ≤ depth + 1 := by
    unfold World.tells
    cases w.scope.find? c.name.fragment with
    | none => exact Nat.zero_le _
    | some d =>
        rw [deepest_cons, LogEntry.callDepth, hdepth, deepest_nil]
        omega
  have hresolve : KeepsLimit limit most (w.resolve Builtin.library c)
      (w.resolve Builtin.library c) := by
    intro b log log'
    refine ⟨w.looked Builtin.library c, b, w.tells c, World.resolve_run .., by omega,
      fun _ => ⟨_, World.resolve_run ..⟩, ?_⟩
    intro hdeep
    omega
  refine hresolve.bind ?_
  rintro ⟨d, command⟩ s s' hreturns
  rw [World.resolve_run] at hreturns
  have hlooked : w.looked Builtin.library c = .ok (d, command) := congrArg Prod.fst hreturns
  generalize hi : command.invocation = i
  have hfound : w.found Builtin.library c = .ok (d, i) := by
    rw [World.found, hlooked, ← hi]
    rfl
  have hinvocations : (limitedTo limit most weight).Invocations i i := by
    refine Comparison.invocations_of_found (limitedTo limit most weight) (fun ps hps => ?_) hfound
    exact ⟨rfl, by omega⟩
  have hrun : (limitedTo limit most weight).Runners (runPieces (call i)) (runPieces (call' i)) := by
    rintro ps _ ⟨rfl, hps⟩
    exact runPieces_keepsLimit (h i) hps
  have hbody : KeepsLimit limit most (i.body _) (i.body _) := hinvocations.2 _ _ hrun
  subst hi
  exact hbody.adapt (settle_cause w c)

/-- A call without a limit and with one.  The induction is on the fuel of the first; the second has
as many levels left as its depth is below the limit. -/
theorem callFreely_keepsLimit (cut : World Builtin → Call → Eval Unit) :
    ∀ {fuel levels depth limit : Nat} {w : World Builtin} {c : Call},
      argumentsWeight c.args < fuel → w.depth = depth → depth + levels = limit →
        depth + fuel ≤ most → KeepsLimit limit most (w.callFreely Builtin.library cut fuel c)
          (World.callWithin {} Builtin.library levels { w with maxDepth := limit } c)
  | fuel + 1, levels, depth, limit, w, c, hweight, hdepth, hlimit, hmost => by
      -- With a level left, both look the call up and run its body.
      have hbody : ∀ levels limit : Nat, depth + (levels + 1) = limit →
          KeepsLimit limit most
            (w.callBody Builtin.library c fun i =>
              World.callFreely Builtin.library cut fuel (w.inner i.locals))
            (World.callWithin {} Builtin.library (levels + 1) { w with maxDepth := limit } c) := by
        intro levels limit hlevels
        rw [callWithin_limited]
        refine callBody_keepsLimit fuel hdepth (by omega) (by omega) (by omega) _ _ ?_
        intro i c hc
        have hinner : (w.inner i.locals).depth = (depth + 1 : Nat) := by
          change w.depth + 1 = _
          rw [hdepth]
          rfl
        exact callFreely_keepsLimit cut hc hinner (by omega) (by omega)
      rw [callFreely_succ]
      cases levels with
      | succ levels => exact (hbody levels limit hlimit).attempt hdepth (by omega) (by omega) c
      | zero =>
          have hatLimit : w.depth = limit := by
            rw [hdepth, ← hlimit, Nat.add_zero]
          exact (hbody 0 (depth + 1) rfl).attempt_atLimit hatLimit (by omega) c

end calls

/-! ### Documents -/

theorem evaluatePiecesFreely_keepsLimit (limit : Nat) (cut : World Builtin → Call → Eval Unit)
    (source : Source) {pieces : List Piece} {fuel : Nat} (hweight : piecesWeight pieces ≤ fuel) :
    KeepsLimit limit fuel
      (evaluatePiecesFreely Builtin.library cut fuel (standardWorld source defaultMaxDepth) pieces)
      (evaluatePieces {} Builtin.library (standardWorld source limit) pieces) := by
  have hcall : ∀ c : Call, argumentsWeight c.args < fuel →
      KeepsLimit limit fuel
        ((standardWorld source defaultMaxDepth).callFreely Builtin.library cut fuel c)
        ((standardWorld source limit).call {} Builtin.library c) := by
    intro c hc
    have hdepth : (standardWorld source defaultMaxDepth).depth = (0 : Nat) := rfl
    have hkeeps := callFreely_keepsLimit cut hc hdepth (Nat.zero_add limit)
      (Nat.le_of_eq (Nat.zero_add fuel))
    have hlevels : ((limit : Int) - 0).toNat = limit := by omega
    unfold World.call
    rw [show (standardWorld source limit).maxDepth - (standardWorld source limit).depth =
      (limit : Int) - 0 from rfl, hlevels]
    exact hkeeps
  refine (runPieces_keepsLimit hcall hweight).bind fun _ _ _ _ => ?_
  exact (KeepsLimit.ofBuild Build.quiet_intoDocument).adapt fun e => ⟨e, rfl, rfl⟩

theorem evaluatePiecesFreely_eq {cut cut' : World Builtin → Call → Eval Unit} {w : World Builtin}
    {pieces : List Piece} {fuel fuel' : Nat} (hfuel : piecesWeight pieces ≤ fuel)
    (hfuel' : piecesWeight pieces ≤ fuel') :
    evaluatePiecesFreely Builtin.library cut fuel w pieces =
      evaluatePiecesFreely Builtin.library cut' fuel' w pieces := by
  unfold evaluatePiecesFreely
  rw [runPieces_eq (fun c hc => callFreely_eq hc hfuel hfuel') (Nat.le_refl _)]

/-- The evaluation of a source without a limit, with as much fuel as its text is long. -/
def Source.freeRun (source : Source) : Except Error Document × List LogEntry :=
  evaluateFreely Builtin.library (fun _ _ => pure ()) source.text.length
    (standardWorld source defaultMaxDepth)

/-- A paragraph break counts, and so does a name that stands for nothing. -/
example : deepest (Source.freeRun ⟨"a\n\nb", defaultFilename, []⟩).2 = 1 ∧
    deepest (Source.freeRun ⟨"\\emph\x7b\\quote\x7b\\x\x7d\x7d", defaultFilename, []⟩).2 = 3 := by
  decide +kernel

/-- The length of the text is fuel enough. -/
theorem endsFreely_freeRun (source : Source) :
    EndsFreely Builtin.library (standardWorld source defaultMaxDepth) source.freeRun.1
      (deepest source.freeRun.2) := by
  refine ⟨source.text.length, source.freeRun.2, rfl, fun more cut => ?_⟩
  rw [Source.freeRun]
  cases hread : readMarkup source source.span with
  | error e =>
      rw [evaluateFreely_of_error (standardWorld source defaultMaxDepth) hread,
        evaluateFreely_of_error (standardWorld source defaultMaxDepth) hread]
  | ok pieces =>
      have hweight : piecesWeight pieces ≤ source.text.length := readMarkup_weight hread
      have hmore : piecesWeight pieces ≤ source.text.length + more := by omega
      rw [evaluateFreely_of_ok (standardWorld source defaultMaxDepth) hread,
        evaluateFreely_of_ok (standardWorld source defaultMaxDepth) hread,
        evaluatePiecesFreely_eq hmore hweight]

/-- No call is deeper than the text is long.  With a limit the evaluation ends as it does without
one, unless a call is deeper than the limit. -/
theorem freeRun_keepsLimit (source : Source) (limit : Nat) :
    deepest source.freeRun.2 ≤ source.text.length ∧
      (deepest source.freeRun.2 ≤ limit → (evaluateStandard source limit).1 = source.freeRun.1) ∧
      (limit < deepest source.freeRun.2 → ∃ e,
        (evaluateStandard source limit).1 = .error (.command e) ∧
          e.cause = .nesting (.deeperThan limit)) := by
  rw [Source.freeRun]
  cases hread : readMarkup source source.span with
  | error e =>
      rw [evaluateFreely_of_error (standardWorld source defaultMaxDepth) hread]
      refine ⟨Nat.zero_le _, fun _ => evaluateStandard_eq_of_error hread limit, ?_⟩
      intro hlimit
      exact absurd hlimit (Nat.not_lt_zero limit)
  | ok pieces =>
      have hweight : piecesWeight pieces ≤ source.text.length := readMarkup_weight hread
      obtain ⟨outcome, after, told, hrun, hdeep, hsame, hfail⟩ :=
        evaluatePiecesFreely_keepsLimit limit (fun _ _ => pure ()) source hweight {} [] []
      rw [evaluateFreely_of_ok (standardWorld source defaultMaxDepth) hread,
        evaluateStandard_eq hread, hrun]
      refine ⟨hdeep, fun hlimit => ?_, fun hlimit => ?_⟩
      · obtain ⟨last, hlast⟩ := hsame hlimit
        rw [hlast]
      · obtain ⟨e, s, hstop, hcause⟩ := hfail hlimit
        refine ⟨e, ?_, hcause⟩
        rw [hstop]
        rfl

/-- **The limit on nesting is exact.**  The evaluation of a source without a limit ends, with one
outcome and one greatest depth of a call, which is at most the length of the text.  Under a limit
the outcome is the same if the depth is within the limit, and else the failure is that of the
limit. -/
theorem evaluateStandard_limit (source : Source) :
    (∃ outcome depth,
      EndsFreely Builtin.library (standardWorld source defaultMaxDepth) outcome depth) ∧
    ∀ outcome depth,
      EndsFreely Builtin.library (standardWorld source defaultMaxDepth) outcome depth →
        depth ≤ source.text.length ∧ ∀ limit : Nat,
          (depth ≤ limit → (evaluateStandard source limit).1 = outcome) ∧
          (limit < depth → ∃ e, (evaluateStandard source limit).1 = .error (.command e) ∧
            e.cause = .nesting (.deeperThan limit)) := by
  have hfree := endsFreely_freeRun source
  refine ⟨⟨_, _, hfree⟩, fun outcome depth hends => ?_⟩
  obtain ⟨rfl, rfl⟩ := hfree.unique hends
  exact ⟨(freeRun_keepsLimit source 0).1, fun limit => (freeRun_keepsLimit source limit).2⟩

end Markup
