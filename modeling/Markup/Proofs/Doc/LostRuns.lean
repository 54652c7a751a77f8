import Markup.Proofs.Doc.FailedDrain

/-! # What a failed drain takes with it

A drain takes the pending run off before it looks for a place for it.  Where there is none, the
blocks stay as they are (`failed_drain_keeps_blocks`), but the run is gone: nothing is pending any
more, draining again succeeds, and the document has no trace of the run
(`Session.LosesRun`).  The same goes for a block that is pushed, which is then not added either.

Nothing else is ever lost.  Whatever steps are taken, however many of them fail, the session they
lead to is that of the acts that they come to with the lost runs and the refused blocks left out,
and none of these acts fails (`failed_drain_loses_run`).  What is left out is known only when a
drain fails, so the acts that are kept are collected from one drain to the next (`keptActs`). -/

namespace Markup

/-- The session without its pending run. -/
def Session.withoutRun (s : Session) : Session :=
  { s with builder := { s.builder with pending := [] } }

/-- A step has failed, has taken the pending run with it, and has done nothing else: the document is
what was there without the run. -/
structure Session.LosesRun (s after : Session) (f : BuildFailure) : Prop where
  reason : f = .build .emptyTermList
  run : s.builder.pending ≠ []
  gone : after = s.withoutRun
  again : Build.drain after = (.ok (), after)
  document : Build.intoDocument after = (.ok ⟨s.builder.metadata, s.builder.blocks⟩, after)

/-! ### A failed act -/

section failed

variable {s : Session} {f : BuildFailure}

theorem drain_withoutRun (s : Session) : Build.drain s.withoutRun = (.ok (), s.withoutRun) :=
  drain_of_pending_nil rfl

theorem intoDocument_withoutRun (s : Session) : Build.intoDocument s.withoutRun =
    (.ok ⟨s.builder.metadata, s.builder.blocks⟩, s.withoutRun) := by
  rw [Build.intoDocument, Build.intoBlocks, bind_run, bind_run, drain_withoutRun]
  rfl

theorem losesRun_of_failed_drain (h : (Build.drain s).1 = .error f) :
    s.LosesRun (Build.drain s).2 f := by
  obtain ⟨rfl, hrun, hends⟩ := drain_fails_iff.mp h
  have hdrain := (absorbBlocks_eq_error_iff_ends s.builder.pending _ _).mpr ⟨rfl, hends⟩
  have hafter : (Build.drain s).2 = s.withoutRun := by
    rw [drain_of_absorb_error hrun hdrain]
    rfl
  rw [hafter]
  exact ⟨rfl, hrun, rfl, drain_withoutRun s, intoDocument_withoutRun s⟩

/-- A block that is pushed is refused by the drain in front of it. -/
theorem pushBlock_of_failed_drain (value : Block) (h : (Build.drain s).1 = .error f) :
    Build.pushBlock value s = (.error f, (Build.drain s).2) := by
  rw [Build.pushBlock, bind_run]
  rcases hdrain : Build.drain s with ⟨e | u, s'⟩
  · rw [hdrain] at h
    cases h
    rfl
  · rw [hdrain] at h
    cases h

theorem losesRun_of_failed_pushBlock {value : Block} (h : (Build.pushBlock value s).1 = .error f) :
    s.LosesRun (Build.pushBlock value s).2 f := by
  have hdrain := (pushBlock_fails_iff value).mp h
  rw [pushBlock_of_failed_drain value hdrain]
  exact losesRun_of_failed_drain hdrain

/-- **A failed act takes the pending run with it**, and does nothing else. -/
theorem losesRun_of_failed_act {a : Act} (h : (a.perform s).1 = .error f) :
    s.LosesRun (a.perform s).2 f := by
  cases a with
  | inline value => cases h
  | block value => exact losesRun_of_failed_pushBlock h
  | drain => exact losesRun_of_failed_drain h

end failed

/-! ### What is left -/

/-- The acts that put a run where it is pending. -/
def runActs (run : List Inline) : List Act := run.map .inline

/-- What acts come to that start behind the run of the session: a run is kept where it is drained,
or where it is pending at the end, and left out where draining it fails, with the act that drained
it. -/
def keptActs : Session → List Act → List Act
  | s, [] => runActs s.builder.pending
  | s, .inline value :: acts => keptActs ((Act.inline value).perform s).2 acts
  | s, a :: acts =>
    match a.perform s with
    | (.ok _, s') => runActs s.builder.pending ++ a :: keptActs s' acts
    | (.error _, s') => keptActs s' acts

theorem performs_runActs : ∀ (run : List Inline) (s : Session), Performs s (runActs run)
    { s with builder := { s.builder with pending := s.builder.pending ++ run } }
  | [], s => by
      rw [List.append_nil]
      exact .nil
  | i :: run, s => by
      have hrest := performs_runActs run
        { s with builder := { s.builder with pending := s.builder.pending ++ [i] } }
      rw [List.append_assoc] at hrest
      exact .cons rfl hrest

/-- The pending run, pushed again. -/
theorem performs_pending (s : Session) : Performs s.withoutRun (runActs s.builder.pending) s :=
  performs_runActs s.builder.pending s.withoutRun

/-- Behind an act that drains nothing is pending, so what follows starts from there. -/
theorem withoutRun_of_perform {a : Act} {s s' : Session} (ha : ∀ value, a ≠ .inline value)
    (h : a.perform s = (.ok (), s')) : s'.withoutRun = s' := by
  have hpending : s'.builder.pending = [] := by
    cases a with
    | inline value => exact (ha value rfl).elim
    | drain => exact Build.pending_of_drain h
    | block value =>
        obtain ⟨drained, hdrain, rfl⟩ := exists_of_pushBlock h
        have hdrained : drained.builder.pending = [] := Build.pending_of_drain hdrain
        exact hdrained
  rw [Session.withoutRun, ← hpending]

/-- **One act**: what it leads to is led to by what is kept of it, without a failure. -/
theorem performs_keptActs_cons {a : Act} {acts : List Act} {s end' : Session}
    (ha : ∀ value, a ≠ .inline value)
    (hrest : Performs (a.perform s).2.withoutRun (keptActs (a.perform s).2 acts) end') :
    Performs s.withoutRun (keptActs s (a :: acts)) end' := by
  have hkept : keptActs s (a :: acts) = match a.perform s with
      | (.ok _, s') => runActs s.builder.pending ++ a :: keptActs s' acts
      | (.error _, s') => keptActs s' acts := by
    cases a with
    | inline value => exact (ha value rfl).elim
    | block value => rfl
    | drain => rfl
  rw [hkept]
  rcases hact : a.perform s with ⟨f | u, s'⟩
  -- Both ways the rest starts without a run: it was lost, or the act has placed it.
  · have hlost := losesRun_of_failed_act (a := a) (s := s) (f := f) (by rw [hact])
    have hafter : s' = s.withoutRun := by
      rw [← hlost.gone, hact]
    rw [hact, hafter] at hrest
    rw [hafter]
    exact hrest
  · rw [hact, withoutRun_of_perform ha hact] at hrest
    exact (performs_pending s).append (.cons hact hrest)

/-- **Any number of acts**, whether they fail or not. -/
theorem performs_keptActs : ∀ (acts : List Act) (s : Session),
    Performs s.withoutRun (keptActs s acts) (actsAfter s acts)
  | [], s => performs_pending s
  | .inline value :: acts, s => performs_keptActs acts ((Act.inline value).perform s).2
  | .block value :: acts, s =>
      performs_keptActs_cons (fun _ h => nomatch h)
        (performs_keptActs acts ((Act.block value).perform s).2)
  | .drain :: acts, s =>
      performs_keptActs_cons (fun _ h => nomatch h) (performs_keptActs acts (Act.drain.perform s).2)

/-- **A failed drain loses the pending run, and nothing else is lost.**  Where a drain or the push
of a block fails, the run is gone and nothing has been done; trying again succeeds, and the document
does not have the run.  Whatever steps are taken from a session, whether they fail or not, they lead
where the acts lead that are kept, from the session without its run and without a failure. -/
theorem failed_drain_loses_run (s : Session) :
    (∀ f, (Build.drain s).1 = .error f → s.LosesRun (Build.drain s).2 f) ∧
    (∀ value f, (Build.push (.block value) s).1 = .error f →
      s.LosesRun (Build.push (.block value) s).2 f) ∧
    ∀ steps : List BuildStep,
      Performs s.withoutRun (keptActs s (stepsActs s steps)) (stepsAfter s steps) := by
  refine ⟨fun f => losesRun_of_failed_drain, fun value f => ?_, fun steps => ?_⟩
  · rw [Build.push]
    exact losesRun_of_failed_pushBlock
  · rw [← actsAfter_stepsActs]
    exact performs_keptActs _ s

/-- Text behind a list of terms without any is lost to the push of a rule; with the text goes the
rule, and what is pushed behind them is kept. -/
theorem failed_drain_loses_run_rule :
    let s := stepsAfter {} [.push (.block (.termList [])), .push (.text "x")]
    s.LosesRun (Build.push (.block .rule) s).2 (.build .emptyTermList) ∧
      Performs s.withoutRun [.block .rule, .inline (.text "y")]
        (stepsAfter s [.push (.block .rule), .push (.block .rule), .push (.text "y")]) := by
  intro s
  obtain ⟨-, hpush, hsteps⟩ := failed_drain_loses_run s
  exact ⟨hpush .rule _ rfl, hsteps [.push (.block .rule), .push (.block .rule), .push (.text "y")]⟩

/-- The second drain of a run that finds no place is taken for a success, and the document comes out
without it. -/
theorem second_drain_is_silent :
    let s := stepsAfter {} [.push (.block (.termList [])), .push (.text "x")]
    let failed := (Build.drain s).2
    (Build.drain s).1 = .error (.build .emptyTermList) ∧ failed.builder.pending = [] ∧
      (Build.drain failed).1 = .ok () ∧
      (Build.intoDocument failed).1 = .ok ⟨[], [.termList []]⟩ ∧ failed.log = [] :=
  ⟨rfl, rfl, rfl, rfl, rfl⟩

end Markup
