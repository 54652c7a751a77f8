import Markup.Eval

/-! # What a step ensures

A step changes a state and either returns a value or fails.  `Ensures step s done failed` says
what comes of it from the state `s`: if it returns, `done` holds of the value and the state after
it, and if it fails, `failed` holds of the failure.  A chain of steps is taken apart at its first
step (`Ensures.bind`), and a step on a builder of its own at the builder (`Ensures.nested`). -/

namespace Markup

/-- From the state `s`, the step returns a value of which `done` holds, or fails with a failure of
which `failed` holds. -/
def Ensures {ε σ α : Type} (step : ExceptT ε (StateM σ) α) (s : σ) (done : α → σ → Prop)
    (failed : ε → Prop) : Prop :=
  match step s with
  | (.ok a, s') => done a s'
  | (.error e, _) => failed e

section steps

variable {ε ε' σ α β : Type} {s : σ} {step : ExceptT ε (StateM σ) α} {done : α → σ → Prop}
  {failed : ε → Prop}

theorem Ensures.pure {a : α} (h : done a s) :
    Ensures (Pure.pure a : ExceptT ε (StateM σ) α) s done failed := h

theorem Ensures.throw {e : ε} (h : failed e) :
    Ensures (MonadExcept.throw e : ExceptT ε (StateM σ) α) s done failed := h

theorem Ensures.get {done : σ → σ → Prop} (h : done s s) :
    Ensures (MonadState.get : ExceptT ε (StateM σ) σ) s done failed := h

theorem Ensures.modify {f : σ → σ} {done : Unit → σ → Prop} (h : done () (f s)) :
    Ensures (modifyThe σ f : ExceptT ε (StateM σ) Unit) s done failed := h

theorem Ensures.mono {done' : α → σ → Prop} {failed' : ε → Prop} (h : Ensures step s done failed)
    (hdone : ∀ a s', done a s' → done' a s') (hfailed : ∀ e, failed e → failed' e) :
    Ensures step s done' failed' := by
  unfold Ensures at h ⊢
  rcases hstep : step s with ⟨e | a, s'⟩
  · rw [hstep] at h
    exact hfailed e h
  · rw [hstep] at h
    exact hdone a s' h

theorem bind_run (step : ExceptT ε (StateM σ) α) (next : α → ExceptT ε (StateM σ) β) (s : σ) :
    (step >>= next) s = match step s with
      | (.ok a, s') => next a s'
      | (.error e, s') => (.error e, s') := by
  change (match step s with | (outcome, s') => ExceptT.bindCont next outcome s') = _
  rcases step s with ⟨outcome | outcome, s'⟩ <;> rfl

/-- Steps in turn return only if the first one does, and the next ones after it. -/
theorem exists_of_bind_eq_ok {next : α → ExceptT ε (StateM σ) β} {b : β} {s'' : σ}
    (h : (step >>= next) s = (.ok b, s'')) :
    ∃ a s', step s = (.ok a, s') ∧ next a s' = (.ok b, s'') := by
  rw [bind_run] at h
  rcases hstep : step s with ⟨e | a, s'⟩
  · rw [hstep] at h
    cases h
  · rw [hstep] at h
    exact ⟨a, s', rfl, h⟩

theorem adapt_run (f : ε → ε') (step : ExceptT ε (StateM σ) α) (s : σ) :
    ExceptT.adapt f step s = match step s with
      | (.ok a, s') => (.ok a, s')
      | (.error e, s') => (.error (f e), s') := by
  change (match step s with | (outcome, s') => (Except.mapError f outcome, s')) = _
  rcases step s with ⟨outcome | outcome, s'⟩ <;> rfl

theorem Ensures.bind {done' : β → σ → Prop} {next : α → ExceptT ε (StateM σ) β}
    (h : Ensures step s (fun a s' => Ensures (next a) s' done' failed) failed) :
    Ensures (step >>= next) s done' failed := by
  unfold Ensures
  rw [bind_run]
  unfold Ensures at h
  rcases hstep : step s with ⟨outcome | outcome, s'⟩ <;> rw [hstep] at h <;> exact h

theorem Ensures.adapt {f : ε → ε'} {failed' : ε' → Prop} (h : Ensures step s done failed)
    (hfailed : ∀ e, failed e → failed' (f e)) : Ensures (ExceptT.adapt f step) s done failed' := by
  unfold Ensures
  rw [adapt_run]
  unfold Ensures at h
  rcases hstep : step s with ⟨e | a, s'⟩
  · rw [hstep] at h
    exact hfailed e h
  · rw [hstep] at h
    exact h

/-- Of a step that is known to return, `done` holds. -/
theorem Ensures.of_eq_ok {a : α} {s' : σ} (h : Ensures step s done failed)
    (hstep : step s = (.ok a, s')) : done a s' := by
  unfold Ensures at h
  rw [hstep] at h
  exact h

/-- Of a step that is known to fail, `failed` holds. -/
theorem Ensures.of_eq_error {e : ε} {s' : σ} (h : Ensures step s done failed)
    (hstep : step s = (.error e, s')) : failed e := by
  unfold Ensures at h
  rw [hstep] at h
  exact h

end steps

theorem nested_run {α : Type} (step : Eval α) (s : Session) :
    Eval.nested step s = ((step { s with builder := {} }).1,
      { (step { s with builder := {} }).2 with builder := s.builder }) := rfl

/-- A step on a builder of its own leaves the builder around it as it was. -/
theorem Ensures.nested {α : Type} {s : Session} {step : Eval α} {done : α → Session → Prop}
    {failed : Failure → Prop}
    (h : Ensures step { s with builder := {} }
      (fun a after => done a { after with builder := s.builder }) failed) :
    Ensures (Eval.nested step) s done failed := by
  unfold Ensures
  rw [nested_run]
  unfold Ensures at h
  rcases hstep : step { s with builder := {} } with ⟨outcome | outcome, after⟩ <;>
    rw [hstep] at h <;> exact h

end Markup
