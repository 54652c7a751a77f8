import Markup.Proofs.Eval.Comparison

/-! # Where the stack runs out

A call catches whatever happens in its body, so that a stack which runs out there is an error of the
call like others.  What it does not catch is that there is no room for looking up the call itself
(`World.callWithin_stack_iff`).  So pieces fail for that reason exactly if all before one of their
calls returns, and that call finds no room (`World.run_stack_iff`). -/

namespace Markup

variable {κ : Type}

/-! ### The first failure -/

section pieces

variable {call : Call → Eval Unit} {f : Failure} {p : Piece} {pieces rest : List Piece}
  {s s₁ : Session}

/-- Pieces run up to a call that fails with `f`. -/
def FailsAtCall (call : Call → Eval Unit) (f : Failure) (pieces : List Piece) (s : Session) :
    Prop :=
  ∃ before c after between, pieces = before ++ .call c :: after ∧
    runPieces call before s = (.ok (), between) ∧ ∃ s', call c between = (.error f, s')

theorem not_failsAtCall_nil : ¬ FailsAtCall call f [] s := by
  rintro ⟨before, c, after, between, h, -⟩
  exact List.append_ne_nil_of_right_ne_nil before (List.cons_ne_nil _ _) h.symm

/-- A piece in front that returns makes no difference. -/
theorem failsAtCall_cons (hrun : ∀ ps, runPieces call (p :: ps) s = runPieces call ps s₁)
    (hreturns : ∀ c s', p = .call c → call c s ≠ (.error f, s')) :
    FailsAtCall call f (p :: rest) s ↔ FailsAtCall call f rest s₁ := by
  constructor
  · rintro ⟨_ | ⟨q, before⟩, c, after, between, hsplit, hbefore, s', hfails⟩
    · obtain ⟨rfl, rfl⟩ := List.cons.inj hsplit
      cases hbefore
      exact (hreturns c s' rfl hfails).elim
    · obtain ⟨rfl, rfl⟩ := List.cons.inj hsplit
      exact ⟨before, c, after, between, rfl, (hrun before).symm.trans hbefore, s', hfails⟩
  · rintro ⟨before, c, after, between, rfl, hbefore, hfails⟩
    exact ⟨p :: before, c, after, between, rfl, (hrun before).trans hbefore, hfails⟩

/-- A call in front that fails is the one. -/
theorem failsAtCall_call {c : Call} {f' : Failure} (hcall : call c s = (.error f', s₁)) :
    FailsAtCall call f (.call c :: rest) s ↔ f' = f := by
  constructor
  · rintro ⟨_ | ⟨q, before⟩, d, after, between, hsplit, hbefore, s', hfails⟩
    · cases hsplit
      cases hbefore
      exact Except.error.inj (congrArg Prod.fst (hcall.symm.trans hfails))
    · obtain ⟨rfl, -⟩ := List.cons.inj hsplit
      rw [runPieces, bind_run, hcall] at hbefore
      cases hbefore
  · rintro rfl
    exact ⟨[], c, rest, s, rfl, rfl, s₁, hcall⟩

/-- Pieces fail for the first of their calls that fails. -/
theorem runPieces_error_iff :
    (∃ s', runPieces call pieces s = (.error f, s')) ↔ FailsAtCall call f pieces s := by
  induction pieces generalizing s with
  | nil => exact iff_of_false (fun ⟨_, h⟩ => nomatch h) not_failsAtCall_nil
  | cons p rest ih =>
      cases p with
      | text span =>
          obtain ⟨s₁, hpush⟩ : ∃ s₁, Eval.push (.span span) s = (.ok (), s₁) := ⟨_, rfl⟩
          have hrun : ∀ ps, runPieces call (.text span :: ps) s = runPieces call ps s₁ := by
            intro ps
            rw [runPieces, bind_run, hpush]
          rw [hrun, ih, failsAtCall_cons hrun nofun]
      | call c =>
          rcases hcall : call c s with ⟨f' | ⟨⟩, s₁⟩
          · rw [failsAtCall_call hcall, runPieces, bind_run, hcall]
            constructor
            · rintro ⟨s', h⟩
              cases h
              rfl
            · rintro rfl
              exact ⟨s₁, rfl⟩
          · have hrun : ∀ ps, runPieces call (.call c :: ps) s = runPieces call ps s₁ := by
              intro ps
              rw [runPieces, bind_run, hcall]
            rw [hrun, ih, failsAtCall_cons hrun]
            rintro d s' hd hfails
            cases hd
            rw [hcall] at hfails
            cases hfails

end pieces

/-! ### Calls without room -/

namespace World

variable {interpreter : Interpreter} {lib : Library κ}

/-- A call makes an error of its own of a stack that runs out inside it. -/
theorem settle_ne_stack (w : World κ) (c : Call) (f : Failure) :
    w.settle c f ≠ .overflow .stack := by
  rcases f with e | e | kind | _ | _ <;> intro h <;> cases h

theorem looked_ne_stack {w : World κ} {c : Call} {f : Failure} (h : w.looked lib c = .error f) :
    f ≠ .overflow .stack := by
  unfold looked at h
  split at h
  · cases h
    exact fun h => Failure.noConfusion h
  · split at h
    · cases h
      exact fun h => Failure.noConfusion h
    · split at h
      · cases h
        exact fun h => Failure.noConfusion h
      · cases h

/-- The stack runs out in a call for looking the call up, and for nothing else. -/
theorem callWithin_stack_iff (levels : Nat) (w : World κ) (c : Call) (s : Session) :
    (∃ s', w.callWithin interpreter lib levels c s = (.error (.overflow .stack), s')) ↔
      0 < levels ∧ interpreter.enters w.depth c = false := by
  cases levels with
  | zero =>
      refine iff_of_false ?_ fun h => absurd h.1 (Nat.lt_irrefl 0)
      rintro ⟨s', h⟩
      rw [callWithin, refuse] at h
      split at h <;> cases h
  | succ levels =>
      rw [callWithin_run]
      cases hroom : interpreter.enters w.depth c with
      | false => exact iff_of_true ⟨s, rfl⟩ ⟨Nat.succ_pos levels, rfl⟩
      | true =>
          refine iff_of_false ?_ fun h => Bool.noConfusion h.2
          rintro ⟨s', h⟩
          rw [if_pos rfl] at h
          cases hlooked : w.looked lib c with
          | error f =>
              rw [hlooked] at h
              cases h
              exact looked_ne_stack hlooked rfl
          | ok found =>
              rw [hlooked] at h
              dsimp only at h
              rw [adapt_run] at h
              split at h
              · cases h
              · exact settle_ne_stack w c _ (Except.error.inj (congrArg Prod.fst h))

/-- Pieces run out of the stack exactly if all before one of their calls returns and there is no
room for looking that call up. -/
theorem run_stack_iff {w : World κ} {pieces : List Piece} {s : Session} :
    (∃ s', w.run interpreter lib pieces s = (.error (.overflow .stack), s')) ↔
      ∃ before c after between, pieces = before ++ .call c :: after ∧
        w.run interpreter lib before s = (.ok (), between) ∧
        w.depth < w.maxDepth ∧ interpreter.enters w.depth c = false := by
  have hlevels : 0 < (w.maxDepth - w.depth).toNat ↔ w.depth < w.maxDepth := by omega
  unfold run
  rw [runPieces_error_iff, FailsAtCall]
  simp only [call, callWithin_stack_iff, hlevels]

end World

end Markup
