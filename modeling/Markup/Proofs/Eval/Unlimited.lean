import Markup.Proofs.Step

/-! # Evaluation without a limit

The limit on nesting cuts an evaluation off.  Without it an evaluation goes as far as its calls lie
inside each other; `World.callFreely` is the call without the check, which tells of every call that
is tried at which depth it is.  It is a recursion on fuel, and where the fuel is spent it does
whatever `cut` says.

That the evaluation ends by itself is that some fuel makes no difference any more: with that much
fuel or more, and whatever is done at a cut, outcome and log are the same (`EndsFreely`).  So the
outcome and the greatest depth of a call are those of the evaluation alone, and there is one of each
(`EndsFreely.unique`). -/

namespace Markup

variable {κ : Type}

/-! ### Depths -/

/-- The depth of the call that an entry tells of: a call with no other around it has depth 1. -/
def LogEntry.callDepth : LogEntry → Nat
  | .resolved _ _ depth => (depth + 1).toNat
  | _ => 0

/-- The greatest depth of a call in a log. -/
def deepest (log : List LogEntry) : Nat := (log.map LogEntry.callDepth).foldr max 0

@[simp] theorem deepest_nil : deepest [] = 0 := rfl

@[simp] theorem deepest_cons (e : LogEntry) (log : List LogEntry) :
    deepest (e :: log) = max e.callDepth (deepest log) := rfl

@[simp] theorem deepest_append (log more : List LogEntry) :
    deepest (log ++ more) = max (deepest log) (deepest more) := by
  induction log with
  | nil => simp
  | cons e log ih => simp [ih, Nat.max_assoc]

/-! ### Evaluation -/

namespace World

/-- Tells that a call is tried, and how deep it is. -/
def attempt (w : World κ) (c : Call) : Eval Unit :=
  Eval.tell (.resolved c.name.fragment c.name.line w.depth)

/-- Runs a call, whatever its depth; `cut` stands in for calls that the fuel does not reach. -/
def callFreely (lib : Library κ) (cut : World κ → Call → Eval Unit) :
    Nat → World κ → Call → Eval Unit
  | 0, w, c => cut w c
  | fuel + 1, w, c => do
    w.attempt c
    let (_, command) ← w.resolve lib c
    ExceptT.adapt (w.settle c)
      (command.body (runPieces (callFreely lib cut fuel (w.inner command.locals))))

end World

/-- Evaluates pieces to a document, whatever the depth of their calls. -/
def evaluatePiecesFreely (lib : Library κ) (cut : World κ → Call → Eval Unit) (fuel : Nat)
    (w : World κ) (pieces : List Piece) : Eval Document := do
  runPieces (w.callFreely lib cut fuel) pieces
  ExceptT.adapt Failure.atEnd (Eval.ofBuild Build.intoDocument)

/-- Evaluates a source to a document, whatever the depth of its calls, and tells of every call. -/
def evaluateFreely (lib : Library κ) (cut : World κ → Call → Eval Unit) (fuel : Nat)
    (w : World κ) : Except Error Document × List LogEntry :=
  match readMarkup w.source w.source.span with
  | .error e => (.error (.parse e), [])
  | .ok pieces =>
    let (outcome, session) := (evaluatePiecesFreely lib cut fuel w pieces).run.run {}
    (outcome.mapError Failure.toError, session.log)

section sources

variable {lib : Library κ} (w : World κ)

theorem evaluateFreely_of_error {e : ParseError}
    (h : readMarkup w.source w.source.span = .error e) (cut : World κ → Call → Eval Unit)
    (fuel : Nat) : evaluateFreely lib cut fuel w = (.error (.parse e), []) := by
  unfold evaluateFreely
  rw [h]

theorem evaluateFreely_of_ok {pieces : List Piece}
    (h : readMarkup w.source w.source.span = .ok pieces) (cut : World κ → Call → Eval Unit)
    (fuel : Nat) : evaluateFreely lib cut fuel w =
      ((evaluatePiecesFreely lib cut fuel w pieces {}).1.mapError Failure.toError,
        (evaluatePiecesFreely lib cut fuel w pieces {}).2.log) := by
  unfold evaluateFreely
  rw [h]
  rfl

end sources

/-- The evaluation without a limit ends with `outcome`, and the greatest depth of a call that it
tries is `depth`. -/
def EndsFreely (lib : Library κ) (w : World κ) (outcome : Except Error Document) (depth : Nat) :
    Prop :=
  ∃ fuel log, deepest log = depth ∧
    ∀ more cut, evaluateFreely lib cut (fuel + more) w = (outcome, log)

theorem EndsFreely.unique {lib : Library κ} {w : World κ} {outcome outcome' : Except Error Document}
    {depth depth' : Nat} (h : EndsFreely lib w outcome depth)
    (h' : EndsFreely lib w outcome' depth') : outcome = outcome' ∧ depth = depth' := by
  obtain ⟨fuel, log, hdepth, hrun⟩ := h
  obtain ⟨fuel', log', hdepth', hrun'⟩ := h'
  -- Both are compared at the sum of their fuels, where nothing happens at a cut.
  have hsum := hrun fuel' fun _ _ => pure ()
  rw [Nat.add_comm fuel fuel', hrun' fuel] at hsum
  obtain ⟨houtcome, hlog⟩ := Prod.mk.inj hsum
  exact ⟨houtcome.symm, by rw [← hdepth, ← hdepth', hlog]⟩

end Markup
