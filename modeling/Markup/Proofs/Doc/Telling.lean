import Markup.Proofs.Step

/-! # Builders and the log

A builder adds to the log and never looks at it: what a step does to a builder is the same whatever
has been told before, and all that it tells is that a table dropped a run (`Build.Quiet`).  Draining
is such a step, and so is everything that is made of draining and of changes to the builder. -/

namespace Markup

/-- All entries say that a table dropped a run. -/
def Discards (told : List LogEntry) : Prop := ∀ e ∈ told, ∃ count, e = .discarded count

theorem discards_nil : Discards [] := fun _ h => (List.not_mem_nil h).elim

theorem Discards.append {told more : List LogEntry} (h : Discards told) (hmore : Discards more) :
    Discards (told ++ more) := by
  intro e he
  rcases List.mem_append.mp he with he | he
  · exact h e he
  · exact hmore e he

/-! ### Draining into trees -/

/-- What draining tells. -/
def Absorbed.told {α : Type} : Absorbed α → List LogEntry
  | .ok (_, log) => log
  | .error _ => []

@[simp] theorem Absorbed.told_rebuild {α β : Type} (f : α → β) (a : Absorbed α) :
    (a.rebuild f).told = a.told := by
  cases a <;> rfl

theorem absorbTable_discards (run : List Inline) (columns : List TableColumn)
    (rows : List (List TableCell)) : Discards (absorbTable run columns rows).told := by
  unfold absorbTable
  split
  · intro e he
    exact ⟨run.length, List.mem_singleton.mp he⟩
  · exact discards_nil

mutual

theorem absorbBlocks_discards (run : List Inline) :
    ∀ bs : List Block, Discards (absorbBlocks run bs).told
  | [] => discards_nil
  | [b] => absorbBlock_discards run b
  | b :: c :: rest => by
      rw [absorbBlocks, Absorbed.told_rebuild]
      exact absorbBlocks_discards run (c :: rest)

theorem absorbBlock_discards (run : List Inline) :
    ∀ b : Block, Discards (absorbBlock run b).told
  | .plain _ | .par _ | .codeBlock _ _ | .heading _ _ | .figure _ _ => discards_nil
  | .rule | .mathBlock _ | .foreign _ => discards_nil
  | .blockQuote content | .tagged content _ | .defn _ content => by
      rw [absorbBlock, Absorbed.told_rebuild]
      exact absorbBlocks_discards run content
  | .list _ items => by
      rw [absorbBlock, Absorbed.told_rebuild]
      exact absorbItems_discards run items
  | .termList items => by
      rw [absorbBlock, Absorbed.told_rebuild]
      exact absorbTerms_discards run items
  | .table columns rows => by
      rw [absorbBlock, Absorbed.told_rebuild]
      exact absorbTable_discards run columns rows

theorem absorbItems_discards (run : List Inline) :
    ∀ items : List ListItem, Discards (absorbItems run items).told
  | [] => discards_nil
  | [.mk content label] => by
      rw [absorbItems, Absorbed.told_rebuild]
      exact absorbBlocks_discards run content
  | .mk content label :: item :: rest => by
      rw [absorbItems, Absorbed.told_rebuild]
      exact absorbItems_discards run (item :: rest)

theorem absorbTerms_discards (run : List Inline) :
    ∀ items : List TermItem, Discards (absorbTerms run items).told
  | [] => discards_nil
  | [.mk term content] => by
      rw [absorbTerms, Absorbed.told_rebuild]
      exact absorbBlocks_discards run content
  | .mk term content :: item :: rest => by
      rw [absorbTerms, Absorbed.told_rebuild]
      exact absorbTerms_discards run (item :: rest)

end

/-! ### Steps of a builder -/

namespace Build

/-- What the step does to a builder, and what it tells, does not depend on the log; and it tells
only of runs that were dropped. -/
def Quiet {α : Type} (step : Build α) : Prop :=
  ∀ b : Builder, ∃ outcome after told, Discards told ∧
    ∀ log, step ⟨b, log⟩ = (outcome, ⟨after, log ++ told⟩)

section quiet

variable {α β : Type}

theorem Quiet.of_eq {step : Build α} (outcome : Builder → Except BuildFailure α)
    (after : Builder → Builder)
    (h : ∀ b log, step ⟨b, log⟩ = (outcome b, ⟨after b, log⟩)) : Quiet step := by
  intro b
  refine ⟨outcome b, after b, [], discards_nil, fun log => ?_⟩
  rw [h, List.append_nil]

theorem Quiet.bind {step : Build α} {next : α → Build β} (h : Quiet step)
    (hnext : ∀ a, Quiet (next a)) : Quiet (step >>= next) := by
  intro b
  obtain ⟨outcome, after, told, htold, hstep⟩ := h b
  cases outcome with
  | error e =>
      refine ⟨.error e, after, told, htold, fun log => ?_⟩
      rw [bind_run, hstep]
  | ok a =>
      obtain ⟨outcome, last, more, hmore, hlast⟩ := hnext a after
      refine ⟨outcome, last, told ++ more, htold.append hmore, fun log => ?_⟩
      rw [bind_run, hstep]
      dsimp only
      rw [hlast, List.append_assoc]

/-- A step that returns does so whatever has been told before. -/
theorem Quiet.run_of_ok {step : Build α} (h : Quiet step) {b : Builder} {log : List LogEntry}
    {a : α} {s' : Session} (hrun : step ⟨b, log⟩ = (.ok a, s')) (log' : List LogEntry) :
    ∃ last, step ⟨b, log'⟩ = (.ok a, ⟨s'.builder, last⟩) := by
  obtain ⟨outcome, after, told, -, hstep⟩ := h b
  rw [hstep] at hrun
  obtain ⟨rfl, rfl⟩ := Prod.mk.inj hrun
  exact ⟨log' ++ told, hstep log'⟩

theorem quiet_change (f : Builder → Builder) : Quiet (change f) :=
  .of_eq (fun _ => .ok ()) f fun _ _ => rfl

/-- What draining does: nothing where nothing is pending, and else what becomes of the blocks. -/
theorem drain_run (b : Builder) (log : List LogEntry) :
    drain ⟨b, log⟩ = if b.pending.isEmpty then (.ok (), ⟨b, log⟩) else
      match absorbBlocks b.pending b.blocks with
      | .error e => (.error (.build e), ⟨{ b with pending := [] }, log⟩)
      | .ok (blocks, told) => (.ok (), ⟨⟨b.metadata, blocks, []⟩, log ++ told⟩) := by
  simp only [drain, bind_run]
  change (if b.pending.isEmpty then _ else _ : Build Unit) _ = _
  cases b.pending.isEmpty with
  | true => rfl
  | false =>
      simp only [Bool.false_eq_true, if_false]
      cases absorbBlocks b.pending b.blocks <;> rfl

/-- Nothing is pending behind a drain. -/
theorem pending_of_drain {b : Builder} {log : List LogEntry} {s' : Session}
    (h : drain ⟨b, log⟩ = (.ok (), s')) : s'.builder.pending = [] := by
  rw [drain_run] at h
  split at h
  · next hpending =>
    cases h
    exact List.isEmpty_iff.mp hpending
  · split at h
    · cases h
    · cases h
      rfl

theorem quiet_drain : Quiet drain := by
  intro b
  have hdiscards := absorbBlocks_discards b.pending b.blocks
  by_cases hpending : b.pending.isEmpty = true
  · refine ⟨.ok (), b, [], discards_nil, fun log => ?_⟩
    rw [drain_run, if_pos hpending, List.append_nil]
  · cases habsorb : absorbBlocks b.pending b.blocks with
    | error e =>
        refine ⟨.error (.build e), { b with pending := [] }, [], discards_nil, fun log => ?_⟩
        rw [drain_run, if_neg hpending, habsorb, List.append_nil]
    | ok drained =>
        rw [habsorb] at hdiscards
        refine ⟨.ok (), ⟨b.metadata, drained.1, []⟩, drained.2, hdiscards, fun log => ?_⟩
        rw [drain_run, if_neg hpending, habsorb]

theorem quiet_pushBlock (value : Block) : Quiet (pushBlock value) :=
  quiet_drain.bind fun _ => quiet_change _

mutual

theorem quiet_push : ∀ e : Element, Quiet (push e)
  | .text _ | .span _ | .inline _ => by
      rw [push]
      exact quiet_change _
  | .block value => by
      rw [push]
      exact quiet_pushBlock value
  | .seq elements => by
      rw [push]
      exact quiet_pushAll elements
  | .other value => by
      rw [push]
      exact .of_eq (fun _ => .error _) id fun _ _ => rfl

theorem quiet_pushAll : ∀ es : List Element, Quiet (pushAll es)
  | [] => by
      rw [pushAll]
      exact .of_eq (fun _ => .ok ()) id fun _ _ => rfl
  | e :: rest => by
      rw [pushAll]
      exact (quiet_push e).bind fun _ => quiet_pushAll rest

end

theorem quiet_intoBlocks : Quiet intoBlocks :=
  quiet_drain.bind fun _ => .of_eq (fun b => .ok b.blocks) id fun _ _ => rfl

theorem quiet_intoDocument : Quiet intoDocument :=
  quiet_intoBlocks.bind fun blocks =>
    .of_eq (fun b => .ok ⟨b.metadata, blocks⟩) id fun _ _ => rfl

theorem quiet_intoInlines : Quiet intoInlines := by
  refine quiet_intoBlocks.bind fun blocks => ?_
  split
  · exact .of_eq (fun _ => .ok []) id fun _ _ => rfl
  · next content => exact .of_eq (fun _ => .ok content) id fun _ _ => rfl
  · next content => exact .of_eq (fun _ => .ok content) id fun _ _ => rfl
  · exact .of_eq (fun _ => .error _) id fun _ _ => rfl

end quiet

end Build

end Markup
