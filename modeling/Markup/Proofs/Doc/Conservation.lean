import Markup.Proofs.Doc.Drain

/-! # Builders lose nothing without a warning

Whatever is pushed to a builder, in nested lists or not, with drains anywhere in between, is in the
blocks that it gives in the end, in the order in which it was pushed; only runs that a table dropped
are missing, and for each of these the log has a warning.

Pushing comes down to three things that a builder does (`Act`): it adds inline content to the
pending run, adds a block after draining, or drains.  A `Stretch` is what one draining is about: the
run that was pending, what draining it told, and the block that was added behind it.  Each act keeps
the account (`Act.perform_conserves`), so any number of acts do (`Performs.conserves`), and the main
statement is `build_conserves`. -/

namespace Markup

/-! ### What a builder does -/

/-- One thing that a builder does. -/
inductive Act where
  | inline (value : Inline)
  | block (value : Block)
  | drain

/-- Does it. -/
def Act.perform : Act → Build Unit
  | .inline value => Build.pushInline value
  | .block value => Build.pushBlock value
  | .drain => Build.drain

/-- The leaves that are pushed. -/
def Act.leaves : Act → List Leaf
  | .inline value => value.leaves
  | .block value => value.leaves
  | .drain => []

/-- No value stands out of place in what is pushed. -/
def Act.Proper : Act → Prop
  | .inline value => value.MadeOf fun _ => True
  | .block value => value.MadeOf fun _ => True
  | .drain => True

mutual

/-- Pushing an element, one thing at a time; what cannot be pushed comes to nothing. -/
def Element.acts : Element → List Act
  | .text text => [.inline (.text text)]
  | .span span => [.inline (.text span.fragment)]
  | .inline value => [.inline value]
  | .block value => [.block value]
  | .seq elements => elementsActs elements
  | .other _ => []

/-- Pushing elements in turn, one thing at a time. -/
def elementsActs : List Element → List Act
  | [] => []
  | e :: rest => e.acts ++ elementsActs rest

end

mutual

/-- The leaves of an element, in the order in which they are pushed. -/
def Element.leaves : Element → List Leaf
  | .text text => [.inline (.text text)]
  | .span span => [.inline (.text span.fragment)]
  | .inline value => value.leaves
  | .block value => value.leaves
  | .seq elements => elementsLeaves elements
  | .other _ => []

/-- The leaves of elements in turn. -/
def elementsLeaves : List Element → List Leaf
  | [] => []
  | e :: rest => e.leaves ++ elementsLeaves rest

end

mutual

theorem Element.flatMap_acts_leaves : ∀ e : Element, e.acts.flatMap Act.leaves = e.leaves
  | .text _ | .span _ | .inline _ | .block _ => List.append_nil _
  | .seq elements => elementsActs_flatMap_leaves elements
  | .other _ => rfl

theorem elementsActs_flatMap_leaves :
    ∀ es : List Element, (elementsActs es).flatMap Act.leaves = elementsLeaves es
  | [] => rfl
  | e :: rest => by
      rw [elementsActs, elementsLeaves, List.flatMap_append, e.flatMap_acts_leaves,
        elementsActs_flatMap_leaves rest]

end

/-! ### Doing one thing after the other -/

/-- Acts that are done in turn, none of which fails. -/
inductive Performs : Session → List Act → Session → Prop
  | nil {s : Session} : Performs s [] s
  | cons {s s' s'' : Session} {a : Act} {acts : List Act} (h : a.perform s = (.ok (), s'))
      (hrest : Performs s' acts s'') : Performs s (a :: acts) s''

theorem Performs.append {s s' s'' : Session} {acts more : List Act} (h : Performs s acts s')
    (hmore : Performs s' more s'') : Performs s (acts ++ more) s'' := by
  induction h with
  | nil => exact hmore
  | cons h _ ih => exact .cons h (ih hmore)

mutual

theorem performs_of_push : ∀ (e : Element) {s s' : Session}, Build.push e s = (.ok (), s') →
    Performs s e.acts s'
  | .text _, _, _, h | .span _, _, _, h | .inline _, _, _, h | .block _, _, _, h => by
      rw [Build.push] at h
      exact .cons h .nil
  | .seq elements, _, _, h => by
      rw [Build.push] at h
      exact performs_of_pushAll elements h
  | .other _, _, _, h => by
      rw [Build.push] at h
      cases h

theorem performs_of_pushAll : ∀ (es : List Element) {s s' : Session},
    Build.pushAll es s = (.ok (), s') → Performs s (elementsActs es) s'
  | [], _, _, h => by
      rw [Build.pushAll] at h
      cases h
      exact .nil
  | e :: rest, _, _, h => by
      rw [Build.pushAll] at h
      obtain ⟨_, s', hfirst, hrest⟩ := exists_of_bind_eq_ok h
      exact (performs_of_push e hfirst).append (performs_of_pushAll rest hrest)

end

/-! ### Accounts -/

/-- What one draining is about: the run that was pending, what was added to the log, and the block
that was added behind the run. -/
structure Stretch where
  run : List Inline
  told : List LogEntry
  block : Option Block

/-- The leaves that were pushed. -/
def Stretch.pushed (t : Stretch) : List Leaf :=
  inlinesLeaves t.run ++ t.block.elim [] Block.leaves

/-- The leaves that are kept: all that were pushed, but nothing of a run that was warned of. -/
def Stretch.kept (t : Stretch) : List Leaf :=
  (if t.told = [] then inlinesLeaves t.run else []) ++ t.block.elim [] Block.leaves

/-- What an act adds to the log. -/
def Act.tells (a : Act) (s : Session) : List LogEntry := (a.perform s).2.log.drop s.log.length

/-- The stretch that an act brings to its end. -/
def Act.stretch (s : Session) : Act → List Stretch
  | .inline _ => []
  | .block value => [⟨s.builder.pending, Act.tells (.block value) s, some value⟩]
  | .drain => [⟨s.builder.pending, Act.tells .drain s, none⟩]

/-- The stretches that acts bring to their end. -/
def stretches : Session → List Act → List Stretch
  | _, [] => []
  | s, a :: acts => a.stretch s ++ stretches (a.perform s).2 acts

/-- The account from one session to another: what was pushed is in the stretches or still pending,
the blocks have what was kept of it, and the log what was told. -/
structure Conserved (s s' : Session) (runs : List Stretch) (pushed : List Leaf) : Prop where
  pushed : runs.flatMap Stretch.pushed ++ inlinesLeaves s'.builder.pending =
    inlinesLeaves s.builder.pending ++ pushed
  kept : blocksLeaves s'.builder.blocks =
    blocksLeaves s.builder.blocks ++ runs.flatMap Stretch.kept
  log : s'.log = s.log ++ runs.flatMap Stretch.told
  told : ∀ t ∈ runs, t.told = [] ∨ t.told = [.discarded t.run.length]

theorem Conserved.refl (s : Session) : Conserved s s [] [] :=
  ⟨by simp, by simp, by simp, fun _ ht => (List.not_mem_nil ht).elim⟩

theorem Conserved.trans {s s' s'' : Session} {runs more : List Stretch} {pushed after : List Leaf}
    (h : Conserved s s' runs pushed) (hmore : Conserved s' s'' more after) :
    Conserved s s'' (runs ++ more) (pushed ++ after) := by
  constructor
  · rw [List.flatMap_append, List.append_assoc, hmore.pushed, ← List.append_assoc, h.pushed,
      List.append_assoc]
  · rw [hmore.kept, h.kept, List.flatMap_append, List.append_assoc]
  · rw [hmore.log, h.log, List.flatMap_append, List.append_assoc]
  · intro t ht
    rcases List.mem_append.mp ht with ht | ht
    · exact h.told t ht
    · exact hmore.told t ht

/-! ### One act -/

/-- Draining keeps the account, and nothing is pending after it. -/
theorem drain_conserves {s s' : Session} (h : Build.drain s = (.ok (), s'))
    (hs : s.builder.MadeOf fun _ => True) :
    s'.builder.MadeOf (fun _ => True) ∧ s'.builder.pending = [] ∧
      Conserved s s' [⟨s.builder.pending, s'.log.drop s.log.length, none⟩] [] := by
  have hensures := drain_ensures (p := fun _ => True) trivial (fun _ => trivial) hs
  obtain ⟨hmade, hpending, log, hlog, hdrained⟩ := hensures.of_eq_ok h
  have htold : s'.log.drop s.log.length = log := by rw [hlog, List.drop_left]
  have hleaves : s'.builder.leaves = blocksLeaves s'.builder.blocks := by
    rw [Builder.leaves, hpending]
    exact List.append_nil _
  rw [hleaves] at hdrained
  rw [htold]
  refine ⟨hmade, hpending, ?_⟩
  constructor
  · simp [hpending, Stretch.pushed, inlinesLeaves]
  · rcases hdrained with ⟨rfl, hblocks⟩ | ⟨-, rfl, hblocks⟩
    · simpa [Stretch.kept] using hblocks
    · simpa [Stretch.kept] using hblocks
  · simpa using hlog
  · intro t ht
    rw [List.mem_singleton.mp ht]
    rcases hdrained with ⟨hnone, -⟩ | ⟨-, hone, -⟩
    · exact .inl hnone
    · exact .inr hone

/-- A block is added to what draining leaves. -/
theorem exists_of_pushBlock {s s' : Session} {value : Block}
    (h : Build.pushBlock value s = (.ok (), s')) :
    ∃ drained, Build.drain s = (.ok (), drained) ∧
      s' = { drained with
        builder := { drained.builder with blocks := drained.builder.blocks ++ [value] } } := by
  rw [Build.pushBlock] at h
  obtain ⟨_, drained, hdrain, hchange⟩ := exists_of_bind_eq_ok h
  cases hchange
  exact ⟨drained, hdrain, rfl⟩

/-- **Each act keeps the account.** -/
theorem Act.perform_conserves {a : Act} {s s' : Session} (h : a.perform s = (.ok (), s'))
    (ha : a.Proper) (hs : s.builder.MadeOf fun _ => True) :
    s'.builder.MadeOf (fun _ => True) ∧ Conserved s s' (a.stretch s) a.leaves := by
  cases a with
  | inline value =>
      cases h
      refine ⟨⟨hs.1, inlinesMadeOf_append.mpr ⟨hs.2, ha, trivial⟩⟩, ?_⟩
      constructor
      · simp [Act.stretch, Act.leaves, inlinesLeaves]
      · simp [Act.stretch]
      · simp [Act.stretch]
      · exact fun t ht => (List.not_mem_nil ht).elim
  | drain =>
      obtain ⟨hmade, -, hconserved⟩ := drain_conserves h hs
      have htells : Act.tells .drain s = s'.log.drop s.log.length := by rw [Act.tells, h]
      rw [Act.stretch, htells]
      exact ⟨hmade, hconserved⟩
  | block value =>
      have htells : Act.tells (.block value) s = s'.log.drop s.log.length := by rw [Act.tells, h]
      -- One stretch: the run that is drained, and the block behind it.
      obtain ⟨drained, hdrain, rfl⟩ := exists_of_pushBlock h
      obtain ⟨hmade, hpending, hconserved⟩ := drain_conserves hdrain hs
      rw [Act.stretch, htells]
      refine ⟨⟨blocksMadeOf_append.mpr ⟨hmade.1, ha, trivial⟩, hmade.2⟩, ?_⟩
      have hkept := hconserved.kept
      constructor
      · simp [hpending, Stretch.pushed, Act.leaves, inlinesLeaves]
      · simp only [List.flatMap_singleton, Stretch.kept, Option.elim_none, List.append_nil] at hkept
        simp [hkept, Stretch.kept, blocksLeaves]
      · simpa using hconserved.log
      · intro t ht
        rw [List.mem_singleton.mp ht]
        exact hconserved.told ⟨s.builder.pending, _, none⟩ List.mem_cons_self

/-! ### All acts -/

theorem Performs.conserves {s s' : Session} {acts : List Act} (h : Performs s acts s')
    (hacts : ∀ a ∈ acts, a.Proper) (hs : s.builder.MadeOf fun _ => True) :
    s'.builder.MadeOf (fun _ => True) ∧
      Conserved s s' (stretches s acts) (acts.flatMap Act.leaves) := by
  induction h with
  | nil => exact ⟨hs, .refl _⟩
  | @cons s s₁ s₂ a acts h _ ih =>
      obtain ⟨hmade, hfirst⟩ := Act.perform_conserves h (hacts a List.mem_cons_self) hs
      obtain ⟨hend, hrest⟩ := ih (fun b hb => hacts b (List.mem_cons_of_mem a hb)) hmade
      refine ⟨hend, ?_⟩
      rw [stretches, h, List.flatMap_cons]
      exact hfirst.trans hrest

/-! ### What is asked of a builder -/

/-- What may be asked of a builder from outside. -/
inductive BuildStep where
  | push (element : Element)
  | drain

/-- Does what is asked. -/
def BuildStep.perform : BuildStep → Build Unit
  | .push element => Build.push element
  | .drain => Build.drain

/-- What is asked, one thing at a time. -/
def BuildStep.acts : BuildStep → List Act
  | .push element => element.acts
  | .drain => [.drain]

/-- The leaves that are pushed. -/
def BuildStep.leaves : BuildStep → List Leaf
  | .push element => element.leaves
  | .drain => []

/-- Does what is asked in turn, and then gives all blocks. -/
def build : List BuildStep → Build (List Block)
  | [] => Build.intoBlocks
  | b :: rest => do
    b.perform
    build rest

/-- The stretches of all that is asked, from an empty builder up to the draining at the end. -/
def buildStretches (steps : List BuildStep) : List Stretch :=
  stretches {} (steps.flatMap BuildStep.acts ++ [.drain])

theorem BuildStep.flatMap_acts_leaves (b : BuildStep) : b.acts.flatMap Act.leaves = b.leaves := by
  cases b with
  | push element => exact element.flatMap_acts_leaves
  | drain => rfl

theorem BuildStep.performs {b : BuildStep} {s s' : Session} (h : b.perform s = (.ok (), s')) :
    Performs s b.acts s' := by
  cases b with
  | push element => exact performs_of_push element h
  | drain => exact .cons h .nil

/-- What is asked is done one thing at a time, and giving all blocks is one more draining. -/
theorem exists_performs_of_build {steps : List BuildStep} {s s' : Session} {blocks : List Block}
    (h : build steps s = (.ok blocks, s')) :
    ∃ pushed, Performs s (steps.flatMap BuildStep.acts) pushed ∧
      Build.drain pushed = (.ok (), s') ∧ blocks = s'.builder.blocks := by
  induction steps generalizing s with
  | nil =>
      rw [build, Build.intoBlocks] at h
      obtain ⟨_, drained, hdrain, hblocks⟩ := exists_of_bind_eq_ok h
      cases hblocks
      exact ⟨s, .nil, hdrain, rfl⟩
  | cons b rest ih =>
      rw [build] at h
      obtain ⟨_, s₁, hfirst, hrest⟩ := exists_of_bind_eq_ok h
      obtain ⟨pushed, hperforms, hdrain, hblocks⟩ := ih hrest
      refine ⟨pushed, ?_, hdrain, hblocks⟩
      rw [List.flatMap_cons]
      exact (BuildStep.performs hfirst).append hperforms

theorem flatMap_acts_leaves (steps : List BuildStep) :
    (steps.flatMap BuildStep.acts).flatMap Act.leaves = steps.flatMap BuildStep.leaves := by
  simp only [List.flatMap_assoc, BuildStep.flatMap_acts_leaves]

/-- **Builders lose nothing without a warning.**  What is pushed is what the stretches say, in
order; the blocks have just what the stretches keep, in document order; and a stretch keeps its
run unless the log has a warning about it, which is all that the log has. -/
theorem build_conserves {steps : List BuildStep} {blocks : List Block} {s : Session}
    (hproper : ∀ a ∈ steps.flatMap BuildStep.acts, a.Proper)
    (hbuild : build steps {} = (.ok blocks, s)) :
    (buildStretches steps).flatMap Stretch.pushed = steps.flatMap BuildStep.leaves ∧
      blocksLeaves blocks = (buildStretches steps).flatMap Stretch.kept ∧
      s.log = (buildStretches steps).flatMap Stretch.told ∧
      ∀ t ∈ buildStretches steps, t.told = [] ∨ t.told = [.discarded t.run.length] := by
  obtain ⟨pushed, hperforms, hdrain, rfl⟩ := exists_performs_of_build hbuild
  have hempty : Builder.MadeOf (fun _ => True) {} := ⟨trivial, trivial⟩
  have hpending : s.builder.pending = [] :=
    (drain_conserves hdrain (hperforms.conserves hproper hempty).1).2.1
  -- The draining at the end is an act like the others, so that one account covers all.
  have hall : Performs {} (steps.flatMap BuildStep.acts ++ [.drain]) s :=
    hperforms.append (.cons hdrain .nil)
  have hproper' : ∀ a ∈ steps.flatMap BuildStep.acts ++ [.drain], a.Proper := by
    intro a ha
    rcases List.mem_append.mp ha with ha | ha
    · exact hproper a ha
    · rw [List.mem_singleton.mp ha]
      trivial
  obtain ⟨-, hconserved⟩ := hall.conserves hproper' hempty
  refine ⟨?_, hconserved.kept, hconserved.log, hconserved.told⟩
  have hpushed := hconserved.pushed
  rw [hpending, List.flatMap_append, flatMap_acts_leaves] at hpushed
  rw [buildStretches]
  simpa [inlinesLeaves, Act.leaves] using hpushed

/-- Text around nested blocks, a table that takes no more, and a rule. -/
def mixedSteps : List BuildStep :=
  [.push (.seq [.text "a", .seq [.block (.blockQuote [.list .unordered []]), .text "b"]]),
    .push (.block (.table [] [[.mk [.par [.text "c"]] none 1 1]])),
    .push (.seq [.text "d", .inline .space]), .drain,
    .push (.block .rule), .push (.span ⟨0, 1, "e"⟩)]

theorem build_conserves_mixed :
    ∃ blocks s, build mixedSteps {} = (.ok blocks, s) ∧ s.log = [.discarded 2] ∧
      blocksLeaves blocks = ["a", "b", "c", "e"].map (fun text => .inline (.text text)) ∧
      (buildStretches mixedSteps).flatMap Stretch.pushed = mixedSteps.flatMap BuildStep.leaves ∧
      blocksLeaves blocks = (buildStretches mixedSteps).flatMap Stretch.kept := by
  have hproper : ∀ a ∈ mixedSteps.flatMap BuildStep.acts, a.Proper := by
    simp [mixedSteps, BuildStep.acts, Element.acts, elementsActs, Act.Proper, Inline.MadeOf,
      Block.MadeOf, blocksMadeOf, itemsMadeOf, rowsMadeOf, cellsMadeOf, inlinesMadeOf]
  have hbuild : build mixedSteps {} = (.ok
      [.par [.text "a"], .blockQuote [.list .unordered [.mk [.par [.text "b"]] none]],
        .table [] [[.mk [.par [.text "c"]] none 1 1]], .rule, .par [.text "e"]],
      (build mixedSteps {}).2) := rfl
  obtain ⟨hpushed, hkept, -⟩ := build_conserves hproper hbuild
  exact ⟨_, _, hbuild, rfl, rfl, hpushed, hkept⟩

end Markup
