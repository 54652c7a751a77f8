import Markup.Proofs.Eval.SharedScopes
import Markup.Proofs.Library.Commands

/-! # The names that commands see

Which names stand for commands depends on the calls around and on nothing else: the standard names
are known everywhere, `item` inside lists and `term` inside lists of terms, each for the standard
command of that name (`Scoped`).  A call passes this on to the calls inside it (`Scoped.inner`), so
that it holds at every call of every run.

`evaluateStandard_scoped` says so for runs that share their scopes, where a call might find what an
earlier one has left behind: every call that is tried finds in the table what it should, and after
the run the scope around all calls is what it was before, however the run ends. -/

namespace Markup

/-- The names that stand for commands inside the calls `active`, and for which. -/
def Scoped (active : List String) (scope : Scope Builtin) : Prop :=
  ∀ name d, scope.find? name = some d ↔
    (d ∈ standardDefinitions ∧ d.name = name) ∨
    (name = "item" ∧ d = itemDefinition ∧ ("list" ∈ active ∨ "enum" ∈ active)) ∨
    (name = "term" ∧ d = termDefinition ∧ "terms" ∈ active)

/-! ### Names found -/

theorem Scope.find?_inside {κ : Type} (scope : Scope κ) (e : Definition κ) (name : String) :
    (scope.inside (.ofDefinitions [e])).find? name =
      if name = e.name then some e else scope.find? name := by
  have hframe : Frame.ofDefinitions [e] = [(e.name, e)] := rfl
  rw [hframe, find?, inside, List.findSome?_cons, List.lookup_cons]
  by_cases h : name = e.name
  · simp [h]
  · rw [if_neg h, beq_false_of_ne h]
    rfl

/-- What is found is a known command under its name. -/
theorem Scoped.mem_known {active : List String} {scope : Scope Builtin} {name : String}
    {d : Definition Builtin} (h : Scoped active scope) (hfind : scope.find? name = some d) :
    d ∈ knownDefinitions ∧ d.name = name := by
  unfold knownDefinitions
  rcases (h name d).mp hfind with ⟨hmem, hname⟩ | ⟨rfl, rfl, -⟩ | ⟨rfl, rfl, -⟩
  · exact ⟨List.mem_append_left _ hmem, hname⟩
  · exact ⟨List.mem_append_right _ (by decide), rfl⟩
  · exact ⟨List.mem_append_right _ (by decide), rfl⟩

theorem standardScope_scoped : Scoped [] standardScope := by
  have hlookup : ∀ d ∈ standardDefinitions,
      (Frame.ofDefinitions standardDefinitions).lookup d.name = some d := by decide +kernel
  have hfind : ∀ name,
      standardScope.find? name = (Frame.ofDefinitions standardDefinitions).lookup name := by
    intro name
    rw [standardScope, Scope.find?, List.findSome?_singleton]
  intro name d
  rw [hfind]
  constructor
  · exact fun h => .inl (Frame.mem_of_lookup_ofDefinitions h)
  · rintro (⟨hmem, rfl⟩ | ⟨-, -, hactive⟩ | ⟨-, -, hactive⟩)
    · exact hlookup d hmem
    · simp at hactive
    · simp at hactive

/-! ### Calls inside calls -/

/-- The names that a command brings along, by its own name. -/
theorem locals_of_mem_known : ∀ d ∈ knownDefinitions, d.kind.locals =
    if d.name = "list" ∨ d.name = "enum" then some [itemDefinition]
    else if d.name = "terms" then some [termDefinition] else none := by
  decide +kernel

/-- No standard command is called an item or a term. -/
theorem name_ne_of_mem_standard : ∀ d ∈ standardDefinitions, d.name ≠ "item" ∧ d.name ≠ "term" := by
  decide +kernel

section inside

variable {active : List String} {scope : Scope Builtin} {name : String}

/-- Inside a list there is also `item`. -/
theorem Scoped.item (h : Scoped active scope) (hname : name = "list" ∨ name = "enum") :
    Scoped (name :: active) (scope.inside (.ofDefinitions [itemDefinition])) := by
  intro n d
  rw [Scope.find?_inside]
  by_cases hn : n = itemDefinition.name
  · rw [if_pos hn, Option.some_inj]
    change n = "item" at hn
    have hstandard := name_ne_of_mem_standard d
    grind
  · rw [if_neg hn, h n d]
    change n ≠ "item" at hn
    grind

/-- Inside a list of terms there is also `term`. -/
theorem Scoped.term (h : Scoped active scope) (hname : name = "terms") :
    Scoped (name :: active) (scope.inside (.ofDefinitions [termDefinition])) := by
  intro n d
  rw [Scope.find?_inside]
  by_cases hn : n = termDefinition.name
  · rw [if_pos hn, Option.some_inj]
    change n = "term" at hn
    have hstandard := name_ne_of_mem_standard d
    grind
  · rw [if_neg hn, h n d]
    change n ≠ "term" at hn
    grind

/-- Inside any other command there is nothing new. -/
theorem Scoped.other (h : Scoped active scope) (hlist : ¬ (name = "list" ∨ name = "enum"))
    (hterms : name ≠ "terms") : Scoped (name :: active) scope := by
  intro n d
  rw [h n d]
  grind

end inside

/-- A call passes on to the calls inside it what the calls around it make of its names. -/
theorem Scoped.inner {active : List String} {w : World Builtin} {c : Call} {d : Definition Builtin}
    {invocation : Invocation Builtin} (h : Scoped active w.scope)
    (hfound : w.found Builtin.library c = .ok (d, invocation)) :
    Scoped (c.name.fragment :: active) (w.inner invocation.locals).scope := by
  obtain ⟨hfind, args, rest, -, hbind⟩ := World.exists_of_found_eq_ok hfound
  rw [Builtin.library_invoke] at hbind
  obtain ⟨hknown, hname⟩ := h.mem_known hfind
  have hlocals := locals_of_mem_known d hknown
  rw [hname] at hlocals
  unfold World.inner
  rw [Builtin.invoke_locals hbind, hlocals]
  by_cases hlist : c.name.fragment = "list" ∨ c.name.fragment = "enum"
  · rw [if_pos hlist]
    exact h.item hlist
  · rw [if_neg hlist]
    by_cases hterms : c.name.fragment = "terms"
    · rw [if_pos hterms]
      exact h.term hterms
    · rw [if_neg hterms]
      exact h.other hlist hterms

/-- The standard commands pass on what the calls around make of the names, and each binds a name
once at most. -/
theorem passesOn_scoped : World.PassesOn Builtin.library Scoped := by
  intro active w c d command hscoped hlooked
  have hfound : w.found Builtin.library c = .ok (d, command.invocation) := by
    rw [World.found, hlooked]
    rfl
  refine ⟨fun frame hframe => ?_, hscoped.inner hfound⟩
  obtain ⟨hfind, args, rest, -, hbind⟩ := World.exists_of_found_eq_ok hfound
  rw [Builtin.library_invoke] at hbind
  have hlocals : command.locals = d.kind.locals.map Frame.ofDefinitions :=
    Builtin.invoke_locals hbind
  rw [hlocals, locals_of_mem_known d (hscoped.mem_known hfind).1] at hframe
  split at hframe
  · obtain rfl := Option.some.inj hframe
    exact by simp [Frame.ofDefinitions, Frame.bind]
  · split at hframe
    · obtain rfl := Option.some.inj hframe
      exact by simp [Frame.ofDefinitions, Frame.bind]
    · cases hframe

/-! ### Runs -/

/-- The table of scopes before a run, with nothing but the standard commands. -/
def standardTable : ScopeTable Builtin :=
  ScopeTable.add [] (.ofDefinitions standardDefinitions) none

/-- The evaluation of a source where all calls share one table of scopes. -/
def Source.sharedRun (source : Source) (maxDepth : Int) (interpreter : Interpreter) :
    (Except Error Document × List LogEntry) × Shared Builtin :=
  evaluateShared interpreter Builtin.library standardTable { scope := [], source, maxDepth }

/-- **Names depend on the calls around**: an evaluation in which all calls share their scopes does
what the plain one does.  Every call that it tries finds in the table, as it is by then, the
standard names, `item` exactly inside lists and `term` exactly inside lists of terms, each for its
standard command, whatever other calls have bound before it.  The scope around all calls is that of
the standard commands at every call, and after the run too, be that a success or a failure. -/
theorem evaluateStandard_scoped (source : Source) (maxDepth : Int) (interpreter : Interpreter) :
    (source.sharedRun maxDepth interpreter).1 = evaluateStandard source maxDepth interpreter ∧
    (∀ v ∈ (source.sharedRun maxDepth interpreter).2.visits,
      Scoped v.active (v.table.get v.scope) ∧ v.table.get 0 = standardScope) ∧
    (source.sharedRun maxDepth interpreter).2.table.get 0 = standardScope := by
  have hnested : standardTable.Nested := by
    intro i e he p hp
    cases i with
    | zero =>
        cases he
        cases hp
    | succ i => cases he
  obtain ⟨hsame, hkeeps, hvisits⟩ := evaluateShared_eq passesOn_scoped interpreter
    { scope := [], source, maxDepth } hnested (by decide) standardScope_scoped
  exact ⟨hsame, hvisits, hkeeps.get 0 (by decide)⟩

/-- An item in a list, and one in a list of terms beside it. -/
def siblingSource : Source where
  text := "\\list\x7b\\item\x7ba\x7d\x7d\\terms\x7b\\item\x7bx\x7d\x7d"

/-- The list binds `item` in a scope of its own, which is there when the list of terms begins; the
item in that one is refused all the same. -/
theorem evaluateStandard_scoped_sibling :
    (siblingSource.sharedRun 8 {}).2.visits.map
        (fun v => (v.call.name.fragment, v.active, v.scope, v.table.map (·.parent))) =
      [("list", [], 0, [none]), ("item", ["list"], 1, [none, some 0]),
        ("terms", [], 0, [none, some 0]), ("item", ["terms"], 2, [none, some 0, some 0])] ∧
    (siblingSource.sharedRun 8 {}).2.table.map (fun e => e.frame.map Prod.fst) =
      [standardDefinitions.map (·.name), ["item"], ["term"]] ∧
    (evaluateStandard siblingSource 8).1.map (fun _ => ()) =
      .error (.command ⟨.unbound "item", some ⟨23, 1, "item"⟩, some siblingSource.text⟩) ∧
    (siblingSource.sharedRun 8 {}).2.table.get 0 = standardScope := by
  refine ⟨by decide +kernel, by decide +kernel, by decide +kernel, ?_⟩
  exact (evaluateStandard_scoped siblingSource 8 {}).2.2

end Markup
