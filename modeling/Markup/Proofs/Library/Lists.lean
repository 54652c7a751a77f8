import Markup.Proofs.Library.Additions

/-! # Lists and lists of terms

Lists with bullets, lists with numbers and lists of terms are made in one way (`ListForm`).  The
body is evaluated to blocks; those of them that are lists of the right kind give their entries, and
all others have to be blank (`ListForm.collect`).

A source that is one list (`ListForm.Alone`) is evaluated to a document of one block, the list of
the entries that can be collected from the blocks of its body; if they cannot be collected, the
error stands at the name of the list (`ListForm.evaluateStandard_eq_ok_iff`,
`ListForm.evaluateStandard_eq_error`). -/

namespace Markup

/-! ### Three forms of lists -/

/-- The forms of lists: of items, with bullets or numbers, and of terms. -/
inductive ListForm where
  | itemized (kind : ListKind)
  | glossary
deriving DecidableEq

/-- An entry of a list: an item headed by its label, or a definition by its term. -/
structure Entry where
  head : Option (List Inline)
  content : List Block

namespace Entry

/-- Drops blank text at the end of the entry. -/
def trim (e : Entry) : Entry := { e with content := trimBlocks e.content }

/-- The entry as an item. -/
def item (e : Entry) : ListItem := .mk e.content e.head

/-- The entry as a term with its definition. -/
def termItem (e : Entry) : TermItem := .mk (e.head.getD []) e.content

/-- An item as an entry. -/
def ofItem (i : ListItem) : Entry := ⟨i.label, i.content⟩

/-- A term with its definition as an entry. -/
def ofTermItem (i : TermItem) : Entry := ⟨some i.term, i.content⟩

end Entry

namespace ListForm

/-- The command for the list. -/
def command : ListForm → Definition Builtin
  | itemized .unordered => ⟨"list", .list .unordered, .markup⟩
  | itemized .ordered => ⟨"enum", .list .ordered, .markup⟩
  | glossary => ⟨"terms", .terms, .markup⟩

/-- The command for an entry. -/
def member : ListForm → Definition Builtin
  | itemized _ => itemDefinition
  | glossary => termDefinition

/-- What is wrong with a body that holds something else. -/
def fault : ListForm → ShapeFault
  | itemized _ => .notItem
  | glossary => .notTerm

/-- The list of these entries. -/
def ofEntries : ListForm → List Entry → Block
  | itemized kind, entries => .list kind (entries.map Entry.item)
  | glossary, entries => .termList (entries.map Entry.termItem)

/-- The entries of a block that the list may take them from. -/
def entries? : ListForm → Block → Option (List Entry)
  | itemized _, .list _ items => some (items.map Entry.ofItem)
  | glossary, .termList items => some (items.map Entry.ofTermItem)
  | _, _ => none

/-- The entries of the lists among blocks; all other blocks must be blank. -/
def collect (form : ListForm) : List Block → Except CommandCause (List Entry)
  | [] => .ok []
  | b :: rest =>
    match form.entries? b with
    | some entries => (form.collect rest).map (entries.map Entry.trim ++ ·)
    | none => if b.isBlank then form.collect rest else .error (.shape form.fault)

end ListForm

theorem collectItems_eq (kind : ListKind) (bs : List Block) :
    collectItems bs = ((ListForm.itemized kind).collect bs).map (List.map Entry.item) := by
  induction bs with
  | nil => rfl
  | cons b rest ih =>
      cases b with
      | list _ items =>
          rw [collectItems, ListForm.collect, ListForm.entries?, ih]
          cases (ListForm.itemized kind).collect rest with
          | error e => rfl
          | ok entries =>
              simp [Except.map, Entry.trim, Entry.item, Entry.ofItem, Function.comp_def]
      | _ =>
          rw [collectItems, ListForm.collect, ListForm.entries?, ih]
          · dsimp only
            split <;> rfl
          all_goals simp

theorem collectTerms_eq (bs : List Block) :
    collectTerms bs = (ListForm.glossary.collect bs).map (List.map Entry.termItem) := by
  induction bs with
  | nil => rfl
  | cons b rest ih =>
      cases b with
      | termList items =>
          rw [collectTerms, ListForm.collect, ListForm.entries?, ih]
          cases ListForm.glossary.collect rest with
          | error e => rfl
          | ok entries =>
              simp [Except.map, Entry.trim, Entry.termItem, Entry.ofTermItem, Function.comp_def]
      | _ =>
          rw [collectTerms, ListForm.collect, ListForm.entries?, ih]
          · dsimp only
            split <;> rfl
          all_goals simp

namespace ListForm

section collect

variable {form : ListForm}

theorem collect_append : ∀ xs ys : List Block, form.collect (xs ++ ys) =
    (form.collect xs).bind fun es => (form.collect ys).map (es ++ ·)
  | [], ys => by
      rw [List.nil_append, collect, Except.bind]
      cases form.collect ys <;> rfl
  | b :: xs, ys => by
      have hxs := collect_append xs ys
      rw [List.cons_append, collect, collect]
      cases form.entries? b with
      | some entries =>
          dsimp only
          rw [hxs]
          cases form.collect xs with
          | error e => rfl
          | ok es => cases form.collect ys <;> simp [Except.map, Except.bind]
      | none =>
          dsimp only
          split
          · exact hxs
          · rfl

/-- There is one complaint. -/
theorem collect_eq_error : ∀ {bs : List Block} {cause : CommandCause},
    form.collect bs = .error cause → cause = .shape form.fault
  | b :: rest, cause, h => by
      rw [collect] at h
      cases hentries : form.entries? b with
      | some entries =>
          rw [hentries] at h
          dsimp only at h
          cases hrest : form.collect rest with
          | error e =>
              rw [hrest] at h
              cases h
              exact collect_eq_error hrest
          | ok es =>
              rw [hrest] at h
              cases h
      | none =>
          rw [hentries] at h
          dsimp only at h
          split at h
          · exact collect_eq_error h
          · cases h
            rfl

end collect

/-! ### The command -/

/-- What names stand for inside the list. -/
def scope (form : ListForm) : Scope Builtin := standardScope.inside (.ofDefinitions [form.member])

/-- The world that the body of the list is evaluated in. -/
def world (form : ListForm) (source : Source) (maxDepth : Int) : World Builtin where
  scope := form.scope
  source := source
  depth := 1
  maxDepth := maxDepth

/-- What the command does with the blocks of its body. -/
def finish (form : ListForm) (blocks : List Block) : Eval Unit :=
  collected (form.collect blocks) >>= fun entries => Eval.pushBlock (form.ofEntries entries)

theorem finish_items (kind : ListKind) (blocks : List Block) :
    (do Eval.pushBlock (.list kind (← collected (collectItems blocks)))) =
      (itemized kind).finish blocks := by
  rw [collectItems_eq kind, finish]
  cases (itemized kind).collect blocks <;> rfl

theorem finish_terms (blocks : List Block) :
    (do Eval.pushBlock (.termList (← collected (collectTerms blocks)))) =
      glossary.finish blocks := by
  rw [collectTerms_eq, finish]
  cases glossary.collect blocks <;> rfl

/-- The command for the list, given a body. -/
theorem exists_bind (form : ListForm) (pieces : List Piece) : ∃ i rest,
    Builtin.library.invoke form.command.kind ⟨[.ofPieces pieces], []⟩ = .ok (i, rest) ∧
      i.locals = some (.ofDefinitions [form.member]) ∧ ∀ run, i.body run =
        (Eval.nested (do run pieces; Eval.ofBuild Build.intoBlocks) >>= form.finish) := by
  cases form with
  | itemized kind =>
      have hkind : (itemized kind).command.kind = .list kind := by cases kind <;> rfl
      rw [hkind, Builtin.library_invoke]
      exact ⟨_, _, rfl, rfl, fun run => bind_congr (finish_items kind)⟩
  | glossary =>
      rw [Builtin.library_invoke]
      exact ⟨_, _, rfl, rfl, fun run => bind_congr finish_terms⟩

/-- What a list comes to where it stands alone. -/
theorem call_run (form : ListForm) {source : Source} {maxDepth : Int} {c : Call} {value : Span}
    {pieces : List Piece} (hroom : 1 ≤ maxDepth) (hname : c.name.fragment = form.command.name)
    (hargs : c.args = [⟨none, value⟩]) (hread : readMarkup source value = .ok pieces)
    (log : List LogEntry) :
    (standardWorld source maxDepth).call {} Builtin.library c ⟨{}, log⟩ =
      match (form.world source maxDepth).intoBlocks pieces
        ⟨{}, log ++ (standardWorld source maxDepth).tells c⟩ with
      | (.error f, after) =>
          (.error ((standardWorld source maxDepth).settle c f), ⟨{}, after.log⟩)
      | (.ok blocks, after) =>
          match form.collect blocks with
          | .error cause =>
              (.error (.command ⟨cause, some c.name, some source.text⟩), ⟨{}, after.log⟩)
          | .ok entries => (.ok (), ⟨{ blocks := [form.ofEntries entries] }, after.log⟩) := by
  have hfind : (standardWorld source maxDepth).scope.find? c.name.fragment = some form.command := by
    rw [hname]
    rcases form with (_ | _) | _ <;> rfl
  have hmode : form.command.mode = .markup := by rcases form with (_ | _) | _ <;> rfl
  have hbody : Args.read form.command.mode (standardWorld source maxDepth).source c.args =
      .ok ⟨[.ofPieces pieces], []⟩ := by
    rw [hargs, hmode]
    change (readMarkup source value >>= fun pieces => _) = _
    rw [hread]
    rfl
  obtain ⟨i, rest, hbind, hlocals, hrun⟩ := form.exists_bind pieces
  obtain ⟨levels, hlevels⟩ : ∃ levels, (maxDepth - 0).toNat = levels + 1 :=
    ⟨(maxDepth - 0).toNat - 1, by omega⟩
  have hinner : (standardWorld source maxDepth).inner i.locals = form.world source maxDepth := by
    rw [hlocals]
    rfl
  have hinside : World.callWithin {} Builtin.library levels (form.world source maxDepth) =
      (form.world source maxDepth).call {} Builtin.library := by
    funext c
    have hleft : (maxDepth - 1).toNat = levels := by omega
    change _ = World.callWithin {} Builtin.library (maxDepth - 1).toNat _ c
    rw [hleft]
  change World.callWithin {} Builtin.library (maxDepth - 0).toNat _ c _ = _
  rw [hlevels, World.callWithin_succ, World.callBody_run, World.found_eq_ok hfind hbody hbind]
  dsimp only
  have hblocks : (do
      runPieces ((form.world source maxDepth).call {} Builtin.library) pieces
      Eval.ofBuild Build.intoBlocks) = (form.world source maxDepth).intoBlocks pieces := rfl
  rw [hinner, hinside, hrun, hblocks, adapt_run, bind_run, nested_run]
  dsimp only
  rcases (form.world source maxDepth).intoBlocks pieces
    ⟨{}, log ++ (standardWorld source maxDepth).tells c⟩ with ⟨f | blocks, after⟩
  · rfl
  · dsimp only
    rw [finish, bind_run]
    cases form.collect blocks <;> rfl

end ListForm

/-- The pieces, on a builder of their own, come to these blocks. -/
def World.Gives (w : World Builtin) (pieces : List Piece) (blocks : List Block) : Prop :=
  ∃ s, w.intoBlocks pieces {} = (.ok blocks, s)

theorem World.Gives.exists_pieceAdds {w : World Builtin} {pieces : List Piece}
    {blocks : List Block} (h : w.Gives pieces blocks) :
    ∃ adds, List.Forall₂ w.PieceAdds pieces adds := by
  obtain ⟨s, hblocks⟩ := h
  obtain ⟨_, s', hrun, -⟩ := exists_of_bind_eq_ok hblocks
  exact exists_pieceAdds_of_run hrun

theorem World.gives_iff {w : World Builtin} {pieces : List Piece} {blocks : List Block}
    (log : List LogEntry) :
    w.Gives pieces blocks ↔ ∃ s, w.intoBlocks pieces ⟨{}, log⟩ = (.ok blocks, s) := by
  have hrepeats : Repeats (w.intoBlocks pieces) (w.intoBlocks pieces) :=
    (run_repeats w w rfl rfl rfl rfl).bind fun _ => .ofBuild Build.quiet_intoBlocks
  constructor
  · rintro ⟨s, h⟩
    obtain ⟨last, h'⟩ := hrepeats _ _ _ h log
    exact ⟨_, h'⟩
  · rintro ⟨s, h⟩
    obtain ⟨last, h'⟩ := hrepeats _ _ _ h []
    exact ⟨_, h'⟩

namespace ListForm

section alone

variable {form : ListForm} {source : Source} {maxDepth : Int} {c : Call} {value : Span}
  {pieces : List Piece} {blocks : List Block}

/-- The source is one list, and its body has been read. -/
structure Alone (form : ListForm) (source : Source) (c : Call) (pieces : List Piece) : Prop where
  read : readMarkup source source.span = .ok [.call c]
  name : c.name.fragment = form.command.name
  body : ∃ value, c.args = [⟨none, value⟩] ∧ readMarkup source value = .ok pieces

theorem evaluateStandard_alone (h : form.Alone source c pieces) (hroom : 1 ≤ maxDepth) :
    (evaluateStandard source maxDepth).1 =
      match (form.world source maxDepth).intoBlocks pieces
        ⟨{}, (standardWorld source maxDepth).tells c⟩ with
      | (.error f, _) => .error ((standardWorld source maxDepth).settle c f).toError
      | (.ok blocks, _) =>
          match form.collect blocks with
          | .error cause => .error (.command ⟨cause, some c.name, some source.text⟩)
          | .ok entries => .ok ⟨[], [form.ofEntries entries]⟩ := by
  obtain ⟨value, hargs, hread⟩ := h.body
  have hcall := form.call_run hroom h.name hargs hread []
  rw [List.nil_append] at hcall
  rw [evaluateStandard_eq h.read, evaluatePieces, bind_run, World.run, runPieces_cons, bind_run,
    runPiece, hcall]
  rcases (form.world source maxDepth).intoBlocks pieces
    ⟨{}, (standardWorld source maxDepth).tells c⟩ with ⟨f | blocks, after⟩
  · rfl
  · dsimp only
    cases form.collect blocks <;> rfl

/-- Evaluation succeeds where the body comes to blocks that can be collected. -/
theorem evaluateStandard_eq_ok_iff (h : form.Alone source c pieces) (hroom : 1 ≤ maxDepth)
    {d : Document} : (evaluateStandard source maxDepth).1 = .ok d ↔ ∃ blocks entries,
      (form.world source maxDepth).Gives pieces blocks ∧ form.collect blocks = .ok entries ∧
        d = ⟨[], [form.ofEntries entries]⟩ := by
  simp only [World.gives_iff ((standardWorld source maxDepth).tells c)]
  rw [evaluateStandard_alone h hroom]
  rcases (form.world source maxDepth).intoBlocks pieces
    ⟨{}, (standardWorld source maxDepth).tells c⟩ with ⟨f | blocks, after⟩
  · refine iff_of_false (fun hok => ?_) ?_
    · cases hok
    · rintro ⟨blocks, entries, ⟨s, hgives⟩, -⟩
      cases hgives
  · dsimp only
    constructor
    · intro hok
      cases hcollect : form.collect blocks with
      | error cause =>
          rw [hcollect] at hok
          cases hok
      | ok entries =>
          rw [hcollect] at hok
          cases hok
          exact ⟨blocks, entries, ⟨after, rfl⟩, hcollect, rfl⟩
    · rintro ⟨blocks', entries, ⟨s, hgives⟩, hcollect, rfl⟩
      cases hgives
      rw [hcollect]

/-- A body that cannot be collected is complained of at the name of the list. -/
theorem evaluateStandard_eq_error (h : form.Alone source c pieces) (hroom : 1 ≤ maxDepth)
    (hgives : (form.world source maxDepth).Gives pieces blocks) {cause : CommandCause}
    (hcollect : form.collect blocks = .error cause) : (evaluateStandard source maxDepth).1 =
      .error (.command ⟨.shape form.fault, some c.name, some source.text⟩) := by
  obtain ⟨s, hblocks⟩ := (World.gives_iff ((standardWorld source maxDepth).tells c)).mp hgives
  obtain rfl := collect_eq_error hcollect
  rw [evaluateStandard_alone h hroom, hblocks]
  dsimp only
  rw [hcollect]

end alone

end ListForm

end Markup
