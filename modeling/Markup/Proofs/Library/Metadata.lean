import Markup.Proofs.Call.Tiling
import Markup.Proofs.Library.Paragraphs
import Markup.Proofs.Library.Scoping

/-! # Metadata

**The metadata of a document is what the metadata commands outside all arguments set**, in their
order, later entries for a key in place of earlier ones (`evaluateStandard_metadata`).  So if there
are no others, the metadata is that of all metadata commands.

A metadata command inside an argument is run like any other (`callWithin_metadata` holds at every
depth), but on the builder that the argument is evaluated on, of which only the content is kept.
Its entries are lost (`evaluateStandard_metadata_lost`). -/

namespace Markup

open Text

/-! ### Entries -/

/-- The key and value of an argument with a name. -/
def TreeArgument.entry? : TreeArgument → Option (String × String)
  | .keyword name value => some (name, value)
  | .positional _ => none

/-- The entries of a metadata command. -/
def Tree.ownEntries : Tree → List (String × String)
  | .text _ => []
  | .call name args => if name = "meta" then args.filterMap TreeArgument.entry? else []

mutual

/-- The entries of all metadata commands in a tree, in order. -/
def Tree.entries : Tree → List (String × String)
  | .text _ => []
  | .call name args => (Tree.call name args).ownEntries ++ argumentsEntries args

/-- The entries of all metadata commands in trees, in order. -/
def treesEntries : List Tree → List (String × String)
  | [] => []
  | t :: rest => t.entries ++ treesEntries rest

/-- The entries of all metadata commands inside arguments, in order. -/
def argumentsEntries : List TreeArgument → List (String × String)
  | [] => []
  | .positional content :: rest => treesEntries content ++ argumentsEntries rest
  | .keyword _ _ :: rest => argumentsEntries rest

end

/-- The entries of metadata commands inside the arguments of a tree. -/
def Tree.innerEntries : Tree → List (String × String)
  | .text _ => []
  | .call _ args => argumentsEntries args

theorem treesEntries_eq_own : ∀ {trees : List Tree}, (∀ t ∈ trees, t.innerEntries = []) →
    treesEntries trees = trees.flatMap Tree.ownEntries
  | [], _ => by rw [treesEntries, List.flatMap_nil]
  | t :: rest, h => by
      have hfirst : t.entries = t.ownEntries := by
        cases t with
        | text text => rw [Tree.entries, Tree.ownEntries]
        | call name args =>
            have hinner : argumentsEntries args = [] := h _ List.mem_cons_self
            rw [Tree.entries, hinner, List.append_nil]
      rw [treesEntries, List.flatMap_cons, hfirst,
        treesEntries_eq_own fun u hu => h u (List.mem_cons_of_mem t hu)]

/-- The key and value of an argument with a name, as it is read. -/
def Argument.entry? (a : Argument) : Option (String × String) :=
  a.name.map fun name => (name.fragment, a.value.fragment)

/-- The entries of a call of a metadata command. -/
def Call.ownEntries (c : Call) : List (String × String) :=
  if c.name.fragment = "meta" then c.args.filterMap Argument.entry? else []

/-- The entries of a piece that is a metadata command. -/
def Piece.ownEntries : Piece → List (String × String)
  | .text _ => []
  | .call c => c.ownEntries

theorem Argument.entry?_of_name {a : Argument} {name : Span} (h : a.name = some name) :
    a.entry? = some (name.fragment, a.value.fragment) := by
  rw [Argument.entry?, h]
  rfl

theorem Argument.entry?_of_noName {a : Argument} (h : a.name = none) : a.entry? = none := by
  rw [Argument.entry?, h]
  rfl

section trees

variable {source : Source} {modes : String → ArgMode}

theorem ok_of_bind_eq_ok {ε α β : Type} {x : Except ε α} {f : α → Except ε β} {b : β}
    (h : (x >>= f) = .ok b) : ∃ a, x = .ok a ∧ f a = .ok b := by
  cases x with
  | error e => cases h
  | ok a => exact ⟨a, rfl, h⟩

theorem argumentsTrees_entries {mode : ArgMode} : ∀ {arguments : List Argument}
    {args : List TreeArgument}, argumentsTrees source modes mode arguments = .ok args →
      args.filterMap TreeArgument.entry? = arguments.filterMap Argument.entry?
  | [], args, h => by
      rw [argumentsTrees] at h
      cases h
      rfl
  | a :: rest, args, h => by
      rw [argumentsTrees] at h
      cases hname : a.name with
      | some name =>
          rw [hname] at h
          obtain ⟨more, hrest, hargs⟩ := ok_of_bind_eq_ok h
          cases hargs
          rw [List.filterMap_cons_some (by rw [TreeArgument.entry?]),
            List.filterMap_cons_some (Argument.entry?_of_name hname), argumentsTrees_entries hrest]
      | none =>
          rw [hname] at h
          dsimp only at h
          split at h
          · cases h
          · next pieces hread =>
            obtain ⟨content, hcontent, hmore⟩ := ok_of_bind_eq_ok h
            obtain ⟨more, hrest, hargs⟩ := ok_of_bind_eq_ok hmore
            cases hargs
            rw [List.filterMap_cons_none (by rw [TreeArgument.entry?]),
              List.filterMap_cons_none (Argument.entry?_of_noName hname),
              argumentsTrees_entries hrest]

/-- The metadata commands among trees are those among the pieces. -/
theorem piecesTrees_ownEntries : ∀ {pieces : List Piece} {trees : List Tree},
    piecesTrees source modes pieces = .ok trees →
      trees.flatMap Tree.ownEntries = pieces.flatMap Piece.ownEntries
  | [], trees, h => by
      rw [piecesTrees] at h
      cases h
      rfl
  | .text span :: rest, trees, h => by
      rw [piecesTrees] at h
      obtain ⟨more, hrest, htrees⟩ := ok_of_bind_eq_ok h
      cases htrees
      rw [List.flatMap_cons, List.flatMap_cons, piecesTrees_ownEntries hrest]
      rfl
  | .call c :: rest, trees, h => by
      rw [piecesTrees] at h
      obtain ⟨args, hargs, hmore⟩ := ok_of_bind_eq_ok h
      obtain ⟨more, hrest, htrees⟩ := ok_of_bind_eq_ok hmore
      cases htrees
      rw [List.flatMap_cons, List.flatMap_cons, piecesTrees_ownEntries hrest, Tree.ownEntries,
        argumentsTrees_entries hargs]
      rfl

end trees

theorem Metadata.update_append (m entries more : Metadata) :
    m.update (entries ++ more) = (m.update entries).update more := List.foldl_append

/-! ### Values -/

theorem exists_literalText_cons {span : Span} {rest : List Piece} {s : String}
    (h : literalText (.text span :: rest) = .ok s) :
    ∃ more, literalText rest = .ok more ∧ s = span.fragment ++ more := by
  rw [literalText] at h
  cases hrest : literalText rest with
  | error e =>
      rw [hrest] at h
      cases h
  | ok more =>
      rw [hrest] at h
      cases h
      exact ⟨more, rfl, rfl⟩

/-- The text of pieces that were read off a region, if they are text, is that of the region. -/
theorem Tiles.literalText {region : Span} {before : List Char} {pieces : List Piece}
    (h : Tiles region before pieces) : ∀ {s : String}, Markup.literalText pieces = .ok s →
      region.fragment.toList = before ++ s.toList := by
  induction h with
  | done =>
      intro s hs
      cases hs
      exact (List.append_nil _).symm
  | @next before part after p rest hchars hne hp htiles ih =>
      intro s hs
      cases p with
      | call c => cases hs
      | text span =>
          obtain ⟨more, hmore, rfl⟩ := exists_literalText_cons hs
          have hspan : span.fragment.toList = part := by
            cases hp with
            | run hspan _ _ => rw [hspan.2, String.toList_ofList]
            | newline _ hspan _ _ => rw [hspan.2, String.toList_ofList]
          rw [ih hmore, String.toList_append, hspan, List.append_assoc]

theorem ArgMode.read_literalText {mode : ArgMode} {source : Source} {region : Span}
    {pieces : List Piece} {s : String} (hread : mode.read source region = .ok pieces)
    (hs : literalText pieces = .ok s) : s = region.fragment := by
  cases mode with
  | markup =>
      obtain ⟨hend, rfl⟩ := readMarkup_eq_ok_iff.mp hread
      have hbetween : (Reader.ofRegion region).Between [] region.fragment.toList := ⟨rfl, rfl, rfl⟩
      have htiles := (scanRegion_run region.fragment.toList).tiles hend hbetween
        (.inr fun c hc => by cases hc)
      exact (String.toList_inj.mp (htiles.literalText hs)).symm
  | literal =>
      cases hread
      obtain ⟨more, hmore, rfl⟩ := exists_literalText_cons hs
      cases hmore
      exact String.append_empty

/-- A keyword and a value: if the keyword is text, it is that value.  It need not be text, since a
later keyword of the same name may take its place before it is used. -/
def ValueOf (k : String × Deferred) (entry : String × String) : Prop :=
  k.1 = entry.1 ∧ ∀ s, k.2.intoString.1 = .ok s → s = entry.2

theorem valueOf_set {key value : String} {t : Deferred} (h : ValueOf (key, t) (key, value))
    {ks : Keywords} {m : Metadata} (hks : List.Forall₂ ValueOf ks m) :
    List.Forall₂ ValueOf (ks.set key t) (m.set key value) := by
  induction hks with
  | nil => exact .cons h .nil
  | @cons k entry ks m hk hrest ih =>
      obtain ⟨name, old⟩ := k
      obtain ⟨name', old'⟩ := entry
      obtain ⟨rfl, hold⟩ : name = name' ∧ _ := hk
      unfold Keywords.set Metadata.set
      by_cases hname : name = key
      · rw [if_pos hname, if_pos hname]
        exact .cons ⟨rfl, h.2⟩ hrest
      · rw [if_neg hname, if_neg hname]
        exact .cons ⟨rfl, hold⟩ ih

/-- The keywords of a call have the values that are written there, the last one for each key. -/
theorem readFrom_valueOf {mode : ArgMode} {source : Source} : ∀ {arguments : List Argument}
    {args args' : Args} {m : Metadata}, List.Forall₂ ValueOf args.keywords m →
      Args.readFrom mode source args arguments = .ok args' →
      List.Forall₂ ValueOf args'.keywords (m.update (arguments.filterMap Argument.entry?))
  | [], args, args', m, hargs, h => by
      cases h
      exact hargs
  | a :: rest, args, args', m, hargs, h => by
      unfold Args.readFrom at h
      obtain ⟨pieces, hread, hrest⟩ := ok_of_bind_eq_ok h
      cases hname : a.name with
      | none =>
          have hadd : List.Forall₂ ValueOf (args.add none (.ofPieces pieces)).keywords m := hargs
          rw [hname] at hrest
          rw [List.filterMap_cons_none (Argument.entry?_of_noName hname)]
          exact readFrom_valueOf hadd hrest
      | some name =>
          have hvalue : ValueOf (name.fragment, .ofPieces pieces)
              (name.fragment, a.value.fragment) :=
            ⟨rfl, fun _ hs => mode.read_literalText hread hs⟩
          have hadd : List.Forall₂ ValueOf (args.add (some name) (.ofPieces pieces)).keywords
              (m.set name.fragment a.value.fragment) := valueOf_set hvalue hargs
          rw [hname] at hrest
          rw [List.filterMap_cons_some (Argument.entry?_of_name hname), Metadata.update_cons]
          exact readFrom_valueOf hadd hrest

/-! ### Commands -/

theorem string_eq_ok {t : Deferred} {s s' : Session} {text : String}
    (h : t.string s = (.ok text, s')) : t.intoString.1 = .ok text ∧ s' = s := by
  unfold Deferred.string at h
  cases hstring : t.intoString.1 with
  | error e =>
      rw [hstring] at h
      cases h
  | ok found =>
      rw [hstring] at h
      cases h
      exact ⟨rfl, rfl⟩

theorem setEntries_eq_ok {ks : Keywords} {m : Metadata} (hks : List.Forall₂ ValueOf ks m) :
    ∀ {s s' : Session}, setEntries ks s = (.ok (), s') →
      s'.builder.metadata = s.builder.metadata.update m := by
  induction hks with
  | nil =>
      intro s s' h
      cases h
      rfl
  | @cons k entry ks m hk hrest ih =>
      intro s s' h
      obtain ⟨key, t⟩ := k
      obtain ⟨key', value⟩ := entry
      obtain ⟨rfl, hvalue⟩ : key = key' ∧ _ := hk
      rw [setEntries] at h
      obtain ⟨text, s₁, hstring, h⟩ := exists_of_bind_eq_ok h
      obtain ⟨_, s₂, hset, h⟩ := exists_of_bind_eq_ok h
      obtain ⟨htext, rfl⟩ := string_eq_ok hstring
      cases hset
      rw [ih h, Metadata.update_cons, hvalue text htext]

namespace Eval

/-- The step leaves the metadata as it is. -/
def KeepsMetadata {α : Type} (x : Eval α) : Prop :=
  ∀ s, (x s).2.builder.metadata = s.builder.metadata

section keeps

variable {α β : Type}

theorem Silent.keepsMetadata {x : Eval α} (h : Silent x) : KeepsMetadata x := by
  rintro ⟨b, log⟩
  obtain ⟨outcome, last, hx⟩ := h log
  rw [hx]

theorem KeepsMetadata.bind {x : Eval α} {f : α → Eval β} (h : KeepsMetadata x)
    (hnext : ∀ a, KeepsMetadata (f a)) : KeepsMetadata (x >>= f) := by
  intro s
  have hx := h s
  rw [bind_run]
  rcases hrun : x s with ⟨e | a, s'⟩
  · rw [hrun] at hx
    exact hx
  · rw [hrun] at hx
    exact (hnext a s').trans hx

theorem keepsMetadata_drain (s : Session) :
    (Build.drain s).2.builder.metadata = s.builder.metadata := by
  obtain ⟨b, log⟩ := s
  rw [Build.drain_run]
  split
  · rfl
  · split <;> rfl

theorem keepsMetadata_pushBlock (value : Block) : KeepsMetadata (pushBlock value) := by
  intro s
  have hdrain := keepsMetadata_drain s
  rw [pushBlock, push, ofBuild, Build.push, adapt_run, pushBlock_run]
  rcases hrun : Build.drain s with ⟨e | u, s'⟩
  · rw [hrun] at hdrain
    exact hdrain
  · rw [hrun] at hdrain
    exact hdrain

theorem keepsMetadata_pushInline (i : Inline) : KeepsMetadata (pushInline i) := by
  intro s
  rw [pushInline, push, ofBuild, Build.push]
  rfl

end keeps

end Eval

open Eval Args in
/-- Every other command leaves the metadata as it is. -/
theorem Builtin.invoke_keepsMetadata {kind : Builtin} (hkind : kind ≠ .metadata) :
    Returns (fun i => ∀ run, KeepsMetadata (i.body run)) kind.invoke := by
  have hnested : ∀ {α : Type} (x : Eval α) {f : α → Eval Unit}, (∀ a, KeepsMetadata (f a)) →
      KeepsMetadata (nested x >>= f) := fun x f h => (silent_nested x).keepsMetadata.bind h
  cases kind with
  | metadata => exact (hkind rfl).elim
  | par => exact .bind fun _ => .pure fun _ => keepsMetadata_pushBlock _
  | rule => exact .bind fun _ => .pure fun _ => keepsMetadata_pushBlock _
  | heading level =>
      exact .bind fun t => .pure fun run => hnested _ fun _ => keepsMetadata_pushBlock _
  | quote => exact .bind fun t => .pure fun run => hnested _ fun _ => keepsMetadata_pushBlock _
  | styled style =>
      exact .bind fun t => .pure fun run => hnested _ fun _ => keepsMetadata_pushInline _
  | footnote => exact .bind fun t => .pure fun run => hnested _ fun _ => keepsMetadata_pushInline _
  | item => exact .bind fun t => .pure fun run => hnested _ fun _ => keepsMetadata_pushBlock _
  | list kind =>
      refine .bind fun t => .pure fun run => hnested _ fun blocks => ?_
      exact (silent_collected _).keepsMetadata.bind fun _ => keepsMetadata_pushBlock _
  | terms =>
      refine .bind fun t => .pure fun run => hnested _ fun blocks => ?_
      exact (silent_collected _).keepsMetadata.bind fun _ => keepsMetadata_pushBlock _
  | term =>
      refine .bind fun t => .bind fun u => .bind fun _ => .pure fun run => hnested _ fun term => ?_
      exact hnested _ fun _ => keepsMetadata_pushBlock _
  | math display =>
      refine .bind fun t => .pure fun run => (silent_string t).keepsMetadata.bind fun tex => ?_
      cases display with
      | true => exact keepsMetadata_pushBlock _
      | false => exact keepsMetadata_pushInline _
  | code block =>
      refine .bind fun t => .bind fun lang => .bind fun _ => .pure fun run => ?_
      refine (silent_string t).keepsMetadata.bind fun content => ?_
      refine (silent_mapM silent_string lang).keepsMetadata.bind fun language => ?_
      cases block with
      | true => exact keepsMetadata_pushBlock _
      | false => exact keepsMetadata_pushInline _
  | link =>
      have hbody : ∀ (url : Deferred) (text : Option Deferred) (run : Runner), KeepsMetadata (do
          let content ← text.mapM (Deferred.intoInlines run)
          pushInline (.link (← url.string) content none .url)) := by
        intro url text run
        refine (silent_mapM (fun t => silent_nested _) text).keepsMetadata.bind fun content => ?_
        exact (silent_string url).keepsMetadata.bind fun _ => keepsMetadata_pushInline _
      refine .bind fun found => ?_
      cases found with
      | some url =>
          refine .bind fun url => .bind fun args => ?_
          dsimp only
          split
          · exact .bind fun text => .bind fun _ => .pure (hbody url text)
          · exact .bind fun text => .bind fun _ => .pure (hbody url text)
      | none =>
          refine .bind fun url => .bind fun args => ?_
          dsimp only
          split
          · exact .bind fun text => .bind fun _ => .pure (hbody url text)
          · exact .bind fun text => .bind fun _ => .pure (hbody url text)

/-- A metadata command takes all keywords, and sets them. -/
theorem Builtin.metadata_bind {args rest : Args} {i : Invocation Builtin}
    (h : Builtin.metadata.invoke args = .ok (i, rest)) (run : Runner) :
    i.body run = setEntries args.keywords := by
  rw [Builtin.invoke] at h
  obtain ⟨_, args₁, hcheck, htake⟩ := Args.bind_ok h
  obtain ⟨-, rfl⟩ := Args.checkNoPositional_ok hcheck
  cases htake
  rfl

/-! ### Calls -/

theorem eq_ok_of_adapt_eq_ok {f : Failure → Failure} {x : Eval Unit} {s s' : Session}
    (h : ExceptT.adapt f x s = (.ok (), s')) : x s = (.ok (), s') := by
  rw [adapt_run] at h
  rcases hx : x s with ⟨e | u, after⟩
  · rw [hx] at h
    cases h
  · rw [hx] at h
    cases h
    rfl

theorem kind_eq_metadata_iff : ∀ d ∈ knownDefinitions,
    d.kind = .metadata ↔ d.name = "meta" := by decide +kernel

/-- What a call sets, at whatever depth: its entries if it is a metadata command, and else
nothing. -/
theorem callWithin_metadata {levels : Nat} {w : World Builtin} {c : Call} {active : List String}
    {s s' : Session} (hscope : Scoped active w.scope)
    (h : w.callWithin {} Builtin.library levels c s = (.ok (), s')) :
    s'.builder.metadata = s.builder.metadata.update c.ownEntries := by
  cases levels with
  | zero => cases h
  | succ levels =>
      rw [World.callWithin_succ, World.callBody_run] at h
      cases hfound : w.found Builtin.library c with
      | error e =>
          rw [hfound] at h
          cases h
      | ok found =>
          obtain ⟨d, i⟩ := found
          obtain ⟨hfind, args, rest, hread, hbind⟩ := World.exists_of_found_eq_ok hfound
          rw [Builtin.library_invoke] at hbind
          obtain ⟨hknown, hname⟩ := hscope.mem_known hfind
          rw [hfound] at h
          dsimp only at h
          have hbody := eq_ok_of_adapt_eq_ok h
          by_cases hkind : d.kind = .metadata
          · rw [hkind] at hbind
            rw [Builtin.metadata_bind hbind] at hbody
            have hmeta : c.name.fragment = "meta" :=
              hname.symm.trans ((kind_eq_metadata_iff d hknown).mp hkind)
            rw [setEntries_eq_ok (readFrom_valueOf .nil hread) hbody, Call.ownEntries, if_pos hmeta,
              Metadata.update_update (by simp : (([] : Metadata).map Prod.fst).Nodup)]
            rfl
          · have hmeta : c.name.fragment ≠ "meta" := fun hmeta =>
              hkind ((kind_eq_metadata_iff d hknown).mpr (hname.trans hmeta))
            have hkeeps := Builtin.invoke_keepsMetadata hkind args i rest hbind
              (runPieces (World.callWithin {} Builtin.library levels (w.inner i.locals)))
              { s with log := s.log ++ w.tells c }
            rw [hbody] at hkeeps
            rw [Call.ownEntries, if_neg hmeta]
            exact hkeeps

/-- What pieces set that are run one after the other, at whatever depth. -/
theorem runPieces_metadata {call : Call → Eval Unit}
    (hcall : ∀ {c : Call} {s s' : Session}, call c s = (.ok (), s') →
      s'.builder.metadata = s.builder.metadata.update c.ownEntries) :
    ∀ {pieces : List Piece} {s s' : Session}, runPieces call pieces s = (.ok (), s') →
      s'.builder.metadata = s.builder.metadata.update (pieces.flatMap Piece.ownEntries)
  | [], s, s', h => by
      cases h
      rfl
  | .text span :: rest, s, s', h => by
      rw [runPieces] at h
      obtain ⟨_, s₁, hpush, h⟩ := exists_of_bind_eq_ok h
      cases hpush
      have hrest := runPieces_metadata hcall h
      rw [hrest, List.flatMap_cons]
      rfl
  | .call c :: rest, s, s', h => by
      rw [runPieces] at h
      obtain ⟨_, s₁, hfirst, h⟩ := exists_of_bind_eq_ok h
      rw [runPieces_metadata hcall h, hcall hfirst, List.flatMap_cons, Metadata.update_append]
      rfl

/-! ### Documents -/

/-- A source that can be evaluated has a parse tree. -/
theorem exists_trees {source : Source} {maxDepth : Int} {d : Document}
    (h : (evaluateStandard source maxDepth).1 = .ok d) : ∃ trees, source.trees = .ok trees := by
  obtain ⟨pieces, s, s', hread, hrun, -⟩ := evaluateStandard_eq_ok_iff.mp h
  have hstands := readMarkup_standsIn source source.span_standsIn
  rw [hread] at hstands
  have hyields : Yields _ ((standardWorld source maxDepth).run {} Builtin.library pieces) _ :=
    run_yields standardScope_standard hstands
  obtain ⟨-, _, -, cs, ⟨trees, htrees, -⟩, -⟩ := (hyields {} ⟨trivial, trivial⟩).of_eq_ok hrun
  refine ⟨trees, ?_⟩
  rw [Source.trees, hread]
  exact htrees

/-- **The metadata of a document is what the metadata commands outside all arguments set**; if there
are none inside arguments, it is what all metadata commands set. -/
theorem evaluateStandard_metadata {source : Source} {maxDepth : Int} {d : Document}
    (h : (evaluateStandard source maxDepth).1 = .ok d) :
    ∃ trees, source.trees = .ok trees ∧
      d.metadata = Metadata.ofPairs (trees.flatMap Tree.ownEntries) ∧
      ((∀ t ∈ trees, t.innerEntries = []) →
        d.metadata = Metadata.ofPairs (treesEntries trees)) := by
  obtain ⟨pieces, s, s', hread, hrun, hdocument⟩ := evaluateStandard_eq_ok_iff.mp h
  obtain ⟨trees, htrees⟩ := exists_trees h
  have hset : s.builder.metadata = Metadata.update [] (pieces.flatMap Piece.ownEntries) :=
    runPieces_metadata (fun hcall => callWithin_metadata standardScope_scoped hcall) hrun
  obtain ⟨hdrain, rfl⟩ := intoDocument_eq_ok_iff.mp hdocument
  have hmetadata : s'.builder.metadata = Metadata.ofPairs (trees.flatMap Tree.ownEntries) := by
    have hkeeps := Eval.keepsMetadata_drain s
    rw [hdrain] at hkeeps
    rw [Source.trees, hread] at htrees
    rw [hkeeps, hset, piecesTrees_ownEntries htrees]
    rfl
  refine ⟨trees, htrees, hmetadata, fun hinner => ?_⟩
  rw [treesEntries_eq_own hinner]
  exact hmetadata

/-- Two metadata commands around other content, where the second one sets a key again. -/
def twiceSetSource : Source where
  text := "\\meta\x7ba=1\x7d\x7bb=2\x7d\\emph\x7bc\x7d\n\n\\meta\x7ba=\x7d\x7ba=3 \x7d"

theorem evaluateStandard_metadata_twice :
    ∃ d, (evaluateStandard twiceSetSource defaultMaxDepth).1 = .ok d ∧
      d.metadata = [("a", "3 "), ("b", "2")] ∧
      ∃ trees, twiceSetSource.trees = .ok trees ∧
        d.metadata = Metadata.ofPairs (trees.flatMap Tree.ownEntries) ∧
        ((∀ t ∈ trees, t.innerEntries = []) →
          d.metadata = Metadata.ofPairs (treesEntries trees)) := by
  have hrun : (evaluateStandard twiceSetSource defaultMaxDepth).1.toOption.map
      Document.metadata = some [("a", "3 "), ("b", "2")] := by decide +kernel
  cases h : (evaluateStandard twiceSetSource defaultMaxDepth).1 with
  | error e =>
      rw [h] at hrun
      cases hrun
  | ok d =>
      rw [h] at hrun
      exact ⟨d, rfl, Option.some.inj hrun, evaluateStandard_metadata h⟩

/-- A metadata command in an argument. -/
def nestedSource : Source where
  text := "\\emph\x7b\\meta\x7btitle=lost\x7d\x7d"

/-- What a metadata command in an argument sets is not in the metadata. -/
theorem evaluateStandard_metadata_lost :
    (evaluateStandard nestedSource defaultMaxDepth).1.toOption.map Document.metadata = some [] ∧
    nestedSource.trees.toOption.map treesEntries = some [("title", "lost")] := by
  decide +kernel

end Markup
