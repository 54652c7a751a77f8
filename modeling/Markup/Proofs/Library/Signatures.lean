import Mathlib.Data.Finset.Sort
import Mathlib.Data.String.Basic
import Markup.Proofs.Args
import Markup.Proofs.Eval.Comparison
import Markup.Proofs.Library.Scoping

/-! # Which arguments the standard commands take

A `Signature` says which arguments a command takes: positional ones that must be given, how many
more may follow, and the keywords it knows.  What it makes of a number of positional arguments and
a set of keywords is `Signature.refusal`: a missing argument is told before one too many, and both
before unknown keywords, which are named in order.

A command takes the arguments off one by one and then looks whether any is left, and
`Builtin.bind_follows` says that this comes to the signature of its kind.  So `resolve_signature`
tells from a call which arguments it may have, and what the error is if it has others, where
`commandSignature` is the table of the commands by name. -/

namespace Markup

/-! ### Signatures -/

/-- The arguments that a command takes: positional ones that must be given, by name, and how many
may follow these; and the keywords it knows, where without a set it knows all. -/
structure Signature where
  required : List String := []
  optional : Nat := 0
  keywords : Option (Finset String) := some ∅

namespace Signature

/-- The keywords among those given that a command does not know. -/
def unknown (sig : Signature) (given : Finset String) : Finset String :=
  match sig.keywords with
  | some known => given \ known
  | none => ∅

/-- Whether a number of positional arguments and a set of keywords may be given. -/
def Accepts (sig : Signature) (count : Nat) (given : Finset String) : Prop :=
  sig.required.length ≤ count ∧ count ≤ sig.required.length + sig.optional ∧
    sig.unknown given = ∅

instance (sig : Signature) (count : Nat) (given : Finset String) :
    Decidable (sig.Accepts count given) := inferInstanceAs (Decidable (_ ∧ _ ∧ _))

/-- What is wrong with a number of positional arguments and a set of keywords. -/
def refusal (sig : Signature) (count : Nat) (given : Finset String) : Option ArgsError :=
  match sig.required[count]? with
  | some name => some (.missingPositional name)
  | none =>
    if sig.required.length + sig.optional < count then some .tooMany
    else if sig.unknown given = ∅ then none
    else some (.unexpectedKeywords ((sig.unknown given).sort (· ≤ ·)))

theorem refusal_eq_none_iff (sig : Signature) (count : Nat) (given : Finset String) :
    sig.refusal count given = none ↔ sig.Accepts count given := by
  unfold refusal Accepts
  cases hname : sig.required[count]? with
  | some name =>
      have hfew : count < sig.required.length := (List.getElem?_eq_some_iff.mp hname).1
      simp only [reduceCtorEq, false_iff]
      omega
  | none =>
      have henough : sig.required.length ≤ count := List.getElem?_eq_none_iff.mp hname
      dsimp only
      split
      · simp only [reduceCtorEq, false_iff]
        omega
      · split
        · next hknown => simp only [hknown, and_true, true_iff]; omega
        · next hunknown => simp [hunknown]

/-- An argument that is there makes no difference to those behind it. -/
theorem refusal_cons (sig : Signature) (name : String) (count : Nat) (given : Finset String) :
    { sig with required := name :: sig.required }.refusal (count + 1) given =
      sig.refusal count given := by
  have hmost : sig.required.length + 1 + sig.optional < count + 1 ↔
      sig.required.length + sig.optional < count := by omega
  unfold refusal unknown
  simp only [List.getElem?_cons_succ, List.length_cons, hmost]

/-- The same for one that may be left out. -/
theorem refusal_optional (count : Nat) (given : Finset String) :
    { optional := 1 : Signature }.refusal (count + 1) given =
      ({} : Signature).refusal count given := by
  have hmost : 0 + 1 < count + 1 ↔ 0 + 0 < count := by omega
  unfold refusal unknown
  simp only [List.getElem?_nil, List.length_nil, hmost]

/-- A keyword that is known is as good as one that is not given. -/
theorem refusal_known (required : List String) (optional : Nat) (name : String) (count : Nat)
    (given : Finset String) :
    { required, optional, keywords := some {name} : Signature }.refusal count given =
      { required, optional : Signature }.refusal count (given.erase name) := by
  unfold refusal unknown
  simp only [Finset.sdiff_singleton_eq_erase, Finset.sdiff_empty]

end Signature

/-- The arguments that a standard command takes, where `given` are the keywords of the call: the
target of a link may be one of them, and else it is the first positional argument. -/
def Builtin.signature (given : Finset String) : Builtin → Signature
  | .par | .rule => {}
  | .heading _ => { required := ["title"] }
  | .quote | .styled _ | .footnote | .item => { required := ["content"] }
  | .list _ | .terms => { required := ["body"] }
  | .math _ => { required := ["tex"] }
  | .code _ => { required := ["content"], keywords := some {"lang"} }
  | .term => { required := ["term", "definition"] }
  | .metadata => { keywords := none }
  | .link =>
    { required := if "url" ∈ given then [] else ["url"], optional := 1, keywords := some {"url"} }

/-! ### The names of keywords -/

theorem Keywords.nodup_set (name : String) (t : Deferred) : ∀ {ks : Keywords},
    (ks.map Prod.fst).Nodup → ((ks.set name t).map Prod.fst).Nodup
  | [], _ => List.nodup_singleton name
  | (n, old) :: rest, h => by
      obtain ⟨hnew, hrest⟩ := List.nodup_cons.mp h
      unfold Keywords.set
      split
      · exact h
      · next hne =>
        refine List.nodup_cons.mpr ⟨fun hmem => ?_, Keywords.nodup_set name t hrest⟩
        rcases Keywords.mem_keys_set.mp hmem with hmem | heq
        · exact hnew hmem
        · exact hne heq

theorem Args.readFrom_nodup {mode : ArgMode} {source : Source} : ∀ {arguments : List Argument}
    {args args' : Args}, (args.keywords.map Prod.fst).Nodup →
      Args.readFrom mode source args arguments = .ok args' → (args'.keywords.map Prod.fst).Nodup
  | [], _, _, h, heq => by
      cases heq
      exact h
  | a :: rest, args, args', h, heq => by
      unfold Args.readFrom at heq
      cases hread : mode.read source a.value with
      | error e =>
          rw [hread] at heq
          cases heq
      | ok pieces =>
          rw [hread] at heq
          refine Args.readFrom_nodup ?_ heq
          cases hname : a.name with
          | none => exact h
          | some name => exact Keywords.nodup_set name.fragment _ h

/-- Taking a keyword leaves the names of the others. -/
theorem Keywords.names_of_pop? {name : String} {t : Deferred} : ∀ {ks others : Keywords},
    ks.pop? name = some (t, others) → others.map Prod.fst = (ks.map Prod.fst).erase name
  | (n, old) :: rest, others, h => by
      unfold Keywords.pop? at h
      split at h
      · next heq =>
        cases h
        rw [List.map_cons, heq, List.erase_cons_head]
      · next hne =>
        obtain ⟨⟨found, others'⟩, hpop, heq⟩ := Option.map_eq_some_iff.mp h
        cases heq
        rw [List.map_cons, List.map_cons, List.erase_cons_tail (by simpa using hne),
          Keywords.names_of_pop? hpop]

/-! ### Taking arguments by a signature -/

namespace Args

/-- The names of the keywords that are left. -/
def names (args : Args) : Finset String := (args.keywords.map Prod.fst).toFinset

/-- A step that takes the arguments that a signature asks for, none being left, and refuses others
for the reason that the signature gives. -/
def Follows {α : Type} (take : Take α) (sig : Finset String → Signature) : Prop :=
  ∀ args : Args, (args.keywords.map Prod.fst).Nodup →
    match (sig args.names).refusal args.positional.length args.names with
    | none => ∃ a, take args = .ok (a, {})
    | some e => take args = .error e

section follows

variable {α β : Type}

/-- Names without repetition are sorted as the set of them is. -/
theorem mergeSort_eq_sort {names : List String} (h : names.Nodup) :
    names.mergeSort (fun a b => decide (a ≤ b)) = names.toFinset.sort (· ≤ ·) := by
  have hperm : (names.mergeSort fun a b => decide (a ≤ b)).Perm (names.toFinset.sort (· ≤ ·)) :=
    (List.mergeSort_perm names _).trans
      ((Finset.sort_perm_toList _ _).trans (List.toFinset_toList h)).symm
  refine hperm.eq_of_pairwise' ?_ (Finset.pairwise_sort _ _)
  have hsorted : (names.mergeSort fun a b => decide (a ≤ b)).Pairwise fun a b =>
      decide (a ≤ b) = true :=
    List.pairwise_mergeSort
      (fun a b c hab hbc => by simpa using le_trans (by simpa using hab) (by simpa using hbc))
      (fun a b => by simpa using le_total a b) names
  simpa using hsorted

/-- The last step: nothing may be left. -/
theorem checkNone_follows (a : α) : Follows (do checkNone; return a) fun _ => {} := by
  rintro ⟨positional, keywords⟩ hnodup
  cases positional with
  | cons t ts => rfl
  | nil =>
      cases keywords with
      | nil => exact ⟨a, rfl⟩
      | cons k ks =>
          have hsome : (Args.names ⟨[], k :: ks⟩) ≠ ∅ := by simp [names]
          simp only [Signature.refusal, Signature.unknown, List.getElem?_nil, List.length_nil,
            Nat.lt_irrefl, Finset.sdiff_empty, if_false, if_neg hsome]
          rw [names, ← mergeSort_eq_sort hnodup]
          rfl

theorem popPositional_follows (name : String) {sig : Signature} {next : Deferred → Take β}
    (h : ∀ t, Follows (next t) fun _ => sig) :
    Follows (popPositional (some name) >>= next) fun _ =>
      { sig with required := name :: sig.required } := by
  rintro ⟨positional, keywords⟩ hnodup
  cases positional with
  | nil => rfl
  | cons t ts =>
      have hrest := h t ⟨ts, keywords⟩ hnodup
      rw [List.length_cons, Signature.refusal_cons]
      exact hrest

/-- A keyword that may be given; what is asked for besides may depend on it. -/
theorem popOptional_follows (name : String) {required required' : List String} {optional : Nat}
    {next : Option Deferred → Take β} (hnone : Follows (next none) fun _ => { required, optional })
    (hsome : ∀ t, Follows (next (some t)) fun _ => { required := required', optional }) :
    Follows (popOptional name >>= next) fun given =>
      { required := if name ∈ given then required' else required, optional,
        keywords := some {name} } := by
  intro args hnodup
  rw [Comparison.take_bind_run, Comparison.popOptional_run, Signature.refusal_known]
  cases hpop : args.keywords.pop? name with
  | none =>
      have hnew : name ∉ args.names := by
        simpa [names] using Keywords.not_mem_of_pop? hpop
      rw [if_neg hnew, Finset.erase_eq_of_notMem hnew]
      exact hnone args hnodup
  | some found =>
      obtain ⟨t, others⟩ := found
      have hothers := Keywords.names_of_pop? hpop
      have hgiven : name ∈ args.names := by
        simpa [names] using List.mem_map_of_mem (f := Prod.fst) (Keywords.mem_of_pop? hpop).1
      have hleft : args.names.erase name = names { args with keywords := others } := by
        ext n
        simp only [names, hothers, Finset.mem_erase, List.mem_toFinset, hnodup.mem_erase_iff]
      rw [if_pos hgiven, hleft]
      exact hsome t { args with keywords := others } (hothers ▸ hnodup.erase name)

/-- One positional argument that may be given, and then nothing may be left. -/
theorem optionalArgument_follows (make : Option Deferred → α) :
    Follows (do
      let text ← if (← get).positional.isEmpty then pure none else some <$> popPositional none
      checkNone
      return make text) fun _ => { optional := 1 } := by
  rintro ⟨positional, keywords⟩ hnodup
  cases positional with
  | nil => exact checkNone_follows (make none) ⟨[], keywords⟩ hnodup
  | cons t ts =>
      have hrest := checkNone_follows (make (some t)) ⟨ts, keywords⟩ hnodup
      rw [List.length_cons, Signature.refusal_optional]
      exact hrest

theorem onlyArgument_follows (name : String) (make : Deferred → α) :
    Follows (do let t ← onlyArgument name; return make t) fun _ => { required := [name] } := by
  unfold onlyArgument
  simp only [bind_assoc, pure_bind]
  exact popPositional_follows name fun t => checkNone_follows (make t)

end follows

end Args

open Args in
/-- **A standard command follows its signature.** -/
theorem Builtin.bind_follows (kind : Builtin) :
    Follows kind.bind fun given => kind.signature given := by
  cases kind with
  | par => exact checkNone_follows _
  | rule => exact checkNone_follows _
  | heading level => exact onlyArgument_follows "title" _
  | quote => exact onlyArgument_follows "content" _
  | styled style => exact onlyArgument_follows "content" _
  | footnote => exact onlyArgument_follows "content" _
  | item => exact onlyArgument_follows "content" _
  | list kind => exact onlyArgument_follows "body" _
  | terms => exact onlyArgument_follows "body" _
  | math display => exact onlyArgument_follows "tex" _
  | term =>
      have hdefinition : ∀ make : Deferred → Command Builtin,
          Follows (do let u ← popPositional (some "definition"); checkNone; return make u)
            fun _ => { required := ["definition"] } :=
        fun make => popPositional_follows "definition" fun u => checkNone_follows (make u)
      exact popPositional_follows "term" fun t => hdefinition _
  | metadata =>
      rintro ⟨positional, keywords⟩ -
      cases positional with
      | nil => exact ⟨_, rfl⟩
      | cons t ts => rfl
  | code block =>
      have hlanguage : ∀ make : Option Deferred → Command Builtin,
          Follows (do let language ← popOptional "lang"; checkNone; return make language)
            fun _ => { keywords := some {"lang"} } := by
        intro make
        have h : Follows (do let language ← popOptional "lang"; checkNone; return make language)
            fun given => { required := if "lang" ∈ given then [] else [],
                           keywords := some {"lang"} } :=
          popOptional_follows "lang" (checkNone_follows _) fun t => checkNone_follows _
        simpa only [ite_self] using h
      exact popPositional_follows "content" fun t => hlanguage _
  | link =>
      have hurl : ∀ make : Deferred → Option Deferred → Command Builtin,
          Follows (do
            let url ← popPositional (some "url")
            let text ← if (← get).positional.isEmpty then pure none
              else some <$> popPositional none
            checkNone
            return make url text) fun _ => { required := ["url"], optional := 1 } :=
        fun make => popPositional_follows "url" fun url => optionalArgument_follows (make url)
      exact popOptional_follows "url" (hurl _) fun url => optionalArgument_follows _

/-! ### Calls -/

/-- The number of positional arguments of a call. -/
def Call.positionalCount (c : Call) : Nat := (c.args.filter (·.name.isNone)).length

/-- The names of the keyword arguments of a call. -/
def Call.keywordNames (c : Call) : Finset String :=
  (c.args.filterMap fun a => a.name.map Span.fragment).toFinset

theorem Args.exists_readFrom {mode : ArgMode} {source : Source} : ∀ {arguments : List Argument}
    (args : Args), (∀ a ∈ arguments, ∃ pieces, mode.read source a.value = .ok pieces) →
      ∃ args', Args.readFrom mode source args arguments = .ok args'
  | [], args, _ => ⟨args, rfl⟩
  | a :: rest, args, h => by
      obtain ⟨pieces, hread⟩ := h a List.mem_cons_self
      obtain ⟨args', hrest⟩ := Args.exists_readFrom (args.add a.name (.ofPieces pieces))
        fun b hb => h b (List.mem_cons_of_mem a hb)
      refine ⟨args', ?_⟩
      unfold Args.readFrom
      rw [hread]
      exact hrest

/-- What a call is read to has as many positional arguments as the call, and its keywords. -/
theorem Args.Reads.counts {mode : ArgMode} {source : Source} {c : Call} {args : Args}
    (h : args.Reads mode source c.args) :
    args.positional.length = c.positionalCount ∧ args.names = c.keywordNames := by
  refine ⟨h.positional.length_eq.symm, ?_⟩
  ext name
  rw [Args.names, List.mem_toFinset, h.names name, Call.keywordNames, List.mem_toFinset,
    List.mem_filterMap]

/-- The arguments that the commands take by their names, where `given` are the keywords of the call:
the target of a link may be one of them, and else it is the first positional argument. -/
def commandSignature (name : String) (given : Finset String) : Signature :=
  if name ∈ ["par", "rule"] then {}
  else if name ∈ ["sec", "subsec", "subsubsec"] then { required := ["title"] }
  else if name ∈ ["emph", "strong", "footnote", "quote", "item"] then { required := ["content"] }
  else if name ∈ ["list", "enum", "terms"] then { required := ["body"] }
  else if name ∈ ["math", "displaymath"] then { required := ["tex"] }
  else if name ∈ ["code", "codeblock"] then
    { required := ["content"], keywords := some {"lang"} }
  else if name = "term" then { required := ["term", "definition"] }
  else if name = "meta" then { keywords := none }
  else { required := if "url" ∈ given then [] else ["url"], optional := 1,
         keywords := some {"url"} }

theorem commandSignature_of_known (given : Finset String) : ∀ d ∈ knownDefinitions,
    commandSignature d.name given = d.kind.signature given := by
  intro d hd
  simp only [knownDefinitions, standardDefinitions, List.cons_append, List.nil_append,
    List.mem_cons, List.not_mem_nil, or_false] at hd
  rcases hd with rfl | rfl | rfl | rfl | rfl | rfl | rfl | rfl | rfl | rfl | rfl | rfl | rfl | rfl |
    rfl | rfl | rfl | rfl | rfl | rfl <;> rfl

/-- A known call whose arguments can all be read is found to be what its arguments give, or the
error is at its name. -/
theorem World.resolve_eq_bind {w : World Builtin} {c : Call} {d : Definition Builtin} {args : Args}
    (hfind : w.scope.find? c.name.fragment = some d)
    (hargs : Args.read d.mode w.source c.args = .ok args) (s : Session) :
    (w.resolve Builtin.library c s).1 = match d.kind.bind args with
      | .error e => .error (.command ⟨.arguments e, some c.name, some w.source.text⟩)
      | .ok (i, _) => .ok (d, i) := by
  rw [resolve_run, looked, hfind]
  dsimp only
  rw [hargs]
  have hbind : Builtin.library.bind d.kind args = d.kind.bind args := rfl
  dsimp only
  rw [hbind]
  cases d.kind.bind args <;> rfl

/-- **Which arguments the standard commands take.**  A call whose arguments can all be read is found
to be a known command exactly if the signature of that name accepts the number of the positional
arguments and the names of the others.  Otherwise the error is at the name of the call and says what
is wrong: the first argument that is missing, or else that there are too many, or else all keywords
that are not known, in order. -/
theorem World.resolve_signature {active : List String} {w : World Builtin} {c : Call}
    {d : Definition Builtin} (hscope : Scoped active w.scope)
    (hfind : w.scope.find? c.name.fragment = some d)
    (hread : ∀ a ∈ c.args, ∃ pieces, d.mode.read w.source a.value = .ok pieces) (s : Session) :
    ((∃ i, (w.resolve Builtin.library c s).1 = .ok (d, i)) ↔
      (commandSignature c.name.fragment c.keywordNames).Accepts c.positionalCount c.keywordNames) ∧
    ∀ e, (w.resolve Builtin.library c s).1 =
        .error (.command ⟨.arguments e, some c.name, some w.source.text⟩) ↔
      (commandSignature c.name.fragment c.keywordNames).refusal c.positionalCount c.keywordNames =
        some e := by
  obtain ⟨args, hargs⟩ := Args.exists_readFrom {} hread
  obtain ⟨hcount, hnames⟩ := (Args.read_reads hargs).counts
  have hnone : (({} : Args).keywords.map Prod.fst).Nodup := List.nodup_nil
  have hnodup := Args.readFrom_nodup hnone hargs
  have hfollows := d.kind.bind_follows args hnodup
  obtain ⟨hknown, hname⟩ := hscope.mem_known hfind
  rw [hcount, hnames] at hfollows
  rw [World.resolve_eq_bind hfind hargs, ← Signature.refusal_eq_none_iff, ← hname,
    commandSignature_of_known c.keywordNames d hknown]
  cases hrefusal : (d.kind.signature c.keywordNames).refusal c.positionalCount c.keywordNames with
  | none =>
      rw [hrefusal] at hfollows
      obtain ⟨i, hbind⟩ := hfollows
      rw [hbind]
      exact ⟨iff_of_true ⟨i, rfl⟩ rfl, fun e => iff_of_false nofun nofun⟩
  | some e =>
      rw [hrefusal] at hfollows
      have hbind : d.kind.bind args = .error e := hfollows
      rw [hbind]
      refine ⟨iff_of_false (fun ⟨i, hi⟩ => nomatch hi) nofun, fun e' => ?_⟩
      simp

/-- Code with a language, and with keywords that it does not know, one of them twice and one with a
space in its name. -/
def overloadedSource : Source where
  text := "\\code\x7ba\x7d\x7bz=1\x7d\x7blang=py\x7d\x7b y=2\x7d\x7bz=3\x7d"

/-- The call in it. -/
def overloadedCall : Call where
  name := ⟨1, 1, "code"⟩
  args := [⟨none, ⟨6, 1, "a"⟩⟩, ⟨some ⟨9, 1, "z"⟩, ⟨11, 1, "1"⟩⟩,
    ⟨some ⟨14, 1, "lang"⟩, ⟨19, 1, "py"⟩⟩, ⟨some ⟨23, 1, " y"⟩, ⟨26, 1, "2"⟩⟩,
    ⟨some ⟨29, 1, "z"⟩, ⟨31, 1, "3"⟩⟩]

theorem World.resolve_signature_overloaded :
    readMarkup overloadedSource overloadedSource.span = .ok [.call overloadedCall] ∧
    (resolve Builtin.library { scope := standardScope, source := overloadedSource }
      overloadedCall {}).1 =
        .error (.command ⟨.arguments (.unexpectedKeywords [" y", "z"]), some overloadedCall.name,
          some overloadedSource.text⟩) := by
  have hunknown : overloadedCall.keywordNames \ {"lang"} = [" y", "z"].toFinset := by decide +kernel
  have hsort : [" y", "z"].toFinset.sort (· ≤ ·) = [" y", "z"] :=
    (List.toFinset_sort _ (by decide +kernel)).mpr (by decide +kernel)
  have hrefusal : (commandSignature "code" overloadedCall.keywordNames).refusal
      overloadedCall.positionalCount overloadedCall.keywordNames =
        some (.unexpectedKeywords [" y", "z"]) := by
    have hone : overloadedCall.positionalCount = 1 := by decide
    have hsig : commandSignature "code" overloadedCall.keywordNames =
        { required := ["content"], keywords := some {"lang"} } := rfl
    rw [hsig, hone]
    simp only [Signature.refusal, Signature.unknown, hunknown, hsort]
    rfl
  exact ⟨by decide +kernel, ((World.resolve_signature standardScope_scoped
    (d := ⟨"code", .code false, .literal⟩) rfl (fun a _ => ⟨[.text a.value], rfl⟩) {}).2 _).mpr
      hrefusal⟩

end Markup
