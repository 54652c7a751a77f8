import Markup.Proofs.Eval.Yields
import Markup.Proofs.Library.Bodies
import Markup.Proofs.Library.SourceText

/-! # What the standard commands add

The contract of every standard command: given how its arguments are evaluated (`Runs`), its body
adds the ink of what the command says (`Builtin.text`) to the builder, or fails in a way that its
call can give a place to (`Builtin.body_says`).  Arguments come to a command unused and with
pieces that stand in the text (`Args.Reads.sound`), the blocks that are made are all standard,
headings included, and no value out of place is ever pushed, so that no other failure arises. -/

namespace Markup

/-! ### Arguments -/

/-- An argument as it is read: pieces that stand in the text. -/
def Deferred.Sound (source : Source) (t : Deferred) : Prop :=
  ∃ pieces, t = .ofPieces pieces ∧ ∀ p ∈ pieces, p.StandsIn source.text.toList

/-- Every argument is as it is read. -/
structure Args.Sound (source : Source) (args : Args) : Prop where
  positional : ∀ t ∈ args.positional, t.Sound source
  keywords : ∀ name t, (name, t) ∈ args.keywords → t.Sound source

theorem Args.Reads.sound {source : Source} {mode : ArgMode} {arguments : List Argument}
    {args : Args} (h : args.Reads mode source arguments)
    (harguments : ∀ a ∈ arguments, a.StandsIn source.text.toList) : args.Sound source := by
  have hread : ∀ a ∈ arguments, ∀ t, a.ReadsTo mode source t → t.Sound source := by
    rintro a ha t ⟨pieces, hpieces, rfl⟩
    have hstands := mode.read_standsIn source (harguments a ha).1
    rw [hpieces] at hstands
    exact ⟨pieces, rfl, hstands⟩
  refine ⟨?_, ?_⟩
  · intro t ht
    obtain ⟨a, ha, hat⟩ := h.exists_of_mem ht
    exact hread a ha t hat
  · intro name t ht
    obtain ⟨a, ha, -, hat⟩ := h.keywords name t ht
    exact hread a ha t hat

/-- A way to evaluate pieces that adds the ink of what they say. -/
def Runs (source : Source) (unprinted : Prop) (run : Runner) : Prop :=
  ∀ pieces, (∀ p ∈ pieces, p.StandsIn source.text.toList) →
    Yields (Failure.Placeable source.text unprinted) (run pieces) fun _ added =>
      ∃ cs, PiecesShow source pieces cs ∧ added = ink cs

section arguments

variable {source : Source} {unprinted : Prop} {run : Runner} {t : Deferred}

theorem Failure.Placeable.build (text : String) (unprinted : Prop) (e : BuildError) :
    Failure.Placeable text unprinted (.build e) := trivial

theorem force_yields (hrun : Runs source unprinted run) (ht : t.Sound source) :
    Yields (Failure.Placeable source.text unprinted) (t.force run) fun _ added =>
      ∃ cs, t.Shows source cs ∧ added = ink cs := by
  obtain ⟨pieces, rfl, hpieces⟩ := ht
  refine (hrun pieces hpieces).mono ?_ fun _ hf => hf
  rintro _ added ⟨cs, hshow, hink⟩
  exact ⟨cs, ⟨pieces, rfl, hshow⟩, hink⟩

theorem intoBlocks_yields (hrun : Runs source unprinted run) (ht : t.Sound source) :
    Yields (Failure.Placeable source.text unprinted) (t.intoBlocks run) fun blocks added =>
      added = [] ∧ ∃ cs, t.Shows source cs ∧ blocksMadeOf Standard blocks ∧
        leavesInk (blocksLeaves blocks) = ink cs := by
  have htake : ∀ s : Session, s.builder.MadeOf Standard → Ensures Build.intoBlocks s
      (fun blocks _ => blocksMadeOf Standard blocks ∧
        leavesInk (blocksLeaves blocks) = leavesInk s.builder.leaves) fun f => ∃ e, f = .build e :=
    fun s hs => (intoBlocks_ensures hs).mono (fun _ _ h => h) fun _ hf => ⟨_, hf⟩
  refine (nested_yields (Failure.Placeable.build source.text unprinted) htake
    (force_yields hrun ht)).mono
    ?_ fun _ hf => hf
  rintro blocks added ⟨hnone, hmade, cs, hshow, hink⟩
  exact ⟨hnone, cs, hshow, hmade, hink⟩

theorem intoInlines_yields (hrun : Runs source unprinted run) (ht : t.Sound source) :
    Yields (Failure.Placeable source.text unprinted) (t.intoInlines run) fun content added =>
      added = [] ∧ ∃ cs, t.Shows source cs ∧ inlinesMadeOf Standard content ∧
        leavesInk (inlinesLeaves content) = ink cs := by
  refine (nested_yields (Failure.Placeable.build source.text unprinted)
    (fun _ hs => intoInlines_ensures hs)
    (force_yields hrun ht)).mono ?_ fun _ hf => hf
  rintro content added ⟨hnone, hmade, cs, hshow, hink⟩
  exact ⟨hnone, cs, hshow, hmade, hink⟩

variable (unprinted) in
/-- Pieces are text if none of them is a call. -/
theorem literalText_shows : ∀ pieces : List Piece, (∀ p ∈ pieces, p.StandsIn source.text.toList) →
    match literalText pieces with
    | .ok s => PiecesShow source pieces s.toList
    | .error e => Failure.Placeable source.text unprinted (.command e)
  | [], _ => PiecesShow.nil source
  | .text span :: rest, h => by
      have hrest := literalText_shows rest fun p hp => h p (List.mem_cons_of_mem _ hp)
      unfold literalText
      cases hliteral : literalText rest with
      | error e =>
          rw [hliteral] at hrest
          exact hrest
      | ok s =>
          rw [hliteral] at hrest
          have hall := hrest.text span
          rw [← String.toList_append] at hall
          exact hall
  | .call c :: rest, h => by
      have hcall : c.StandsIn source.text.toList := h (.call c) List.mem_cons_self
      refine ⟨fun _ hcause => CommandCause.noConfusion hcause, ?_, fun _ hsource => ?_⟩
      · rintro span ⟨rfl⟩
        exact hcall.name_inText
      · cases hsource

theorem string_yields (ht : t.Sound source) :
    Yields (Failure.Placeable source.text unprinted) t.string fun s added =>
      added = [] ∧ t.Shows source s.toList := by
  obtain ⟨pieces, rfl, hpieces⟩ := ht
  have hliteral := literalText_shows unprinted pieces hpieces
  unfold Deferred.string
  rw [show (Deferred.intoString (.ofPieces pieces)).1 = literalText pieces from rfl]
  cases heq : literalText pieces with
  | ok s =>
      rw [heq] at hliteral
      exact .pure ⟨rfl, pieces, rfl, hliteral⟩
  | error e =>
      rw [heq] at hliteral
      exact .throw hliteral

end arguments

/-! ### Bodies -/

/-- The ink of what a command says with these arguments. -/
def BodyAdds (source : Source) (kind : Builtin) (args : Args) (added : List Char) : Prop :=
  ∃ texts, List.Forall₂ (Deferred.Shows source) args.positional texts ∧
    added = ink (kind.text (decide ("url" ∈ args.keywords.map Prod.fst)) texts)

/-- A step that adds what a command says, or fails in a way that its call can give a place to. -/
def Says (source : Source) (unprinted : Prop) (kind : Builtin) (args : Args) (step : Eval Unit) :
    Prop :=
  Yields (Failure.Placeable source.text unprinted) step
    fun _ added => BodyAdds source kind args added

section bodies

variable {source : Source} {unprinted : Prop} {run : Runner} {args rest : Args}
  {invocation : Invocation Builtin}
  {kind : Builtin}

/-- A command that says what its only argument says. -/
theorem BodyAdds.only {t : Deferred} {cs : List Char} (ht : t.Shows source cs)
    (hkind : ∀ url, kind.text url [cs] = [cs].flatten) :
    BodyAdds source kind ⟨[t], []⟩ (ink cs) := by
  refine ⟨[cs], .cons ht .nil, ?_⟩
  rw [hkind, List.flatten_singleton]

theorem pushBlock_says {b : Block} {ink : List Char} (hb : b.MadeOf Standard)
    (hink : leavesInk b.leaves = ink) (h : BodyAdds source kind args ink) :
    Says source unprinted kind args (Eval.pushBlock b) := by
  have hyields := pushBlock_yields (Failure.Placeable.build source.text unprinted) hb
  refine hyields.mono ?_ fun _ hf => hf
  rintro _ added rfl
  rw [hink]
  exact h

theorem pushInline_says {i : Inline} {ink : List Char} (hi : i.MadeOf Standard)
    (hink : leavesInk i.leaves = ink) (h : BodyAdds source kind args ink) :
    Says source unprinted kind args (Eval.pushInline i) := by
  refine (pushInline_yields hi).mono ?_ fun _ hf => hf
  rintro _ added rfl
  rw [hink]
  exact h

theorem onlyArgument_ok {name : String} {body : Deferred → Invocation Builtin}
    (h : (do let t ← onlyArgument name; return body t : Args.Take _) args =
      .ok (invocation, rest)) :
    ∃ t, args = ⟨[t], []⟩ ∧ invocation = body t := by
  obtain ⟨t, _, htake, hreturn⟩ := Args.bind_ok h
  obtain ⟨u, left, hpop, hleft⟩ := Args.bind_ok htake
  obtain ⟨_, _, hcheck, hsame⟩ := Args.bind_ok hleft
  have hargs := Args.popPositional_ok hpop
  have hnone := Args.checkNone_ok hcheck
  cases hsame
  cases hreturn
  rw [hnone] at hargs
  exact ⟨t, hargs, rfl⟩

theorem par_says (h : Builtin.par.invoke args = .ok (invocation, rest)) :
    Says source unprinted .par args (invocation.body run) := by
  obtain ⟨_, _, hcheck, hreturn⟩ := Args.bind_ok h
  cases Args.checkNone_ok hcheck
  cases hreturn
  exact pushBlock_says ⟨trivial, trivial⟩ rfl ⟨[], .nil, rfl⟩

theorem rule_says (h : Builtin.rule.invoke args = .ok (invocation, rest)) :
    Says source unprinted .rule args (invocation.body run) := by
  obtain ⟨_, _, hcheck, hreturn⟩ := Args.bind_ok h
  cases Args.checkNone_ok hcheck
  cases hreturn
  exact pushBlock_says trivial rfl ⟨[], .nil, rfl⟩

theorem heading_says {level : Int} (hlevel : 1 ≤ level ∧ level ≤ 3)
    (hrun : Runs source unprinted run)
    (hargs : args.Sound source) (h : (Builtin.heading level).invoke args = .ok (invocation, rest)) :
    Says source unprinted (.heading level) args (invocation.body run) := by
  obtain ⟨title, rfl, rfl⟩ := onlyArgument_ok h
  have htitle := hargs.positional title List.mem_cons_self
  refine Yields.bind (intoInlines_yields hrun htitle) ?_
  rintro content _ ⟨rfl, cs, hshow, hmade, hink⟩
  exact pushBlock_says ⟨hlevel, hmade⟩ hink (.only hshow fun _ => rfl)

theorem quote_says (hrun : Runs source unprinted run) (hargs : args.Sound source)
    (h : Builtin.quote.invoke args = .ok (invocation, rest)) :
    Says source unprinted .quote args (invocation.body run) := by
  obtain ⟨content, rfl, rfl⟩ := onlyArgument_ok h
  have hcontent := hargs.positional content List.mem_cons_self
  refine Yields.bind (intoBlocks_yields hrun hcontent) ?_
  rintro blocks _ ⟨rfl, cs, hshow, hmade, hink⟩
  exact pushBlock_says ⟨trivial, hmade⟩ hink (.only hshow fun _ => rfl)

theorem styled_says {style : Style} (hrun : Runs source unprinted run) (hargs : args.Sound source)
    (h : (Builtin.styled style).invoke args = .ok (invocation, rest)) :
    Says source unprinted (.styled style) args (invocation.body run) := by
  obtain ⟨content, rfl, rfl⟩ := onlyArgument_ok h
  have hcontent := hargs.positional content List.mem_cons_self
  refine Yields.bind (intoInlines_yields hrun hcontent) ?_
  rintro inner _ ⟨rfl, cs, hshow, hmade, hink⟩
  exact pushInline_says hmade hink (.only hshow fun _ => rfl)

theorem footnote_says (hrun : Runs source unprinted run) (hargs : args.Sound source)
    (h : Builtin.footnote.invoke args = .ok (invocation, rest)) :
    Says source unprinted .footnote args (invocation.body run) := by
  obtain ⟨content, rfl, rfl⟩ := onlyArgument_ok h
  have hcontent := hargs.positional content List.mem_cons_self
  refine Yields.bind (intoBlocks_yields hrun hcontent) ?_
  rintro blocks _ ⟨rfl, cs, hshow, hmade, hink⟩
  exact pushInline_says hmade hink (.only hshow fun _ => rfl)

theorem item_says (hrun : Runs source unprinted run) (hargs : args.Sound source)
    (h : Builtin.item.invoke args = .ok (invocation, rest)) :
    Says source unprinted .item args (invocation.body run) := by
  obtain ⟨content, rfl, rfl⟩ := onlyArgument_ok h
  have hcontent := hargs.positional content List.mem_cons_self
  refine Yields.bind (intoBlocks_yields hrun hcontent) ?_
  rintro blocks _ ⟨rfl, cs, hshow, hmade, hink⟩
  refine pushBlock_says ⟨trivial, hmade, trivial, trivial⟩ ?_ (.only hshow fun _ => rfl)
  simpa [Block.leaves, itemsLeaves, optionLeaves] using hink

theorem setEntries_yields : ∀ {entries : Keywords},
    (∀ name t, (name, t) ∈ entries → t.Sound source) →
      Yields (Failure.Placeable source.text unprinted) (setEntries entries)
        fun _ added => added = []
  | [], _ => .pure rfl
  | (key, value) :: rest, h => by
      refine .bind (string_yields (h key value List.mem_cons_self)) ?_
      rintro text _ ⟨rfl, -⟩
      refine .bind (setMetadata_yields key text) ?_
      rintro _ _ rfl
      exact setEntries_yields fun name t ht => h name t (List.mem_cons_of_mem _ ht)

theorem metadata_says (hargs : args.Sound source)
    (h : Builtin.metadata.invoke args = .ok (invocation, rest)) :
    Says source unprinted .metadata args (invocation.body run) := by
  obtain ⟨_, _, hcheck, hpop⟩ := Args.bind_ok h
  obtain ⟨hpositional, rfl⟩ := Args.checkNoPositional_ok hcheck
  obtain ⟨entries, _, hentries, hreturn⟩ := Args.bind_ok hpop
  cases hentries
  cases hreturn
  refine Yields.mono (setEntries_yields hargs.keywords) ?_ fun _ hf => hf
  rintro _ _ rfl
  refine ⟨[], ?_, rfl⟩
  rw [hpositional]
  exact .nil

theorem math_says {display : Bool} (hargs : args.Sound source)
    (h : (Builtin.math display).invoke args = .ok (invocation, rest)) :
    Says source unprinted (.math display) args (invocation.body run) := by
  obtain ⟨tex, rfl, rfl⟩ := onlyArgument_ok h
  have htex := hargs.positional tex List.mem_cons_self
  refine Yields.bind (string_yields htex) ?_
  rintro s _ ⟨rfl, hshow⟩
  cases display with
  | true =>
      refine pushBlock_says trivial ?_ (.only hshow fun _ => rfl)
      simp [Block.leaves, leavesInk, Leaf.chars]
  | false =>
      refine pushInline_says trivial ?_ (.only hshow fun _ => rfl)
      simp [Inline.leaves, leavesInk, Leaf.chars]

/-- A text that may be missing. -/
theorem mapM_string_yields : ∀ {found : Option Deferred},
    (∀ t, found = some t → t.Sound source) →
      Yields (Failure.Placeable source.text unprinted) (found.mapM Deferred.string)
      fun _ added => added = []
  | none, _ => .pure rfl
  | some t, h => by
      refine .bind (string_yields (h t rfl)) ?_
      rintro s _ ⟨rfl, -⟩
      exact .pure rfl

theorem code_says {block : Bool} (hargs : args.Sound source)
    (h : (Builtin.code block).invoke args = .ok (invocation, rest)) :
    Says source unprinted (.code block) args (invocation.body run) := by
  obtain ⟨content, left, hpop, h⟩ := Args.bind_ok h
  obtain ⟨language, left', hlanguage, h⟩ := Args.bind_ok h
  obtain ⟨_, _, hcheck, hreturn⟩ := Args.bind_ok h
  cases hreturn
  cases Args.popPositional_ok hpop
  cases Args.checkNone_ok hcheck
  have hcontent := hargs.positional content List.mem_cons_self
  have hsound : ∀ t, language = some t → t.Sound source := by
    rintro t rfl
    rcases Args.popOptional_ok hlanguage with ⟨_, ⟨rfl⟩, hmem, -⟩ | ⟨hnone, -⟩
    · exact hargs.keywords "lang" t hmem
    · cases hnone
  have hpositional : left.positional = [] := by
    rcases Args.popOptional_ok hlanguage with ⟨_, -, -, hpositional⟩ | ⟨-, -, hleft⟩
    · exact hpositional.symm
    · rw [← hleft]
  have hadds : ∀ s : String, content.Shows source s.toList →
      BodyAdds source (.code block) ⟨content :: left.positional, left.keywords⟩ (ink s.toList) := by
    intro s hshow
    rw [hpositional]
    exact ⟨[s.toList], .cons hshow .nil, by simp [Builtin.text]⟩
  refine Yields.bind (string_yields hcontent) ?_
  rintro s _ ⟨rfl, hshow⟩
  refine .bind (mapM_string_yields hsound) ?_
  rintro name _ rfl
  cases block with
  | true =>
      refine pushBlock_says ⟨trivial, trivial, trivial⟩ ?_ (hadds s hshow)
      simp [Block.leaves, inlinesLeaves, Inline.leaves, leavesInk, Leaf.chars]
  | false =>
      refine pushInline_says trivial ?_ (hadds s hshow)
      simp [Inline.leaves, leavesInk, Leaf.chars]

/-- The content of a link, which may be missing. -/
theorem mapM_intoInlines_yields (hrun : Runs source unprinted run) : ∀ {found : Option Deferred},
    (∀ t, found = some t → t.Sound source) →
      Yields (Failure.Placeable source.text unprinted) (found.mapM (Deferred.intoInlines run))
        fun content added => added = [] ∧ ∃ texts,
          List.Forall₂ (Deferred.Shows source) found.toList texts ∧
          optionMadeOf Standard content ∧ ∀ target label kind,
            leavesInk (Inline.link target content label kind).leaves = ink (texts.headD [])
  | none, _ => .pure ⟨rfl, [], .nil, trivial, fun _ _ _ => rfl⟩
  | some t, h => by
      refine .bind (intoInlines_yields hrun (h t rfl)) ?_
      rintro content _ ⟨rfl, cs, hshow, hmade, hink⟩
      exact .pure ⟨rfl, [cs], .cons hshow .nil, hmade, fun _ _ _ => hink⟩

theorem optionalArgument_ok {body : Option Deferred → Invocation Builtin}
    (h : (do
      let text ← if (← get).positional.isEmpty then pure none else some <$> Args.popPositional none
      Args.checkNone
      return body text : Args.Take _) args = .ok (invocation, rest)) :
    ∃ text : Option Deferred, args.positional = text.toList ∧ invocation = body text := by
  obtain ⟨_, _, hget, h⟩ := Args.bind_ok h
  cases hget
  obtain ⟨positional, keywords⟩ := args
  cases positional with
  | nil =>
      obtain ⟨_, _, hpure, hcheck⟩ := Args.bind_ok h
      cases hpure
      obtain ⟨_, _, -, hreturn⟩ := Args.bind_ok hcheck
      cases hreturn
      exact ⟨none, rfl, rfl⟩
  | cons t ts =>
      obtain ⟨_, _, hpop, hcheck⟩ := Args.bind_ok h
      cases hpop
      obtain ⟨_, _, hcheck, hreturn⟩ := Args.bind_ok hcheck
      cases hreturn
      cases Args.checkNone_ok hcheck
      exact ⟨some t, rfl, rfl⟩

/-- The target of a link and its text: the target is a keyword, or else the first argument. -/
theorem link_ok (h : Builtin.link.invoke args = .ok (invocation, rest)) :
    ∃ (url : Deferred) (text : Option Deferred),
      (("url", url) ∈ args.keywords ∧ args.positional = text.toList ∨
        "url" ∉ args.keywords.map Prod.fst ∧ args.positional = url :: text.toList) ∧
      invocation = { body := fun run => do
        let content ← text.mapM (Deferred.intoInlines run)
        Eval.pushInline (.link (← url.string) content none .url) } := by
  obtain ⟨found, left, hoptional, hfound⟩ := Args.bind_ok h
  rcases Args.popOptional_ok hoptional with ⟨url, rfl, hmem, hpositional⟩ | ⟨rfl, hnone, rfl⟩
  · obtain ⟨_, _, hpure, htail⟩ := Args.bind_ok hfound
    cases hpure
    obtain ⟨text, htext, rfl⟩ := optionalArgument_ok htail
    exact ⟨url, text, .inl ⟨hmem, hpositional.symm.trans htext⟩, rfl⟩
  · obtain ⟨url, left', hpop, htail⟩ := Args.bind_ok hfound
    obtain ⟨text, htext, rfl⟩ := optionalArgument_ok htail
    cases Args.popPositional_ok hpop
    exact ⟨url, text, .inr ⟨hnone, congrArg _ htext⟩, rfl⟩

theorem link_says (hrun : Runs source unprinted run) (hargs : args.Sound source)
    (h : Builtin.link.invoke args = .ok (invocation, rest)) :
    Says source unprinted .link args (invocation.body run) := by
  obtain ⟨url, text, hform, rfl⟩ := link_ok h
  have hurl : url.Sound source := by
    rcases hform with ⟨hmem, -⟩ | ⟨-, hpositional⟩
    · exact hargs.keywords "url" url hmem
    · exact hargs.positional url (by simp [hpositional])
  have htext : ∀ t, text = some t → t.Sound source := by
    rintro t rfl
    rcases hform with ⟨-, hpositional⟩ | ⟨-, hpositional⟩ <;>
      exact hargs.positional t (by simp [hpositional])
  refine Yields.bind (mapM_intoInlines_yields hrun htext) ?_
  rintro content _ ⟨rfl, texts, hshow, hmade, hink⟩
  refine .bind (string_yields hurl) ?_
  rintro target _ ⟨rfl, htarget⟩
  refine pushInline_says hmade (hink _ _ _) ?_
  rcases hform with ⟨hmem, hpositional⟩ | ⟨hnone, hpositional⟩
  · have hkey : "url" ∈ args.keywords.map Prod.fst := List.mem_map.mpr ⟨_, hmem, rfl⟩
    refine ⟨texts, hpositional ▸ hshow, ?_⟩
    rw [decide_eq_true hkey]
    rfl
  · refine ⟨target.toList :: texts, hpositional ▸ .cons htarget hshow, ?_⟩
    rw [decide_eq_false hnone]
    rfl

theorem collected_yields {α : Type} {madeOf : α → Prop} {leaves : α → List Leaf}
    {fault : ShapeFault} {bs : List Block} {outcome : Except CommandCause α}
    (h : Collects madeOf leaves fault bs outcome) :
    Yields (Failure.Placeable source.text unprinted) (collected outcome) fun items added =>
      added = [] ∧ madeOf items ∧ leavesInk (leaves items) = leavesInk (blocksLeaves bs) := by
  match outcome, h with
  | .ok items, h => exact .pure ⟨rfl, h⟩
  | .error _, rfl =>
      refine .throw ⟨fun _ hcause => CommandCause.noConfusion hcause, ?_, ?_⟩
      · intro span hspan
        cases hspan
      · intro text htext
        cases htext

theorem list_says {kind : ListKind} (hrun : Runs source unprinted run) (hargs : args.Sound source)
    (h : (Builtin.list kind).invoke args = .ok (invocation, rest)) :
    Says source unprinted (.list kind) args (invocation.body run) := by
  obtain ⟨content, rfl, rfl⟩ := onlyArgument_ok h
  have hcontent := hargs.positional content List.mem_cons_self
  refine Yields.bind (intoBlocks_yields hrun hcontent) ?_
  rintro blocks _ ⟨rfl, cs, hshow, hmade, hink⟩
  refine .bind (collected_yields (collectItems_collects hmade)) ?_
  rintro items _ ⟨rfl, hitems, hcollect⟩
  exact pushBlock_says ⟨trivial, hitems⟩ (hcollect.trans hink) (.only hshow fun _ => rfl)

theorem terms_says (hrun : Runs source unprinted run) (hargs : args.Sound source)
    (h : Builtin.terms.invoke args = .ok (invocation, rest)) :
    Says source unprinted .terms args (invocation.body run) := by
  obtain ⟨content, rfl, rfl⟩ := onlyArgument_ok h
  have hcontent := hargs.positional content List.mem_cons_self
  refine Yields.bind (intoBlocks_yields hrun hcontent) ?_
  rintro blocks _ ⟨rfl, cs, hshow, hmade, hink⟩
  refine .bind (collected_yields (collectTerms_collects hmade)) ?_
  rintro items _ ⟨rfl, hitems, hcollect⟩
  exact pushBlock_says ⟨trivial, hitems⟩ (hcollect.trans hink) (.only hshow fun _ => rfl)

theorem term_says (hrun : Runs source unprinted run) (hargs : args.Sound source)
    (h : Builtin.term.invoke args = .ok (invocation, rest)) :
    Says source unprinted .term args (invocation.body run) := by
  obtain ⟨term, left, hpop, h⟩ := Args.bind_ok h
  obtain ⟨definition, left', hpop', h⟩ := Args.bind_ok h
  obtain ⟨_, _, hcheck, hreturn⟩ := Args.bind_ok h
  cases hreturn
  cases Args.checkNone_ok hcheck
  cases Args.popPositional_ok hpop'
  cases Args.popPositional_ok hpop
  have hterm := hargs.positional term List.mem_cons_self
  have hdefinition := hargs.positional definition (List.mem_cons_of_mem _ List.mem_cons_self)
  refine Yields.bind (intoInlines_yields hrun hterm) ?_
  rintro content _ ⟨rfl, cs, hshow, hmade, hink⟩
  refine .bind (intoBlocks_yields hrun hdefinition) ?_
  rintro blocks _ ⟨rfl, cs', hshow', hmade', hink'⟩
  refine pushBlock_says ⟨trivial, hmade, hmade', trivial⟩ rfl ?_
  refine ⟨[cs, cs'], .cons hshow (.cons hshow' .nil), ?_⟩
  simp [Block.leaves, termsLeaves, Builtin.text, hink, hink']

/-- **The body of every standard command adds the ink of what the command says, or fails in a way
that its call can give a place to.** -/
theorem Builtin.body_says (hlevel : ∀ level, kind = .heading level → 1 ≤ level ∧ level ≤ 3)
    (hrun : Runs source unprinted run) (hargs : args.Sound source)
    (h : kind.invoke args = .ok (invocation, rest)) :
    Says source unprinted kind args (invocation.body run) := by
  cases kind with
  | par => exact par_says h
  | heading level => exact heading_says (hlevel level rfl) hrun hargs h
  | rule => exact rule_says h
  | quote => exact quote_says hrun hargs h
  | metadata => exact metadata_says hargs h
  | styled style => exact styled_says hrun hargs h
  | code block => exact code_says hargs h
  | math display => exact math_says hargs h
  | footnote => exact footnote_says hrun hargs h
  | link => exact link_says hrun hargs h
  | list kind => exact list_says hrun hargs h
  | item => exact item_says hrun hargs h
  | terms => exact terms_says hrun hargs h
  | term => exact term_says hrun hargs h

end bodies

/-! ### Names inside commands -/

/-- The names that a kind of command brings along for its arguments. -/
def Builtin.locals : Builtin → Option (List (Definition Builtin))
  | .list _ => some [itemDefinition]
  | .terms => some [termDefinition]
  | _ => none

theorem Builtin.invoke_locals {kind : Builtin} {args rest : Args} {invocation : Invocation Builtin}
    (h : kind.invoke args = .ok (invocation, rest)) :
    invocation.locals = kind.locals.map Frame.ofDefinitions := by
  cases kind with
  | par | rule =>
      obtain ⟨_, _, -, hreturn⟩ := Args.bind_ok h
      cases hreturn
      rfl
  | heading _ | quote | styled _ | math _ | footnote | list _ | item | terms =>
      obtain ⟨_, -, rfl⟩ := onlyArgument_ok h
      rfl
  | metadata =>
      obtain ⟨_, _, -, hpop⟩ := Args.bind_ok h
      obtain ⟨_, _, -, hreturn⟩ := Args.bind_ok hpop
      cases hreturn
      rfl
  | code _ | term =>
      obtain ⟨_, _, -, hpop⟩ := Args.bind_ok h
      obtain ⟨_, _, -, hcheck⟩ := Args.bind_ok hpop
      obtain ⟨_, _, -, hreturn⟩ := Args.bind_ok hcheck
      cases hreturn
      rfl
  | link =>
      obtain ⟨_, _, -, rfl⟩ := link_ok h
      rfl

/-- The arguments of a standard command see standard names. -/
theorem Builtin.inner_standard {kind : Builtin} {args rest : Args} {invocation : Invocation Builtin}
    {w : World Builtin} (hw : w.scope.Standard)
    (h : kind.invoke args = .ok (invocation, rest)) :
    (w.inner invocation.locals).scope.Standard := by
  have hknown : ∀ ds, kind.locals = some ds → ∀ d ∈ ds, d ∈ knownDefinitions := by
    intro ds hds d hd
    cases kind with
    | list _ | terms =>
        cases hds
        rw [List.mem_singleton.mp hd]
        simp [knownDefinitions]
    | _ => cases hds
  unfold World.inner
  rw [Builtin.invoke_locals h]
  cases hlocals : kind.locals with
  | none => exact hw
  | some ds => exact hw.inside (hknown ds hlocals)

end Markup
