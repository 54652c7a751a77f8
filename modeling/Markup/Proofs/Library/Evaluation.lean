import Markup.Proofs.Eval.Comparison
import Markup.Proofs.Library.Commands

/-! # Evaluation keeps all text in order

A document that evaluation ends with says what the parse tree of its source says, up to
whitespace: no text is lost, none is there twice, and all stands in its order
(`evaluateStandard_ink`).

The proof is an induction on the levels of nesting that are left (`callWithin_yields`).  A call
that is found and given its arguments runs the body of its command, whose contract is
`Builtin.body_says`; the way in which the body evaluates its arguments is the call of the level
below, in a scope that is still standard. -/

namespace Markup

/-! ### Calls -/

/-- What resolving a call gives: a known command of that name, and the arguments it took. -/
def Resolved (w : World Builtin) (c : Call) (found : Definition Builtin × Command Builtin) :
    Prop :=
  found.1.Known ∧ found.1.name = c.name.fragment ∧ ∃ args rest,
    args.Reads found.1.mode w.source c.args ∧
      found.1.kind.invoke args = .ok (found.2.invocation, rest)

section calls

variable {w : World Builtin} {c : Call}

theorem failAt_placed {unprinted : Prop} {cause : CommandCause}
    (hname : c.name.InText w.source.text.toList)
    (hcause : ∀ message, cause ≠ .spent message) :
    Failure.Placed w.source.text unprinted (.command ⟨cause, some c.name, some w.source.text⟩) :=
  ⟨hcause, ⟨c.name, rfl, hname⟩, rfl⟩

theorem resolve_yields (unprinted : Prop) (hw : w.scope.Standard)
    (hc : c.StandsIn w.source.text.toList) :
    Yields (Failure.Placed w.source.text unprinted) (w.resolve Builtin.library c) fun found added =>
      added = [] ∧ Resolved w c found := by
  have hname := hc.name_inText
  unfold World.resolve
  dsimp only
  cases hfind : w.scope.find? c.name.fragment with
  | none => exact .throw (failAt_placed hname fun _ h => CommandCause.noConfusion h)
  | some d =>
      obtain ⟨hknown, hdname⟩ := hw _ d hfind
      refine .bind (tell_yields _) ?_
      rintro _ _ rfl
      cases hread : Args.read d.mode w.source c.args with
      | error e =>
          obtain ⟨a, ha, hfail⟩ := Args.readFrom_error hread
          have hstands := d.mode.read_standsIn w.source (hc.args a ha).1
          rw [hfail] at hstands
          refine .throw ⟨fun _ h => CommandCause.noConfusion h, ⟨e.span, rfl, hstands.1.inText⟩, ?_⟩
          exact congrArg some hstands.2
      | ok args =>
          dsimp only
          cases hbind : (Builtin.library.bind d.kind).run args with
          | error e => exact .throw (failAt_placed hname fun _ h => CommandCause.noConfusion h)
          | ok bound =>
              refine .pure ⟨rfl, hknown, hdname, args, bound.2, Args.read_reads hread, ?_⟩
              rw [← Builtin.library_invoke, World.invoke_run,
                show Builtin.library.bind d.kind args = .ok bound from hbind]
              rfl

/-- What a body adds is what its call says. -/
theorem BodyAdds.callShows {d : Definition Builtin} {args : Args} {added : List Char}
    (h : BodyAdds w.source d.kind args added) (hknown : d.Known) (hname : d.name = c.name.fragment)
    (hreads : args.Reads d.mode w.source c.args) :
    ∃ cs, CallShows w.source c cs ∧ added = ink cs := by
  obtain ⟨texts, hshows, rfl⟩ := h
  obtain ⟨trees, htrees, hchars, hurl⟩ := exists_argumentsTrees hreads.positional hshows
  refine ⟨_, ⟨trees, ?_, ?_⟩, rfl⟩
  · rw [← hname, ← hknown.mode]
    exact htrees
  · have hany : trees.any (TreeArgument.isKeyword "url") =
        decide ("url" ∈ args.keywords.map Prod.fst) := by
      rw [Bool.eq_iff_iff, hurl, decide_eq_true_iff, hreads.names "url"]
    rw [Tree.chars, hchars, hany, ← hname, hknown.text]

end calls

theorem runPieces_yields {source : Source} {failed : Failure → Prop} {call : Call → Eval Unit}
    (hcall : ∀ c : Call, c.StandsIn source.text.toList →
      Yields failed (call c) fun _ added => ∃ cs, CallShows source c cs ∧ added = ink cs) :
    ∀ pieces : List Piece, (∀ p ∈ pieces, p.StandsIn source.text.toList) →
      Yields failed (runPieces call pieces) fun _ added =>
        ∃ cs, PiecesShow source pieces cs ∧ added = ink cs
  | [], _ => .pure ⟨[], .nil source, rfl⟩
  | .text span :: rest, h => by
      have hpush : Yields failed (Eval.push (.span span)) fun _ added =>
          added = leavesInk (Inline.text span.fragment).leaves := pushInline_yields trivial
      refine .bind hpush ?_
      rintro _ _ rfl
      refine (runPieces_yields hcall rest fun p hp => h p (List.mem_cons_of_mem _ hp)).mono
        ?_ fun _ hf => hf
      rintro _ _ ⟨cs, hshow, rfl⟩
      refine ⟨_, hshow.text span, ?_⟩
      simp [Inline.leaves, leavesInk, Leaf.chars]
  | .call c :: rest, h => by
      refine .bind (hcall c (h (.call c) List.mem_cons_self)) ?_
      rintro _ _ ⟨cs, hshow, rfl⟩
      refine (runPieces_yields hcall rest fun p hp => h p (List.mem_cons_of_mem _ hp)).mono
        ?_ fun _ hf => hf
      rintro _ _ ⟨more, hmore, rfl⟩
      exact ⟨cs ++ more, .call hshow hmore, (ink_append cs more).symm⟩

/-- The number that an error of a call that is too deep would tell cannot be printed. -/
def World.Unprinted {κ : Type} (w : World κ) (interpreter : Interpreter) : Prop :=
  interpreter.prints w.maxDepth = false

theorem refuse_yields {interpreter : Interpreter} {w : World Builtin} {c : Call}
    {result : Unit → List Char → Prop} (hc : c.StandsIn w.source.text.toList) :
    Yields (Failure.Placed w.source.text (w.Unprinted interpreter)) (w.refuse interpreter c)
      result := by
  unfold World.refuse
  split
  · exact .throw (failAt_placed hc.name_inText fun _ h => CommandCause.noConfusion h)
  · next h => exact .throw (Bool.eq_false_iff.mpr h)

/-- A call adds the ink of what it says, or fails in a place in the text, or for want of room. -/
theorem callWithin_yields {interpreter : Interpreter} : ∀ (levels : Nat) {w : World Builtin}
    {c : Call}, w.scope.Standard → c.StandsIn w.source.text.toList →
      Yields (Failure.Placed w.source.text (w.Unprinted interpreter))
        (w.callWithin interpreter Builtin.library levels c) fun _ added =>
          ∃ cs, CallShows w.source c cs ∧ added = ink cs
  | 0, _, _, _, hc => refuse_yields hc
  | levels + 1, w, c, hw, hc => by
      rw [World.callWithin]
      split
      swap
      · exact .throw trivial
      refine .bind (resolve_yields (w.Unprinted interpreter) hw hc) ?_
      rintro ⟨d, command⟩ _ ⟨rfl, hknown, hname, args, rest, hreads, hbind⟩
      have hrun : Runs w.source (w.Unprinted interpreter)
          (runPieces (World.callWithin interpreter Builtin.library levels
            (w.inner command.locals))) := by
        intro pieces hpieces
        have hinner := Builtin.inner_standard hw hbind
        exact (runPieces_yields (fun c hc => callWithin_yields levels hinner hc) pieces
          hpieces).mono (fun _ _ h => h) fun _ hf => hf.placeable
      have hbody := Builtin.body_says hknown.level hrun (hreads.sound hc.args) hbind
      have hstack : Failure.Placeable w.source.text (w.Unprinted interpreter)
        (.overflow .stack) := trivial
      have hroom := hbody.ite (interpreter.runs w.depth c) (.throw hstack)
      refine (Yields.adapt hroom fun f hf => hf.settle hc.name_inText).mono ?_ fun _ hf => hf
      intro _ added hadds
      exact hadds.callShows hknown hname hreads

theorem run_yields {interpreter : Interpreter} {w : World Builtin} {pieces : List Piece}
    (hw : w.scope.Standard) (hpieces : ∀ p ∈ pieces, p.StandsIn w.source.text.toList) :
    Yields (Failure.Placed w.source.text (w.Unprinted interpreter))
      (w.run interpreter Builtin.library pieces) fun _ added =>
        ∃ cs, PiecesShow w.source pieces cs ∧ added = ink cs :=
  runPieces_yields (fun _ hc => callWithin_yields _ hw hc) pieces hpieces

/-! ### Documents -/

/-- What a document says: the texts of its leaves in order. -/
def Document.chars (d : Document) : List Char := (blocksLeaves d.content).flatMap Leaf.chars

/-- The parse tree of a source. -/
def Source.trees (source : Source) : Except ParseError (List Tree) := do
  let pieces ← readMarkup source source.span
  piecesTrees source standardMode pieces

theorem Interpreter.finish_run (interpreter : Interpreter) (s : Session) :
    interpreter.finish s = if interpreter.finishes s.builder then
        ExceptT.adapt Failure.atEnd (Eval.ofBuild Build.intoDocument) s
      else (.error (.overflow .stack), s) := by
  change (if interpreter.finishes s.builder then _ else _ : Eval Document) s = _
  split <;> rfl

/-- Evaluating pieces gives a document of standard blocks that says what they say, or fails in a
place in the text, or for want of room, or, once all is evaluated, since the last run finds no
place. -/
theorem evaluatePieces_ensures {interpreter : Interpreter} {w : World Builtin}
    {pieces : List Piece} (hw : w.scope.Standard)
    (hpieces : ∀ p ∈ pieces, p.StandsIn w.source.text.toList) :
    Ensures (evaluatePieces interpreter Builtin.library w pieces) {}
      (fun d _ => blocksMadeOf Standard d.content ∧
        ∃ cs, PiecesShow w.source pieces cs ∧ ink d.chars = ink cs)
      (fun f => f.Placed w.source.text (w.Unprinted interpreter) ∨
        f = .command ⟨.build .emptyTermList, none, none⟩) := by
  have hempty : Builder.MadeOf Standard {} := ⟨trivial, trivial⟩
  refine .bind ((run_yields hw hpieces {} hempty).mono (fun _ s => ?_) fun _ hf => .inl hf)
  rintro ⟨hmade, _, hink, cs, hshow, rfl⟩
  refine .bind (.get ?_)
  split
  swap
  · exact .throw (.inl trivial)
  have hdocument : Ensures (Eval.ofBuild Build.intoDocument) s
      (fun d _ => blocksMadeOf Standard d.content ∧ ∃ cs, PiecesShow w.source pieces cs ∧
        ink d.chars = ink cs) (· = .build .emptyTermList) := by
    refine ((intoDocument_ensures hmade).adapt ?_).mono (fun d _ => ?_) fun _ hf => hf
    · rintro _ rfl
      rfl
    · rintro ⟨hblocks, hsame⟩
      exact ⟨hblocks, cs, hshow, hsame.trans hink⟩
  refine hdocument.adapt ?_
  rintro _ rfl
  exact .inr rfl

/-- The world that a source is evaluated in. -/
def standardWorld (source : Source) (maxDepth : Int) : World Builtin :=
  { scope := standardScope, source, maxDepth }

theorem evaluateStandard_eq {source : Source} {pieces : List Piece} {interpreter : Interpreter}
    (hread : readMarkup source source.span = .ok pieces) (maxDepth : Int) :
    (evaluateStandard source maxDepth interpreter).1 =
      (evaluatePieces interpreter Builtin.library (standardWorld source maxDepth) pieces
        {}).1.mapError Failure.toError := by
  unfold evaluateStandard evaluate
  dsimp only
  rw [hread]
  rfl

theorem evaluateStandard_eq_of_error {source : Source} {e : ParseError}
    {interpreter : Interpreter} (hread : readMarkup source source.span = .error e)
    (maxDepth : Int) :
    (evaluateStandard source maxDepth interpreter).1 = .error (.parse e) := by
  unfold evaluateStandard evaluate
  dsimp only
  rw [hread]

/-- **A document says what its source says, up to whitespace.** -/
theorem evaluateStandard_ink {source : Source} {maxDepth : Int} {d : Document}
    (h : (evaluateStandard source maxDepth).1 = .ok d) :
    ∃ trees, source.trees = .ok trees ∧ ink d.chars = ink (treesChars trees) := by
  have hstands := readMarkup_standsIn source source.span_standsIn
  cases hread : readMarkup source source.span with
  | error e =>
      rw [evaluateStandard_eq_of_error hread] at h
      cases h
  | ok pieces =>
      rw [evaluateStandard_eq hread] at h
      rw [hread] at hstands
      have hensures : Ensures (evaluatePieces {} Builtin.library (standardWorld source maxDepth)
        pieces) {} _ _ := evaluatePieces_ensures standardScope_standard hstands
      rcases heval : evaluatePieces {} Builtin.library (standardWorld source maxDepth) pieces {}
        with ⟨f | found, s⟩
      · rw [heval] at h
        cases h
      · rw [heval] at h
        cases h
        obtain ⟨-, cs, ⟨trees, htrees, rfl⟩, hink⟩ := hensures.of_eq_ok heval
        refine ⟨trees, ?_, hink⟩
        rw [Source.trees, hread]
        exact htrees

/-- Text before, between, inside and after lists, on two lines with an empty one between them:
`a`, and `\list{\item{b} ⏎\item{\emph{c}\footnote{d}}}e\link{u}{f}\terms{\term{g}{\code{\h}} }i`. -/
def mixedSource : Source where
  text := "a\n\n\\list\x7b\\item\x7bb\x7d \n\\item\x7b\\emph\x7bc\x7d\\footnote\x7bd\x7d\x7d\x7de" ++
    "\\link\x7bu\x7d\x7bf\x7d\\terms\x7b\\term\x7bg\x7d\x7b\\code\x7b\\h\x7d\x7d \x7di"

theorem evaluateStandard_ink_mixed :
    ∃ d, (evaluateStandard mixedSource defaultMaxDepth).1 = .ok d ∧
      String.ofList (ink d.chars) = "abcdefg\\hi" ∧
      ∃ trees, mixedSource.trees = .ok trees ∧ ink d.chars = ink (treesChars trees) := by
  have hrun : (evaluateStandard mixedSource defaultMaxDepth).1.toOption.map
      (fun d => String.ofList (ink d.chars)) = some "abcdefg\\hi" := by decide +kernel
  cases h : (evaluateStandard mixedSource defaultMaxDepth).1 with
  | error e =>
      rw [h] at hrun
      cases hrun
  | ok d =>
      rw [h] at hrun
      exact ⟨d, rfl, Option.some.inj hrun, evaluateStandard_ink h⟩

end Markup
