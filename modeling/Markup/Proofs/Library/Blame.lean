import Markup.Proofs.Compile
import Markup.Proofs.Library.Uniform
import Markup.Proofs.Token.Layout

/-! # What an error points at

An error with a place points at a fragment of the text, or at the name of a paragraph command, which
was never written and has the place of a newline (`Span.FoundIn`).

While pieces are evaluated, a failure that knows a place got it from a call or from an argument that
could not be read, so it points at what was read (`Blames`).  That a step has no other failures is
kept by all that evaluation puts together; comparing an evaluation with itself (`pointing`) shows it
of the standard commands all at once.  `foundIn_of_evaluateStandard` says it of a whole source. -/

namespace Markup

open Text

/-! ### Fragments and made up names -/

/-- The span stands in the text, or is the name of a paragraph command at a newline of the text. -/
def Span.FoundIn (text : List Char) (s : Span) : Prop :=
  s.StandsIn text ∨
    ∃ last, last.StandsIn text ∧ (∃ e : Newline, last.fragment.toList = e.chars) ∧
      s = Source.parSpan last

theorem Call.StandsIn.name_foundIn {text : List Char} {c : Call} (h : c.StandsIn text) :
    c.name.FoundIn text := by
  rcases h with ⟨hname, -⟩ | ⟨last, hlast, hnewline, rfl⟩
  · exact .inl hname
  · exact .inr ⟨last, hlast, hnewline, rfl⟩

/-- As far as the failure knows a place, that is in the text. -/
def Failure.Points (text : List Char) : Failure → Prop
  | .command e => ∀ span, e.span = some span → span.FoundIn text
  | .build _ | .unpushable _ | .overflow _ => True

/-- A call gives a failure inside it no other place than its own name. -/
theorem Failure.Points.settle {κ : Type} {w : World κ} {c : Call} {text : List Char}
    (hname : c.name.FoundIn text) : ∀ {f : Failure}, f.Points text → (w.settle c f).Points text
  | .build _, _ | .overflow .stack, _ => fun _ hspan => Option.some.inj hspan ▸ hname
  | .unpushable _, _ | .overflow .digits, _ => trivial
  | .command ⟨_, none, _⟩, _ => fun _ hspan => Option.some.inj hspan ▸ hname
  | .command ⟨_, some _, _⟩, h => fun span hspan => h span hspan

/-! ### Steps -/

/-- However the step fails, the failure points at what is in the text. -/
def Blames {α : Type} (text : List Char) (x : Eval α) : Prop :=
  ∀ s f s', x s = (.error f, s') → f.Points text

namespace Blames

variable {α β : Type} {text : List Char} {x : Eval α}

theorem pure (a : α) : Blames text (Pure.pure a) := by
  rintro s f _ ⟨⟩

theorem throw {f : Failure} (h : f.Points text) : Blames text (MonadExcept.throw f : Eval α) := by
  rintro s _ _ ⟨⟩
  exact h

theorem bind {next : α → Eval β} (h : Blames text x) (hnext : ∀ a, Blames text (next a)) :
    Blames text (x >>= next) := by
  intro s f s'' hrun
  rw [bind_run] at hrun
  rcases hx : x s with ⟨e | a, s'⟩
  · rw [hx] at hrun
    cases hrun
    exact h s _ _ hx
  · rw [hx] at hrun
    exact hnext a s' f s'' hrun

theorem adapt {change : Failure → Failure} (h : Blames text x)
    (hchange : ∀ f, f.Points text → (change f).Points text) :
    Blames text (ExceptT.adapt change x) := by
  intro s f s' hrun
  rw [adapt_run] at hrun
  rcases hx : x s with ⟨e | a, after⟩
  · rw [hx] at hrun
    cases hrun
    exact hchange e (h s e s' hx)
  · rw [hx] at hrun
    cases hrun

theorem nested (h : Blames text x) : Blames text (Eval.nested x) := by
  intro s f s' hrun
  rw [nested_run] at hrun
  obtain ⟨hx, -⟩ := Prod.mk.inj hrun
  exact h { s with builder := {} } f _ (Prod.ext hx rfl)

/-- A failure of the builder knows no place. -/
theorem ofBuild (step : Build α) : Blames text (Eval.ofBuild step) := by
  intro s f s' hrun
  rw [Eval.ofBuild, adapt_run] at hrun
  rcases hstep : step s with ⟨e | a, after⟩
  · rw [hstep] at hrun
    cases hrun
    cases e <;> trivial
  · rw [hstep] at hrun
    cases hrun

end Blames

/-! ### The text of pieces -/

variable {text : List Char}

/-- Pieces that are no text are not for the first call among them. -/
theorem points_of_literalText {pieces : List Piece} {e : CommandError}
    (hpieces : ∀ p ∈ pieces, p.StandsIn text) (h : literalText pieces = .error e) :
    Failure.Points text (.command e) := by
  induction pieces generalizing e with
  | nil => cases h
  | cons p rest ih =>
      cases p with
      | text span =>
          rw [literalText] at h
          cases hrest : literalText rest with
          | ok more =>
              rw [hrest] at h
              cases h
          | error e' =>
              rw [hrest] at h
              cases h
              exact ih (fun p hp => hpieces p (List.mem_cons_of_mem _ hp)) hrest
      | call c =>
          have hcall : c.StandsIn text := hpieces (.call c) List.mem_cons_self
          cases h
          intro span hspan
          exact Option.some.inj hspan ▸ hcall.name_foundIn

theorem string_blames {pieces : List Piece} (hpieces : ∀ p ∈ pieces, p.StandsIn text) :
    Blames text (Deferred.ofPieces pieces).string := by
  unfold Deferred.string
  rw [show (Deferred.ofPieces pieces).intoString.1 = literalText pieces from rfl]
  cases htext : literalText pieces with
  | ok found => exact .pure found
  | error e => exact .throw (points_of_literalText hpieces htext)

/-- Pieces that stand in the text compared with themselves, and steps that only blame what is in
it. -/
def pointing (text : List Char) : Comparison where
  Pieces ps qs := ps = qs ∧ ∀ p ∈ ps, p.StandsIn text
  Inner x y := x = y ∧ Blames text x
  Steps x y := x = y ∧ Blames text x
  pure a := ⟨rfl, .pure a⟩
  bind := by
    rintro α β x y f g ⟨rfl, hx⟩ hnext
    exact ⟨congrArg (x >>= ·) (funext fun a => (hnext a).1), hx.bind fun a => (hnext a).2⟩
  fail _ := ⟨rfl, .throw fun _ hspan => nomatch hspan⟩
  pushInline _ := ⟨rfl, .ofBuild _⟩
  pushBlock _ := ⟨rfl, .ofBuild _⟩
  setMetadata _ _ := ⟨rfl, .ofBuild _⟩
  string := by
    rintro ps _ ⟨rfl, hpieces⟩
    exact ⟨rfl, string_blames hpieces⟩
  intoBlocks := by
    rintro x _ ⟨rfl, hx⟩
    exact ⟨rfl, .nested (hx.bind fun _ => .ofBuild _)⟩
  intoInlines := by
    rintro x _ ⟨rfl, hx⟩
    exact ⟨rfl, .nested (hx.bind fun _ => .ofBuild _)⟩

/-! ### Calls -/

section calls

variable {w : World Builtin} {c : Call}

/-- Arguments that stand in the text are read to pieces that do. -/
theorem readsAlike_self (source : Source) (mode : ArgMode) : ∀ {arguments : List Argument},
    (∀ a ∈ arguments, a.StandsIn source.text.toList) →
      List.Forall₂ ((pointing source.text.toList).ReadsAlike mode source source) arguments arguments
  | [], _ => .nil
  | a :: rest, h => by
      refine .cons ⟨rfl, fun ps hread => ⟨ps, hread, rfl, ?_⟩⟩
        (readsAlike_self source mode fun b hb => h b (List.mem_cons_of_mem a hb))
      have hstands := mode.read_standsIn source (h a List.mem_cons_self).1
      rwa [hread] at hstands

/-- A call that is not found is refused at its name, or where an argument cannot be read. -/
theorem points_of_found (hc : c.StandsIn w.source.text.toList) {f : Failure}
    (h : w.found Builtin.library c = .error f) : f.Points w.source.text.toList := by
  have hname : ∀ cause source, Failure.Points w.source.text.toList
      (.command ⟨cause, some c.name, source⟩) :=
    fun _ _ _ hspan => Option.some.inj hspan ▸ hc.name_foundIn
  rw [World.found_eq] at h
  cases hfind : w.scope.find? c.name.fragment with
  | none =>
      rw [hfind] at h
      cases h
      exact hname _ _
  | some d =>
      rw [hfind] at h
      dsimp only at h
      cases hread : Args.read d.mode w.source c.args with
      | error e =>
          rw [hread] at h
          cases h
          obtain ⟨a, ha, hfail⟩ := Args.readFrom_error hread
          have hstands := d.mode.read_standsIn w.source (hc.args a ha).1
          rw [hfail] at hstands
          intro span hspan
          exact Option.some.inj hspan ▸ .inl hstands.1
      | ok args =>
          rw [hread] at h
          dsimp only at h
          cases hbind : Builtin.library.invoke d.kind args with
          | error e =>
              rw [hbind] at h
              cases h
              exact hname _ _
          | ok bound =>
              rw [hbind] at h
              cases h

/-- What a found command does with its arguments blames what is in the text, if they do. -/
theorem body_blames (hc : c.StandsIn w.source.text.toList) {d : Definition Builtin}
    {i : Invocation Builtin} (hfound : w.found Builtin.library c = .ok (d, i)) {run : Runner}
    (hrun : ∀ ps, (∀ p ∈ ps, p.StandsIn w.source.text.toList) →
      Blames w.source.text.toList (run ps)) :
    Blames w.source.text.toList (i.body run) := by
  obtain ⟨i', hfound', -, hbody⟩ := (pointing w.source.text.toList).found_invocations rfl rfl
    (fun mode => readsAlike_self w.source mode hc.args) hfound
  have hrunners : (pointing w.source.text.toList).Runners run run := by
    rintro ps _ ⟨rfl, hps⟩
    exact ⟨rfl, hrun ps hps⟩
  exact (hbody run run hrunners).2

theorem runPieces_blames {call : Call → Eval Unit}
    (h : ∀ c, c.StandsIn text → Blames text (call c)) : ∀ {pieces : List Piece},
    (∀ p ∈ pieces, p.StandsIn text) → Blames text (runPieces call pieces)
  | [], _ => .pure ()
  | .text _ :: _, hpieces =>
      (Blames.ofBuild _).bind fun _ =>
        runPieces_blames h fun p hp => hpieces p (List.mem_cons_of_mem _ hp)
  | .call c :: _, hpieces =>
      (h c (hpieces (.call c) List.mem_cons_self)).bind fun _ =>
        runPieces_blames h fun p hp => hpieces p (List.mem_cons_of_mem _ hp)

theorem callBody_blames (hc : c.StandsIn w.source.text.toList)
    {call : Invocation Builtin → Call → Eval Unit}
    (h : ∀ i c, c.StandsIn w.source.text.toList → Blames w.source.text.toList (call i c)) :
    Blames w.source.text.toList (w.callBody Builtin.library c call) := by
  intro s f s' hrun
  rw [World.callBody_run] at hrun
  cases hfound : w.found Builtin.library c with
  | error e =>
      rw [hfound] at hrun
      cases hrun
      exact points_of_found hc hfound
  | ok found =>
      obtain ⟨d, i⟩ := found
      rw [hfound] at hrun
      have hbody := body_blames hc hfound fun ps hps => runPieces_blames (h i) hps
      exact (hbody.adapt fun f hf => hf.settle hc.name_foundIn) _ f s' hrun

/-- Calls inside a call are evaluated in the same text, on one level less. -/
theorem callWithin_blames : ∀ (levels : Nat) {w : World Builtin} {c : Call},
    c.StandsIn w.source.text.toList →
      Blames w.source.text.toList (w.callWithin {} Builtin.library levels c)
  | 0, _, _, hc => .throw fun _ hspan => Option.some.inj hspan ▸ hc.name_foundIn
  | levels + 1, w, c, hc => by
      rw [World.callWithin_succ]
      refine callBody_blames hc fun i c' hc' => ?_
      exact callWithin_blames levels hc'

end calls

/-! ### Sources -/

/-- **An error of evaluation that has a place points at a fragment of the text, or at a paragraph
command at a newline of it.** -/
theorem foundIn_of_evaluateStandard {source : Source} {maxDepth : Int} {e : Error} {span : Span}
    (h : (evaluateStandard source maxDepth).1 = .error e) (hspan : e.span? = some span) :
    span.FoundIn source.text.toList := by
  have hstands := readMarkup_standsIn source source.span_standsIn
  cases hread : readMarkup source source.span with
  | error e' =>
      rw [hread] at hstands
      rw [evaluateStandard_eq_of_error hread] at h
      cases h
      exact Option.some.inj hspan ▸ .inl hstands.1
  | ok pieces =>
      rw [hread] at hstands
      rcases hrun : (standardWorld source maxDepth).run {} Builtin.library pieces {} with ⟨f | _, s⟩
      · have hblames : Blames source.text.toList
            ((standardWorld source maxDepth).run {} Builtin.library pieces) :=
          runPieces_blames (fun c hc => callWithin_blames _ hc) hstands
        have hpoints := hblames {} f s hrun
        rw [evaluateStandard_of_run_error hread hrun] at h
        cases h
        cases f with
        | command e => exact hpoints span hspan
        | build _ | unpushable _ | overflow _ => cases hspan
      · -- The last drain has no call to blame, and so no place.
        rw [evaluateStandard_of_run_ok hread hrun rfl] at h
        rcases hdrain : Build.drain s with ⟨f | _, s'⟩
        · rw [hdrain] at h
          cases h
          cases f <;> cases hspan
        · rw [hdrain] at h
          cases h

end Markup
