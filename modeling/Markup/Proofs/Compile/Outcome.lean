import Markup.Compile
import Markup.Proofs.Compile

/-! # What a text is refused for

A text is refused before anything is evaluated if its indentation fits no level or its markup
cannot be read (`Source.Malformed`); the error then is one of the indentation or of the syntax
(`compile_of_malformed`).  Every other text is compiled to the end, or a command fails
(`compile_of_not_malformed`).

An editor shows the same error that a compilation ends with, and shows none if there is none
(`diagnose_of_compile_error`, `diagnose_of_compile_ok`).  The name that a source goes by has no part
in either (`evaluateStandard_renamed`). -/

namespace Markup

/-! ### Malformed texts -/

/-- The text has no tokens, or it cannot be read as text and commands. -/
def Source.Malformed (source : Source) : Prop :=
  (∃ e, lex source.text = .error e) ∨ ∃ e, readMarkup source source.span = .error e

/-- An error of the indentation or of the syntax. -/
def Error.IsMalformed : Error → Prop
  | .lex _ | .parse _ => True
  | .arguments _ | .build _ | .command _ | .render _ | .unpushable _ => False
  | .overflow _ | .other _ => False

section outcomes

variable {source : Source} (options : Html.Options) (maxDepth : Int) (interpreter : Interpreter)

theorem compile_of_lex_error {e : LexError} (hlex : lex source.text = .error e) :
    (compile source options maxDepth interpreter).1 = .error (.lex e) := by
  unfold compile
  rw [hlex]

/-- What can be read is evaluated to a document that can be written, or a command fails, or there is
no room. -/
theorem evaluateStandard_of_read {pieces : List Piece} (hread : source.Reads pieces) :
    (∃ d, (evaluateStandard source maxDepth interpreter).1 = .ok d ∧
      ∀ options, ∃ html, Html.render options d = .ok html) ∨
    (∃ e, (evaluateStandard source maxDepth interpreter).1 = .error (.command e)) ∨
    ∃ resource, (evaluateStandard source maxDepth interpreter).1 =
      .error (.overflow resource) := by
  have hstands := readMarkup_standsIn source source.span_standsIn
  rw [hread.2] at hstands
  rw [evaluateStandard_eq hread.2]
  have hensures : Ensures (evaluatePieces interpreter Builtin.library
    (standardWorld source maxDepth) pieces) {} _ _ :=
    evaluatePieces_ensures standardScope_standard hstands
  rcases heval :
      evaluatePieces interpreter Builtin.library (standardWorld source maxDepth) pieces {}
    with ⟨f | d, s⟩
  · rcases hensures.of_eq_error heval with hplaced | rfl
    · cases f with
      | command e => exact .inr (.inl ⟨e, rfl⟩)
      | overflow resource => exact .inr (.inr ⟨resource, rfl⟩)
      | build _ | unpushable _ => exact hplaced.elim
    · exact .inr (.inl ⟨_, rfl⟩)
  · have hwritable : d.WellFormed :=
      blocksMadeOf_mono Standard.writable _ (hensures.of_eq_ok heval).1
    refine .inl ⟨d, rfl, fun options => ?_⟩
    obtain ⟨html, hrender, -⟩ := Html.exists_flow_render options hwritable
    exact ⟨html, hrender⟩

/-- A malformed text is refused as such. -/
theorem compile_of_malformed (h : source.Malformed) :
    ∃ e, (compile source options maxDepth interpreter).1 = .error e ∧ e.IsMalformed := by
  cases hlex : lex source.text with
  | error e => exact ⟨_, compile_of_lex_error _ _ _ hlex, trivial⟩
  | ok tokens =>
      rcases h with ⟨e, hlex'⟩ | ⟨e, hread⟩
      · rw [hlex] at hlex'
        cases hlex'
      · refine ⟨.parse e, ?_, trivial⟩
        rw [compile_of_lex hlex, evaluateStandard_eq_of_error hread]
        rfl

/-- A text that is not malformed is compiled to the end, or a command fails, or there is no room. -/
theorem compile_of_not_malformed (h : ¬ source.Malformed) :
    (∃ html, (compile source options maxDepth interpreter).1 = .ok html) ∨
      (∃ e, (compile source options maxDepth interpreter).1 = .error (.command e)) ∨
      ∃ resource, (compile source options maxDepth interpreter).1 =
        .error (.overflow resource) := by
  cases hlex : lex source.text with
  | error e => exact (h (.inl ⟨e, hlex⟩)).elim
  | ok tokens =>
      cases hread : readMarkup source source.span with
      | error e => exact (h (.inr ⟨e, hread⟩)).elim
      | ok pieces =>
          rw [compile_of_lex hlex]
          rcases evaluateStandard_of_read maxDepth interpreter ⟨⟨tokens, hlex⟩, hread⟩ with
            ⟨d, heval, hrender⟩ | ⟨e, heval⟩ | ⟨resource, heval⟩
          · obtain ⟨html, hhtml⟩ := hrender options
            rw [heval, Except.bind, Interpreter.write, hhtml]
            split
            · exact .inl ⟨html, rfl⟩
            · exact .inr (.inr ⟨.stack, rfl⟩)
          · rw [heval]
            exact .inr (.inl ⟨e, rfl⟩)
          · rw [heval]
            exact .inr (.inr ⟨resource, rfl⟩)

/-- Whether an error is one of the indentation or of the syntax is a matter of the text alone. -/
theorem isMalformed_iff {options : Html.Options} {maxDepth : Int} {interpreter : Interpreter}
    {e : Error} (h : (compile source options maxDepth interpreter).1 = .error e) :
    e.IsMalformed ↔ source.Malformed := by
  constructor
  · intro he
    by_contra hwell
    rcases compile_of_not_malformed options maxDepth interpreter hwell with
      ⟨html, hend⟩ | ⟨ce, hend⟩ | ⟨resource, hend⟩ <;> rw [hend] at h <;> cases h <;> exact he
  · intro hmalformed
    obtain ⟨e', herror, he'⟩ := compile_of_malformed options maxDepth interpreter hmalformed
    rw [h] at herror
    cases herror
    exact he'

end outcomes

/-! ### Names of sources -/

/-- The same text under another name. -/
def Source.renamed (source : Source) (name : String) : Source := { source with filename := name }

/-- The same world, where the text goes by another name. -/
def World.renamed {κ : Type} (w : World κ) (name : String) : World κ :=
  { w with source := w.source.renamed name }

section names

variable {κ : Type} (lib : Library κ) (name : String)

theorem Args.readFrom_renamed (mode : ArgMode) (source : Source) :
    ∀ (arguments : List Argument) (args : Args),
      Args.readFrom mode (source.renamed name) args arguments =
        Args.readFrom mode source args arguments
  | [], _ => rfl
  | a :: rest, args => by
      have hread : mode.read (source.renamed name) a.value = mode.read source a.value := by
        cases mode <;> rfl
      rw [Args.readFrom, Args.readFrom, hread]
      congr 1
      funext pieces
      exact Args.readFrom_renamed mode source rest _

theorem World.resolve_renamed (w : World κ) (c : Call) :
    (w.renamed name).resolve lib c = w.resolve lib c := by
  have hread : ∀ d : Definition κ, Args.read d.mode (w.renamed name).source c.args =
      Args.read d.mode w.source c.args := fun d =>
    Args.readFrom_renamed name d.mode w.source c.args {}
  unfold World.resolve
  simp only [hread]
  rfl

theorem World.callWithin_renamed (levels : Nat) (w : World κ) (c : Call) :
    (w.renamed name).callWithin {} lib levels c = w.callWithin {} lib levels c := by
  induction levels generalizing w c with
  | zero => rfl
  | succ levels ih =>
      have hcall : ∀ invocation : Invocation κ,
          World.callWithin {} lib levels ((w.renamed name).inner invocation.locals) =
            World.callWithin {} lib levels (w.inner invocation.locals) := by
        intro invocation
        funext c'
        exact ih (w.inner invocation.locals) c'
      rw [World.callWithin_succ, World.callWithin_succ, World.callBody, World.callBody,
        World.resolve_renamed]
      simp only [hcall]
      rfl

/-- Evaluation does not depend on the name that a source goes by. -/
theorem evaluateStandard_renamed (source : Source) (maxDepth : Int) :
    evaluateStandard (source.renamed name) maxDepth = evaluateStandard source maxDepth := by
  have hcall : World.call {} Builtin.library (standardWorld (source.renamed name) maxDepth) =
      World.call {} Builtin.library (standardWorld source maxDepth) := by
    funext c
    exact World.callWithin_renamed Builtin.library name _ (standardWorld source maxDepth) c
  have hpieces : evaluatePieces {} Builtin.library (standardWorld (source.renamed name) maxDepth) =
      evaluatePieces {} Builtin.library (standardWorld source maxDepth) := by
    funext pieces
    rw [evaluatePieces, evaluatePieces, World.run, World.run, hcall]
  change evaluate Builtin.library (standardWorld (source.renamed name) maxDepth) =
    evaluate Builtin.library (standardWorld source maxDepth)
  unfold evaluate
  rw [hpieces]
  rfl

theorem diagnose_renamed (source : Source) :
    diagnose (source.renamed name) = diagnose source := by
  unfold diagnose
  rw [evaluateStandard_renamed]
  rfl

end names

/-! ### What an editor shows -/

section editor

variable {source : Source} {options : Html.Options}

theorem diagnose_of_lex_error {e : LexError} (hlex : lex source.text = .error e) :
    diagnose source = ((Error.lex e).diagnostic? source.text).toList := by
  unfold diagnose
  rw [hlex]

theorem diagnose_of_lex {tokens : List Token} (hlex : lex source.text = .ok tokens) :
    diagnose source = match (evaluateStandard source defaultMaxDepth).1 with
      | .error e => (e.diagnostic? source.text).toList
      | .ok _ => [] := by
  unfold diagnose
  cases (evaluateStandard source defaultMaxDepth).1 <;> simp only [hlex]

/-- The diagnostic of an error that compilation can end with. -/
theorem Error.exists_diagnostic (text : String) {e : Error}
    (h : e.IsMalformed ∨ ∃ ce, e = .command ce) :
    ∃ d, e.diagnostic? text = some d ∧ d.message = e.message ∧
      d.range = rangeOf text e.span? ∧ (d.severity = .error ↔ e.IsMalformed) := by
  rcases h with h | ⟨ce, rfl⟩
  · cases e with
    | lex e => exact ⟨_, rfl, rfl, rfl, iff_of_true rfl trivial⟩
    | parse e => exact ⟨_, rfl, rfl, rfl, iff_of_true rfl trivial⟩
    | arguments _ | build _ | command _ | render _ | unpushable _ | overflow _ | other _ =>
        exact h.elim
  · exact ⟨_, rfl, rfl, rfl, iff_of_false Severity.noConfusion id⟩

/-- If a text is compiled to the end, an editor shows nothing. -/
theorem diagnose_of_compile_ok {html : String}
    (h : (compile source options defaultMaxDepth).1 = .ok html) : diagnose source = [] := by
  cases hlex : lex source.text with
  | error e =>
      rw [compile_of_lex_error _ _ _ hlex] at h
      cases h
  | ok tokens =>
      rw [diagnose_of_lex hlex]
      rw [compile_of_lex hlex] at h
      cases heval : (evaluateStandard source defaultMaxDepth).1 with
      | ok d => rfl
      | error e =>
          rw [heval] at h
          cases h

/-- An editor shows the error that compilation ends with. -/
theorem diagnose_of_compile_error {e : Error}
    (h : (compile source options defaultMaxDepth).1 = .error e) :
    ∃ d, diagnose source = [d] ∧ d.message = e.message ∧ d.range = rangeOf source.text e.span? ∧
      (d.severity = .error ↔ source.Malformed) := by
  have hkind : e.IsMalformed ∨ ∃ ce, e = .command ce := by
    by_cases hmalformed : source.Malformed
    · exact .inl ((isMalformed_iff h).mpr hmalformed)
    · rcases compile_of_not_malformed options defaultMaxDepth {} hmalformed with
        ⟨html, hok⟩ | ⟨ce, herror⟩ | ⟨resource, hroom⟩
      · rw [hok] at h
        cases h
      · rw [herror] at h
        cases h
        exact .inr ⟨ce, rfl⟩
      · exact (compile_ne_overflow source options defaultMaxDepth resource hroom).elim
  obtain ⟨d, hd, hmessage, hrange, hseverity⟩ := Error.exists_diagnostic source.text hkind
  refine ⟨d, ?_, hmessage, hrange, hseverity.trans (isMalformed_iff h)⟩
  cases hlex : lex source.text with
  | error le =>
      rw [compile_of_lex_error _ _ _ hlex] at h
      cases h
      rw [diagnose_of_lex_error hlex, hd]
      rfl
  | ok tokens =>
      rw [compile_of_lex hlex] at h
      cases heval : (evaluateStandard source defaultMaxDepth).1 with
      | error e' =>
          rw [heval] at h
          cases h
          rw [diagnose_of_lex hlex, heval]
          dsimp only
          rw [hd]
          rfl
      | ok document =>
          rw [heval, Except.bind, Interpreter.write_default] at h
          cases hrender : Html.render options document with
          | ok html =>
              rw [hrender] at h
              cases h
          | error re =>
              rw [hrender] at h
              cases h
              rcases hkind with hmalformed | ⟨ce, hce⟩
              · exact hmalformed.elim
              · cases hce

end editor

end Markup
