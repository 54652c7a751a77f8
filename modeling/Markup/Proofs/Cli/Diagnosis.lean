import Markup.Proofs.Cli.Exits

/-! # Runs and editors

**A run says of a text what an editor shows for it** (`run_agrees`): the code is 0 if the editor
shows nothing, 1 if it shows an error and 2 if it shows a warning, and the message is the same
(`Agrees`).  The text that counts is the one the run has read, in which every line ends in a line
feed; so the two agree on the text as it stands if it has no carriage returns.

With a carriage return they may not agree: an editor shows an error for one that stands alone, which
a run takes for the end of a line (`run_loneCarriageReturn`). -/

namespace Markup

/-- What follows the message in a report: nothing, or lines of their own. -/
def IsPlace (place : String) : Prop := place = "" ∨ ∃ lines, place = "\n" ++ lines

theorem excerpt_eq (message : String) (span : Span) (source filename : String) :
    ∃ place, IsPlace place ∧ excerpt message span source filename =
      "error: " ++ message ++ place := by
  have hlines : ∀ line column shown carets, ∃ lines,
      reportAt message filename line column shown carets =
        "error: " ++ message ++ ("\n" ++ lines) := by
    intro line column shown carets
    unfold reportAt
    simp only [String.append_assoc]
    exact ⟨_, rfl⟩
  unfold excerpt
  dsimp only
  obtain ⟨lines, hlines⟩ := hlines _ _ _ _
  exact ⟨_, .inr ⟨lines, rfl⟩, hlines⟩

/-- A report is the message, and then perhaps its place. -/
theorem Error.report_eq (filename : String) (e : Error) :
    ∃ place, IsPlace place ∧ e.report filename = "error: " ++ e.message ++ place := by
  have hplain : ∃ place, IsPlace place ∧
      "error: " ++ e.message = "error: " ++ e.message ++ place :=
    ⟨"", .inl rfl, String.append_empty.symm⟩
  cases e with
  | lex e => exact excerpt_eq e.message e.span e.source filename
  | parse e => exact excerpt_eq e.message e.span e.source filename
  | command e =>
      rw [report, CommandError.format]
      split
      · exact excerpt_eq e.message _ _ filename
      · exact hplain
  | arguments _ | build _ | render _ | unpushable _ | overflow _ | other _ => exact hplain

namespace Cli

/-- A run and an editor say the same: by the code of the run and the severity of what is shown, and
in the message, with which the run ends what it has told. -/
structure Agrees (result : Except Crash Exit) (told s' : Machine) (shown : List Diagnostic) :
    Prop where
  success : result.map Exit.code = .ok 0 ↔ shown = []
  malformed : result.map Exit.code = .ok 1 ↔ ∃ d, shown = [d] ∧ d.severity = .error
  failure : result.map Exit.code = .ok 2 ↔ ∃ d, shown = [d] ∧ d.severity = .warning
  message : ∀ d ∈ shown, ∃ place, IsPlace place ∧
    s' = told.say ("error: " ++ d.message ++ place ++ "\n")

section agreement

variable {o : Options} {s : Machine} {text : String}

theorem agrees_success {told s' : Machine} : Agrees (.ok .success) told s' [] where
  success := iff_of_true rfl rfl
  malformed := iff_of_false (fun h => nomatch h) (fun ⟨_, h, _⟩ => nomatch h)
  failure := iff_of_false (fun h => nomatch h) (fun ⟨_, h, _⟩ => nomatch h)
  message := fun _ h => nomatch h

/-- An error is reported like it is shown. -/
theorem agrees_refused {e : Error} {d : Diagnostic} (told : Machine) (input : Path)
    (hmessage : d.message = e.message) (hseverity : d.severity = .error ↔ e.IsMalformed) :
    Agrees (.ok (Failure.document e).exit) told
      (told.say ((Failure.document e).report input ++ "\n")) [d] := by
  have hwarning : d.severity = .warning ↔ ¬ e.IsMalformed := by
    rw [← hseverity]
    cases d.severity <;> decide
  have hone : ∀ severity, (∃ d', [d] = [d'] ∧ d'.severity = severity) ↔ d.severity = severity := by
    intro severity
    constructor
    · rintro ⟨d', hd, hd'⟩
      cases hd
      exact hd'
    · exact fun h => ⟨d, rfl, h⟩
  constructor
  case success =>
    refine iff_of_false (fun h => ?_) (List.cons_ne_nil _ _)
    exact exit_document_ne_success e (Except.ok.inj ((map_code_eq_ok_iff .success).mp h))
  case malformed =>
    rw [hone, hseverity, ← exit_document_eq_malformed_iff]
    exact (map_code_eq_ok_iff .malformed).trans (iff_of_eq (Except.ok.injEq _ _))
  case failure =>
    rw [hone, hwarning, ← exit_document_eq_malformed_iff]
    refine (map_code_eq_ok_iff .failure).trans ((iff_of_eq (Except.ok.injEq _ _)).trans ?_)
    have hsuccess := exit_document_ne_success e
    cases hexit : (Failure.document e).exit with
    | success => exact (hsuccess hexit).elim
    | malformed => decide
    | failure => decide
  case message =>
    intro d' hd'
    obtain rfl := List.mem_singleton.mp hd'
    obtain ⟨place, hplace, hreport⟩ := Error.report_eq input.text e
    exact ⟨place, hplace, by rw [Failure.report, hreport, hmessage]⟩

/-- What becomes of an input that can be read agrees with what an editor shows for it. -/
theorem Compiles.agrees {outcome : Outcome} {s' : Machine} (h : Compiles {} o s outcome s')
    (hread : s.disk.Holds o.input text) (hdepth : o.maxDepth = defaultMaxDepth)
    (hwritable : ∀ html, ∃ s', o.publish html s = .ok s') (name : String) :
    Agrees (outcome.ending o.input s').1 (s.say (o.compileText text).told)
      (outcome.ending o.input s').2 (diagnose { text, filename := name }) := by
  have hnamed : diagnose { text, filename := name } =
      diagnose { text, filename := o.input.text } :=
    diagnose_renamed name { text, filename := o.input.text }
  rw [hnamed]
  cases hpage : o.page text with
  | error e =>
      have hroom : ∀ resource, e ≠ .overflow resource := by
        rintro resource rfl
        rw [o.page_eq_compile] at hpage
        exact compile_ne_overflow _ _ _ _ hpage
      obtain ⟨rfl, rfl⟩ := h.unique (.refused hread hpage hroom)
      rw [o.page_eq_compile, hdepth] at hpage
      obtain ⟨d, hshown, hmessage, -, hseverity⟩ := diagnose_of_compile_error hpage
      rw [hshown]
      exact agrees_refused _ _ hmessage (hseverity.trans (isMalformed_iff hpage).symm)
  | ok html =>
      obtain ⟨s₁, hwrite⟩ := hwritable html
      have hsaid : o.publish html (s.say (o.compileText text).told) =
          .ok (s₁.say (o.compileText text).told) := by
        rw [Options.publish_say, hwrite]
        rfl
      obtain ⟨rfl, rfl⟩ := h.unique (.written hread hpage hsaid)
      rw [o.page_eq_compile, hdepth] at hpage
      rw [diagnose_of_compile_ok hpage]
      exact agrees_success

/-- **A run and an editor agree** on the text that the run has read, which is the text of the file
unless it has carriage returns. -/
theorem run_agrees {args : List String} {r : Request} {bytes : ByteArray}
    (hparse : Request.parse args = .ok r) (hwatch : r.watch = false)
    (hload : (s.exec (loadOptions r)).1 = .ok o) (hdepth : o.maxDepth = defaultMaxDepth)
    (hread : s.disk.readFile o.input = .ok bytes) (hdecode : String.fromUTF8? bytes = some text)
    (hwritable : ∀ html, ∃ s', o.publish html s = .ok s')
    (pauses : List (StateM Machine Unit)) (name : String) :
    let final := s.exec (run args pauses)
    let read := String.ofList (Text.unifyNewlines text.toList)
    let told := (s.exec (loadOptions r)).2.say (o.compileText read).told
    Agrees final.1 told final.2 (diagnose { text := read, filename := name }) ∧
      ('\r' ∉ text.toList → Agrees final.1 told final.2 (diagnose { text, filename := name })) := by
  intro final read told
  obtain ⟨notice, hnotice⟩ := exec_loadOptions_machine r {} s
  obtain ⟨outcome, s', hcompiles⟩ := exists_compiles {} o (s.exec (loadOptions r)).2
  have hfinal : final = outcome.ending o.input s' := by
    change s.exec (run args pauses) = _
    rw [exec_run hparse, hload]
    dsimp only
    rw [(loadOptions_eq_ok hload).2.2, hwatch]
    exact exec_runOnce hcompiles
  have hholds : (s.exec (loadOptions r)).2.disk.Holds o.input read := by
    refine ⟨bytes, ?_, ?_⟩
    · rw [hnotice]
      exact hread
    · rw [Text.decode?, hdecode]
      rfl
  have hagrees : Agrees final.1 told final.2 (diagnose { text := read, filename := name }) := by
    rw [hfinal]
    refine hcompiles.agrees hholds hdepth (fun html => ?_) name
    obtain ⟨s₁, hwrite⟩ := hwritable html
    rw [hnotice, Options.publish_say, hwrite]
    exact ⟨_, rfl⟩
  refine ⟨hagrees, fun hcr => ?_⟩
  have hsame : read = text := by
    change String.ofList (Text.unifyNewlines text.toList) = text
    rw [Text.unifyNewlines_eq_self hcr, String.ofList_toList]
  rw [hsame] at hagrees
  exact hagrees

/-- A text with a line that ends in two characters, and with braces that never close. -/
theorem run_agrees_unclosed :
    let s := Machine.ofFile "doc.tx" "a\r\n\\b\x7b".toUTF8 1
    let r : Request := { input := "doc.tx" }
    let o : Options := { input := ⟨"", ["doc.tx"]⟩ }
    let read := String.ofList (Text.unifyNewlines "a\r\n\\b\x7b".toList)
    Request.parse ["doc.tx"] = .ok r ∧ (s.exec (loadOptions r)).1 = .ok o ∧
    String.fromUTF8? "a\r\n\\b\x7b".toUTF8 = some "a\r\n\\b\x7b" ∧
    Agrees (s.exec (run ["doc.tx"] [])).1
      ((s.exec (loadOptions r)).2.say (o.compileText read).told) (s.exec (run ["doc.tx"] [])).2
      (diagnose { text := read, filename := "doc.tx" }) := by
  intro s r o read
  have hparse : Request.parse ["doc.tx"] = .ok r := by decide +kernel
  have hload : (s.exec (loadOptions r)).1 = .ok o := by decide +kernel
  have hdecode : String.fromUTF8? "a\r\n\\b\x7b".toUTF8 = some "a\r\n\\b\x7b" := by decide +kernel
  have hread : s.disk.readFile o.input = .ok "a\r\n\\b\x7b".toUTF8 := by decide +kernel
  exact ⟨hparse, hload, hdecode,
    (run_agrees hparse rfl hload rfl hread hdecode (fun html => ⟨_, rfl⟩) [] "doc.tx").1⟩

/-- A carriage return that stands alone: the run ends well, and an editor shows an error. -/
theorem run_loneCarriageReturn :
    ((Machine.ofFile "doc.tx" "a\rb".toUTF8 1).exec (run ["doc.tx"] [])).1 = .ok .success ∧
    (diagnose { text := "a\rb" }).map (fun d => (d.severity, d.message)) =
      [(.error, "unexpected character '\\r'")] := by
  decide +kernel

end agreement

end Cli

end Markup
