import Markup.Proofs.Cli.Configuration

/-! # Exit codes

A run that does not watch ends with the code 0, 1 or 2 unless it breaks off, and **it breaks off
exactly if a file it needs is not UTF-8, cannot be written or has a path it cannot ask for, or if
the interpreter has no room for its configuration or for compiling its input** (`Request.BreaksOff`,
`run_exits`).  The code is 1 exactly if the input was read and is malformed, and 0 exactly if its
page was written; with any other ending the files and the standard output are as before.

So a run does not always report through its code: it breaks off for an input that is not UTF-8, for
such a configuration, and for an output that cannot be written (`run_breaksOff_without_code`). -/

namespace Markup.Cli

/-- With these options a run breaks off: its input has a path that cannot be asked for or is not
UTF-8, or there is no room for compiling it, or there is a page and it cannot be written. -/
def Options.BreaksOff (o : Options) (interpreter : Interpreter) (s : Machine) : Prop :=
  o.input.HasNul ∨ s.disk.Undecodable o.input ∨
    (∃ text resource, s.disk.Holds o.input text ∧
      o.page text interpreter = .error (.overflow resource)) ∨
    ∃ text html e, s.disk.Holds o.input text ∧ o.page text interpreter = .ok html ∧
      o.publish html s = .error e

/-- The run of a request breaks off. -/
def Request.BreaksOff (r : Request) (interpreter : Interpreter) (s : Machine) : Prop :=
  r.ConfigFails interpreter s.disk ∨
    ∃ o, (s.exec (loadOptions r interpreter)).1 = .ok o ∧ o.BreaksOff interpreter s

/-- What the code of a run tells about it: there is one of the three codes unless the run breaks
off, 1 is the code of an input that was read and is malformed, 0 that of a page that was written,
and without the code 0 nothing was written. -/
structure Request.Exits (r : Request) (interpreter : Interpreter) (s : Machine)
    (result : Except Crash Exit) (s' : Machine) : Prop where
  reports : (∃ code ∈ [0, 1, 2], result.map Exit.code = .ok code) ↔ ¬ r.BreaksOff interpreter s
  malformed : result.map Exit.code = .ok 1 ↔ ∃ o text,
    (s.exec (loadOptions r interpreter)).1 = .ok o ∧ s.disk.Holds o.input text ∧
      Source.Malformed { text, filename := o.input.text }
  success : result.map Exit.code = .ok 0 ↔ ∃ o text html,
    (s.exec (loadOptions r interpreter)).1 = .ok o ∧ s.disk.Holds o.input text ∧
      o.page text interpreter = .ok html ∧
        o.publish html ((s.exec (loadOptions r interpreter)).2.say
          (o.compileText text interpreter).told) = .ok s'
  unwritten : result.map Exit.code ≠ .ok 0 →
    s'.disk = s.disk ∧ s'.streams.out = s.streams.out

section outcomes

variable {interpreter : Interpreter} {o : Options} {s s' : Machine} {outcome : Outcome}

theorem exit_document_eq_malformed_iff {e : Error} :
    (Failure.document e).exit = .malformed ↔ e.IsMalformed := by
  cases e <;> simp [Failure.exit, Error.IsMalformed]

theorem exit_document_ne_success (e : Error) : (Failure.document e).exit ≠ .success := by
  cases e <;> simp [Failure.exit]

namespace Compiles

/-- When a run that compiles its input once breaks off. -/
theorem breaksOff_iff (h : Compiles interpreter o s outcome s') :
    (∃ crash, (outcome.ending o.input s').1 = .error crash) ↔ o.BreaksOff interpreter s := by
  constructor
  · rintro ⟨crash, hcrash⟩
    cases h with
    | @unreadable e hread =>
        left
        by_contra hnul
        rw [Outcome.ending, if_pos ((Disk.readFile_error hread).mpr hnul)] at hcrash
        cases hcrash
    | undecodable hread => exact .inr (.inl hread)
    | broken hread hpage => exact .inr (.inr (.inl ⟨_, _, hread, hpage⟩))
    | refused hread hpage he => cases hcrash
    | unwritable hread hpage hwrite =>
        exact .inr (.inr (.inr ⟨_, _, _, hread, hpage, o.publish_say_eq_error_iff.mp hwrite⟩))
    | written hread hpage hwrite => cases hcrash
  · -- Each of the reasons leads to an outcome, and there is only one.
    rintro (hnul | hread | ⟨text, resource, hread, hpage⟩ | ⟨text, html, e, hread, hpage, hwrite⟩)
    · rcases s.disk.readFile_cases o.input with
        ⟨e, hread⟩ | ⟨bytes, hread, -⟩ | ⟨_, bytes, hread, -⟩
      · obtain ⟨rfl, rfl⟩ := h.unique (.unreadable hread)
        refine ⟨.file e, ?_⟩
        rw [Outcome.ending, if_neg (fun hordinary => (Disk.readFile_error hread).mp hordinary hnul)]
      · exact (Disk.readFile_ok hread hnul).elim
      · exact (Disk.readFile_ok hread hnul).elim
    · obtain ⟨rfl, rfl⟩ := h.unique (.undecodable hread)
      exact ⟨_, rfl⟩
    · obtain ⟨rfl, rfl⟩ := h.unique (.broken hread hpage)
      exact ⟨_, rfl⟩
    · obtain ⟨rfl, rfl⟩ :=
        h.unique (.unwritable hread hpage (o.publish_say_eq_error_iff.mpr hwrite))
      exact ⟨_, rfl⟩

theorem malformed_iff (h : Compiles interpreter o s outcome s') :
    (outcome.ending o.input s').1 = .ok .malformed ↔
      ∃ text, s.disk.Holds o.input text ∧ Source.Malformed { text, filename := o.input.text } := by
  constructor
  · intro hexit
    cases h with
    | unreadable hread =>
        rw [Outcome.ending] at hexit
        split at hexit <;> cases hexit
    | undecodable hread => cases hexit
    | broken hread hpage => cases hexit
    | refused hread hpage he =>
        refine ⟨_, hread, (Options.isMalformed_iff o hpage).mp ?_⟩
        exact exit_document_eq_malformed_iff.mp (Except.ok.inj hexit)
    | unwritable hread hpage hwrite => cases hexit
    | written hread hpage hwrite => cases hexit
  · rintro ⟨text, hread, hmalformed⟩
    obtain ⟨e, hpage, he⟩ := o.page_of_malformed interpreter hmalformed
    have hroom : ∀ resource, e ≠ .overflow resource := by
      rintro resource rfl
      exact he
    obtain ⟨rfl, rfl⟩ := h.unique (.refused hread hpage hroom)
    exact congrArg Except.ok (exit_document_eq_malformed_iff.mpr he)

theorem success_iff (h : Compiles interpreter o s outcome s') :
    (outcome.ending o.input s').1 = .ok .success ↔
      ∃ text html, s.disk.Holds o.input text ∧ o.page text interpreter = .ok html ∧
        o.publish html (s.say (o.compileText text interpreter).told) =
          .ok (outcome.ending o.input s').2 := by
  constructor
  · intro hexit
    cases h with
    | unreadable hread =>
        rw [Outcome.ending] at hexit
        split at hexit <;> cases hexit
    | undecodable hread => cases hexit
    | broken hread hpage => cases hexit
    | refused hread hpage he => exact (exit_document_ne_success _ (Except.ok.inj hexit)).elim
    | unwritable hread hpage hwrite => cases hexit
    | written hread hpage hwrite => exact ⟨_, _, hread, hpage, hwrite⟩
  · rintro ⟨text, html, hread, hpage, hwrite⟩
    obtain ⟨rfl, -⟩ := h.unique (.written hread hpage hwrite)
    rfl

/-- Unless all went well, nothing but the error stream is changed. -/
theorem unwritten (h : Compiles interpreter o s outcome s')
    (hexit : (outcome.ending o.input s').1 ≠ .ok .success) :
    (outcome.ending o.input s').2.disk = s.disk ∧
      (outcome.ending o.input s').2.streams.out = s.streams.out := by
  cases h with
  | unreadable hread =>
      rw [Outcome.ending]
      split
      · exact ⟨rfl, rfl⟩
      · exact ⟨rfl, rfl⟩
  | undecodable hread => exact ⟨rfl, rfl⟩
  | broken hread hpage => exact ⟨rfl, rfl⟩
  | refused hread hpage he => exact ⟨rfl, rfl⟩
  | unwritable hread hpage hwrite => exact ⟨rfl, rfl⟩
  | written hread hpage hwrite => exact (hexit rfl).elim

end Compiles

end outcomes

/-! ### Runs -/

section codes

variable {result : Except Crash Exit}

theorem map_code_eq_ok_iff (exit : Exit) :
    result.map Exit.code = .ok exit.code ↔ result = .ok exit := by
  cases result with
  | error crash => exact iff_of_false (fun h => nomatch h) (fun h => nomatch h)
  | ok exit' => cases exit <;> cases exit' <;> simp [Except.map, Exit.code]

theorem exists_code_iff :
    (∃ code ∈ [0, 1, 2], result.map Exit.code = .ok code) ↔ ¬ ∃ crash, result = .error crash := by
  cases result with
  | error crash =>
      refine iff_of_false ?_ (fun h => h ⟨crash, rfl⟩)
      rintro ⟨code, -, hcode⟩
      cases hcode
  | ok exit =>
      refine iff_of_true ⟨exit.code, ?_, rfl⟩ (fun ⟨_, h⟩ => nomatch h)
      cases exit <;> decide

end codes

theorem Options.breaksOff_say {interpreter : Interpreter} {o : Options} {s : Machine}
    {notice : String} :
    o.BreaksOff interpreter (s.say notice) ↔ o.BreaksOff interpreter s := by
  simp only [BreaksOff, Machine.say_disk, publish_say_eq_error_iff]

section runs

variable {interpreter : Interpreter} {r : Request} {s : Machine}

/-- A run without options has no page, whether it breaks off or not. -/
theorem exits_of_options_error {e : OptionsError}
    (hload : (s.exec (loadOptions r interpreter)).1 = .error e)
    {result : Except Crash Exit} {text : String}
    (hresult : (∃ crash, e = .crash crash ∧ result = .error crash) ∨
      (∀ crash, e ≠ .crash crash) ∧ result = .ok .failure) :
    r.Exits interpreter s result (s.say text) := by
  have hnone : ∀ o, (s.exec (loadOptions r interpreter)).1 ≠ .ok o := by
    intro o h
    rw [hload] at h
    cases h
  have hbreaks : r.BreaksOff interpreter s ↔ ∃ crash, e = .crash crash := by
    rw [Request.BreaksOff, or_iff_left (fun ⟨o, h, _⟩ => hnone o h), ← loadOptions_eq_crash_iff,
      hload]
    simp only [Except.error.injEq]
  have hexit : ∀ exit, result = .ok exit → exit = .failure := by
    rintro exit rfl
    rcases hresult with ⟨crash, -, hcrash⟩ | ⟨-, hfailure⟩
    · cases hcrash
    · exact Except.ok.inj hfailure
  constructor
  case reports =>
    rw [exists_code_iff, hbreaks]
    rcases hresult with ⟨crash, rfl, rfl⟩ | ⟨hcrash, rfl⟩
    · exact iff_of_false (fun h => h ⟨crash, rfl⟩) (fun h => h ⟨crash, rfl⟩)
    · exact iff_of_true (fun ⟨_, h⟩ => nomatch h) (fun ⟨crash, h⟩ => hcrash crash h)
  case malformed =>
    refine iff_of_false (fun h => ?_) (fun ⟨o, _, h, _⟩ => hnone o h)
    exact Exit.noConfusion (hexit .malformed ((map_code_eq_ok_iff _).mp h))
  case success =>
    refine iff_of_false (fun h => ?_) (fun ⟨o, _, _, h, _⟩ => hnone o h)
    exact Exit.noConfusion (hexit .success ((map_code_eq_ok_iff _).mp h))
  case unwritten => exact fun _ => ⟨rfl, rfl⟩

/-- A run with options ends as the outcome has it. -/
theorem exits_of_compiles {o : Options} {outcome : Outcome} {s' : Machine}
    (hload : (s.exec (loadOptions r interpreter)).1 = .ok o)
    (h : Compiles interpreter o (s.exec (loadOptions r interpreter)).2 outcome s') :
    r.Exits interpreter s (outcome.ending o.input s').1 (outcome.ending o.input s').2 := by
  obtain ⟨notice, hnotice⟩ := exec_loadOptions_machine r interpreter s
  have hbreaks : r.BreaksOff interpreter s ↔ o.BreaksOff interpreter s := by
    have hconfig : ¬ r.ConfigFails interpreter s.disk := by
      rw [← loadOptions_eq_crash_iff, hload]
      exact fun ⟨_, h⟩ => nomatch h
    rw [Request.BreaksOff, or_iff_right hconfig]
    simp [hload]
  have hdisk : (s.exec (loadOptions r interpreter)).2.disk = s.disk := by
    rw [hnotice, Machine.say_disk]
  constructor
  case reports => rw [exists_code_iff, h.breaksOff_iff, hnotice, Options.breaksOff_say, hbreaks]
  case malformed =>
    refine (map_code_eq_ok_iff .malformed).trans (h.malformed_iff.trans ?_)
    rw [hdisk, hload]
    simp
  case success =>
    refine (map_code_eq_ok_iff .success).trans (h.success_iff.trans ?_)
    rw [hdisk, hload]
    simp
  case unwritten =>
    intro hcode
    obtain ⟨hdisk', hout⟩ := h.unwritten fun hexit => hcode ((map_code_eq_ok_iff _).mpr hexit)
    rw [hnotice] at hdisk' hout
    exact ⟨hdisk', hout⟩

/-- **The code of a run tells what became of it**, unless it breaks off. -/
theorem run_exits {args : List String} (hparse : Request.parse args = .ok r)
    (hwatch : r.watch = false) (pauses : List (StateM Machine Unit)) (interpreter : Interpreter)
    (s : Machine) : r.Exits interpreter s (s.exec (run args pauses interpreter)).1
      (s.exec (run args pauses interpreter)).2 := by
  obtain ⟨notice, hnotice⟩ := exec_loadOptions_machine r interpreter s
  rw [exec_run hparse]
  cases hload : (s.exec (loadOptions r interpreter)).1 with
  | error e =>
      rw [hnotice]
      cases e with
      | crash crash => exact exits_of_options_error hload (.inl ⟨crash, rfl, rfl⟩)
      | malformedConfig | depth _ =>
          dsimp only
          rw [Machine.say_say]
          exact exits_of_options_error hload (.inr ⟨fun _ => OptionsError.noConfusion, rfl⟩)
  | ok o =>
      obtain ⟨outcome, s', hcompiles⟩ :=
        exists_compiles interpreter o (s.exec (loadOptions r interpreter)).2
      have hexits := exits_of_compiles hload hcompiles
      rw [← exec_runOnce hcompiles] at hexits
      dsimp only
      rw [(loadOptions_eq_ok hload).2.2, hwatch]
      exact hexits

/-- Braces that never close end a run with the code 1. -/
theorem run_exits_unclosed :
    let s := Machine.ofFile "doc.tx" "\\a\x7b".toUTF8 1
    Request.parse ["doc.tx"] = .ok { input := "doc.tx" } ∧
    Request.Exits { input := "doc.tx" } {} s (s.exec (run ["doc.tx"] [])).1
      (s.exec (run ["doc.tx"] [])).2 ∧
    (s.exec (run ["doc.tx"] [])).1 = .ok .malformed :=
  ⟨by decide +kernel, run_exits (by decide +kernel) rfl [] {} _, by decide +kernel⟩

/-- Bytes that are not UTF-8, in the input or in the configuration, and an output that cannot be
written end a run without a code. -/
theorem run_breaksOff_without_code :
    Request.parse ["doc.tx"] = .ok { input := "doc.tx" } ∧
    ((Machine.ofFile "doc.tx" ⟨#[0xff]⟩ 1).exec (run ["doc.tx"] [])).1 = .error .undecodable ∧
    ((Machine.ofFile "textecca.toml" ⟨#[0xff]⟩ 1).exec (run ["doc.tx"] [])).1 =
      .error .undecodable ∧
    Request.parse ["doc.tx", "-o", "no/page.html"] =
      .ok { input := "doc.tx", output := some "no/page.html" } ∧
    ((Machine.ofFile "doc.tx" ⟨#[]⟩ 1).exec (run ["doc.tx", "-o", "no/page.html"] [])).1 =
      .error (.file ⟨.missing, .ofString "no/page.html"⟩) := by
  decide +kernel

/-- A stack that runs out inside a call makes an error of the call.  One that runs out around all
calls, or for writing the page, breaks off the run. -/
example :
    let s := Machine.ofFile "doc.tx" "\\emph\x7b\\emph\x7bx\x7d\x7d".toUTF8 1
    (s.exec (run ["doc.tx"] [] { enters := fun depth _ => depth < 1 })).1 = .ok .failure ∧
    (s.exec (run ["doc.tx"] [] { enters := fun _ _ => false })).1 = .error (.overflow .stack) ∧
    (s.exec (run ["doc.tx"] [] { writes := fun _ => false })).1 = .error (.overflow .stack) := by
  decide +kernel

end runs

end Markup.Cli
