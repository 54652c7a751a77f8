import Markup.Cli.Program
import Markup.Proofs.Cli.Files
import Markup.Proofs.Compile.Outcome

/-! # Runs on a machine

What a run does on a host that is a value (`Machine.exec`).  It compiles its input with one of six
outcomes (`Compiles`, `exists_compiles`), and ends as the outcome has it (`exec_runOnce`); a watch
tells a line of it or breaks off (`exec_recompile`). -/

namespace Markup

namespace Cli

/-! ### Programs on a machine -/

namespace Machine

/-- What a program returns on a machine, and the machine after it. -/
def exec {α : Type} (s : Machine) (program : StateM Machine α) : α × Machine := program s

/-- The machine after a text was written to its error stream. -/
def say (s : Machine) (text : String) : Machine :=
  { s with streams.err := s.streams.err ++ text }

/-- A machine with one file, of this name, with these bytes and changed at this time. -/
def ofFile (name : String) (bytes : ByteArray) (modified : Int) : Machine where
  disk := { entries := [([name], ⟨.file bytes, modified⟩)] }

section steps

variable {α β : Type} (s : Machine)

theorem exec_bind (x : StateM Machine α) (f : α → StateM Machine β) :
    s.exec (x >>= f) = (s.exec x).2.exec (f (s.exec x).1) := rfl

theorem exec_status (p : Path) : s.exec (Host.status p) = (s.disk.status p, s) := rfl

theorem exec_readFile (p : Path) : s.exec (Host.readFile p) = (s.disk.readFile p, s) := rfl

theorem exec_putErr (text : String) : s.exec (Host.putErr text) = ((), s.say text) := rfl

theorem exec_writeFile (p : Path) (text : String) :
    s.exec (Host.writeFile p text) = match s.disk.writeFile p text with
      | .ok disk => (.ok (), { s with disk })
      | .error e => (.error e, s) := by
  change s.exec (match s.disk.writeFile p text with
    | .ok disk => (do modify (fun s => { s with disk }); pure (Except.ok ()) : StateM Machine _)
    | .error e => pure (Except.error e)) = _
  cases s.disk.writeFile p text <;> rfl

theorem exec_tell (line : String) : s.exec (tell line) = ((), s.say (line ++ "\n")) := rfl

end steps

@[simp] theorem say_disk (s : Machine) (text : String) : (s.say text).disk = s.disk := rfl

@[simp] theorem say_err (s : Machine) (text : String) :
    (s.say text).streams.err = s.streams.err ++ text := rfl

@[simp] theorem say_say (s : Machine) (text more : String) :
    (s.say text).say more = s.say (text ++ more) := by
  simp [say, String.append_assoc]

end Machine

/-! ### One compilation -/

namespace Options

variable (o : Options)

/-- The page of a text. -/
def page (text : String) (interpreter : Interpreter := {}) : Except Error String :=
  (o.compileText text interpreter).html

/-- The machine on which a page has been written where it goes. -/
def publish (html : String) (s : Machine) : Except FileError Machine :=
  match o.output with
  | none => .ok { s with streams.out := s.streams.out ++ html }
  | some path => (s.disk.writeFile path html).map fun disk => { s with disk }

/-- What was told before does not matter to writing a page. -/
theorem publish_say (html text : String) (s : Machine) :
    o.publish html (s.say text) = (o.publish html s).map (Machine.say · text) := by
  unfold publish
  cases o.output with
  | none => rfl
  | some path =>
      dsimp only [Machine.say_disk]
      cases s.disk.writeFile path html <;> rfl

theorem publish_eq_error_iff {html : String} {s : Machine} {e : FileError} :
    o.publish html s = .error e ↔
      ∃ path, o.output = some path ∧ s.disk.writeFile path html = .error e := by
  unfold publish
  cases houtput : o.output with
  | none => exact iff_of_false (fun h => nomatch h) (fun ⟨_, h, _⟩ => nomatch h)
  | some path =>
      dsimp only
      cases hwrite : s.disk.writeFile path html with
      | error e' =>
          constructor
          · intro h
            cases h
            exact ⟨path, rfl, hwrite⟩
          · rintro ⟨path', hpath, herror⟩
            cases hpath
            rw [hwrite] at herror
            cases herror
            rfl
      | ok disk =>
          refine iff_of_false (fun h => nomatch h) ?_
          rintro ⟨path', hpath, herror⟩
          cases hpath
          rw [hwrite] at herror
          cases herror

theorem publish_say_eq_error_iff {html text : String} {s : Machine} {e : FileError} :
    o.publish html (s.say text) = .error e ↔ o.publish html s = .error e := by
  rw [publish_eq_error_iff, publish_eq_error_iff, Machine.say_disk]

/-- The page is what compilation gives, unless the dump of the document is cut off. -/
theorem page_cases (text : String) (interpreter : Interpreter) :
    o.page text interpreter = (compile { text, filename := o.input.text } o.html o.maxDepth
        interpreter.toInterpreter).1 ∨
      o.debug = true ∧ o.page text interpreter = .error (.overflow .stack) ∧
        ¬ Source.Malformed { text, filename := o.input.text } ∧
        ∃ d part, (evaluateStandard { text, filename := o.input.text } o.maxDepth
          interpreter.toInterpreter).1 = .ok d ∧ interpreter.cutDump d = some part := by
  unfold page compileText compile
  dsimp only
  cases hlex : lex text with
  | error e => exact .inl rfl
  | ok tokens =>
      dsimp only
      rcases heval : evaluateStandard { text, filename := o.input.text } o.maxDepth
        interpreter.toInterpreter with ⟨e | d, log⟩
      · exact .inl rfl
      · dsimp only
        cases hdebug : o.debug with
        | false => exact .inl rfl
        | true =>
            cases hcut : interpreter.cutDump d with
            | none => exact .inl rfl
            | some part =>
                refine .inr ⟨rfl, rfl, ?_, d, part, rfl, hcut⟩
                rintro (⟨e, he⟩ | ⟨e, he⟩)
                · rw [hlex] at he
                  cases he
                · have hfst := congrArg Prod.fst heval
                  rw [evaluateStandard_eq_of_error he] at hfst
                  cases hfst

/-- Where there is room for everything, the page is what compilation gives. -/
theorem page_eq_compile (text : String) :
    o.page text = (compile { text, filename := o.input.text } o.html o.maxDepth).1 := by
  rcases o.page_cases text {} with h | ⟨-, -, -, d, part, -, hcut⟩
  · exact h
  · cases hcut

/-- There is no page of a malformed text. -/
theorem page_of_malformed {text : String} (interpreter : Interpreter)
    (h : Source.Malformed { text, filename := o.input.text }) :
    ∃ e, o.page text interpreter = .error e ∧ e.IsMalformed := by
  rcases o.page_cases text interpreter with hpage | ⟨-, -, hwell, -⟩
  · rw [hpage]
    exact compile_of_malformed _ _ _ h
  · exact (hwell h).elim

theorem isMalformed_iff {text : String} {interpreter : Interpreter} {e : Error}
    (h : o.page text interpreter = .error e) :
    e.IsMalformed ↔ Source.Malformed { text, filename := o.input.text } := by
  rcases o.page_cases text interpreter with hpage | ⟨-, hpage, hwell, -⟩
  · rw [hpage] at h
    exact Markup.isMalformed_iff h
  · rw [hpage] at h
    cases h
    exact iff_of_false id hwell

end Options

/-- What becomes of an input: it cannot be read, is not UTF-8, is more than there is room for, or
does not compile; or its page cannot be written, or is. -/
inductive Outcome where
  | unreadable (error : FileError)
  | undecodable
  | broken (resource : Resource)
  | refused (error : Error)
  | unwritable (error : FileError)
  | written

namespace Outcome

/-- How a run ends that compiles its input once. -/
def ending (input : Path) (s : Machine) : Outcome → Except Crash Exit × Machine
  | unreadable e =>
    if e.isOrdinary then (.ok .failure, s.say ((Failure.file e).report input ++ "\n"))
    else (.error (.file e), s)
  | undecodable => (.error .undecodable, s)
  | broken resource => (.error (.overflow resource), s)
  | refused e =>
    (.ok (Failure.document e).exit, s.say ((Failure.document e).report input ++ "\n"))
  | unwritable e => (.error (.file e), s)
  | written => (.ok .success, s)

/-- What is told when a watched input is compiled again, or why the watch breaks off. -/
def line (input : Path) : Outcome → Except Crash String
  | unreadable e | unwritable e =>
    if e.isOrdinary then .ok ((Failure.file e).report input) else .error (.file e)
  | undecodable => .error .undecodable
  | broken resource => .error (.overflow resource)
  | refused e => .ok ((Failure.document e).report input)
  | written => .ok ("Compiled " ++ input.text)

end Outcome

/-- What becomes of the input on a machine, and the machine then; nothing has been reported yet. -/
inductive Compiles (interpreter : Interpreter) (o : Options) (s : Machine) :
    Outcome → Machine → Prop
  | unreadable {e : FileError} (hread : s.disk.readFile o.input = .error e) :
      Compiles interpreter o s (.unreadable e) s
  | undecodable (hread : s.disk.Undecodable o.input) : Compiles interpreter o s .undecodable s
  | broken {text : String} {resource : Resource} (hread : s.disk.Holds o.input text)
      (hpage : o.page text interpreter = .error (.overflow resource)) :
      Compiles interpreter o s (.broken resource) (s.say (o.compileText text interpreter).told)
  | refused {text : String} {e : Error} (hread : s.disk.Holds o.input text)
      (hpage : o.page text interpreter = .error e) (he : ∀ resource, e ≠ .overflow resource) :
      Compiles interpreter o s (.refused e) (s.say (o.compileText text interpreter).told)
  | unwritable {text html : String} {e : FileError} (hread : s.disk.Holds o.input text)
      (hpage : o.page text interpreter = .ok html)
      (hwrite : o.publish html (s.say (o.compileText text interpreter).told) = .error e) :
      Compiles interpreter o s (.unwritable e) (s.say (o.compileText text interpreter).told)
  | written {text html : String} {s' : Machine} (hread : s.disk.Holds o.input text)
      (hpage : o.page text interpreter = .ok html)
      (hwrite : o.publish html (s.say (o.compileText text interpreter).told) = .ok s') :
      Compiles interpreter o s .written s'

section compilation

variable {interpreter : Interpreter} {o : Options} {s s' : Machine} {outcome : Outcome}

theorem exists_compiles (interpreter : Interpreter) (o : Options) (s : Machine) :
    ∃ outcome s', Compiles interpreter o s outcome s' := by
  rcases s.disk.readFile_cases o.input with ⟨e, hread⟩ | hread | ⟨text, hread⟩
  · exact ⟨_, _, .unreadable hread⟩
  · exact ⟨_, _, .undecodable hread⟩
  · cases hpage : o.page text interpreter with
    | error e =>
        by_cases he : ∃ resource, e = .overflow resource
        · obtain ⟨resource, rfl⟩ := he
          exact ⟨_, _, .broken hread hpage⟩
        · exact ⟨_, _, .refused hread hpage fun resource h => he ⟨resource, h⟩⟩
    | ok html =>
        cases hwrite : o.publish html (s.say (o.compileText text interpreter).told) with
        | error e => exact ⟨_, _, .unwritable hread hpage hwrite⟩
        | ok s' => exact ⟨_, _, .written hread hpage hwrite⟩

/-- A machine has one outcome. -/
theorem Compiles.unique {s₁ s₂ : Machine} {outcome₁ outcome₂ : Outcome}
    (h₁ : Compiles interpreter o s outcome₁ s₁) (h₂ : Compiles interpreter o s outcome₂ s₂) :
    outcome₁ = outcome₂ ∧ s₁ = s₂ := by
  cases h₁ <;> cases h₂ <;>
    grind [Disk.Holds.unique, Disk.Holds.not_undecodable, Disk.Holds, Disk.Undecodable]

theorem exec_compileFile_error {e : FileError} (hread : s.disk.readFile o.input = .error e) :
    s.exec (compileFile o interpreter) = (e.toFailure, s) := by
  rw [compileFile, Machine.exec_bind, Machine.exec_readFile, hread]
  rfl

theorem exec_compileFile_undecodable (hread : s.disk.Undecodable o.input) :
    s.exec (compileFile o interpreter) = (.error .undecodable, s) := by
  obtain ⟨bytes, hread, hdecode⟩ := hread
  rw [compileFile, Machine.exec_bind, Machine.exec_readFile, hread]
  dsimp only
  rw [hdecode]
  rfl

theorem exec_compileFile {text : String} (hread : s.disk.Holds o.input text) :
    s.exec (compileFile o interpreter) =
      ((o.compileText text interpreter).outcome, s.say (o.compileText text interpreter).told) := by
  obtain ⟨bytes, hread, hdecode⟩ := hread
  rw [compileFile, Machine.exec_bind, Machine.exec_readFile, hread]
  dsimp only
  rw [hdecode]
  rfl

theorem exec_compileFile_broken {text : String} {resource : Resource}
    (hread : s.disk.Holds o.input text)
    (hpage : o.page text interpreter = .error (.overflow resource)) :
    s.exec (compileFile o interpreter) =
      (.error (.overflow resource), s.say (o.compileText text interpreter).told) := by
  rw [exec_compileFile hread, Product.outcome]
  unfold Options.page at hpage
  rw [hpage]

theorem exec_compileFile_refused {text : String} {e : Error} (hread : s.disk.Holds o.input text)
    (hpage : o.page text interpreter = .error e) (he : ∀ resource, e ≠ .overflow resource) :
    s.exec (compileFile o interpreter) =
      (.ok (.error (.document e)), s.say (o.compileText text interpreter).told) := by
  rw [exec_compileFile hread, Product.outcome]
  unfold Options.page at hpage
  rw [hpage]
  cases e with
  | overflow resource => exact (he resource rfl).elim
  | _ => rfl

theorem exec_compileFile_page {text html : String} (hread : s.disk.Holds o.input text)
    (hpage : o.page text interpreter = .ok html) :
    s.exec (compileFile o interpreter) =
      (.ok (.ok html), s.say (o.compileText text interpreter).told) := by
  rw [exec_compileFile hread, Product.outcome]
  unfold Options.page at hpage
  rw [hpage]

theorem exec_writePage (o : Options) (html : String) (s : Machine) :
    s.exec (writePage o html) = match o.publish html s with
      | .ok s' => (.ok (), s')
      | .error e => (.error e, s) := by
  unfold writePage Options.publish
  cases o.output with
  | none => rfl
  | some path =>
      dsimp only
      rw [Machine.exec_writeFile]
      cases s.disk.writeFile path html <;> rfl

/-- A run that compiles its input once ends as the outcome has it. -/
theorem exec_runOnce (h : Compiles interpreter o s outcome s') :
    s.exec (runOnce o interpreter) = outcome.ending o.input s' := by
  rw [runOnce, Machine.exec_bind]
  cases h with
  | unreadable hread =>
      rw [exec_compileFile_error hread, FileError.toFailure, Outcome.ending]
      split
      · rfl
      · rfl
  | undecodable hread => rw [exec_compileFile_undecodable hread]; rfl
  | broken hread hpage => rw [exec_compileFile_broken hread hpage]; rfl
  | refused hread hpage he => rw [exec_compileFile_refused hread hpage he]; rfl
  | unwritable hread hpage hwrite =>
      rw [exec_compileFile_page hread hpage]
      dsimp only
      rw [Machine.exec_bind, exec_writePage, hwrite]
      rfl
  | written hread hpage hwrite =>
      rw [exec_compileFile_page hread hpage]
      dsimp only
      rw [Machine.exec_bind, exec_writePage, hwrite]
      rfl

/-- A watched input that is compiled again leads to the line of the outcome. -/
theorem exec_recompile (h : Compiles interpreter o s outcome s') :
    s.exec (recompile o interpreter) = (outcome.line o.input, s') := by
  rw [recompile, Machine.exec_bind]
  -- Unlike a run that ends here, a watch reports an output that cannot be written.
  cases h with
  | unreadable hread =>
      rw [exec_compileFile_error hread, FileError.toFailure, Outcome.line]
      cases FileError.isOrdinary _ <;> rfl
  | undecodable hread => rw [exec_compileFile_undecodable hread]; rfl
  | broken hread hpage => rw [exec_compileFile_broken hread hpage]; rfl
  | refused hread hpage he => rw [exec_compileFile_refused hread hpage he]; rfl
  | unwritable hread hpage hwrite =>
      rw [exec_compileFile_page hread hpage]
      dsimp only
      rw [Machine.exec_bind, exec_writePage, hwrite, Outcome.line]
      dsimp only
      split
      · rfl
      · rfl
  | written hread hpage hwrite =>
      rw [exec_compileFile_page hread hpage]
      dsimp only
      rw [Machine.exec_bind, exec_writePage, hwrite]
      rfl

end compilation

end Cli

end Markup
