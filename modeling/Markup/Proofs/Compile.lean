import Markup.Compile
import Markup.Proofs.Eval.Room
import Markup.Proofs.Html.Nesting
import Markup.Proofs.Library.Evaluation
import Markup.Proofs.Token.LineStep

/-! # How compilation ends

Compiling a text gives HTML, or an error of the indentation, of the syntax or of a command, which
names a place in the text (`compile_closed`).  There is one exception: when all has been
evaluated, and the text that is left over at the end finds no place since it follows a list of
terms without any term, no call can be blamed, and the error has no place (`FinalDrainFails`).

Writing never fails, since evaluation makes standard blocks only, and those can be written
(`exists_flow_render`).

So it is where there is room for everything (`compile_ne_overflow`).  An interpreter whose stack runs
out inside a call makes an error of that call; but it may run out around all calls as well, and then
compilation ends in neither of these ways (`StackFails`). -/

namespace Markup

open Text

/-! ### Indentation -/

variable {seg : Segmenter}

theorem lexLine_error {s : LexState} {l : Line} {e : LexStop} (h : lexLine seg s l = .error e) :
    ∃ n : Nat, e.span.offset = n ∧ n ≤ s.offset + l.chars.length := by
  have hchars : l.content.length ≤ l.chars.length := by
    rw [Line.chars, List.length_append]
    omega
  unfold lexLine at h
  dsimp only at h
  split at h
  · cases h
  · split at h
    · split at h <;> cases h
    · split at h
      · cases h
      · cases h
        refine ⟨_, rfl, ?_⟩
        omega

/-- A refused line is refused at a place in the lines that are read. -/
theorem lexLines_error : ∀ {ls : List Line} {s : LexState} {e : LexStop},
    lexLines seg s ls = .error e →
      ∃ n : Nat, e.span.offset = n ∧ n ≤ s.offset + (ls.flatMap Line.chars).length
  | l :: ls, s, e, h => by
      rw [List.flatMap_cons, List.length_append]
      rcases lexLine_or_of_lexLines_cons h with hline | ⟨here, s', hline, hrest⟩
      · obtain ⟨n, hn, hle⟩ := lexLine_error hline
        exact ⟨n, hn, by omega⟩
      · have hoffset : s'.offset = s.offset + l.chars.length := by
          rw [(lineStep_of_lexLine hline).2]
          rfl
        obtain ⟨n, hn, hle⟩ := lexLines_error hrest
        exact ⟨n, hn, by omega⟩

theorem lex_error_inText {text : String} {e : LexError} (h : lex text seg = .error e) :
    e.span.InText text.toList ∧ e.source = text := by
  unfold lex lexChars at h
  cases hlines : lexLines seg {} (linesOf text.toList) with
  | ok tokens =>
      rw [hlines] at h
      cases h
  | error stop =>
      rw [hlines] at h
      cases h
      obtain ⟨n, hn, hle⟩ := lexLines_error hlines
      rw [flatMap_chars_linesOf] at hle
      refine ⟨?_, rfl⟩
      simp only [Span.InText, hn]
      dsimp only at hle
      omega

/-! ### Errors -/

/-- An error of the indentation, of the syntax or of a command that names a place in the text; no
argument was used twice. -/
def Error.Located (text : String) : Error → Prop
  | .lex e => e.span.InText text.toList ∧ e.source = text
  | .parse e => e.span.InText text.toList ∧ e.source = text
  | .command e => e.Placed text
  | .arguments _ | .build _ | .render _ | .unpushable _ | .overflow _ | .other _ => False

/-- The error of a text that is left over at the end, behind a list of terms without any. -/
def Error.leftOver : Error := .command ⟨.build .emptyTermList, none, none⟩

/-- The source is read to these pieces. -/
def Source.Reads (source : Source) (pieces : List Piece) : Prop :=
  (∃ tokens, lex source.text = .ok tokens) ∧ readMarkup source source.span = .ok pieces

/-- The source is read and evaluated, and only then the last run finds no place. -/
def FinalDrainFails (source : Source) (maxDepth : Int) (interpreter : Interpreter := {}) : Prop :=
  ∃ pieces s, source.Reads pieces ∧
    (standardWorld source maxDepth).run interpreter Builtin.library pieces {} = (.ok (), s) ∧
    interpreter.finishes s.builder = true ∧ (Build.drain s).1 = .error (.build .emptyTermList)

/-- The stack runs out where no call is around: for looking up a call that all before it leads to,
for finishing the document that all has been evaluated to, or for writing it. -/
inductive StackFails (source : Source) (maxDepth : Int) (interpreter : Interpreter) : Prop
  | enter (before : List Piece) (c : Call) (after : List Piece) (s : Session)
      (hread : source.Reads (before ++ .call c :: after))
      (hbefore : (standardWorld source maxDepth).run interpreter Builtin.library before {} =
        (.ok (), s))
      (hdepth : 0 < maxDepth) (hroom : interpreter.enters 0 c = false)
  | finish (pieces : List Piece) (s : Session) (hread : source.Reads pieces)
      (hrun : (standardWorld source maxDepth).run interpreter Builtin.library pieces {} =
        (.ok (), s))
      (hroom : interpreter.finishes s.builder = false)
  | write (pieces : List Piece) (d : Document) (hread : source.Reads pieces)
      (heval : (evaluateStandard source maxDepth interpreter).1 = .ok d)
      (hroom : interpreter.writes d = false)

theorem Error.leftOver_not_located (text : String) : ¬ Error.leftOver.Located text := by
  rintro ⟨-, ⟨_, hspan, -⟩, -⟩
  cases hspan

/-! ### Evaluation -/

section evaluation

variable {source : Source} {maxDepth : Int} {interpreter : Interpreter} {pieces : List Piece}
  {s : Session}

/-- A failure while pieces are evaluated is that of the whole. -/
theorem evaluateStandard_of_run_error {f : Failure}
    (hread : readMarkup source source.span = .ok pieces)
    (hrun : (standardWorld source maxDepth).run interpreter Builtin.library pieces {} =
      (.error f, s)) :
    (evaluateStandard source maxDepth interpreter).1 = .error f.toError := by
  rw [evaluateStandard_eq hread, evaluatePieces, bind_run, hrun]
  rfl

theorem evaluateStandard_of_no_room (hread : readMarkup source source.span = .ok pieces)
    (hrun : (standardWorld source maxDepth).run interpreter Builtin.library pieces {} =
      (.ok (), s)) (hroom : interpreter.finishes s.builder = false) :
    (evaluateStandard source maxDepth interpreter).1 = .error (.overflow .stack) := by
  rw [evaluateStandard_eq hread, evaluatePieces, bind_run, hrun]
  dsimp only
  rw [interpreter.finish_run, hroom]
  rfl

/-- Once all pieces are evaluated, the last run is drained. -/
theorem evaluateStandard_of_run_ok (hread : readMarkup source source.span = .ok pieces)
    (hrun : (standardWorld source maxDepth).run interpreter Builtin.library pieces {} =
      (.ok (), s)) (hroom : interpreter.finishes s.builder = true) :
    (evaluateStandard source maxDepth interpreter).1 = match Build.drain s with
      | (.ok _, s') => .ok ⟨s'.builder.metadata, s'.builder.blocks⟩
      | (.error f, _) => .error (Failure.ofBuild f).atEnd.toError := by
  rw [evaluateStandard_eq hread, evaluatePieces, bind_run, hrun]
  dsimp only
  rw [interpreter.finish_run, hroom, if_pos rfl, adapt_run, Eval.ofBuild, adapt_run,
    Build.intoDocument, bind_run, Build.intoBlocks, bind_run]
  rcases Build.drain s with ⟨f | _, s'⟩ <;> rfl

/-- The last drain leaves blocks that can be written, or fails for the one reason there is. -/
theorem drain_of_run_ok (hpieces : ∀ p ∈ pieces, p.StandsIn source.text.toList)
    (hrun : (standardWorld source maxDepth).run interpreter Builtin.library pieces {} =
      (.ok (), s)) :
    Ensures Build.drain s (fun _ s' => blocksMadeOf Writable s'.builder.blocks)
      (· = .build .emptyTermList) := by
  have hempty : Builder.MadeOf Standard {} := ⟨trivial, trivial⟩
  have hstandard : s.builder.MadeOf Standard :=
    (((run_yields standardScope_standard hpieces) {} hempty).of_eq_ok hrun).1
  refine (drain_ensures_standard hstandard).mono (fun _ s' => ?_) fun _ he => he
  rintro ⟨hmade, -, -⟩
  exact blocksMadeOf_mono Standard.writable _ hmade.1

end evaluation

/-! ### The whole -/

theorem Interpreter.write_default (options : Html.Options) (d : Document) :
    Interpreter.write {} options d = (Html.render options d).mapError .render := rfl

theorem compile_of_lex {source : Source} {tokens : List Token} (hlex : lex source.text = .ok tokens)
    (options : Html.Options) (maxDepth : Int) (interpreter : Interpreter) :
    (compile source options maxDepth interpreter).1 =
      (evaluateStandard source maxDepth interpreter).1.bind (interpreter.write options) := by
  unfold compile
  rw [hlex]

/-- An outcome is HTML, an error that names a place in the text, the error of what is left over, or
that the interpreter ran out of room; the error of what is left over exactly if the final drain
fails, the stack exactly if it runs out around all calls, and digits only for a limit that cannot be
printed. -/
structure Closed (source : Source) (maxDepth : Int) (interpreter : Interpreter)
    (outcome : Except Error String) : Prop where
  ends : (∃ html, outcome = .ok html) ∨ (∃ e, outcome = .error e ∧ e.Located source.text) ∨
    outcome = .error .leftOver ∨ ∃ resource, outcome = .error (.overflow resource)
  leftOver : outcome = .error .leftOver ↔ FinalDrainFails source maxDepth interpreter
  stack : outcome = .error (.overflow .stack) ↔ StackFails source maxDepth interpreter
  digits : outcome = .error (.overflow .digits) → interpreter.prints maxDepth = false

section closed

variable {source : Source} {maxDepth : Int} {interpreter : Interpreter}

theorem Source.Reads.unique {pieces pieces' : List Piece} (h : source.Reads pieces)
    (h' : source.Reads pieces') : pieces = pieces' :=
  Except.ok.inj (h.2.symm.trans h'.2)

theorem Closed.of_located {e : Error} (he : e.Located source.text)
    (hdrain : ¬ FinalDrainFails source maxDepth interpreter)
    (hstack : ¬ StackFails source maxDepth interpreter) :
    Closed source maxDepth interpreter (.error e) := by
  refine ⟨.inr (.inl ⟨e, rfl, he⟩), iff_of_false ?_ hdrain, iff_of_false ?_ hstack, ?_⟩ <;>
    intro h <;> cases h
  · exact Error.leftOver_not_located source.text he
  · exact he
  · exact he.elim

theorem Closed.of_html (html : String) (hdrain : ¬ FinalDrainFails source maxDepth interpreter)
    (hstack : ¬ StackFails source maxDepth interpreter) :
    Closed source maxDepth interpreter (.ok html) :=
  ⟨.inl ⟨html, rfl⟩, iff_of_false nofun hdrain, iff_of_false nofun hstack, nofun⟩

theorem Closed.of_leftOver (hdrain : FinalDrainFails source maxDepth interpreter)
    (hstack : ¬ StackFails source maxDepth interpreter) :
    Closed source maxDepth interpreter (.error .leftOver) :=
  ⟨.inr (.inr (.inl rfl)), iff_of_true rfl hdrain, iff_of_false nofun hstack, nofun⟩

theorem Closed.of_stack (hdrain : ¬ FinalDrainFails source maxDepth interpreter)
    (hstack : StackFails source maxDepth interpreter) :
    Closed source maxDepth interpreter (.error (.overflow .stack)) :=
  ⟨.inr (.inr (.inr ⟨_, rfl⟩)), iff_of_false nofun hdrain, iff_of_true rfl hstack, nofun⟩

theorem Closed.of_digits (hprints : interpreter.prints maxDepth = false)
    (hdrain : ¬ FinalDrainFails source maxDepth interpreter)
    (hstack : ¬ StackFails source maxDepth interpreter) :
    Closed source maxDepth interpreter (.error (.overflow .digits)) :=
  ⟨.inr (.inr (.inr ⟨_, rfl⟩)), iff_of_false nofun hdrain, iff_of_false nofun hstack,
    fun _ => hprints⟩

/-- A source that cannot be read, for an error with a place. -/
theorem Closed.of_unread {e : Error} (he : e.Located source.text)
    (hunread : ∀ pieces, ¬ source.Reads pieces) :
    Closed source maxDepth interpreter (.error e) := by
  refine .of_located he ?_ ?_
  · rintro ⟨pieces, _, hread, -⟩
    exact hunread pieces hread
  · rintro (⟨_, _, _, _, hread, -⟩ | ⟨_, _, hread, -⟩ | ⟨_, _, hread, -⟩) <;> exact hunread _ hread

/-- What comes of a source that can be read, by what comes of its pieces. -/
theorem stackFails_iff {pieces : List Piece} (hread : source.Reads pieces) :
    StackFails source maxDepth interpreter ↔
      (∃ s, (standardWorld source maxDepth).run interpreter Builtin.library pieces {} =
        (.error (.overflow .stack), s)) ∨
      (∃ s, (standardWorld source maxDepth).run interpreter Builtin.library pieces {} =
        (.ok (), s) ∧ interpreter.finishes s.builder = false) ∨
      ∃ d, (evaluateStandard source maxDepth interpreter).1 = .ok d ∧
        interpreter.writes d = false := by
  rw [World.run_stack_iff]
  constructor
  · rintro (⟨before, c, after, s, hread', hbefore, hdepth, hroom⟩ |
        ⟨pieces', s, hread', hrun, hroom⟩
      | ⟨pieces', d, hread', heval, hroom⟩)
    · exact .inl ⟨before, c, after, s, hread.unique hread', hbefore, hdepth, hroom⟩
    · rw [← hread.unique hread'] at hrun
      exact .inr (.inl ⟨s, hrun, hroom⟩)
    · exact .inr (.inr ⟨d, heval, hroom⟩)
  · rintro (⟨before, c, after, s, rfl, hbefore, hdepth, hroom⟩ | ⟨s, hrun, hroom⟩ |
      ⟨d, heval, hroom⟩)
    · exact .enter before c after s hread hbefore hdepth hroom
    · exact .finish pieces s hread hrun hroom
    · exact .write pieces d hread heval hroom

theorem finalDrainFails_iff {pieces : List Piece} (hread : source.Reads pieces) :
    FinalDrainFails source maxDepth interpreter ↔
      ∃ s, (standardWorld source maxDepth).run interpreter Builtin.library pieces {} =
        (.ok (), s) ∧ interpreter.finishes s.builder = true ∧
          (Build.drain s).1 = .error (.build .emptyTermList) := by
  constructor
  · rintro ⟨pieces', s, hread', hrun, hdrain⟩
    rw [← hread.unique hread'] at hrun
    exact ⟨s, hrun, hdrain⟩
  · rintro ⟨s, hrun, hdrain⟩
    exact ⟨pieces, s, hread, hrun, hdrain⟩

section read

variable {pieces : List Piece} (options : Html.Options) (hread : source.Reads pieces)
include hread

/-- A source whose pieces fail. -/
theorem closed_of_run_error {f : Failure} {s : Session}
    (hrun : (standardWorld source maxDepth).run interpreter Builtin.library pieces {} =
      (.error f, s)) : Closed source maxDepth interpreter (.error f.toError) := by
  have hstands := readMarkup_standsIn source source.span_standsIn
  rw [hread.2] at hstands
  have hempty : Builder.MadeOf Standard {} := ⟨trivial, trivial⟩
  have hplaced := (run_yields standardScope_standard hstands {} hempty).of_eq_error hrun
  have hdrain : ¬ FinalDrainFails source maxDepth interpreter := by
    rw [finalDrainFails_iff hread, hrun]
    rintro ⟨s', h, -⟩
    cases h
  have hstack : StackFails source maxDepth interpreter ↔ f = .overflow .stack := by
    rw [stackFails_iff hread, hrun, evaluateStandard_of_run_error hread.2 hrun]
    constructor
    · rintro (⟨s', h⟩ | ⟨s', h, -⟩ | ⟨d, h, -⟩) <;> cases h
      rfl
    · rintro rfl
      exact .inl ⟨s, rfl⟩
  cases f with
  | command e => exact .of_located hplaced hdrain fun h => Failure.noConfusion (hstack.mp h)
  | build e => exact hplaced.elim
  | unpushable kind => exact hplaced.elim
  | overflow resource =>
      cases resource with
      | stack => exact .of_stack hdrain (hstack.mpr rfl)
      | digits => exact .of_digits hplaced hdrain fun h => nomatch hstack.mp h

/-- A source whose pieces are all evaluated, and can be finished. -/
theorem closed_of_run_ok {s : Session}
    (hrun : (standardWorld source maxDepth).run interpreter Builtin.library pieces {} =
      (.ok (), s)) (hroom : interpreter.finishes s.builder = true) :
    Closed source maxDepth interpreter
      ((evaluateStandard source maxDepth interpreter).1.bind (interpreter.write options)) := by
  have hstands := readMarkup_standsIn source source.span_standsIn
  rw [hread.2] at hstands
  have hdrained := drain_of_run_ok hstands hrun
  have hdrain : FinalDrainFails source maxDepth interpreter ↔
      (Build.drain s).1 = .error (.build .emptyTermList) := by
    rw [finalDrainFails_iff hread, hrun]
    constructor
    · rintro ⟨s', h, -, hfails⟩
      cases h
      exact hfails
    · exact fun hfails => ⟨s, rfl, hroom, hfails⟩
  have hstack : StackFails source maxDepth interpreter ↔
      ∃ d, (evaluateStandard source maxDepth interpreter).1 = .ok d ∧
        interpreter.writes d = false := by
    rw [stackFails_iff hread, hrun]
    constructor
    · rintro (⟨s', h⟩ | ⟨s', h, hfull⟩ | h)
      · cases h
      · cases h
        exact Bool.noConfusion (hroom.symm.trans hfull)
      · exact h
    · exact fun h => .inr (.inr h)
  rw [evaluateStandard_of_run_ok hread.2 hrun hroom] at hstack ⊢
  rcases hstep : Build.drain s with ⟨f | _, s'⟩
  · cases hdrained.of_eq_error hstep
    rw [hstep] at hdrain hstack
    refine .of_leftOver (hdrain.mpr rfl) fun h => ?_
    obtain ⟨d, hd, -⟩ := hstack.mp h
    cases hd
  · rw [hstep] at hdrain hstack
    have hwell : Document.WellFormed ⟨s'.builder.metadata, s'.builder.blocks⟩ :=
      hdrained.of_eq_ok hstep
    obtain ⟨html, hrender, -⟩ := Html.exists_flow_render options hwell
    have hnone : ¬ FinalDrainFails source maxDepth interpreter := fun h => nomatch hdrain.mp h
    dsimp only at hstack ⊢
    rw [Except.bind, Interpreter.write, hrender]
    cases hwrites : interpreter.writes ⟨s'.builder.metadata, s'.builder.blocks⟩ with
    | false => exact .of_stack hnone (hstack.mpr ⟨_, rfl, hwrites⟩)
    | true =>
        refine .of_html html hnone fun h => ?_
        obtain ⟨d, hd, hfull⟩ := hstack.mp h
        cases hd
        exact Bool.noConfusion (hwrites.symm.trans hfull)

/-- A source that can be read is compiled to the end, or fails while it is evaluated. -/
theorem closed_of_read : Closed source maxDepth interpreter
    ((evaluateStandard source maxDepth interpreter).1.bind (interpreter.write options)) := by
  rcases hrun : (standardWorld source maxDepth).run interpreter Builtin.library pieces {} with
    ⟨f | _, s⟩
  · rw [evaluateStandard_of_run_error hread.2 hrun]
    exact closed_of_run_error hread hrun
  · cases hroom : interpreter.finishes s.builder with
    | true => exact closed_of_run_ok options hread hrun hroom
    | false =>
        rw [evaluateStandard_of_no_room hread.2 hrun hroom]
        refine .of_stack ?_ (.finish pieces s hread hrun hroom)
        rw [finalDrainFails_iff hread, hrun]
        rintro ⟨s', h, hfinishes, -⟩
        cases h
        exact Bool.noConfusion (hroom.symm.trans hfinishes)

end read

theorem closed_compile (source : Source) (options : Html.Options) (maxDepth : Int)
    (interpreter : Interpreter) :
    Closed source maxDepth interpreter (compile source options maxDepth interpreter).1 := by
  have hstands := readMarkup_standsIn source source.span_standsIn
  cases hlex : lex source.text with
  | error e =>
      unfold compile
      rw [hlex]
      refine .of_unread (lex_error_inText hlex) ?_
      rintro pieces ⟨⟨tokens, htokens⟩, -⟩
      rw [hlex] at htokens
      cases htokens
  | ok tokens =>
      rw [compile_of_lex hlex]
      cases hread : readMarkup source source.span with
      | error e =>
          rw [hread] at hstands
          rw [evaluateStandard_eq_of_error hread]
          refine .of_unread ⟨hstands.1.inText, hstands.2⟩ ?_
          rintro pieces ⟨-, hpieces⟩
          rw [hread] at hpieces
          cases hpieces
      | ok pieces => exact closed_of_read options ⟨⟨tokens, hlex⟩, hread⟩

/-- Where there is room for everything, nothing fails for want of it. -/
theorem compile_ne_overflow (source : Source) (options : Html.Options) (maxDepth : Int)
    (resource : Resource) : (compile source options maxDepth).1 ≠ .error (.overflow resource) := by
  have hall := closed_compile source options maxDepth {}
  intro h
  cases resource with
  | stack =>
      rcases hall.stack.mp h with ⟨_, _, _, _, _, _, _, hroom⟩ | ⟨_, _, _, _, hroom⟩ |
        ⟨_, _, _, _, hroom⟩ <;> cases hroom
  | digits => cases hall.digits h

end closed

example : (compile { text := "\\terms\x7b\x7dx" } {} defaultMaxDepth).1 = .error .leftOver := by
  decide +kernel

end Markup
