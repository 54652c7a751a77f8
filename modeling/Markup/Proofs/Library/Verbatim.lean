import Markup.Proofs.Library.ListText

/-! # Commands that take their argument as it is

Code and formulas, in the line or on lines of their own, take their argument as it is written
(`VerbatimForm`).  Such a command with balanced text in its braces is read to one call with one
argument (`readMarkup_command`), and evaluation gives exactly that text, whatever commands, newlines
or backslashes it holds.

The one exception is text with an equals sign before any other character that settles the form of an
argument: it is a keyword and its value, and then the argument is missing.  The main statement is
`evaluateStandard_verbatim`. -/

namespace Markup

open Text

/-! ### The commands -/

/-- The commands that take their argument as it is: code and formulas, in the line or on lines of
their own. -/
inductive VerbatimForm where
  | code (block : Bool)
  | math (display : Bool)
deriving DecidableEq

namespace VerbatimForm

/-- The command. -/
def command : VerbatimForm → Definition Builtin
  | code false => ⟨"code", .code false, .literal⟩
  | code true => ⟨"codeblock", .code true, .literal⟩
  | math false => ⟨"math", .math false, .literal⟩
  | math true => ⟨"displaymath", .math true, .literal⟩

/-- The name of the argument, for errors. -/
def argument : VerbatimForm → String
  | code _ => "content"
  | math _ => "tex"

/-- What becomes of a text. -/
def content (s : String) : VerbatimForm → List Block
  | code false => [.par [.code s none]]
  | code true => [.codeBlock none [.text s]]
  | math false => [.par [.math s]]
  | math true => [.mathBlock s]

/-- The command with a text in its braces. -/
def text (s : String) (form : VerbatimForm) : String :=
  "\\" ++ form.command.name ++ bracedText s

end VerbatimForm

/-- The first of the characters that settle the form of an argument is an equals sign. -/
def EqualsFirst (s : String) : Prop :=
  s.toList.find? (fun c => ['\\', '{', '}', '$', '='].contains c) = some '='

instance (s : String) : Decidable (EqualsFirst s) := inferInstanceAs (Decidable (_ = _))

theorem splitKeyword_eq_none_iff {s : String} :
    splitKeyword s.toList = none ↔ ¬ EqualsFirst s := by
  have hfirst : s.toList.find? (fun c => ['\\', '{', '}', '$', '='].contains c) =
      (s.toList.dropWhile (!isKeywordStop ·)).head? := by
    rw [List.find?_eq_head?_dropWhile_not]
    rfl
  unfold EqualsFirst splitKeyword
  rw [hfirst]
  cases s.toList.dropWhile (!isKeywordStop ·) with
  | nil => simp
  | cons c rest => by_cases hc : c = '=' <;> simp [hc]

/-! ### A command alone -/

/-- A source of one command with one argument is read to one call. -/
theorem readMarkup_command {source : Source} {name s : String}
    (htext : source.text = "\\" ++ name ++ bracedText s) (hs : Balanced s.toList)
    (hname : ∃ c more, name.toList = c :: more ∧ isNameStart c ∧ more.all isNameContinue) :
    ∃ c a, readMarkup source source.span = .ok [.call c] ∧ c.name = ⟨1, 1, name⟩ ∧ c.args = [a] ∧
      a.wording = RawArgument.wording ⟨[], s.toList⟩ := by
  have hchars : source.span.fragment.toList = '\\' :: name.toList ++
      ([(⟨[], s.toList⟩ : RawArgument)].flatMap RawArgument.chars ++ []) := by
    simp [Source.span, htext, bracedText_toList]
  have hscan : scanRegion source.span.fragment.toList =
      ⟨[.call name.toList [⟨[], s.toList⟩]], none⟩ := by
    have hvalid : ∀ a ∈ [(⟨[], s.toList⟩ : RawArgument)], a.Valid := by
      intro a ha
      rw [List.mem_singleton.mp ha]
      exact ⟨rfl, hs⟩
    have hbrace : isNameContinue '{' = false := by decide +kernel
    rw [hchars, scanRegion_command hname hvalid ?_ ?_]
    · rw [scanRegion]
      rfl
    · intro c hc
      obtain rfl := Option.some.inj hc
      exact hbrace
    · intro c hc
      cases hc
  have hread : readMarkup source source.span =
      .ok [.call ((Reader.ofRegion source.span).call name.toList [⟨[], s.toList⟩]).1] :=
    readMarkup_eq_ok_iff.mpr (by rw [hscan]; exact ⟨rfl, rfl⟩)
  have hword := readMarkup_wording hread
  rw [hscan] at hword
  obtain ⟨-, hargs⟩ := Wording.call.inj (List.cons.inj hword).1
  obtain ⟨a, ha, hwording⟩ := List.map_eq_singleton_iff.mp hargs
  refine ⟨_, a, hread, ?_, ha, hwording⟩
  -- The name starts behind the backslash, and so on the first line.
  have hbehind : (source.span.fragment.toList.drop 1).take (0 + 1 + name.toList.length - (0 + 1)) =
      name.toList := by
    rw [hchars]
    simp
  have hline : (source.span.fragment.toList.take 1).count '\n' = 0 := by
    rw [hchars]
    rfl
  calc ((Reader.ofRegion source.span).call name.toList [⟨[], s.toList⟩]).1.name
      = (((Reader.ofRegion source.span).skip (name.toList.length + 1)).span (0 + 1)
          (0 + 1 + name.toList.length : Nat)).1 := rfl
    _ = ⟨1, 1 + ((source.span.fragment.toList.take 1).count '\n' : Nat), String.ofList
          ((source.span.fragment.toList.drop 1).take (0 + 1 + name.toList.length - (0 + 1)))⟩ := by
        rw [Reader.span, slice_natCast]
        rfl
    _ = ⟨1, 1, name⟩ := by rw [hbehind, hline, String.ofList_toList]; rfl

/-- What a source of one call comes to: the error where the call is not found, and else what the
body of the command leaves behind. -/
theorem evaluateStandard_call {source : Source} {c : Call} {maxDepth : Int}
    (hread : readMarkup source source.span = .ok [.call c]) (hroom : 1 ≤ maxDepth) :
    ∃ run : Invocation Builtin → Runner, (evaluateStandard source maxDepth).1 =
      match (standardWorld source maxDepth).found Builtin.library c with
      | .error f => .error f.toError
      | .ok (_, i) =>
          ((ExceptT.adapt ((standardWorld source maxDepth).settle c) (i.body (run i)) >>= fun _ =>
            ExceptT.adapt Failure.atEnd (Eval.ofBuild Build.intoDocument))
              ⟨{}, (standardWorld source maxDepth).tells c⟩).1.mapError Failure.toError := by
  obtain ⟨levels, hlevels⟩ : ∃ levels, (maxDepth - 0).toNat = levels + 1 :=
    ⟨(maxDepth - 0).toNat - 1, by omega⟩
  have hcall : (standardWorld source maxDepth).call {} Builtin.library c {} =
      World.callWithin {} Builtin.library (maxDepth - 0).toNat (standardWorld source maxDepth)
        c {} :=
    rfl
  refine ⟨fun i => runPieces (World.callWithin {} Builtin.library levels
    ((standardWorld source maxDepth).inner i.locals)), ?_⟩
  rw [evaluateStandard_eq hread, evaluatePieces, bind_run, World.run, runPieces_cons, bind_run,
    runPiece, hcall, hlevels, World.callWithin_succ, World.callBody_run]
  cases (standardWorld source maxDepth).found Builtin.library c with
  | error f => rfl
  | ok found =>
      obtain ⟨d, i⟩ := found
      dsimp only
      rw [bind_run, List.nil_append]
      rcases ExceptT.adapt ((standardWorld source maxDepth).settle c) (i.body _) _ with
        ⟨f | u, after⟩ <;> rfl

theorem string_text (value : Span) :
    (Deferred.ofPieces [.text value]).string = pure value.fragment := by
  have hinto : (Deferred.ofPieces [.text value]).intoString.1 = .ok value.fragment := by
    change Except.ok (value.fragment ++ "") = _
    rw [String.append_empty]
  rw [Deferred.string, hinto]
  rfl

namespace VerbatimForm

section alone

variable {form : VerbatimForm} {source : Source} {maxDepth : Int} {c : Call} {value : Span}

theorem exists_name (form : VerbatimForm) : ∃ c more, form.command.name.toList = c :: more ∧
    isNameStart c ∧ more.all isNameContinue := by
  rcases form with (_ | _) | (_ | _)
  · exact ⟨'c', "ode".toList, by decide, by decide +kernel, by decide +kernel⟩
  · exact ⟨'c', "odeblock".toList, by decide, by decide +kernel, by decide +kernel⟩
  · exact ⟨'m', "ath".toList, by decide, by decide +kernel, by decide +kernel⟩
  · exact ⟨'d', "isplaymath".toList, by decide, by decide +kernel, by decide +kernel⟩

theorem find?_command (hname : c.name.fragment = form.command.name) :
    (standardWorld source maxDepth).scope.find? c.name.fragment = some form.command := by
  rw [hname]
  rcases form with (_ | _) | (_ | _) <;> rfl

theorem mode_command (form : VerbatimForm) : form.command.mode = .literal := by
  rcases form with (_ | _) | (_ | _) <;> rfl

/-- What a text is pushed as. -/
def push (s : String) : VerbatimForm → Eval Unit
  | code false => Eval.pushInline (.code s none)
  | code true => Eval.pushBlock (.codeBlock none [.text s])
  | math false => Eval.pushInline (.math s)
  | math true => Eval.pushBlock (.mathBlock s)

theorem exists_bind (form : VerbatimForm) (value : Span) : ∃ i rest,
    Builtin.library.invoke form.command.kind ⟨[.ofPieces [.text value]], []⟩ = .ok (i, rest) ∧
      ∀ run, i.body run = form.push value.fragment := by
  rw [Builtin.library_invoke]
  rcases form with (_ | _) | (_ | _)
  all_goals
    refine ⟨_, _, rfl, fun run => ?_⟩
    dsimp only
    rw [string_text, pure_bind]
    rfl

/-- Given text, the command makes that of it. -/
theorem evaluateStandard_eq_ok (hroom : 1 ≤ maxDepth)
    (hread : readMarkup source source.span = .ok [.call c])
    (hname : c.name.fragment = form.command.name) (hargs : c.args = [⟨none, value⟩]) :
    (evaluateStandard source maxDepth).1 = .ok ⟨[], form.content value.fragment⟩ := by
  have hbody : Args.read form.command.mode (standardWorld source maxDepth).source c.args =
      .ok ⟨[.ofPieces [.text value]], []⟩ := by
    rw [hargs, form.mode_command]
    rfl
  obtain ⟨i, rest, hbind, hrun⟩ := form.exists_bind value
  obtain ⟨run, heval⟩ := evaluateStandard_call hread hroom
  rw [heval, World.found_eq_ok (find?_command hname) hbody hbind]
  dsimp only
  rw [hrun]
  rcases form with (_ | _) | (_ | _) <;> rfl

/-- A keyword is no text for it. -/
theorem evaluateStandard_eq_missing {key : Span} (hroom : 1 ≤ maxDepth)
    (hread : readMarkup source source.span = .ok [.call c])
    (hname : c.name.fragment = form.command.name) (hargs : c.args = [⟨some key, value⟩]) :
    (evaluateStandard source maxDepth).1 = .error (.command
      ⟨.arguments (.missingPositional form.argument), some c.name, some source.text⟩) := by
  have hbody : Args.read form.command.mode (standardWorld source maxDepth).source c.args =
      .ok ⟨[], [(key.fragment, .ofPieces [.text value])]⟩ := by
    rw [hargs, form.mode_command]
    rfl
  have hbind : Builtin.library.invoke form.command.kind
      ⟨[], [(key.fragment, .ofPieces [.text value])]⟩ =
        .error (.missingPositional form.argument) := by
    rw [Builtin.library_invoke]
    rcases form with (_ | _) | (_ | _) <;> rfl
  obtain ⟨run, heval⟩ := evaluateStandard_call hread hroom
  rw [heval, World.found_eq, find?_command hname]
  dsimp only
  rw [hbody]
  dsimp only
  rw [hbind]
  rfl

end alone

end VerbatimForm

/-- **Code and formulas are verbatim.**  A source that is one of these commands with balanced text
in its braces is evaluated to a document of that text, as it is.  Where an equals sign is the first
of the characters that settle the form of an argument, the braces hold a keyword and its value, and
the error at the name of the command is that the text is missing. -/
theorem evaluateStandard_verbatim (form : VerbatimForm) {s : String} (hs : Balanced s.toList)
    {source : Source} (htext : source.text = form.text s) {maxDepth : Int} (hroom : 1 ≤ maxDepth) :
    (evaluateStandard source maxDepth).1 =
      if EqualsFirst s then .error (.command ⟨.arguments (.missingPositional form.argument),
        some ⟨1, 1, form.command.name⟩, some source.text⟩)
      else .ok ⟨[], form.content s⟩ := by
  obtain ⟨c, ⟨name, value⟩, hread, hname, hargs, hwording⟩ :=
    readMarkup_command htext hs form.exists_name
  have hfragment : c.name.fragment = form.command.name := by rw [hname]
  rw [RawArgument.wording] at hwording
  split
  · next hequals =>
    cases hsplit : splitKeyword s.toList with
    | none => exact (splitKeyword_eq_none_iff.mp hsplit hequals).elim
    | some parts =>
        rw [hsplit] at hwording
        obtain ⟨key, rfl, -⟩ := Option.map_eq_some_iff.mp (Prod.mk.inj hwording).1
        rw [VerbatimForm.evaluateStandard_eq_missing hroom hread hfragment hargs, hname]
  · next hequals =>
    rw [splitKeyword_eq_none_iff.mpr hequals] at hwording
    obtain ⟨hnone, hvalue⟩ := Prod.mk.inj hwording
    obtain rfl : name = none := Option.map_eq_none_iff.mp hnone
    rw [VerbatimForm.evaluateStandard_eq_ok hroom hread hfragment hargs, hvalue,
      String.ofList_toList]

/-- Blank lines, a command, a shielded brace, and an equals sign behind the braces. -/
def verbatimSample : String := " \r\n\n\\emph\x7ba\x7d\\\x7d = "

/-- The sample as a formula on lines of its own. -/
def verbatimSource : Source where
  text := VerbatimForm.text verbatimSample (.math true)

theorem evaluateStandard_verbatim_sample :
    Balanced verbatimSample.toList ∧
    (evaluateStandard verbatimSource 1).1 = .ok ⟨[], [.mathBlock verbatimSample]⟩ := by
  have htaken : takeBalanced 0 (verbatimSample.toList ++ ['}']) =
      some (verbatimSample.toList, []) := by decide +kernel
  have hbalanced : Balanced verbatimSample.toList := (takeBalanced_eq_some_iff.mp htaken).1
  have htext : verbatimSource.text = VerbatimForm.text verbatimSample (.math true) := rfl
  have hroom : (1 : Int) ≤ 1 := le_rfl
  have hform : ¬ EqualsFirst verbatimSample := by decide
  have hverbatim := evaluateStandard_verbatim (.math true) hbalanced htext hroom
  rw [if_neg hform] at hverbatim
  exact ⟨hbalanced, hverbatim⟩

end Markup
