import Markup.Proofs.Cli.Steps
import Mathlib.Data.List.Infix

/-! # Watching

What a watch should do: at each look compile the input exactly if it is there with a time other than
the last one seen, and tell one line of it (`Look`, `Watches`).  **A watch does so, and ends only
when it is interrupted, exactly if it comes to no look that it misses** (`watch_keepsUp_iff`).  It
misses a look in four ways (`Options.Misses`): the time of the input cannot be told from the one
that counts as seen; the input has changed and is not UTF-8; there is no room for compiling it; or a
path cannot be asked for.

A time counts as seen that was never there, since one does at the start, and times that are a few
hundred nanoseconds apart are the same time to a watch (`watch_falls_behind`). -/

namespace Markup.Cli

/-! ### What a watch should do -/

/-- The machine after a pause. -/
def Machine.paused (s : Machine) (change : Disk → Disk) : Machine :=
  ⟨change s.disk, {}, s.past ++ [s.streams]⟩

theorem Machine.exec_pause (s : Machine) (change : Disk → Disk) :
    s.exec (Machine.pause change) = ((), s.paused change) := rfl

/-- The time of the last change of the input in nanoseconds, if it is there. -/
def Options.found (o : Options) (s : Machine) : Option Int :=
  match s.disk.at? o.input with
  | .error _ => none
  | .ok stored => some stored.modified

/-- One look at the input: from the time last seen, if there is one, and the machine to the same
after the look. -/
inductive Look (interpreter : Interpreter) (o : Options) :
    Option Int → Machine → Option Int → Machine → Prop
  | absent {last : Option Int} {s : Machine} (hfound : o.found s = none) :
      Look interpreter o last s last s
  | unchanged {t : Int} {s : Machine} (hfound : o.found s = some t) :
      Look interpreter o (some t) s (some t) s
  | compiled {last : Option Int} {s s' : Machine} {t : Int} {outcome : Outcome} {line : String}
      (hfound : o.found s = some t) (hnew : last ≠ some t)
      (hcompiles : Compiles interpreter o s outcome s')
      (hline : outcome.line o.input = .ok line) :
      Look interpreter o last s (some t) (s'.say (line ++ "\n"))

/-- Looks at the input, each followed by a pause in which the files may change. -/
inductive Watches (interpreter : Interpreter) (o : Options) :
    Option Int → Machine → List (Disk → Disk) → Option Int → Machine → Prop
  | nil {last : Option Int} {s : Machine} : Watches interpreter o last s [] last s
  | cons {last last₁ last' : Option Int} {s s₁ s' : Machine} {change : Disk → Disk}
      {rest : List (Disk → Disk)} (hlook : Look interpreter o last s last₁ s₁)
      (hrest : Watches interpreter o last₁ (s₁.paused change) rest last' s') :
      Watches interpreter o last s (change :: rest) last' s'

/-- Compiling the input ends a watch: it is not UTF-8, there is no room for compiling it, or its
page goes to a path that cannot be asked for. -/
inductive Options.EndsWatch (interpreter : Interpreter) (o : Options) (s : Machine) : Prop
  | undecodable (hread : s.disk.Undecodable o.input)
  | broken {text : String} {resource : Resource} (hread : s.disk.Holds o.input text)
      (hpage : o.page text interpreter = .error (.overflow resource))
  | nulInOutput {text html : String} {path : Path} (hread : s.disk.Holds o.input text)
      (hpage : o.page text interpreter = .ok html) (houtput : o.output = some path)
      (hnul : path.HasNul)

/-- The time that counts as seen, as a watch keeps it. -/
def timeSeen (last : Option Int) : Int := (last.map statTime).getD neverSeen

/-- A look that is missed: the input cannot be asked for, or it should be compiled, but its time
cannot be told from the one that counts as seen, or compiling it ends the watch. -/
def Options.Misses (interpreter : Interpreter) (o : Options) (last : Option Int) (s : Machine) :
    Prop :=
  o.input.HasNul ∨ ∃ t, o.found s = some t ∧ last ≠ some t ∧
    (statTime t = timeSeen last ∨ o.EndsWatch interpreter s)

section looks

variable {interpreter : Interpreter} {o : Options} {s s' : Machine} {last last' : Option Int}

theorem Options.found_eq_none_iff : o.found s = none ↔ ∃ e, s.disk.status o.input = .error e := by
  unfold found Disk.status
  cases s.disk.at? o.input with
  | error e => exact iff_of_true rfl ⟨e, rfl⟩
  | ok stored => exact iff_of_false (fun h => nomatch h) (fun ⟨_, h⟩ => nomatch h)

theorem Options.found_eq_some {t : Int} (h : o.found s = some t) :
    ∃ st, s.disk.status o.input = .ok st ∧ st.modified = statTime t := by
  unfold found at h
  unfold Disk.status
  cases hat : s.disk.at? o.input with
  | error e =>
      rw [hat] at h
      cases h
  | ok stored =>
      rw [hat] at h
      cases h
      exact ⟨stored.status, rfl, rfl⟩

theorem Look.unique {last₁ last₂ : Option Int} {s₁ s₂ : Machine}
    (h₁ : Look interpreter o last s last₁ s₁) (h₂ : Look interpreter o last s last₂ s₂) :
    last₁ = last₂ ∧ s₁ = s₂ := by
  cases h₁ with
  | absent hfound₁ =>
      cases h₂ with
      | absent hfound₂ => exact ⟨rfl, rfl⟩
      | unchanged hfound₂ => exact ⟨rfl, rfl⟩
      | compiled hfound₂ hnew₂ hcompiles₂ hline₂ =>
          rw [hfound₁] at hfound₂
          cases hfound₂
  | unchanged hfound₁ =>
      cases h₂ with
      | absent hfound₂ => exact ⟨rfl, rfl⟩
      | unchanged hfound₂ => exact ⟨rfl, rfl⟩
      | compiled hfound₂ hnew₂ hcompiles₂ hline₂ => exact (hnew₂ (hfound₁.symm.trans hfound₂)).elim
  | compiled hfound₁ hnew₁ hcompiles₁ hline₁ =>
      cases h₂ with
      | absent hfound₂ =>
          rw [hfound₂] at hfound₁
          cases hfound₁
      | unchanged hfound₂ => exact (hnew₁ (hfound₂.symm.trans hfound₁)).elim
      | compiled hfound₂ hnew₂ hcompiles₂ hline₂ =>
          rw [hfound₁] at hfound₂
          cases hfound₂
          obtain ⟨rfl, rfl⟩ := hcompiles₁.unique hcompiles₂
          rw [hline₁] at hline₂
          cases hline₂
          exact ⟨rfl, rfl⟩

/-- Writing a page leaves alone the error stream and what was set aside at pauses. -/
theorem Options.publish_eq_ok {html : String} (h : o.publish html s = .ok s') :
    s'.streams.err = s.streams.err ∧ s'.past = s.past := by
  unfold publish at h
  cases houtput : o.output with
  | none =>
      rw [houtput] at h
      cases h
      exact ⟨rfl, rfl⟩
  | some path =>
      rw [houtput] at h
      dsimp only at h
      cases hwrite : s.disk.writeFile path html with
      | error e =>
          rw [hwrite] at h
          cases h
      | ok disk =>
          rw [hwrite] at h
          cases h
          exact ⟨rfl, rfl⟩

/-- Compiling the input may add to the error stream, and leaves alone what was set aside. -/
theorem Compiles.err {outcome : Outcome} (h : Compiles interpreter o s outcome s') :
    (∃ told, s'.streams.err = s.streams.err ++ told) ∧ s'.past = s.past := by
  cases h with
  | unreadable hread => exact ⟨⟨"", String.append_empty.symm⟩, rfl⟩
  | undecodable hread => exact ⟨⟨"", String.append_empty.symm⟩, rfl⟩
  | broken hread hpage => exact ⟨⟨_, rfl⟩, rfl⟩
  | refused hread hpage he => exact ⟨⟨_, rfl⟩, rfl⟩
  | unwritable hread hpage hwrite => exact ⟨⟨_, rfl⟩, rfl⟩
  | written hread hpage hwrite =>
      obtain ⟨herr, hpast⟩ := Options.publish_eq_ok hwrite
      exact ⟨⟨_, herr⟩, hpast⟩

theorem Look.past (h : Look interpreter o last s last' s') : s'.past = s.past := by
  cases h with
  | absent hfound => rfl
  | unchanged hfound => rfl
  | compiled hfound hnew hcompiles hline => exact hcompiles.err.2

/-- A look at an input that should be compiled shows in what is told. -/
theorem Look.streams_ne (h : Look interpreter o last s last' s') {t : Int}
    (hfound : o.found s = some t) (hnew : last ≠ some t) : s'.streams ≠ s.streams := by
  cases h with
  | absent hfound' =>
      rw [hfound] at hfound'
      cases hfound'
  | unchanged hfound' => exact (hnew (hfound'.symm.trans hfound)).elim
  | compiled hfound' hnew' hcompiles hline =>
      obtain ⟨told, herr⟩ := hcompiles.err.1
      intro hsame
      have hlength := congrArg (fun streams => streams.err.length) hsame
      have hnewline : "\n".length = 1 := by decide
      simp only [Machine.say_err, herr, String.length_append, hnewline] at hlength
      omega

/-- What was set aside stays. -/
theorem Watches.past_isPrefix {changes : List (Disk → Disk)}
    (h : Watches interpreter o last s changes last' s') : s.past <+: s'.past := by
  induction h with
  | nil => exact List.prefix_rfl
  | cons hlook hrest ih =>
      rw [Machine.paused, hlook.past] at ih
      exact (List.prefix_append _ _).trans ih

/-- When compiling the input ends a watch. -/
theorem Compiles.line_eq_error_iff {outcome : Outcome} (h : Compiles interpreter o s outcome s')
    (hinput : ¬ o.input.HasNul) :
    (∃ crash, outcome.line o.input = .error crash) ↔ o.EndsWatch interpreter s := by
  constructor
  · rintro ⟨crash, hline⟩
    cases h with
    | unreadable hread =>
        rw [Outcome.line, if_pos ((Disk.readFile_error hread).mpr hinput)] at hline
        cases hline
    | undecodable hread => exact .undecodable hread
    | broken hread hpage => exact .broken hread hpage
    | refused hread hpage he => cases hline
    | @unwritable text html e hread hpage hwrite =>
        rw [Options.publish_eq_error_iff] at hwrite
        obtain ⟨path, houtput, hwrite⟩ := hwrite
        refine .nulInOutput hread hpage houtput ?_
        by_contra hpath
        rw [Outcome.line, if_pos ((Disk.writeFile_error hwrite).mpr hpath)] at hline
        cases hline
    | written hread hpage hwrite => cases hline
  · intro hends
    cases hends with
    | undecodable hread =>
        obtain ⟨rfl, rfl⟩ := h.unique (.undecodable hread)
        exact ⟨_, rfl⟩
    | broken hread hpage =>
        obtain ⟨rfl, rfl⟩ := h.unique (.broken hread hpage)
        exact ⟨_, rfl⟩
    | @nulInOutput text html path hread hpage houtput hnul =>
        cases hwrite : s.disk.writeFile path html with
        | ok disk => exact (Disk.writeFile_ok hwrite hnul).elim
        | error e =>
            have hpublish := o.publish_eq_error_iff.mpr ⟨path, houtput, hwrite⟩
            obtain ⟨rfl, rfl⟩ :=
              h.unique (.unwritable hread hpage (o.publish_say_eq_error_iff.mpr hpublish))
            have hordinary : ¬ e.isOrdinary = true :=
              fun h => (Disk.writeFile_error hwrite).mp h hnul
            exact ⟨_, if_neg hordinary⟩

/-- An input that was last changed two seconds after it was last seen, or later, is missed only if
compiling it ends the watch. -/
theorem Options.misses_iff_of_later {t : Int} (hfound : o.found s = some t)
    (hseen : 0 ≤ last.getD 0) (hlater : last.getD 0 + 2000000000 ≤ t)
    (hsmall : t / 1000000000 + 1 < 2 ^ 53) :
    o.Misses interpreter last s ↔ o.EndsWatch interpreter s := by
  have hapart : timeSeen last < statTime t := by
    cases last with
    | none => exact statTime_lt hseen hlater hsmall
    | some t₀ => exact statTime_lt hseen hlater hsmall
  have hinput : ¬ o.input.HasNul := by
    obtain ⟨st, hstatus, -⟩ := Options.found_eq_some hfound
    exact Disk.status_ok hstatus
  constructor
  · rintro (hnul | ⟨t', hfound', hnew, hsame | hends⟩)
    · exact (hinput hnul).elim
    · rw [hfound] at hfound'
      cases hfound'
      exact (hapart.ne' hsame).elim
    · exact hends
  · intro hends
    refine .inr ⟨t, hfound, ?_, .inr hends⟩
    rintro rfl
    exact hapart.ne rfl

/-- A look from which a watch should go on is missed only if the new time cannot be told. -/
theorem Look.not_misses {last₁ : Option Int} {s₁ : Machine} (h : Look interpreter o last s last₁ s₁)
    (hinput : ¬ o.input.HasNul) (htime : last₁ = last ∨ timeSeen last₁ ≠ timeSeen last) :
    ¬ o.Misses interpreter last s := by
  rintro (hnul | ⟨t, hfound, hnew, hmiss⟩)
  · exact hinput hnul
  · cases h with
    | absent hnone =>
        rw [hnone] at hfound
        cases hfound
    | unchanged hseen => exact hnew (hseen.symm.trans hfound)
    | compiled hfound' hnew' hcompiles hline =>
        rw [hfound'] at hfound
        cases hfound
        rcases hmiss with hsame | hends
        · exact htime.elim (fun h => hnew h.symm) fun hother => hother hsame
        · obtain ⟨crash, hcrash⟩ := (hcompiles.line_eq_error_iff hinput).mpr hends
          rw [hline] at hcrash
          cases hcrash

/-- The look at a text that is new and whose page goes to the standard output. -/
theorem Look.written {bytes : ByteArray} {t : Int} {text html : String}
    (hat : s.disk.at? o.input = .ok ⟨.file bytes, t⟩) (hnew : last ≠ some t)
    (hdecode : Text.decode? bytes = some text) (hpage : o.page text interpreter = .ok html)
    (houtput : o.output = none) :
    Look interpreter o last s (some t)
      { s with streams := ⟨s.streams.out ++ html, s.streams.err ++
        (o.compileText text interpreter).told ++ ("Compiled " ++ o.input.text ++ "\n")⟩ } := by
  have hfound : o.found s = some t := by rw [Options.found, hat]
  have hread : s.disk.Holds o.input text := ⟨bytes, by rw [Disk.readFile, hat], hdecode⟩
  have hwrite : o.publish html (s.say (o.compileText text interpreter).told) =
      .ok { s with streams := ⟨s.streams.out ++ html,
        s.streams.err ++ (o.compileText text interpreter).told⟩ } := by
    unfold Options.publish
    rw [houtput]
    rfl
  exact .compiled hfound hnew (.written hread hpage hwrite) rfl

/-- The look at a text that is new and does not compile. -/
theorem Look.refused {bytes : ByteArray} {t : Int} {text : String} {e : Error}
    (hat : s.disk.at? o.input = .ok ⟨.file bytes, t⟩) (hnew : last ≠ some t)
    (hdecode : Text.decode? bytes = some text) (hpage : o.page text interpreter = .error e)
    (he : ∀ resource, e ≠ .overflow resource) :
    Look interpreter o last s (some t) (s.say
      ((o.compileText text interpreter).told ++ (e.report o.input.text ++ "\n"))) := by
  have hfound : o.found s = some t := by rw [Options.found, hat]
  have hread : s.disk.Holds o.input text := ⟨bytes, by rw [Disk.readFile, hat], hdecode⟩
  rw [← Machine.say_say]
  exact .compiled hfound hnew (.refused hread hpage he) rfl

end looks

/-! ### One look -/

section turns

variable {interpreter : Interpreter} {o : Options} {s s' : Machine} {last : Option Int} {seen : Int}

theorem exec_watchTurn_error {e : FileError} (hstatus : s.disk.status o.input = .error e) :
    s.exec (watchTurn o seen interpreter) =
      (if e.isOrdinary then .ok seen else .error (.file e), s) := by
  rw [watchTurn, Machine.exec_bind, Machine.exec_status, hstatus]
  rfl

theorem exec_watchTurn_seen {st : Status} (hstatus : s.disk.status o.input = .ok st)
    (hseen : st.modified = seen) : s.exec (watchTurn o seen interpreter) = (.ok seen, s) := by
  rw [watchTurn, Machine.exec_bind, Machine.exec_status, hstatus]
  dsimp only
  rw [if_pos hseen]
  rfl

theorem exec_watchTurn_new {st : Status} {outcome : Outcome}
    (hstatus : s.disk.status o.input = .ok st) (hnew : st.modified ≠ seen)
    (hcompiles : Compiles interpreter o s outcome s') :
    s.exec (watchTurn o seen interpreter) = match outcome.line o.input with
      | .error crash => (.error crash, s')
      | .ok line => (.ok st.modified, s'.say (line ++ "\n")) := by
  rw [watchTurn, Machine.exec_bind, Machine.exec_status, hstatus]
  dsimp only
  rw [if_neg hnew, Machine.exec_bind, exec_recompile hcompiles]
  cases outcome.line o.input <;> rfl

/-- A look leaves alone what was set aside. -/
theorem exec_watchTurn_past : (s.exec (watchTurn o seen interpreter)).2.past = s.past := by
  cases hstatus : s.disk.status o.input with
  | error e => rw [exec_watchTurn_error hstatus]
  | ok st =>
      by_cases hseen : st.modified = seen
      · rw [exec_watchTurn_seen hstatus hseen]
      · obtain ⟨outcome, s', hcompiles⟩ := exists_compiles interpreter o s
        rw [exec_watchTurn_new hstatus hseen hcompiles]
        cases outcome.line o.input with
        | error crash => exact hcompiles.err.2
        | ok line => exact hcompiles.err.2

/-- A look that is not missed does what it should. -/
theorem exec_watchTurn_of_not_misses (h : ¬ o.Misses interpreter last s) :
    ∃ last' s', Look interpreter o last s last' s' ∧
      s.exec (watchTurn o (timeSeen last) interpreter) = (.ok (timeSeen last'), s') := by
  have hinput : ¬ o.input.HasNul := fun hnul => h (.inl hnul)
  cases hfound : o.found s with
  | none =>
      obtain ⟨e, hstatus⟩ := Options.found_eq_none_iff.mp hfound
      refine ⟨last, s, .absent hfound, ?_⟩
      rw [exec_watchTurn_error hstatus, if_pos ((Disk.status_error hstatus).mpr hinput)]
  | some t =>
      obtain ⟨st, hstatus, ht⟩ := Options.found_eq_some hfound
      by_cases hnew : last = some t
      · subst hnew
        exact ⟨_, s, .unchanged hfound, exec_watchTurn_seen hstatus ht⟩
      · have hunseen : st.modified ≠ timeSeen last :=
          fun hseen => h (.inr ⟨t, hfound, hnew, .inl (ht.symm.trans hseen)⟩)
        obtain ⟨outcome, s', hcompiles⟩ := exists_compiles interpreter o s
        have hturn := exec_watchTurn_new hstatus hunseen hcompiles
        cases hline : outcome.line o.input with
        | error crash =>
            have hends := (hcompiles.line_eq_error_iff hinput).mp ⟨crash, hline⟩
            exact (h (.inr ⟨t, hfound, hnew, .inr hends⟩)).elim
        | ok line =>
            rw [hline, ht] at hturn
            exact ⟨_, _, .compiled hfound hnew hcompiles hline, hturn⟩

/-- A look that is missed ends the watch, or it passes over what should be compiled. -/
theorem exec_watchTurn_of_misses (h : o.Misses interpreter last s) :
    (∃ crash, (s.exec (watchTurn o (timeSeen last) interpreter)).1 = .error crash) ∨
      s.exec (watchTurn o (timeSeen last) interpreter) = (.ok (timeSeen last), s) ∧
        ∀ last' s', Look interpreter o last s last' s' → s'.streams ≠ s.streams := by
  rcases h with hnul | ⟨t, hfound, hnew, hmiss⟩
  · left
    cases hstatus : s.disk.status o.input with
    | ok st => exact (Disk.status_ok hstatus hnul).elim
    | error e =>
        have hordinary : ¬ e.isOrdinary = true := fun h => (Disk.status_error hstatus).mp h hnul
        rw [exec_watchTurn_error hstatus, if_neg hordinary]
        exact ⟨_, rfl⟩
  · obtain ⟨st, hstatus, ht⟩ := Options.found_eq_some hfound
    by_cases hseen : st.modified = timeSeen last
    · exact .inr ⟨exec_watchTurn_seen hstatus hseen,
        fun _ _ hlook => hlook.streams_ne hfound hnew⟩
    · left
      rcases hmiss with htime | hends
      · exact (hseen (ht.trans htime)).elim
      · obtain ⟨outcome, s', hcompiles⟩ := exists_compiles interpreter o s
        obtain ⟨crash, hline⟩ := (hcompiles.line_eq_error_iff (Disk.status_ok hstatus)).mpr hends
        rw [exec_watchTurn_new hstatus hseen hcompiles, hline]
        exact ⟨crash, rfl⟩

end turns

/-! ### All looks -/

/-- A watch does what it should up to its last pause. -/
def Follows (interpreter : Interpreter) (o : Options) (last : Option Int) (s : Machine)
    (changes : List (Disk → Disk)) : Prop :=
  let final := s.exec (watchThrough o interpreter (timeSeen last) (changes.map Machine.pause))
  final.1 = .ok () ∧ ∃ last', Watches interpreter o last s changes last' final.2

/-- No look that a watch should come to is missed. -/
def MissesNone (interpreter : Interpreter) (o : Options) (last : Option Int) (s : Machine)
    (changes : List (Disk → Disk)) : Prop :=
  ∀ before change after, changes = before ++ change :: after →
    ∀ last' s', Watches interpreter o last s before last' s' → ¬ o.Misses interpreter last' s'

section runs

variable {interpreter : Interpreter} {o : Options} {s s₁ : Machine} {last last₁ : Option Int}
  {seen seen₁ : Int} {change : Disk → Disk} {rest : List (Disk → Disk)}

theorem exec_watchThrough_cons_error {crash : Crash} {pauses : List (StateM Machine Unit)}
    {pause : StateM Machine Unit} (h : (s.exec (watchTurn o seen interpreter)).1 = .error crash) :
    (s.exec (watchThrough o interpreter seen (pause :: pauses))).1 = .error crash := by
  rw [watchThrough, Machine.exec_bind, h]
  rfl

theorem exec_watchThrough_cons (h : s.exec (watchTurn o seen interpreter) = (.ok seen₁, s₁)) :
    s.exec (watchThrough o interpreter seen ((change :: rest).map Machine.pause)) =
      (s₁.paused change).exec (watchThrough o interpreter seen₁ (rest.map Machine.pause)) := by
  rw [List.map_cons, watchThrough, Machine.exec_bind, h]
  dsimp only
  rw [Machine.exec_bind, Machine.exec_pause]

/-- What was set aside stays, whatever a watch does. -/
theorem exec_watchThrough_past (changes : List (Disk → Disk)) (seen : Int) (s : Machine) :
    s.past <+: (s.exec (watchThrough o interpreter seen (changes.map Machine.pause))).2.past := by
  induction changes generalizing seen s with
  | nil => exact List.prefix_rfl
  | cons change rest ih =>
      have hpast := @exec_watchTurn_past interpreter o s seen
      rcases hturn : s.exec (watchTurn o seen interpreter) with ⟨crash | seen₁, s₁⟩
      · rw [List.map_cons, watchThrough, Machine.exec_bind, hturn]
        rw [hturn] at hpast
        exact hpast ▸ List.prefix_rfl
      · rw [exec_watchThrough_cons hturn]
        rw [hturn] at hpast
        rw [← hpast]
        exact (List.prefix_append _ _).trans (ih seen₁ (s₁.paused change))

theorem follows_cons (hlook : Look interpreter o last s last₁ s₁)
    (hturn : s.exec (watchTurn o (timeSeen last) interpreter) = (.ok (timeSeen last₁), s₁)) :
    Follows interpreter o last s (change :: rest) ↔
      Follows interpreter o last₁ (s₁.paused change) rest := by
  unfold Follows
  rw [exec_watchThrough_cons hturn]
  refine and_congr_right fun _ => exists_congr fun last' => ?_
  constructor
  · intro h
    cases h with
    | cons hlook' hrest =>
        obtain ⟨rfl, rfl⟩ := hlook.unique hlook'
        exact hrest
  · exact .cons hlook

theorem missesNone_nil : MissesNone interpreter o last s [] := by
  intro before change after h
  exact (List.append_ne_nil_of_right_ne_nil before (List.cons_ne_nil change after) h.symm).elim

theorem missesNone_cons (h : ¬ o.Misses interpreter last s)
    (hlook : Look interpreter o last s last₁ s₁) :
    MissesNone interpreter o last s (change :: rest) ↔
      MissesNone interpreter o last₁ (s₁.paused change) rest := by
  constructor
  · intro hnone before change' after hrest last' s' hwatches
    refine hnone (change :: before) change' after ?_ last' s' (.cons hlook hwatches)
    rw [hrest, List.cons_append]
  · intro hnone before change' after hchanges last' s' hwatches
    cases hwatches with
    | nil => exact h
    | cons hlook' hrest =>
        obtain ⟨rfl, rfl⟩ := hlook.unique hlook'
        obtain ⟨rfl, hafter⟩ := List.cons.inj hchanges
        exact hnone _ change' after hafter last' s' hrest

/-- No look is missed from one on whose time can be told, if none is missed behind it. -/
theorem Look.missesNone_cons (hlook : Look interpreter o last s last₁ s₁)
    (hinput : ¬ o.input.HasNul) (htime : last₁ = last ∨ timeSeen last₁ ≠ timeSeen last)
    (hrest : MissesNone interpreter o last₁ (s₁.paused change) rest) :
    MissesNone interpreter o last s (change :: rest) :=
  (Cli.missesNone_cons (hlook.not_misses hinput htime) hlook).mpr hrest

/-- After a look that is missed the watch has not done what it should, since what was told before
the pause is not what should have been. -/
theorem not_follows_of_misses (h : o.Misses interpreter last s) :
    ¬ Follows interpreter o last s (change :: rest) := by
  rintro ⟨hok, last', hwatches⟩
  rcases exec_watchTurn_of_misses h with ⟨crash, hcrash⟩ | ⟨hturn, htold⟩
  · rw [List.map_cons, exec_watchThrough_cons_error hcrash] at hok
    cases hok
  · rw [exec_watchThrough_cons hturn] at hwatches
    have hpast := @exec_watchThrough_past interpreter o rest (timeSeen last) (s.paused change)
    cases hwatches with
    | @cons _ last₁ _ _ s₁ _ _ _ hlook hrest =>
        have hpast' := hrest.past_isPrefix
        have hlength : (s.paused change).past.length = (s₁.paused change).past.length := by
          simp only [Machine.paused, hlook.past, List.length_append, List.length_singleton]
        have hsame : (s.paused change).past = (s₁.paused change).past :=
          (List.prefix_of_prefix_length_le hpast hpast' hlength.le).eq_of_length hlength
        rw [Machine.paused, Machine.paused, hlook.past] at hsame
        exact htold last₁ s₁ hlook (List.cons.inj (List.append_cancel_left hsame)).1.symm

/-- A watch does what it should exactly if it comes to no look that it misses. -/
theorem follows_iff (changes : List (Disk → Disk)) (last : Option Int) (s : Machine) :
    Follows interpreter o last s changes ↔ MissesNone interpreter o last s changes := by
  -- A look that is not missed comes to the same in both; one that is missed settles both sides.
  induction changes generalizing last s with
  | nil => exact iff_of_true ⟨rfl, last, .nil⟩ missesNone_nil
  | cons change rest ih =>
      by_cases hmisses : o.Misses interpreter last s
      · refine iff_of_false (not_follows_of_misses hmisses) fun hnone => ?_
        exact hnone [] change rest rfl last s .nil hmisses
      · obtain ⟨last₁, s₁, hlook, hturn⟩ := exec_watchTurn_of_not_misses hmisses
        rw [follows_cons hlook hturn, missesNone_cons hmisses hlook]
        exact ih last₁ (s₁.paused change)

/-- A watch greets, and ends well after its last pause. -/
theorem exec_watch (pauses : List (StateM Machine Unit)) :
    s.exec (watch o pauses interpreter) =
      let looks := (s.say (watchGreeting o ++ "\n")).exec
        (watchThrough o interpreter (timeSeen none) pauses)
      (looks.1.map fun _ => .success, looks.2) := by
  have hstart : timeSeen none = neverSeen := rfl
  rw [hstart, watch, Machine.exec_bind, Machine.exec_tell, Machine.exec_bind]
  rcases (s.say (watchGreeting o ++ "\n")).exec
    (watchThrough o interpreter neverSeen pauses) with ⟨crash | ⟨⟩, s'⟩
  · rfl
  · rfl

/-- A watch keeps up with the changes of the files: it ends only when it is interrupted, and has
done until then what it should. -/
def KeepsUp (interpreter : Interpreter) (o : Options) (s : Machine)
    (changes : List (Disk → Disk)) : Prop :=
  let final := s.exec (watch o (changes.map Machine.pause) interpreter)
  final.1 = .ok .success ∧
    ∃ last, Watches interpreter o none (s.say (watchGreeting o ++ "\n")) changes last final.2

/-- **A watch keeps up exactly if it comes to no look that it misses.** -/
theorem watch_keepsUp_iff (interpreter : Interpreter) (o : Options) (s : Machine)
    (changes : List (Disk → Disk)) :
    KeepsUp interpreter o s changes ↔
      ∀ before change after, changes = before ++ change :: after →
        ∀ last s', Watches interpreter o none (s.say (watchGreeting o ++ "\n")) before last s' →
          ¬ o.Misses interpreter last s' := by
  refine Iff.trans ?_ (follows_iff changes none (s.say (watchGreeting o ++ "\n")))
  unfold KeepsUp Follows
  rw [exec_watch]
  dsimp only
  refine and_congr_left fun _ => ?_
  cases ((s.say (watchGreeting o ++ "\n")).exec
    (watchThrough o interpreter (timeSeen none) (changes.map Machine.pause))).1 with
  | error crash => exact iff_of_false (fun h => nomatch h) (fun h => nomatch h)
  | ok done => exact iff_of_true rfl rfl

/-- A watch that keeps up: the input breaks, is gone for a while, and comes back mended. -/
theorem watch_keepsUp_mended :
    let o : Options := { input := ⟨"", ["doc.tx"]⟩, html := { standalone := false } }
    let start := Machine.ofFile "doc.tx" "a".toUTF8 1
    let changes : List (Disk → Disk) :=
      [fun _ => (Machine.ofFile "doc.tx" "\\b".toUTF8 2).disk, fun _ => {},
        fun _ => (Machine.ofFile "doc.tx" "c".toUTF8 3).disk, id, id]
    KeepsUp {} o start changes ∧ (start.exec (watch o (changes.map Machine.pause))).2.past =
      [⟨"<p>a</p>\n", "Watching doc.tx for changes...\nCompiled doc.tx\n"⟩,
        ⟨"", "error: command \\b not defined in current environment\n  --> doc.tx:1:2\n  |\n" ++
          "1 | \\b\n  |  ^\n"⟩,
        ⟨"", ""⟩, ⟨"<p>c</p>\n", "Compiled doc.tx\n"⟩, ⟨"", ""⟩] := by
  intro o start changes
  have hinput : ¬ o.input.HasNul := by
    unfold Path.HasNul
    decide +kernel
  have hat (bytes : ByteArray) (t : Int) :
      (Machine.ofFile "doc.tx" bytes t).disk.at? ⟨"", ["doc.tx"]⟩ = .ok ⟨.file bytes, t⟩ := rfl
  have hfirst : o.page "a" = .ok "<p>a</p>\n" := by decide +kernel
  have hbroken : o.page "\\b" =
      .error (.command ⟨.unbound "b", some ⟨1, 1, "b"⟩, some "\\b"⟩) := by decide +kernel
  have hmended : o.page "c" = .ok "<p>c</p>\n" := by decide +kernel
  have hnone : MissesNone {} o none (start.say (watchGreeting o ++ "\n")) changes := by
    refine Look.missesNone_cons (.written (hat _ 1) (by decide) (by decide +kernel) hfirst rfl)
      hinput (.inr (by decide +kernel)) ?_
    refine Look.missesNone_cons (.refused (hat _ 2) (by decide) (by decide +kernel) hbroken nofun)
      hinput (.inr (by decide +kernel)) ?_
    refine Look.missesNone_cons (.absent (by decide +kernel)) hinput (.inl rfl) ?_
    refine Look.missesNone_cons (.written (hat _ 3) (by decide) (by decide +kernel) hmended rfl)
      hinput (.inr (by decide +kernel)) ?_
    exact Look.missesNone_cons (.unchanged (by decide +kernel)) hinput (.inl rfl) missesNone_nil
  exact ⟨(watch_keepsUp_iff {} o start changes).mpr hnone, by decide +kernel⟩

/-- An input that was changed at the time 0 is there from the start and is not compiled, one that
is changed again 100 nanoseconds after it was compiled is not compiled again, and one that is not
UTF-8 ends the watch. -/
theorem watch_falls_behind :
    let o : Options := { input := ⟨"", ["doc.tx"]⟩, html := { standalone := false } }
    ((Machine.ofFile "doc.tx" "a".toUTF8 0).exec
      (watch o [Machine.pause id, Machine.pause id])).2.past =
        [⟨"", "Watching doc.tx for changes...\n"⟩, ⟨"", ""⟩] ∧
    ((Machine.ofFile "doc.tx" "a".toUTF8 1700000000000000000).exec
      (watch o [Machine.pause fun _ =>
        (Machine.ofFile "doc.tx" "b".toUTF8 1700000000000000100).disk, Machine.pause id])).2.past =
        [⟨"<p>a</p>\n", "Watching doc.tx for changes...\nCompiled doc.tx\n"⟩, ⟨"", ""⟩] ∧
    ((Machine.ofFile "doc.tx" ⟨#[0xff]⟩ 1).exec (watch o [Machine.pause id])).1 =
      .error .undecodable := by
  decide +kernel

end runs

end Markup.Cli
