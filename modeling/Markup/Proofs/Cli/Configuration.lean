import Markup.Proofs.Cli.Steps

/-! # Reading the configuration

How the options of a run are put together on a machine.  The configuration is looked for
(`exec_findConfig_error`, `exec_findConfig_file`, `exec_findConfig_directory`), read and parsed, and
its values are set beside those of the command line (`Request.optionsWith`).  This changes nothing
but the error stream (`exec_loadOptions_machine`).

**A run breaks off here exactly for a configuration that cannot be looked at, is not UTF-8, or is
more than the interpreter has room for** (`Request.ConfigFails`, `loadOptions_eq_crash_iff`).  Only
the stylesheets are shown as texts, one after the other, up to the first that there is no room for
(`mapM_textOf_cases`). -/

namespace Markup

/-- The document sets a key of a group to a value. -/
def Toml.Table.Sets (config : Toml.Table) (group key : String) (v : Toml.Value) : Prop :=
  ∃ entries, config.lookup group = some (.table entries) ∧ entries.lookup key = some v

/-- The stylesheets that a configuration names: the items of an array as texts, one text, or
none. -/
inductive Toml.Table.Sheets (config : Toml.Table) : List String → Prop
  | array {items : List Toml.Value} (h : config.Sets "html" "css" (.array items)) :
      Sheets config (items.map Toml.Value.toText)
  | single {sheet : String} (h : config.Sets "html" "css" (.text sheet)) : Sheets config [sheet]
  | none (harray : ∀ items, ¬ config.Sets "html" "css" (.array items))
      (htext : ∀ sheet, ¬ config.Sets "html" "css" (.text sheet)) : Sheets config []

namespace Cli

/-! ### Configurations that break off a run -/

/-- There is room for showing a value as a text. -/
def Interpreter.CanShow (interpreter : Interpreter) (v : Toml.Value) : Prop :=
  interpreter.shows v = true ∧ v.isShort = true

/-- The bytes of a configuration break off a run: they are not UTF-8, or there is no room for
reading them, for a decimal number in them, or for showing one of the stylesheets. -/
inductive Interpreter.BreaksOn (interpreter : Interpreter) (bytes : ByteArray) : Prop
  | undecodable (htext : String.fromUTF8? bytes = none)
  | unread {text : String} (htext : String.fromUTF8? bytes = some text)
      (hroom : interpreter.reads text = false)
  | digits {text : String} (htext : String.fromUTF8? bytes = some text)
      (hparse : Toml.parse text = .error .digits)
  | unshown {text : String} {config : Toml.Table} {items : List Toml.Value} {v : Toml.Value}
      (htext : String.fromUTF8? bytes = some text) (hparse : Toml.parse text = .ok config)
      (hitems : config.Sets "html" "css" (.array items)) (hv : v ∈ items)
      (hroom : ¬ interpreter.CanShow v)

/-- The configuration cannot even be looked at, or it breaks off the run. -/
def Request.ConfigFails (r : Request) (interpreter : Interpreter) (d : Disk) : Prop :=
  (∃ e, d.status r.configPath = .error e ∧
    ¬ (e.cause = .missing ∨ e.cause = .notDirectory ∨ e.cause = .nulInPath)) ∨
  ∃ bytes, d.readFile r.configPath = .ok bytes ∧ interpreter.BreaksOn bytes

/-! ### Values of a configuration -/

section settings

variable {interpreter : Interpreter} {config : Toml.Table} {group key : String}

theorem setting?_eq_some_iff {v : Toml.Value} :
    setting? config group key = some v ↔ config.Sets group key v := by
  unfold setting? Toml.Table.Sets
  cases config.lookup group with
  | none => simp
  | some found => cases found <;> simp

theorem Interpreter.CanShow.textOf {v : Toml.Value} (h : interpreter.CanShow v) :
    interpreter.textOf v = .ok v.toText := by
  unfold Interpreter.textOf
  rw [h.1, h.2]
  rfl

theorem textOf_eq_error_iff {v : Toml.Value} :
    (∃ resource, interpreter.textOf v = .error resource) ↔ ¬ interpreter.CanShow v := by
  unfold Interpreter.textOf Interpreter.CanShow
  cases interpreter.shows v <;> cases v.isShort <;> simp

/-- Values are shown one after the other, up to the first that there is no room for. -/
theorem mapM_textOf_cases (interpreter : Interpreter) (items : List Toml.Value) :
    (∀ v ∈ items, interpreter.CanShow v) ∧
        items.mapM interpreter.textOf = .ok (items.map Toml.Value.toText) ∨
      ∃ before v after resource, items = before ++ v :: after ∧
        (∀ u ∈ before, interpreter.CanShow u) ∧ interpreter.textOf v = .error resource ∧
        items.mapM interpreter.textOf = .error resource := by
  induction items with
  | nil => exact .inl ⟨fun _ h => (List.not_mem_nil h).elim, rfl⟩
  | cons v rest ih =>
      rw [List.mapM_cons]
      by_cases hv : interpreter.CanShow v
      · rw [hv.textOf]
        rcases ih with ⟨hall, hrest⟩ | ⟨before, u, after, resource, rfl, hbefore, hu, hrest⟩
        · rw [hrest]
          exact .inl ⟨List.forall_mem_cons.mpr ⟨hv, hall⟩, rfl⟩
        · rw [hrest]
          exact .inr ⟨v :: before, u, after, resource, rfl, List.forall_mem_cons.mpr ⟨hv, hbefore⟩,
            hu, rfl⟩
      · obtain ⟨resource, htext⟩ := textOf_eq_error_iff.mpr hv
        rw [htext]
        exact .inr ⟨[], v, rest, resource, rfl, fun _ h => (List.not_mem_nil h).elim, htext, rfl⟩

theorem mapM_textOf_append {before after : List Toml.Value} {v : Toml.Value} {resource : Resource}
    (hbefore : ∀ u ∈ before, interpreter.CanShow u) (hv : interpreter.textOf v = .error resource) :
    (before ++ v :: after).mapM interpreter.textOf = .error resource := by
  induction before with
  | nil =>
      rw [List.nil_append, List.mapM_cons, hv]
      rfl
  | cons u before ih =>
      obtain ⟨hu, hrest⟩ := List.forall_mem_cons.mp hbefore
      rw [List.cons_append, List.mapM_cons, hu.textOf, ih hrest]
      rfl

/-- The texts of the stylesheets, up to the first that there is no room for. -/
theorem textsSetting_cases (interpreter : Interpreter) (config : Toml.Table) :
    (∃ sheets, config.Sheets sheets ∧
      (∀ items, config.Sets "html" "css" (.array items) → ∀ v ∈ items, interpreter.CanShow v) ∧
      interpreter.textsSetting config "html" "css" = .ok sheets) ∨
    ∃ before v after resource, config.Sets "html" "css" (.array (before ++ v :: after)) ∧
      (∀ u ∈ before, interpreter.CanShow u) ∧ interpreter.textOf v = .error resource ∧
      interpreter.textsSetting config "html" "css" = .error resource := by
  have hsets : ∀ {v}, setting? config "html" "css" = some v ↔ config.Sets "html" "css" v :=
    setting?_eq_some_iff
  unfold Interpreter.textsSetting
  simp only [← hsets]
  split
  · next items h =>
    rcases mapM_textOf_cases interpreter items with ⟨hall, hok⟩ |
      ⟨before, v, after, resource, rfl, hbefore, hv, herror⟩
    · refine .inl ⟨_, .array (hsets.mp h), fun items' h' => ?_, hok⟩
      rw [h] at h'
      cases h'
      exact hall
    · exact .inr ⟨before, v, after, resource, h, hbefore, hv, herror⟩
  · next s h =>
    refine .inl ⟨_, .single (hsets.mp h), fun items h' => ?_, rfl⟩
    rw [h] at h'
    cases h'
  · next harray htext =>
    exact .inl ⟨_, .none (fun items h => harray items (hsets.mpr h))
      (fun s h => htext s (hsets.mpr h)), fun items h => (harray items h).elim, rfl⟩

/-- When the stylesheets cannot be shown. -/
theorem textsSetting_eq_error_iff :
    (∃ resource, interpreter.textsSetting config "html" "css" = .error resource) ↔
      ∃ items v, config.Sets "html" "css" (.array items) ∧ v ∈ items ∧
        ¬ interpreter.CanShow v := by
  rcases textsSetting_cases interpreter config with ⟨sheets, -, hall, hok⟩ |
    ⟨before, v, after, resource, hset, -, hv, herror⟩
  · rw [hok]
    refine iff_of_false (fun ⟨_, h⟩ => nomatch h) ?_
    rintro ⟨items, v, hset, hv, hroom⟩
    exact hroom (hall items hset v hv)
  · exact iff_of_true ⟨resource, herror⟩
      ⟨_, v, hset, by simp, textOf_eq_error_iff.mp ⟨resource, hv⟩⟩

end settings

/-! ### Options on a machine -/

section options

variable {interpreter : Interpreter} {r : Request} {s : Machine}

theorem exec_findConfig_error {e : FileError} (h : s.disk.status r.configPath = .error e) :
    s.exec (findConfig r) =
      (if e.cause = .missing ∨ e.cause = .notDirectory ∨ e.cause = .nulInPath then .ok none
        else .error (.file e), s) := by
  rw [findConfig, Machine.exec_bind, Machine.exec_status, h]
  rfl

theorem exec_findConfig_file {st : Status} {bytes : ByteArray}
    (h : s.disk.status r.configPath = .ok st) (hread : s.disk.readFile r.configPath = .ok bytes) :
    s.exec (findConfig r) =
      (.ok (some bytes), s.say (logText r.verbosity [.readingConfig r.configPath.text])) := by
  have hfile : st.isFile = true := (Disk.readFile_of_status h).mp ⟨bytes, hread⟩
  rw [findConfig, Machine.exec_bind, Machine.exec_status, h]
  dsimp only
  rw [if_pos hfile, Machine.exec_bind, Machine.exec_putErr, Machine.exec_bind,
    Machine.exec_readFile, Machine.say_disk, hread]
  rfl

theorem exec_findConfig_directory {st : Status} {e : FileError}
    (h : s.disk.status r.configPath = .ok st) (hread : s.disk.readFile r.configPath = .error e) :
    s.exec (findConfig r) = (.ok none, s) := by
  have hfile : ¬ st.isFile = true := by
    intro hfile
    obtain ⟨bytes, hok⟩ := (Disk.readFile_of_status h).mpr hfile
    rw [hread] at hok
    cases hok
  rw [findConfig, Machine.exec_bind, Machine.exec_status, h]
  dsimp only
  rw [if_neg hfile]
  rfl

/-- The options of a request with the bytes of its configuration. -/
def Request.optionsWith (r : Request) (interpreter : Interpreter) (config : Option ByteArray) :
    Except OptionsError Options :=
  (readConfig interpreter config).bind (Options.resolve interpreter r)

theorem exec_loadOptions (interpreter : Interpreter) (r : Request) (s : Machine) :
    s.exec (loadOptions r interpreter) = (match (s.exec (findConfig r)).1 with
      | .error crash => .error (.crash crash)
      | .ok config => r.optionsWith interpreter config, (s.exec (findConfig r)).2) := by
  rw [loadOptions, Machine.exec_bind]
  cases (s.exec (findConfig r)).1 <;> rfl

/-- Putting the options together changes nothing but the error stream. -/
theorem exec_loadOptions_machine (r : Request) (interpreter : Interpreter) (s : Machine) :
    ∃ notice, (s.exec (loadOptions r interpreter)).2 = s.say notice := by
  have hsilent : s = s.say "" := by simp [Machine.say]
  rw [exec_loadOptions]
  dsimp only
  cases hstatus : s.disk.status r.configPath with
  | error e => exact ⟨"", by rw [exec_findConfig_error hstatus]; exact hsilent⟩
  | ok st =>
      cases hread : s.disk.readFile r.configPath with
      | error e => exact ⟨"", by rw [exec_findConfig_directory hstatus hread]; exact hsilent⟩
      | ok bytes => exact ⟨_, by rw [exec_findConfig_file hstatus hread]⟩

theorem resolve_eq_crash_iff {config : Toml.Table} :
    (∃ crash, Options.resolve interpreter r config = .error (.crash crash)) ↔
      ∃ items v, config.Sets "html" "css" (.array items) ∧ v ∈ items ∧
        ¬ interpreter.CanShow v := by
  rw [← textsSetting_eq_error_iff, Options.resolve]
  cases interpreter.textsSetting config "html" "css" with
  | error resource => exact iff_of_true ⟨_, rfl⟩ ⟨_, rfl⟩
  | ok sheets =>
      refine iff_of_false ?_ (fun ⟨_, h⟩ => nomatch h)
      rintro ⟨crash, h⟩
      dsimp only at h
      split at h <;> cases h

/-- What breaks off a run in the text of a configuration. -/
theorem breaksOn_iff {bytes : ByteArray} {text : String}
    (htext : String.fromUTF8? bytes = some text) :
    interpreter.BreaksOn bytes ↔ interpreter.reads text = false ∨
      Toml.parse text = .error .digits ∨ ∃ config, Toml.parse text = .ok config ∧
        ∃ items v, config.Sets "html" "css" (.array items) ∧ v ∈ items ∧
          ¬ interpreter.CanShow v := by
  have hunique : ∀ {text'}, String.fromUTF8? bytes = some text' → text' = text :=
    fun htext' => Option.some.inj (htext'.symm.trans htext)
  constructor
  · rintro (hnone | ⟨htext', hroom⟩ | ⟨htext', hparse⟩ | ⟨htext', hparse, hitems, hv, hroom⟩)
    · rw [htext] at hnone
      cases hnone
    · exact .inl (hunique htext' ▸ hroom)
    · exact .inr (.inl (hunique htext' ▸ hparse))
    · exact .inr (.inr ⟨_, hunique htext' ▸ hparse, _, _, hitems, hv, hroom⟩)
  · rintro (hroom | hparse | ⟨config, hparse, items, v, hitems, hv, hroom⟩)
    · exact .unread htext hroom
    · exact .digits htext hparse
    · exact .unshown htext hparse hitems hv hroom

theorem optionsWith_eq_crash_iff {config : Option ByteArray} :
    (∃ crash, r.optionsWith interpreter config = .error (.crash crash)) ↔
      ∃ bytes, config = some bytes ∧ interpreter.BreaksOn bytes := by
  unfold Request.optionsWith readConfig
  cases config with
  | none =>
      refine iff_of_false ?_ (fun ⟨_, h, _⟩ => nomatch h)
      intro (h : ∃ crash, Options.resolve interpreter r [] = .error (.crash crash))
      obtain ⟨items, v, ⟨entries, hgroup, -⟩, -⟩ := resolve_eq_crash_iff.mp h
      cases hgroup
  | some bytes =>
      simp only [Option.some.injEq, exists_eq_left']
      cases htext : String.fromUTF8? bytes with
      | none => exact iff_of_true ⟨_, rfl⟩ (.undecodable htext)
      | some text =>
          rw [breaksOn_iff htext]
          dsimp only
          cases interpreter.reads text with
          | false => exact iff_of_true ⟨_, rfl⟩ (.inl rfl)
          | true =>
              rw [or_iff_right fun h => Bool.noConfusion h]
              simp only [Bool.not_true, Bool.false_eq_true, if_false]
              cases Toml.parse text with
              | error fault =>
                  cases fault with
                  | digits => exact iff_of_true ⟨_, rfl⟩ (.inl rfl)
                  | malformed =>
                      refine iff_of_false (fun ⟨_, h⟩ => nomatch h) ?_
                      rintro (h | ⟨config, h, -⟩) <;> cases h
              | ok table =>
                  refine resolve_eq_crash_iff.trans ⟨fun h => .inr ⟨table, rfl, h⟩, ?_⟩
                  rintro (h | ⟨config, h, hrest⟩) <;> cases h
                  exact hrest

/-- When the options cannot be put together without the run breaking off. -/
theorem loadOptions_eq_crash_iff :
    (∃ crash, (s.exec (loadOptions r interpreter)).1 = .error (.crash crash)) ↔
      r.ConfigFails interpreter s.disk := by
  rw [exec_loadOptions, Request.ConfigFails]
  dsimp only
  cases hstatus : s.disk.status r.configPath with
  | error e =>
      rw [exec_findConfig_error hstatus, Disk.readFile_of_status_error hstatus]
      by_cases hcause : e.cause = .missing ∨ e.cause = .notDirectory ∨ e.cause = .nulInPath
      · rw [if_pos hcause]
        refine optionsWith_eq_crash_iff.trans (iff_of_false (fun ⟨_, h, _⟩ => nomatch h) ?_)
        rintro (⟨e', he', hfails⟩ | ⟨bytes, hread, -⟩)
        · cases he'
          exact hfails hcause
        · cases hread
      · rw [if_neg hcause]
        exact iff_of_true ⟨_, rfl⟩ (.inl ⟨e, rfl, hcause⟩)
  | ok st =>
      rw [or_iff_right (fun ⟨_, h, _⟩ => nomatch h)]
      cases hread : s.disk.readFile r.configPath with
      | error e =>
          rw [exec_findConfig_directory hstatus hread]
          exact optionsWith_eq_crash_iff.trans
            (iff_of_false (fun ⟨_, h, _⟩ => nomatch h) (fun ⟨_, h, _⟩ => nomatch h))
      | ok bytes =>
          rw [exec_findConfig_file hstatus hread]
          simpa using @optionsWith_eq_crash_iff interpreter r (some bytes)

/-- The options say what the request says about the input, the output and watching. -/
theorem loadOptions_eq_ok {o : Options} (h : (s.exec (loadOptions r interpreter)).1 = .ok o) :
    o.input = r.inputPath ∧ o.output = (nonempty? r.output).map .ofString ∧ o.watch = r.watch := by
  rw [exec_loadOptions] at h
  dsimp only at h
  cases hconfig : (s.exec (findConfig r)).1 with
  | error crash =>
      rw [hconfig] at h
      cases h
  | ok config =>
      rw [hconfig] at h
      dsimp only [Request.optionsWith] at h
      cases htable : readConfig interpreter config with
      | error e =>
          rw [htable] at h
          cases h
      | ok table =>
          rw [htable, Except.bind, Options.resolve] at h
          cases hsheets : interpreter.textsSetting table "html" "css" with
          | error resource =>
              rw [hsheets] at h
              cases h
          | ok sheets =>
              rw [hsheets] at h
              dsimp only at h
              split at h
              · cases h
              · cases h
                exact ⟨rfl, rfl, rfl⟩

/-- How a run goes on from its options. -/
theorem exec_run {args : List String} (hparse : Request.parse args = .ok r)
    (pauses : List (StateM Machine Unit)) :
    s.exec (run args pauses interpreter) = match (s.exec (loadOptions r interpreter)).1 with
      | .error (.crash crash) => (.error crash, (s.exec (loadOptions r interpreter)).2)
      | .error e =>
        (.ok .failure, (s.exec (loadOptions r interpreter)).2.say ("error: " ++ e.message ++ "\n"))
      | .ok o => (s.exec (loadOptions r interpreter)).2.exec
          (if o.watch then watch o pauses interpreter else runOnce o interpreter) := by
  rw [run, Machine.exec_bind, start, hparse]
  dsimp only
  rw [Machine.exec_bind]
  cases (s.exec (loadOptions r interpreter)).1 with
  | error e => cases e <;> rfl
  | ok o => rfl

end options

end Cli

end Markup
