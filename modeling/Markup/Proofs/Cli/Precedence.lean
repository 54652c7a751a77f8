import Markup.Proofs.Cli.Configuration

/-! # Which option prevails

What the command line says prevails over what the configuration says, and that over the default
(`Prevails`).  A configuration has a say if it sets a key to a value of the right type
(`Toml.Table.Sets`), whatever else it holds: groups and keys may be missing or of any type.
Stylesheets are collected instead, those of the configuration first (`Toml.Table.Sheets`).

So it is for every configuration that can be read (`Request.Configured`) and whose stylesheets there
is room for showing as text, and there are options unless the depth that prevails is not positive,
with one exception.  An empty language on the command line is passed over as if it had not been
given, so the language of the configuration stays (`exec_loadOptions_precedence`). -/

namespace Markup.Cli

/-- The value that prevails: the one that is given, or else the one that is configured, or else the
fallback. -/
inductive Prevails {α : Type} (given : Option α) (configured : α → Prop) (fallback : α) : α → Prop
  | given {v : α} (h : given = some v) : Prevails given configured fallback v
  | configured {v : α} (hgiven : given = none) (h : configured v) :
      Prevails given configured fallback v
  | fallback (hgiven : given = none) (hnone : ∀ v, ¬ configured v) :
      Prevails given configured fallback fallback

/-- The configuration that a request finds: the document in its file, or an empty one where there is
no file. -/
inductive Request.Configured (r : Request) (interpreter : Interpreter) (d : Disk) :
    Toml.Table → Prop
  | file {bytes : ByteArray} {text : String} {config : Toml.Table}
      (hread : d.readFile r.configPath = .ok bytes) (htext : String.fromUTF8? bytes = some text)
      (hroom : interpreter.reads text = true) (hparse : Toml.parse text = .ok config) :
      Configured r interpreter d config
  | absent (hread : ∀ bytes, d.readFile r.configPath ≠ .ok bytes)
      (hstatus : ∀ e, d.status r.configPath = .error e →
        e.cause = .missing ∨ e.cause = .notDirectory ∨ e.cause = .nulInPath) :
      Configured r interpreter d []

/-! ### Settings -/

section settings

variable {config : Toml.Table} {group key : String}

theorem booleanSetting?_eq_some_iff {b : Bool} :
    booleanSetting? config group key = some b ↔ config.Sets group key (.boolean b) := by
  rw [← setting?_eq_some_iff, booleanSetting?]
  rcases setting? config group key with _ | v
  · simp
  · cases v <;> simp

theorem textSetting?_eq_some_iff {s : String} :
    textSetting? config group key = some s ↔ config.Sets group key (.text s) := by
  rw [← setting?_eq_some_iff, textSetting?]
  rcases setting? config group key with _ | v
  · simp
  · cases v <;> simp

theorem integerSetting?_eq_some_iff {n : Int} :
    integerSetting? config group key = some n ↔ config.Sets group key (.integer n) := by
  rw [← setting?_eq_some_iff, integerSetting?]
  rcases setting? config group key with _ | v
  · simp
  · cases v <;> simp

end settings

/-! ### What prevails -/

section prevails

variable {α : Type} {given found : Option α} {configured : α → Prop} {fallback v w : α}

theorem prevails_getD (h : ∀ v, found = some v ↔ configured v) :
    Prevails given configured fallback ((given.or found).getD fallback) := by
  cases given with
  | some v => exact .given rfl
  | none =>
      cases hfound : found with
      | some v => exact .configured rfl ((h v).mp hfound)
      | none =>
          refine .fallback rfl fun v hv => ?_
          rw [(h v).mpr hv] at hfound
          cases hfound

/-- Nothing prevails over a value that is given. -/
theorem Prevails.eq_of_given (h : Prevails (some v) configured fallback w) : w = v := by
  cases h with
  | given hgiven => exact (Option.some.inj hgiven).symm
  | configured hgiven | fallback hgiven => cases hgiven

end prevails

/-- A text that is configured, as a value that may be missing. -/
def ConfiguredText (config : Toml.Table) (group key : String) (v : Option String) : Prop :=
  ∃ s, v = some s ∧ config.Sets group key (.text s)

/-- A text prevails as a value that may be missing. -/
theorem prevails_text (config : Toml.Table) {group key : String} {given : Option String} :
    Prevails (given.map some) (ConfiguredText config group key) none
      (given.or (textSetting? config group key)) := by
  have hfound : ∀ v, (textSetting? config group key).map some = some v ↔
      ConfiguredText config group key v := by
    intro v
    rw [Option.map_eq_some_iff]
    refine exists_congr fun s => ?_
    rw [textSetting?_eq_some_iff, and_comm, eq_comm]
  have hprevails : Prevails (given.map some) (ConfiguredText config group key) none
      (((given.map some).or ((textSetting? config group key).map some)).getD none) :=
    prevails_getD hfound
  cases given with
  | some s => exact hprevails
  | none =>
      cases htext : textSetting? config group key with
      | none | some s =>
          rw [htext] at hprevails
          exact hprevails

namespace Request

variable (r : Request) (config : Toml.Table)

theorem prevails_standaloneWith : Prevails r.standalone
    (fun b => config.Sets "html" "standalone" (.boolean b)) true (r.standaloneWith config) :=
  prevails_getD fun _ => booleanSetting?_eq_some_iff

theorem prevails_maxDepthWith : Prevails r.maxDepth
    (fun n => config.Sets "eval" "max_depth" (.integer n)) defaultMaxDepth
      (r.maxDepthWith config) :=
  prevails_getD fun _ => integerSetting?_eq_some_iff

/-- An empty language that is given prevails only if it is configured too. -/
theorem prevails_langWith_iff :
    Prevails (r.lang.map some) (ConfiguredText config "html" "lang") none (r.langWith config) ↔
      r.lang ≠ some "" ∨ config.Sets "html" "lang" (.text "") := by
  by_cases hempty : r.lang = some ""
  · have hlang : r.langWith config = textSetting? config "html" "lang" := by
      rw [langWith, hempty]
      rfl
    rw [hlang, hempty, or_iff_right (fun h => h rfl), ← textSetting?_eq_some_iff]
    constructor
    · exact Prevails.eq_of_given
    · intro h
      rw [h]
      exact .given rfl
  · have hgiven : nonempty? r.lang = r.lang := by
      cases hlang : r.lang with
      | none => rfl
      | some s => exact if_neg fun hs => hempty (by rw [hlang, hs])
    rw [langWith, hgiven]
    exact iff_of_true (prevails_text config) (.inl hempty)

end Request

/-! ### Options -/

section options

variable {interpreter : Interpreter} {r : Request} {s : Machine} {config : Toml.Table}

/-- The options of a configuration that can be read. -/
theorem exec_loadOptions_configured (h : r.Configured interpreter s.disk config) :
    (s.exec (loadOptions r interpreter)).1 = Options.resolve interpreter r config := by
  rw [exec_loadOptions]
  dsimp only
  cases h with
  | @file bytes text _ hread htext hroom hparse =>
      cases hstatus : s.disk.status r.configPath with
      | error e =>
          rw [Disk.readFile_of_status_error hstatus] at hread
          cases hread
      | ok st =>
          have hconfig : readConfig interpreter (some bytes) = .ok config := by
            simp only [readConfig, htext, hroom, hparse, Bool.not_true, Bool.false_eq_true,
                if_false]
          rw [exec_findConfig_file hstatus hread]
          dsimp only
          rw [Request.optionsWith, hconfig]
          rfl
  | absent hread hcause =>
      cases hstatus : s.disk.status r.configPath with
      | error e =>
          rw [exec_findConfig_error hstatus, if_pos (hcause e hstatus)]
          rfl
      | ok st =>
          cases hfile : s.disk.readFile r.configPath with
          | ok bytes => exact (hread bytes hfile).elim
          | error e =>
              rw [exec_findConfig_directory hstatus hfile]
              rfl

/-- **The command line prevails over the configuration, and that over the defaults**, but for an
empty language on the command line.  With a configuration that can be read a run breaks off for the
first of its stylesheets that there is no room for showing as text.  If there is none such, there
are options exactly if the depth that prevails is positive.  Then standalone and depth are the
values that prevail, the language is the one that prevails if an empty one does not count as given,
and the stylesheets are those of the configuration followed by those of the command line.  The
language is the one that prevails with an empty one counted too just if none such is given, or the
same one is configured. -/
theorem exec_loadOptions_precedence (h : r.Configured interpreter s.disk config) :
    (∀ before v after resource, config.Sets "html" "css" (.array (before ++ v :: after)) →
      (∀ u ∈ before, interpreter.CanShow u) → interpreter.textOf v = .error resource →
        (s.exec (loadOptions r interpreter)).1 = .error (.crash (.overflow resource))) ∧
    ((∀ items, config.Sets "html" "css" (.array items) → ∀ v ∈ items, interpreter.CanShow v) →
      ∃ depth, Prevails r.maxDepth (fun n => config.Sets "eval" "max_depth" (.integer n))
          defaultMaxDepth depth ∧
        (depth < 1 → (s.exec (loadOptions r interpreter)).1 = .error (.depth depth)) ∧
        (1 ≤ depth → ∃ o, (s.exec (loadOptions r interpreter)).1 = .ok o ∧ o.maxDepth = depth ∧
          Prevails r.standalone (fun b => config.Sets "html" "standalone" (.boolean b)) true
            o.html.standalone ∧
          Prevails ((nonempty? r.lang).map some) (ConfiguredText config "html" "lang") none
            o.html.lang ∧
          (Prevails (r.lang.map some) (ConfiguredText config "html" "lang") none o.html.lang ↔
            r.lang ≠ some "" ∨ config.Sets "html" "lang" (.text "")) ∧
          ∃ sheets, config.Sheets sheets ∧ o.html.css = sheets ++ r.css)) := by
  rw [exec_loadOptions_configured h, Options.resolve]
  constructor
  · intro before v after resource hset hbefore hv
    have hcss : setting? config "html" "css" = some (.array (before ++ v :: after)) :=
      setting?_eq_some_iff.mpr hset
    rw [Interpreter.textsSetting, hcss]
    dsimp only
    rw [mapM_textOf_append hbefore hv]
  · intro hall
    refine ⟨r.maxDepthWith config, r.prevails_maxDepthWith config, ?_⟩
    rcases textsSetting_cases interpreter config with ⟨sheets, hsheets, -, htexts⟩ |
      ⟨before, v, after, resource, hset, -, hv, -⟩
    · rw [htexts]
      dsimp only
      refine ⟨fun hlow => if_pos hlow, fun hhigh => ?_⟩
      rw [if_neg (Int.not_lt.mpr hhigh)]
      exact ⟨_, rfl, rfl, r.prevails_standaloneWith config, prevails_text config,
        r.prevails_langWith_iff config, _, hsheets, rfl⟩
    · exact (textOf_eq_error_iff.mp ⟨resource, hv⟩ (hall _ hset v (by simp))).elim

/-- A configuration with values of the right and of the wrong type. -/
def mixedConfig : String :=
  "[html]\nlang = \"de\"\nstandalone = 0\ncss = [\"a.css\", true]\n[eval]\nmax_depth = true\n"

/-- The depth is the one that is given, the language the one that is configured, since an empty one
does not count, and what is no truth value does not count either. -/
theorem exec_loadOptions_precedence_mixed :
    let s := Machine.ofFile configName mixedConfig.toUTF8 1
    let r : Request := { input := "doc.tx", lang := some "", css := ["b.css"], maxDepth := some 1 }
    (s.exec (loadOptions r)).1 = .ok {
      input := .ofString "doc.tx"
      html := ⟨true, some "de", ["a.css", "True", "b.css"]⟩
      maxDepth := 1 } ∧
    ∃ config, r.Configured {} s.disk config ∧
      Prevails none (fun b => config.Sets "html" "standalone" (.boolean b)) true true ∧
      Prevails none (ConfiguredText config "html" "lang") none (some "de") ∧
      ¬ Prevails (some (some "")) (ConfiguredText config "html" "lang") none (some "de") ∧
      config.Sheets ["a.css", "True"] := by
  intro s r
  have hrun : (s.exec (loadOptions r)).1 = .ok {
      input := .ofString "doc.tx"
      html := ⟨true, some "de", ["a.css", "True", "b.css"]⟩
      maxDepth := 1 } := by decide +kernel
  have hread : s.disk.readFile r.configPath = .ok mixedConfig.toUTF8 := by decide +kernel
  have htext : String.fromUTF8? mixedConfig.toUTF8 = some mixedConfig := by decide +kernel
  cases hparse : Toml.parse mixedConfig with
  | error fault =>
      have hok : (Toml.parse mixedConfig).isOk = true := by decide +kernel
      rw [hparse] at hok
      cases hok
  | ok config =>
      have hconfigured : r.Configured {} s.disk config := .file hread htext rfl hparse
      have hshown : ∀ items, config.Sets "html" "css" (.array items) →
          ∀ v ∈ items, Interpreter.CanShow {} v := by
        intro items hset v hv
        by_contra hroom
        obtain ⟨crash, hcrash⟩ := resolve_eq_crash_iff.mpr ⟨items, v, hset, hv, hroom⟩
        rw [exec_loadOptions_configured hconfigured, hcrash] at hrun
        cases hrun
      obtain ⟨depth, hdepth, -, hoptions⟩ :=
        (exec_loadOptions_precedence hconfigured).2 hshown
      obtain rfl : depth = 1 := hdepth.eq_of_given
      obtain ⟨o, ho, -, hstandalone, hlang, hempty, sheets, hsheets, hcss⟩ := hoptions (by decide)
      rw [hrun] at ho
      cases ho
      have hcss : ["a.css", "True"] ++ ["b.css"] = sheets ++ ["b.css"] := hcss
      obtain rfl := List.append_cancel_right hcss
      refine ⟨hrun, config, hconfigured, hstandalone, hlang, fun h => ?_, hsheets⟩
      exact absurd h.eq_of_given (by decide)

/-- A stylesheet with too many digits. -/
example : Interpreter.textOf {} (.integer (10 ^ 4300)) = .error .digits := by decide +kernel

/-- An empty language on the command line leaves the configured one in place. -/
theorem empty_language_is_ignored :
    let s := Machine.ofFile configName "[html]\nlang = \"de\"\n".toUTF8 1
    Request.parse ["doc.tx", "--lang", ""] = .ok { input := "doc.tx", lang := some "" } ∧
      (s.exec (loadOptions { input := "doc.tx", lang := some "" })).1 =
        .ok { input := .ofString "doc.tx", html := ⟨true, some "de", []⟩ } := by
  decide +kernel

end options

end Markup.Cli
