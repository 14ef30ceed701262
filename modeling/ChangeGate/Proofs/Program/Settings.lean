import ChangeGate.Program.Detect
import ChangeGate.Proofs.Host.Session

/-! # The settings of a run

A machine is **configured** when the configuration file of a run can be read, or when there is none
and the default settings count. The program finds exactly these settings
(**`configFor_apply`**), and looking for them changes nothing but standard error. The output key of a
run is then settled as well (**`UsesKey`**). -/

namespace ChangeGate

open CommandLine (Invocation DetectOptions)

/-! ## (1) The configuration -/

/-- The path of the configuration file of a run: the given one, or that of the file in the working
directory if it is there. -/
def Machine.configPath (w : Machine) (given : Option Text) : Option Text :=
  let candidate := Files.inside w.workdir Program.configName
  given.or (if w.tree.isFile w.cwd candidate then some candidate else none)

/-- **The settings of a run.** Without a configuration file they are the default ones; otherwise the
file is a text that gives them. -/
def Machine.Configured (w : Machine) (given : Option Text) (config : Config) : Prop :=
  match w.configPath given with
  | none => config = .default
  | some path =>
    ∃ content, w.tree.readText w.cwd path = .ok content ∧ Config.ofText content = .ok config

namespace Program

variable (w : Machine)

/-- Looking for the configuration file changes nothing. -/
theorem findConfig_apply (given : Option Text) :
    (findConfig given w.workdir : Session _) w = (w.configPath given, w) := by
  cases given with
  | some path => rfl
  | none =>
    simp only [findConfig, Machine.configPath, Session.bind_apply, Host.isFile_apply, Option.none_or]
    split <;> rfl

/-- Warnings change nothing but standard error. -/
theorem warnUnknown_apply (path : Text) (keys : List Text) :
    ∃ errors, (warnUnknown path keys : Session _) w = ((), { w with errors := errors }) := by
  induction keys generalizing w with
  | nil => exact ⟨w.errors, rfl⟩
  | cons key keys ih =>
    rw [warnUnknown, Session.bind_apply, Host.complain_apply]
    exact ih _

/-- The settings that a file gives, if it is a text that gives some. -/
theorem loadConfig_apply (path : Text) :
    ∃ errors result, (loadConfig path : Session _) w = (result, { w with errors := errors }) ∧
      (∀ config, result = .ok config ↔
        ∃ content, w.tree.readText w.cwd path = .ok content ∧ Config.ofText content = .ok config) ∧
      ∀ f, result = .error f → f.overflowed = false := by
  rw [loadConfig, Session.bind_apply, Host.readText_apply]
  dsimp only
  cases hread : w.tree.readText w.cwd path with
  | error e =>
    refine ⟨w.errors, .error (.file path e.message), rfl, by simp, ?_⟩
    rintro f ⟨⟩
    rfl
  | ok content =>
    dsimp only
    cases hconfig : Config.ofText content with
    | error fault =>
      refine ⟨w.errors, .error (.config fault.message), rfl, by simp [hconfig], ?_⟩
      rintro f ⟨⟩
      rfl
    | ok config =>
      obtain ⟨errors, hwarn⟩ := warnUnknown_apply w path (Config.unknownKeysOf content)
      refine ⟨errors, .ok config, ?_, by simp [hconfig], by simp⟩
      simp only [Session.bind_apply, hwarn, Session.pure_apply]

/-- **The program finds the settings of a run**, and looking for them changes nothing but standard
error. If there are none, the reason is no overflow. -/
theorem configFor_apply (given : Option Text) :
    ∃ errors result, (configFor given : Session _) w = (result, { w with errors := errors }) ∧
      (∀ config, result = .ok config ↔ w.Configured given config) ∧
      ∀ f, result = .error f → f.overflowed = false := by
  rw [configFor, Session.bind_apply, Host.workdir_apply, Session.bind_apply, findConfig_apply]
  unfold Machine.Configured
  dsimp only
  cases w.configPath given with
  | none => exact ⟨w.errors, .ok .default, rfl, by simp [eq_comm], by simp⟩
  | some path =>
    obtain ⟨first, hlog⟩ :=
      Host.log_apply w (.debug .detect ("loading config from ".toList ++ path))
    obtain ⟨errors, result, hload, hresult⟩ := loadConfig_apply { w with errors := first } path
    refine ⟨errors, result, ?_, hresult⟩
    simp only [Session.bind_apply, hlog, hload]

end Program

/-! ## (2) The output key -/

/-- **The output key of a run**: the given one, or else the one of the configuration if there are
settings, or else the default. -/
inductive Machine.UsesKey (w : Machine) (i : Invocation) (o : DetectOptions) : Text → Prop where
  /-- The key is given. -/
  | given {key : Text} : o.outputKey = some key → UsesKey w i o key
  /-- The settings give the key. -/
  | configured {config : Config} :
      o.outputKey = none → w.Configured i.config config → UsesKey w i o config.key
  /-- There are no settings. -/
  | unset : o.outputKey = none → (∀ config, ¬ w.Configured i.config config) →
      UsesKey w i o Action.defaultKey

/-- **The key that the program takes is the one of the run.** -/
theorem Machine.usesKey_iff {w : Machine} {i : Invocation} {o : DetectOptions}
    {result : Except Failure Config}
    (h : ∀ config, result = .ok config ↔ w.Configured i.config config) {key : Text} :
    w.UsesKey i o key ↔ key = Program.effectiveKey o.outputKey result := by
  constructor
  · intro hkey
    cases hkey with
    | given hgiven => simp [Program.effectiveKey, hgiven]
    | configured hnone hconfig =>
      rw [(h _).mpr hconfig]
      simp [Program.effectiveKey, hnone]
    | unset hnone hnever =>
      cases result with
      | ok config => exact absurd ((h config).mp rfl) (hnever config)
      | error f => simp [Program.effectiveKey, hnone]
  · rintro rfl
    cases hkey : o.outputKey with
    | some key => exact .given hkey
    | none =>
      cases result with
      | ok config => exact .configured hkey ((h config).mp rfl)
      | error f => exact .unset hkey fun config hconfig => absurd ((h config).mpr hconfig) (by simp)

end ChangeGate
