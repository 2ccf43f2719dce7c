import AngularAtlas.Proofs.CommandLine.Listing
import AngularAtlas.Proofs.Settings.Names

namespace AngularAtlas

theorem Json.sameItems_texts (a b : List String) :
    Json.sameItems (a.map .text) (b.map .text) = decide (a = b) := by
  induction a generalizing b with
  | nil => cases b <;> rfl
  | cons text a ih =>
    cases b with
    | nil => rfl
    | cons other b =>
      rw [List.map_cons, List.map_cons, Json.sameItems, ih, Json.same]
      simp [beq_eq_decide]

theorem Setting.same_json? (which : Setting) (a b : Settings) :
    ((which.json? a).getD .null).same ((which.json? b).getD .null) =
      decide (which.of a = which.of b) := by
  cases which with
  | excludes => simp [Setting.json?, Setting.of, Json.same, Json.sameItems_texts]
  | maxLabelLength =>
    cases ha : a.maxLabelLength <;> cases hb : b.maxLabelLength <;>
      simp [Setting.json?, Setting.of, ha, hb, Json.same, Json.Number.same, beq_eq_decide]
  | text key => simp [Setting.json?, Setting.of, Json.same, beq_eq_decide]
  | directory =>
    cases ha : a.directory <;> cases hb : b.directory <;>
      simp [Setting.json?, Setting.of, ha, hb, Json.same, beq_eq_decide]
  | logFormat =>
    cases ha : a.logFormat <;> cases hb : b.logFormat <;>
      simp [Setting.json?, Setting.of, ha, hb, Json.same, LogFormat.name]

/-- A value is the command line's if the files alone give another one; else it belongs to the file
that decides. -/
theorem SettingsLayers.originOf_eq {which : Setting} {key : String}
    (views : ∀ s, valueOf s key = (which.json? s).getD .null) (layers : SettingsLayers)
    {effective : Settings} {value : Json} (view : which.json? effective = some value) :
    layers.originOf key value =
      if which.of layers.combined = which.of effective then
        ((which.decider? layers.files).map (·.1)).getD .builtin
      else .commandLine := by
  have deviates : (fun file : Origin × Settings =>
      !(valueOf file.2 key).same (valueOf {} key)) =
      fun file => decide (which.of file.2 ≠ which.builtin) := by
    funext file
    rw [views, views, Setting.same_json?, decide_not]
    rfl
  have value : value = (which.json? effective).getD .null := by rw [view, Option.getD_some]
  rw [originOf, views, value, Setting.same_json?]
  simp only [decide_eq_true_eq, Setting.decider?]
  rw [← deviates]

namespace CommandLine

open Run

variable {env : Environment} {options : CommonOptions} {root : Location} {t : FileTree}
  {files : List (Origin × Settings)} {asJson : Bool} {which : Setting}

/-- The origin of a value in effect, by what the files and the command line say. Only a value other
than the built-in one counts as that of a file. -/
inductive ComesFrom (env : Environment) (options : CommonOptions) (t : FileTree) (root : Location)
    (which : Setting) : SettingValue → Origin → Prop
  | builtin : ComesFrom env options t root which which.builtin .builtin
  | user {value : SettingValue} : options.settingsFile = none →
      Settings.Says t env.userSettings.path which value → value ≠ which.builtin →
      Settings.Says t (Settings.localPath root.path) which which.builtin →
      ComesFrom env options t root which value .user
  | workspace {value : SettingValue} : options.settingsFile = none →
      Settings.Says t (Settings.localPath root.path) which value → value ≠ which.builtin →
      ComesFrom env options t root which value .workspace
  | file {path : String} {value : SettingValue} : options.settingsFile = some path →
      Settings.Says t path which value → value ≠ which.builtin →
      ComesFrom env options t root which value .file
  | commandLine {value : SettingValue} : which.overridden? options.overrides = some value →
      ComesFrom env options t root which value .commandLine

/-- What the files say of a setting, and the file that decides it. -/
def decided (which : Setting) (files : List (Origin × Settings)) : SettingValue × Origin :=
  (((which.decider? files).map fun file => which.of file.2).getD which.builtin,
    ((which.decider? files).map (·.1)).getD .builtin)

theorem comesFrom_user (named : options.settingsFile = none) {own : Option Settings}
    (user : (env.userSettings.load t).1 = .ok own)
    (silent : Settings.Says t (Settings.localPath root.path) which which.builtin) :
    ComesFrom env options t root which (decided which (own.map (Origin.user, ·)).toList).1
      (decided which (own.map (Origin.user, ·)).toList).2 := by
  have read := UserSettings.readIfPresent_of_load rfl user
  cases own with
  | none => exact .builtin
  | some mine =>
    rw [Option.map_some, Option.toList_some, decided, Setting.decider?_cons]
    split
    case isTrue => exact .builtin
    case isFalse other => exact .user named (Settings.says_of_readIfPresent read which) other silent

theorem comesFrom_decided (scalar : which ≠ .excludes)
    (read : settingsFiles env options t root = .ok files) :
    ComesFrom env options t root which (decided which files).1 (decided which files).2 := by
  rcases settingsFiles_cases read with
    ⟨path, s, named, file, rfl⟩ | ⟨named, own, there, user, workspace, rfl⟩
  · have said := Setting.of_laidOver_builtin scalar s
    rw [decided, Setting.decider?_cons, said]
    split
    case isTrue => exact .builtin
    case isFalse other =>
      rw [Option.map_some, Option.getD_some, said]
      exact .file named (Settings.says_of_readFile file which) other
  · have said := Settings.says_of_readIfPresent workspace which
    cases there with
    | none => exact comesFrom_user named user said
    | some theirs =>
      rw [Option.map_some, Option.toList_some, List.singleton_append, decided,
        Setting.decider?_cons]
      split
      case isTrue same =>
        rw [Option.map_some, Option.getD_some, same] at said
        exact comesFrom_user named user said
      case isFalse other => exact .workspace named said other

theorem comesFrom_originOf (scalar : which ≠ .excludes)
    (read : settingsFiles env options t root = .ok files) {key : String}
    (views : ∀ s, SettingsLayers.valueOf s key = (which.json? s).getD .null) {value : Json}
    (view : which.json? ((Settings.combine files).override options.overrides) = some value) :
    ComesFrom env options t root which
      (which.of ((Settings.combine files).override options.overrides))
      ((SettingsLayers.mk files (Settings.combine files)).originOf key value) := by
  rw [SettingsLayers.originOf_eq views _ view]
  split
  case isTrue same =>
    have alone : (decided which files).1 = which.of (Settings.combine files) :=
      (Setting.of_combine scalar files).symm
    rw [← same, ← alone]
    exact comesFrom_decided scalar read
  case isFalse changed =>
    rw [Setting.of_override scalar] at changed ⊢
    cases given : which.overridden? options.overrides with
    | none =>
      rw [given] at changed
      exact absurd rfl changed
    | some value => exact .commandLine given

/-- A listing that succeeds started with settings in effect, and the files can be used alone. -/
theorem exists_of_listOutcome (succeeded : (listOutcome env options asJson t).exitCode = 0) :
    ∃ task files, Starts env options t task ∧
      settingsFiles env options t task.root = .ok files ∧
      task.settings = (Settings.combine files).override options.overrides ∧
      listOutcome env options asJson t = ⟨0, ⟨t, listing asJson
        ((SettingsLayers.mk files (Settings.combine files)).list task.settings), ""⟩⟩ := by
  obtain ⟨after, ran⟩ := exists_of_exitCode succeeded
  rw [run_listInvocation] at ran
  obtain ⟨root, s, located, loaded, -⟩ := exists_of_run_start ran
  obtain ⟨-, files, read, finished⟩ := exists_of_run_loadSettings loaded
  have starts := starts_of_steps located loaded
  refine ⟨_, files, starts, read, (Settings.finish_eq_ok_iff.1 finished).1, ?_⟩
  cases result : (Settings.combine files).validate with
  | ok => exact listOutcome_of_valid starts read (Settings.validate_eq_ok_iff.1 result)
  | error cause =>
    rw [listOutcome_of_invalid starts read result] at succeeded
    cases succeeded

/-- What a listing shows are the values in effect, and each but the names to pass over is the one
that its origin gives. -/
theorem listOutcome_origins (succeeded : (listOutcome env options asJson t).exitCode = 0) :
    ∃ task listed, Starts env options t task ∧
      listOutcome env options asJson t = ⟨0, ⟨t, listing asJson listed, ""⟩⟩ ∧
      listed.map (fun l => (l.key, l.value)) = task.settings.json.sorted.leaves ∧
      ∀ l ∈ listed, l.key ≠ "scan.exclude_directories" →
        ∃ which, Setting.named? l.key = some which ∧
          which.json? task.settings = some l.value ∧
          ComesFrom env options t task.root which (which.of task.settings) l.origin := by
  obtain ⟨task, files, starts, read, inEffect, outcome⟩ := exists_of_listOutcome succeeded
  refine ⟨task, _, starts, outcome, values_list _ _, fun l mem other => ?_⟩
  obtain ⟨leaf, shown, rfl⟩ := List.mem_map.1 mem
  obtain ⟨which, named, view, list, views⟩ := Settings.exists_named_of_mem_leaves shown
  have scalar : which ≠ .excludes := fun same => other (list same)
  refine ⟨which, named, view, ?_⟩
  rw [inEffect] at view ⊢
  exact comesFrom_originOf scalar read views view

def workspaceOptions : CommonOptions where
  workspace := some "/ws"
  overrides := { maxLabelLength := some 5 }

theorem userSettings_homeEnvironment :
    homeEnvironment.userSettings = UserSettings.loudUser := by
  have directory : homeEnvironment.userSettings.directory = "/home/.ngmap" := by decide +kernel
  exact congrArg (fun path => (⟨path, none⟩ : UserSettings)) directory

def quietFiles : List (Origin × Settings) :=
  [(.workspace, Settings.setText {} .logLevel "warn"),
    (.user, Settings.setText {} .logLevel "debug")]

theorem settingsFiles_quietTree :
    settingsFiles homeEnvironment workspaceOptions UserSettings.quietTree ["ws"] =
      .ok quietFiles := by
  have user : (homeEnvironment.userSettings.load UserSettings.quietTree).1 =
      .ok (some (Settings.setText {} .logLevel "debug")) := by
    have read : Settings.readIfPresent UserSettings.quietTree UserSettings.loudUser.path =
        .ok (some (Settings.setText {} .logLevel "debug")) :=
      UserSettings.isDocument_loudUser.readIfPresent_eq
    rw [userSettings_homeEnvironment]
    exact UserSettings.load_of_readIfPresent rfl read
  have workspace : Settings.loadLocal UserSettings.quietTree (Location.path ["ws"]) =
      .ok (some (Settings.setText {} .logLevel "warn")) :=
    UserSettings.isDocument_quietWorkspace.readIfPresent_eq
  simp only [settingsFiles, workspaceOptions, user, workspace]
  rfl

theorem starts_quietTree :
    Starts homeEnvironment workspaceOptions UserSettings.quietTree
      ⟨["ws"], (Settings.combine quietFiles).override workspaceOptions.overrides, false⟩ := by
  have steps : (UserSettings.quietTree.boundedSteps "/ws").toOption =
      some [.root, .name "ws"] := by
    decide +kernel
  have directory := FileTree.locate_of_directory steps rfl rfl
  have located : (workspaceRoot workspaceOptions).run ⟨UserSettings.quietTree, "", ""⟩ =
      (.ok ["ws"], ⟨UserSettings.quietTree, "", ""⟩) := by
    rw [workspaceRoot, run_bind_of_ok (run_tree _)]
    simp only [workspaceOptions, directory]
    rfl
  have valid : ((Settings.combine quietFiles).override
      workspaceOptions.overrides).validate = .ok () := by
    decide +kernel
  exact starts_of_steps located
    (run_loadSettings_of_valid ⟨UserSettings.quietTree, "", ""⟩ settingsFiles_quietTree valid)

theorem exitCode_listOutcome_quietTree :
    (listOutcome homeEnvironment workspaceOptions false UserSettings.quietTree).exitCode = 0 := by
  have valid : (Settings.combine quietFiles).validate = .ok () := by decide +kernel
  rw [listOutcome_of_valid starts_quietTree settingsFiles_quietTree
    (Settings.validate_eq_ok_iff.1 valid)]

theorem listOutcome_origins_quietTree :
    ∃ listed, listOutcome homeEnvironment workspaceOptions false UserSettings.quietTree =
        ⟨0, ⟨UserSettings.quietTree, listing false listed, ""⟩⟩ ∧
      listed.map (fun l => (l.key, l.value)) = ((Settings.combine quietFiles).override
        workspaceOptions.overrides).json.sorted.leaves ∧
      ∀ l ∈ listed, l.key = "logging.level" → l.value = .text "debug" ∧
        ComesFrom homeEnvironment workspaceOptions UserSettings.quietTree ["ws"]
          (.text .logLevel) (.text "debug") l.origin := by
  obtain ⟨task, listed, starts, outcome, values, origins⟩ :=
    listOutcome_origins exitCode_listOutcome_quietTree
  obtain rfl := starts.unique starts_quietTree
  refine ⟨listed, outcome, values, fun l mem key => ?_⟩
  obtain ⟨which, named, view, origin⟩ := origins l mem (by rw [key]; decide)
  have level : Setting.named? "logging.level" = some (.text .logLevel) := by decide +kernel
  rw [key, level] at named
  obtain rfl := Option.some.inj named
  exact ⟨(Option.some.inj view).symm, origin⟩

end CommandLine

end AngularAtlas
