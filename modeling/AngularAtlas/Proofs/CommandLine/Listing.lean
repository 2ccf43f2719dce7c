import AngularAtlas.CommandLine.Program
import AngularAtlas.Proofs.CommandLine.Run
import AngularAtlas.Proofs.Settings.Sources

/-!
The listing of settings. The settings in effect are loaded first, and then the files are loaded
once more without the command line, to see where each value comes from. Main statement: when the
first succeeds, the values in effect are listed, unless the files have a length of labels or a
level of logging that only the command line makes usable; then nothing is listed.
-/

namespace AngularAtlas.CommandLine

open Run

variable {env : Environment} {options : CommonOptions} {root : Location} {session after : Session}
  {t : FileTree} {s : Settings} {files : List (Origin × Settings)} {asJson : Bool} {task : Task}

/-- The settings files that count, the uppermost first. A file that the options name comes with
the built-in settings under it. -/
def settingsFiles (env : Environment) (options : CommonOptions) (t : FileTree) (root : Location) :
    Except SettingsError (List (Origin × Settings)) :=
  match options.settingsFile with
  | some path => do return [(.file, (← Settings.readFile t path).laidOver {})]
  | none => do
    let own ← (env.userSettings.load t).1
    let there ← Settings.loadLocal t root.path
    return (there.map (Origin.workspace, ·)).toList ++ (own.map (Origin.user, ·)).toList

theorem settingsFiles_cases (read : settingsFiles env options t root = .ok files) :
    (∃ path s, options.settingsFile = some path ∧ Settings.readFile t path = .ok s ∧
      files = [(.file, s.laidOver {})]) ∨
    options.settingsFile = none ∧ ∃ own there, (env.userSettings.load t).1 = .ok own ∧
      Settings.loadLocal t root.path = .ok there ∧
      files = (there.map (Origin.workspace, ·)).toList ++ (own.map (Origin.user, ·)).toList := by
  rw [settingsFiles] at read
  cases named : options.settingsFile with
  | some path =>
    rw [named] at read
    obtain ⟨s, file, rest⟩ := exists_of_bind_eq_ok read
    exact .inl ⟨path, s, rfl, file, (Except.ok.inj rest).symm⟩
  | none =>
    rw [named] at read
    obtain ⟨own, user, rest⟩ := exists_of_bind_eq_ok read
    obtain ⟨there, workspace, rest⟩ := exists_of_bind_eq_ok rest
    exact .inr ⟨rfl, own, there, user, workspace, (Except.ok.inj rest).symm⟩

theorem settingsFiles_of_no_user (unnamed : options.settingsFile = none)
    (missing : t.pathExists env.userSettings.path = false) {there : Option Settings}
    (workspace : Settings.loadLocal t root.path = .ok there) :
    settingsFiles env options t root = .ok (there.map (Origin.workspace, ·)).toList := by
  have user : (env.userSettings.load t).1 = .ok none := by
    refine UserSettings.load_of_readIfPresent rfl ?_
    rw [Settings.readIfPresent, missing]
    rfl
  simp only [settingsFiles, unnamed, user, workspace, bind, Except.bind, pure, Except.pure,
    Option.map_none, Option.toList_none, List.append_nil]

theorem combine_file (s : Settings) :
    Settings.combine [(.file, s.laidOver {})] = Settings.layered [some s] :=
  s.laidOver_builtin_twice

/-- The failure to load settings. -/
def loadFailure (options : CommonOptions) : SettingsError → Failure :=
  match options.settingsFile with
  | some path => settingsFileFailure path
  | none => settingsFailure "Failed to load configuration"

theorem run_loadSettings (env : Environment) (options : CommonOptions) (root : Location)
    (session : Session) :
    (loadSettings env options root).run session =
      ((settingsFiles env options session.tree root >>= fun files =>
        (Settings.combine files).finish options.overrides).mapError (loadFailure options),
        session) := by
  rw [loadSettings, run_bind_of_ok (run_tree session), settingsFiles, loadFailure]
  cases options.settingsFile with
  | some path =>
    simp only [run_orFail, Settings.loadFile]
    cases Settings.readFile session.tree path with
    | error => rfl
    | ok read =>
      have together := combine_file read
      simp only [bind, Except.bind, pure, Except.pure, together]
  | none =>
    simp only [run_orFail, UserSettings.loadFor]
    cases (env.userSettings.load session.tree).1 with
    | error => rfl
    | ok own =>
      cases Settings.loadLocal session.tree root.path with
      | error => rfl
      | ok there =>
        have together := Settings.layered_eq_combine own there
        simp only [bind, Except.bind, pure, Except.pure, together]

theorem run_loadSettings_of_valid (session : Session)
    (read : settingsFiles env options session.tree root = .ok files)
    (valid : ((Settings.combine files).override options.overrides).validate = .ok ()) :
    (loadSettings env options root).run session =
      (.ok ((Settings.combine files).override options.overrides), session) := by
  have finished := Settings.finish_eq_ok_iff.2 ⟨rfl, Settings.validate_eq_ok_iff.1 valid⟩
  rw [run_loadSettings, read]
  exact congrArg (fun result => (Except.mapError (loadFailure options) result, session)) finished

theorem exists_of_run_loadSettings
    (loaded : (loadSettings env options root).run session = (.ok s, after)) :
    after = session ∧ ∃ files, settingsFiles env options session.tree root = .ok files ∧
      (Settings.combine files).finish options.overrides = .ok s := by
  rw [run_loadSettings] at loaded
  obtain ⟨result, rfl⟩ := Prod.mk.inj loaded
  exact ⟨rfl, exists_of_bind_eq_ok (eq_ok_of_mapError result)⟩

/-- The failure to load the files once more. -/
def layersFailure (options : CommonOptions) : SettingsError → Failure :=
  match options.settingsFile with
  | some path => settingsFileFailure path
  | none => plainFailure

theorem run_loadLayers (session : Session)
    (read : settingsFiles env options session.tree root = .ok files) :
    (loadLayers env options root).run session =
      ((((Settings.combine files).finish {}).map (SettingsLayers.mk files)).mapError
        (layersFailure options), session) := by
  rw [loadLayers, run_bind_of_ok (run_tree session), layersFailure]
  rcases settingsFiles_cases read with
    ⟨path, s, named, file, rfl⟩ | ⟨named, own, there, user, workspace, rfl⟩
  · simp only [named, run_orFail, combine_file, SettingsLayers.ofFile, Settings.loadFile, file]
    cases finished : (Settings.layered [some s]).finish {} with
    | error => simp only [bind, Except.bind, finished, Except.map]
    | ok combined =>
      obtain rfl : combined = s.laidOver {} := Settings.eq_of_finish_empty finished
      simp only [bind, Except.bind, pure, Except.pure, finished, Except.map]
  · simp only [named, run_orFail, SettingsLayers.ofWorkspace, workspace, user,
      UserSettings.loadFor, ← Settings.layered_eq_combine]
    cases finished : (Settings.layered [own, there]).finish {} with
    | error => simp only [bind, Except.bind, finished, Except.map]
    | ok combined => simp only [bind, Except.bind, pure, Except.pure, finished, Except.map]

theorem run_loadLayers_of_valid (session : Session)
    (read : settingsFiles env options session.tree root = .ok files)
    (valid : (Settings.combine files).Valid) :
    (loadLayers env options root).run session =
      (.ok ⟨files, Settings.combine files⟩, session) := by
  have finished : (Settings.combine files).finish {} = .ok (Settings.combine files) :=
    Settings.finish_eq_ok_iff.2 ⟨rfl, valid⟩
  rw [run_loadLayers session read, finished]
  rfl

theorem run_loadLayers_of_invalid (session : Session)
    (read : settingsFiles env options session.tree root = .ok files) {cause : InvalidSetting}
    (invalid : (Settings.combine files).validate = .error cause) :
    (loadLayers env options root).run session =
      (.error (layersFailure options (.invalid cause)), session) := by
  have finished : (Settings.combine files).finish {} = .error (.invalid cause) := by
    rw [Settings.finish, Settings.override_empty, invalid]
  rw [run_loadLayers session read, finished]
  rfl

theorem run_workspaceRoot (options : CommonOptions) (session : Session) :
    ((workspaceRoot options).run session).2 = session := by
  rw [workspaceRoot, run_bind_of_ok (run_tree session)]
  split
  · split <;> rfl
  · split <;> rfl

theorem run_workspaceRoot_of_locate (unnamed : options.workspace = none) {entry : Entry}
    (located : t.locate t.workingDirectory = .ok (root, entry)) :
    (workspaceRoot options).run ⟨t, "", ""⟩ = (.ok root, ⟨t, "", ""⟩) := by
  rw [workspaceRoot, run_bind_of_ok (run_tree _)]
  simp only [unnamed, located]
  rfl

/-- What a command that succeeds starts with. -/
theorem exists_of_run_start {α : Type} {next : Location → Settings → Run α} {a : α}
    (ran : (workspaceRoot options >>= fun root => loadSettings env options root >>= next root).run
      session = (.ok a, after)) :
    ∃ root s, (workspaceRoot options).run session = (.ok root, session) ∧
      (loadSettings env options root).run session = (.ok s, session) ∧
      (next root s).run session = (.ok a, after) := by
  obtain ⟨root, middle, located, later⟩ := exists_of_run_bind ran
  obtain rfl : session = middle := by
    rw [← run_workspaceRoot options session, located]
  obtain ⟨s, last, loaded, rest⟩ := exists_of_run_bind later
  obtain ⟨rfl, -⟩ := exists_of_run_loadSettings loaded
  exact ⟨root, s, located, loaded, rest⟩

/-- A command can start: its workspace is there, and the settings in effect for it can be used. -/
def Starts (env : Environment) (options : CommonOptions) (t : FileTree) (task : Task) : Prop :=
  ∃ session, (Task.ofOptions env options).run ⟨t, "", ""⟩ = (.ok task, session)

theorem starts_of_steps
    (located : (workspaceRoot options).run ⟨t, "", ""⟩ = (.ok root, ⟨t, "", ""⟩))
    (loaded : (loadSettings env options root).run ⟨t, "", ""⟩ = (.ok s, ⟨t, "", ""⟩)) :
    Starts env options t ⟨root, s, options.isQuiet⟩ := by
  refine ⟨⟨t, "", ""⟩, ?_⟩
  rw [Task.ofOptions, run_bind_of_ok located, run_bind_of_ok loaded]
  rfl

theorem Starts.steps (starts : Starts env options t task) :
    (workspaceRoot options).run ⟨t, "", ""⟩ = (.ok task.root, ⟨t, "", ""⟩) ∧
      (loadSettings env options task.root).run ⟨t, "", ""⟩ =
        (.ok task.settings, ⟨t, "", ""⟩) := by
  obtain ⟨session, ran⟩ := starts
  obtain ⟨root, s, located, loaded, ran⟩ := exists_of_run_start ran
  obtain ⟨task, -⟩ := Prod.mk.inj ran
  obtain rfl := Except.ok.inj task
  exact ⟨located, loaded⟩

theorem Starts.unique {other : Task} (starts : Starts env options t task)
    (starts' : Starts env options t other) : task = other := by
  obtain ⟨session, ran⟩ := starts
  obtain ⟨session', ran'⟩ := starts'
  exact Except.ok.inj (Prod.mk.inj (ran.symm.trans ran')).1

/-- The command that lists the settings in effect with their origins. -/
def listInvocation (options : CommonOptions) (asJson : Bool) : Invocation :=
  ⟨.settings (.list asJson false), options⟩

def listOutcome (env : Environment) (options : CommonOptions) (asJson : Bool) (t : FileTree) :
    Outcome :=
  (Request.run (listInvocation options asJson)).outcome env t

theorem run_listInvocation (env : Environment) (options : CommonOptions) (asJson : Bool) :
    (listInvocation options asJson).run env = listSettings env options asJson false := rfl

def listing (asJson : Bool) (listed : List ListedSetting) : String :=
  if asJson then (ListedSetting.json listed).pretty ++ "\n" else ListedSetting.text listed

theorem values_list (layers : SettingsLayers) (s : Settings) :
    (layers.list s).map (fun l => (l.key, l.value)) = s.json.sorted.leaves := by
  rw [SettingsLayers.list, List.map_map]
  exact List.map_id _

theorem listOutcome_of_valid (starts : Starts env options t task)
    (read : settingsFiles env options t task.root = .ok files)
    (valid : (Settings.combine files).Valid) :
    listOutcome env options asJson t =
      ⟨0, ⟨t, listing asJson
        ((SettingsLayers.mk files (Settings.combine files)).list task.settings), ""⟩⟩ := by
  obtain ⟨located, loaded⟩ := starts.steps
  have ran : ((listInvocation options asJson).run env).run ⟨t, "", ""⟩ =
      (.ok (), ⟨t, listing asJson
        ((SettingsLayers.mk files (Settings.combine files)).list task.settings), ""⟩) := by
    rw [run_listInvocation, listSettings, run_bind_of_ok located, run_bind_of_ok loaded,
      run_bind_of_ok (run_loadLayers_of_valid ⟨t, "", ""⟩ read valid)]
    cases asJson with
    | true =>
      change (printJson _).run _ = _
      rw [printJson, run_print, String.empty_append, listing, if_pos rfl]
    | false =>
      change (print _).run _ = _
      rw [run_print, String.empty_append, listing, if_neg Bool.false_ne_true]
  exact outcome_of_ok ran

theorem listOutcome_of_invalid (starts : Starts env options t task)
    (read : settingsFiles env options t task.root = .ok files) {cause : InvalidSetting}
    (invalid : (Settings.combine files).validate = .error cause) :
    listOutcome env options asJson t =
      ⟨failureCode, ⟨t, "", (layersFailure options (.invalid cause)).report⟩⟩ := by
  obtain ⟨located, loaded⟩ := starts.steps
  have ran : ((listInvocation options asJson).run env).run ⟨t, "", ""⟩ =
      (.error (layersFailure options (.invalid cause)), ⟨t, "", ""⟩) := by
    rw [run_listInvocation, listSettings, run_bind_of_ok located, run_bind_of_ok loaded]
    exact run_bind_of_error (run_loadLayers_of_invalid ⟨t, "", ""⟩ read invalid)
  rw [listOutcome, outcome_of_error ran, String.empty_append]

/-- The settings in effect are listed when they can be used, unless the files have a length of
labels or a level of logging that only the command line makes usable. Then this is reported, and
nothing is listed. -/
theorem listOutcome_of_starts (starts : Starts env options t task) (asJson : Bool) :
    ∃ files, settingsFiles env options t task.root = .ok files ∧
      task.settings = (Settings.combine files).override options.overrides ∧
      ((Settings.combine files).maxLabelLength ≠ some 0 ∧
          (Settings.combine files).HasKnownLevel →
        ∃ listed, listed.map (fun l => (l.key, l.value)) = task.settings.json.sorted.leaves ∧
          listOutcome env options asJson t = ⟨0, ⟨t, listing asJson listed, ""⟩⟩) ∧
      (¬ ((Settings.combine files).maxLabelLength ≠ some 0 ∧
          (Settings.combine files).HasKnownLevel) →
        ∃ cause, (Settings.combine files).validate = .error cause ∧
          listOutcome env options asJson t =
            ⟨failureCode, ⟨t, "", (layersFailure options (.invalid cause)).report⟩⟩) := by
  obtain ⟨-, files, read, finished⟩ := exists_of_run_loadSettings starts.steps.2
  obtain ⟨inEffect, valid⟩ := Settings.finish_eq_ok_iff.1 finished
  have usable := Settings.valid_iff_of_valid_override valid
  refine ⟨files, read, inEffect, fun alone => ?_, fun broken => ?_⟩
  · exact ⟨_, values_list _ _, listOutcome_of_valid starts read (usable.2 alone)⟩
  · cases result : (Settings.combine files).validate with
    | ok => exact absurd (usable.1 (Settings.validate_eq_ok_iff.1 result)) broken
    | error cause => exact ⟨cause, rfl, listOutcome_of_invalid starts read result⟩

def zeroLabelText : String := "[graph]\nmaximum_node_label_length = 0\n"

def zeroLabelTree : FileTree where
  root := .directory [
    ("ws", .directory [(".ngmap", .directory [("config.toml", .file zeroLabelText.toUTF8)])])]
  workingDirectory := "/ws"

def homeEnvironment : Environment where
  home := "/home"

def labelOptions : CommonOptions where
  overrides := { maxLabelLength := some 5 }

theorem exists_zeroLabel :
    ∃ s, Settings.ofToml? zeroLabelText = some s ∧ s.maxLabelLength = some 0 ∧
      ((Settings.combine [(.workspace, s)]).override labelOptions.overrides).validate =
        .ok () := by
  have facts : ((Settings.ofToml? zeroLabelText).map fun s => (s.maxLabelLength,
      ((Settings.combine [(.workspace, s)]).override labelOptions.overrides).validate)) =
        some (some 0, .ok ()) := by
    decide +kernel
  obtain ⟨s, read, both⟩ := Option.map_eq_some_iff.1 facts
  exact ⟨s, read, Prod.mk.inj both⟩

theorem settingsFiles_zeroLabel (read : Settings.ofToml? zeroLabelText = some s) :
    settingsFiles homeEnvironment labelOptions zeroLabelTree ["ws"] = .ok [(.workspace, s)] := by
  have steps : (zeroLabelTree.boundedSteps homeEnvironment.userSettings.path).toOption =
      some [.root, .name "home", .name ".ngmap", .name "config.toml"] := by
    decide +kernel
  have noUser : zeroLabelTree.pathExists homeEnvironment.userSettings.path = false :=
    FileTree.pathExists_of_missing steps rfl rfl
  have holds : zeroLabelTree.Holds (Settings.localPath (Location.path ["ws"]))
      ["ws", ".ngmap", "config.toml"] zeroLabelText.toUTF8 :=
    ⟨by decide +kernel, by decide +kernel, by decide, by decide +kernel, rfl⟩
  have workspace : Settings.loadLocal zeroLabelTree (Location.path ["ws"]) = .ok (some s) := by
    rw [Settings.loadLocal, Settings.readIfPresent, if_pos holds.pathExists_eq,
      Settings.readFile, holds.readText_eq]
    simp only [read]
    rfl
  exact settingsFiles_of_no_user rfl noUser workspace

theorem run_workspaceRoot_zeroLabel :
    (workspaceRoot labelOptions).run ⟨zeroLabelTree, "", ""⟩ =
      (.ok ["ws"], ⟨zeroLabelTree, "", ""⟩) := by
  have steps : (zeroLabelTree.boundedSteps zeroLabelTree.workingDirectory).toOption =
      some [.root, .name "ws"] := by
    decide +kernel
  exact run_workspaceRoot_of_locate rfl (FileTree.locate_of_directory steps rfl rfl)

/-- The command line gives a length for labels, so that a command can start. -/
theorem starts_zeroLabel (read : Settings.ofToml? zeroLabelText = some s)
    (valid : ((Settings.combine [(.workspace, s)]).override labelOptions.overrides).validate =
      .ok ()) :
    Starts homeEnvironment labelOptions zeroLabelTree
      ⟨["ws"], (Settings.combine [(.workspace, s)]).override labelOptions.overrides, false⟩ :=
  starts_of_steps run_workspaceRoot_zeroLabel
    (run_loadSettings_of_valid ⟨zeroLabelTree, "", ""⟩ (settingsFiles_zeroLabel read) valid)

theorem listOutcome_of_starts_zeroLabel :
    ∃ task, Starts homeEnvironment labelOptions zeroLabelTree task ∧
      task.settings.maxLabelLength = some 5 ∧
      (listOutcome homeEnvironment labelOptions false zeroLabelTree).exitCode = failureCode := by
  obtain ⟨s, read, zero, valid⟩ := exists_zeroLabel
  have starts := starts_zeroLabel read valid
  obtain ⟨files, there, inEffect, -, broken⟩ := listOutcome_of_starts starts false
  obtain rfl : files = [(.workspace, s)] :=
    Except.ok.inj (there.symm.trans (settingsFiles_zeroLabel read))
  have label : (Settings.combine [(.workspace, s)]).maxLabelLength = some 0 := by
    simp [Settings.combine, Settings.laidOver, zero]
  obtain ⟨cause, -, outcome⟩ := broken fun usable => usable.1 label
  refine ⟨_, starts, rfl, ?_⟩
  rw [outcome]

/-- What one would expect of the listing: it shows the settings in effect whenever they can be
used. -/
def ShownWhenUsable : Prop :=
  ∀ (env : Environment) (options : CommonOptions) (t : FileTree) (task : Task) (asJson : Bool),
    Starts env options t task →
    ∃ listed, listed.map (fun l => (l.key, l.value)) = task.settings.json.sorted.leaves ∧
      listOutcome env options asJson t = ⟨0, ⟨t, listing asJson listed, ""⟩⟩

theorem not_shownWhenUsable : ¬ ShownWhenUsable := by
  intro shown
  obtain ⟨s, read, zero, valid⟩ := exists_zeroLabel
  have starts := starts_zeroLabel read valid
  obtain ⟨listed, -, outcome⟩ := shown _ _ _ _ false starts
  cases result : (Settings.combine [(.workspace, s)]).validate with
  | ok =>
    refine (Settings.validate_eq_ok_iff.1 result).label ?_
    simp [Settings.combine, Settings.laidOver, zero]
  | error cause =>
    rw [listOutcome_of_invalid starts (settingsFiles_zeroLabel read) result] at outcome
    cases outcome

end AngularAtlas.CommandLine
