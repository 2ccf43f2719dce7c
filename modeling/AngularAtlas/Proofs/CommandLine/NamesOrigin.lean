import AngularAtlas.Proofs.CommandLine.Origins

namespace AngularAtlas

/-- The lists of names of some layers, the uppermost first. -/
abbrev NameLists := List (Origin × List String)

namespace NameLists

variable {lists : NameLists} {more : List String} {name : String}

/-- The built-in names and those of the layers, from the lowest one up. -/
def known (lists : NameLists) : List String := defaultExcludes ++ lists.reverse.flatMap (·.2)

/-- All names in effect when the command line adds some. -/
def inEffect (lists : NameLists) (more : List String) : List String :=
  (known lists ++ more).eraseDups

/-- The uppermost list that differs from the built-in one. -/
def differing? (lists : NameLists) : Option (Origin × List String) :=
  lists.find? (·.2 ≠ defaultExcludes)

/-- The origin that is shown. -/
def origin (lists : NameLists) (more : List String) : Origin :=
  if ∃ name ∈ more, name ∉ known lists then .commandLine
  else ((differing? lists).map (·.1)).getD .builtin

/-- An origin is a layer that adds a name to those in effect, and the built-in list if these are
the built-in names. -/
structure Attributes (lists : NameLists) (more : List String) (shown : Origin) : Prop where
  commandLine : shown = .commandLine → ∃ name ∈ more, name ∉ known lists
  file : ∀ list ∈ lists, shown = list.1 →
    ∃ name ∈ list.2, name ∈ inEffect lists more ∧ name ∉ defaultExcludes
  builtin : inEffect lists more = defaultExcludes → shown = .builtin

/-- The layers are files, each of which has an origin of its own. -/
structure AreFiles (lists : NameLists) : Prop where
  distinct : (lists.map (·.1)).Nodup
  ne_commandLine : ∀ list ∈ lists, list.1 ≠ .commandLine
  ne_builtin : ∀ list ∈ lists, list.1 ≠ .builtin

theorem mem_inEffect_of_mem {list : Origin × List String} (mem : list ∈ lists)
    (listed : name ∈ list.2) (more : List String) : name ∈ inEffect lists more := by
  rw [inEffect, List.mem_eraseDups]
  refine List.mem_append_left _ (List.mem_append_right _ ?_)
  exact List.mem_flatMap.2 ⟨list, List.mem_reverse.2 mem, listed⟩

theorem inEffect_ne_of_new (listed : name ∈ more) (new : name ∉ known lists) :
    inEffect lists more ≠ defaultExcludes := by
  intro same
  have mem : name ∈ inEffect lists more := List.mem_eraseDups.2 (List.mem_append_right _ listed)
  exact new (List.mem_append_left _ (same ▸ mem))

/-- The origin is a layer that adds a name exactly if the command line adds one, or if the
uppermost list that differs from the built-in one does. -/
theorem attributes_origin_iff (files : AreFiles lists) (more : List String) :
    Attributes lists more (origin lists more) ↔ (∃ name ∈ more, name ∉ known lists) ∨
      ∀ list ∈ differing? lists, ∃ name ∈ list.2, name ∉ defaultExcludes := by
  rw [origin]
  by_cases adds : ∃ name ∈ more, name ∉ known lists
  · rw [if_pos adds]
    refine iff_of_true ⟨fun _ => adds, fun list mem same => ?_, fun same => ?_⟩ (.inl adds)
    · exact absurd same.symm (files.ne_commandLine list mem)
    · obtain ⟨name, listed, new⟩ := adds
      exact absurd same (inEffect_ne_of_new listed new)
  · rw [if_neg adds, or_iff_right adds]
    cases uppermost : differing? lists with
    | none =>
      refine iff_of_true ⟨nofun, fun list mem same => ?_, fun _ => rfl⟩ nofun
      exact absurd same.symm (files.ne_builtin list mem)
    | some list =>
      have mem : list ∈ lists := List.mem_of_find?_eq_some uppermost
      rw [Option.map_some, Option.getD_some]
      constructor
      · rintro attributes _ ⟨⟩
        obtain ⟨name, listed, -, new⟩ := attributes.file list mem rfl
        exact ⟨name, listed, new⟩
      · intro all
        obtain ⟨name, listed, new⟩ := all list rfl
        refine ⟨fun same => absurd same (files.ne_commandLine list mem), fun other there same => ?_,
          fun same => ?_⟩
        · obtain rfl := List.inj_on_of_nodup_map files.distinct mem there same
          exact ⟨name, listed, mem_inEffect_of_mem mem listed more, new⟩
        · exact absurd (same ▸ mem_inEffect_of_mem mem listed more) new

end NameLists

open NameLists

namespace Settings

/-- The lists of some files. What a file does not list are the built-in names. -/
def nameLists (files : List (Origin × Settings)) : NameLists :=
  files.map fun file => (file.1, file.2.excludes)

theorem excludes_combine (files : List (Origin × Settings)) :
    (combine files).excludes = (known (nameLists files)).eraseDups := by
  induction files with
  | nil => decide
  | cons file files ih =>
    have upper : (combine (file :: files)).excludes =
        extend (combine files).excludes file.2.excludes := rfl
    rw [upper, ih, extend_eraseDups]
    simp [known, nameLists]

theorem excludes_override_combine (files : List (Origin × Settings)) (o : Overrides) :
    ((combine files).override o).excludes = inEffect (nameLists files) o.excludes := by
  rw [excludes_override, excludes_combine, extend_eraseDups, inEffect]

theorem decider?_excludes (files : List (Origin × Settings)) :
    (Setting.excludes.decider? files).map (·.1) = (differing? (nameLists files)).map (·.1) := by
  induction files with
  | nil => rfl
  | cons file files ih =>
    have names : Setting.excludes.of file.2 = Setting.excludes.builtin ↔
        file.2.excludes = defaultExcludes :=
      ⟨SettingValue.names.inj, congrArg SettingValue.names⟩
    rw [Setting.decider?_cons, nameLists, List.map_cons, differing?, List.find?_cons]
    by_cases same : file.2.excludes = defaultExcludes
    · rw [if_pos (names.2 same), ih]
      simp [same, differing?, nameLists]
    · rw [if_neg (mt names.1 same)]
      simp [same]

end Settings

theorem SettingsLayers.originOf_names {key : String}
    (views : ∀ s, valueOf s key = (Setting.excludes.json? s).getD .null)
    (files : List (Origin × Settings)) (o : Overrides) :
    (SettingsLayers.mk files (Settings.combine files)).originOf key
        (.array (((Settings.combine files).override o).excludes.map .text)) =
      origin (Settings.nameLists files) o.excludes := by
  have alone : Setting.excludes.of (Settings.combine files) =
      Setting.excludes.of ((Settings.combine files).override o) ↔
        ¬ ∃ name ∈ o.excludes, name ∉ known (Settings.nameLists files) := by
    simp only [Setting.of, SettingValue.names.injEq, Settings.excludes_override]
    rw [eq_comm, extend_eq_self_iff, List.subset_def, Settings.excludes_combine]
    simp
  rw [originOf_eq views _ rfl, Settings.decider?_excludes, origin]
  by_cases adds : ∃ name ∈ o.excludes, name ∉ known (Settings.nameLists files)
  · rw [if_pos adds, if_neg fun same => alone.1 same adds]
  · rw [if_neg adds, if_pos (alone.2 adds)]

namespace Settings

/-- The dotted name that the names to pass over stand under. -/
def namesKey : String := "scan.exclude_directories"

theorem lookup?_namesKey (s : Settings) :
    s.json.lookup? namesKey = some (.array (s.excludes.map .text)) := by
  have pieces : Json.namePieces namesKey = ["scan", "exclude_directories"] := by decide +kernel
  rw [Json.lookup?, pieces]
  rfl

theorem views_namesKey (s : Settings) :
    SettingsLayers.valueOf s namesKey = (Setting.excludes.json? s).getD .null := by
  rw [SettingsLayers.valueOf, lookup?_namesKey]
  rfl

theorem lookup?_sorted_namesKey (s : Settings) :
    s.json.sorted.lookup? namesKey = some (.array (s.excludes.map .text)) := by
  have view : Setting.excludes.json? s = some (.array (s.excludes.map .text)) := rfl
  have found := lookup?_namesKey s
  rw [Json.lookup?] at found ⊢
  rw [Json.at?_sorted, found, Option.map_some, Setting.sorted_of_json? view]

theorem listsLeaves_sorted_json (s : Settings) :
    s.json.sorted.ListsLeaves s.json.sorted.leaves :=
  (Schema.isProper_settings.proper_json? s rfl).sorted.listsLeaves id

end Settings

open Settings

/-- Of what is listed, one has the names to pass over. -/
theorem SettingsLayers.mem_list_iff (layers : SettingsLayers) (s : Settings)
    (listed : ListedSetting) : listed ∈ layers.list s ∧ listed.key = namesKey ↔
      listed = ⟨namesKey, .array (s.excludes.map .text),
        layers.originOf namesKey (.array (s.excludes.map .text))⟩ := by
  have lists := listsLeaves_sorted_json s
  have here := lookup?_sorted_namesKey s
  constructor
  · rintro ⟨mem, key⟩
    obtain ⟨⟨name, value⟩, shown, rfl⟩ := List.mem_map.1 mem
    obtain rfl : name = namesKey := key
    have value : some value = some (.array (s.excludes.map .text)) :=
      (lists.found shown).symm.trans here
    rw [Option.some.inj value]
  · rintro rfl
    exact ⟨List.mem_map.2 ⟨_, lists.complete here trivial, rfl⟩, rfl⟩

namespace CommandLine

open Run

variable {env : Environment} {options : CommonOptions} {root : Location} {t : FileTree}
  {files : List (Origin × Settings)} {asJson : Bool}

theorem areFiles_settingsFiles (read : settingsFiles env options t root = .ok files) :
    AreFiles (nameLists files) := by
  rcases settingsFiles_cases read with
    ⟨path, s, named, file, rfl⟩ | ⟨named, own, there, user, workspace, rfl⟩
  · exact ⟨by simp [nameLists], by simp [nameLists], by simp [nameLists]⟩
  · cases own <;> cases there <;>
      exact ⟨by simp [nameLists], by simp [nameLists], by simp [nameLists]⟩

/-- A file that the options name has all built-in names in front, so that its list differs from the
built-in one only if it adds a name. -/
theorem exists_new_of_differing? {path : String} (named : options.settingsFile = some path)
    (read : settingsFiles env options t root = .ok files) {list : Origin × List String}
    (differs : list ∈ differing? (nameLists files)) : ∃ name ∈ list.2, name ∉ defaultExcludes := by
  rcases settingsFiles_cases read with ⟨_, s, -, -, rfl⟩ | ⟨unnamed, -⟩
  · have ne := List.find?_some differs
    obtain rfl : list = (Origin.file, (s.laidOver {}).excludes) :=
      List.mem_singleton.1 (List.mem_of_find?_eq_some differs)
    have ne : extend defaultExcludes s.excludes ≠ defaultExcludes := of_decide_eq_true ne
    rw [Ne, extend_eq_self_iff, List.subset_def] at ne
    push Not at ne
    obtain ⟨name, listed, new⟩ := ne
    exact ⟨name, mem_extend.2 (.inr listed), new⟩
  · rw [named] at unnamed
    cases unnamed

/-- The listing has one line for the names to pass over. It has all names in effect, and its origin
is decided by the lists of the files and of the command line. This is a layer that adds a name if
the command line adds one, or if the uppermost list that differs from the built-in one does, as it
always does in a file that the options name. -/
theorem listOutcome_namesOrigin (succeeded : (listOutcome env options asJson t).exitCode = 0) :
    ∃ task files listed, Starts env options t task ∧
      settingsFiles env options t task.root = .ok files ∧
      listOutcome env options asJson t = ⟨0, ⟨t, listing asJson listed, ""⟩⟩ ∧
      task.settings.excludes = inEffect (nameLists files) options.overrides.excludes ∧
      (listed.map (·.key)).Nodup ∧
      (∀ l, l ∈ listed ∧ l.key = namesKey ↔
        l = ⟨namesKey, .array (task.settings.excludes.map .text),
          origin (nameLists files) options.overrides.excludes⟩) ∧
      (Attributes (nameLists files) options.overrides.excludes
          (origin (nameLists files) options.overrides.excludes) ↔
        (∃ name ∈ options.overrides.excludes, name ∉ known (nameLists files)) ∨
          ∀ list ∈ differing? (nameLists files), ∃ name ∈ list.2, name ∉ defaultExcludes) ∧
      (options.settingsFile ≠ none → Attributes (nameLists files) options.overrides.excludes
        (origin (nameLists files) options.overrides.excludes)) := by
  obtain ⟨task, files, starts, read, settings, outcome⟩ := exists_of_listOutcome succeeded
  have attributes := attributes_origin_iff (areFiles_settingsFiles read) options.overrides.excludes
  refine ⟨task, files, _, starts, read, outcome, ?_, ?_, fun l => ?_, attributes, fun named => ?_⟩
  · rw [settings, excludes_override_combine]
  · have keys : ((SettingsLayers.mk files (combine files)).list task.settings).map (·.key) =
        task.settings.json.sorted.leaves.map (·.1) := by
      rw [SettingsLayers.list, List.map_map]
      rfl
    rw [keys]
    exact (listsLeaves_sorted_json task.settings).once
  · rw [SettingsLayers.mem_list_iff, settings, SettingsLayers.originOf_names views_namesKey]
  · obtain ⟨path, named⟩ := Option.ne_none_iff_exists'.1 named
    exact attributes.2 (.inr fun list => exists_new_of_differing? named read)

def distText : String := "[scan]\nexclude_directories = [\"dist\"]\n"

def distTree : FileTree where
  root := .directory [
    ("ws", .directory [(".ngmap", .directory [("config.toml", .file distText.toUTF8)])])]
  workingDirectory := "/ws"

def distFiles : List (Origin × Settings) := [(.workspace, { excludes := ["dist"] })]

theorem readIfPresent_distTree :
    Settings.readIfPresent distTree (Settings.localPath "/ws") =
      .ok (some { excludes := ["dist"] }) := by
  have holds : distTree.Holds (Settings.localPath "/ws") ["ws", ".ngmap", "config.toml"]
      distText.toUTF8 :=
    ⟨by decide +kernel, by decide +kernel, by decide, by decide +kernel, rfl⟩
  have read : Toml.statements? distText.toList = some (UserSettings.listStatements ["dist"]) := by
    cbv
  have document : IsDocument distTree (Settings.localPath "/ws")
      (UserSettings.listEntries ["dist"]) :=
    ⟨holds.pathExists_eq, distText, holds.readText_eq, Toml.document?_of_statements? read⟩
  exact document.readIfPresent_eq

theorem settingsFiles_distTree :
    settingsFiles homeEnvironment {} distTree ["ws"] = .ok distFiles := by
  have steps : (distTree.boundedSteps homeEnvironment.userSettings.path).toOption =
      some [.root, .name "home", .name ".ngmap", .name "config.toml"] := by
    decide +kernel
  have noUser : distTree.pathExists homeEnvironment.userSettings.path = false :=
    FileTree.pathExists_of_missing steps rfl rfl
  have workspace : Settings.loadLocal distTree (Location.path ["ws"]) =
      .ok (some { excludes := ["dist"] }) :=
    readIfPresent_distTree
  exact settingsFiles_of_no_user rfl noUser workspace

theorem starts_distTree :
    Starts homeEnvironment {} distTree ⟨["ws"], combine distFiles, false⟩ := by
  have steps : (distTree.boundedSteps distTree.workingDirectory).toOption =
      some [.root, .name "ws"] := by
    decide +kernel
  have located : (workspaceRoot {}).run ⟨distTree, "", ""⟩ = (.ok ["ws"], ⟨distTree, "", ""⟩) :=
    run_workspaceRoot_of_locate rfl (FileTree.locate_of_directory steps rfl rfl)
  have valid : ((combine distFiles).override {}).validate = .ok () := by decide +kernel
  exact starts_of_steps located
    (run_loadSettings_of_valid ⟨distTree, "", ""⟩ settingsFiles_distTree valid)

theorem exitCode_listOutcome_distTree :
    (listOutcome homeEnvironment {} false distTree).exitCode = 0 := by
  have valid : (combine distFiles).validate = .ok () := by decide +kernel
  rw [listOutcome_of_valid starts_distTree settingsFiles_distTree (validate_eq_ok_iff.1 valid)]

theorem listOutcome_namesOrigin_distTree :
    (listOutcome homeEnvironment {} false distTree).exitCode = 0 ∧
      ∃ listed, listOutcome homeEnvironment {} false distTree =
          ⟨0, ⟨distTree, listing false listed, ""⟩⟩ ∧
        ∀ l, l ∈ listed ∧ l.key = namesKey ↔
          l = ⟨namesKey, .array (defaultExcludes.map .text), .workspace⟩ := by
  refine ⟨exitCode_listOutcome_distTree, ?_⟩
  obtain ⟨task, files, listed, starts, read, outcome, -, -, line, -⟩ :=
    listOutcome_namesOrigin exitCode_listOutcome_distTree
  obtain rfl := starts.unique starts_distTree
  obtain rfl : files = distFiles := Except.ok.inj (read.symm.trans settingsFiles_distTree)
  have names : (combine distFiles).excludes = defaultExcludes := by decide
  have shown : origin (nameLists distFiles) ({} : CommonOptions).overrides.excludes =
      .workspace := by
    decide
  refine ⟨listed, outcome, fun l => ?_⟩
  rw [line l, names, shown]

/-- What one would expect of a listing: the origin of the names to pass over is a layer that adds a
name. -/
def AttributesNames : Prop :=
  ∀ (env : Environment) (options : CommonOptions) (t : FileTree) (asJson : Bool) (task : Task)
    (files : List (Origin × Settings)),
    (listOutcome env options asJson t).exitCode = 0 → Starts env options t task →
    settingsFiles env options t task.root = .ok files →
    ∀ l ∈ (SettingsLayers.mk files (combine files)).list task.settings, l.key = namesKey →
      Attributes (nameLists files) options.overrides.excludes l.origin

theorem not_attributesNames : ¬ AttributesNames := by
  intro attributes
  obtain ⟨mem, key⟩ := (SettingsLayers.mem_list_iff (SettingsLayers.mk distFiles
    (combine distFiles)) (combine distFiles) _).2 rfl
  have wrong := attributes homeEnvironment {} distTree false _ _ exitCode_listOutcome_distTree
    starts_distTree settingsFiles_distTree _ mem key
  have names : inEffect (nameLists distFiles) [] = defaultExcludes := by decide
  have shown : (SettingsLayers.mk distFiles (combine distFiles)).originOf namesKey
      (.array ((combine distFiles).excludes.map .text)) = .workspace := by
    refine (SettingsLayers.originOf_names views_namesKey distFiles {}).trans ?_
    decide
  have builtin := wrong.builtin names
  rw [shown] at builtin
  cases builtin

end CommandLine

end AngularAtlas
