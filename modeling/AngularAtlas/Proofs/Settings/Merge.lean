import AngularAtlas.Proofs.Distinct
import AngularAtlas.Proofs.Settings.Layers

namespace AngularAtlas

section Extend

variable {names more : List String} {name : String}

theorem extend_concat_of_mem (known : name ∈ extend names more) :
    extend names (more ++ [name]) = extend names more := by
  rw [extend, List.foldl_concat]
  exact if_pos (List.contains_iff_mem.2 known)

theorem extend_concat_of_not_mem (new : name ∉ extend names more) :
    extend names (more ++ [name]) = extend names more ++ [name] := by
  rw [extend, List.foldl_concat]
  exact if_neg fun known => new (List.contains_iff_mem.1 known)

theorem extend_of_subset (known : more ⊆ names) : extend names more = names := by
  induction more using List.reverseRecOn with
  | nil => rfl
  | append_singleton more name ih =>
    obtain ⟨before, last⟩ := List.append_subset.1 known
    have listed : name ∈ extend names more := by
      rw [ih before]
      exact last (List.mem_singleton_self name)
    rw [extend_concat_of_mem listed, ih before]

theorem extend_eq_self_iff : extend names more = names ↔ more ⊆ names := by
  refine ⟨fun same name listed => ?_, extend_of_subset⟩
  rw [← same]
  exact mem_extend.2 (.inr listed)

theorem extend_extend (names more further : List String) :
    extend (extend names more) further = extend names (extend more further) := by
  induction further using List.reverseRecOn with
  | nil => rfl
  | append_singleton further name ih =>
    by_cases known : name ∈ extend more further
    · have listed : name ∈ extend (extend names more) further := by
        rw [ih]
        exact mem_extend.2 (.inr known)
      rw [extend_concat_of_mem known, extend_concat_of_mem listed, ih]
    · rw [extend_concat_of_not_mem known]
      by_cases listed : name ∈ extend (extend names more) further
      · rw [extend_concat_of_mem listed, extend_concat_of_mem (ih ▸ listed), ih]
      · rw [extend_concat_of_not_mem listed, extend_concat_of_not_mem (ih ▸ listed), ih]

theorem extend_eraseDups (names more : List String) :
    extend names.eraseDups more = (names ++ more).eraseDups := by
  induction more using List.reverseRecOn with
  | nil => rw [List.append_nil]; rfl
  | append_singleton more name ih =>
    have listed : name ∈ extend names.eraseDups more ↔ name ∈ names ++ more := by
      rw [ih, List.mem_eraseDups]
    rw [← List.append_assoc]
    by_cases known : name ∈ names ++ more
    · rw [extend_concat_of_mem (listed.2 known), eraseDups_concat_of_mem known, ih]
    · rw [extend_concat_of_not_mem (mt listed.1 known), eraseDups_concat_of_not_mem known, ih]

end Extend

namespace Settings

theorem laidOver_laidOver (upper middle lower : Settings) :
    upper.laidOver (middle.laidOver lower) = (upper.laidOver middle).laidOver lower := by
  have text : ∀ key, (upper.laidOver (middle.laidOver lower)).text key =
      ((upper.laidOver middle).laidOver lower).text key := by
    intro key
    by_cases hu : upper.text key = key.builtin <;> simp [laidOver, hu]
  have format : (upper.laidOver (middle.laidOver lower)).logFormat =
      ((upper.laidOver middle).laidOver lower).logFormat := by
    by_cases hu : upper.logFormat = .text <;> simp [laidOver, hu]
  have excludes : (upper.laidOver (middle.laidOver lower)).excludes =
      ((upper.laidOver middle).laidOver lower).excludes := extend_extend ..
  exact mk.injEq .. |>.mpr
    ⟨excludes, Option.or_assoc.symm, funext text, Option.or_assoc.symm, format⟩

theorem laidOver_builtin (s : Settings) : { s.laidOver {} with excludes := s.excludes } = s := by
  have text : ∀ key, (s.laidOver {}).text key = s.text key := by
    intro key
    simp only [laidOver]
    split
    case isTrue h => exact h.symm
    case isFalse => rfl
  have format : (s.laidOver {}).logFormat = s.logFormat := by
    cases h : s.logFormat <;> simp [laidOver, h]
  exact mk.injEq .. |>.mpr ⟨rfl, Option.or_none, funext text, Option.or_none, format⟩

theorem excludes_override (s : Settings) (o : Overrides) :
    (s.override o).excludes = extend s.excludes o.excludes := by
  cases h : o.logLevel <;> simp [override, h, setText]

theorem setText_setText (s : Settings) (key : TextKey) (first second : String) :
    (s.setText key first).setText key second = s.setText key second := by
  have text : ∀ k, ((s.setText key first).setText key second).text k =
      (s.setText key second).text k := by
    intro k
    by_cases h : k = key <;> simp [setText, h]
  exact mk.injEq .. |>.mpr ⟨rfl, rfl, funext text, rfl, rfl⟩

theorem override_override (s : Settings) (o : Overrides) :
    (s.override o).override o = s.override o := by
  have excludes : extend (extend s.excludes o.excludes) o.excludes =
      extend s.excludes o.excludes :=
    extend_of_subset fun name listed => mem_extend.2 (.inr listed)
  cases level : o.logLevel with
  | none => simp [override, level, excludes, ← Option.or_assoc]
  | some text =>
    have again := setText_setText { s with
      excludes := extend s.excludes o.excludes
      maxLabelLength := o.maxLabelLength.or s.maxLabelLength
      directory := o.directory.or s.directory } .logLevel text text
    simpa [override, level, setText, excludes, ← Option.or_assoc] using again

variable {t : FileTree} {path : String} {s : Settings}

/-- The names to pass over that a file lists; there are none without a file, and none if its
document does not give any. -/
inductive Lists (t : FileTree) (path : String) : List String → Prop
  | missing : t.pathExists path = false → Lists t path []
  | silent {entries : Toml.Entries} : IsDocument t path entries →
      Setting.excludes.given? entries = none → Lists t path []
  | given {entries : Toml.Entries} {value : Toml.Value} {names : List String} :
      IsDocument t path entries → Setting.excludes.given? entries = some value →
      Setting.excludes.meaning? value = some (.names names) → Lists t path names

/-- A file was read when there is a document in it. -/
theorem exists_isDocument (read : readIfPresent t path = .ok (some s)) :
    ∃ entries, IsDocument t path entries ∧ ofEntries? entries = some s := by
  rw [readIfPresent] at read
  split at read
  case isFalse => cases read
  case isTrue present =>
    rw [readFile] at read
    cases ht : t.readText path with
    | error => rw [ht] at read; cases read
    | ok text =>
      rw [ht] at read
      cases hp : Toml.document? text with
      | none => simp [ofToml?, hp, Except.map] at read
      | some entries =>
        have settings : ofToml? text = ofEntries? entries := by
          rw [ofToml?, hp]
          rfl
        cases hs : ofEntries? entries with
        | none => simp [settings, hs, Except.map] at read
        | some s' =>
          simp only [settings, hs, Except.map, Except.ok.injEq, Option.some.injEq] at read
          exact ⟨entries, ⟨present, text, ht, hp⟩, read ▸ hs⟩

theorem pathExists_of_readIfPresent (read : readIfPresent t path = .ok none) :
    t.pathExists path = false := by
  rw [readIfPresent] at read
  split at read
  case isFalse missing => exact Bool.eq_false_iff.2 missing
  case isTrue =>
    cases h : readFile t path <;> simp [h, Except.map] at read

/-- What a file adds to the names below it. -/
def fileNames : Option Settings → List String
  | none => []
  | some s => s.excludes

/-- Layers have the built-in names and those of all files, each once. -/
theorem excludes_layered (files : List (Option Settings)) :
    (layered files).excludes = (defaultExcludes ++ files.flatMap fileNames).eraseDups := by
  induction files using List.reverseRecOn with
  | nil => decide
  | append_singleton files file ih =>
    rw [List.flatMap_append, List.flatMap_singleton, ← List.append_assoc, ← extend_eraseDups, ← ih,
      layered, List.foldl_concat]
    cases file with
    | none => rfl
    | some upper => rfl

theorem eraseDups_append_known {names known more : List String} (h : known ⊆ names) :
    (names ++ known ++ more).eraseDups = (names ++ more).eraseDups := by
  have nothing : extend names.eraseDups known = names.eraseDups :=
    extend_of_subset fun name listed => List.mem_eraseDups.2 (h listed)
  rw [← extend_eraseDups, ← extend_eraseDups, ← extend_eraseDups, nothing]

/-- What a file that was read adds are the names that it lists. Where it does not list any, its
settings have the built-in ones, which are there already. -/
theorem exists_lists {file : Option Settings} (read : readIfPresent t path = .ok file) :
    ∃ names, Lists t path names ∧ ∀ before after,
      (defaultExcludes ++ before ++ fileNames file ++ after).eraseDups =
        (defaultExcludes ++ before ++ names ++ after).eraseDups := by
  cases file with
  | none => exact ⟨[], .missing (pathExists_of_readIfPresent read), fun _ _ => rfl⟩
  | some s =>
    obtain ⟨entries, document, settings⟩ := exists_isDocument read
    have turns := turns_ofEntries? settings .excludes
    cases given : Setting.excludes.given? entries with
    | none =>
      rw [given] at turns
      have builtin : s.excludes = defaultExcludes := SettingValue.names.inj turns
      refine ⟨[], .silent document given, fun before after => ?_⟩
      rw [fileNames, builtin, List.append_nil]
      exact eraseDups_append_known (List.subset_append_left ..)
    | some value =>
      rw [given] at turns
      exact ⟨s.excludes, .given document given turns, fun _ _ => rfl⟩

end Settings

namespace UserSettings

variable {u : UserSettings} {t : FileTree} {workspace : String} {o : Overrides} {s : Settings}

/-- The names that the user's settings list: those of the file, unless the settings are known
from before. -/
def Lists (u : UserSettings) (t : FileTree) (names : List String) : Prop :=
  match u.known with
  | some s => names = s.excludes
  | none => Settings.Lists t u.path names

theorem load_of_readIfPresent (fresh : u.known = none) {file : Option Settings}
    (read : Settings.readIfPresent t u.path = .ok file) : (u.load t).1 = .ok file := by
  simp only [load, fresh, read]

theorem readIfPresent_of_load (fresh : u.known = none) {file : Option Settings}
    (read : (u.load t).1 = .ok file) : Settings.readIfPresent t u.path = .ok file := by
  rw [load, fresh] at read
  cases h : Settings.readIfPresent t u.path with
  | error => simp [h] at read
  | ok found => simpa [h] using read

theorem exists_lists_of_load {file : Option Settings} (read : (u.load t).1 = .ok file) :
    ∃ names, u.Lists t names ∧ ∀ before after,
      (defaultExcludes ++ before ++ Settings.fileNames file ++ after).eraseDups =
        (defaultExcludes ++ before ++ names ++ after).eraseDups := by
  cases known : u.known with
  | some s =>
    rw [load, known] at read
    obtain rfl := Except.ok.inj read
    refine ⟨s.excludes, ?_, fun _ _ => rfl⟩
    rw [Lists, known]
  | none =>
    obtain ⟨names, listed, added⟩ := Settings.exists_lists (readIfPresent_of_load known read)
    refine ⟨names, ?_, added⟩
    rw [Lists, known]
    exact listed

theorem exists_of_loadFor_eq_ok (loaded : (u.loadFor t workspace o).1 = .ok s) :
    ∃ own there, (u.load t).1 = .ok own ∧ Settings.loadLocal t workspace = .ok there ∧
      s = (Settings.layered [own, there]).override o := by
  have steps : (do
      let own ← (u.load t).1
      let there ← Settings.loadLocal t workspace
      Settings.finish (Settings.layered [own, there]) o) = .ok s := loaded
  cases own : (u.load t).1 with
  | error => rw [own] at steps; cases steps
  | ok mine =>
    cases there : Settings.loadLocal t workspace with
    | error => rw [own, there] at steps; cases steps
    | ok theirs =>
      rw [own, there] at steps
      have finished : Settings.finish (Settings.layered [mine, theirs]) o = .ok s := steps
      refine ⟨mine, theirs, rfl, rfl, ?_⟩
      rw [Settings.finish] at finished
      cases valid : ((Settings.layered [mine, theirs]).override o).validate with
      | error => simp [valid] at finished
      | ok => simpa [valid] using finished.symm

/-- Which of three layers are joined first does not matter, the built-in layer changes nothing
but the excluded names, and the names in effect are all that are listed anywhere, each in the
place where it comes up first. What the command line says changes nothing a second time. -/
theorem layers_add_up :
    (∀ upper middle lower : Settings,
      upper.laidOver (middle.laidOver lower) = (upper.laidOver middle).laidOver lower) ∧
    (∀ s : Settings, { s.laidOver {} with excludes := s.excludes } = s) ∧
    ∀ (u : UserSettings) (t : FileTree) (workspace : String) (o : Overrides) (s : Settings),
      (u.loadFor t workspace o).1 = .ok s →
      s.excludes.Nodup ∧
      (∃ own there, u.Lists t own ∧ Settings.Lists t (Settings.localPath workspace) there ∧
        s.excludes = (defaultExcludes ++ own ++ there ++ o.excludes).eraseDups) ∧
      s.override o = s := by
  refine ⟨Settings.laidOver_laidOver, Settings.laidOver_builtin, ?_⟩
  intro u t workspace o s loaded
  obtain ⟨mine, theirs, hm, ht, rfl⟩ := exists_of_loadFor_eq_ok loaded
  obtain ⟨own, ownListed, ownAdded⟩ := exists_lists_of_load hm
  obtain ⟨there, thereListed, thereAdded⟩ := Settings.exists_lists ht
  have names : ((Settings.layered [mine, theirs]).override o).excludes =
      (defaultExcludes ++ own ++ there ++ o.excludes).eraseDups := by
    have first := ownAdded [] (Settings.fileNames theirs ++ o.excludes)
    have second := thereAdded own o.excludes
    rw [Settings.excludes_override, Settings.excludes_layered, extend_eraseDups]
    simp only [List.append_nil, List.append_assoc] at first second
    simp only [List.flatMap_cons, List.flatMap_nil, List.append_nil, List.append_assoc]
    rw [first, second]
  refine ⟨?_, ⟨own, there, ownListed, thereListed, names⟩, Settings.override_override _ o⟩
  rw [names]
  exact nodup_eraseDups _

def userListText : String := "[scan]\nexclude_directories = [\"e2e\", \"dist\"]\n"

def workspaceListText : String := "[scan]\nexclude_directories = [\"docs\", \"e2e\"]\n"

def listEntries (names : List String) : Toml.Entries :=
  [("scan", .table .header [("exclude_directories", .array (names.map .text))])]

def listStatements (names : List String) : List Toml.Statement :=
  [.table ["scan"], .assignment ["exclude_directories"] (.array (names.map .text))]

def listTree : FileTree where
  root := .directory [
    ("home", .directory [(".ngmap", .directory [("config.toml", .file userListText.toUTF8)])]),
    ("ws", .directory [(".ngmap", .directory [("config.toml", .file workspaceListText.toUTF8)])])]

theorem isDocument_listUser :
    Settings.IsDocument listTree loudUser.path (listEntries ["e2e", "dist"]) := by
  have : listTree.Holds loudUser.path ["home", ".ngmap", "config.toml"] userListText.toUTF8 :=
    ⟨by decide +kernel, by decide +kernel, by decide, by decide +kernel, rfl⟩
  have read : Toml.statements? userListText.toList =
      some (listStatements ["e2e", "dist"]) := by
    cbv
  exact ⟨this.pathExists_eq, _, this.readText_eq, Toml.document?_of_statements? read⟩

theorem isDocument_listWorkspace :
    Settings.IsDocument listTree (Settings.localPath "/ws") (listEntries ["docs", "e2e"]) := by
  have : listTree.Holds (Settings.localPath "/ws") ["ws", ".ngmap", "config.toml"]
      workspaceListText.toUTF8 :=
    ⟨by decide +kernel, by decide +kernel, by decide, by decide +kernel, rfl⟩
  have read : Toml.statements? workspaceListText.toList =
      some (listStatements ["docs", "e2e"]) := by
    cbv
  exact ⟨this.pathExists_eq, _, this.readText_eq, Toml.document?_of_statements? read⟩

theorem layers_add_up_listUser :
    ∃ s, (loudUser.loadFor listTree "/ws" { excludes := ["tmp", "docs"] }).1 = .ok s ∧
      s.excludes = defaultExcludes ++ ["e2e", "docs", "tmp"] ∧ s.excludes.Nodup ∧
      (∃ own there, loudUser.Lists listTree own ∧
        Settings.Lists listTree (Settings.localPath "/ws") there ∧
        s.excludes = (defaultExcludes ++ own ++ there ++ ["tmp", "docs"]).eraseDups) ∧
      s.override { excludes := ["tmp", "docs"] } = s := by
  have user : Settings.ofEntries? (listEntries ["e2e", "dist"]) =
      some { excludes := ["e2e", "dist"] } := rfl
  have workspace : Settings.ofEntries? (listEntries ["docs", "e2e"]) =
      some { excludes := ["docs", "e2e"] } := rfl
  have loads : ∃ s, (loudUser.loadFor listTree "/ws" { excludes := ["tmp", "docs"] }).1 = .ok s ∧
      s.excludes = defaultExcludes ++ ["e2e", "docs", "tmp"] := by
    rw [loadFor_eq rfl isDocument_listUser isDocument_listWorkspace user workspace]
    exact ⟨_, rfl, by decide⟩
  obtain ⟨s, loaded, names⟩ := loads
  obtain ⟨-, -, law⟩ := layers_add_up
  exact ⟨s, loaded, names, law loudUser listTree "/ws" { excludes := ["tmp", "docs"] } s loaded⟩

end UserSettings

end AngularAtlas
