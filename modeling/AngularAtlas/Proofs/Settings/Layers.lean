import AngularAtlas.Proofs.FileTree.Reading
import AngularAtlas.Proofs.Toml.Tables
import AngularAtlas.Settings.Files

/-!
Which file a value in effect comes from. A document gives values to settings by the names of the
schema. Of two files, the upper one decides a setting that it gives a value to, unless this is the
built-in value: then what the lower file says is in effect. So a later file does not always win.
-/

namespace AngularAtlas

inductive SettingValue where
  | names (list : List String)
  | number (n : Option Nat)
  | text (s : String)
  | place (directory : Option String)
  | format (f : LogFormat)
deriving Repr, DecidableEq

namespace Setting

def of : Setting → Settings → SettingValue
  | .excludes, s => .names s.excludes
  | .maxLabelLength, s => .number s.maxLabelLength
  | .text key, s => .text (s.text key)
  | .directory, s => .place s.directory
  | .logFormat, s => .format s.logFormat

def builtin (which : Setting) : SettingValue := which.of {}

/-- What a value in a document means for a setting, if it is of the right kind. -/
def meaning? (which : Setting) (value : Toml.Value) : Option SettingValue :=
  (which.read? value {}).map which.of

theorem of_read?_self {which : Setting} {value : Toml.Value} {s s' : Settings}
    (hr : which.read? value s = some s') : which.meaning? value = some (which.of s') := by
  cases which with
  | excludes =>
    cases value with
    | array items =>
      obtain ⟨names, hn, hs⟩ := Option.bind_eq_some_iff.1 hr
      obtain rfl := Option.some.inj hs
      simp [meaning?, read?, hn, of]
    | _ => cases hr
  | maxLabelLength =>
    cases value with
    | integer n =>
      simp only [read?] at hr
      split at hr
      next nonneg =>
        obtain rfl := Option.some.inj hr
        simp [meaning?, read?, nonneg, of]
      next => cases hr
    | _ => cases hr
  | text key =>
    obtain ⟨text, ht, rfl⟩ := Option.map_eq_some_iff.1 hr
    simp [meaning?, read?, ht, of]
  | directory =>
    obtain ⟨path, hp, rfl⟩ := Option.map_eq_some_iff.1 hr
    simp [meaning?, read?, hp, of]
  | logFormat =>
    obtain ⟨format, hf, rfl⟩ := Option.map_eq_some_iff.1 hr
    simp [meaning?, read?, hf, of]

theorem of_read?_of_ne {which other : Setting} {value : Toml.Value} {s s' : Settings}
    (ne : other ≠ which) (hr : which.read? value s = some s') : other.of s' = other.of s := by
  cases which with
  | excludes =>
    cases value with
    | array items =>
      obtain ⟨names, -, hs⟩ := Option.bind_eq_some_iff.1 hr
      obtain rfl := Option.some.inj hs
      cases other <;> first | rfl | exact absurd rfl ne
    | _ => cases hr
  | maxLabelLength =>
    cases value with
    | integer n =>
      simp only [read?] at hr
      split at hr
      next =>
        obtain rfl := Option.some.inj hr
        cases other <;> first | rfl | exact absurd rfl ne
      next => cases hr
    | _ => cases hr
  | text key =>
    obtain ⟨text, -, rfl⟩ := Option.map_eq_some_iff.1 hr
    cases other with
    | text key' =>
      have : key' ≠ key := fun h => ne (congrArg _ h)
      exact congrArg SettingValue.text (s.text_setText_of_ne text this)
    | _ => rfl
  | directory =>
    obtain ⟨path, -, rfl⟩ := Option.map_eq_some_iff.1 hr
    cases other <;> first | rfl | exact absurd rfl ne
  | logFormat =>
    obtain ⟨format, -, rfl⟩ := Option.map_eq_some_iff.1 hr
    cases other <;> first | rfl | exact absurd rfl ne

end Setting

namespace Schema

mutual

/-- The value that a document gives to a setting; where there are several, the last one. -/
def given? (which : Setting) (value : Toml.Value) : Schema → Option Toml.Value
  | .setting other => if other = which then some value else none
  | .group parts =>
    match value with
    | .table _ entries => givenNamed? which entries parts
    | .array items => givenInOrder? which items parts
    | .tables elements => givenInOrder? which (elements.map (.table .header)) parts
    | _ => none

def givenNamed? (which : Setting) (entries : Toml.Entries) :
    List (String × Schema) → Option Toml.Value
  | [] => none
  | (name, part) :: parts =>
    let here := match entries.lookup name with
      | none => none
      | some value => given? which value part
    (givenNamed? which entries parts).or here

def givenInOrder? (which : Setting) (items : List Toml.Value) :
    List (String × Schema) → Option Toml.Value
  | [] => none
  | (_, part) :: parts =>
    match items with
    | [] => none
    | value :: items => (givenInOrder? which items parts).or (given? which value part)

end

end Schema

namespace Setting

def given? (which : Setting) (entries : Toml.Entries) : Option Toml.Value :=
  Schema.givenNamed? which entries Schema.settingsParts

/-- The value after a reading: what was given, or the value before it if nothing was given. -/
def Turns (which : Setting) (before : SettingValue) : Option Toml.Value → SettingValue → Prop
  | none, after => after = before
  | some value, after => which.meaning? value = some after

theorem Turns.trans {which : Setting} {m m' m'' : SettingValue} {first second : Option Toml.Value}
    (h₁ : which.Turns m first m') (h₂ : which.Turns m' second m'') :
    which.Turns m (second.or first) m'' := by
  cases second with
  | some value => exact h₂
  | none =>
    obtain rfl : m'' = m' := h₂
    exact h₁

mutual

theorem turns_read? {which : Setting} {value : Toml.Value} {s s' : Settings} {schema : Schema}
    (hr : schema.read? value s = some s') :
    which.Turns (which.of s) (schema.given? which value) (which.of s') := by
  cases schema with
  | setting other =>
    rw [Schema.read?] at hr
    rw [Schema.given?]
    by_cases h : other = which
    · rw [if_pos h]
      exact of_read?_self (h ▸ hr)
    · rw [if_neg h]
      exact of_read?_of_ne (Ne.symm h) hr
  | group parts =>
    cases value with
    | table kind entries =>
      rw [Schema.read?] at hr
      rw [Schema.given?]
      exact turns_readNamed? hr
    | array items =>
      rw [Schema.read?] at hr
      rw [Schema.given?]
      exact turns_readInOrder? hr
    | tables elements =>
      rw [Schema.read?] at hr
      rw [Schema.given?]
      exact turns_readInOrder? hr
    | moment =>
      rw [Schema.read?] at hr
      exact congrArg _ (Option.some.inj hr).symm
    | _ => simp [Schema.read?] at hr

theorem turns_readNamed? {which : Setting} {entries : Toml.Entries} {s s' : Settings}
    {parts : List (String × Schema)}
    (hr : Schema.readNamed? entries s parts = some s') :
    which.Turns (which.of s) (Schema.givenNamed? which entries parts) (which.of s') := by
  cases parts with
  | nil => exact congrArg _ (Option.some.inj hr).symm
  | cons part parts =>
    obtain ⟨name, part⟩ := part
    rw [Schema.readNamed?] at hr
    rw [Schema.givenNamed?]
    cases hl : entries.lookup name with
    | none =>
      rw [hl] at hr
      exact Turns.trans rfl (turns_readNamed? hr)
    | some value =>
      rw [hl] at hr
      obtain ⟨middle, here, later⟩ := Option.bind_eq_some_iff.1 hr
      exact Turns.trans (turns_read? here) (turns_readNamed? later)

theorem turns_readInOrder? {which : Setting} {items : List Toml.Value} {s s' : Settings}
    {parts : List (String × Schema)}
    (hr : Schema.readInOrder? items s parts = some s') :
    which.Turns (which.of s) (Schema.givenInOrder? which items parts) (which.of s') := by
  cases parts with
  | nil => exact congrArg _ (Option.some.inj hr).symm
  | cons part parts =>
    obtain ⟨name, part⟩ := part
    cases items with
    | nil => exact congrArg _ (Option.some.inj hr).symm
    | cons value items =>
      rw [Schema.readInOrder?] at hr
      obtain ⟨middle, here, later⟩ := Option.bind_eq_some_iff.1 hr
      rw [Schema.givenInOrder?]
      exact Turns.trans (turns_read? here) (turns_readInOrder? later)

end

theorem of_laidOver {which : Setting} (scalar : which ≠ .excludes) (upper lower : Settings) :
    which.of (upper.laidOver lower) =
      if which.of upper = which.builtin then which.of lower else which.of upper := by
  cases which with
  | excludes => exact absurd rfl scalar
  | maxLabelLength =>
    cases h : upper.maxLabelLength <;> simp [of, builtin, Settings.laidOver, h]
  | text key =>
    by_cases h : upper.text key = key.builtin <;> simp [of, builtin, Settings.laidOver, h]
  | directory => cases h : upper.directory <;> simp [of, builtin, Settings.laidOver, h]
  | logFormat => cases h : upper.logFormat <;> simp [of, builtin, Settings.laidOver, h]

end Setting

namespace Settings

variable {t : FileTree} {path : String} {entries own there : Toml.Entries} {s : Settings}

def ofEntries? (entries : Toml.Entries) : Option Settings :=
  Schema.readNamed? entries {} Schema.settingsParts

/-- A file has a TOML document in it. -/
def IsDocument (t : FileTree) (path : String) (entries : Toml.Entries) : Prop :=
  t.pathExists path = true ∧
    ∃ text, t.readText path = .ok text ∧ Toml.document? text = some entries

theorem IsDocument.readIfPresent_eq (hd : IsDocument t path entries) :
    readIfPresent t path =
      match ofEntries? entries with
      | none => .error (.malformed path)
      | some s => .ok (some s) := by
  obtain ⟨present, text, ht, hp⟩ := hd
  have read : ofToml? text = ofEntries? entries := by
    rw [ofToml?, hp]
    rfl
  rw [readIfPresent, if_pos present, readFile, ht]
  simp only [read]
  cases ofEntries? entries <;> rfl

theorem override_empty (s : Settings) : s.override {} = s := rfl

theorem eq_of_finish_empty {s' : Settings} (h : s.finish {} = .ok s') : s' = s := by
  rw [finish, override_empty] at h
  cases hv : s.validate with
  | error => simp [hv] at h
  | ok => simpa [hv] using h.symm

/-- What a document says of a setting, on top of the built-in value. -/
theorem turns_ofEntries? (hs : ofEntries? entries = some s) (which : Setting) :
    which.Turns which.builtin (which.given? entries) (which.of s) :=
  Setting.turns_readNamed? hs

end Settings

namespace UserSettings

variable {u : UserSettings} {t : FileTree} {workspace : String} {own there : Toml.Entries}
  {s : Settings}

theorem loadFor_eq {mine theirs : Settings} {o : Overrides} (fresh : u.known = none)
    (hu : Settings.IsDocument t u.path own)
    (hl : Settings.IsDocument t (Settings.localPath workspace) there)
    (hm : Settings.ofEntries? own = some mine) (ht : Settings.ofEntries? there = some theirs) :
    (u.loadFor t workspace o).1 = (theirs.laidOver (mine.laidOver {})).finish o := by
  have first := hu.readIfPresent_eq
  have second := hl.readIfPresent_eq
  rw [hm] at first
  rw [ht] at second
  simp only [loadFor, load, fresh, first, Settings.loadLocal, second]
  rfl

theorem exists_of_loadFor (fresh : u.known = none) (hu : Settings.IsDocument t u.path own)
    (hl : Settings.IsDocument t (Settings.localPath workspace) there)
    (loaded : (u.loadFor t workspace {}).1 = .ok s) :
    ∃ mine theirs, Settings.ofEntries? own = some mine ∧
      Settings.ofEntries? there = some theirs ∧ s = theirs.laidOver (mine.laidOver {}) := by
  have first := hu.readIfPresent_eq
  have second := hl.readIfPresent_eq
  cases hm : Settings.ofEntries? own with
  | none =>
    rw [hm] at first
    simp [loadFor, load, fresh, first, bind, Except.bind] at loaded
  | some mine =>
    cases ht : Settings.ofEntries? there with
    | none =>
      rw [hm] at first
      rw [ht] at second
      simp [loadFor, load, fresh, first, Settings.loadLocal, second, bind, Except.bind] at loaded
    | some theirs =>
      rw [loadFor_eq fresh hu hl hm ht] at loaded
      exact ⟨mine, theirs, rfl, rfl, Settings.eq_of_finish_empty loaded⟩

/-- A workspace's value is in effect unless it is the built-in one; then the user's is, as where
the workspace has none. -/
theorem loadFor_scalar (fresh : u.known = none) (hu : Settings.IsDocument t u.path own)
    (hl : Settings.IsDocument t (Settings.localPath workspace) there)
    (loaded : (u.loadFor t workspace {}).1 = .ok s) {which : Setting}
    (scalar : which ≠ .excludes) :
    (∀ value, which.given? there = some value → ∃ meant, which.meaning? value = some meant ∧
      (meant ≠ which.builtin → which.of s = meant) ∧
      (meant = which.builtin → which.Turns which.builtin (which.given? own) (which.of s))) ∧
    ∀ value, which.given? own = some value → which.given? there = none →
      which.meaning? value = some (which.of s) := by
  obtain ⟨mine, theirs, hm, ht, rfl⟩ := exists_of_loadFor fresh hu hl loaded
  have below := Settings.turns_ofEntries? hm which
  have above := Settings.turns_ofEntries? ht which
  have user : which.of (mine.laidOver {}) = which.of mine := by
    rw [Setting.of_laidOver scalar]
    split
    next h => exact h.symm
    next => rfl
  rw [Setting.of_laidOver scalar, user]
  constructor
  · intro value hv
    rw [hv] at above
    refine ⟨which.of theirs, above, ?_, ?_⟩
    · intro ne
      rw [if_neg ne]
    · intro same
      rw [if_pos same]
      exact below
  · intro value hv nothing
    rw [nothing] at above
    rw [hv] at below
    have silent : which.of theirs = which.builtin := above
    rw [if_pos silent]
    exact below

def loudText : String := "[logging]\nlevel = \"debug\"\n"

def quietText : String := "[logging]\nlevel = \"warn\"\n"

def loudUser : UserSettings where
  directory := "/home/.ngmap"

def quietTree : FileTree where
  root := .directory [
    ("home", .directory [(".ngmap", .directory [("config.toml", .file loudText.toUTF8)])]),
    ("ws", .directory [(".ngmap", .directory [("config.toml", .file quietText.toUTF8)])])]

def levelEntries (level : String) : Toml.Entries :=
  [("logging", .table .header [("level", .text level)])]

theorem isDocument_loudUser :
    Settings.IsDocument quietTree loudUser.path (levelEntries "debug") := by
  have : quietTree.Holds loudUser.path ["home", ".ngmap", "config.toml"] loudText.toUTF8 :=
    ⟨by decide +kernel, by decide +kernel, by decide, by decide +kernel, rfl⟩
  have read : Toml.statements? loudText.toList =
      some [.table ["logging"], .assignment ["level"] (.text "debug")] := by
    cbv
  exact ⟨this.pathExists_eq, loudText, this.readText_eq, Toml.document?_of_statements? read⟩

theorem isDocument_quietWorkspace :
    Settings.IsDocument quietTree (Settings.localPath "/ws") (levelEntries "warn") := by
  have : quietTree.Holds (Settings.localPath "/ws") ["ws", ".ngmap", "config.toml"]
      quietText.toUTF8 :=
    ⟨by decide +kernel, by decide +kernel, by decide, by decide +kernel, rfl⟩
  have read : Toml.statements? quietText.toList =
      some [.table ["logging"], .assignment ["level"] (.text "warn")] := by
    cbv
  exact ⟨this.pathExists_eq, quietText, this.readText_eq, Toml.document?_of_statements? read⟩

theorem exists_loadFor_loudUser :
    ∃ s, (loudUser.loadFor quietTree "/ws" {}).1 = .ok s ∧ s.text .logLevel = "debug" := by
  have user : Settings.ofEntries? (levelEntries "debug") =
      some (Settings.setText {} .logLevel "debug") := rfl
  have workspace : Settings.ofEntries? (levelEntries "warn") =
      some (Settings.setText {} .logLevel "warn") := rfl
  rw [loadFor_eq rfl isDocument_loudUser isDocument_quietWorkspace user workspace]
  exact ⟨_, rfl, rfl⟩

theorem loadFor_scalar_loudUser :
    ∃ s meant, (loudUser.loadFor quietTree "/ws" {}).1 = .ok s ∧
      (Setting.text .logLevel).given? (levelEntries "warn") = some (.text "warn") ∧
      (Setting.text .logLevel).meaning? (.text "warn") = some meant ∧
      meant = (Setting.text .logLevel).builtin ∧ (Setting.text .logLevel).of s = .text "debug" := by
  obtain ⟨s, loaded, -⟩ := exists_loadFor_loudUser
  have user : (Setting.text .logLevel).given? (levelEntries "debug") = some (.text "debug") := rfl
  obtain ⟨given, -⟩ := loadFor_scalar rfl isDocument_loudUser isDocument_quietWorkspace loaded
    (show Setting.text .logLevel ≠ .excludes by decide)
  obtain ⟨meant, means, -, same⟩ := given (.text "warn") rfl
  have level : meant = (Setting.text .logLevel).builtin := (Option.some.inj means).symm
  have inEffect := same level
  rw [user] at inEffect
  exact ⟨s, meant, loaded, rfl, means, level, (Option.some.inj inEffect).symm⟩

/-- What one would expect of layers: a value that the workspace's file gives to a setting is in
effect, and so is one that only the user's file gives. -/
def LaterWins : Prop :=
  ∀ (u : UserSettings) (t : FileTree) (workspace : String) (own there : Toml.Entries)
    (s : Settings) (which : Setting) (value : Toml.Value),
    u.known = none → Settings.IsDocument t u.path own →
    Settings.IsDocument t (Settings.localPath workspace) there →
    (u.loadFor t workspace {}).1 = .ok s → which ≠ .excludes →
    (which.given? there = some value → which.meaning? value = some (which.of s)) ∧
    (which.given? own = some value → which.given? there = none →
      which.meaning? value = some (which.of s))

theorem not_laterWins : ¬ LaterWins := by
  intro wins
  obtain ⟨s, loaded, level⟩ := exists_loadFor_loudUser
  obtain ⟨expected, -⟩ := wins loudUser quietTree "/ws" _ _ s (.text .logLevel) (.text "warn") rfl
    isDocument_loudUser isDocument_quietWorkspace loaded (by decide)
  have inEffect := expected rfl
  simp [Setting.meaning?, Setting.read?, Toml.Value.text?, Setting.of, level] at inEffect

end UserSettings

end AngularAtlas
