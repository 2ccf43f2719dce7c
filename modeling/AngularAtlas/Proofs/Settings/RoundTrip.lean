import AngularAtlas.Proofs.Settings.Layers
import AngularAtlas.Proofs.Settings.Names
import AngularAtlas.Proofs.Toml.Tables
import AngularAtlas.Settings.Writer

/-!
Settings written as TOML and read back. Main statement: whatever texts they have in them, settings
with a length of labels that can be written are read back as they were.
-/

namespace AngularAtlas

open Toml (Statement Draft Entries Says Writes Focus Runs IsBareKey)

variable {s : Settings} {which : Setting} {name : String} {value : Toml.Value}
  {schema : Schema} {parts : List (String × Schema)} {path : List String} {entries : Entries}

namespace Setting

/-- The value that a document gives to a setting, if it has one. -/
def toml? (s : Settings) : Setting → Option Toml.Value
  | .excludes => some (.array (s.excludes.map .text))
  | .maxLabelLength => s.maxLabelLength.map fun (n : Nat) => .integer n
  | .text key => some (.text (s.text key))
  | .directory => s.directory.map .text
  | .logFormat => some (.text s.logFormat.name)

theorem of_eq_builtin_of_toml? (h : which.toml? s = none) : which.of s = which.builtin := by
  cases which with
  | excludes | text | logFormat => cases h
  | maxLabelLength => exact congrArg SettingValue.number (Option.map_eq_none_iff.1 h)
  | directory => exact congrArg SettingValue.place (Option.map_eq_none_iff.1 h)

theorem ofName?_name (f : LogFormat) : LogFormat.ofName? f.name = some f := by
  cases f <;> rfl

theorem mapM_text? (names : List String) :
    (names.map Toml.Value.text).mapM (·.text?) = some names := by
  induction names with
  | nil => rfl
  | cons name names ih =>
    rw [List.map_cons, List.mapM_cons, ih]
    rfl

/-- The value of a setting is read back. -/
theorem exists_read?_of_toml? (h : which.toml? s = some value) (before : Settings) :
    ∃ after, which.read? value before = some after ∧ which.of after = which.of s := by
  cases which with
  | excludes =>
    obtain rfl := Option.some.inj h
    have names := mapM_text? s.excludes
    exact ⟨{ before with excludes := s.excludes }, by rw [read?, names]; rfl, rfl⟩
  | maxLabelLength =>
    obtain ⟨n, label, rfl⟩ := Option.map_eq_some_iff.1 h
    exact ⟨{ before with maxLabelLength := some n }, by simp [read?], by simp [of, label]⟩
  | text key =>
    obtain rfl := Option.some.inj h
    exact ⟨before.setText key (s.text key), rfl, by simp [of]⟩
  | directory =>
    obtain ⟨directory, set, rfl⟩ := Option.map_eq_some_iff.1 h
    exact ⟨{ before with directory := some directory }, rfl, by simp [of, set]⟩
  | logFormat =>
    obtain rfl := Option.some.inj h
    exact ⟨{ before with logFormat := s.logFormat }, by simp [read?, logFormat?, ofName?_name], rfl⟩

theorem writes_writeText (text : String) : Writes (writeText text).toList (.text text) := by
  have written := Toml.writes_quote text.toList
  rw [String.ofList_toList] at written
  rwa [writeText, String.toList_ofList]

theorem writes_writeTexts (items : List String) :
    Writes (writeTexts items).toList (.array (items.map .text)) := by
  match items with
  | [] => exact Toml.writes_nothing
  | [item] =>
    have text : (writeTexts [item]).toList = '[' :: (Toml.quote item.toList ++ [']']) := by
      simp [writeTexts]
    rw [text]
    exact Toml.writes_singleton item
  | first :: second :: items =>
    have text : (writeTexts (first :: second :: items)).toList =
        '[' :: ('\n' :: Toml.itemLines (first :: second :: items) ++ [']']) := by
      simp [writeTexts, Toml.itemLines, List.flatMap_map]
    rw [text]
    exact Toml.writes_itemLines _

end Setting

/-- The length of labels, if it is set, can be written. -/
def Settings.HasWritableLabel (s : Settings) : Prop := ∀ n ∈ s.maxLabelLength, n < Nat.pow 2 63

namespace Setting

/-- Each setting that has a value is written as this value. -/
theorem exists_write? (short : s.HasWritableLabel) (which : Setting) :
    ∃ written, which.write? s = .ok written ∧
      Option.Rel (fun text value => Writes text.toList value) written (which.toml? s) := by
  cases which with
  | excludes => exact ⟨_, rfl, .some (writes_writeTexts s.excludes)⟩
  | maxLabelLength =>
    cases label : s.maxLabelLength with
    | none => exact ⟨none, by rw [write?, label]; rfl, by rw [toml?, label]; exact .none⟩
    | some n =>
      have fits := short n label
      have digits : (toString n).toList = Nat.toDigits 10 n := Nat.toList_repr
      refine ⟨some (toString n), ?_, ?_⟩
      · simp only [write?, label, if_pos fits]
        rfl
      · rw [toml?, label]
        exact .some (digits ▸ Toml.writes_number fits)
  | text key => exact ⟨_, rfl, .some (writes_writeText (s.text key))⟩
  | directory =>
    refine ⟨_, rfl, ?_⟩
    rw [toml?]
    cases s.directory with
    | none => exact .none
    | some directory => exact .some (writes_writeText directory)
  | logFormat => exact ⟨_, rfl, .some (writes_writeText s.logFormat.name)⟩

/-- The statement that gives a setting its value, if it has one. -/
def assignment? (s : Settings) (name : String) (which : Setting) : Option Statement :=
  (which.toml? s).map (.assignment [name])

theorem exists_line (short : s.HasWritableLabel) (bare : IsBareKey name) (which : Setting) :
    ∃ line, which.line s name = .ok line ∧
      Says line.toList (which.assignment? s name).toList := by
  obtain ⟨written, write, rel⟩ := exists_write? short which
  rw [line, write, assignment?]
  generalize which.toml? s = value at rel ⊢
  cases rel with
  | none => exact ⟨"", rfl, Toml.says_nil⟩
  | some writes =>
    refine ⟨_, rfl, ?_⟩
    have text := Toml.says_assignmentLine bare writes
    simpa [Toml.assignmentLine] using text

end Setting

namespace Schema

/-- The assignments of the settings in a group. -/
def ownStatements (s : Settings) : List (String × Schema) → List Statement
  | [] => []
  | (name, .setting which) :: parts => (which.assignment? s name).toList ++ ownStatements s parts
  | (_, .group _) :: parts => ownStatements s parts

mutual

/-- The statements of each table of a group under a header. -/
def tableStatements (s : Settings) (path : List String) : Schema → List (List Statement)
  | .setting _ => []
  | .group parts => (.table path :: ownStatements s parts) :: innerStatements s path parts

def innerStatements (s : Settings) (path : List String) :
    List (String × Schema) → List (List Statement)
  | [] => []
  | (name, part) :: parts =>
    part.tableStatements s (path ++ [name]) ++ innerStatements s path parts

end

mutual

/-- All names can be written without quotes, and groups are not too deep in groups. -/
def IsWritable (depth : Nat) : Schema → Prop
  | .setting _ => True
  | .group parts => depth < Toml.maxDepth ∧ AreWritable (depth + 1) parts

def AreWritable (depth : Nat) : List (String × Schema) → Prop
  | [] => True
  | (name, part) :: parts => IsBareKey name ∧ part.IsWritable depth ∧ AreWritable depth parts

end

theorem areWritable_settingsParts : AreWritable 1 settingsParts := by
  simp [settingsParts, texts, IsWritable, AreWritable, Toml.maxDepth]
  decide

theorem exists_ownLines (short : s.HasWritableLabel) {depth : Nat}
    (writable : AreWritable depth parts) :
    ∃ lines, ownLines s parts = .ok lines ∧ Says lines.toList (ownStatements s parts) := by
  induction parts with
  | nil => exact ⟨"", rfl, Toml.says_nil⟩
  | cons part parts ih =>
    obtain ⟨name, part⟩ := part
    obtain ⟨bare, -, later⟩ := writable
    obtain ⟨lines, written, read⟩ := ih later
    cases part with
    | setting which =>
      obtain ⟨line, here, readHere⟩ := Setting.exists_line short bare which
      refine ⟨line ++ lines, ?_, ?_⟩
      · rw [ownLines, here, written]
        rfl
      · rw [ownStatements, String.toList_append]
        exact readHere.append read
    | group => exact ⟨lines, written, read⟩

theorem isPlainName_of_isBareKey (bare : IsBareKey name) : Json.IsPlainName name := by
  refine ⟨?_, fun dot => ?_⟩
  · rintro rfl
    exact bare.1 rfl
  · have isKey := bare.2 '.' dot
    cases isKey

/-- The header of a group in a group. -/
theorem header_append (bare : ∀ key ∈ path, IsBareKey key) (name : String) :
    (if ".".intercalate path = "" then name else ".".intercalate path ++ "." ++ name) =
      ".".intercalate (path ++ [name]) :=
  Json.dotted_intercalate (fun key mem => isPlainName_of_isBareKey (bare key mem)) name

mutual

/-- Each table that is written is read as its statements. -/
theorem exists_tables (short : s.HasWritableLabel) {schema : Schema} {path : List String}
    (bare : ∀ key ∈ path, IsBareKey key) (ne : path ≠ [])
    (writable : schema.IsWritable path.length) :
    ∃ texts, schema.tables s (".".intercalate path) = .ok texts ∧
      List.Forall₂ (fun text said => Says text.toList said) texts
        (schema.tableStatements s path) := by
  cases schema with
  | setting => exact ⟨[], rfl, .nil⟩
  | group parts =>
    obtain ⟨few, inside⟩ := writable
    obtain ⟨lines, own, read⟩ := exists_ownLines short inside
    obtain ⟨texts, inner, each⟩ := exists_innerTables short bare inside
    refine ⟨_ :: texts, by rw [tables, own, inner]; rfl, .cons ?_ each⟩
    have header := (Toml.says_headerLine bare ne few).append read
    simpa [Toml.headerLine, Toml.joinedKeys, String.toList_intercalate] using header

theorem exists_innerTables (short : s.HasWritableLabel) {parts : List (String × Schema)}
    {path : List String} (bare : ∀ key ∈ path, IsBareKey key)
    (writable : AreWritable (path.length + 1) parts) :
    ∃ texts, innerTables s (".".intercalate path) parts = .ok texts ∧
      List.Forall₂ (fun text said => Says text.toList said) texts
        (innerStatements s path parts) := by
  cases parts with
  | nil => exact ⟨[], rfl, .nil⟩
  | cons part parts =>
    obtain ⟨name, part⟩ := part
    obtain ⟨bareName, here, later⟩ := writable
    have barePath : ∀ key ∈ path ++ [name], IsBareKey key := by
      simpa [or_imp, forall_and] using And.intro bare bareName
    have here' : part.IsWritable (path ++ [name]).length := by simpa using here
    obtain ⟨texts, first, each⟩ := exists_tables short barePath (by simp) here'
    obtain ⟨texts', others, each'⟩ := exists_innerTables short bare later
    refine ⟨texts ++ texts', ?_, List.rel_append each each'⟩
    rw [innerTables, header_append bare, first, others]
    rfl

end

def ownEntries (s : Settings) : List (String × Schema) → Entries
  | [] => []
  | (name, .setting which) :: parts => ((which.toml? s).map (name, ·)).toList ++ ownEntries s parts
  | (_, .group _) :: parts => ownEntries s parts

mutual

/-- The value of a part of a schema in a document, if it has one. -/
def toml? (s : Settings) : Schema → Option Toml.Value
  | .setting which => which.toml? s
  | .group parts => some (.table .header (ownEntries s parts ++ innerEntries s parts))

def innerEntries (s : Settings) : List (String × Schema) → Entries
  | [] => []
  | (_, .setting _) :: parts => innerEntries s parts
  | (name, .group inner) :: parts =>
    ((toml? s (.group inner)).map (name, ·)).toList ++ innerEntries s parts

end

theorem runs_ownStatements {put : Entries → Entries} (focus : Focus path put)
    (distinct : (parts.map (·.1)).Nodup)
    (new : ∀ name ∈ parts.map (·.1), entries.lookup name = none) :
    Runs (ownStatements s parts) ⟨put entries, path⟩
      ⟨put (entries ++ ownEntries s parts), path⟩ := by
  induction parts generalizing entries with
  | nil => rw [ownStatements, ownEntries, List.append_nil]; rfl
  | cons part parts ih =>
    obtain ⟨name, part⟩ := part
    obtain ⟨other, others⟩ := List.nodup_cons.1 distinct
    obtain ⟨newHere, newLater⟩ := List.forall_mem_cons.1 new
    cases part with
    | setting which =>
      rw [ownStatements, ownEntries, Setting.assignment?]
      cases which.toml? s with
      | none => exact ih others newLater
      | some value =>
        have newLater' : ∀ key ∈ parts.map (·.1),
            (entries ++ [(name, value)]).lookup key = none := by
          intro key mem
          have differ : key ≠ name := fun same => other (same ▸ mem)
          rw [List.lookup_append, newLater key mem]
          simp [differ]
        have here := focus.runs_assignment newHere value
        simpa using here.append (ih others newLater')
    | group => exact ih others newLater

/-- The value of a setting in a document, of a part that is a setting. -/
def ownValue? (s : Settings) : Schema → Option Toml.Value
  | .setting which => which.toml? s
  | .group _ => none

/-- The table of a group in a document, of a part that is a group. -/
def innerValue? (s : Settings) : Schema → Option Toml.Value
  | .setting _ => none
  | .group parts => toml? s (.group parts)

theorem lookup_ownEntries (distinct : (parts.map (·.1)).Nodup) (s : Settings) (name : String) :
    (ownEntries s parts).lookup name = (parts.lookup name).bind (ownValue? s) := by
  refine lookup_fields (ownEntries s) rfl (fun name part parts => ?_) distinct name
  cases part <;> rfl

theorem lookup_innerEntries (distinct : (parts.map (·.1)).Nodup) (s : Settings) (name : String) :
    (innerEntries s parts).lookup name = (parts.lookup name).bind (innerValue? s) := by
  refine lookup_fields (innerEntries s) (by rw [innerEntries])
    (fun name part parts => ?_) distinct name
  cases part with
  | setting => rw [innerEntries]; rfl
  | group => rw [innerEntries]; rfl

theorem lookup_entries (distinct : (parts.map (·.1)).Nodup) (s : Settings) (name : String) :
    (ownEntries s parts ++ innerEntries s parts).lookup name =
      (parts.lookup name).bind (·.toml? s) := by
  rw [List.lookup_append, lookup_ownEntries distinct, lookup_innerEntries distinct]
  cases parts.lookup name with
  | none => rfl
  | some part =>
    cases part with
    | setting which => simp [ownValue?, innerValue?, toml?]
    | group => rfl

mutual

/-- The statements of a group add its table at the end of the table in focus. -/
theorem exists_runs_tableStatements (s : Settings) {schema : Schema} {path : List String}
    {name : String} {put : Entries → Entries} {entries : Entries} (proper : schema.IsProper)
    (focus : Focus path put) (new : entries.lookup name = none) (header : List String) :
    ∃ header', Runs (schema.tableStatements s (path ++ [name])).flatten ⟨put entries, header⟩
      ⟨put (entries ++ ((innerValue? s schema).map (name, ·)).toList), header'⟩ := by
  cases schema with
  | setting => exact ⟨header, by simp [tableStatements, innerValue?, Runs]⟩
  | group parts =>
    obtain ⟨distinct, inside⟩ := proper
    have start := focus.runs_table new header
    have own := runs_ownStatements (s := s) (focus.child new) distinct fun _ _ => List.lookup_nil
    have apart : ∀ key inner, (key, Schema.group inner) ∈ parts →
        (ownEntries s parts).lookup key = none := by
      intro key inner mem
      rw [lookup_ownEntries distinct, Table.lookup_of_mem distinct mem]
      rfl
    obtain ⟨header', inner⟩ := exists_runs_innerStatements s distinct inside (focus.child new)
      apart (path ++ [name])
    refine ⟨header', ?_⟩
    rw [tableStatements, List.flatten_cons, innerValue?, toml?]
    exact (start.append own).append inner

theorem exists_runs_innerStatements (s : Settings) {parts : List (String × Schema)}
    {path : List String} {put : Entries → Entries} {entries : Entries}
    (distinct : (parts.map (·.1)).Nodup) (proper : AreProper parts) (focus : Focus path put)
    (new : ∀ key inner, (key, .group inner) ∈ parts → entries.lookup key = none)
    (header : List String) :
    ∃ header', Runs (innerStatements s path parts).flatten ⟨put entries, header⟩
      ⟨put (entries ++ innerEntries s parts), header'⟩ := by
  cases parts with
  | nil => exact ⟨header, by simp [innerStatements, innerEntries, Runs]⟩
  | cons part parts =>
    obtain ⟨name, part⟩ := part
    obtain ⟨absent, others⟩ := List.nodup_cons.1 distinct
    obtain ⟨-, here, later⟩ := proper
    have newLater : ∀ key inner, (key, .group inner) ∈ parts → entries.lookup key = none :=
      fun key inner mem => new key inner (List.mem_cons_of_mem _ mem)
    cases part with
    | setting =>
      rw [innerStatements, innerEntries]
      exact exists_runs_innerStatements s others later focus newLater header
    | group inner =>
      have newHere := new name inner List.mem_cons_self
      obtain ⟨header', first⟩ := exists_runs_tableStatements s here focus newHere header
      have newLater' : ∀ key inner', (key, .group inner') ∈ parts →
          (entries ++ ((innerValue? s (.group inner)).map (name, ·)).toList).lookup key = none := by
        intro key inner' mem
        have differ : key ≠ name := by
          rintro rfl
          exact absent (List.mem_map.2 ⟨_, mem, rfl⟩)
        rw [List.lookup_append, newLater key inner' mem]
        simp [innerValue?, toml?, Table.lookup_cons_eq_ite, differ]
      obtain ⟨header'', rest⟩ := exists_runs_innerStatements s others later focus newLater' header'
      refine ⟨header'', ?_⟩
      rw [innerStatements, innerEntries, List.flatten_append, ← List.append_assoc]
      exact first.append rest

end

/-- Some settings have the values of others, and all else is built in. -/
def Restores (s : Settings) (done : List Setting) (read : Settings) : Prop :=
  ∀ which, which.of read = if which ∈ done then which.of s else which.builtin

/-- The settings of a schema. -/
def whiches (schema : Schema) : List Setting := schema.named.map (·.2)

def partsWhiches (parts : List (String × Schema)) : List Setting := (partsNamed parts).map (·.2)

theorem whiches_group (parts : List (String × Schema)) :
    (Schema.group parts).whiches = partsWhiches parts := by
  rw [whiches, named, partsWhiches]

theorem partsWhiches_cons (name : String) (part : Schema) (parts : List (String × Schema)) :
    partsWhiches ((name, part) :: parts) = part.whiches ++ partsWhiches parts := by
  rw [partsWhiches, partsNamed, List.map_append, List.map_map]
  rfl

theorem exists_restores_setting {done : List Setting} {before : Settings}
    (restores : Restores s done before) (which : Setting) :
    ∃ after, (match which.toml? s with
        | none => some before
        | some value => which.read? value before) = some after ∧
      Restores s (done ++ [which]) after := by
  cases given : which.toml? s with
  | none =>
    refine ⟨before, rfl, fun other => ?_⟩
    rw [restores other]
    by_cases same : other = which
    · subst same
      simp [Setting.of_eq_builtin_of_toml? given]
    · simp [same]
  | some value =>
    obtain ⟨after, read, same⟩ := Setting.exists_read?_of_toml? given before
    refine ⟨after, read, fun other => ?_⟩
    by_cases here : other = which
    · subst here
      simp [same]
    · rw [Setting.of_read?_of_ne here read, restores other]
      simp [here]

mutual

/-- What is written of a schema gives its settings back. -/
theorem exists_restores {schema : Schema} {done : List Setting} {before : Settings}
    (proper : schema.IsProper) (restores : Restores s done before) :
    ∃ after, (match schema.toml? s with
        | none => some before
        | some value => schema.read? value before) = some after ∧
      Restores s (done ++ schema.whiches) after := by
  cases schema with
  | setting which =>
    have single : (Schema.setting which).whiches = [which] := rfl
    rw [single, toml?]
    simpa only [read?] using exists_restores_setting restores which
  | group parts =>
    obtain ⟨distinct, inside⟩ := proper
    rw [toml?, whiches_group]
    dsimp only
    rw [read?]
    refine exists_restores_parts inside (fun name part mem => ?_) restores
    rw [lookup_entries distinct, Table.lookup_of_mem distinct mem]
    rfl

theorem exists_restores_parts {parts : List (String × Schema)} {done : List Setting}
    {before : Settings} {entries : Entries} (proper : AreProper parts)
    (found : ∀ name part, (name, part) ∈ parts → entries.lookup name = part.toml? s)
    (restores : Restores s done before) :
    ∃ after, readNamed? entries before parts = some after ∧
      Restores s (done ++ partsWhiches parts) after := by
  cases parts with
  | nil => exact ⟨before, by rw [readNamed?], by simpa [partsWhiches, partsNamed] using restores⟩
  | cons part parts =>
    obtain ⟨name, part⟩ := part
    obtain ⟨-, here, later⟩ := proper
    obtain ⟨middle, first, restoresHere⟩ := exists_restores here restores
    obtain ⟨after, rest, restoresLater⟩ := exists_restores_parts later
      (fun name part mem => found name part (List.mem_cons_of_mem _ mem)) restoresHere
    refine ⟨after, ?_, ?_⟩
    · rw [readNamed?, found name part List.mem_cons_self]
      cases given : part.toml? s with
      | none =>
        rw [given] at first
        obtain rfl := Option.some.inj first
        exact rest
      | some value =>
        rw [given] at first
        exact Option.bind_eq_some_iff.2 ⟨middle, first, rest⟩
    · rw [partsWhiches_cons, ← List.append_assoc]
      exact restoresLater

end

end Schema

namespace Settings

theorem eq_of_of_eq {a b : Settings} (same : ∀ which : Setting, which.of a = which.of b) :
    a = b := by
  have excludes := SettingValue.names.inj (same .excludes)
  have label := SettingValue.number.inj (same .maxLabelLength)
  have text : a.text = b.text := funext fun key => SettingValue.text.inj (same (.text key))
  have directory := SettingValue.place.inj (same .directory)
  have format := SettingValue.format.inj (same .logFormat)
  cases a
  cases b
  simp_all

theorem mem_whiches_settings (which : Setting) :
    which ∈ Schema.partsWhiches Schema.settingsParts := by
  cases which with
  | excludes | maxLabelLength | directory | logFormat => decide
  | text key => cases key <;> decide

/-- Settings that are written are read back. -/
theorem exists_toToml (short : s.HasWritableLabel) :
    ∃ text, s.toToml = .ok text ∧ ofToml? text = some s := by
  obtain ⟨distinct, proper⟩ := Schema.isProper_settings
  obtain ⟨texts, written, each⟩ := Schema.exists_innerTables short (List.forall_mem_nil _)
    Schema.areWritable_settingsParts
  have noEntries : ∀ key inner, (key, Schema.group inner) ∈ Schema.settingsParts →
      ([] : Toml.Entries).lookup key = none := fun _ _ _ => rfl
  obtain ⟨header, runs⟩ :=
    Schema.exists_runs_innerStatements s distinct proper Toml.focus_root noEntries []
  have noOwn : Schema.ownEntries s Schema.settingsParts = [] := rfl
  have found : ∀ name part, (name, part) ∈ Schema.settingsParts →
      (Schema.innerEntries s Schema.settingsParts).lookup name = part.toml? s := by
    intro name part mem
    have lookup := Schema.lookup_entries distinct s name
    rw [noOwn, List.nil_append, Table.lookup_of_mem distinct mem] at lookup
    exact lookup
  have start : Schema.Restores s [] {} := fun which => (if_neg List.not_mem_nil).symm
  obtain ⟨after, read, restores⟩ := Schema.exists_restores_parts proper found start
  obtain rfl : after = s := by
    refine eq_of_of_eq fun which => (restores which).trans (if_pos ?_)
    exact mem_whiches_settings which
  have document : Toml.document? ("\n".intercalate texts) =
      some (Schema.innerEntries after Schema.settingsParts) := by
    rw [Toml.document?_of_statements? (Toml.says_intercalate each).statements?_eq,
      Toml.ofStatements?_of_runs runs]
    rfl
  refine ⟨"\n".intercalate texts, ?_, ?_⟩
  · rw [toToml]
    have same : "" = ".".intercalate [] := rfl
    rw [same, written]
    rfl
  · rw [ofToml?, document]
    exact read

end Settings

end AngularAtlas
