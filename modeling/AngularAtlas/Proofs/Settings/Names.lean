import AngularAtlas.Proofs.Json.Leaves
import AngularAtlas.Settings.Origin

namespace AngularAtlas

variable {s : Settings} {name key : String} {value : Json} {path : List String}

namespace Setting

variable {which : Setting}

theorem isLeaf_of_json? (h : which.json? s = some value) : value.IsLeaf := by
  cases which with
  | excludes | text | logFormat =>
    obtain rfl := Option.some.inj h
    trivial
  | maxLabelLength | directory =>
    obtain ⟨_, -, rfl⟩ := Option.map_eq_some_iff.1 h
    trivial

theorem sortedItems_texts (texts : List String) :
    Json.sortedItems (texts.map .text) = texts.map .text := by
  induction texts with
  | nil => rfl
  | cons text texts ih =>
    rw [List.map_cons, Json.sortedItems, ih]
    rfl

theorem sorted_of_json? (h : which.json? s = some value) : value.sorted = value := by
  cases which with
  | excludes =>
    obtain rfl := Option.some.inj h
    exact congrArg Json.array (sortedItems_texts _)
  | text | logFormat =>
    obtain rfl := Option.some.inj h
    rfl
  | maxLabelLength | directory =>
    obtain ⟨_, -, rfl⟩ := Option.map_eq_some_iff.1 h
    rfl

end Setting

namespace Schema

/-- The part of a schema at the end of some names. -/
def part? : List String → Schema → Option Schema
  | [], schema => some schema
  | _ :: _, .setting _ => none
  | name :: path, .group parts => (parts.lookup name).bind (part? path)

mutual

/-- All names are plain, and no two parts of a group have the same name. -/
def IsProper : Schema → Prop
  | .setting _ => True
  | .group parts => (parts.map (·.1)).Nodup ∧ AreProper parts

def AreProper : List (String × Schema) → Prop
  | [] => True
  | (name, part) :: parts => Json.IsPlainName name ∧ part.IsProper ∧ AreProper parts

end

theorem isProper_settings : settings.IsProper := by
  simp [settings, settingsParts, texts, IsProper, AreProper, Json.IsPlainName]

variable {parts : List (String × Schema)} {schema : Schema}

theorem sublist_names_jsonFields (s : Settings) (parts : List (String × Schema)) :
    ((jsonFields s parts).map (·.1)).Sublist (parts.map (·.1)) := by
  induction parts with
  | nil => exact .slnil
  | cons part parts ih =>
    obtain ⟨name, part⟩ := part
    rw [jsonFields]
    cases part.json? s with
    | none => exact ih.cons name
    | some value => exact ih.cons_cons name

/-- Fields that the parts of a group have one by one are looked up by the names of the parts. -/
theorem lookup_fields {β : Type} (fields : List (String × Schema) → List (String × β))
    {field? : Schema → Option β} (nil : fields [] = [])
    (cons : ∀ name part parts, fields ((name, part) :: parts) =
      ((field? part).map (name, ·)).toList ++ fields parts)
    (distinct : (parts.map (·.1)).Nodup) (name : String) :
    (fields parts).lookup name = (parts.lookup name).bind field? := by
  have missing : ∀ parts : List (String × Schema), name ∉ parts.map (·.1) →
      (fields parts).lookup name = none := by
    intro parts absent
    induction parts with
    | nil => rw [nil]; rfl
    | cons part parts ih =>
      obtain ⟨other, part⟩ := part
      rw [List.map_cons, List.mem_cons, not_or] at absent
      have differ : name ≠ other := absent.1
      rw [cons, List.lookup_append, ih absent.2]
      cases field? part <;> simp [Table.lookup_cons_eq_ite, differ]
  induction parts with
  | nil => rw [nil]; rfl
  | cons part parts ih =>
    obtain ⟨other, part⟩ := part
    obtain ⟨absent, distinct⟩ := List.nodup_cons.1 distinct
    rw [cons, List.lookup_append, Table.lookup_cons_eq_ite]
    by_cases same : name = other
    · subst same
      rw [missing parts absent]
      cases here : field? part <;> simp [here]
    · rw [ih distinct]
      cases field? part <;> simp [Table.lookup_cons_eq_ite, same]

theorem lookup_jsonFields (distinct : (parts.map (·.1)).Nodup) (s : Settings) (name : String) :
    (jsonFields s parts).lookup name = (parts.lookup name).bind (·.json? s) :=
  lookup_fields (jsonFields s) rfl (fun _ _ _ => rfl) distinct name

theorem isProper_of_lookup {part : Schema} (proper : AreProper parts)
    (found : parts.lookup name = some part) : part.IsProper := by
  induction parts with
  | nil => simp at found
  | cons first parts ih =>
    obtain ⟨other, first⟩ := first
    obtain ⟨-, here, later⟩ := proper
    rw [Table.lookup_cons_eq_ite] at found
    split at found
    · exact Option.some.inj found ▸ here
    · exact ih later found

/-- What stands at the end of some names in a view is the view of the part of the schema there. -/
theorem at?_json? (proper : schema.IsProper) (s : Settings) (path : List String) :
    (schema.json? s).bind (·.at? path) = (schema.part? path).bind (·.json? s) := by
  induction path generalizing schema with
  | nil => simp [Json.at?, part?]
  | cons name path ih =>
    cases schema with
    | setting which =>
      rw [part?, json?]
      cases view : which.json? s with
      | none => rfl
      | some value => exact Json.at?_cons_of_isLeaf (Setting.isLeaf_of_json? view) name path
    | group parts =>
      obtain ⟨distinct, parts⟩ := proper
      rw [part?, json?, Option.bind_some, Json.at?, Json.field?, lookup_jsonFields distinct]
      cases found : List.lookup name _ with
      | none => rfl
      | some part => exact ih (isProper_of_lookup parts found)

mutual

theorem IsProper.proper_json? {schema : Schema} {value : Json} (proper : schema.IsProper)
    (s : Settings) (view : schema.json? s = some value) : value.Proper := by
  cases schema with
  | setting which => exact .leaf (Setting.isLeaf_of_json? view)
  | group parts =>
    obtain rfl := Option.some.inj view
    obtain ⟨distinct, each⟩ := proper
    have fields := each.proper_jsonFields s
    exact .object (distinct.sublist (sublist_names_jsonFields s parts))
      (fun field mem => (fields field mem).1) fun field mem => (fields field mem).2

theorem AreProper.proper_jsonFields {parts : List (String × Schema)} (proper : AreProper parts)
    (s : Settings) :
    ∀ field ∈ jsonFields s parts, Json.IsPlainName field.1 ∧ field.2.Proper := by
  cases parts with
  | nil => simp [jsonFields]
  | cons part parts =>
    obtain ⟨name, part⟩ := part
    obtain ⟨plain, here, later⟩ := proper
    intro field mem
    rw [jsonFields] at mem
    rcases List.mem_append.1 mem with mem | mem
    · cases view : part.json? s with
      | none => simp [view] at mem
      | some value =>
        obtain rfl : field = (name, value) := by simpa [view] using mem
        exact ⟨plain, here.proper_json? s view⟩
    · exact later.proper_jsonFields s field mem

end

mutual

/-- The settings of a schema, each with the names that lead to it. -/
def named : Schema → List (List String × Setting)
  | .setting which => [([], which)]
  | .group parts => partsNamed parts

def partsNamed : List (String × Schema) → List (List String × Setting)
  | [] => []
  | (name, part) :: parts => part.named.map (fun p => (name :: p.1, p.2)) ++ partsNamed parts

end

theorem mem_partsNamed {part : Schema} {which : Setting} (found : parts.lookup name = some part)
    (mem : (path, which) ∈ part.named) : (name :: path, which) ∈ partsNamed parts := by
  induction parts with
  | nil => simp at found
  | cons first parts ih =>
    obtain ⟨other, first⟩ := first
    rw [Table.lookup_cons_eq_ite] at found
    rw [partsNamed, List.mem_append]
    split at found
    case isTrue same =>
      obtain rfl := Option.some.inj found
      exact .inl (List.mem_map.2 ⟨(path, which), mem, by rw [same]⟩)
    case isFalse => exact .inr (ih found)

theorem mem_named_of_part? {which : Setting} (found : schema.part? path = some (.setting which)) :
    (path, which) ∈ schema.named := by
  induction path generalizing schema with
  | nil =>
    obtain rfl := Option.some.inj found
    exact List.mem_singleton_self _
  | cons name path ih =>
    cases schema with
    | setting => simp [part?] at found
    | group parts =>
      rw [part?] at found
      obtain ⟨part, here, later⟩ := Option.bind_eq_some_iff.1 found
      exact mem_partsNamed here (ih later)

end Schema

/-- The setting that a dotted name stands for, if it is one of a setting. -/
def Setting.named? (key : String) : Option Setting :=
  match Schema.settings.part? (Json.namePieces key) with
  | some (.setting which) => some which
  | _ => none

/-- A value in a view of settings stands under the name of a setting, and so does the value of that
setting in any other view. -/
theorem Settings.exists_named_of_mem_leaves (mem : (key, value) ∈ s.json.sorted.leaves) :
    ∃ which, Setting.named? key = some which ∧ which.json? s = some value ∧
      (which = .excludes → key = "scan.exclude_directories") ∧
      ∀ other, SettingsLayers.valueOf other key = (which.json? other).getD .null := by
  have proper : s.json.Proper := Schema.isProper_settings.proper_json? s rfl
  have view : ∀ other : Settings, other.json.lookup? key =
      (Schema.settings.part? (Json.namePieces key)).bind (·.json? other) :=
    fun other => Schema.at?_json? Schema.isProper_settings other (Json.namePieces key)
  obtain ⟨pieces, found, leaf⟩ := proper.sorted.lookup?_of_mem_leaves id mem
  rw [Json.lookup?, Json.at?_sorted] at found
  obtain ⟨original, there, rfl⟩ := Option.map_eq_some_iff.1 found
  have here := view s
  rw [Json.lookup?, there] at here
  obtain ⟨part, hp, json⟩ := Option.bind_eq_some_iff.1 here.symm
  cases part with
  | group parts =>
    obtain rfl := Option.some.inj json
    exact leaf.elim
  | setting which =>
    refine ⟨which, by rw [Setting.named?, hp], ?_, ?_, fun other => ?_⟩
    · rw [Setting.sorted_of_json? json]
      exact json
    · rintro rfl
      have only : ∀ p ∈ Schema.settings.named, p.2 = .excludes →
          p.1 = ["scan", "exclude_directories"] := by decide
      have names : Json.namePieces key = ["scan", "exclude_directories"] :=
        only _ (Schema.mem_named_of_part? hp) rfl
      rw [pieces, names]
      rfl
    · rw [SettingsLayers.valueOf, view, hp]
      rfl

end AngularAtlas
