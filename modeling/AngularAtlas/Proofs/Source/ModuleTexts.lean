import AngularAtlas.Proofs.Results
import AngularAtlas.Proofs.Source.Elements
import AngularAtlas.Proofs.Source.Matches
import AngularAtlas.Proofs.Source.Pieces
import AngularAtlas.Proofs.Text.Word

namespace AngularAtlas.Source

open Text

/-- The only blanks of the text are spaces. -/
def OnlySpaces (s : List Char) : Prop := ∀ c ∈ s, isBlank c = true → c = ' '

/-- The six arrays of a module. -/
def NgModule.arrays (m : NgModule) : List (List String) :=
  [m.declarations, m.imports, m.exports, m.bootstrap, m.providers, m.entryComponents]

/-- The name of a module is a word, and no item of its arrays has blanks other than spaces. -/
structure NgModule.IsPlain (m : NgModule) : Prop where
  name : ∀ c ∈ m.name.toList, isWord c = true
  items : ∀ array ∈ m.arrays, ∀ item ∈ array, OnlySpaces item.toList

variable {s t provider name metadata r : List Char} {before : Option Char} {key : MetadataKey}
  {found : Finding} {items : List (List Char)} {m : NgModule} {file : String}
  {property : List Char × List Char} {properties : List (List Char × List Char)}

theorem isWord_of_classHead? (h : classHead? s = some (name, r)) :
    ∀ c ∈ name, isWord c = true := by
  simp only [classHead?, Option.bind_eq_bind, Option.bind_eq_some_iff] at h
  obtain ⟨s₁, -, s₂, -, s₃, -, s₄, -, s₅, -, _, -, he⟩ := h
  obtain rfl : s₅.takeWhile isWord = name := (Prod.mk.inj (Option.some.inj he)).1
  exact List.all_eq_true.1 List.all_takeWhile

theorem isWord_of_decoratedHead? {decorator : Decorator}
    (h : decoratedHead? decorator before s = some (found, r)) :
    ∀ c ∈ found.name, isWord c = true := by
  obtain ⟨_, _, -, -, head, -⟩ := exists_of_decoratedHead? h
  exact isWord_of_classHead? head

theorem OnlySpaces.of_sublist (hs : OnlySpaces s) (h : t.Sublist s) : OnlySpaces t :=
  fun c hc => hs c (h.subset hc)

theorem OnlySpaces.append (hs : OnlySpaces s) (ht : OnlySpaces t) : OnlySpaces (s ++ t) :=
  fun c hc => (List.mem_append.1 hc).elim (hs c) (ht c)

theorem onlySpaces_of_isPhrase (phrase : IsPhrase s) : OnlySpaces s := fun _ => phrase.eq_space

theorem unquote_sublist (s : List Char) : (unquote s).Sublist s := by
  rw [unquote]
  refine List.Sublist.trans ?_ (trim_sublist s)
  generalize trim s = trimmed
  cases trimmed with
  | nil => exact List.Sublist.refl _
  | cons q r =>
    dsimp only
    split_ifs
    · exact (List.dropLast_sublist r).trans (List.sublist_cons_self q r)
    · exact List.Sublist.refl _

/-- What is taken over from the properties of a literal has no blanks but spaces. -/
structure Provision.IsPlain (p : Provision) : Prop where
  token : ∀ s ∈ p.token, OnlySpaces s
  source : ∀ s ∈ p.source, OnlySpaces s

theorem Provision.IsPlain.add {p : Provision} (plain : p.IsPlain) (hp : OnlySpaces property.2) :
    (p.add property).IsPlain := by
  have value : ∀ s ∈ some (unquote property.2), OnlySpaces s := by
    rintro s ⟨⟩
    exact hp.of_sublist (unquote_sublist _)
  rw [Provision.add]
  split_ifs
  · exact ⟨value, plain.source⟩
  · exact ⟨plain.token, value⟩
  · exact plain

theorem Provision.IsPlain.foldl_add {p : Provision} (plain : p.IsPlain)
    (hp : ∀ property ∈ properties, OnlySpaces property.2) :
    (properties.foldl Provision.add p).IsPlain := by
  induction properties generalizing p with
  | nil => exact plain
  | cons property properties ih =>
    obtain ⟨first, later⟩ := List.forall_mem_cons.1 hp
    exact ih (plain.add first) later

theorem onlySpaces_of_mem_objectProperties? (h : objectProperties? s = some properties)
    (mem : property ∈ properties) : OnlySpaces property.2 := by
  rw [objectProperties?] at h
  split at h
  case isFalse => cases h
  case isTrue =>
    obtain ⟨⟨inside, rest⟩, -, rfl⟩ := Option.map_eq_some_iff.1 h
    obtain ⟨element, listed, split⟩ := List.mem_filterMap.1 mem
    exact (onlySpaces_of_isPhrase (isPhrase_of_mem_elements listed)).of_sublist
      (value_sublist split)

theorem onlySpaces_formatProvider (h : OnlySpaces provider) :
    OnlySpaces (formatProvider provider) := by
  have properties : ∀ property ∈ (objectProperties? provider).getD [], OnlySpaces property.2 := by
    intro property mem
    cases read : objectProperties? provider with
    | none =>
      rw [read] at mem
      cases mem
    | some properties =>
      rw [read] at mem
      exact onlySpaces_of_mem_objectProperties? read mem
  have nothing : Provision.IsPlain {} := ⟨by simp, by simp⟩
  have plain := nothing.foldl_add properties
  have words : OnlySpaces " provided by ".toList := by
    simp [OnlySpaces, isBlank]
  rw [formatProvider]
  split
  case h_1 token source he =>
    rw [he] at plain
    exact ((plain.token token rfl).append words).append (plain.source source rfl)
  case h_2 => exact h.of_sublist (trim_sublist provider)

theorem onlySpaces_of_sectionElements (h : sectionElements s key = .ok items) :
    ∀ item ∈ items, OnlySpaces item := by
  intro item mem
  rw [sectionElements] at h
  split at h
  · obtain rfl := Except.ok.inj h
    cases mem
  · cases h
  · obtain rfl := Except.ok.inj h
    exact onlySpaces_of_isPhrase (isPhrase_of_mem_elements mem)

theorem onlySpaces_map_ofList {f : List Char → List Char}
    (hf : ∀ item ∈ items, OnlySpaces (f item)) :
    ∀ item ∈ items.map fun item => String.ofList (f item), OnlySpaces item.toList := by
  refine List.forall_mem_map.2 fun item mem => ?_
  rw [String.toList_ofList]
  exact hf item mem

theorem onlySpaces_of_ofMetadata (h : NgModule.ofMetadata metadata = .ok m) :
    ∀ array ∈ m.arrays, ∀ item ∈ array, OnlySpaces item.toList := by
  obtain ⟨imports, h₁, h⟩ := exists_of_bind_eq_ok h
  obtain ⟨exports, h₂, h⟩ := exists_of_bind_eq_ok h
  obtain ⟨declarations, h₃, h⟩ := exists_of_bind_eq_ok h
  obtain ⟨entryComponents, h₄, h⟩ := exists_of_bind_eq_ok h
  obtain ⟨providers, h₅, h⟩ := exists_of_bind_eq_ok h
  obtain ⟨bootstrap, h₆, h⟩ := exists_of_bind_eq_ok h
  obtain rfl := Except.ok.inj h
  simp only [NgModule.arrays, List.forall_mem_cons]
  exact ⟨onlySpaces_map_ofList (onlySpaces_of_sectionElements h₃),
    onlySpaces_map_ofList (onlySpaces_of_sectionElements h₁),
    onlySpaces_map_ofList (onlySpaces_of_sectionElements h₂),
    onlySpaces_map_ofList (onlySpaces_of_sectionElements h₆),
    onlySpaces_map_ofList fun item mem =>
      onlySpaces_formatProvider (onlySpaces_of_sectionElements h₅ item mem),
    onlySpaces_map_ofList (onlySpaces_of_sectionElements h₄), nofun⟩

theorem isPlain_of_toModule (h : found.toModule file = .ok m)
    (word : ∀ c ∈ found.name, isWord c = true) : m.IsPlain ∧ m.file = file := by
  rw [Finding.toModule] at h
  split at h
  case h_1 read ok =>
    obtain rfl := Except.ok.inj h
    exact ⟨⟨by simpa using word, @onlySpaces_of_ofMetadata _ read ok⟩, rfl⟩
  case h_2 => cases h

/-- The texts of the modules of a file are plain, whatever the file says. -/
theorem isPlain_of_mem_modules {content : List Char}
    (mem : m ∈ (ParsedFile.ofText file content).modules) : m.IsPlain ∧ m.file = file := by
  obtain ⟨result, listed, ok⟩ := List.mem_filterMap.1 mem
  obtain ⟨found, mem, rfl⟩ := List.mem_map.1 listed
  obtain ⟨before, t, rest, -, head⟩ := exists_of_mem_findAll mem
  refine isPlain_of_toModule ?_ (isWord_of_decoratedHead? head)
  cases read : found.toModule file with
  | ok m' =>
    rw [read] at ok
    exact congrArg _ (Option.some.inj ok)
  | error =>
    rw [read] at ok
    cases ok

end AngularAtlas.Source
