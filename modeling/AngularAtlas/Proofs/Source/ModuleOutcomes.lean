import AngularAtlas.Proofs.Results
import AngularAtlas.Proofs.Source.Matches
import AngularAtlas.Proofs.Source.SectionPlace

namespace AngularAtlas.Source

open Text

/-- The first place where a text has a section for a key opens a bracket that never closes. -/
def NeverCloses (s key : List Char) : Prop :=
  ∃ front word rest, StartsFirst s key front word rest ∧
    ∀ inside back, rest = inside ++ ']' :: back → ¬IsBalanced '[' ']' inside

/-- Of the sections that never close in some metadata, that of `key` comes first. -/
def FirstUnclosed (metadata : List Char) (key : MetadataKey) : Prop :=
  ∃ front back, MetadataKey.all = front ++ key :: back ∧
    NeverCloses (removeComments metadata) key.name.toList ∧
    ∀ other ∈ front, ¬NeverCloses (removeComments metadata) other.name.toList

/-- What is said about a module with a section that never closes. -/
def unclosedIssue (file : String) (name : List Char) (key : MetadataKey) : Issue :=
  ⟨file, "ModuleName: " ++ String.ofList name ++ "\nException: " ++
    ("unbalanced brackets in '" ++ key.name ++ "' section")⟩

/-- A module as it is listed, from what its metadata tells. -/
def listedModule (file : String) (name : List Char) (read : NgModule) : NgModule :=
  { read with
    name := String.ofList name
    file
    isRouting := read.isRouting || "RoutingModule".toList.isSuffixOf name }

/-- Modules and issues are what the findings of a file turn into, each finding into one of them. -/
inductive Outcomes (file : String) : List Finding → List NgModule → List Issue → Prop
  | nil : Outcomes file [] [] []
  | listed {found : Finding} {metadata : List Char} {read : NgModule} {later : List Finding}
      {modules : List NgModule} {issues : List Issue} :
      found.metadata = some metadata → NgModule.ofMetadata metadata = .ok read →
      Outcomes file later modules issues →
      Outcomes file (found :: later) (listedModule file found.name read :: modules) issues
  | reported {found : Finding} {metadata : List Char} {key : MetadataKey} {later : List Finding}
      {modules : List NgModule} {issues : List Issue} :
      found.metadata = some metadata → FirstUnclosed metadata key →
      Outcomes file later modules issues →
      Outcomes file (found :: later) modules (unclosedIssue file found.name key :: issues)

variable {s metadata : List Char} {key : MetadataKey} {e : MetadataError} {file : String}
  {found : Finding} {founds later : List Finding} {modules : List NgModule} {issues : List Issue}

theorem sectionElements_eq_error_iff :
    sectionElements s key = .error e ↔ e = .unclosed key ∧ NeverCloses s key.name.toList := by
  rw [NeverCloses, ← findSection_eq_unclosed_iff, sectionElements]
  cases findSection s key.name.toList with
  | missing => simp
  | unclosed => simp [eq_comm]
  | found body => simp

theorem exists_sectionElements_eq_error_iff :
    (∃ e, sectionElements s key = .error e) ↔ NeverCloses s key.name.toList := by
  simp only [sectionElements_eq_error_iff, exists_eq_left]

theorem exists_sectionElements_eq_ok_iff :
    (∃ items, sectionElements s key = .ok items) ↔ ¬NeverCloses s key.name.toList := by
  rw [exists_eq_ok_iff, ← exists_sectionElements_eq_error_iff, not_exists]

/-- Reading metadata fails like reading its six sections one after the other. -/
theorem ofMetadata_eq_error_iff_mapM : NgModule.ofMetadata metadata = .error e ↔
    MetadataKey.all.mapM (sectionElements (removeComments metadata)) = .error e := by
  -- behind the last section nothing is left that can fail
  have done : ∀ {α : Type} (a : α), (pure a : Except MetadataError α) ≠ .error e := nofun
  simp only [NgModule.ofMetadata, MetadataKey.all, List.mapM_cons, List.mapM_nil,
    bind_eq_error_iff, done, and_false, exists_false, or_false]

/-- Reading metadata fails for the first section that never closes. -/
theorem ofMetadata_eq_error_iff : NgModule.ofMetadata metadata = .error e ↔
    ∃ key, e = .unclosed key ∧ FirstUnclosed metadata key := by
  simp only [ofMetadata_eq_error_iff_mapM, mapM_eq_error_iff, sectionElements_eq_error_iff,
    exists_sectionElements_eq_ok_iff]
  constructor
  · rintro ⟨front, key, back, he, ⟨rfl, open'⟩, before⟩
    exact ⟨key, rfl, front, back, he, open', before⟩
  · rintro ⟨key, rfl, front, back, he, open', before⟩
    exact ⟨front, key, back, he, ⟨rfl, open'⟩, before⟩

/-- Reading metadata fails when one of the sections never closes. -/
theorem exists_ofMetadata_eq_error_iff : (∃ e, NgModule.ofMetadata metadata = .error e) ↔
    ∃ key : MetadataKey, NeverCloses (removeComments metadata) key.name.toList := by
  simp only [ofMetadata_eq_error_iff_mapM, exists_mapM_eq_error_iff,
    exists_sectionElements_eq_error_iff]
  refine exists_congr fun key => and_iff_right ?_
  cases key <;> decide

theorem Outcomes.length_add (h : Outcomes file founds modules issues) :
    modules.length + issues.length = founds.length := by
  induction h with
  | nil => rfl
  | listed _ _ _ ih | reported _ _ _ ih =>
    simp only [List.length_cons]
    omega

/-- Without a module that cannot be read, all others turn into the same. -/
theorem Outcomes.exists_without {front back : List Finding}
    (h : Outcomes file (front ++ found :: back) modules issues)
    (hm : found.metadata = some metadata) (hk : FirstUnclosed metadata key) :
    ∃ before after, issues = before ++ unclosedIssue file found.name key :: after ∧
      Outcomes file (front ++ back) modules (before ++ after) := by
  have failed := ofMetadata_eq_error_iff.2 ⟨key, rfl, hk⟩
  induction front generalizing modules issues with
  | nil =>
    -- its metadata is read in one way only, so that nothing else can have become of it
    cases h with
    | listed hm' read later =>
      obtain rfl := Option.some.inj (hm.symm.trans hm')
      exact nomatch failed.symm.trans read
    | @reported _ _ other _ _ issues hm' hk' later =>
      obtain rfl := Option.some.inj (hm.symm.trans hm')
      have failed' := ofMetadata_eq_error_iff.2 ⟨other, rfl, hk'⟩
      obtain rfl := MetadataError.unclosed.inj (Except.error.inj (failed.symm.trans failed'))
      exact ⟨[], issues, rfl, later⟩
  | cons other front ih =>
    cases h with
    | listed hm' read later =>
      obtain ⟨before, after, rfl, others⟩ := ih later
      exact ⟨before, after, rfl, .listed hm' read others⟩
    | reported hm' hk' later =>
      obtain ⟨before, after, rfl, others⟩ := ih later
      exact ⟨_ :: before, after, rfl, .reported hm' hk' others⟩

theorem toModule_of_eq_ok {read : NgModule} (hm : found.metadata = some metadata)
    (h : NgModule.ofMetadata metadata = .ok read) :
    found.toModule file = .ok (listedModule file found.name read) := by
  rw [Finding.toModule, hm, Option.getD_some, h]
  rfl

theorem toModule_of_firstUnclosed (hm : found.metadata = some metadata)
    (h : FirstUnclosed metadata key) :
    found.toModule file = .error (unclosedIssue file found.name key) := by
  have failed := ofMetadata_eq_error_iff.2 ⟨key, rfl, h⟩
  rw [Finding.toModule, hm, Option.getD_some, failed]
  rfl

theorem outcomes_toModule (h : ∀ found ∈ founds, ∃ metadata, found.metadata = some metadata) :
    Outcomes file founds ((founds.map (·.toModule file)).filterMap fun m => m.toOption)
      ((founds.map (·.toModule file)).filterMap fun
        | .ok _ => none
        | .error issue => some issue) := by
  induction founds with
  | nil => exact .nil
  | cons found later ih =>
    obtain ⟨⟨metadata, hm⟩, h⟩ := List.forall_mem_cons.1 h
    rw [List.map_cons]
    cases read : NgModule.ofMetadata metadata with
    | ok m =>
      rw [toModule_of_eq_ok hm read]
      exact .listed hm read (ih h)
    | error e =>
      obtain ⟨key, rfl, hk⟩ := ofMetadata_eq_error_iff.1 read
      rw [toModule_of_firstUnclosed hm hk]
      exact .reported hm hk (ih h)

theorem exists_metadata_of_mem_findings {content : List Char}
    (mem : found ∈ findings .ngModule content) : ∃ metadata, found.metadata = some metadata := by
  obtain ⟨before, t, rest, -, h⟩ := exists_of_mem_findAll mem
  obtain ⟨_, -, head⟩ := exists_isHead h
  exact head.metadata (by decide)

/-- The modules found in a file, from left to right, are each listed or reported, once. Reading the
metadata of one fails when a section never closes, and then the first of these is named; nothing
else of the file is lost by it. -/
theorem outcomes_ofText (file : String) (content : List Char) :
    (∀ metadata e, NgModule.ofMetadata metadata = .error e ↔
      ∃ key, e = .unclosed key ∧ FirstUnclosed metadata key) ∧
    (∀ metadata, (∃ e, NgModule.ofMetadata metadata = .error e) ↔
      ∃ key : MetadataKey, NeverCloses (removeComments metadata) key.name.toList) ∧
    (∀ decorator, ∃ finds, Finds (decoratedHead? decorator) [] content finds ∧
      (finds.Pairwise fun a b => a.1.length < b.1.length) ∧
      findings decorator content = finds.map (·.2)) ∧
    Outcomes file (findings .ngModule content) (ParsedFile.ofText file content).modules
      (ParsedFile.ofText file content).issues ∧
    (ParsedFile.ofText file content).modules.length +
      (ParsedFile.ofText file content).issues.length = (findings .ngModule content).length ∧
    (∀ front found back metadata key, findings .ngModule content = front ++ found :: back →
      found.metadata = some metadata → FirstUnclosed metadata key → ∃ before after,
        (ParsedFile.ofText file content).issues =
          before ++ unclosedIssue file found.name key :: after ∧
        Outcomes file (front ++ back) (ParsedFile.ofText file content).modules
          (before ++ after)) ∧
    (ParsedFile.ofText file content).classes = Decorator.ofClasses.flatMap fun decorator =>
      (findings decorator content).map (·.toClass file decorator) := by
  have outcomes : Outcomes file (findings .ngModule content)
      (ParsedFile.ofText file content).modules (ParsedFile.ofText file content).issues :=
    outcomes_toModule fun found mem => exists_metadata_of_mem_findings mem
  refine ⟨fun _ _ => ofMetadata_eq_error_iff, fun _ => exists_ofMetadata_eq_error_iff,
    fun decorator => ?_, outcomes, outcomes.length_add, ?_, rfl⟩
  · obtain ⟨finds, h, he⟩ := exists_finds_findings decorator content
    exact ⟨finds, h, h.pairwise, he⟩
  · intro front found back metadata key he hm hk
    rw [he] at outcomes
    exact outcomes.exists_without hm hk

/-- A file with a module that opens two sections and closes neither, a component, and a module that
can be read. -/
def brokenText : List Char :=
  "@NgModule(\x7b exports: [A, providers: [B \x7d) export class FirstModule \x7b\x7d\n".toList ++
    "@Component(\x7b selector: 'x' \x7d) export class Shown \x7b\x7d\n".toList ++
    "@NgModule(\x7b imports: [C] \x7d) export class SecondRoutingModule \x7b\x7d".toList

theorem outcomes_ofText_brokenText :
    FirstUnclosed "\x7b exports: [A, providers: [B \x7d".toList .exports ∧
      NeverCloses (removeComments "\x7b exports: [A, providers: [B \x7d".toList)
        "exports".toList ∧
      ∃ found back before after,
        findings .ngModule brokenText = [] ++ found :: back ∧
        found.metadata = some "\x7b exports: [A, providers: [B \x7d".toList ∧
        (ParsedFile.ofText "app.ts" brokenText).issues =
          before ++ unclosedIssue "app.ts" found.name .exports :: after ∧
        Outcomes "app.ts" ([] ++ back) (ParsedFile.ofText "app.ts" brokenText).modules
          (before ++ after) := by
  obtain ⟨fails, -, -, -, -, without, -⟩ := outcomes_ofText "app.ts" brokenText
  have unclosed : NgModule.ofMetadata "\x7b exports: [A, providers: [B \x7d".toList =
      .error (.unclosed .exports) := by decide +kernel
  obtain ⟨key, he, first⟩ := (fails _ _).1 unclosed
  obtain rfl := MetadataError.unclosed.inj he
  have texts : (findings .ngModule brokenText).map (·.metadata) =
      [some "\x7b exports: [A, providers: [B \x7d".toList,
        some "\x7b imports: [C] \x7d".toList] := by decide +kernel
  obtain ⟨found, back, split, hm, -⟩ := List.map_eq_cons_iff.1 texts
  obtain ⟨before, after, issues, rest⟩ := without [] found back _ _ split hm first
  have ⟨_, _, _, never, _⟩ := first
  exact ⟨first, never, found, back, before, after, split, hm, issues, rest⟩

end AngularAtlas.Source
