import AngularAtlas.Proofs.Table
import AngularAtlas.Workspace.Scan
import Mathlib.Tactic.Tauto

namespace AngularAtlas

/-- The groups of dependencies of a manifest, in the order in which their versions are noted. -/
inductive DependencyKind where
  | development
  | regular
  | peer
deriving Repr, DecidableEq

def DependencyKind.all : List DependencyKind := [.development, .regular, .peer]

theorem DependencyKind.mem_all (kind : DependencyKind) : kind ∈ all := by
  cases kind <;> decide

namespace Manifest

def group (m : Manifest) : DependencyKind → Table Json
  | .development => m.devDependencies
  | .regular => m.dependencies
  | .peer => m.peerDependencies

/-- The version texts that a manifest declares for a package. -/
def declared (m : Manifest) (package : String) : List String :=
  DependencyKind.all.filterMap fun kind => ((m.group kind).get? package).map versionText

theorem mem_declared {m : Manifest} {package text : String} :
    text ∈ m.declared package ↔
      ∃ kind value, (m.group kind).get? package = some value ∧ versionText value = text := by
  simp [declared, DependencyKind.mem_all]

/-- The manifests among some texts. -/
def readable (texts : List String) : List Manifest := texts.filterMap ofText?

end Manifest

namespace PackageSummary

variable {s : PackageSummary} {m : Manifest} {texts others : List String} {kind : DependencyKind}
  {name : String}

def names (s : PackageSummary) : DependencyKind → Table Unit
  | .development => s.devDependencies
  | .regular => s.dependencies
  | .peer => s.peerDependencies

theorem ext_parts {s t : PackageSummary} (names : ∀ kind, s.names kind = t.names kind)
    (versions : s.versions = t.versions) (issues : s.issues = t.issues) : s = t :=
  mk.injEq .. |>.mpr
    ⟨names .regular, names .development, names .peer, versions, issues⟩

/-- Adds the manifest in a text, if there is one. -/
def addText (s : PackageSummary) (text : String) : PackageSummary :=
  match Manifest.ofText? text with
  | none => s
  | some m => s.add m

/-- The summary after some texts were added, from the first to the last. -/
def afterTexts (texts : List String) : PackageSummary := texts.foldl addText {}

def afterManifests (manifests : List Manifest) : PackageSummary := manifests.foldl add {}

theorem afterTexts_eq (texts : List String) :
    afterTexts texts = afterManifests (Manifest.readable texts) := by
  suffices ∀ s : PackageSummary, texts.foldl addText s = (Manifest.readable texts).foldl add s from
    this {}
  induction texts with
  | nil => exact fun s => rfl
  | cons text texts ih =>
    intro s
    rw [List.foldl_cons, ih, addText]
    cases read : Manifest.ofText? text <;> simp [Manifest.readable, read]

theorem names_add (s : PackageSummary) (m : Manifest) (kind : DependencyKind) :
    (s.add m).names kind = addNames (s.names kind) (m.group kind) := by
  cases kind <;> rfl

theorem mem_names_addNames {t : Table Unit} {group : Table Json} :
    name ∈ (addNames t group).names ↔ name ∈ t.names ∨ name ∈ group.names := by
  unfold addNames
  generalize group.names = added
  induction added generalizing t with
  | nil => simp
  | cons first added ih =>
    rw [List.foldl_cons, ih, Table.mem_names_insert, List.mem_cons]
    tauto

theorem mem_names_foldl_add (s : PackageSummary) (manifests : List Manifest) :
    name ∈ ((manifests.foldl add s).names kind).names ↔
      name ∈ (s.names kind).names ∨ ∃ m ∈ manifests, name ∈ (m.group kind).names := by
  induction manifests generalizing s with
  | nil => simp
  | cons m manifests ih =>
    rw [List.foldl_cons, ih, names_add, mem_names_addNames]
    simp [or_assoc]

theorem mem_names_afterManifests {manifests : List Manifest} :
    name ∈ ((afterManifests manifests).names kind).names ↔
      ∃ m ∈ manifests, name ∈ (m.group kind).names := by
  have nothing : name ∉ (({} : PackageSummary).names kind).names := by
    cases kind <;> exact List.not_mem_nil
  rw [afterManifests, mem_names_foldl_add, or_iff_right nothing]

/-- What is known of a package's versions when one more is noted. -/
def noted : Option String → String → String
  | none, version => version
  | some known, version =>
    if (commaPieces known.toList).contains version.toList then known
    else known ++ ", " ++ version

def notedAll (known : Option String) (versions : List String) : Option String :=
  versions.foldl (fun known version => some (noted known version)) known

theorem notedAll_cons (known : Option String) (version : String) (versions : List String) :
    notedAll known (version :: versions) = notedAll (some (noted known version)) versions :=
  rfl

theorem notedAll_append (known : Option String) (versions more : List String) :
    notedAll known (versions ++ more) = notedAll (notedAll known versions) more :=
  List.foldl_append

theorem isSome_notedAll (known : Option String) (versions : List String) :
    (notedAll known versions).isSome ↔ known.isSome ∨ versions ≠ [] := by
  induction versions generalizing known with
  | nil => simp [notedAll]
  | cons version versions ih =>
    have rest := (ih (some (noted known version))).2 (.inl rfl)
    exact ⟨fun _ => .inr (List.cons_ne_nil _ _), fun _ => rest⟩

theorem get?_recordVersion (versions : Table String) (package version name : String) :
    (recordVersion versions package version).get? name =
      if name = package then some (noted (versions.get? package) version)
      else versions.get? name := by
  rw [recordVersion]
  cases known : versions.get? package with
  | none => exact Table.get?_insert ..
  | some text =>
    simp only [noted]
    split
    · by_cases same : name = package <;> simp [same, known]
    · exact Table.get?_insert ..

/-- A group of dependencies has one version at most for a package. -/
theorem get?_recordAll (versions : Table String) (group : Table Json) (name : String) :
    (recordAll versions group).get? name =
      notedAll (versions.get? name) ((group.get? name).map versionText).toList := by
  obtain ⟨entries, increasing⟩ := group
  change (entries.foldl (fun t entry => recordVersion t entry.1 (versionText entry.2))
    versions).get? name = notedAll _ ((entries.lookup name).map versionText).toList
  induction entries generalizing versions with
  | nil => rfl
  | cons entry entries ih =>
    obtain ⟨first, increasing⟩ := List.pairwise_cons.1 increasing
    rw [List.foldl_cons, ih _ increasing, get?_recordVersion, Table.lookup_cons_eq_ite]
    by_cases same : name = entry.1
    · -- no later entry is for the same package
      have absent : entries.lookup name = none := by
        rw [List.lookup_eq_none_iff]
        intro other mem
        rw [same, bne_iff_ne]
        exact (first other mem).ne
      simp [same ▸ absent, same, notedAll]
    · simp [same]

theorem get?_versions_add (s : PackageSummary) (m : Manifest) (name : String) :
    (s.add m).versions.get? name = notedAll (s.versions.get? name) (m.declared name) := by
  have groups : m.declared name =
      ((m.devDependencies.get? name).map versionText).toList ++
        ((m.dependencies.get? name).map versionText).toList ++
        ((m.peerDependencies.get? name).map versionText).toList := by
    simp only [Manifest.declared, DependencyKind.all, Manifest.group, List.filterMap_cons]
    cases m.devDependencies.get? name <;> cases m.dependencies.get? name <;>
      cases m.peerDependencies.get? name <;> rfl
  rw [groups, notedAll_append, notedAll_append, ← get?_recordAll, ← get?_recordAll,
    ← get?_recordAll]
  rfl

/-- The version texts that some manifests declare for a package, in the order of the manifests. -/
def declared (manifests : List Manifest) (name : String) : List String :=
  manifests.flatMap (·.declared name)

theorem declared_ne_nil_iff {manifests : List Manifest} :
    declared manifests name ≠ [] ↔ ∃ m ∈ manifests, ∃ kind, name ∈ (m.group kind).names := by
  simp only [Table.mem_names_iff, Option.isSome_iff_exists]
  constructor
  · intro ne
    obtain ⟨text, mem⟩ := List.exists_mem_of_ne_nil _ ne
    obtain ⟨m, mem, declares⟩ := List.mem_flatMap.1 mem
    obtain ⟨kind, value, found, -⟩ := Manifest.mem_declared.1 declares
    exact ⟨m, mem, kind, value, found⟩
  · rintro ⟨m, mem, kind, value, found⟩
    exact List.ne_nil_of_mem
      (List.mem_flatMap.2 ⟨m, mem, Manifest.mem_declared.2 ⟨kind, value, found, rfl⟩⟩)

theorem get?_versions_afterManifests (manifests : List Manifest) (name : String) :
    (afterManifests manifests).versions.get? name = notedAll none (declared manifests name) := by
  suffices ∀ s : PackageSummary, (manifests.foldl add s).versions.get? name =
      notedAll (s.versions.get? name) (declared manifests name) from this {}
  induction manifests with
  | nil => exact fun s => rfl
  | cons m manifests ih =>
    intro s
    rw [List.foldl_cons, ih, get?_versions_add, ← notedAll_append]
    rfl

end PackageSummary

end AngularAtlas
