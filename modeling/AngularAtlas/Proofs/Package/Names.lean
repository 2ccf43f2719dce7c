import AngularAtlas.Proofs.Package.Additions

namespace AngularAtlas.PackageSummary

variable {texts others : List String} {kind : DependencyKind} {name : String}

theorem afterTexts_of_unreadable {before after : List String} {text : String}
    (unreadable : Manifest.ofText? text = none) :
    afterTexts (before ++ text :: after) = afterTexts (before ++ after) := by
  rw [afterTexts, List.foldl_append, List.foldl_cons, addText, unreadable, ← List.foldl_append]
  rfl

theorem mem_names_afterTexts :
    name ∈ ((afterTexts texts).names kind).names ↔
      ∃ m ∈ Manifest.readable texts, name ∈ (m.group kind).names := by
  rw [afterTexts_eq, mem_names_afterManifests]

theorem mem_names_versions_afterTexts :
    name ∈ (afterTexts texts).versions.names ↔
      ∃ kind, name ∈ ((afterTexts texts).names kind).names := by
  have absent : ¬ (none : Option String).isSome := by simp
  rw [afterTexts_eq, Table.mem_names_iff, get?_versions_afterManifests, isSome_notedAll,
    or_iff_right absent, declared_ne_nil_iff]
  simp only [mem_names_afterManifests]
  constructor
  · rintro ⟨m, mem, kind, named⟩
    exact ⟨kind, m, mem, named⟩
  · rintro ⟨kind, m, mem, named⟩
    exact ⟨m, mem, kind, named⟩

theorem names_afterTexts_perm (same : texts.Perm others) (kind : DependencyKind) :
    (afterTexts texts).names kind = (afterTexts others).names kind := by
  have manifests : (Manifest.readable texts).Perm (Manifest.readable others) := same.filterMap _
  refine Table.ext_names fun name => ?_
  simp only [mem_names_afterTexts, manifests.mem_iff]

/-- The texts of those manifests of a workspace that can be read from its files. -/
def manifestTexts (w : Workspace) : List String :=
  (w.files FileKind.isManifest).filterMap fun path => (w.tree.readSource path).toOption

/-- A scan adds the manifests of a workspace, and apart from that notes what went wrong. -/
theorem scanPackages_eq (w : Workspace) :
    { w.scanPackages with issues := [] } = afterTexts (manifestTexts w) := by
  suffices ∀ s : PackageSummary, { (w.files FileKind.isManifest).foldl w.addManifestFile s with
      issues := [] } = (manifestTexts w).foldl addText { s with issues := [] } from this {}
  unfold manifestTexts
  induction w.files FileKind.isManifest with
  | nil => exact fun s => rfl
  | cons path paths ih =>
    intro s
    rw [List.foldl_cons, ih, Workspace.addManifestFile]
    cases content : w.tree.readSource path with
    | error => simp [content, Except.toOption]
    | ok text =>
      cases read : Manifest.ofText? text with
      | none => simp [content, Except.toOption, addText, read]
      | some m => simp [content, Except.toOption, addText, read, add]

def withoutAt (name : String) : String := String.ofList (name.toList.filter (· != '@'))

/-- Names with what they are listed by. -/
def keyed (names : Table Unit) : List (String × String) :=
  names.names.map fun name => (withoutAt name, name)

theorem sortedNames_eq (names : Table Unit) :
    sortedNames names = ((keyed names).mergeSort fun a b => decide (a.1 ≤ b.1)).map (·.2) := rfl

theorem perm_sortedNames (names : Table Unit) : (sortedNames names).Perm names.names := by
  have perm : (sortedNames names).Perm ((keyed names).map (·.2)) :=
    (List.mergeSort_perm _ _).map _
  simpa [keyed, Function.comp_def] using perm

theorem pairwise_sortedNames (names : Table Unit) :
    (sortedNames names).Pairwise fun a b => withoutAt a ≤ withoutAt b := by
  have transitive : ∀ a b c : String × String, decide (a.1 ≤ b.1) = true →
      decide (b.1 ≤ c.1) = true → decide (a.1 ≤ c.1) = true := by
    intro a b c
    simpa only [decide_eq_true_eq] using le_trans
  have total : ∀ a b : String × String, (decide (a.1 ≤ b.1) || decide (b.1 ≤ a.1)) = true := by
    intro a b
    simpa only [Bool.or_eq_true, decide_eq_true_eq] using le_total _ _
  have key : ∀ entry ∈ (keyed names).mergeSort fun a b => decide (a.1 ≤ b.1),
      entry.1 = withoutAt entry.2 := by
    intro entry mem
    obtain ⟨name, -, rfl⟩ := List.mem_map.1 (List.mem_mergeSort.1 mem)
    rfl
  rw [sortedNames_eq]
  have sorted := List.pairwise_mergeSort transitive total (keyed names)
  refine List.pairwise_map.2 (sorted.imp_of_mem ?_)
  intro a b ha hb le
  rw [← key a ha, ← key b hb]
  exact of_decide_eq_true le

def shopManifest : String :=
  "\x7b\"dependencies\": \x7b\"zone.js\": \"~0.14\", \"@angular/core\": \"^17\"\x7d\x7d"

def libraryManifest : String :=
  "\x7b\"devDependencies\": \x7b\"rxjs\": \"~7.8\"\x7d, " ++
    "\"peerDependencies\": \x7b\"@angular/core\": \"^16\"\x7d\x7d"

def brokenManifest : String := "\x7b broken"

/-- Texts that are no manifests do not count. Of the others a summary has the names in each group
of dependencies, in any order of the texts, although the versions depend on it, and it has versions
for all names. Names are listed by what is left of them without `@`. A workspace is summed up by
adding its manifests. -/
theorem unites_manifests :
    (∀ before text after, Manifest.ofText? text = none →
      afterTexts (before ++ text :: after) = afterTexts (before ++ after)) ∧
    (∀ texts kind name, name ∈ ((afterTexts texts).names kind).names ↔
      ∃ m ∈ Manifest.readable texts, name ∈ (m.group kind).names) ∧
    (∀ texts name, name ∈ (afterTexts texts).versions.names ↔
      ∃ kind, name ∈ ((afterTexts texts).names kind).names) ∧
    (∀ texts others, texts.Perm others →
      ∀ kind, (afterTexts texts).names kind = (afterTexts others).names kind) ∧
    (∃ texts others, texts.Perm others ∧
      (afterTexts texts).versions ≠ (afterTexts others).versions) ∧
    (∀ names, (sortedNames names).Perm names.names ∧
      (sortedNames names).Pairwise fun a b => withoutAt a ≤ withoutAt b) ∧
    ∀ w : Workspace, { w.scanPackages with issues := [] } = afterTexts (manifestTexts w) := by
  refine ⟨fun _ _ _ => afterTexts_of_unreadable, fun _ _ _ => mem_names_afterTexts,
    fun _ _ => mem_names_versions_afterTexts, fun _ _ => names_afterTexts_perm, ?_,
    fun names => ⟨perm_sortedNames names, pairwise_sortedNames names⟩, scanPackages_eq⟩
  refine ⟨[shopManifest, libraryManifest], [libraryManifest, shopManifest], .swap .., ?_⟩
  intro same
  have versions : (afterTexts [shopManifest, libraryManifest]).version "@angular/core" =
      (afterTexts [libraryManifest, shopManifest]).version "@angular/core" := by
    rw [version, version, same]
  exact absurd versions (by decide +kernel)

theorem unites_manifests_shopManifest :
    Manifest.ofText? brokenManifest = none ∧
    afterTexts [shopManifest, brokenManifest, libraryManifest] =
      afterTexts [shopManifest, libraryManifest] ∧
    [shopManifest, brokenManifest, libraryManifest].Perm
      [libraryManifest, shopManifest, brokenManifest] ∧
    ∀ kind, (afterTexts [shopManifest, brokenManifest, libraryManifest]).names kind =
      (afterTexts [libraryManifest, shopManifest, brokenManifest]).names kind := by
  obtain ⟨unreadable, -, -, order, -⟩ := unites_manifests
  have broken : Manifest.ofText? brokenManifest = none := rfl
  have shuffled : ([shopManifest, brokenManifest] ++ [libraryManifest]).Perm
      ([libraryManifest] ++ [shopManifest, brokenManifest]) := List.perm_append_comm
  exact ⟨broken, unreadable [shopManifest] brokenManifest [libraryManifest] broken, shuffled,
    order _ _ shuffled⟩

end AngularAtlas.PackageSummary
