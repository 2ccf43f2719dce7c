import AngularAtlas.Component.Hierarchy
import AngularAtlas.Proofs.Table

namespace AngularAtlas

namespace Path

/-- A directory is another one or stands above it. -/
def Encloses (outer inner : List Segment) : Prop :=
  ∃ rest, inner = outer ++ rest ∧ .root ∉ rest

/-- What a path leads to stands in a directory. -/
def StandsIn (path : String) (directory : List Segment) : Prop :=
  ∃ last, segments path = directory ++ [last] ∧ last ≠ .root

variable {outer inner parent : List Segment}

theorem Encloses.refl (directory : List Segment) : Encloses directory directory :=
  ⟨[], (List.append_nil _).symm, List.not_mem_nil⟩

theorem Encloses.length_le (he : Encloses outer inner) : outer.length ≤ inner.length := by
  obtain ⟨rest, rfl, -⟩ := he
  rw [List.length_append]
  exact Nat.le_add_right _ _

theorem parentSegments?_eq_some_iff :
    parentSegments? inner = some parent ↔ ∃ last, inner = parent ++ [last] ∧ last ≠ .root := by
  rcases List.eq_nil_or_concat' inner with rfl | ⟨start, last, rfl⟩
  · simp [parentSegments?]
  · rw [parentSegments?, List.getLast?_concat, List.dropLast_concat]
    cases last <;> simp [eq_comm]

theorem wellFounded_parentSegments? :
    WellFounded fun parent inner => parentSegments? inner = some parent := by
  refine Subrelation.wf (fun {parent inner} up => ?_) (measure List.length).wf
  obtain ⟨last, rfl, -⟩ := parentSegments?_eq_some_iff.1 up
  change parent.length < (parent ++ [last]).length
  rw [List.length_append, List.length_singleton]
  exact Nat.lt_succ_self _

/-- What encloses a directory is that directory itself or encloses its parent. -/
theorem encloses_iff_of_parent (up : parentSegments? inner = some parent) :
    Encloses outer inner ↔ outer = inner ∨ Encloses outer parent := by
  obtain ⟨last, rfl, hl⟩ := parentSegments?_eq_some_iff.1 up
  constructor
  · rintro ⟨rest, he, hr⟩
    rcases List.eq_nil_or_concat' rest with rfl | ⟨rest, other, rfl⟩
    · exact .inl (he.trans (List.append_nil _)).symm
    · rw [← List.append_assoc] at he
      exact .inr ⟨rest, (List.append_inj' he rfl).1,
        fun mem => hr (List.mem_append_left _ mem)⟩
  · rintro (rfl | ⟨rest, rfl, hr⟩)
    · exact .refl _
    · refine ⟨rest ++ [last], List.append_assoc .., fun mem => ?_⟩
      rcases List.mem_append.1 mem with mem | mem
      · exact hr mem
      · exact hl (List.mem_singleton.1 mem).symm

theorem encloses_iff_of_no_parent (top : parentSegments? inner = none) :
    Encloses outer inner ↔ outer = inner := by
  constructor
  · rintro ⟨rest, he, hr⟩
    rcases List.eq_nil_or_concat' rest with rfl | ⟨rest, last, rfl⟩
    · exact (he.trans (List.append_nil _)).symm
    · have hl : last ≠ .root := fun same => hr (same ▸ List.mem_append_right _ List.mem_cons_self)
      rw [← List.append_assoc] at he
      rw [parentSegments?_eq_some_iff.2 ⟨last, he, hl⟩] at top
      cases top
  · rintro rfl
    exact .refl _

end Path

namespace Hierarchy

/-- A component with a router outlet, with its key and the directory of its source. -/
structure IsOutlet (h : Hierarchy) (key : String) (c : Component) (place : List Segment) :
    Prop where
  stored : h.component? key = some c
  hasOutlet : c.hasOutlet = true
  standsIn : Path.StandsIn c.file place

/-- A router outlet in the deepest directory around a directory, of several there the one with the
smallest key. -/
structure IsNearest (h : Hierarchy) (directory : List Segment) (key : String) (c : Component)
    (place : List Segment) : Prop where
  outlet : IsOutlet h key c place
  encloses : Path.Encloses place directory
  least : ∀ {other d there}, IsOutlet h other d there → Path.Encloses there directory →
    there.length < place.length ∨ there = place ∧ key ≤ other

variable {h : Hierarchy} {directory place : List Segment} {key other name : String}
  {c d : Component}

theorem IsNearest.unique {there : List Segment} (hc : IsNearest h directory key c place)
    (hd : IsNearest h directory other d there) : c = d := by
  have same : key = other := by
    rcases hc.least hd.outlet hd.encloses with shorter | ⟨at_place, le⟩ <;>
      rcases hd.least hc.outlet hc.encloses with deeper | ⟨at_there, ge⟩
    · exact absurd shorter (Nat.lt_asymm deeper)
    · exact absurd (congrArg List.length at_there) (Nat.ne_of_gt shorter)
    · exact absurd (congrArg List.length at_place) (Nat.ne_of_gt deeper)
    · exact le_antisymm le ge
  subst same
  exact Option.some.inj (hc.outlet.stored.symm.trans hd.outlet.stored)

/-- A component has a router outlet, and its source stands in a directory. -/
def opensIn (directory : List Segment) (c : Component) : Bool :=
  c.hasOutlet && Path.parentSegments? (Path.segments c.file) == some directory

theorem isOutlet_iff :
    IsOutlet h key c place ↔ h.component? key = some c ∧ opensIn place c = true := by
  rw [opensIn, Bool.and_eq_true, beq_iff_eq, Path.parentSegments?_eq_some_iff]
  constructor
  · rintro ⟨stored, outlet, file⟩
    exact ⟨stored, outlet, file⟩
  · rintro ⟨stored, outlet, file⟩
    exact ⟨stored, outlet, file⟩

theorem not_isOutlet_of_find? (none : h.components.values.find? (opensIn directory) = none) :
    ¬ IsOutlet h key c directory := by
  intro outlet
  obtain ⟨stored, opens⟩ := isOutlet_iff.1 outlet
  exact List.find?_eq_none.1 none c (Table.mem_values_iff.2 ⟨key, stored⟩) opens

/-- One round of the climb that finds a host. -/
theorem isNearest_of_find? (found : h.components.values.find? (opensIn directory) = some c) :
    ∃ key, IsNearest h directory key c directory := by
  obtain ⟨key, stored, opens, first⟩ := Table.exists_of_find?_values found
  refine ⟨key, isOutlet_iff.2 ⟨stored, opens⟩, .refl _, fun {other d there} outlet encloses => ?_⟩
  rcases encloses.length_le.lt_or_eq with shorter | same
  · exact .inl shorter
  · obtain ⟨rest, rfl, -⟩ := encloses
    obtain rfl : rest = [] := by simpa using same
    rw [List.append_nil] at first ⊢
    obtain ⟨stored, opens⟩ := isOutlet_iff.1 outlet
    exact .inr ⟨rfl, first stored opens⟩

/-- One round of the climb that goes on. -/
theorem isNearest_of_parent {parent : List Segment}
    (none : h.components.values.find? (opensIn directory) = none)
    (up : Path.parentSegments? directory = some parent)
    (hc : IsNearest h parent key c place) : IsNearest h directory key c place where
  outlet := hc.outlet
  encloses := (Path.encloses_iff_of_parent up).2 (.inr hc.encloses)
  least := by
    intro other d there outlet encloses
    rcases (Path.encloses_iff_of_parent up).1 encloses with rfl | encloses
    · exact absurd outlet (not_isOutlet_of_find? none)
    · exact hc.least outlet encloses

theorem isNearest_of_routerHost? (hk : h.routerHost? directory = some name) :
    ∃ key c place, IsNearest h directory key c place ∧ c.key = name := by
  fun_induction routerHost? h directory with
  | case1 directory c found =>
    obtain ⟨key, nearest⟩ := isNearest_of_find? found
    exact ⟨key, c, directory, nearest, Option.some.inj hk⟩
  | case2 => cases hk
  | case3 directory none parent up ih =>
    obtain ⟨key, c, place, nearest, he⟩ := ih hk
    exact ⟨key, c, place, isNearest_of_parent none up nearest, he⟩

theorem not_isOutlet_of_routerHost? (hk : h.routerHost? directory = none)
    (outlet : IsOutlet h key c place) : ¬ Path.Encloses place directory := by
  fun_induction routerHost? h directory with
  | case1 => cases hk
  | case2 directory none up =>
    rw [Path.encloses_iff_of_no_parent up]
    rintro rfl
    exact not_isOutlet_of_find? none outlet
  | case3 directory none parent up ih =>
    rw [Path.encloses_iff_of_parent up]
    rintro (rfl | encloses)
    · exact not_isOutlet_of_find? none outlet
    · exact ih hk encloses

/-- The climb through the directories around one ends, and it gives the name of the nearest router
outlet; it gives none just when no directory around has an outlet. -/
theorem routerHost?_isNearest (h : Hierarchy) (directory : List Segment) :
    (WellFounded fun parent inner => Path.parentSegments? inner = some parent) ∧
    (∀ name, h.routerHost? directory = some name ↔
      ∃ key c place, IsNearest h directory key c place ∧ c.key = name) ∧
    (h.routerHost? directory = none ↔
      ∀ key c place, IsOutlet h key c place → ¬ Path.Encloses place directory) := by
  refine ⟨Path.wellFounded_parentSegments?, fun name => ⟨isNearest_of_routerHost?, ?_⟩,
    fun hk _ _ _ outlet => not_isOutlet_of_routerHost? hk outlet, fun away => ?_⟩
  · rintro ⟨key, c, place, nearest, rfl⟩
    cases hk : h.routerHost? directory with
    | none => exact absurd nearest.encloses (not_isOutlet_of_routerHost? hk nearest.outlet)
    | some name =>
      obtain ⟨_, d, _, also, rfl⟩ := isNearest_of_routerHost? hk
      rw [nearest.unique also]
  · cases hk : h.routerHost? directory with
    | none => rfl
    | some name =>
      obtain ⟨_, _, _, nearest, -⟩ := isNearest_of_routerHost? hk
      exact absurd nearest.encloses (away _ _ _ nearest.outlet)

/-- Two outlets in one directory, and one further down. -/
def nestedOutlets : Hierarchy :=
  [{ name := "Site", file := "/app/site.ts", hasOutlet := true },
    { name := "Frame", file := "/app/frame.ts", hasOutlet := true },
    { name := "Admin", file := "/app/admin/admin.ts", hasOutlet := true : Component }].foldl
      insert {}

example : ["/app/admin/users", "/app/heroes", "/lib"].map
    (fun path => nestedOutlets.routerHost? (Path.segments path)) =
      [some "Admin", some "Frame", none] := by decide +kernel

end Hierarchy

end AngularAtlas
