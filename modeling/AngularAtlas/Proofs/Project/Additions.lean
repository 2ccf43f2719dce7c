import AngularAtlas.Project

namespace AngularAtlas

open Source (NgModule DecoratedClass Decorator)

namespace Project

inductive Addition where
  | ofModule (m : NgModule)
  | ofClass (c : DecoratedClass)

def add (p : Project) : Addition → Project
  | .ofModule m => p.addModule m
  | .ofClass c => p.addClass c

/-- The project after some additions, from the first to the last. -/
def afterAdditions (additions : List Addition) : Project := additions.foldl add {}

/-- A class is what is known under its kind and name. -/
def Registered (p : Project) (c : DecoratedClass) : Prop :=
  ∃ t, p.classes? c.decorator = some t ∧ t.get? c.name = some c

/-- Classes are registered under no other kind or name than their own. -/
def Keyed (p : Project) : Prop :=
  ∀ kind t, p.classes? kind = some t → ∀ name c, t.get? name = some c →
    c.decorator = kind ∧ c.name = name

/-- Components come before directives, those before pipes, those before injectables; within a kind
names decide. -/
def Precedes (c d : DecoratedClass) : Prop :=
  Decorator.ofClasses.idxOf c.decorator < Decorator.ofClasses.idxOf d.decorator ∨
    c.decorator = d.decorator ∧ c.name < d.name

variable {p : Project} {c : DecoratedClass} {kind : Decorator} {t : Table DecoratedClass}

theorem keyed_empty : Keyed {} := by
  intro kind t ht name c hc
  cases kind with
  | ngModule => cases ht
  | component | directive | pipe | injectable =>
    obtain rfl := Option.some.inj ht
    cases hc

/-- Adding a class leaves each kind's classes as they are, or puts the class among those of its
kind. -/
theorem classes?_addClass (ht : (p.addClass c).classes? kind = some t) :
    p.classes? kind = some t ∨
      kind = c.decorator ∧ ∃ s, p.classes? kind = some s ∧ t = s.insert c.name c := by
  unfold addClass at ht
  split at ht
  case isFalse => exact .inl ht
  case isTrue =>
    cases hc : c.decorator <;> rw [hc] at ht <;> cases kind <;>
      first
        | exact .inl ht
        | exact .inr ⟨rfl, _, rfl, (Option.some.inj ht).symm⟩

theorem Keyed.add (hp : p.Keyed) (a : Addition) : (p.add a).Keyed := by
  cases a with
  | ofModule m =>
    intro kind t ht
    have same : (p.addModule m).classes? kind = p.classes? kind := by cases kind <;> rfl
    exact hp kind t (same.symm.trans ht)
  | ofClass c =>
    intro kind t ht name d hd
    rcases classes?_addClass ht with ht | ⟨rfl, s, hs, rfl⟩
    · exact hp kind t ht name d hd
    · rw [Table.get?_insert] at hd
      split at hd
      case isTrue same =>
        obtain rfl := Option.some.inj hd
        exact ⟨rfl, same.symm⟩
      case isFalse => exact hp _ s hs name d hd

theorem keyed_afterAdditions (additions : List Addition) : (afterAdditions additions).Keyed := by
  suffices ∀ p : Project, p.Keyed → (additions.foldl add p).Keyed from this {} keyed_empty
  induction additions with
  | nil => exact fun p hp => hp
  | cons a additions ih => exact fun p hp => ih (p.add a) (hp.add a)

/-- The classes of a kind in the order of their names. -/
def classesOf (p : Project) (kind : Decorator) : List DecoratedClass :=
  ((p.classes? kind).map (·.values)).getD []

theorem requesters_eq (p : Project) :
    p.requesters = (Decorator.ofClasses.flatMap p.classesOf).filter (·.dependencies ≠ []) := by
  simp [requesters, Decorator.ofClasses, classesOf, classes?]

theorem mem_classesOf :
    c ∈ p.classesOf kind ↔ ∃ t, p.classes? kind = some t ∧ ∃ name, t.get? name = some c := by
  unfold classesOf
  cases p.classes? kind with
  | none => simp
  | some t => simp [Table.mem_values_iff]

theorem Keyed.mem_classesOf_iff (hp : p.Keyed) :
    c ∈ p.classesOf kind ↔ p.Registered c ∧ c.decorator = kind := by
  rw [mem_classesOf]
  constructor
  · rintro ⟨t, ht, name, hc⟩
    obtain ⟨rfl, rfl⟩ := hp kind t ht name c hc
    exact ⟨⟨t, ht, hc⟩, rfl⟩
  · rintro ⟨⟨t, ht, hc⟩, rfl⟩
    exact ⟨t, ht, c.name, hc⟩

theorem Keyed.pairwise_classesOf (hp : p.Keyed) (kind : Decorator) :
    (p.classesOf kind).Pairwise Precedes := by
  cases ht : p.classes? kind with
  | none => simp [classesOf, ht]
  | some t =>
    have values : p.classesOf kind = t.values := by simp [classesOf, ht]
    rw [values]
    refine List.pairwise_map.2 (t.increasing.imp_of_mem ?_)
    intro a b ha hb lt
    obtain ⟨kindA, nameA⟩ := hp kind t ht a.1 a.2 (Table.mem_entries_iff.1 ha)
    obtain ⟨kindB, nameB⟩ := hp kind t ht b.1 b.2 (Table.mem_entries_iff.1 hb)
    right
    rw [kindA, kindB, nameA, nameB]
    exact ⟨rfl, lt⟩

theorem Keyed.pairwise_requesters (hp : p.Keyed) : p.requesters.Pairwise Precedes := by
  rw [requesters_eq]
  apply List.Pairwise.filter
  rw [List.pairwise_flatMap]
  refine ⟨fun kind _ => hp.pairwise_classesOf kind, ?_⟩
  have kinds : Decorator.ofClasses.Pairwise fun kind later =>
      Decorator.ofClasses.idxOf kind < Decorator.ofClasses.idxOf later := by decide
  refine kinds.imp ?_
  intro kind later lt c hc d hd
  obtain ⟨-, rfl⟩ := hp.mem_classesOf_iff.1 hc
  obtain ⟨-, rfl⟩ := hp.mem_classesOf_iff.1 hd
  exact .inl lt

theorem Registered.mem_ofClasses (hc : p.Registered c) : c.decorator ∈ Decorator.ofClasses := by
  obtain ⟨t, ht, -⟩ := hc
  cases hk : c.decorator with
  | ngModule =>
    rw [hk] at ht
    cases ht
  | component | directive | pipe | injectable => decide

theorem Keyed.mem_requesters_iff (hp : p.Keyed) :
    c ∈ p.requesters ↔ p.Registered c ∧ c.dependencies ≠ [] := by
  rw [requesters_eq, List.mem_filter, List.mem_flatMap, decide_eq_true_eq]
  refine and_congr_left fun _ => ?_
  constructor
  · rintro ⟨kind, -, hc⟩
    exact (hp.mem_classesOf_iff.1 hc).1
  · intro hc
    exact ⟨c.decorator, hc.mem_ofClasses, hp.mem_classesOf_iff.2 ⟨hc, rfl⟩⟩

end Project

end AngularAtlas
