import AngularAtlas.Component.Hierarchy

/-!
The visits of a walk. Main statement: a walk visits each root once without a parent, and from
each component that can be reached from a root it visits each stored child once, in order;
nothing else is visited.
-/

namespace AngularAtlas.Hierarchy

variable {h : Hierarchy} {c p : Component} {key : String} {kind : ChildKind}
  {expanded : List String} {steps : List Step}

/-- The hierarchy of some components; of several with one key the first counts. -/
def ofComponents (cs : List Component) : Hierarchy := cs.foldl insert {}

/-- Components are stored under their keys. -/
def Keyed (h : Hierarchy) : Prop :=
  ∀ key c, h.component? key = some c → c.key = key

theorem Keyed.insert (hk : Keyed h) (c : Component) : Keyed (h.insert c) := by
  unfold Hierarchy.insert
  split
  · exact hk
  · intro key d hd
    rw [component?, Table.get?_insert] at hd
    split at hd
    case isTrue he => rw [he, ← Option.some.inj hd]
    case isFalse => exact hk key d hd

theorem keyed_ofComponents (cs : List Component) : Keyed (ofComponents cs) := by
  suffices ∀ (cs : List Component) (h : Hierarchy), Keyed h → Keyed (cs.foldl Hierarchy.insert h)
    from this cs {} (by rintro key c ⟨⟩)
  intro cs
  induction cs with
  | nil => exact fun _ hk => hk
  | cons c cs ih => exact fun h hk => ih _ (hk.insert c)

/-- What is stored under the key of a component is that component. -/
def Holds (h : Hierarchy) (c : Component) : Prop := h.component? c.key = some c

theorem Holds.eq_of_key_eq (hc : Holds h c) (hp : Holds h p) (hk : c.key = p.key) : c = p := by
  rw [Holds, hk, hp] at hc
  exact (Option.some.inj hc).symm

theorem Keyed.holds (hk : Keyed h) (hc : h.component? key = some c) : Holds h c := by
  rw [Holds, hk key c hc, hc]

theorem Keyed.holds_of_mem_roots (hk : Keyed h) (hc : c ∈ h.roots) : Holds h c := by
  obtain ⟨key, hc⟩ := Table.mem_values_iff.1 (List.mem_filter.1 hc).1
  exact hk.holds hc

/-- The components that can be reached from a root through stored children. -/
inductive Reached (h : Hierarchy) : Component → Prop
  | root {c : Component} : c ∈ h.roots → Reached h c
  | child {p c : Component} {key : String} {kind : ChildKind} :
      Reached h p → key ∈ childrenOfKind p kind → h.component? key = some c → Reached h c

/-- A visit to a component that can be reached, from a parent that can be reached if from any. -/
def Step.IsReached (h : Hierarchy) (step : Step) : Prop :=
  Reached h step.component ∧ ∀ parent ∈ step.parent, Reached h parent.1

/-- The visits that come from a component. -/
def stepsBelow (p : Component) (steps : List Step) : List Step :=
  steps.filter fun step => step.parent.map (·.1) = some p

theorem mem_childSteps_iff {step : Step} :
    step ∈ childSteps h p ↔
      ∃ key kind, key ∈ childrenOfKind p kind ∧ h.component? key = some step.component ∧
        step.parent = some (p, kind) := by
  obtain ⟨c, parent⟩ := step
  simp only [childSteps, List.mem_filterMap, Option.map_eq_some_iff, Step.mk.injEq, Prod.exists,
    Component.children, List.mem_append, List.mem_map, Prod.mk.injEq]
  constructor
  · rintro ⟨key, kind, mem, _, hc, rfl, rfl⟩
    rcases mem with ⟨_, mem, rfl, rfl⟩ | ⟨_, mem, rfl, rfl⟩
    · exact ⟨_, .template, mem, hc, rfl⟩
    · exact ⟨_, .route, mem, hc, rfl⟩
  · rintro ⟨key, kind, mem, hc, rfl⟩
    refine ⟨key, kind, ?_, c, hc, rfl, rfl⟩
    cases kind
    · exact .inl ⟨key, mem, rfl, rfl⟩
    · exact .inr ⟨key, mem, rfl, rfl⟩

theorem childSteps_eq (h : Hierarchy) (p : Component) :
    childSteps h p =
      (p.templateChildren.filterMap fun key =>
        (h.component? key).map fun c => ⟨c, some (p, .template)⟩) ++
      p.routeChildren.filterMap fun key =>
        (h.component? key).map fun c => ⟨c, some (p, .route)⟩ := by
  simp only [childSteps, Component.children, List.filterMap_append, List.filterMap_map]
  rfl

theorem stepsBelow_childSteps_self : stepsBelow p (childSteps h p) = childSteps h p := by
  refine List.filter_eq_self.2 fun step mem => ?_
  obtain ⟨key, kind, -, -, hs⟩ := mem_childSteps_iff.1 mem
  simp [hs]

theorem stepsBelow_childSteps_of_ne (ne : c ≠ p) : stepsBelow p (childSteps h c) = [] := by
  refine List.filter_eq_nil_iff.2 fun step mem => ?_
  obtain ⟨key, kind, -, -, hs⟩ := mem_childSteps_iff.1 mem
  simp [hs, ne]

theorem filter_isNone_childSteps : (childSteps h p).filter (·.parent.isNone) = [] := by
  refine List.filter_eq_nil_iff.2 fun step mem => ?_
  obtain ⟨key, kind, -, -, hs⟩ := mem_childSteps_iff.1 mem
  simp [hs]

theorem sublist_walkFrom (h : Hierarchy) (expanded : List String) (steps : List Step) :
    steps.Sublist (walkFrom h expanded steps) := by
  fun_induction walkFrom with
  | case1 => exact .slnil
  | case2 expanded step rest _ ih => exact ih.cons_cons step
  | case3 expanded step rest _ ih =>
    exact ((List.sublist_append_right _ rest).trans ih).cons_cons step

theorem filter_isNone_walkFrom (h : Hierarchy) (expanded : List String) (steps : List Step) :
    (walkFrom h expanded steps).filter (·.parent.isNone) = steps.filter (·.parent.isNone) := by
  fun_induction walkFrom with
  | case1 => rfl
  | case2 expanded step rest _ ih => rw [List.filter_cons, List.filter_cons, ih]
  | case3 expanded step rest _ ih =>
    rw [List.filter_append, filter_isNone_childSteps, List.nil_append] at ih
    rw [List.filter_cons, List.filter_cons, ih]

theorem isReached_of_mem_walkFrom (due : ∀ step ∈ steps, step.IsReached h) :
    ∀ step ∈ walkFrom h expanded steps, step.IsReached h := by
  fun_induction walkFrom with
  | case1 => exact due
  | case2 expanded step rest _ ih =>
    obtain ⟨first, later⟩ := List.forall_mem_cons.1 due
    exact List.forall_mem_cons.2 ⟨first, ih later⟩
  | case3 expanded step rest _ ih =>
    obtain ⟨first, later⟩ := List.forall_mem_cons.1 due
    refine List.forall_mem_cons.2 ⟨first, ih fun s hs => ?_⟩
    rcases List.mem_append.1 hs with hs | hs
    · obtain ⟨key, kind, mem, hc, hp⟩ := mem_childSteps_iff.1 hs
      refine ⟨.child first.1 mem hc, fun parent he => ?_⟩
      rw [hp] at he
      exact Option.some.inj he ▸ first.1
    · exact later s hs

@[simp] theorem stepsBelow_append (p : Component) (steps later : List Step) :
    stepsBelow p (steps ++ later) = stepsBelow p steps ++ stepsBelow p later :=
  List.filter_append ..

theorem stepsBelow_cons (p : Component) (step : Step) (later : List Step) :
    stepsBelow p (step :: later) =
      if step.parent.map (·.1) = some p then step :: stepsBelow p later
      else stepsBelow p later := by
  simp only [stepsBelow, List.filter_cons, decide_eq_true_eq]

theorem stepsBelow_walkFrom_of_mem (hx : p.key ∈ expanded) :
    stepsBelow p (walkFrom h expanded steps) = stepsBelow p steps := by
  fun_induction walkFrom with
  | case1 => rfl
  | case2 expanded step rest _ ih => rw [stepsBelow_cons, stepsBelow_cons, ih hx]
  | case3 expanded step rest new ih =>
    have ne : step.component ≠ p := by
      rintro rfl
      exact new (List.contains_iff_mem.2 hx)
    have ih := ih (List.mem_cons_of_mem _ hx)
    rw [stepsBelow_append, stepsBelow_childSteps_of_ne ne, List.nil_append] at ih
    rw [stepsBelow_cons, stepsBelow_cons, ih]

/-- The children of a component are visited when the component is visited for the first time,
and then not again. -/
theorem stepsBelow_walkFrom (hk : Keyed h) (hp : Holds h p) (hx : p.key ∉ expanded)
    (holds : ∀ step ∈ steps, Holds h step.component) (due : stepsBelow p steps = []) :
    stepsBelow p (walkFrom h expanded steps) =
      if p ∈ (walkFrom h expanded steps).map (·.component) then childSteps h p else [] := by
  fun_induction walkFrom with
  | case1 => rfl
  | case2 expanded step rest old ih =>
    have ne : p ≠ step.component := by
      rintro rfl
      exact hx (List.contains_iff_mem.1 old)
    rw [stepsBelow_cons] at due ⊢
    split at due
    case isTrue => cases due
    case isFalse hs =>
      rw [if_neg hs, ih hx (List.forall_mem_cons.1 holds).2 due]
      simp only [List.map_cons, List.mem_cons, ne, false_or]
  | case3 expanded step rest new ih =>
    obtain ⟨first, later⟩ := List.forall_mem_cons.1 holds
    rw [stepsBelow_cons] at due ⊢
    split at due
    case isTrue => cases due
    case isFalse hs =>
      rw [if_neg hs]
      by_cases he : p = step.component
      · -- the component is expanded here, and its children are all that comes below it
        subst he
        rw [stepsBelow_walkFrom_of_mem List.mem_cons_self, stepsBelow_append,
          stepsBelow_childSteps_self, due, List.append_nil, List.map_cons,
          if_pos List.mem_cons_self]
      · have fresh : p.key ∉ step.component.key :: expanded := by
          rw [List.mem_cons, not_or]
          exact ⟨fun hkey => he (hp.eq_of_key_eq first hkey), hx⟩
        rw [ih fresh]
        · simp only [List.map_cons, List.mem_cons, he, false_or]
        · intro s hs
          rcases List.mem_append.1 hs with hs | hs
          · obtain ⟨key, kind, -, hc, -⟩ := mem_childSteps_iff.1 hs
            exact hk.holds hc
          · exact later s hs
        · rw [stepsBelow_append, stepsBelow_childSteps_of_ne (Ne.symm he), due, List.nil_append]

theorem isReached_of_mem_walk {step : Step} (mem : step ∈ h.walk) : step.IsReached h := by
  refine isReached_of_mem_walkFrom (fun s hs => ?_) step mem
  obtain ⟨c, hc, rfl⟩ := List.mem_map.1 hs
  refine ⟨.root hc, ?_⟩
  rintro parent ⟨⟩

theorem filter_isNone_walk (h : Hierarchy) :
    h.walk.filter (·.parent.isNone) = h.roots.map fun c => ⟨c, none⟩ := by
  rw [walk, filter_isNone_walkFrom]
  exact List.filter_eq_self.2 fun step mem => by
    obtain ⟨c, -, rfl⟩ := List.mem_map.1 mem
    rfl

theorem Reached.holds (hk : Keyed h) (hr : Reached h p) : Holds h p := by
  cases hr with
  | root mem => exact hk.holds_of_mem_roots mem
  | child _ _ hc => exact hk.holds hc

theorem stepsBelow_walk (hk : Keyed h) (hp : Holds h p) :
    stepsBelow p h.walk =
      if p ∈ h.walk.map (·.component) then childSteps h p else [] := by
  refine stepsBelow_walkFrom hk hp List.not_mem_nil (fun step mem => ?_) ?_
  · obtain ⟨c, hc, rfl⟩ := List.mem_map.1 mem
    exact hk.holds_of_mem_roots hc
  · refine List.filter_eq_nil_iff.2 fun step mem => ?_
    obtain ⟨c, -, rfl⟩ := List.mem_map.1 mem
    simp

theorem mem_walk_of_reached (hk : Keyed h) (hr : Reached h p) :
    p ∈ h.walk.map (·.component) := by
  induction hr with
  | root mem =>
    have due := (sublist_walkFrom h [] (h.roots.map fun c => ⟨c, none⟩)).subset
      (List.mem_map_of_mem mem)
    exact List.mem_map.2 ⟨_, due, rfl⟩
  | @child p c key kind hp mem hc ih =>
    have visit : (⟨c, some (p, kind)⟩ : Step) ∈ childSteps h p :=
      mem_childSteps_iff.2 ⟨key, kind, mem, hc, rfl⟩
    have below := stepsBelow_walk hk (hp.holds hk)
    rw [if_pos ih] at below
    rw [← below] at visit
    exact List.mem_map.2 ⟨_, (List.mem_filter.1 visit).1, rfl⟩

theorem stepsBelow_walk_of_reached (hk : Keyed h) (hr : Reached h p) :
    stepsBelow p h.walk = childSteps h p := by
  rw [stepsBelow_walk hk (hr.holds hk), if_pos (mem_walk_of_reached hk hr)]

theorem stepsBelow_walk_of_not_reached (hr : ¬ Reached h p) : stepsBelow p h.walk = [] := by
  refine List.filter_eq_nil_iff.2 fun step mem hs => hr ?_
  obtain ⟨parent, hp, rfl⟩ := Option.map_eq_some_iff.1 (of_decide_eq_true hs)
  exact (isReached_of_mem_walk mem).2 parent hp

/-- A root that has itself as a child. -/
def selfUser : Component where
  name := "A"
  selector := "a"
  templateChildren := ["b", "missing", "b", "a"]

/-- A child of `selfUser` that uses it in turn. -/
def backUser : Component where
  name := "B"
  selector := "b"
  templateChildren := ["a"]
  routeChildren := ["a"]
  isRoot := false

/-- A component to which no root leads. -/
def orphan : Component := { name := "C", selector := "c", routeChildren := ["b"], isRoot := false }

end AngularAtlas.Hierarchy
