import AngularAtlas.Graph.Components
import AngularAtlas.Proofs.Graph.Requests
import AngularAtlas.Proofs.Hierarchy.Consistency
import AngularAtlas.Proofs.Hierarchy.Walk
import Mathlib.Data.Fintype.Card
import Mathlib.Data.Fintype.EquivFin
import Mathlib.Data.Fintype.Sets
import Mathlib.Logic.Relation

namespace AngularAtlas

namespace Hierarchy

variable {h : Hierarchy} {c : Component} {key : String}

theorem Consistent.keyed (hh : Consistent h) : Keyed h := fun _ _ => hh.key_eq

/-- The component under one key has another key among its children. -/
def IsParent (h : Hierarchy) (parent child : String) : Prop := ∃ kind, Lists h parent child kind

/-- No component is below itself. -/
def Acyclic (h : Hierarchy) : Prop := ∀ key, ¬ Relation.TransGen (IsParent h) key key

/-- What holds of a stored component as soon as it holds of all its parents holds of all. -/
theorem Acyclic.induction (ha : Acyclic h) {P : String → Component → Prop}
    (step : ∀ key c, h.component? key = some c →
      (∀ parent p, h.component? parent = some p → IsParent h parent key → P parent p) → P key c) :
    ∀ key c, h.component? key = some c → P key c := by
  -- being above is well founded, because the keys are finitely many
  let above : {key // key ∈ h.components.names} → {key // key ∈ h.components.names} → Prop :=
    fun a b => Relation.TransGen (IsParent h) a b
  have : IsTrans _ above := ⟨fun _ _ _ => Relation.TransGen.trans⟩
  have : Std.Irrefl above := ⟨fun a => ha a⟩
  have wf : WellFounded above := Finite.wellFounded_of_trans_of_irrefl above
  have stored : ∀ {key c}, h.component? key = some c → key ∈ h.components.names :=
    fun hc => Table.mem_names_iff.2 (Option.isSome_iff_exists.2 ⟨_, hc⟩)
  suffices ∀ k : {key // key ∈ h.components.names}, ∀ c, h.component? k = some c → P k c from
    fun key c hc => this ⟨key, stored hc⟩ c hc
  intro k
  induction k using wf.induction with
  | _ k ih =>
    intro c hc
    exact step k c hc fun parent p hp hl => ih ⟨parent, stored hp⟩ (.single hl) p hp

/-- Above each component stands a root, unless children go in a circle. -/
theorem Consistent.reached_of_acyclic (hh : Consistent h) (ha : Acyclic h)
    (hc : h.component? key = some c) : Reached h c := by
  refine ha.induction (P := fun _ c => Reached h c) (fun key c hc ih => ?_) key c hc
  cases hr : c.isRoot with
  | true => exact .root (List.mem_filter.2 ⟨Table.mem_values_iff.2 ⟨key, hc⟩, hr⟩)
  | false =>
    obtain ⟨parent, kind, -, p, hp, mem⟩ := (hh.isRoot_eq_false_iff hc).1 hr
    exact .child (ih parent p hp ⟨kind, p, hp, mem⟩) mem hc

theorem Consistent.isRoot_of_mem_walk (hh : Consistent h) {step : Step} (mem : step ∈ h.walk) :
    step.component.isRoot = step.parent.isNone := by
  obtain ⟨component, parent⟩ := step
  cases parent with
  | none =>
    have root : (⟨component, none⟩ : Step) ∈ h.walk.filter (·.parent.isNone) :=
      List.mem_filter.2 ⟨mem, rfl⟩
    rw [filter_isNone_walk] at root
    obtain ⟨c, hc, he⟩ := List.mem_map.1 root
    obtain ⟨rfl, -⟩ := Step.mk.inj he
    exact (List.mem_filter.1 hc).2
  | some parent =>
    obtain ⟨p, kind⟩ := parent
    have hp : Reached h p := (isReached_of_mem_walk mem).2 _ rfl
    have below : (⟨component, some (p, kind)⟩ : Step) ∈ stepsBelow p h.walk :=
      List.mem_filter.2 ⟨mem, by simp⟩
    rw [stepsBelow_walk_of_reached hh.keyed hp] at below
    obtain ⟨key, kind, mem, hc, he⟩ := mem_childSteps_iff.1 below
    have listed : Lists h p.key key kind := ⟨p, hp.holds hh.keyed, mem⟩
    exact (hh.isRoot_eq_false_iff hc).2 ⟨p.key, kind, (hh.ne listed).symm, listed⟩

end Hierarchy

namespace Graph

open Hierarchy

variable {g : Graph} {h : Hierarchy} {nodes : List Node} {linked : List Link} {step : Step}
  {steps : List Step} {expanded : List String}

/-- The node that a visit adds. -/
def stepNode (step : Step) : Node :=
  if step.parent.isNone then (componentNode step.component).asRoot
  else componentNode step.component

theorem id_stepNode (step : Step) : (stepNode step).id = step.component.key := by
  unfold stepNode
  split <;> rfl

def stepLink? (step : Step) : Option Link :=
  step.parent.map fun parent =>
    ⟨parent.1.key, step.component.key, .ofChildKind parent.2⟩

/-- A visit asks for the node of its component and for the link from the parent, which is there
already or is the component itself. -/
theorem Collects.addStep (hg : g.Collects nodes linked)
    (known : ∀ parent ∈ step.parent, parent.1.key ∈ nodes.map Node.id) :
    (g.addStep step).Collects (nodes ++ [stepNode step])
      (linked ++ (stepLink? step).toList) := by
  obtain ⟨c, parent⟩ := step
  cases parent with
  | none =>
    rw [stepLink?, Option.map_none, Option.toList_none, List.append_nil]
    exact hg.addNode _
  | some parent =>
    refine (hg.addNode (componentNode c)).addEdge (l := ⟨_, _, _⟩) ?_ ?_
    · rw [List.map_append]
      exact List.mem_append_left _ (known parent rfl)
    · rw [List.map_append]
      exact List.mem_append_right _ List.mem_cons_self

/-- The links that some visits ask for. -/
def stepLinks (steps : List Step) : List Link := steps.filterMap stepLink?

theorem stepLinks_cons (step : Step) (steps : List Step) :
    stepLinks (step :: steps) = (stepLink? step).toList ++ stepLinks steps := by
  rw [stepLinks, List.filterMap_cons]
  cases stepLink? step with
  | none => rfl
  | some l => rfl

/-- Along a walk parents are visited before their children, so that no link is refused for want of
a node. -/
theorem Collects.foldl_walkFrom (hg : g.Collects nodes linked)
    (due : ∀ step ∈ steps, ∀ parent ∈ step.parent, parent.1.key ∈ nodes.map Node.id) :
    ((walkFrom h expanded steps).foldl Graph.addStep g).Collects
      (nodes ++ (walkFrom h expanded steps).map stepNode)
      (linked ++ stepLinks (walkFrom h expanded steps)) := by
  have known_later : ∀ {nodes : List Node} {id : String} (n : Node), id ∈ nodes.map Node.id →
      id ∈ (nodes ++ [n]).map Node.id := by
    intro nodes id n mem
    rw [List.map_append]
    exact List.mem_append_left _ mem
  fun_induction walkFrom generalizing g nodes linked with
  | case1 => simpa [stepLinks] using hg
  | case2 expanded step rest _ ih =>
    obtain ⟨here, after⟩ := List.forall_mem_cons.1 due
    rw [List.foldl_cons, List.map_cons, stepLinks_cons, List.append_cons, ← List.append_assoc]
    apply ih (hg.addStep here)
    exact fun s hs parent hp => known_later _ (after s hs parent hp)
  | case3 expanded step rest _ ih =>
    obtain ⟨here, after⟩ := List.forall_mem_cons.1 due
    rw [List.foldl_cons, List.map_cons, stepLinks_cons, List.append_cons, ← List.append_assoc]
    apply ih (hg.addStep here)
    intro s hs parent hp
    rcases List.mem_append.1 hs with hs | hs
    · obtain ⟨-, kind, -, -, same⟩ := mem_childSteps_iff.1 hs
      obtain rfl := Option.some.inj (same.symm.trans hp)
      rw [List.map_append]
      exact List.mem_append_right _ (List.mem_singleton.2 (id_stepNode step).symm)
    · exact known_later _ (after s hs parent hp)

theorem collects_ofHierarchy (h : Hierarchy) :
    (ofHierarchy h).Collects (h.walk.map stepNode) (stepLinks h.walk) := by
  have roots : ∀ step ∈ h.roots.map fun c => (⟨c, none⟩ : Step), ∀ parent ∈ step.parent,
      parent.1.key ∈ ([] : List Node).map Node.id := by
    intro step mem parent hp
    obtain ⟨c, -, rfl⟩ := List.mem_map.1 mem
    cases hp
  exact (collects_empty "ComponentHierarchy").foldl_walkFrom roots

theorem stepNode_of_mem_walk (hh : Consistent h) (mem : step ∈ h.walk) :
    (stepNode step).isRoot = step.component.isRoot ∧
      (stepNode step).kind = if step.component.isRoot then .root else .component := by
  rw [hh.isRoot_of_mem_walk mem, stepNode]
  cases step.parent with
  | none => exact ⟨rfl, rfl⟩
  | some parent => exact ⟨rfl, rfl⟩

/-- In the graph of a hierarchy that was built by adding and linking, a node is a root when its
component is one, and a plain component otherwise. When no component is below itself, there is a
node for each. -/
theorem ofHierarchy_nodes (hb : Built h) :
    (∀ n ∈ (ofHierarchy h).nodes, ∃ c, h.component? n.id = some c ∧ n.isRoot = c.isRoot ∧
      n.kind = if c.isRoot then .root else .component) ∧
    (Acyclic h → ∀ key c, h.component? key = some c → ∃ n ∈ (ofHierarchy h).nodes, n.id = key) := by
  have hh := consistent_empty.of_builtOn hb
  have collects := collects_ofHierarchy h
  constructor
  · intro n hn
    obtain ⟨step, mem, rfl⟩ := List.mem_map.1 (collects.nodes_first.mem_items hn)
    refine ⟨step.component, ?_, stepNode_of_mem_walk hh mem⟩
    rw [id_stepNode]
    exact (isReached_of_mem_walk mem).1.holds hh.keyed
  · intro ha key c hc
    have visited := mem_walk_of_reached hh.keyed (hh.reached_of_acyclic ha hc)
    obtain ⟨step, mem, rfl⟩ := List.mem_map.1 visited
    have asked : key ∈ (h.walk.map stepNode).map Node.id := by
      rw [← hh.key_eq hc, ← id_stepNode]
      exact List.mem_map_of_mem (List.mem_map_of_mem mem)
    exact List.mem_map.1 (collects.mem_ids_iff.2 asked)

theorem acyclic_shellHierarchy : Acyclic shellHierarchy := by
  have entries : ∀ entry ∈ shellHierarchy.components.entries,
      (∀ child ∈ entry.2.templateChildren, entry.1 = "app-shell" ∧ child = "app-nav") ∧
        entry.2.routeChildren = [] := by decide +kernel
  have link : ∀ {parent child}, IsParent shellHierarchy parent child →
      parent = "app-shell" ∧ child = "app-nav" := by
    rintro parent child ⟨kind, p, hp, mem⟩
    obtain ⟨template, route⟩ := entries _ (Table.mem_entries_iff.2 hp)
    cases kind with
    | template => exact template child mem
    | route => exact absurd mem (List.eq_nil_iff_forall_not_mem.1 route child)
  intro key hk
  obtain ⟨below, first, -⟩ := Relation.TransGen.head'_iff.1 hk
  obtain ⟨above, -, last⟩ := Relation.TransGen.tail'_iff.1 hk
  exact absurd ((link first).1.symm.trans (link last).2) (by decide)

theorem ofHierarchy_nodes_shellHierarchy :
    Built shellHierarchy ∧ Acyclic shellHierarchy ∧
      (∃ n ∈ (ofHierarchy shellHierarchy).nodes, n.id = "app-nav") ∧
      ∀ n ∈ (ofHierarchy shellHierarchy).nodes, ∃ c, shellHierarchy.component? n.id = some c ∧
        n.isRoot = c.isRoot ∧ n.kind = if c.isRoot then .root else .component := by
  obtain ⟨shown, complete⟩ := ofHierarchy_nodes built_shellHierarchy
  have stored : ∃ c, shellHierarchy.component? "app-nav" = some c :=
    Option.isSome_iff_exists.1 (by decide +kernel)
  obtain ⟨c, hc⟩ := stored
  exact ⟨built_shellHierarchy, acyclic_shellHierarchy,
    complete acyclic_shellHierarchy "app-nav" c hc, shown⟩

end Graph

end AngularAtlas
