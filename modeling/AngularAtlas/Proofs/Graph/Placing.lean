import AngularAtlas.Proofs.Graph.History
import Mathlib.Algebra.BigOperators.Group.List.Basic
import Mathlib.Algebra.GroupWithZero.Nat

namespace AngularAtlas

variable {α : Type} {say : Placement → Option α} {layout : List Placement} {p : Placement}
  {n : Node} {id : String}

/-- The name that a placement gives; an empty label gives none. -/
def Placement.name? (p : Placement) : Option String := p.label.filter (· ≠ "")

/-- What is said by the last placement of a node that says anything. -/
def lastSaid? (say : Placement → Option α) (id : String) (layout : List Placement) : Option α :=
  (layout.filter (·.id = id)).reverse.findSome? say

/-- A node as it is when all of a layout is taken into account. -/
def Node.arranged (layout : List Placement) (n : Node) : Node :=
  { n with
    name := (lastSaid? Placement.name? n.id layout).getD n.name
    position := (lastSaid? Placement.position n.id layout).or n.position
    bounds := (lastSaid? Placement.bounds n.id layout).or n.bounds }

theorem lastSaid?_cons_of_eq (same : p.id = id) :
    lastSaid? say id (p :: layout) = (lastSaid? say id layout).or (say p) := by
  rw [lastSaid?, List.filter_cons_of_pos (by simpa using same), List.reverse_cons,
    List.findSome?_append, List.findSome?_singleton, lastSaid?]

theorem lastSaid?_cons_of_ne (other : p.id ≠ id) :
    lastSaid? say id (p :: layout) = lastSaid? say id layout := by
  rw [lastSaid?, List.filter_cons_of_neg (by simpa using other), lastSaid?]

theorem lastSaid?_of_unnamed (unnamed : ∀ p ∈ layout, p.id ≠ id) :
    lastSaid? say id layout = none := by
  have nothing : layout.filter (·.id = id) = [] := by simpa using unnamed
  rw [lastSaid?, nothing]
  rfl

namespace Node

/-- How many placements of a layout name the node. -/
def timesPlaced (layout : List Placement) (n : Node) : Nat := layout.countP (·.id = n.id)

theorem arranged_of_unnamed (unnamed : ∀ p ∈ layout, p.id ≠ n.id) : n.arranged layout = n := by
  simp only [arranged, lastSaid?_of_unnamed unnamed, Option.getD_none, Option.none_or]

/-- The first placement has its say before the others, which may overrule it. -/
theorem arranged_cons (p : Placement) (layout : List Placement) (n : Node) :
    n.arranged (p :: layout) = (if n.id = p.id then p.apply n else n).arranged layout := by
  split
  case isTrue same =>
    simp only [arranged, Placement.apply, lastSaid?_cons_of_eq same.symm, Option.or_assoc,
      Option.getD_or]
    rfl
  case isFalse other => simp only [arranged, lastSaid?_cons_of_ne (Ne.symm other)]

theorem arranged_arranged (layout : List Placement) (n : Node) :
    (n.arranged layout).arranged layout = n.arranged layout := by
  have name : ∀ (said : Option String) (old : String), said.getD (said.getD old) = said.getD old :=
    fun said _ => by cases said <;> rfl
  simp only [arranged, name, ← Option.or_assoc, Option.or_self]

end Node

namespace Graph

variable {g : Graph}

theorem Sound.applyLayout_eq (hg : g.Sound) (layout : List Placement) :
    g.applyLayout layout = g.mapNodes (Node.arranged layout) := by
  induction layout generalizing g with
  | nil =>
    have same : Node.arranged [] = fun n => n := funext fun n => n.arranged_of_unnamed (by simp)
    rw [same, mapNodes_self]
    rfl
  | cons p layout ih =>
    have step : Node.arranged layout ∘ (fun n => if n.id = p.id then p.apply n else n) =
        Node.arranged (p :: layout) := funext fun n => (n.arranged_cons p layout).symm
    have sound : (g.modifyNode p.id p.apply).Sound := hg.modifyNode p.id p.apply fun _ => rfl
    rw [Graph.applyLayout, List.foldl_cons, ← Graph.applyLayout, ih sound, hg.modifyNode_eq,
      mapNodes_mapNodes, step]

/-- Placing the nodes changes a name, a position or bounds only where a placement of the node says
so, and the last one that does decides. Doing it again changes nothing. -/
theorem applyLayout_arranges (hg : g.Sound) (layout : List Placement) :
    g.applyLayout layout = g.mapNodes (Node.arranged layout) ∧
    (g.applyLayout layout).nodes = g.nodes.map (Node.arranged layout) ∧
    (g.applyLayout layout).edges = g.edges ∧
    (∀ n ∈ g.nodes, (∀ p ∈ layout, p.id ≠ n.id) → n.arranged layout = n) ∧
    (g.applyLayout layout).applyLayout layout = g.applyLayout layout := by
  have once := hg.applyLayout_eq layout
  have again : Node.arranged layout ∘ Node.arranged layout = Node.arranged layout :=
    funext fun n => n.arranged_arranged layout
  refine ⟨once, ?_, ?_, fun n _ => n.arranged_of_unnamed, ?_⟩
  · rw [once, nodes_mapNodes]
  · rw [once]
    rfl
  · rw [(hg.applyLayout layout).applyLayout_eq, once, mapNodes_mapNodes, again]

def heroChanges : List Change :=
  [.addNode (.named "app-root" .root), .addNode (.named "app-nav" .component),
    .addNode (.named "app-hero" .component), .addEdge "app-root" "app-nav" .uses]

/-- A label for one node, an empty label for another, and a node that is not there. -/
def heroLayout : List Placement :=
  [{ id := "app-hero", label := some "Hero" }, { id := "app-villain", label := some "Villain" },
    { id := "app-nav", label := some "" }]

theorem applyLayout_arranges_heroLayout :
    (afterChanges "G" heroChanges).Sound ∧
    ((afterChanges "G" heroChanges).applyLayout heroLayout).nodes.map (·.name) =
      ["app-root", "app-nav", "Hero"] ∧
    ((afterChanges "G" heroChanges).applyLayout heroLayout).edges =
      [⟨1, "app-root", "app-nav", .uses⟩] ∧
    ((afterChanges "G" heroChanges).applyLayout heroLayout).applyLayout heroLayout =
      (afterChanges "G" heroChanges).applyLayout heroLayout := by
  have sound := sound_afterChanges "G" heroChanges
  obtain ⟨-, nodes, edges, -, again⟩ := applyLayout_arranges sound heroLayout
  refine ⟨sound, ?_, ?_, again⟩
  · rw [nodes]
    decide +kernel
  · rw [edges]
    decide +kernel

/-- The nodes of a graph that some placement names. -/
def placed (g : Graph) (layout : List Placement) : List Node :=
  g.nodes.filter fun n => 0 < n.timesPlaced layout

theorem Sound.countP_id (hg : g.Sound) (id : String) :
    g.nodes.countP (·.id = id) = if g.hasNode id then 1 else 0 := by
  have count : g.nodes.countP (·.id = id) = g.ids.count id := by
    rw [ids, List.count, List.countP_map]
    rfl
  rw [count]
  by_cases known : id ∈ g.ids
  · rw [List.count_eq_one_of_mem hg.nodup known, if_pos ((hasNode_iff hg).2 known)]
  · rw [List.count_eq_zero_of_not_mem known, if_neg fun h => known ((hasNode_iff hg).1 h)]

theorem Sound.sum_timesPlaced (hg : g.Sound) (layout : List Placement) :
    (g.nodes.map (Node.timesPlaced layout)).sum = g.placedCount layout := by
  induction layout with
  | nil =>
    have never : Node.timesPlaced [] = fun _ => 0 := rfl
    rw [never]
    simp [placedCount]
  | cons p layout ih =>
    -- a placement counts once for each node with its id, and ids are distinct
    have more : Node.timesPlaced (p :: layout) = fun n =>
        Node.timesPlaced layout n + if n.id = p.id then 1 else 0 := by
      funext n
      simp [Node.timesPlaced, List.countP_cons, eq_comm]
    have once : (g.nodes.map fun n => if n.id = p.id then 1 else 0).sum =
        g.nodes.countP (·.id = p.id) := by
      rw [List.sum_map_ite]
      simp [List.countP_eq_length_filter]
    rw [more, List.sum_map_add, ih, once, hg.countP_id, placedCount, placedCount, List.countP_cons]

theorem length_filter_le_sum (times : Node → Nat) (nodes : List Node) :
    (nodes.filter (0 < times ·)).length ≤ (nodes.map times).sum ∧
      ((nodes.map times).sum = (nodes.filter (0 < times ·)).length ↔
        ∀ n ∈ nodes, times n ≤ 1) := by
  induction nodes with
  | nil => simp
  | cons n nodes ih =>
    obtain ⟨least, iff⟩ := ih
    rw [List.map_cons, List.sum_cons, List.forall_mem_cons, ← iff]
    by_cases some : 0 < times n
    · rw [List.filter_cons_of_pos (by simpa using some), List.length_cons]
      omega
    · rw [List.filter_cons_of_neg (by simpa using some)]
      omega

/-- Each placement of a node counts, so that the count is that of the placed nodes exactly if no
node is placed twice; otherwise it is greater. -/
theorem Sound.placedCount_eq_iff (hg : g.Sound) (layout : List Placement) :
    g.placedCount layout = (g.nodes.map (Node.timesPlaced layout)).sum ∧
    (g.placed layout).length ≤ g.placedCount layout ∧
    (g.placedCount layout = (g.placed layout).length ↔
      ∀ n ∈ g.nodes, n.timesPlaced layout ≤ 1) ∧
    ((∀ n ∈ g.nodes, n.timesPlaced layout ≤ 1) → g.placedCount layout ≤ g.nodes.length) := by
  obtain ⟨least, iff⟩ := length_filter_le_sum (Node.timesPlaced layout) g.nodes
  rw [hg.sum_timesPlaced] at least iff
  refine ⟨(hg.sum_timesPlaced layout).symm, least, iff, fun once => ?_⟩
  rw [iff.2 once]
  exact List.length_filter_le _ _

theorem Sound.placedCount_eq_iff_heroLayout :
    (afterChanges "G" heroChanges).Sound ∧
    (∀ n ∈ (afterChanges "G" heroChanges).nodes, n.timesPlaced heroLayout ≤ 1) ∧
    (afterChanges "G" heroChanges).placedCount heroLayout = 2 ∧
    ((afterChanges "G" heroChanges).placed heroLayout).length = 2 ∧
    (afterChanges "G" heroChanges).placedCount heroLayout ≤
      (afterChanges "G" heroChanges).nodes.length := by
  have sound := sound_afterChanges "G" heroChanges
  obtain ⟨sum, -, iff, few⟩ := sound.placedCount_eq_iff heroLayout
  have once : ∀ n ∈ (afterChanges "G" heroChanges).nodes, n.timesPlaced heroLayout ≤ 1 := by
    decide
  have two : (afterChanges "G" heroChanges).placedCount heroLayout = 2 := by
    rw [sum]
    decide
  exact ⟨sound, once, two, (iff.2 once).symm.trans two, few once⟩

/-- As many placements count as there are nodes that are placed. -/
def CountsPlaced : Prop :=
  ∀ (name : String) (changes : List Change) (layout : List Placement),
    (afterChanges name changes).placedCount layout =
      ((afterChanges name changes).placed layout).length

/-- Two placements of one node. -/
def navTwice : List Placement := [{ id := "app-nav" }, { id := "app-nav", label := some "Nav" }]

theorem not_countsPlaced : ¬ CountsPlaced ∧
    (afterChanges "G" [.addNode (.named "app-nav" .component)]).nodes.length <
      (afterChanges "G" [.addNode (.named "app-nav" .component)]).placedCount navTwice := by
  refine ⟨fun all => ?_, by decide⟩
  have same := all "G" [.addNode (.named "app-nav" .component)] navTwice
  exact absurd same (by decide)

end Graph

end AngularAtlas
