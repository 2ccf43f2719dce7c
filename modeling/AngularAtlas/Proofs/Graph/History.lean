import AngularAtlas.Proofs.Graph.Representation
import Mathlib.Data.List.Sort

/-!
Graphs as they come about, from an empty one by any changes in any order. Main statement: such a
graph is sound, and looking up nodes and edges in it by way of the index and of the places of edges
finds what its lists of nodes and edges say.
-/

namespace AngularAtlas.Graph

inductive Change where
  | addNode (n : Node)
  | addEdge (source target : String) (relation : Relation)
  | setAttribute (id key value : String)
  | applyLayout (layout : List Placement)

/-- The node that a change asks for. -/
def Change.newId? : Change → Option String
  | .addNode n => some n.id
  | _ => none

def change (g : Graph) : Change → Graph
  | .addNode n => g.addNode n
  | .addEdge source target relation => g.addEdge source target relation
  | .setAttribute id key value => g.modifyNode id (·.setAttribute key value)
  | .applyLayout layout => g.applyLayout layout

/-- The graph after some changes, from the first to the last. -/
def afterChanges (name : String) (changes : List Change) : Graph :=
  changes.foldl change { name }

variable {g : Graph} {n : Node} {e : Edge} {a : Arc} {c : Change} {d : Direction} {i : Nat}
  {id source target : String} {relation : Relation}

theorem Sound.change (hg : g.Sound) (c : Change) : (g.change c).Sound := by
  cases c with
  | addNode n => exact hg.addNode n
  | addEdge source target relation => exact hg.addEdge source target relation
  | setAttribute id key value =>
    exact hg.modifyNode id (·.setAttribute key value) fun _ => rfl
  | applyLayout layout => exact hg.applyLayout layout

theorem sound_afterChanges (name : String) (changes : List Change) :
    Sound (afterChanges name changes) := by
  induction changes using List.reverseRecOn with
  | nil => exact sound_empty name
  | append_singleton changes c ih =>
    rw [afterChanges, List.foldl_concat]
    exact ih.change c

theorem Sound.ids_modifyNode (hg : g.Sound) (id : String) (f : Node → Node)
    (same : ∀ n, (f n).id = n.id) : (g.modifyNode id f).ids = g.ids := by
  rw [hg.modifyNode_eq]
  refine ids_mapNodes fun n => ?_
  split
  · exact same n
  · rfl

theorem Sound.ids_applyLayout (hg : g.Sound) (layout : List Placement) :
    (g.applyLayout layout).ids = g.ids := by
  induction layout generalizing g with
  | nil => rfl
  | cons p layout ih =>
    have kept : ∀ n, (p.apply n).id = n.id := fun _ => rfl
    exact (ih (hg.modifyNode p.id p.apply kept)).trans (hg.ids_modifyNode p.id p.apply kept)

/-- A change leaves the ids as they are, or it asks for a node with a new one, which comes last. -/
theorem Sound.ids_change (hg : g.Sound) (c : Change) :
    ((g.change c).ids = g.ids ∧ ∀ id, c.newId? = some id → id ∈ g.ids) ∨
      ∃ id, c.newId? = some id ∧ id ∉ g.ids ∧ (g.change c).ids = g.ids ++ [id] := by
  cases c with
  | addNode n =>
    cases h : g.nodeIndex? n.id with
    | some i =>
      left
      refine ⟨?_, fun id hid => ?_⟩
      · show (g.addNode n).ids = g.ids
        rw [Graph.addNode, appendNode_of_known h]
      · rw [← Option.some.inj hid]
        exact hg.exists_nodeIndex?_iff.1 ⟨i, h⟩
    | none =>
      right
      refine ⟨n.id, rfl, hg.nodeIndex?_eq_none_iff.1 h, ?_⟩
      show (g.addNode n).ids = g.ids ++ [n.id]
      rw [ids, nodes_addNode_of_new h, List.map_append]
      rfl
  | addEdge source target relation =>
    left
    exact ⟨congrArg (List.map Node.id) (nodes_addEdge ..), fun id hid => by cases hid⟩
  | setAttribute id key value =>
    left
    exact ⟨hg.ids_modifyNode id (·.setAttribute key value) fun _ => rfl,
      fun id hid => by cases hid⟩
  | applyLayout layout =>
    left
    exact ⟨hg.ids_applyLayout layout, fun id hid => by cases hid⟩

/-- The nodes stand in the order in which their ids were asked for first. -/
theorem ids_afterChanges (name : String) (changes : List Change) :
    (afterChanges name changes).ids = (changes.filterMap Change.newId?).eraseDups := by
  induction changes using List.reverseRecOn with
  | nil => rfl
  | append_singleton changes c ih =>
    rw [afterChanges, List.foldl_concat, List.filterMap_append]
    change (change (afterChanges name changes) c).ids = _
    have known : ∀ id, id ∈ (afterChanges name changes).ids ↔
        id ∈ changes.filterMap Change.newId? := by
      intro id
      rw [ih, List.mem_eraseDups]
    rcases (sound_afterChanges name changes).ids_change c with ⟨same, old⟩ | ⟨id, hid, new, last⟩
    · rw [same, ih]
      cases hid : c.newId? with
      | none => simp [hid]
      | some id =>
        rw [List.filterMap_cons_some hid, List.filterMap_nil,
          eraseDups_concat_of_mem ((known id).1 (old id hid))]
    · rw [last, ih, List.filterMap_cons_some hid, List.filterMap_nil,
        eraseDups_concat_of_not_mem fun h => new ((known id).2 h)]

theorem getElem?_nodes (g : Graph) (i : Nat) : g.nodes[i]? = g.vertices[i]?.map (·.node) :=
  List.getElem?_map ..

theorem getElem?_ids_eq_some_iff :
    g.ids[i]? = some id ↔ ∃ n, g.nodes[i]? = some n ∧ n.id = id := by
  rw [ids, List.getElem?_map, Option.map_eq_some_iff]

theorem Sound.node?_eq_some_iff (hg : g.Sound) :
    g.node? id = some n ↔ n ∈ g.nodes ∧ n.id = id := by
  have found : g.node? id = some n ↔ ∃ i : Nat, g.ids[i]? = some id ∧ g.nodes[i]? = some n := by
    simp only [node?, Option.bind_eq_some_iff, hg.index_iff, getElem?_nodes]
  simp only [found, getElem?_ids_eq_some_iff, List.mem_iff_getElem?]
  constructor
  · rintro ⟨i, ⟨m, hm, rfl⟩, hn⟩
    obtain rfl := Option.some.inj (hm.symm.trans hn)
    exact ⟨⟨i, hn⟩, rfl⟩
  · rintro ⟨⟨i, hn⟩, rfl⟩
    exact ⟨i, ⟨n, hn, rfl⟩, hn⟩

theorem Sound.eq_of_id_eq (hg : g.Sound) {m : Node} (hm : m ∈ g.nodes) (hn : n ∈ g.nodes)
    (h : m.id = n.id) : m = n :=
  List.inj_on_of_nodup_map hg.nodup hm hn h

theorem Sound.mem_arcsAt_iff (hg : g.Sound) (hi : g.nodeIndex? id = some i) :
    a ∈ g.arcsAt d i ↔ a ∈ g.arcs ∧ a.edge.near d = id := by
  obtain ⟨v, hv, -⟩ := hg.exists_vertex hi
  rw [arcsAt, hv]
  simp only [List.mem_filterMap, hg.mem_arcs_iff hv]
  constructor
  · rintro ⟨k, ⟨b, hb, here⟩, ha⟩
    obtain rfl := Option.some.inj (hb.symm.trans ha)
    have mem := List.mem_of_getElem? ha
    exact ⟨mem, (hg.near_eq_iff mem hi).1 here⟩
  · rintro ⟨mem, near⟩
    obtain ⟨k, ha⟩ := List.mem_iff_getElem?.1 mem
    exact ⟨k, ⟨a, ha, (hg.near_eq_iff mem hi).2 near⟩, ha⟩

theorem Sound.pairwise_arcsAt (hg : g.Sound) (d : Direction) (i : Nat) :
    (g.arcsAt d i).Pairwise fun later earlier => earlier.edge.number < later.edge.number := by
  have number : ∀ {k : Nat} {a : Arc}, g.arcs[k]? = some a → a.edge.number = k + 1 := by
    intro k a ha
    refine hg.number_eq k a.edge ?_
    rw [edges, List.getElem?_map, ha, Option.map_some]
  unfold arcsAt
  split
  case h_1 v hv =>
    refine List.Pairwise.filterMap _ ?_ (hg.recent_first (List.mem_of_getElem? hv) d)
    intro k l lt a ha b hb
    rw [number ha, number hb]
    exact Nat.succ_lt_succ lt
  case h_2 => exact .nil

theorem Sound.node?_far (hg : g.Sound) (ha : a ∈ g.arcs) (d : Direction) :
    ∃ v, g.vertices[a.far d]? = some v ∧ g.node? (a.edge.far d) = some v.node := by
  have there : g.nodeIndex? (a.edge.far d) = some (a.far d) := by
    cases d with
    | outgoing => exact hg.index_iff.2 (hg.ends ha .incoming)
    | incoming => exact hg.index_iff.2 (hg.ends ha .outgoing)
  obtain ⟨v, hv, -⟩ := hg.exists_vertex there
  exact ⟨v, hv, by rw [node?, there, Option.bind_some, hv, Option.map_some]⟩

theorem Sound.number_lt (hg : g.Sound) :
    g.edges.Pairwise fun earlier later => earlier.number < later.number := by
  rw [List.pairwise_iff_getElem]
  intro i j hi hj lt
  rw [hg.number_eq i _ (List.getElem?_eq_getElem hi),
    hg.number_eq j _ (List.getElem?_eq_getElem hj)]
  exact Nat.succ_lt_succ lt

theorem eq_of_recent_first {l m : List Edge}
    (hl : l.Pairwise fun later earlier => earlier.number < later.number)
    (hm : m.Pairwise fun later earlier => earlier.number < later.number)
    (same : ∀ e, e ∈ l ↔ e ∈ m) : l = m := by
  have antisymm : Std.Antisymm fun later earlier : Edge => earlier.number < later.number :=
    ⟨fun _ _ ab ba => absurd ab (Nat.lt_asymm ba)⟩
  have irrefl : Std.Irrefl fun later earlier : Edge => earlier.number < later.number :=
    ⟨fun _ => Nat.lt_irrefl _⟩
  exact hl.eq_of_mem_iff hm same

/-- The edges found at a node are those that name it, the most recent first. -/
theorem Sound.map_neighbours (hg : g.Sound) (d : Direction) (id : String) :
    (g.neighbours d id).map (·.2) = (g.edges.filter (·.near d = id)).reverse := by
  unfold neighbours
  split
  case h_1 i hi =>
    have edges : ((g.arcsAt d i).filterMap fun a =>
        g.vertices[a.far d]?.map fun v => (v.node, a.edge)).map (·.2) =
          (g.arcsAt d i).map (·.edge) := by
      rw [List.map_filterMap, ← List.filterMap_eq_map]
      refine List.filterMap_congr fun a ha => ?_
      obtain ⟨v, hv, -⟩ := hg.node?_far (hg.mem_arcsAt_iff hi |>.1 ha).1 d
      rw [hv]
      rfl
    rw [edges]
    refine eq_of_recent_first (List.pairwise_map.2 (hg.pairwise_arcsAt d i))
      (List.pairwise_reverse.2 (hg.number_lt.filter _)) fun e => ?_
    simp only [List.mem_map, hg.mem_arcsAt_iff hi, List.mem_reverse, List.mem_filter,
      decide_eq_true_eq, Graph.edges]
    constructor
    · rintro ⟨a, ⟨ha, near⟩, rfl⟩
      exact ⟨⟨a, ha, rfl⟩, near⟩
    · rintro ⟨⟨a, ha, rfl⟩, near⟩
      exact ⟨a, ⟨ha, near⟩, rfl⟩
  case h_2 missing =>
    have none : g.edges.filter (·.near d = id) = [] := by
      refine List.filter_eq_nil_iff.2 fun e he => ?_
      rw [decide_eq_true_eq]
      rintro rfl
      exact hg.nodeIndex?_eq_none_iff.1 missing (hg.near_mem he d)
    rw [none]
    rfl

theorem Sound.node?_of_mem_neighbours (hg : g.Sound) (mem : (n, e) ∈ g.neighbours d id) :
    g.node? (e.far d) = some n := by
  unfold neighbours at mem
  split at mem
  case h_1 i hi =>
    obtain ⟨a, ha, hv⟩ := List.mem_filterMap.1 mem
    obtain ⟨v, there, far⟩ := hg.node?_far (hg.mem_arcsAt_iff hi |>.1 ha).1 d
    rw [there] at hv
    obtain ⟨rfl, rfl⟩ := Prod.mk.inj (Option.some.inj hv)
    exact far
  case h_2 => cases mem

/-- What the questions about a graph are answered with, and what becomes of the graph when a node
or an edge is added to it. -/
structure Lawful (g : Graph) : Prop where
  nodup : g.ids.Nodup
  ends_mem : ∀ e ∈ g.edges, e.source ∈ g.ids ∧ e.target ∈ g.ids
  /-- Two nodes are connected once at most in each direction. -/
  simple : (g.edges.map fun e => (e.source, e.target)).Nodup
  id_eq : ∀ i e, g.edges[i]? = some e → e.id = toString (i + 1)
  node : ∀ id n, g.node? id = some n ↔ n ∈ g.nodes ∧ n.id = id
  index : ∀ id i, g.nodeIndex? id = some i ↔ ∃ n, g.nodes[i]? = some n ∧ n.id = id
  /-- A node whose id is known is not added: its place is that of the node with that id. -/
  appendKnown : ∀ n i, g.nodeIndex? n.id = some i → g.appendNode n = (i, g)
  appendNew : ∀ n, g.nodeIndex? n.id = none →
    (g.appendNode n).1 = g.nodes.length ∧ (g.appendNode n).2.nodes = g.nodes ++ [n] ∧
      (g.appendNode n).2.edges = g.edges
  /-- An edge is refused when one of its ends is missing, or when its ends are connected. -/
  refused : ∀ source target relation, (g.appendEdge source target relation).1 = none ↔
    g.nodeIndex? source = none ∨ g.nodeIndex? target = none ∨
      ∃ e ∈ g.edges, e.source = source ∧ e.target = target
  unchanged : ∀ source target relation, (g.appendEdge source target relation).1 = none →
    (g.appendEdge source target relation).2 = g
  appendEdge : ∀ source target relation k, (g.appendEdge source target relation).1 = some k →
    k = g.edges.length ∧ (g.appendEdge source target relation).2.nodes = g.nodes ∧
      (g.appendEdge source target relation).2.edges =
        g.edges ++ [⟨g.edges.length + 1, source, target, relation⟩]
  /-- The most recent edge comes first. -/
  successors : ∀ id, (g.successors id).map (·.2) = (g.edges.filter (·.source = id)).reverse ∧
    ∀ n e, (n, e) ∈ g.successors id → g.node? e.target = some n
  predecessors : ∀ id, (g.predecessors id).map (·.2) = (g.edges.filter (·.target = id)).reverse ∧
    ∀ n e, (n, e) ∈ g.predecessors id → g.node? e.source = some n
  /-- A self loop is the way back of itself. -/
  counterpart : ∀ e, g.mutualCount e = if ∃ back ∈ g.edges,
    back.source = e.target ∧ back.target = e.source then 2 else 1

theorem Sound.lawful (hg : g.Sound) : Lawful g where
  nodup := hg.nodup
  ends_mem e he := ⟨hg.source_mem e he, hg.target_mem e he⟩
  simple := hg.simple
  id_eq i e h := by rw [Edge.id, hg.number_eq i e h]
  node _ _ := hg.node?_eq_some_iff
  index _ _ := hg.index_iff.trans getElem?_ids_eq_some_iff
  appendKnown _ _ := appendNode_of_known
  appendNew n h := by
    refine ⟨?_, nodes_addNode_of_new h, edges_addNode g n⟩
    rw [appendNode_of_new h, nodes, List.length_map]
  refused source target relation := by
    have refused : (g.appendEdge source target relation).1 = none ↔
        g.canConnect source target = false := by
      unfold Graph.appendEdge canConnect
      split
      case h_1 ends free => simp [free]
      case h_2 taken => simp [taken]
    rw [refused, hg.nodeIndex?_eq_none_iff, hg.nodeIndex?_eq_none_iff, Bool.eq_false_iff, ne_eq,
      canConnect_iff hg, not_and_or, not_and_or, not_not]
  unchanged source target relation h := by
    unfold Graph.appendEdge at h ⊢
    split at h
    · cases h
    · rfl
  appendEdge source target relation k h := by
    have length : g.edges.length = g.arcs.length := List.length_map ..
    unfold Graph.appendEdge at h ⊢
    split at h
    case h_1 ends free =>
      rw [length]
      exact ⟨(Option.some.inj h).symm, nodes_connect .., edges_connect ..⟩
    case h_2 => cases h
  successors id := ⟨hg.map_neighbours .outgoing id, fun _ _ => hg.node?_of_mem_neighbours⟩
  predecessors id := ⟨hg.map_neighbours .incoming id, fun _ _ => hg.node?_of_mem_neighbours⟩
  counterpart e := by
    rw [mutualCount]
    simp only [hasEdge_iff hg]

/-- Whatever is done to a graph that starts empty, it is sound, its nodes stand in the order in
which they were asked for first, and it answers accordingly. -/
theorem lawful_afterChanges (name : String) (changes : List Change) :
    Sound (afterChanges name changes) ∧ Lawful (afterChanges name changes) ∧
      (afterChanges name changes).ids = (changes.filterMap Change.newId?).eraseDups :=
  have sound := sound_afterChanges name changes
  ⟨sound, sound.lawful, ids_afterChanges name changes⟩

end AngularAtlas.Graph
