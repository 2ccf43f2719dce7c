import AngularAtlas.Graph.Layout
import AngularAtlas.Proofs.Distinct

/-!
How a graph is stored. In a sound graph the index, the nodes, the edges and the places of edges at
their nodes fit together. Main statements: every change keeps a graph sound, and what is found in a
sound graph by way of places is what the lists of its nodes and edges say.
-/

namespace AngularAtlas

theorem getElem?_concat_eq_some_iff {α : Type} {l : List α} {x y : α} {i : Nat} :
    (l ++ [x])[i]? = some y ↔ l[i]? = some y ∨ i = l.length ∧ x = y := by
  rcases Nat.lt_trichotomy i l.length with lt | rfl | gt
  · rw [List.getElem?_append_left lt]
    simp [Nat.ne_of_lt lt]
  · simp
  · rw [List.getElem?_eq_none (by simp; omega), List.getElem?_eq_none (Nat.le_of_lt gt)]
    simp [Nat.ne_of_gt gt]

theorem map_modify_of_eq {α β : Type} {p : α → β} {f : α → α} (same : ∀ x, p (f x) = p x) (i : Nat)
    (l : List α) : (l.modify i f).map p = l.map p := by
  refine List.ext_getElem? fun j => ?_
  rw [List.getElem?_map, List.getElem?_modify, List.getElem?_map]
  cases l[j]? with
  | none => rfl
  | some x =>
    show some (p (if i = j then f x else x)) = some (p x)
    split
    · rw [same]
    · rfl

namespace Vertex

/-- A vertex at a place after an edge was stored, whose place is given too. -/
def joined (a : Arc) (place here : Nat) (v : Vertex) : Vertex :=
  { v with
    outgoing := if a.source = here then place :: v.outgoing else v.outgoing
    incoming := if a.target = here then place :: v.incoming else v.incoming }

theorem node_attach (v : Vertex) (d : Direction) (place : Nat) :
    (v.attach d place).node = v.node := by
  cases d <;> rfl

theorem arcs_joined (a : Arc) (place here : Nat) (v : Vertex) (d : Direction) :
    (v.joined a place here).arcs d = if a.near d = here then place :: v.arcs d else v.arcs d := by
  cases d <;> rfl

end Vertex

namespace Graph

def ids (g : Graph) : List String := g.nodes.map (·.id)

structure Sound (g : Graph) : Prop where
  /-- The index leads from each id to its place, and nowhere else. -/
  index_iff : ∀ {id i}, g.nodeIndex? id = some i ↔ g.ids[i]? = some id
  /-- The places of an edge are those of the nodes that it names. -/
  ends : ∀ {a}, a ∈ g.arcs → ∀ d, g.ids[a.near d]? = some (a.edge.near d)
  /-- A node has the places of the edges at its own place. -/
  mem_arcs_iff : ∀ {i} {v : Vertex}, g.vertices[i]? = some v → ∀ d k,
    k ∈ v.arcs d ↔ ∃ a : Arc, g.arcs[k]? = some a ∧ a.near d = i
  recent_first : ∀ {v}, v ∈ g.vertices → ∀ d,
    (v.arcs d).Pairwise fun later earlier => earlier < later
  /-- Two nodes are connected once at most in each direction. -/
  simple : (g.edges.map fun e => (e.source, e.target)).Nodup
  /-- Edges are numbered from one in the order in which they were added. -/
  number_eq : ∀ i e, g.edges[i]? = some e → e.number = i + 1

variable {g : Graph} {n : Node} {e : Edge} {a : Arc} {v : Vertex} {d : Direction} {i j k : Nat}
  {id source target : String} {relation : Relation} {f : Node → Node}

theorem sound_empty (name : String) : Sound { name } where
  index_iff := by
    intro id i
    constructor
    · rintro ⟨⟩
    · rintro ⟨⟩
  ends := by simp
  mem_arcs_iff := by simp
  recent_first := by simp
  simple := List.nodup_nil
  number_eq := by simp [edges]

theorem getElem?_ids (g : Graph) (i : Nat) : g.ids[i]? = g.vertices[i]?.map (·.node.id) := by
  rw [ids, nodes, List.map_map, List.getElem?_map]
  rfl

theorem length_ids (g : Graph) : g.ids.length = g.vertices.length := by
  rw [ids, nodes, List.length_map, List.length_map]

namespace Sound

theorem exists_nodeIndex?_iff (hg : g.Sound) : (∃ i, g.nodeIndex? id = some i) ↔ id ∈ g.ids := by
  rw [List.mem_iff_getElem?]
  exact exists_congr fun i => hg.index_iff

theorem nodeIndex?_eq_none_iff (hg : g.Sound) : g.nodeIndex? id = none ↔ id ∉ g.ids := by
  rw [← hg.exists_nodeIndex?_iff, ← Option.ne_none_iff_exists', not_not]

theorem nodup (hg : g.Sound) : g.ids.Nodup := by
  rw [List.nodup_iff_getElem?_ne_getElem?]
  intro i j lt hj same
  have second : g.nodeIndex? g.ids[j] = some j := hg.index_iff.2 (List.getElem?_eq_getElem hj)
  rw [List.getElem?_eq_getElem hj] at same
  rw [hg.index_iff.2 same] at second
  exact Nat.ne_of_lt lt (Option.some.inj second)

/-- An edge is at a place when it names the node there. -/
theorem near_eq_iff (hg : g.Sound) (ha : a ∈ g.arcs) (hi : g.nodeIndex? id = some i) :
    a.near d = i ↔ a.edge.near d = id := by
  have there : g.nodeIndex? (a.edge.near d) = some (a.near d) := hg.index_iff.2 (hg.ends ha d)
  constructor
  · rintro rfl
    exact Option.some.inj ((hg.ends ha d).symm.trans (hg.index_iff.1 hi))
  · rintro rfl
    exact Option.some.inj (there.symm.trans hi)

theorem near_mem (hg : g.Sound) (he : e ∈ g.edges) (d : Direction) : e.near d ∈ g.ids := by
  obtain ⟨a, ha, rfl⟩ := List.mem_map.1 he
  exact List.mem_of_getElem? (hg.ends ha d)

theorem source_mem (hg : g.Sound) : ∀ e ∈ g.edges, e.source ∈ g.ids :=
  fun _ he => hg.near_mem he .outgoing

theorem target_mem (hg : g.Sound) : ∀ e ∈ g.edges, e.target ∈ g.ids :=
  fun _ he => hg.near_mem he .incoming

theorem exists_vertex (hg : g.Sound) (hi : g.nodeIndex? id = some i) :
    ∃ v, g.vertices[i]? = some v ∧ v.node.id = id := by
  have here := hg.index_iff.1 hi
  rw [getElem?_ids] at here
  exact Option.map_eq_some_iff.1 here

theorem findArc?_isSome_iff (hg : g.Sound) (hi : g.nodeIndex? source = some i)
    (hj : g.nodeIndex? target = some j) :
    (g.findArc? i j).isSome ↔ ∃ e ∈ g.edges, e.source = source ∧ e.target = target := by
  obtain ⟨v, hv, -⟩ := hg.exists_vertex hi
  rw [findArc?, hv, Option.bind_some, List.find?_isSome]
  constructor
  · rintro ⟨k, hk, test⟩
    obtain ⟨a, ha, here⟩ := (hg.mem_arcs_iff hv .outgoing k).1 hk
    have mem := List.mem_of_getElem? ha
    have there : a.target = j := by simpa [ha] using test
    exact ⟨a.edge, List.mem_map_of_mem mem, (hg.near_eq_iff (d := .outgoing) mem hi).1 here,
      (hg.near_eq_iff (d := .incoming) mem hj).1 there⟩
  · rintro ⟨_, he, hs, ht⟩
    obtain ⟨a, mem, rfl⟩ := List.mem_map.1 he
    obtain ⟨k, ha⟩ := List.mem_iff_getElem?.1 mem
    have here : a.source = i := (hg.near_eq_iff (d := .outgoing) mem hi).2 hs
    have there : a.target = j := (hg.near_eq_iff (d := .incoming) mem hj).2 ht
    refine ⟨k, (hg.mem_arcs_iff hv .outgoing k).2 ⟨a, ha, here⟩, ?_⟩
    simpa [ha] using there

end Sound

theorem hasNode_iff (hg : g.Sound) : g.hasNode id = true ↔ id ∈ g.ids := by
  rw [← hg.exists_nodeIndex?_iff, ← Option.isSome_iff_exists]
  rfl

theorem appendNode_of_known (h : g.nodeIndex? n.id = some i) : g.appendNode n = (i, g) := by
  rw [appendNode, h]

theorem appendNode_of_new (h : g.nodeIndex? n.id = none) :
    g.appendNode n = (g.vertices.length, { g with
      index := g.index.insert n.id g.vertices.length
      vertices := g.vertices ++ [{ node := n }] }) := by
  rw [appendNode, h]

theorem nodes_addNode_of_new (h : g.nodeIndex? n.id = none) :
    (g.addNode n).nodes = g.nodes ++ [n] := by
  rw [addNode, appendNode_of_new h, nodes, List.map_append]
  rfl

theorem edges_addNode (g : Graph) (n : Node) : (g.addNode n).edges = g.edges := by
  unfold addNode appendNode
  split <;> rfl

theorem Sound.addNode (hg : g.Sound) (n : Node) : (g.addNode n).Sound := by
  cases h : g.nodeIndex? n.id with
  | some i => rwa [Graph.addNode, appendNode_of_known h]
  | none =>
    have ids : (g.addNode n).ids = g.ids ++ [n.id] := by
      rw [Graph.ids, nodes_addNode_of_new h, List.map_append]
      rfl
    have edges := edges_addNode g n
    have found : ∀ {i v}, (g.addNode n).vertices[i]? = some v ↔
        g.vertices[i]? = some v ∨ i = g.vertices.length ∧ { node := n } = v := by
      rw [Graph.addNode, appendNode_of_new h]
      exact getElem?_concat_eq_some_iff
    have arcs : (g.addNode n).arcs = g.arcs := by
      rw [Graph.addNode, appendNode_of_new h]
    have index : ∀ id, (g.addNode n).nodeIndex? id =
        if id = n.id then some g.vertices.length else g.nodeIndex? id := by
      intro id
      rw [Graph.addNode, appendNode_of_new h]
      exact Table.get?_insert ..
    constructor
    case index_iff =>
      intro id i
      rw [index, ids, getElem?_concat_eq_some_iff, length_ids, ← hg.index_iff]
      split
      case isTrue same =>
        rw [same, h]
        simp [eq_comm]
      case isFalse other => simp [Ne.symm other]
    case ends =>
      intro a ha d
      rw [ids]
      exact getElem?_concat_eq_some_iff.2 (.inl (hg.ends (arcs ▸ ha) d))
    case mem_arcs_iff =>
      intro i v hv d k
      rw [arcs]
      rcases found.1 hv with hv | ⟨rfl, rfl⟩
      · exact hg.mem_arcs_iff hv d k
      · -- no edge was stored at the new place
        have none : ({ node := n } : Vertex).arcs d = [] := by cases d <;> rfl
        rw [none]
        refine ⟨by simp, ?_⟩
        rintro ⟨a, ha, here⟩
        have there := hg.ends (List.mem_of_getElem? ha) d
        rw [here, ← length_ids, List.getElem?_eq_none (Nat.le_refl _)] at there
        cases there
    case recent_first =>
      intro v hv d
      obtain ⟨i, hi⟩ := List.mem_iff_getElem?.1 hv
      rcases found.1 hi with hv | ⟨-, rfl⟩
      · exact hg.recent_first (List.mem_of_getElem? hv) d
      · cases d <;> exact .nil
    case simple => exact edges ▸ hg.simple
    case number_eq => exact edges ▸ hg.number_eq

section

variable (g e i j)

theorem nodes_connect : (g.connect e i j).nodes = g.nodes := by
  rw [nodes, connect]
  dsimp only
  rw [map_modify_of_eq (fun v => Vertex.node_attach v _ _),
    map_modify_of_eq (fun v => Vertex.node_attach v _ _)]
  rfl

theorem edges_connect : (g.connect e i j).edges = g.edges ++ [e] := List.map_append

theorem getElem?_vertices_connect (m : Nat) : (g.connect e i j).vertices[m]? =
    g.vertices[m]?.map (Vertex.joined ⟨e, i, j⟩ g.arcs.length m) := by
  rw [connect]
  dsimp only
  rw [List.getElem?_modify, List.getElem?_modify]
  cases g.vertices[m]? with
  | none => rfl
  | some v =>
    refine congrArg some ?_
    by_cases left : i = m <;> by_cases arrived : j = m <;>
      simp [Vertex.joined, left, arrived, Vertex.attach]

end

theorem Sound.connect (hg : g.Sound) (hi : g.nodeIndex? e.source = some i)
    (hj : g.nodeIndex? e.target = some j) (number : e.number = g.arcs.length + 1)
    (free : ¬ ∃ old ∈ g.edges, old.source = e.source ∧ old.target = e.target) :
    (g.connect e i j).Sound := by
  have ids : (g.connect e i j).ids = g.ids := congrArg (List.map Node.id) (nodes_connect g e i j)
  have arcs : ∀ {k a}, (g.connect e i j).arcs[k]? = some a ↔
      g.arcs[k]? = some a ∨ k = g.arcs.length ∧ ⟨e, i, j⟩ = a := getElem?_concat_eq_some_iff
  have known : ∀ {k a}, g.arcs[k]? = some a → k < g.arcs.length :=
    fun ha => (List.getElem?_eq_some_iff.1 ha).1
  constructor
  case index_iff =>
    intro id i
    rw [ids]
    exact hg.index_iff
  case ends =>
    intro a ha d
    rw [ids]
    obtain ⟨k, ha⟩ := List.mem_iff_getElem?.1 ha
    rcases arcs.1 ha with ha | ⟨-, rfl⟩
    · exact hg.ends (List.mem_of_getElem? ha) d
    · cases d with
      | outgoing => exact hg.index_iff.1 hi
      | incoming => exact hg.index_iff.1 hj
  case mem_arcs_iff =>
    intro m v hv d k
    rw [getElem?_vertices_connect] at hv
    obtain ⟨old, hold, rfl⟩ := Option.map_eq_some_iff.1 hv
    have before := hg.mem_arcs_iff hold d k
    simp only [arcs, or_and_right, exists_or, ← before, and_assoc, exists_and_left]
    rw [Vertex.arcs_joined]
    split
    case isTrue here => simp [here, or_comm]
    case isFalse away => simp [away]
  case recent_first =>
    intro v hv d
    obtain ⟨m, hm⟩ := List.mem_iff_getElem?.1 hv
    rw [getElem?_vertices_connect] at hm
    obtain ⟨old, hold, rfl⟩ := Option.map_eq_some_iff.1 hm
    have before := hg.recent_first (List.mem_of_getElem? hold) d
    rw [Vertex.arcs_joined]
    split
    case isTrue =>
      refine List.pairwise_cons.2 ⟨fun k hk => ?_, before⟩
      obtain ⟨a, ha, -⟩ := (hg.mem_arcs_iff hold d k).1 hk
      exact known ha
    case isFalse => exact before
  case simple =>
    rw [edges_connect, List.map_append, List.nodup_append]
    refine ⟨hg.simple, List.nodup_singleton _, fun ends mem new hnew => ?_⟩
    obtain ⟨old, hold, rfl⟩ := List.mem_map.1 mem
    rw [List.map_singleton, List.mem_singleton] at hnew
    rintro rfl
    obtain ⟨hs, ht⟩ := Prod.mk.inj hnew
    exact free ⟨old, hold, hs, ht⟩
  case number_eq =>
    intro k new hk
    rw [edges_connect] at hk
    rcases getElem?_concat_eq_some_iff.1 hk with hk | ⟨rfl, rfl⟩
    · exact hg.number_eq k new hk
    · rw [number, edges, List.length_map]

theorem hasEdge_iff (hg : g.Sound) :
    g.hasEdge source target = true ↔ ∃ e ∈ g.edges, e.source = source ∧ e.target = target := by
  unfold hasEdge
  split
  case h_1 i j hi hj => exact hg.findArc?_isSome_iff hi hj
  case h_2 missing =>
    refine ⟨nofun, ?_⟩
    rintro ⟨e, he, rfl, rfl⟩
    obtain ⟨i, hi⟩ := hg.exists_nodeIndex?_iff.2 (hg.source_mem e he)
    obtain ⟨j, hj⟩ := hg.exists_nodeIndex?_iff.2 (hg.target_mem e he)
    exact (missing i j hi hj).elim

theorem Sound.freeEnds?_eq_some_iff (hg : g.Sound) : g.freeEnds? source target = some (i, j) ↔
    g.nodeIndex? source = some i ∧ g.nodeIndex? target = some j ∧
      ¬ ∃ e ∈ g.edges, e.source = source ∧ e.target = target := by
  unfold freeEnds?
  split
  case h_1 i j hi hj =>
    rw [← hg.findArc?_isSome_iff hi hj, hi, hj]
    split
    case isTrue taken => simp [taken]
    case isFalse free => simp [free]
  case h_2 missing =>
    refine ⟨nofun, ?_⟩
    rintro ⟨hi, hj, -⟩
    exact (missing i j hi hj).elim

theorem canConnect_iff (hg : g.Sound) : g.canConnect source target = true ↔
    source ∈ g.ids ∧ target ∈ g.ids ∧ ¬ ∃ e ∈ g.edges, e.source = source ∧ e.target = target := by
  rw [canConnect, Option.isSome_iff_exists, Prod.exists]
  simp only [hg.freeEnds?_eq_some_iff, exists_and_left, exists_and_right, hg.exists_nodeIndex?_iff]

theorem nodes_addEdge (g : Graph) (source target : String) (relation : Relation) :
    (g.addEdge source target relation).nodes = g.nodes := by
  unfold addEdge appendEdge
  split
  · exact nodes_connect ..
  · rfl

theorem addEdge_of_not_canConnect (h : g.canConnect source target = false) :
    g.addEdge source target relation = g := by
  have taken : g.freeEnds? source target = none :=
    Option.isNone_iff_eq_none.1 (Option.isSome_eq_false_iff.1 h)
  rw [addEdge, appendEdge, taken]

theorem edges_addEdge_of_canConnect (h : g.canConnect source target = true) :
    (g.addEdge source target relation).edges =
      g.edges ++ [⟨g.edges.length + 1, source, target, relation⟩] := by
  obtain ⟨ends, free⟩ := Option.isSome_iff_exists.1 h
  have length : g.edges.length = g.arcs.length := List.length_map ..
  rw [addEdge, appendEdge, free]
  rw [length]
  exact edges_connect ..

theorem Sound.addEdge (hg : g.Sound) (source target : String) (relation : Relation) :
    (g.addEdge source target relation).Sound := by
  cases h : g.freeEnds? source target with
  | none => rwa [Graph.addEdge, appendEdge, h]
  | some ends =>
    obtain ⟨hi, hj, free⟩ := hg.freeEnds?_eq_some_iff.1 h
    rw [Graph.addEdge, appendEdge, h]
    exact hg.connect hi hj rfl free

/-- Changes nodes where they are. -/
def mapNodes (g : Graph) (f : Node → Node) : Graph :=
  { g with vertices := g.vertices.map fun v => { v with node := f v.node } }

theorem nodes_mapNodes (g : Graph) (f : Node → Node) : (g.mapNodes f).nodes = g.nodes.map f := by
  rw [nodes, nodes, mapNodes, List.map_map, List.map_map]
  rfl

theorem mapNodes_mapNodes (g : Graph) (f h : Node → Node) :
    (g.mapNodes f).mapNodes h = g.mapNodes (h ∘ f) := by
  simp only [mapNodes, List.map_map, Function.comp_def]

theorem mapNodes_self (g : Graph) : g.mapNodes (fun n => n) = g := by
  simp only [mapNodes, List.map_id']

theorem ids_mapNodes (same : ∀ n, (f n).id = n.id) : (g.mapNodes f).ids = g.ids := by
  rw [ids, nodes_mapNodes, List.map_map]
  exact List.map_congr_left fun n _ => same n

theorem Sound.mapNodes (hg : g.Sound) (same : ∀ n, (f n).id = n.id) : (g.mapNodes f).Sound := by
  have ids : (g.mapNodes f).ids = g.ids := ids_mapNodes same
  have vertex : ∀ {i : Nat} {v : Vertex}, (g.mapNodes f).vertices[i]? = some v →
      ∃ old : Vertex, g.vertices[i]? = some old ∧ v.arcs = old.arcs := by
    intro i v hv
    rw [Graph.mapNodes, List.getElem?_map] at hv
    obtain ⟨old, hold, rfl⟩ := Option.map_eq_some_iff.1 hv
    refine ⟨old, hold, funext fun d => ?_⟩
    cases d <;> rfl
  constructor
  case index_iff =>
    rw [ids]
    exact hg.index_iff
  case ends =>
    rw [ids]
    exact hg.ends
  case mem_arcs_iff =>
    intro i v hv d k
    obtain ⟨old, hold, arcs⟩ := vertex hv
    rw [arcs]
    exact hg.mem_arcs_iff hold d k
  case recent_first =>
    intro v hv d
    obtain ⟨i, hi⟩ := List.mem_iff_getElem?.1 hv
    obtain ⟨old, hold, arcs⟩ := vertex hi
    rw [arcs]
    exact hg.recent_first (List.mem_of_getElem? hold) d
  case simple => exact hg.simple
  case number_eq => exact hg.number_eq

/-- The index leads to the one node with an id, so that this one is changed. -/
theorem Sound.modifyNode_eq (hg : g.Sound) (id : String) (f : Node → Node) :
    g.modifyNode id f = g.mapNodes fun n => if n.id = id then f n else n := by
  have here : ∀ {i v}, g.vertices[i]? = some v → (g.nodeIndex? id = some i ↔ v.node.id = id) := by
    intro i v hv
    rw [hg.index_iff, getElem?_ids, hv, Option.map_some, Option.some.injEq]
  unfold modifyNode Graph.mapNodes
  split
  case h_1 place found =>
    refine congrArg (fun vertices => { g with vertices }) (List.ext_getElem? fun i => ?_)
    rw [List.getElem?_modify, List.getElem?_map]
    cases hv : g.vertices[i]? with
    | none => rfl
    | some v =>
      refine congrArg some ?_
      have test : place = i ↔ v.node.id = id := by rw [← here hv, found, Option.some.injEq]
      by_cases same : place = i
      · simp [same, test.1 same]
      · simp [same, mt test.2 same]
  case h_2 missing =>
    have same : g.vertices.map (fun v =>
        { v with node := if v.node.id = id then f v.node else v.node }) =
          g.vertices.map fun v => v := by
      refine List.map_congr_left fun v hv => ?_
      obtain ⟨i, hi⟩ := List.mem_iff_getElem?.1 hv
      have other : v.node.id ≠ id := fun same => by
        rw [(here hi).2 same] at missing
        cases missing
      rw [if_neg other]
    rw [same, List.map_id']

theorem Sound.modifyNode (hg : g.Sound) (id : String) (f : Node → Node)
    (same : ∀ n, (f n).id = n.id) : (g.modifyNode id f).Sound := by
  rw [hg.modifyNode_eq]
  refine hg.mapNodes fun n => ?_
  split
  · exact same n
  · rfl

theorem Sound.applyLayout (hg : g.Sound) (layout : List Placement) :
    (g.applyLayout layout).Sound := by
  induction layout generalizing g with
  | nil => exact hg
  | cons p layout ih => exact ih (hg.modifyNode p.id p.apply fun _ => rfl)

end Graph

end AngularAtlas
