import AngularAtlas.Proofs.Distinct
import AngularAtlas.Proofs.Graph.History

/-!
Graphs that come about by asking for nodes, and then for more nodes each of which brings a link
along. Main statement: such a graph has the first node of each id and the first link of each
ordered pair of ids that were asked for, and no link is lost, provided that its ends are known when
it is asked for.
-/

namespace AngularAtlas

/-- An edge without its number. -/
structure Link where
  source : String
  target : String
  relation : Relation

def Link.ends (l : Link) : String × String := (l.source, l.target)

/-- A node, and a link to add once the node is there. -/
structure Request where
  node : Node
  link : Link

/-- An end of the link is the node that comes with it, or among others that come before. -/
def Request.Follows (r : Request) (nodes : List Node) : Prop :=
  ∀ id ∈ [r.link.source, r.link.target], id = r.node.id ∨ id ∈ nodes.map Node.id

namespace Graph

variable {g : Graph} {nodes more : List Node} {linked : List Link} {requests : List Request}
  {n : Node} {l : Link} {r : Request} {id : String}

def links (g : Graph) : List Link := g.edges.map fun e => ⟨e.source, e.target, e.relation⟩

def ask (g : Graph) (r : Request) : Graph :=
  (g.addNode r.node).addEdge r.link.source r.link.target r.link.relation

structure Collects (g : Graph) (nodes : List Node) (linked : List Link) : Prop where
  sound : g.Sound
  nodes_first : FirstOfEach Node.id nodes g.nodes
  links_first : FirstOfEach Link.ends linked g.links

theorem collects_empty (name : String) : Collects { name } [] [] where
  sound := sound_empty name
  nodes_first := .nil _
  links_first := .nil _

theorem links_addNode (g : Graph) (n : Node) : (g.addNode n).links = g.links := by
  rw [links, edges_addNode, links]

theorem map_ends_links (g : Graph) :
    g.links.map Link.ends = g.edges.map fun e => (e.source, e.target) := by
  rw [links, List.map_map]
  rfl

theorem mem_ends_links {source target : String} :
    (source, target) ∈ g.links.map Link.ends ↔
      ∃ e ∈ g.edges, e.source = source ∧ e.target = target := by
  simp [links, Link.ends]

namespace Collects

theorem mem_ids_iff (h : g.Collects nodes linked) : id ∈ g.ids ↔ id ∈ nodes.map Node.id :=
  h.nodes_first.mem_keys_iff

theorem addNode (h : g.Collects nodes linked) (n : Node) :
    (g.addNode n).Collects (nodes ++ [n]) linked := by
  constructor
  case sound => exact h.sound.addNode n
  case nodes_first =>
    cases found : g.nodeIndex? n.id with
    | some i =>
      rw [Graph.addNode, appendNode_of_known found]
      exact h.nodes_first.concat_of_mem
        (h.mem_ids_iff.1 (h.sound.exists_nodeIndex?_iff.1 ⟨i, found⟩))
    | none =>
      rw [nodes_addNode_of_new found]
      have new := h.sound.nodeIndex?_eq_none_iff.1 found
      exact h.nodes_first.concat_of_not_mem fun known => new (h.mem_ids_iff.2 known)
  case links_first =>
    rw [links_addNode]
    exact h.links_first

theorem addEdge (h : g.Collects nodes linked) (source : l.source ∈ nodes.map Node.id)
    (target : l.target ∈ nodes.map Node.id) :
    (g.addEdge l.source l.target l.relation).Collects nodes (linked ++ [l]) := by
  constructor
  case sound => exact h.sound.addEdge ..
  case nodes_first =>
    rw [nodes_addEdge]
    exact h.nodes_first
  case links_first =>
    by_cases known : l.ends ∈ linked.map Link.ends
    · have taken : g.canConnect l.source l.target = false := by
        rw [Bool.eq_false_iff, ne_eq, canConnect_iff h.sound]
        rintro ⟨-, -, free⟩
        exact free (mem_ends_links.1 (h.links_first.mem_keys_iff.2 known))
      rw [addEdge_of_not_canConnect taken]
      exact h.links_first.concat_of_mem known
    · have free : g.canConnect l.source l.target = true := by
        rw [canConnect_iff h.sound, h.mem_ids_iff, h.mem_ids_iff]
        refine ⟨source, target, fun taken => known ?_⟩
        exact h.links_first.mem_keys_iff.1 (mem_ends_links.2 taken)
      have added : (g.addEdge l.source l.target l.relation).links = g.links ++ [l] := by
        rw [links, edges_addEdge_of_canConnect free]
        exact List.map_append
      rw [added]
      exact h.links_first.concat_of_not_mem known

theorem ask (h : g.Collects nodes linked) (hr : r.Follows nodes) :
    (g.ask r).Collects (nodes ++ [r.node]) (linked ++ [r.link]) := by
  have known : ∀ id ∈ [r.link.source, r.link.target],
      id ∈ (nodes ++ [r.node]).map Node.id := by
    intro id hid
    rw [List.map_append, List.mem_append, List.map_singleton, List.mem_singleton]
    exact (hr id hid).symm
  apply (h.addNode r.node).addEdge
  · exact known _ (by simp)
  · exact known _ (by simp)

theorem foldl_addNode (h : g.Collects nodes linked) (more : List Node) :
    (more.foldl Graph.addNode g).Collects (nodes ++ more) linked := by
  induction more generalizing g nodes with
  | nil => rwa [List.append_nil]
  | cons n more ih =>
    rw [List.foldl_cons, List.append_cons]
    exact ih (h.addNode n)

theorem foldl_ask (h : g.Collects nodes linked) (hr : ∀ r ∈ requests, r.Follows nodes) :
    (requests.foldl Graph.ask g).Collects (nodes ++ requests.map Request.node)
      (linked ++ requests.map Request.link) := by
  induction requests generalizing g nodes linked with
  | nil => simpa using h
  | cons r requests ih =>
    obtain ⟨here, later⟩ := List.forall_mem_cons.1 hr
    rw [List.foldl_cons, List.map_cons, List.map_cons, List.append_cons nodes,
      List.append_cons linked]
    apply ih (h.ask here)
    intro q hq id hid
    -- an end that was known already is known after one more node
    refine (later q hq id hid).imp_right fun mem => ?_
    rw [List.map_append]
    exact List.mem_append_left _ mem

end Collects

theorem collects_foldl_ask (name : String) (hr : ∀ r ∈ requests, r.Follows nodes) :
    (requests.foldl ask (nodes.foldl addNode { name })).Collects
      (nodes ++ requests.map Request.node) (requests.map Request.link) := by
  have plain := (collects_empty name).foldl_addNode nodes
  rw [List.nil_append] at plain
  exact plain.foldl_ask hr

end Graph

end AngularAtlas
