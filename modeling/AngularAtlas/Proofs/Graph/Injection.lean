import AngularAtlas.Graph.Build
import AngularAtlas.Proofs.Graph.Requests
import AngularAtlas.Proofs.Project.Additions

namespace AngularAtlas

open Source (DecoratedClass MemberKind)

variable {p : Project} {c : DecoratedClass} {n : Node} {id source target : String}

namespace Node

theorem setAttribute_of_not_mem {key : String} (new : key ∉ n.attributes.map (·.1))
    (value : String) :
    n.setAttribute key value = { n with attributes := n.attributes ++ [(key, value)] } := by
  have missing : n.attributes.any (·.1 == key) = false := by
    rw [List.any_eq_false]
    intro a ha same
    exact new (List.mem_map.2 ⟨a, ha, eq_of_beq same⟩)
  rw [setAttribute, missing]
  rfl

/-- Attributes with names of their own stand behind those that were there. -/
theorem foldl_setAttribute {values : List (String × String)}
    (distinct : ((n.attributes ++ values).map (·.1)).Nodup) :
    values.foldl (fun n value => n.setAttribute value.1 value.2) n =
      { n with attributes := n.attributes ++ values } := by
  induction values generalizing n with
  | nil => rw [List.foldl_nil, List.append_nil]
  | cons value values ih =>
    have new : value.1 ∉ n.attributes.map (·.1) := by
      rw [List.map_append, List.nodup_append] at distinct
      intro known
      exact distinct.2.2 _ known _ List.mem_cons_self rfl
    rw [List.foldl_cons, setAttribute_of_not_mem new, ih]
    · simp
    · simpa using distinct

end Node

namespace Graph

/-- The lists of members that a class has, each as one text under its heading. -/
def memberAttributes (c : DecoratedClass) : List (String × String) :=
  (MemberKind.all.filter (c.membersOf · ≠ [])).map fun kind =>
    (kind.heading, ", ".intercalate (c.membersOf kind))

theorem requesterNode_eq (c : DecoratedClass) :
    requesterNode c =
      { Node.named c.name (.ofDecorator c.decorator) with
        file := some c.file
        attributes := memberAttributes c } := by
  have groups : c.memberGroups.map (fun group => (group.1, ", ".intercalate group.2)) =
      memberAttributes c := by
    rw [DecoratedClass.memberGroups, List.filter_map, List.map_map]
    rfl
  have headings : (MemberKind.all.map MemberKind.heading).Nodup := by decide
  have distinct : ((memberAttributes c).map (·.1)).Nodup := by
    rw [memberAttributes, List.map_map]
    exact headings.sublist (List.filter_sublist.map _)
  let plain : Node := { Node.named c.name (.ofDecorator c.decorator) with file := some c.file }
  calc
    requesterNode c = (memberAttributes c).foldl (fun n value => n.setAttribute value.1 value.2)
        plain := by
      rw [← groups, List.foldl_map]
      rfl
    _ = { plain with attributes := plain.attributes ++ memberAttributes c } :=
      Node.foldl_setAttribute distinct
    _ = _ := rfl

def dependencyRequest (p : Project) (c : DecoratedClass) (name : String) : Request :=
  ⟨.named name (dependencyKind p name), ⟨name, c.name, .injected⟩⟩

def injectionRequests (p : Project) : List Request :=
  p.requesters.flatMap fun c => c.dependencies.map (dependencyRequest p c)

/-- The ends of the links that some classes ask for, from each dependency to the class. -/
def injectionEnds (askers : List DecoratedClass) : List (String × String) :=
  askers.flatMap fun c => c.dependencies.map (·, c.name)

theorem ofInjection_eq (p : Project) :
    ofInjection p = (injectionRequests p).foldl ask
      ((p.requesters.map requesterNode).foldl addNode { name := "DependencyInjection" }) := by
  rw [injectionRequests, List.foldl_flatMap, List.foldl_map]
  simp only [List.foldl_map]
  rfl

theorem id_requesterNode (c : DecoratedClass) : (requesterNode c).id = c.name := by
  rw [requesterNode_eq]
  rfl

theorem map_id_requesters (p : Project) :
    (p.requesters.map requesterNode).map Node.id = p.requesters.map (·.name) := by
  rw [List.map_map]
  exact List.map_congr_left fun c _ => id_requesterNode c

theorem mem_injectionRequests {r : Request} : r ∈ injectionRequests p ↔
    ∃ c ∈ p.requesters, ∃ name ∈ c.dependencies, dependencyRequest p c name = r := by
  simp only [injectionRequests, List.mem_flatMap, List.mem_map]

theorem follows_of_mem_injectionRequests {r : Request} (hr : r ∈ injectionRequests p) :
    r.Follows (p.requesters.map requesterNode) := by
  obtain ⟨c, hc, name, -, rfl⟩ := mem_injectionRequests.1 hr
  intro id hid
  rcases List.mem_pair.1 hid with rfl | rfl
  · exact .inl rfl
  · right
    rw [map_id_requesters]
    exact List.mem_map.2 ⟨c, hc, rfl⟩

theorem collects_ofInjection (p : Project) :
    (ofInjection p).Collects
      (p.requesters.map requesterNode ++ (injectionRequests p).map Request.node)
      ((injectionRequests p).map Request.link) := by
  rw [ofInjection_eq]
  exact collects_foldl_ask _ fun r => follows_of_mem_injectionRequests

theorem ends_injectionRequests (p : Project) :
    ((injectionRequests p).map Request.link).map Link.ends = injectionEnds p.requesters := by
  simp only [injectionRequests, injectionEnds, List.map_flatMap, List.map_map]
  rfl

theorem mem_injectionEnds {askers : List DecoratedClass} :
    (source, target) ∈ injectionEnds askers ↔
      ∃ c ∈ askers, source ∈ c.dependencies ∧ target = c.name := by
  simp only [injectionEnds, List.mem_flatMap, List.mem_map, Prod.mk.injEq]
  constructor
  · rintro ⟨c, hc, name, mem, rfl, rfl⟩
    exact ⟨c, hc, mem, rfl⟩
  · rintro ⟨c, hc, mem, rfl⟩
    exact ⟨c, hc, source, mem, rfl, rfl⟩

theorem mem_ids_ofInjection :
    id ∈ (ofInjection p).ids ↔ ∃ c ∈ p.requesters, id = c.name ∨ id ∈ c.dependencies := by
  rw [(collects_ofInjection p).mem_ids_iff, List.map_append, map_id_requesters, List.mem_append,
    List.mem_map]
  constructor
  · rintro (⟨c, hc, rfl⟩ | mem)
    · exact ⟨c, hc, .inl rfl⟩
    · obtain ⟨n, hn, rfl⟩ := List.mem_map.1 mem
      obtain ⟨r, hr, rfl⟩ := List.mem_map.1 hn
      obtain ⟨c, hc, name, known, rfl⟩ := mem_injectionRequests.1 hr
      exact ⟨c, hc, .inr known⟩
  · rintro ⟨c, hc, rfl | known⟩
    · exact .inl ⟨c, hc, rfl⟩
    · right
      have asked := mem_injectionRequests.2 ⟨c, hc, id, known, rfl⟩
      exact List.mem_map.2 ⟨_, List.mem_map_of_mem asked, rfl⟩

/-- The nodes of classes that ask come first, so that they are kept where the name is also that of
a dependency. -/
theorem cases_of_mem_nodes_ofInjection (hn : n ∈ (ofInjection p).nodes) :
    (∃ c, p.requesters.find? (·.name == n.id) = some c ∧ n = requesterNode c) ∨
      n.id ∉ p.requesters.map (·.name) ∧ n = .named n.id (dependencyKind p n.id) := by
  rcases (collects_ofInjection p).nodes_first.mem_append_iff.1 hn with first | ⟨new, requested⟩
  · left
    rw [List.find?_map] at first
    obtain ⟨c, hc, rfl⟩ := Option.map_eq_some_iff.1 first
    refine ⟨c, ?_, rfl⟩
    rw [← hc]
    exact congrArg (fun q => p.requesters.find? q) (funext fun d => by simp [id_requesterNode])
  · right
    rw [map_id_requesters] at new
    refine ⟨new, ?_⟩
    obtain ⟨r, hr, rfl⟩ := List.mem_map.1 (List.mem_of_find?_eq_some requested)
    obtain ⟨c, -, name, -, rfl⟩ := mem_injectionRequests.1 hr
    rfl

/-- What a graph has of the classes that ask for dependencies. -/
structure ShowsInjection (g : Graph) (p : Project) (askers : List DecoratedClass) : Prop where
  mem_askers : ∀ c, c ∈ askers ↔ p.Registered c ∧ c.dependencies ≠ []
  askers_ordered : askers.Pairwise Project.Precedes
  nodup_ids : g.ids.Nodup
  mem_ids : ∀ id, id ∈ g.ids ↔ ∃ c ∈ askers, id = c.name ∨ id ∈ c.dependencies
  /-- Of classes with one name the first is shown. -/
  asker : ∀ n ∈ g.nodes, ∀ c, askers.find? (·.name == n.id) = some c →
    n = { Node.named n.id (.ofDecorator c.decorator) with
      file := some c.file
      attributes := memberAttributes c }
  other : ∀ n ∈ g.nodes, n.id ∉ askers.map (·.name) →
    n = .named n.id
      (if NodeKind.classify p n.id = .unknown then .injectable else .classify p n.id)
  injected : ∀ l ∈ g.links, l.relation = .injected
  nodup_ends : (g.links.map Link.ends).Nodup
  mem_ends : ∀ source target, (source, target) ∈ g.links.map Link.ends ↔
    ∃ c ∈ askers, source ∈ c.dependencies ∧ target = c.name
  /-- Links stand in the order in which they are asked for first. -/
  ends_eq : g.links.map Link.ends = (injectionEnds askers).eraseDups

theorem dependencyKind_eq (p : Project) (name : String) :
    dependencyKind p name =
      if NodeKind.classify p name = .unknown then .injectable else .classify p name := by
  unfold dependencyKind
  cases NodeKind.classify p name <;> rfl

theorem showsInjection_of_keyed (hp : p.Keyed) : (ofInjection p).ShowsInjection p p.requesters := by
  have collects := collects_ofInjection p
  constructor
  case mem_askers => exact fun c => hp.mem_requesters_iff
  case askers_ordered => exact hp.pairwise_requesters
  case nodup_ids => exact collects.nodes_first.nodup
  case mem_ids => exact fun id => mem_ids_ofInjection
  case asker =>
    intro n hn c hc
    have name : c.name = n.id := by simpa using List.find?_some hc
    rcases cases_of_mem_nodes_ofInjection hn with ⟨d, hd, shown⟩ | ⟨new, -⟩
    · obtain rfl := Option.some.inj (hc.symm.trans hd)
      rwa [requesterNode_eq, name] at shown
    · exact absurd (List.mem_map.2 ⟨c, List.mem_of_find?_eq_some hc, name⟩) new
  case other =>
    intro n hn new
    rcases cases_of_mem_nodes_ofInjection hn with ⟨d, hd, -⟩ | ⟨-, shown⟩
    · have name : d.name = n.id := by simpa using List.find?_some hd
      exact absurd (List.mem_map.2 ⟨d, List.mem_of_find?_eq_some hd, name⟩) new
    · rwa [dependencyKind_eq] at shown
  case injected =>
    intro l hl
    obtain ⟨r, hr, rfl⟩ := List.mem_map.1 (collects.links_first.mem_items hl)
    obtain ⟨c, -, name, -, rfl⟩ := mem_injectionRequests.1 hr
    rfl
  case nodup_ends => exact collects.links_first.nodup
  case mem_ends =>
    intro source target
    rw [collects.links_first.mem_keys_iff, ends_injectionRequests]
    exact mem_injectionEnds
  case ends_eq => rw [collects.links_first.keys_eq, ends_injectionRequests]

/-- A pipe that depends on a component, on a pipe and on what is not known. -/
def heroPipe : DecoratedClass where
  name := "HeroPipe"
  file := "/app/hero.ts"
  decorator := .pipe
  dependencies := ["NavComponent", "DatePipe", "HeroService"]

example : (ofInjection (.afterAdditions [.ofClass heroPipe])).nodes.map
    (fun n => (n.id, n.kind, n.file)) =
      [("HeroPipe", .pipe, some "/app/hero.ts"), ("NavComponent", .component, none),
        ("DatePipe", .pipe, none), ("HeroService", .injectable, none)] := by decide +kernel

end Graph

end AngularAtlas
