import AngularAtlas.Graph.Build
import AngularAtlas.Proofs.Graph.Requests

namespace AngularAtlas.Graph

open Source (NgModule)

variable {p : Project} {m : NgModule} {n : Node} {id source target : String}

def moduleNode (m : NgModule) : Node := { Node.named m.name .module with file := some m.file }

def importRequest (p : Project) (m : NgModule) (name : String) : Request :=
  ⟨.named name (.classify p name), ⟨name, m.name, .imports⟩⟩

def exportRequest (p : Project) (m : NgModule) (name : String) : Request :=
  ⟨.named name (.classify p name), ⟨m.name, name, .exports⟩⟩

def moduleRequests (p : Project) (m : NgModule) : List Request :=
  m.imports.map (importRequest p m) ++ m.exports.map (exportRequest p m)

/-- The links of a module, those of imports before those of exports. -/
def moduleLinks (m : NgModule) : List Link :=
  (m.imports.map fun name => ⟨name, m.name, .imports⟩) ++
    m.exports.map fun name => ⟨m.name, name, .exports⟩

theorem addLinks_eq (p : Project) (g : Graph) (m : NgModule) :
    addLinks p g m = (moduleRequests p m).foldl ask g := by
  rw [moduleRequests, List.foldl_append, List.foldl_map, List.foldl_map]
  rfl

theorem ofModules_eq (p : Project) :
    ofModules p = (p.modules.flatMap (moduleRequests p)).foldl ask
      ((p.modules.map moduleNode).foldl addNode { name := "ModuleHierarchy" }) := by
  have links : addLinks p = fun g m => (moduleRequests p m).foldl ask g := by
    funext g m
    exact addLinks_eq p g m
  rw [List.foldl_flatMap, List.foldl_map, ← links]
  rfl

theorem map_link_moduleRequests (p : Project) (m : NgModule) :
    (moduleRequests p m).map Request.link = moduleLinks m := by
  rw [moduleRequests, List.map_append, List.map_map, List.map_map]
  rfl

theorem mem_moduleRequests {r : Request} : r ∈ moduleRequests p m ↔
    (∃ name ∈ m.imports, importRequest p m name = r) ∨
      ∃ name ∈ m.exports, exportRequest p m name = r := by
  rw [moduleRequests, List.mem_append, List.mem_map, List.mem_map]

theorem follows_of_mem_moduleRequests {r : Request}
    (hr : r ∈ p.modules.flatMap (moduleRequests p)) : r.Follows (p.modules.map moduleNode) := by
  obtain ⟨m, hm, mem⟩ := List.mem_flatMap.1 hr
  have known : m.name ∈ (p.modules.map moduleNode).map Node.id := by
    rw [List.map_map]
    exact List.mem_map.2 ⟨m, hm, rfl⟩
  rcases mem_moduleRequests.1 mem with ⟨name, -, rfl⟩ | ⟨name, -, rfl⟩
  · intro id hid
    rcases List.mem_pair.1 hid with rfl | rfl
    · exact .inl rfl
    · exact .inr known
  · intro id hid
    rcases List.mem_pair.1 hid with rfl | rfl
    · exact .inr known
    · exact .inl rfl

theorem collects_ofModules (p : Project) :
    (ofModules p).Collects
      (p.modules.map moduleNode ++ (p.modules.flatMap (moduleRequests p)).map Request.node)
      (p.modules.flatMap moduleLinks) := by
  have all := collects_foldl_ask "ModuleHierarchy" fun r => follows_of_mem_moduleRequests (p := p)
  rw [← ofModules_eq] at all
  have links : (p.modules.flatMap (moduleRequests p)).map Request.link =
      p.modules.flatMap moduleLinks := by
    rw [List.map_flatMap]
    exact List.flatMap_congr fun m _ => map_link_moduleRequests p m
  rwa [links] at all

theorem map_id_moduleRequests (p : Project) (m : NgModule) :
    ((moduleRequests p m).map Request.node).map Node.id = m.imports ++ m.exports := by
  have same : ∀ names : List String, (names.map fun name => name) = names := List.map_id'
  rw [moduleRequests, List.map_append, List.map_append, List.map_map, List.map_map, List.map_map,
    List.map_map]
  exact congrArg₂ (· ++ ·) (same m.imports) (same m.exports)

theorem mem_ids_ofModules :
    id ∈ (ofModules p).ids ↔ ∃ m ∈ p.modules, id = m.name ∨ id ∈ m.imports ∨ id ∈ m.exports := by
  have names : ((p.modules.flatMap (moduleRequests p)).map Request.node).map Node.id =
      p.modules.flatMap fun m => m.imports ++ m.exports := by
    rw [List.map_flatMap, List.map_flatMap]
    exact List.flatMap_congr fun m _ => map_id_moduleRequests p m
  rw [(collects_ofModules p).mem_ids_iff, List.map_append, names, List.map_map, List.mem_append,
    List.mem_map, List.mem_flatMap]
  constructor
  · rintro (⟨m, hm, rfl⟩ | ⟨m, hm, mem⟩)
    · exact ⟨m, hm, .inl rfl⟩
    · exact ⟨m, hm, .inr (List.mem_append.1 mem)⟩
  · rintro ⟨m, hm, rfl | mem⟩
    · exact .inl ⟨m, hm, rfl⟩
    · exact .inr ⟨m, hm, List.mem_append.2 mem⟩

theorem eq_named_of_mem_requested
    (hn : n ∈ (p.modules.flatMap (moduleRequests p)).map Request.node) :
    n = .named n.id (.classify p n.id) := by
  obtain ⟨r, hr, rfl⟩ := List.mem_map.1 hn
  obtain ⟨m, -, mem⟩ := List.mem_flatMap.1 hr
  rcases mem_moduleRequests.1 mem with ⟨name, -, rfl⟩ | ⟨name, -, rfl⟩
  · rfl
  · rfl

/-- The nodes of modules come first, so a name that is also imported or exported keeps its file. -/
theorem eq_of_mem_nodes_ofModules (hn : n ∈ (ofModules p).nodes) :
    n = match p.module? n.id with
      | some m => moduleNode m
      | none => .named n.id (.classify p n.id) := by
  have first := (collects_ofModules p).nodes_first.first n hn
  have modules : (p.modules.map moduleNode).find? (fun b => b.id == n.id) =
      (p.module? n.id).map moduleNode := List.find?_map
  rw [List.find?_append, modules] at first
  cases known : p.module? n.id with
  | some m =>
    rw [known] at first
    exact (Option.some.inj first).symm
  | none =>
    rw [known, Option.map_none, Option.none_or] at first
    exact eq_named_of_mem_requested (List.mem_of_find?_eq_some first)

theorem mem_ends_moduleLinks : (source, target) ∈ (moduleLinks m).map Link.ends ↔
    source ∈ m.imports ∧ target = m.name ∨ source = m.name ∧ target ∈ m.exports := by
  have ends : (moduleLinks m).map Link.ends =
      (m.imports.map fun name => (name, m.name)) ++ m.exports.map fun name => (m.name, name) := by
    rw [moduleLinks, List.map_append, List.map_map, List.map_map]
    rfl
  rw [ends, List.mem_append, List.mem_map, List.mem_map]
  constructor
  · rintro (⟨name, mem, same⟩ | ⟨name, mem, same⟩)
    · obtain ⟨rfl, rfl⟩ := Prod.mk.inj same
      exact .inl ⟨mem, rfl⟩
    · obtain ⟨rfl, rfl⟩ := Prod.mk.inj same
      exact .inr ⟨rfl, mem⟩
  · rintro (⟨mem, rfl⟩ | ⟨rfl, mem⟩)
    · exact .inl ⟨source, mem, rfl⟩
    · exact .inr ⟨target, mem, rfl⟩

/-- What a graph has of the modules of a project. -/
structure ShowsModules (g : Graph) (p : Project) : Prop where
  nodup_ids : g.ids.Nodup
  mem_ids : ∀ id, id ∈ g.ids ↔
    ∃ m ∈ p.modules, id = m.name ∨ id ∈ m.imports ∨ id ∈ m.exports
  /-- Of modules with one name the first is found. -/
  module : ∀ n ∈ g.nodes, ∀ m, p.module? n.id = some m →
    n = { Node.named n.id .module with file := some m.file }
  other : ∀ n ∈ g.nodes, p.module? n.id = none → n = .named n.id (.classify p n.id)
  nodup_ends : (g.links.map Link.ends).Nodup
  mem_ends : ∀ source target, (source, target) ∈ g.links.map Link.ends ↔
    ∃ m ∈ p.modules, source ∈ m.imports ∧ target = m.name ∨ source = m.name ∧ target ∈ m.exports
  /-- Two nodes are related as they are first, in the order of the links. -/
  links_first : FirstOfEach Link.ends (p.modules.flatMap moduleLinks) g.links

theorem showsModules_ofModules (p : Project) : (ofModules p).ShowsModules p := by
  have collects := collects_ofModules p
  constructor
  case nodup_ids => exact collects.nodes_first.nodup
  case mem_ids => exact fun id => mem_ids_ofModules
  case module =>
    intro n hn m hm
    have shown := eq_of_mem_nodes_ofModules hn
    rw [hm] at shown
    have name : m.name = n.id := by simpa using List.find?_some hm
    rw [← name]
    exact shown
  case other =>
    intro n hn hm
    have shown := eq_of_mem_nodes_ofModules hn
    rwa [hm] at shown
  case nodup_ends => exact collects.links_first.nodup
  case mem_ends =>
    intro source target
    rw [collects.links_first.mem_keys_iff, List.map_flatMap, List.mem_flatMap]
    simp only [mem_ends_moduleLinks]
  case links_first => exact collects.links_first

/-- Imports and exports of one module: a call, a class that is known, endings, and nothing known. -/
def sampleModule : NgModule where
  name := "App"
  file := "/app/app.ts"
  imports := ["RouterModule.forRoot(routes)", "Hero", "NgFor"]
  exports := ["NavComponent", "DatePipe", "Hero"]

example : (ofModules { modules := [sampleModule], injectables := .ofList [("Hero", {})] }).nodes.map
    (fun n => (n.id, n.kind, n.file)) =
      [("App", .module, some "/app/app.ts"), ("RouterModule.forRoot(routes)", .module, none),
        ("Hero", .injectable, none), ("NgFor", .unknown, none), ("NavComponent", .component, none),
        ("DatePipe", .pipe, none)] := by decide +kernel

end AngularAtlas.Graph
