import AngularAtlas.Proofs.Hierarchy.Consistency

namespace AngularAtlas.Hierarchy

open Source

variable {g h : Hierarchy} {parent child key : String} {c d : Component}
  {links : List (String × String)} {t : FileTree} {path : String}

/-- What the links of routes leave alone in a component. -/
def unrouted (c : Component) : Component := { c with routeChildren := [], isRoot := true }

/-- The components stored under each key are the same, up to what the links of routes change. -/
def SameButRoutes (g h : Hierarchy) : Prop :=
  g.components.entries.map (fun (key, c) => (key, unrouted c)) =
    h.components.entries.map fun (key, c) => (key, unrouted c)

theorem SameButRoutes.refl (h : Hierarchy) : SameButRoutes h h := rfl

theorem SameButRoutes.trans {i : Hierarchy} (hg : SameButRoutes g h) (hh : SameButRoutes h i) :
    SameButRoutes g i :=
  Eq.trans hg hh

theorem SameButRoutes.map_component? (hs : SameButRoutes g h) (key : String) :
    (g.component? key).map unrouted = (h.component? key).map unrouted := by
  have through : ∀ entries : List (String × Component),
      (entries.map fun (key, c) => (key, unrouted c)).lookup key =
        (entries.lookup key).map unrouted :=
    Table.lookup_map_value (fun _ => unrouted) key
  have := congrArg (List.lookup key) hs
  rwa [through, through] at this

theorem SameButRoutes.exists_component? (hs : SameButRoutes g h) (hc : h.component? key = some c) :
    ∃ d, g.component? key = some d ∧ unrouted d = unrouted c := by
  have := hs.map_component? key
  rw [hc] at this
  exact Option.map_eq_some_iff.1 this

theorem SameButRoutes.map_values (hs : SameButRoutes g h) :
    g.components.values.map unrouted = h.components.values.map unrouted := by
  have := congrArg (List.map Prod.snd) hs
  simpa only [Table.values, List.map_map, Function.comp_def] using this

theorem SameButRoutes.names (hs : SameButRoutes g h) :
    g.components.names = h.components.names := by
  have := congrArg (List.map Prod.fst) hs
  simpa only [Table.names, List.map_map, Function.comp_def] using this

/-- A search that does not look at the links of routes finds components of the same key. -/
theorem SameButRoutes.map_key_find? (hs : SameButRoutes g h) {p : Component → Bool}
    (hp : ∀ c, p (unrouted c) = p c) :
    (g.components.values.find? p).map (·.key) = (h.components.values.find? p).map (·.key) := by
  have through : ∀ cs : List Component,
      (cs.find? p).map (·.key) = ((cs.map unrouted).find? p).map (·.key) := by
    intro cs
    have : p ∘ unrouted = p := funext hp
    rw [List.find?_map, this, Option.map_map]
    rfl
  rw [through, hs.map_values, ← through]

theorem SameButRoutes.map_key_ofClass? (hs : SameButRoutes g h) (name : String) :
    (g.ofClass? name).map (·.key) = (h.ofClass? name).map (·.key) :=
  hs.map_key_find? fun _ => rfl

theorem SameButRoutes.routerHost?_eq (hs : SameButRoutes g h) (directory : List Segment) :
    g.routerHost? directory = h.routerHost? directory := by
  have found := fun directory => hs.map_key_find? (p := fun c =>
    c.hasOutlet && Path.parentSegments? (Path.segments c.file) == some directory) fun _ => rfl
  fun_induction routerHost? h directory with
  | case1 directory c hc =>
    obtain ⟨d, hd, he⟩ := Option.map_eq_some_iff.1 ((found directory).trans (by rw [hc]; rfl))
    rw [routerHost?, hd]
    exact congrArg some he
  | case2 directory hc up =>
    rw [routerHost?, Option.map_eq_none_iff.1 ((found directory).trans (by rw [hc]; rfl))]
    dsimp only
    split
    · rfl
    case h_2 parent hp => rw [up] at hp; cases hp
  | case3 directory hc parent up ih =>
    rw [routerHost?, Option.map_eq_none_iff.1 ((found directory).trans (by rw [hc]; rfl))]
    dsimp only
    split
    case h_1 hp => rw [up] at hp; cases hp
    case h_2 other hp =>
      rw [up] at hp
      cases hp
      exact ih

theorem map_unrouted_modify (components : Table Component) (key : String)
    {f : Component → Component} (hf : ∀ c, unrouted (f c) = unrouted c) :
    (components.modify key f).entries.map (fun (key, c) => (key, unrouted c)) =
      components.entries.map fun (key, c) => (key, unrouted c) := by
  rw [Table.modify, List.map_map]
  refine List.map_congr_left fun entry _ => ?_
  by_cases hk : entry.1 = key
  · simp [hk, hf]
  · simp [hk]

theorem sameButRoutes_link (h : Hierarchy) (parent child : String) :
    SameButRoutes (h.link parent child .route) h := by
  unfold link
  split
  · rfl
  · split
    · rfl
    · split
      · rfl
      · refine (map_unrouted_modify _ child fun c => ?_).trans
          (map_unrouted_modify h.components parent fun c => ?_)
        · rfl
        · rfl

theorem lists_link_route_iff {other name : String} {kind : ChildKind} :
    Lists (h.link parent child .route) other name kind ↔
      Lists h other name kind ∨
        (kind = .route ∧ other = parent ∧ name = child ∧ parent ≠ child ∧
          ∃ p, h.component? parent = some p) := by
  by_cases ne : parent = child
  · simp [ne, link_self]
  · cases hp : h.component? parent with
    | none => simp [link_of_missing hp]
    | some p =>
      by_cases mem : child ∈ childrenOfKind p .route
      · have listed : Lists h parent child .route := ⟨p, hp, mem⟩
        rw [link_of_lists listed]
        refine ⟨.inl, fun hl => hl.elim id ?_⟩
        rintro ⟨rfl, rfl, rfl, -⟩
        exact listed
      · rw [lists_link_iff hp ne mem]
        simp [ne, and_comm, and_assoc, or_comm]

/-- A link leaves the children that a component has where they are. -/
theorem exists_prefix_link (hc : h.component? key = some c) :
    ∃ d, (h.link parent child .route).component? key = some d ∧
      c.routeChildren <+: d.routeChildren := by
  rcases link_cases h parent child .route with same | ⟨p, hp, ne, new⟩
  · exact ⟨c, by rw [same, hc], List.prefix_refl _⟩
  · rw [component?_link hp ne new]
    split
    case isTrue hk =>
      obtain rfl := Option.some.inj (hp.symm.trans (hk ▸ hc))
      refine ⟨_, rfl, ?_⟩
      show p.routeChildren <+: appendNew child p.routeChildren
      unfold appendNew
      split
      · exact List.prefix_refl _
      · exact List.prefix_append _ _
    case isFalse =>
      split
      · exact ⟨{ c with isRoot := false }, by rw [hc]; rfl, List.prefix_refl _⟩
      · exact ⟨c, hc, List.prefix_refl _⟩

/-- Links routed components, one after the other, to the components that show them. -/
def addLinks (h : Hierarchy) (links : List (String × String)) : Hierarchy :=
  links.foldl (fun h (parent, child) => h.link parent child .route) h

theorem sameButRoutes_addLinks (h : Hierarchy) (links : List (String × String)) :
    SameButRoutes (h.addLinks links) h := by
  induction links generalizing h with
  | nil => exact .refl h
  | cons link links ih => exact (ih _).trans (sameButRoutes_link h link.1 link.2)

theorem addLinks_append (links later : List (String × String)) :
    h.addLinks (links ++ later) = (h.addLinks links).addLinks later :=
  List.foldl_append

theorem lists_addLinks_iff {kind : ChildKind} :
    Lists (h.addLinks links) parent child kind ↔
      Lists h parent child kind ∨
        (kind = .route ∧ (parent, child) ∈ links ∧ parent ≠ child ∧
          ∃ p, h.component? parent = some p) := by
  induction links generalizing h with
  | nil => simp [addLinks]
  | cons link links ih =>
    have stored : (∃ p, (h.link link.1 link.2 .route).component? parent = some p) ↔
        ∃ p, h.component? parent = some p := by
      have := congrArg Option.isSome ((sameButRoutes_link h link.1 link.2).map_component? parent)
      rwa [Option.isSome_map, Option.isSome_map, Bool.eq_iff_iff, Option.isSome_iff_exists,
        Option.isSome_iff_exists] at this
    refine (ih (h := h.link link.1 link.2 .route)).trans ?_
    rw [stored, lists_link_route_iff, List.mem_cons, Prod.ext_iff]
    constructor
    · rintro ((hl | ⟨hk, rfl, rfl, ne, hp⟩) | ⟨hk, mem, hr⟩)
      · exact .inl hl
      · exact .inr ⟨hk, .inl ⟨rfl, rfl⟩, ne, hp⟩
      · exact .inr ⟨hk, .inr mem, hr⟩
    · rintro (hl | ⟨hk, ⟨rfl, rfl⟩ | mem, ne, hp⟩)
      · exact .inl (.inl hl)
      · exact .inl (.inr ⟨hk, rfl, rfl, ne, hp⟩)
      · exact .inr ⟨hk, mem, ne, hp⟩

theorem exists_prefix_addLinks (links : List (String × String))
    (hc : h.component? key = some c) :
    ∃ d, (h.addLinks links).component? key = some d ∧ c.routeChildren <+: d.routeChildren := by
  induction links generalizing h c with
  | nil => exact ⟨c, hc, List.prefix_refl _⟩
  | cons link links ih =>
    obtain ⟨parent, child⟩ := link
    obtain ⟨d, hd, first⟩ : ∃ d, (h.link parent child .route).component? key = some d ∧ _ :=
      exists_prefix_link hc
    obtain ⟨e, he, later⟩ := ih hd
    exact ⟨e, he, first.trans later⟩

/-- Links that are there already are not added again. -/
theorem addLinks_of_lists (hl : ∀ link ∈ links, link.1 = link.2 ∨ h.component? link.1 = none ∨
    Lists h link.1 link.2 .route) : h.addLinks links = h := by
  induction links with
  | nil => rfl
  | cons link links ih =>
    obtain ⟨first, later⟩ := List.forall_mem_cons.1 hl
    have same : h.link link.1 link.2 .route = h := by
      rcases first with he | hn | hl
      · rw [he, link_self]
      · exact link_of_missing hn
      · exact link_of_lists hl
    exact (congrArg (addLinks · links) same).trans (ih later)

mutual

/-- The links that the components of some routes get below a host. -/
def linksOfRoutes (h : Hierarchy) (host : Option String) : List Route → List (String × String)
  | [] => []
  | route :: rest => linksOfRoute h host route ++ linksOfRoutes h host rest

def linksOfRoute (h : Hierarchy) (host : Option String) : Route → List (String × String)
  | ⟨_, component, _, _, _, _, children⟩ =>
    match component.bind h.ofClass? with
    | none => linksOfRoutes h host children
    | some c => host.toList.map (·, c.key) ++ linksOfRoutes h (some c.key) children

end

/-- The component that hosts the routes of a file. -/
def fileHost? (h : Hierarchy) (path : String) : Option String :=
  (Path.parentSegments? (Path.segments path)).bind h.routerHost?

def linksOfFile (h : Hierarchy) (t : FileTree) (path : String) : List (String × String) :=
  match t.readSource path with
  | .error _ => []
  | .ok text => linksOfRoutes h (h.fileHost? path) (parseRoutes text.toList)

/-- What is said of a file that cannot be read. -/
def unreadable? (t : FileTree) (path : String) : Option Issue :=
  match t.readSource path with
  | .error e => some ⟨path, e.message⟩
  | .ok _ => none

mutual

/-- Links do not change which components the names in a table stand for. -/
theorem attachRoutes_eq_addLinks {g : Hierarchy} (hs : SameButRoutes g h)
    (host : Option String) :
    ∀ routes : List Route, attachRoutes g host routes = g.addLinks (linksOfRoutes h host routes)
  | [] => by rw [attachRoutes, linksOfRoutes]; rfl
  | route :: rest => by
    rw [attachRoutes, linksOfRoutes, addLinks_append, attachRoute_eq_addLinks hs host route]
    exact attachRoutes_eq_addLinks ((sameButRoutes_addLinks g _).trans hs) host rest

theorem attachRoute_eq_addLinks {g : Hierarchy} (hs : SameButRoutes g h)
    (host : Option String) :
    ∀ route : Route, attachRoute g host route = g.addLinks (linksOfRoute h host route)
  | ⟨_, component, _, _, _, _, children⟩ => by
    have found :
        (component.bind g.ofClass?).map (·.key) = (component.bind h.ofClass?).map (·.key) := by
      cases component with
      | none => rfl
      | some name => exact hs.map_key_ofClass? name
    rw [attachRoute, linksOfRoute]
    cases hc : component.bind h.ofClass? with
    | none =>
      rw [hc] at found
      rw [Option.map_eq_none_iff.1 found]
      exact attachRoutes_eq_addLinks hs host children
    | some c =>
      rw [hc] at found
      obtain ⟨d, hd, he⟩ := Option.map_eq_some_iff.1 found
      rw [hd, addLinks_append]
      dsimp only
      rw [he]
      cases host with
      | none => exact attachRoutes_eq_addLinks hs _ children
      | some host =>
        exact attachRoutes_eq_addLinks ((sameButRoutes_link g host c.key).trans hs) _ children

end

theorem linkRouteFile_eq_addLinks (hs : SameButRoutes g h) (issues : List Issue) :
    linkRouteFile t (g, issues) path =
      (g.addLinks (linksOfFile h t path), issues ++ (unreadable? t path).toList) := by
  unfold linkRouteFile linksOfFile unreadable?
  cases t.readSource path with
  | error e => rfl
  | ok text =>
    have host : (Path.parentSegments? (Path.segments path)).bind g.routerHost? =
        h.fileHost? path := by
      rw [fileHost?, funext hs.routerHost?_eq]
    simp only [host, attachRoutes_eq_addLinks hs]
    simp

/-- The links are the same wherever routes may have been linked already. -/
theorem SameButRoutes.linkRoutes_eq_addLinks (hs : SameButRoutes g h) (t : FileTree)
    (paths : List String) :
    g.linkRoutes t paths =
      (g.addLinks (paths.flatMap (linksOfFile h t)), paths.filterMap (unreadable? t)) := by
  suffices files : ∀ (paths : List String) (g : Hierarchy) (issues : List Issue),
      SameButRoutes g h → paths.foldl (linkRouteFile t) (g, issues) =
        (g.addLinks (paths.flatMap (linksOfFile h t)),
          issues ++ paths.filterMap (unreadable? t)) from files paths g [] hs
  intro paths
  induction paths with
  | nil =>
    intro g issues _
    simp [addLinks]
  | cons path paths ih =>
    intro g issues hs
    rw [List.foldl_cons, linkRouteFile_eq_addLinks hs,
      ih _ _ ((sameButRoutes_addLinks g _).trans hs), List.flatMap_cons, addLinks_append]
    cases hu : unreadable? t path with
    | none => simp [hu]
    | some issue => simp [hu]

theorem linkRoutes_eq_addLinks (h : Hierarchy) (t : FileTree) (paths : List String) :
    h.linkRoutes t paths =
      (h.addLinks (paths.flatMap (linksOfFile h t)), paths.filterMap (unreadable? t)) :=
  (SameButRoutes.refl h).linkRoutes_eq_addLinks t paths

end AngularAtlas.Hierarchy
