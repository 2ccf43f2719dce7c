import AngularAtlas.Proofs.FileTree.Reading
import AngularAtlas.Proofs.Hierarchy.RouteLinks
import AngularAtlas.Proofs.Hierarchy.RouterHost
import AngularAtlas.Proofs.Table

/-!
What linking through routes does to a hierarchy. Main statement: a routed component becomes a
child of the component of the nearest route around it that has a known one, or else of the
component that hosts its file, and nothing else changes; the order of the files shows in the
order of children only.
-/

namespace AngularAtlas.Hierarchy

open Source

/-- A class name stands for the first component, in the order of keys, that is of that class. -/
structure StandsFor (h : Hierarchy) (name key : String) : Prop where
  stored : ∃ c, h.component? key = some c ∧ c.name = name
  first : ∀ {other d}, h.component? other = some d → d.name = name → key ≤ other

/-- The component of a route is known under a key. -/
def IsKnown (h : Hierarchy) (route : Route) (key : String) : Prop :=
  ∃ name, route.component = some name ∧ StandsFor h name key

/-- Among a route and those below it, there is one whose component another component shows: the
one of the nearest route around it whose component is known, or else the given host. -/
inductive Shows (h : Hierarchy) : Option String → Route → String → String → Prop
  | here {host child : String} {route : Route} :
      IsKnown h route child → Shows h (some host) route host child
  | inside {host : Option String} {route sub : Route} {key parent child : String} :
      IsKnown h route key → sub ∈ route.children → Shows h (some key) sub parent child →
      Shows h host route parent child
  | through {host : Option String} {route sub : Route} {parent child : String} :
      (∀ key, ¬ IsKnown h route key) → sub ∈ route.children → Shows h host sub parent child →
      Shows h host route parent child

/-- What hosts the routes of a file is the router host of the directory in which it stands. -/
def IsFileHost (h : Hierarchy) (path : String) (host : Option String) : Prop :=
  ∀ key, host = some key ↔
    ∃ directory, Path.StandsIn path directory ∧ h.routerHost? directory = some key

/-- A file that can be read has a route by which one component shows another. -/
def RoutesTo (h : Hierarchy) (t : FileTree) (paths : List String) (parent child : String) : Prop :=
  ∃ path ∈ paths, ∃ text, t.readSource path = .ok text ∧
    ∃ host, IsFileHost h path host ∧
      ∃ route ∈ parseRoutes text.toList, Shows h host route parent child

variable {h : Hierarchy} {t : FileTree} {paths others : List String} {host : Option String}
  {name parent child key : String} {route : Route} {routes : List Route} {c d : Component}

theorem standsFor_of_ofClass? (hh : Consistent h) (hc : h.ofClass? name = some c) :
    StandsFor h name c.key := by
  obtain ⟨key, stored, hn, first⟩ := Table.exists_of_find?_values hc
  rw [hh.key_eq stored]
  exact ⟨⟨c, stored, eq_of_beq hn⟩, fun hd hname => first hd (beq_iff_eq.2 hname)⟩

theorem StandsFor.unique {other : String} (hk : StandsFor h name key)
    (ho : StandsFor h name other) : key = other := by
  obtain ⟨c, hc, hn⟩ := hk.stored
  obtain ⟨d, hd, hm⟩ := ho.stored
  exact String.le_antisymm (hk.first hd hm) (ho.first hc hn)

theorem isKnown_iff (hh : Consistent h) :
    IsKnown h route key ↔ ∃ c, route.component.bind h.ofClass? = some c ∧ c.key = key := by
  constructor
  · rintro ⟨name, hr, hk⟩
    obtain ⟨d, hd, hn⟩ := hk.stored
    obtain ⟨c, hc⟩ : ∃ c, h.ofClass? name = some c := by
      refine Option.isSome_iff_exists.1 (List.find?_isSome.2 ⟨d, ?_, by simp [hn]⟩)
      exact Table.mem_values_iff.2 ⟨key, hd⟩
    exact ⟨c, by rw [hr]; exact hc, (standsFor_of_ofClass? hh hc).unique hk⟩
  · rintro ⟨c, hc, rfl⟩
    obtain ⟨name, hr, hc⟩ := Option.bind_eq_some_iff.1 hc
    exact ⟨name, hr, standsFor_of_ofClass? hh hc⟩

theorem IsKnown.stored (hk : IsKnown h route key) : ∃ c, h.component? key = some c := by
  obtain ⟨_, -, hs⟩ := hk
  obtain ⟨c, hc, -⟩ := hs.stored
  exact ⟨c, hc⟩

theorem isFileHost_iff {path : String} : IsFileHost h path host ↔ host = h.fileHost? path := by
  have asked : ∀ key, h.fileHost? path = some key ↔
      ∃ directory, Path.StandsIn path directory ∧ h.routerHost? directory = some key := by
    intro key
    rw [fileHost?, Option.bind_eq_some_iff]
    simp only [Path.parentSegments?_eq_some_iff, Path.StandsIn]
  simp only [IsFileHost, ← asked]
  exact Option.ext_iff.symm

theorem stored_of_routerHost? (hh : Consistent h) {directory : List Segment}
    (hk : h.routerHost? directory = some key) : ∃ c, h.component? key = some c := by
  fun_induction routerHost? h directory with
  | case1 directory c hc =>
    obtain ⟨other, ho⟩ := Table.mem_values_iff.1 (List.mem_of_find?_eq_some hc)
    obtain rfl := Option.some.inj hk
    exact ⟨c, hh.key_eq ho ▸ ho⟩
  | case2 => cases hk
  | case3 _ _ _ _ ih => exact ih hk

theorem Shows.stored (hs : Shows h host route parent child)
    (hh : ∀ key, host = some key → ∃ c, h.component? key = some c) :
    ∃ c, h.component? parent = some c := by
  induction hs with
  | here => exact hh _ rfl
  | inside known _ _ ih => exact ih fun key hk => Option.some.inj hk ▸ known.stored
  | through _ _ _ ih => exact ih hh

theorem RoutesTo.stored (hh : Consistent h) (hr : RoutesTo h t paths parent child) :
    ∃ c, h.component? parent = some c := by
  obtain ⟨path, -, text, -, host, isHost, route, -, hs⟩ := hr
  refine hs.stored fun key hk => ?_
  obtain ⟨directory, -, hk⟩ := (isHost key).1 hk
  exact stored_of_routerHost? hh hk

theorem linksOfRoutes_eq_flatMap (h : Hierarchy) (host : Option String) (routes : List Route) :
    linksOfRoutes h host routes = routes.flatMap (linksOfRoute h host) := by
  induction routes with
  | nil => rw [linksOfRoutes]; rfl
  | cons route routes ih => rw [linksOfRoutes, ih, List.flatMap_cons]

theorem mem_linksOfRoute_iff (hh : Consistent h) :
    (parent, child) ∈ linksOfRoute h host route ↔ Shows h host route parent child := by
  induction route using Route.induction generalizing host with
  | step route ih =>
    have known : ∀ key, IsKnown h route key ↔ _ := fun _ => isKnown_iff hh
    have below : ∀ host, (parent, child) ∈ linksOfRoutes h host route.children ↔
        ∃ sub ∈ route.children, Shows h host sub parent child := by
      intro host
      rw [linksOfRoutes_eq_flatMap, List.mem_flatMap]
      exact exists_congr fun sub => and_congr_right fun hs => ih sub hs
    obtain ⟨_, component, _, _, _, _, children⟩ := route
    rw [linksOfRoute]
    cases hc : component.bind h.ofClass? with
    | none =>
      have unknown : ∀ key, ¬ IsKnown h _ key := fun key hk => by
        obtain ⟨c, hs, -⟩ := (known key).1 hk
        rw [hc] at hs
        cases hs
      refine (below host).trans ⟨?_, ?_⟩
      · rintro ⟨sub, hs, shows⟩
        exact .through unknown hs shows
      · intro hs
        cases hs with
        | here hk => exact absurd hk (unknown _)
        | inside hk => exact absurd hk (unknown _)
        | through _ hs shows => exact ⟨_, hs, shows⟩
    | some c =>
      have here : IsKnown h _ c.key := (known c.key).2 ⟨c, hc, rfl⟩
      have only : ∀ key, IsKnown h _ key → key = c.key := fun key hk => by
        obtain ⟨d, hd, he⟩ := (known key).1 hk
        obtain rfl := Option.some.inj (hd.symm.trans hc)
        exact he.symm
      rw [List.mem_append, below]
      constructor
      · rintro (mem | ⟨sub, hs, shows⟩)
        · obtain ⟨key, hk, he⟩ := List.mem_map.1 mem
          obtain ⟨rfl, rfl⟩ := Prod.mk.inj he
          rw [Option.mem_toList.1 hk]
          exact .here here
        · exact .inside here hs shows
      · intro hs
        cases hs with
        | here hk => exact .inl (List.mem_map.2 ⟨parent, by simp, by rw [only _ hk]⟩)
        | inside hk hs shows => exact .inr ⟨_, hs, only _ hk ▸ shows⟩
        | through unknown => exact absurd here (unknown _)

theorem mem_linksOfFiles_iff (hh : Consistent h) :
    (parent, child) ∈ paths.flatMap (linksOfFile h t) ↔ RoutesTo h t paths parent child := by
  rw [List.mem_flatMap]
  refine exists_congr fun path => and_congr_right fun _ => ?_
  unfold linksOfFile
  cases t.readSource path with
  | error e => simp
  | ok text =>
    simp only [linksOfRoutes_eq_flatMap, List.mem_flatMap, mem_linksOfRoute_iff hh,
      Except.ok.injEq, exists_eq_left', isFileHost_iff, exists_eq_left]

/-- What comes of a hierarchy when it is linked through the routes of some files. -/
structure RoutesLinked (h : Hierarchy) (t : FileTree) (paths : List String)
    (result : Hierarchy × List Issue) : Prop where
  names : result.1.components.names = h.components.names
  /-- New children stand behind the old ones, a component that is shown by another is no root,
  and all else is as it was. -/
  component : ∀ {key c}, h.component? key = some c → ∃ added isRoot,
    result.1.component? key =
      some { c with routeChildren := c.routeChildren ++ added, isRoot := isRoot } ∧
    added.Nodup ∧
    (∀ child, child ∈ added ↔
      child ∉ c.routeChildren ∧ key ≠ child ∧ RoutesTo h t paths key child) ∧
    (isRoot = false ↔ c.isRoot = false ∨ ∃ parent, parent ≠ key ∧ RoutesTo h t paths parent key)
  issues : result.2 = paths.filterMap (unreadable? t)

theorem lists_linkRoutes_iff (hh : Consistent h) (t : FileTree) (paths : List String)
    (parent child : String) (kind : ChildKind) :
    Lists (h.linkRoutes t paths).1 parent child kind ↔
      Lists h parent child kind ∨
        (kind = .route ∧ parent ≠ child ∧ RoutesTo h t paths parent child) := by
  rw [linkRoutes_eq_addLinks, lists_addLinks_iff, mem_linksOfFiles_iff hh]
  refine or_congr_right (and_congr_right fun _ => ?_)
  constructor
  · rintro ⟨hr, ne, -⟩
    exact ⟨ne, hr⟩
  · rintro ⟨ne, hr⟩
    exact ⟨hr, ne, hr.stored hh⟩

theorem sameButRoutes_linkRoutes (h : Hierarchy) (t : FileTree) (paths : List String) :
    SameButRoutes (h.linkRoutes t paths).1 h := by
  rw [linkRoutes_eq_addLinks]
  exact sameButRoutes_addLinks ..

/-- A component after linking differs from what it was in its routed children, and in being a
root or not. -/
theorem exists_component?_linkRoutes (t : FileTree) (paths : List String)
    (hc : h.component? key = some c) :
    ∃ added isRoot, (h.linkRoutes t paths).1.component? key =
      some { c with routeChildren := c.routeChildren ++ added, isRoot := isRoot } := by
  rw [linkRoutes_eq_addLinks]
  obtain ⟨d, hd, added, ha⟩ := exists_prefix_addLinks (paths.flatMap (linksOfFile h t)) hc
  obtain ⟨e, he, hu⟩ := (sameButRoutes_addLinks h _).exists_component? hc
  obtain rfl := Option.some.inj (he.symm.trans hd)
  refine ⟨added, e.isRoot, ?_⟩
  rw [hd, ha]
  cases c
  cases e
  simp_all [unrouted]

theorem exists_added (hb : Built h) (hc : h.component? key = some c) :
    ∃ added isRoot, (h.linkRoutes t paths).1.component? key =
        some { c with routeChildren := c.routeChildren ++ added, isRoot := isRoot } ∧
      added.Nodup ∧
      (∀ child, child ∈ added ↔
        child ∉ c.routeChildren ∧ key ≠ child ∧ RoutesTo h t paths key child) ∧
      (isRoot = false ↔
        c.isRoot = false ∨ ∃ parent, parent ≠ key ∧ RoutesTo h t paths parent key) := by
  have hh := consistent_empty.of_builtOn hb
  have hh' := consistent_empty.of_builtOn (hb.linkRoutes t paths)
  obtain ⟨added, isRoot, hd⟩ := exists_component?_linkRoutes t paths hc
  have nodup : (c.routeChildren ++ added).Nodup := hh'.nodup hd .route
  obtain ⟨-, nodupAdded, apart⟩ := List.nodup_append.1 nodup
  refine ⟨added, isRoot, hd, nodupAdded, fun child => ?_, ?_⟩
  · have listed : child ∈ c.routeChildren ++ added ↔
        child ∈ c.routeChildren ∨ (key ≠ child ∧ RoutesTo h t paths key child) := by
      have := lists_linkRoutes_iff hh t paths key child .route
      simpa [Lists, hd, hc, childrenOfKind] using this
    rw [List.mem_append] at listed
    constructor
    · intro ha
      have new : child ∉ c.routeChildren := fun hm => apart child hm child ha rfl
      exact ⟨new, (listed.1 (.inr ha)).resolve_left new⟩
    · rintro ⟨new, hr⟩
      exact (listed.2 (.inr hr)).resolve_left new
  · have root := hh'.isRoot_eq_false_iff hd
    rw [show _ = isRoot from rfl] at root
    rw [root, hh.isRoot_eq_false_iff hc]
    simp only [lists_linkRoutes_iff hh]
    constructor
    · rintro ⟨parent, kind, ne, hl | ⟨-, -, hr⟩⟩
      · exact .inl ⟨parent, kind, ne, hl⟩
      · exact .inr ⟨parent, ne, hr⟩
    · rintro (⟨parent, kind, ne, hl⟩ | ⟨parent, ne, hr⟩)
      · exact ⟨parent, kind, ne, .inl hl⟩
      · exact ⟨parent, .route, ne, .inr ⟨rfl, ne, hr⟩⟩

theorem routesLinked_linkRoutes (hb : Built h) (t : FileTree) (paths : List String) :
    RoutesLinked h t paths (h.linkRoutes t paths) where
  names := (sameButRoutes_linkRoutes h t paths).names
  component := exists_added hb
  issues := by rw [linkRoutes_eq_addLinks]

theorem linkRoutes_linkRoutes (hh : Consistent h) (t : FileTree) (paths : List String) :
    (h.linkRoutes t paths).1.linkRoutes t paths = h.linkRoutes t paths := by
  -- the second run asks for the links of the first, and finds them there
  rw [(sameButRoutes_linkRoutes h t paths).linkRoutes_eq_addLinks, addLinks_of_lists]
  · rw [linkRoutes_eq_addLinks]
  · rintro ⟨parent, child⟩ mem
    by_cases ne : parent = child
    · exact .inl ne
    · have asked := (mem_linksOfFiles_iff hh).1 mem
      exact .inr (.inr ((lists_linkRoutes_iff hh ..).2 (.inr ⟨rfl, ne, asked⟩)))

theorem routesTo_congr (hp : paths.Perm others) :
    RoutesTo h t paths parent child ↔ RoutesTo h t others parent child :=
  exists_congr fun _ => and_congr_left fun _ => hp.mem_iff

theorem lists_linkRoutes_congr (hh : Consistent h) (hp : paths.Perm others) (kind : ChildKind) :
    Lists (h.linkRoutes t paths).1 parent child kind ↔
      Lists (h.linkRoutes t others).1 parent child kind := by
  rw [lists_linkRoutes_iff hh, lists_linkRoutes_iff hh, routesTo_congr hp]

theorem perm_routeChildren_linkRoutes (hb : Built h) (hp : paths.Perm others)
    (hc : (h.linkRoutes t paths).1.component? key = some c)
    (hd : (h.linkRoutes t others).1.component? key = some d) :
    c.isRoot = d.isRoot ∧ c.routeChildren.Perm d.routeChildren := by
  have hh := consistent_empty.of_builtOn hb
  have first := consistent_empty.of_builtOn (hb.linkRoutes t paths)
  have second := consistent_empty.of_builtOn (hb.linkRoutes t others)
  constructor
  · have root : c.isRoot = false ↔ d.isRoot = false := by
      rw [first.isRoot_eq_false_iff hc, second.isRoot_eq_false_iff hd]
      simp only [lists_linkRoutes_congr hh hp]
    revert root
    cases c.isRoot <;> cases d.isRoot <;> simp
  · refine (List.perm_ext_iff_of_nodup (first.nodup hc .route) (second.nodup hd .route)).2 ?_
    intro child
    have : Lists (h.linkRoutes t paths).1 key child .route ↔ _ :=
      lists_linkRoutes_congr hh hp .route
    simpa [Lists, hc, hd] using this

/-- Linking through the routes of some files adds the links that the files ask for and changes
nothing else. Doing so again changes nothing, and in another order the children stand in another
order at most. -/
theorem Built.linkRoutes_links (hb : Built h) (t : FileTree) (paths : List String) :
    RoutesLinked h t paths (h.linkRoutes t paths) ∧
      (h.linkRoutes t paths).1.linkRoutes t paths = h.linkRoutes t paths ∧
      ∀ others, paths.Perm others → ∀ key c d,
        (h.linkRoutes t paths).1.component? key = some c →
        (h.linkRoutes t others).1.component? key = some d →
        c.isRoot = d.isRoot ∧ c.routeChildren.Perm d.routeChildren :=
  ⟨routesLinked_linkRoutes hb t paths,
    linkRoutes_linkRoutes (consistent_empty.of_builtOn hb) t paths,
    fun _ hp _ _ _ => perm_routeChildren_linkRoutes hb hp⟩

/-- A route to `hero` stands below one to `nav`. -/
def nestedText : String :=
  "const routes: Routes = [{ component: Nav, children: [{ component: Hero }] }];"

def nestedTree : FileTree where
  root := .directory [("app", .directory [("routes.ts", .file nestedText.toUTF8)])]

theorem readSource_nestedTree : nestedTree.readSource "/app/routes.ts" = .ok nestedText := by
  have : nestedTree.Holds "/app/routes.ts" ["app", "routes.ts"] nestedText.toUTF8 :=
    ⟨by decide +kernel, by decide +kernel, by decide, by decide +kernel, rfl⟩
  exact this.readSource_eq

theorem Built.linkRoutes_links_nestedTree :
    let paths := ["/app/routes.ts", ""]
    let result := shellHierarchy.linkRoutes nestedTree paths
    let other := shellHierarchy.linkRoutes nestedTree paths.reverse
    Built shellHierarchy ∧ RoutesLinked shellHierarchy nestedTree paths result ∧
      result.2.map (·.file) = [""] ∧ result.1.linkRoutes nestedTree paths = result ∧
      ∃ c d, result.1.component? "app-nav" = some c ∧ other.1.component? "app-nav" = some d ∧
        c.isRoot = d.isRoot ∧ c.routeChildren.Perm d.routeChildren ∧
        c.routeChildren = ["Hero"] ∧
        (result.1.component? "app-shell").map (·.routeChildren) = some ["app-nav"] := by
  intro paths result other
  obtain ⟨linked, again, order⟩ := built_shellHierarchy.linkRoutes_links nestedTree paths
  have missing : ∃ e, nestedTree.readSource "" = .error e := ⟨_, rfl⟩
  obtain ⟨e, missing⟩ := missing
  have issues : result.2.map (·.file) = [""] := by
    rw [linked.issues]
    simp [paths, unreadable?, readSource_nestedTree, missing]
  have children : (result.1.component? "app-nav").map (·.routeChildren) = some ["Hero"] ∧
      (result.1.component? "app-shell").map (·.routeChildren) = some ["app-nav"] := by
    have links : paths.flatMap (linksOfFile shellHierarchy nestedTree) =
        linksOfRoutes shellHierarchy (shellHierarchy.fileHost? "/app/routes.ts")
          (parseRoutes nestedText.toList) := by
      simp [paths, linksOfFile, readSource_nestedTree, missing]
    have : result.1 = _ := congrArg Prod.fst (linkRoutes_eq_addLinks ..)
    rw [this, links]
    decide +kernel
  obtain ⟨below, shown⟩ := children
  obtain ⟨c, hc, hr⟩ := Option.map_eq_some_iff.1 below
  obtain ⟨d, hd⟩ : ∃ d, other.1.component? "app-nav" = some d := by
    have same := sameButRoutes_linkRoutes shellHierarchy nestedTree paths.reverse
    obtain ⟨b, hb⟩ := Option.isSome_iff_exists.1
      (by decide +kernel : (shellHierarchy.component? "app-nav").isSome = true)
    obtain ⟨d, hd, -⟩ := same.exists_component? hb
    exact ⟨d, hd⟩
  obtain ⟨root, perm⟩ := order _ (List.reverse_perm paths).symm "app-nav" c d hc hd
  exact ⟨built_shellHierarchy, linked, issues, again, c, d, hc, hd, root, perm, hr, shown⟩

end AngularAtlas.Hierarchy
