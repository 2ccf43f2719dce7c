import AngularAtlas.Proofs.Hierarchy.Link

/-!
The hierarchies that arise from the empty one, whatever is added and linked and in which order.
Main statement: they are consistent. In particular a stored component is no root exactly when
another one has it as a child.
-/

namespace AngularAtlas

/-- As a component is when it has been read: a root without children and without an outlet. -/
structure Component.IsFresh (c : Component) : Prop where
  templateChildren : c.templateChildren = []
  routeChildren : c.routeChildren = []
  isRoot : c.isRoot = true
  hasOutlet : c.hasOutlet = false

namespace Hierarchy

/-- The hierarchies that arise from one when fresh components are added, and templates and routes
are linked, in any order. Files may change from step to step. -/
inductive BuiltOn (start : Hierarchy) : Hierarchy → Prop
  | start : BuiltOn start start
  | insert {h : Hierarchy} (c : Component) :
      BuiltOn start h → c.IsFresh → BuiltOn start (h.insert c)
  | linkTemplates {h : Hierarchy} (t : FileTree) :
      BuiltOn start h → BuiltOn start (h.linkTemplates t)
  | linkRoutes {h : Hierarchy} (t : FileTree) (paths : List String) :
      BuiltOn start h → BuiltOn start (h.linkRoutes t paths).1

abbrev Built : Hierarchy → Prop := BuiltOn {}

structure Consistent (h : Hierarchy) : Prop where
  /-- Components are stored under their keys. -/
  key_eq : ∀ {key c}, h.component? key = some c → c.key = key
  /-- Children are stored. -/
  stored : ∀ {parent child kind}, Lists h parent child kind → ∃ c, h.component? child = some c
  /-- No component is a child of itself. -/
  ne : ∀ {parent child kind}, Lists h parent child kind → child ≠ parent
  /-- No component is listed twice as a child of one kind. -/
  nodup : ∀ {key c}, h.component? key = some c → ∀ kind, (childrenOfKind c kind).Nodup
  /-- The components that are no roots are those that others have as children. -/
  isRoot_eq_false_iff : ∀ {key c}, h.component? key = some c →
    (c.isRoot = false ↔ ∃ parent kind, parent ≠ key ∧ Lists h parent key kind)

variable {start h : Hierarchy} {parent child key : String} {kind : ChildKind} {c p : Component}

theorem consistent_empty : Consistent {} := by
  constructor
  · rintro key c ⟨⟩
  · rintro parent child kind ⟨p, ⟨⟩, -⟩
  · rintro parent child kind ⟨p, ⟨⟩, -⟩
  · rintro key c ⟨⟩
  · rintro key c ⟨⟩

theorem insert_of_stored (hc : h.component? c.key = some p) : h.insert c = h := by
  unfold insert
  rw [if_pos]
  exact Option.isSome_iff_exists.2 ⟨p, hc⟩

theorem component?_insert (new : h.component? c.key = none) (key : String) :
    (h.insert c).component? key = if key = c.key then some c else h.component? key := by
  unfold insert
  rw [if_neg]
  · exact Table.get?_insert ..
  · rw [Table.contains]
    exact Bool.not_eq_true _ ▸ Option.isSome_eq_false_iff.2 (Option.isNone_iff_eq_none.2 new)

theorem childrenOfKind_of_isFresh (fresh : c.IsFresh) (kind : ChildKind) :
    childrenOfKind c kind = [] := by
  cases kind
  · exact fresh.templateChildren
  · exact fresh.routeChildren

theorem lists_insert_iff (fresh : c.IsFresh) (new : h.component? c.key = none) :
    Lists (h.insert c) parent child kind ↔ Lists h parent child kind := by
  unfold Lists
  rw [component?_insert new]
  split
  case isTrue hk => simp [hk, new, childrenOfKind_of_isFresh fresh]
  case isFalse => rfl

/-- Nobody has a component as a child before it is added, so that it may start as a root. -/
theorem Consistent.insert (hh : Consistent h) (fresh : c.IsFresh) : Consistent (h.insert c) := by
  cases new : h.component? c.key with
  | some p => rwa [insert_of_stored new]
  | none =>
    constructor
    case key_eq =>
      intro key d hd
      rw [component?_insert new] at hd
      split at hd
      case isTrue hk => rw [← Option.some.inj hd, hk]
      case isFalse => exact hh.key_eq hd
    case stored =>
      intro parent child kind hl
      obtain ⟨d, hd⟩ := hh.stored ((lists_insert_iff fresh new).1 hl)
      rw [component?_insert new]
      split
      · exact ⟨c, rfl⟩
      · exact ⟨d, hd⟩
    case ne => exact fun hl => hh.ne ((lists_insert_iff fresh new).1 hl)
    case nodup =>
      intro key d hd kind
      rw [component?_insert new] at hd
      split at hd
      case isTrue =>
        obtain rfl := Option.some.inj hd
        rw [childrenOfKind_of_isFresh fresh]
        exact List.nodup_nil
      case isFalse => exact hh.nodup hd kind
    case isRoot_eq_false_iff =>
      intro key d hd
      simp only [lists_insert_iff fresh new]
      rw [component?_insert new] at hd
      split at hd
      case isTrue hk =>
        obtain rfl := Option.some.inj hd
        constructor
        · intro hr
          rw [fresh.isRoot] at hr
          cases hr
        · rintro ⟨parent, kind, -, hl⟩
          obtain ⟨e, he⟩ := hh.stored hl
          rw [hk, new] at he
          cases he
      case isFalse => exact hh.isRoot_eq_false_iff hd

theorem component?_markOutlet (key other : String) :
    (h.markOutlet key).component? other =
      if other = key then (h.component? other).map fun c => { c with hasOutlet := true }
      else h.component? other :=
  Table.get?_modify ..

theorem exists_of_component?_markOutlet {other : String}
    (hc : (h.markOutlet key).component? other = some c) :
    ∃ d, h.component? other = some d ∧ c.key = d.key ∧ c.isRoot = d.isRoot ∧
      childrenOfKind c = childrenOfKind d := by
  rw [component?_markOutlet] at hc
  split at hc
  case isTrue =>
    obtain ⟨d, hd, rfl⟩ := Option.map_eq_some_iff.1 hc
    exact ⟨d, hd, rfl, rfl, funext fun kind => by cases kind <;> rfl⟩
  case isFalse => exact ⟨c, hc, rfl, rfl, rfl⟩

theorem component?_markOutlet_isSome {other : String} :
    (∃ c, (h.markOutlet key).component? other = some c) ↔ ∃ c, h.component? other = some c := by
  rw [component?_markOutlet]
  split <;> cases h.component? other <;> simp

theorem lists_markOutlet_iff :
    Lists (h.markOutlet key) parent child kind ↔ Lists h parent child kind := by
  constructor
  · rintro ⟨p, hp, mem⟩
    obtain ⟨d, hd, -, -, hs⟩ := exists_of_component?_markOutlet hp
    exact ⟨d, hd, hs ▸ mem⟩
  · rintro ⟨p, hp, mem⟩
    obtain ⟨c, hc⟩ : ∃ c, (h.markOutlet key).component? parent = some c :=
      component?_markOutlet_isSome.2 ⟨p, hp⟩
    obtain ⟨d, hd, -, -, hs⟩ := exists_of_component?_markOutlet hc
    obtain rfl := Option.some.inj (hp.symm.trans hd)
    exact ⟨c, hc, hs ▸ mem⟩

theorem Consistent.markOutlet (hh : Consistent h) (key : String) :
    Consistent (h.markOutlet key) := by
  constructor
  case key_eq =>
    intro other c hc
    obtain ⟨d, hd, hk, -, -⟩ := exists_of_component?_markOutlet hc
    exact hk.trans (hh.key_eq hd)
  case stored =>
    exact fun hl => component?_markOutlet_isSome.2 (hh.stored (lists_markOutlet_iff.1 hl))
  case ne => exact fun hl => hh.ne (lists_markOutlet_iff.1 hl)
  case nodup =>
    intro other c hc kind
    obtain ⟨d, hd, -, -, hs⟩ := exists_of_component?_markOutlet hc
    exact hs ▸ hh.nodup hd kind
  case isRoot_eq_false_iff =>
    intro other c hc
    obtain ⟨d, hd, -, hr, -⟩ := exists_of_component?_markOutlet hc
    simp only [lists_markOutlet_iff, hr]
    exact hh.isRoot_eq_false_iff hd

theorem lists_link_iff (hp : h.component? parent = some p) (ne : parent ≠ child)
    (new : child ∉ childrenOfKind p kind) {other name : String} {otherKind : ChildKind} :
    Lists (h.link parent child kind) other name otherKind ↔
      (other = parent ∧ name = child ∧ otherKind = kind) ∨ Lists h other name otherKind := by
  unfold Lists
  rw [component?_link hp ne new]
  by_cases ho : other = parent
  · simp [ho, hp, mem_childrenOfKind_addChild, and_comm]
  · by_cases hc : other = child
    · rw [if_neg ho, if_pos hc]
      cases h.component? other with
      | none => simp [ho]
      | some d => cases otherKind <;> simp [ho, childrenOfKind]
    · simp [ho, hc]

theorem component?_link_isSome {name : String} (hn : ∃ c, h.component? name = some c) :
    ∃ c, (h.link parent child kind).component? name = some c := by
  have names : (h.link parent child kind).components.names = h.components.names := names_link
  have mem : name ∈ h.components.names := Table.mem_names_iff.2 (Option.isSome_iff_exists.2 hn)
  rw [← names] at mem
  exact Option.isSome_iff_exists.1 (Table.mem_names_iff.1 mem)

theorem Consistent.link (hh : Consistent h) (stored : ∃ c, h.component? child = some c) :
    Consistent (h.link parent child kind) := by
  rcases link_cases h parent child kind with same | ⟨p, hp, ne, new⟩
  · rwa [same]
  · constructor
    case key_eq =>
      intro key c hc
      rcases component?_link_cases hp ne new hc with ⟨rfl, rfl⟩ | ⟨rfl, d, hd, rfl⟩ | ⟨-, -, hc⟩
      · rw [key_addChild, hh.key_eq hp]
      · exact (rfl : _ = d.key).trans (hh.key_eq hd)
      · exact hh.key_eq hc
    case stored =>
      intro other name otherKind hl
      refine component?_link_isSome ?_
      rcases (lists_link_iff hp ne new).1 hl with ⟨-, rfl, -⟩ | hl
      · exact stored
      · exact hh.stored hl
    case ne =>
      intro other name otherKind hl
      rcases (lists_link_iff hp ne new).1 hl with ⟨rfl, rfl, -⟩ | hl
      · exact ne.symm
      · exact hh.ne hl
    case nodup =>
      intro key c hc otherKind
      rcases component?_link_cases hp ne new hc with ⟨-, rfl⟩ | ⟨-, d, hd, rfl⟩ | ⟨-, -, hc⟩
      · rw [childrenOfKind_addChild]
        split
        · exact nodup_appendNew (hh.nodup hp _)
        · exact hh.nodup hp _
      · cases otherKind
        · exact hh.nodup hd .template
        · exact hh.nodup hd .route
      · exact hh.nodup hc otherKind
    case isRoot_eq_false_iff =>
      intro key c hc
      simp only [lists_link_iff hp ne new]
      rcases component?_link_cases hp ne new hc with ⟨rfl, rfl⟩ | ⟨rfl, d, hd, rfl⟩ | ⟨-, hk, hc⟩
      · -- the parent has a new child, but is no new child itself
        rw [isRoot_addChild, hh.isRoot_eq_false_iff hp]
        simp [ne]
      · exact iff_of_true rfl ⟨parent, kind, ne, .inl ⟨rfl, rfl, rfl⟩⟩
      · rw [hh.isRoot_eq_false_iff hc]
        simp [hk]

/-- Each step keeps a hierarchy consistent. -/
theorem Consistent.of_builtOn (hs : Consistent start) (hb : BuiltOn start h) : Consistent h := by
  induction hb with
  | start => exact hs
  | insert c _ fresh ih => exact ih.insert fresh
  | linkTemplates t _ ih =>
    refine linkTemplates_induction t (fun _ key hg => hg.markOutlet key) ?_ ih
    intro g parent child hg mem
    exact hg.link (Option.isSome_iff_exists.1 (Table.mem_names_iff.1 mem))
  | linkRoutes t paths _ ih =>
    refine linkRoutes_induction t paths ?_ ih
    intro g parent c hg mem
    obtain ⟨key, hc⟩ := Table.mem_values_iff.1 mem
    exact hg.link ⟨c, hg.key_eq hc ▸ hc⟩

/-- However a hierarchy was built, it is consistent. -/
theorem Built.consistent (hb : Built h) : Consistent h := consistent_empty.of_builtOn hb

/-- A component with an outlet, whose template uses another component. -/
def shell : Component where
  name := "Shell"
  file := "/app/shell.ts"
  inlineTemplate := some "<app-nav></app-nav><router-outlet></router-outlet>"
  selector := "app-shell"

def nav : Component := { name := "Nav", file := "/app/nav.ts", selector := "app-nav" }

/-- A component without a selector. -/
def hero : Component := { name := "Hero", file := "/app/hero.ts" }

/-- The sources of an application with a route to `hero`. -/
def shellTree : FileTree where
  root := .directory [("app", .directory
    [("routes.ts", .file "const routes: Routes = [{ component: Hero }];".toUTF8)])]

def shellHierarchy : Hierarchy :=
  (((({} : Hierarchy).insert shell).insert nav).insert hero).linkTemplates shellTree

theorem built_shellHierarchy : Built shellHierarchy := by
  refine .linkTemplates _ (.insert _ (.insert _ (.insert _ .start ?_) ?_) ?_)
  · exact ⟨rfl, rfl, rfl, rfl⟩
  · exact ⟨rfl, rfl, rfl, rfl⟩
  · exact ⟨rfl, rfl, rfl, rfl⟩

theorem Built.consistent_linkRoutes_shellHierarchy :
    Built (shellHierarchy.linkRoutes shellTree ["/app/routes.ts"]).1 ∧
      Consistent (shellHierarchy.linkRoutes shellTree ["/app/routes.ts"]).1 :=
  have built : Built (shellHierarchy.linkRoutes shellTree ["/app/routes.ts"]).1 :=
    built_shellHierarchy.linkRoutes shellTree ["/app/routes.ts"]
  ⟨built, built.consistent⟩

example : shellHierarchy.roots.map (·.key) = ["Hero", "app-shell"] := by decide +kernel

end Hierarchy

end AngularAtlas
