import AngularAtlas.Component.Basic
import AngularAtlas.Issue
import AngularAtlas.Source.Route
import AngularAtlas.Table
import AngularAtlas.Workspace

/-!
The hierarchy of components. A component is a child of another when the other's template uses
it, or when a route table shows it in the other's router outlet. Components are stored by key,
and children are keys, so one component may have several parents and cycles do no harm.
-/

namespace AngularAtlas

open Text Source

structure Hierarchy where
  components : Table Component := .empty

instance : Inhabited Hierarchy := ⟨{}⟩

namespace Hierarchy

def component? (h : Hierarchy) (key : String) : Option Component := h.components.get? key

def insert (h : Hierarchy) (c : Component) : Hierarchy :=
  if h.components.contains c.key then h else ⟨h.components.insert c.key c⟩

/-- The first component, in the order of keys, of a class. -/
def ofClass? (h : Hierarchy) (name : String) : Option Component :=
  h.components.values.find? (·.name == name)

def roots (h : Hierarchy) : List Component := h.components.values.filter (·.isRoot)

def appendNew (key : String) (keys : List String) : List String :=
  if keys.contains key then keys else keys ++ [key]

def childrenOfKind (c : Component) : ChildKind → List String
  | .template => c.templateChildren
  | .route => c.routeChildren

def addChild (key : String) (kind : ChildKind) (c : Component) : Component :=
  match kind with
  | .template => { c with templateChildren := appendNew key c.templateChildren }
  | .route => { c with routeChildren := appendNew key c.routeChildren }

/-- Makes a component the child of another. The child is no root any more, unless the link was
there before. -/
def link (h : Hierarchy) (parent child : String) (kind : ChildKind) : Hierarchy :=
  if parent = child then h
  else match h.component? parent with
    | none => h
    | some p =>
      if (childrenOfKind p kind).contains child then h
      else
        ⟨(h.components.modify parent (addChild child kind)).modify child
          fun c => { c with isRoot := false }⟩

def isTagChar (c : Char) : Bool := isAsciiLetter c || isAsciiDigit c || c == '-' || c == '_'

def occursAsName (text : List Char) : List Char → Bool
  | [] => false
  | c :: r =>
    (text.isPrefixOf? (c :: r)).any (fun rest => rest.head?.all fun d => !isTagChar d) ||
      occursAsName text r

/-- A template uses the component of a selector: as a closing tag, an opening tag or an
attribute behind a space. -/
def templateUses (template selector : List Char) : Bool :=
  selector ≠ [] &&
    (contains ('<' :: '/' :: selector ++ ['>']) template ||
      occursAsName ('<' :: selector) template || occursAsName (' ' :: selector) template)

def template? (t : FileTree) (c : Component) : Option String :=
  match c.inlineTemplate with
  | some text => some text
  | none => c.templateFile.bind fun path => (t.readSource path).toOption

def outletTag : List Char := "<router-outlet".toList

def templateLinks (t : FileTree) (h : Hierarchy) : List (String × String) :=
  h.components.entries.flatMap fun (key, c) =>
    match template? t c with
    | none => []
    | some text =>
      (h.components.names.filter fun other =>
        other != key && templateUses text.toList other.toList).map (key, ·)

def outlets (t : FileTree) (h : Hierarchy) : List String :=
  (h.components.entries.filter fun (_, c) =>
    (template? t c).any fun text => contains outletTag text.toList).map (·.1)

def markOutlet (h : Hierarchy) (key : String) : Hierarchy :=
  ⟨h.components.modify key fun c => { c with hasOutlet := true }⟩

def linkTemplates (h : Hierarchy) (t : FileTree) : Hierarchy :=
  (templateLinks t h).foldl (fun h (parent, child) => h.link parent child .template)
    ((outlets t h).foldl markOutlet h)

/-- The component with a router outlet whose source stands in a directory, or in the nearest
directory above it that has one. -/
def routerHost? (h : Hierarchy) (directory : List Segment) : Option String :=
  match h.components.values.find? fun c =>
    c.hasOutlet && Path.parentSegments? (Path.segments c.file) == some directory with
  | some c => some c.key
  | none =>
    match _up : Path.parentSegments? directory with
    | none => none
    | some parent => routerHost? h parent
termination_by directory.length
decreasing_by
  unfold Path.parentSegments? at _up
  split at _up
  · simp at _up
  · simp at _up
  · next hl =>
    obtain rfl := Option.some.inj _up
    have : directory ≠ [] := by
      rintro rfl
      simp at hl
    have := List.length_pos_iff.2 this
    simp only [List.length_dropLast]
    omega

mutual

def attachRoutes (h : Hierarchy) (host : Option String) : List Route → Hierarchy
  | [] => h
  | route :: rest => attachRoutes (attachRoute h host route) host rest

/-- Links the component of a route below its host, and those of its children below itself. A
route without a known component passes its host on. -/
def attachRoute (h : Hierarchy) (host : Option String) : Route → Hierarchy
  | ⟨_, component, _, _, _, _, children⟩ =>
    match component.bind h.ofClass? with
    | none => attachRoutes h host children
    | some c =>
      let linked := match host with
        | none => h
        | some host => h.link host c.key .route
      attachRoutes linked (some c.key) children

end

def linkRouteFile (t : FileTree) (state : Hierarchy × List Issue) (path : String) :
    Hierarchy × List Issue :=
  let (h, issues) := state
  match t.readSource path with
  | .error e => (h, issues ++ [⟨path, e.message⟩])
  | .ok text =>
    let routes := parseRoutes text.toList
    let host := (Path.parentSegments? (Path.segments path)).bind (routerHost? h)
    (attachRoutes h host routes, issues)

def linkRoutes (h : Hierarchy) (t : FileTree) (paths : List String) : Hierarchy × List Issue :=
  paths.foldl (linkRouteFile t) (h, [])

structure Step where
  component : Component
  parent : Option (Component × ChildKind)
deriving Repr, DecidableEq

def childSteps (h : Hierarchy) (parent : Component) : List Step :=
  parent.children.filterMap fun (key, kind) =>
    (h.component? key).map fun child => ⟨child, some (parent, kind)⟩

/-- How many components are stored and not expanded yet, and how many of some visits go to
components that are not stored. A walk expands no more than that. -/
def unexpanded (h : Hierarchy) (expanded : List String) (steps : List Step) : Nat :=
  h.components.values.countP (fun c => !expanded.contains c.key) +
    steps.countP fun step => !h.components.values.contains step.component

theorem unexpanded_tail_le (h : Hierarchy) (expanded : List String) (step : Step)
    (rest : List Step) : unexpanded h expanded rest ≤ unexpanded h expanded (step :: rest) :=
  Nat.add_le_add_left (List.sublist_cons_self step rest).countP_le _

theorem component_mem_values_of_mem_childSteps {h : Hierarchy} {parent : Component} {step : Step}
    (mem : step ∈ childSteps h parent) : step.component ∈ h.components.values := by
  obtain ⟨⟨key, kind⟩, -, hs⟩ := List.mem_filterMap.1 mem
  obtain ⟨child, hc, rfl⟩ := Option.map_eq_some_iff.1 hs
  exact Table.mem_values_iff.2 ⟨key, hc⟩

theorem countP_not_contains_cons_lt {c : Component} {expanded : List String} {cs : List Component}
    (mem : c ∈ cs) (new : expanded.contains c.key = false) :
    cs.countP (fun d => !(c.key :: expanded).contains d.key) <
      cs.countP fun d => !expanded.contains d.key := by
  induction cs with
  | nil => cases mem
  | cons d cs ih =>
    have tail_le : cs.countP (fun d => !(c.key :: expanded).contains d.key) ≤
        cs.countP fun d => !expanded.contains d.key :=
      List.countP_mono_left (by simp +contextual)
    rw [List.countP_cons, List.countP_cons]
    rcases List.mem_cons.1 mem with rfl | mem
    · simp only [List.contains_cons, BEq.rfl, Bool.true_or, new]
      exact Nat.lt_succ_of_le tail_le
    · refine Nat.add_lt_add_of_lt_of_le (ih mem) ?_
      by_cases hd : d.key ∈ expanded
      · simp [hd]
      · simp only [List.contains_eq_mem, hd, decide_false, Bool.not_false, if_true]
        split <;> decide

theorem unexpanded_childSteps_lt (h : Hierarchy) {expanded : List String} {step : Step}
    (rest : List Step) (new : expanded.contains step.component.key = false) :
    unexpanded h (step.component.key :: expanded) (childSteps h step.component ++ rest) <
      unexpanded h expanded (step :: rest) := by
  have children : (childSteps h step.component).countP
      (fun s => !h.components.values.contains s.component) = 0 :=
    List.countP_eq_zero.2 fun s mem => by simpa using component_mem_values_of_mem_childSteps mem
  rw [unexpanded, unexpanded, List.countP_append, children, Nat.zero_add, List.countP_cons]
  by_cases stored : step.component ∈ h.components.values
  · have := countP_not_contains_cons_lt stored new
    omega
  · have : h.components.values.countP (fun d => !(step.component.key :: expanded).contains d.key) ≤
        h.components.values.countP fun d => !expanded.contains d.key :=
      List.countP_mono_left (by simp +contextual)
    simp only [List.contains_eq_mem, stored, decide_false, Bool.not_false, if_true] at this ⊢
    omega

/-- Makes some visits, each followed by those to the children of its component when that is
reached for the first time. -/
def walkFrom (h : Hierarchy) (expanded : List String) : List Step → List Step
  | [] => []
  | step :: rest =>
    if _new : expanded.contains step.component.key then step :: walkFrom h expanded rest
    else step :: walkFrom h (step.component.key :: expanded) (childSteps h step.component ++ rest)
termination_by steps => (unexpanded h expanded steps, steps.length)
decreasing_by
  · exact Prod.Lex.right' _ (unexpanded_tail_le h expanded step rest) (Nat.lt_succ_self _)
  · exact Prod.Lex.left _ _ (unexpanded_childSteps_lt h rest (by simpa using _new))

def walk (h : Hierarchy) : List Step := walkFrom h [] (h.roots.map fun c => ⟨c, none⟩)

end Hierarchy

end AngularAtlas
