import AngularAtlas.Source.Property
import AngularAtlas.Text.Comment
import AngularAtlas.Text.Search

namespace AngularAtlas.Source

open AngularAtlas.Text

structure Route where
  path : Option String := none
  /-- The component class, named directly or in a lazy loading expression. -/
  component : Option String := none
  redirectTo : Option String := none
  loadChildren : Option String := none
  loadComponent : Option String := none
  pathMatch : Option String := none
  children : List Route := []
deriving Repr, Inhabited

theorem Route.sizeOf_lt_of_mem_children {route child : Route} (h : child ∈ route.children) :
    sizeOf child < sizeOf route := by
  cases route
  have := List.sizeOf_lt_of_mem h
  simp only [Route.mk.sizeOf_spec] at this ⊢
  omega

theorem Route.induction {P : Route → Prop}
    (step : ∀ route, (∀ child ∈ route.children, P child) → P route) (route : Route) : P route :=
  step route fun child _ => Route.induction step child
termination_by sizeOf route
decreasing_by exact Route.sizeOf_lt_of_mem_children ‹_›

def Route.flatten (route : Route) : List Route :=
  route :: route.children.attach.flatMap fun ⟨child, _⟩ => child.flatten
termination_by sizeOf route
decreasing_by exact Route.sizeOf_lt_of_mem_children ‹_›

def afterRouterModule? (s : List Char) : Option (List Char) := do
  let s ← "RouterModule".toList.isPrefixOf? s
  let s ← afterChar? '.' (skipBlanks s)
  let s ← afterAny? ["forRoot".toList, "forChild".toList] (skipBlanks s)
  afterChar? '(' (skipBlanks s)

def afterRoutesConstant? (before : Option Char) (s : List Char) : Option (List Char) := do
  guard (isBoundary before s)
  let s ← "Routes".toList.isPrefixOf? s
  afterChar? '=' (skipBlanks s)

def tableStart? : Reader (List Char) := fun before s => do
  let s := skipBlanks (← (afterRoutesConstant? before s).or (afterRouterModule? s))
  let rest ← afterChar? '[' s
  return (s, rest)

def thenMember? : Reader (List Char) := fun _ s => do
  let s ← ".then".toList.isPrefixOf? s
  let s := skipBlanks (← afterChar? '(' (skipBlanks s))
  let s := skipBlanks ((afterChar? '(' s).getD s)
  guard (s.head?.any isWord)
  let s := skipBlanks (s.dropWhile isWord)
  let s := skipBlanks ((afterChar? ')' s).getD s)
  let s := skipBlanks (← ['=', '>'].isPrefixOf? s)
  guard (s.head?.any isWord)
  let s ← afterChar? '.' (skipBlanks (s.dropWhile isWord))
  identifier? (skipBlanks s)

def importCall? : Reader (List Char) := fun _ s => do
  let s ← "import".toList.isPrefixOf? s
  let s ← afterChar? '(' (skipBlanks s)
  match skipBlanks s with
  | [] => none
  | q :: r =>
    guard (isQuote q)
    let specifier := r.takeWhile (!isQuote ·)
    guard (specifier ≠ [])
    match r.dropWhile (!isQuote ·) with
    | [] => none
    | _ :: s => return (specifier, ← afterChar? ')' (skipBlanks s))

/-- Takes a property of a route into account; a later one overrides an earlier one. The member
that a lazy loading expression ends in is the component only where none is named yet. -/
def Route.withProperty (route : Route) (property : List Char × List Char) : Route :=
  let (key, value) := property
  if key = "path".toList then { route with path := some (String.ofList (unquote value)) }
  else if key = "component".toList then { route with component := some (String.ofList value) }
  else if key = "redirectTo".toList then
    { route with redirectTo := some (String.ofList (unquote value)) }
  else if key = "pathMatch".toList then
    { route with pathMatch := some (String.ofList (unquote value)) }
  else if key = "loadChildren".toList then
    let specifier := ((findFirst? importCall? value).map (·.1)).getD (unquote value)
    { route with loadChildren := some (String.ofList specifier) }
  else if key = "loadComponent".toList then
    let member := (findFirst? thenMember? value).map fun (name, _) => String.ofList name
    { route with
      component := route.component.or member
      loadComponent := some (String.ofList value) }
  else route

def childBody? (property : List Char × List Char) : Option (List Char) :=
  if property.1 = "children".toList then arrayBody? property.2 else none

/-- The array of child routes: that of the last `children` property that holds one. -/
def childTable? (properties : List (List Char × List Char)) : Option (List Char) :=
  (properties.filterMap childBody?).getLast?

theorem childTable?_length {s body : List Char} {properties : List (List Char × List Char)}
    (hs : objectProperties? s = some properties) (h : childTable? properties = some body) :
    body.length < s.length := by
  obtain ⟨⟨key, value⟩, mem, hv⟩ := List.mem_filterMap.1 (List.mem_of_getLast? h)
  have := value_length_lt_of_objectProperties? hs mem
  simp only [childBody?] at hv
  split at hv
  · have := arrayBody?_length hv
    omega
  · simp at hv

/-- The routes in the text inside an array; elements that are no object literals are left out. -/
def routesIn (table : List Char) : List Route :=
  (elements table).attach.filterMap fun ⟨element, _mem⟩ =>
    match _hp : objectProperties? element with
    | none => none
    | some properties =>
      let children := match _hc : childTable? properties with
        | none => []
        | some body => routesIn body
      some (properties.foldl Route.withProperty { children })
termination_by table.length
decreasing_by
  exact Nat.lt_of_lt_of_le (childTable?_length _hp _hc) (length_le_of_mem_elements _mem)

def routeTables (content : List Char) : List (List Char) := findAll tableStart? content

def declaresRoutes (content : List Char) : Bool :=
  (findFirst? tableStart? (removeComments content)).isSome

def parseRoutes (content : List Char) : List Route :=
  (routeTables (removeComments content)).flatMap fun table =>
    match balanced? table with
    | none => []
    | some (body, _) => routesIn body

end AngularAtlas.Source
