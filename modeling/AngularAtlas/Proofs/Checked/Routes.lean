import AngularAtlas.Proofs.Checked.Components
import AngularAtlas.Proofs.Source.RouteCount

namespace AngularAtlas.Checked

open Text Source

def arrayBody (s : List Char) : Checked (Option (List Char)) :=
  let s := trim s
  if s.head? = some '[' then insideBracket s 0 else .ok none

def childBody (property : List Char × List Char) : Checked (Option (List Char)) :=
  if property.1 = "children".toList then arrayBody property.2 else .ok none

/-- Where a `loadChildren` property says that a table comes from. -/
def loadedFrom (value : List Char) : Checked (List Char) :=
  match findFirst? importCall? value with
  | some (specifier, _) => .ok specifier
  | none => unquote value

/-- Takes a property that holds no child routes into account. -/
def withProperty (route : Route) (property : List Char × List Char) : Checked Route := do
  let (key, value) := property
  if key = "path".toList then return { route with path := some (String.ofList (← unquote value)) }
  else if key = "component".toList then
    return { route with component := some (String.ofList value) }
  else if key = "redirectTo".toList then
    return { route with redirectTo := some (String.ofList (← unquote value)) }
  else if key = "pathMatch".toList then
    return { route with pathMatch := some (String.ofList (← unquote value)) }
  else if key = "loadChildren".toList then
    return { route with loadChildren := some (String.ofList (← loadedFrom value)) }
  else if key = "loadComponent".toList then
    let member := (findFirst? thenMember? value).map fun (name, _) => String.ofList name
    return { route with
      component := route.component.or member
      loadComponent := some (String.ofList value) }
  else return route

/-- Takes a property into account. Every array of children is read, also one that a later property
overrides. -/
def addProperty (read : List Char → Checked (List Route)) (route : Route)
    (property : List Char × List Char) : Checked Route := do
  match ← childBody property with
  | none => withProperty route property
  | some body => return { route with children := ← read body }

/-- The routes in the text inside an array. -/
def routesIn (table : List Char) : Checked (List Route) := do
  (← elements table).filterMapM fun element => do
    match ← objectProperties element with
    | none => return none
    | some properties =>
      return some (← properties.foldlM (addProperty fun body =>
        if _shorter : body.length < table.length then routesIn body else .error .endless) {})
termination_by table.length

def tableRoutes (content table : List Char) : Checked (List Route) := do
  match ← insideMatch content table with
  | none => return []
  | some body => routesIn body

/-- All routes of a source text, table by table. -/
def routes (content : List Char) : Checked (List Route) := do
  let content := removeComments content
  return (← (routeTables content).mapM (tableRoutes content)).flatten

variable {s body element table : List Char} {property : List Char × List Char}
  {properties : List (List Char × List Char)}

theorem arrayBody_eq (s : List Char) : arrayBody s = .ok (arrayBody? s) := by
  rw [arrayBody, arrayBody?]
  simp only [insideBracket_zero]
  split <;> rfl

theorem childBody_eq (property : List Char × List Char) :
    childBody property = .ok (childBody? property) := by
  rw [childBody, childBody?, arrayBody_eq]
  split <;> rfl

theorem loadedFrom_eq (value : List Char) : loadedFrom value =
    .ok (((findFirst? importCall? value).map (·.1)).getD (Source.unquote value)) := by
  rw [loadedFrom, unquote_eq]
  cases findFirst? importCall? value <;> rfl

theorem withProperty_eq (route : Route) (property : List Char × List Char) :
    withProperty route property = .ok (route.withProperty property) := by
  obtain ⟨key, value⟩ := property
  simp only [withProperty, Route.withProperty, unquote_eq, loadedFrom_eq, ok_bind]
  split_ifs <;> rfl

theorem foldl_withProperty_children (route : Route) (children : List Route)
    (properties : List (List Char × List Char)) :
    properties.foldl Route.withProperty { route with children } =
      { properties.foldl Route.withProperty route with children } := by
  induction properties generalizing route with
  | nil => rfl
  | cons property properties ih =>
    have step : Route.withProperty { route with children } property =
        { route.withProperty property with children } := by
      simp only [Route.withProperty]
      split_ifs <;> rfl
    rw [List.foldl_cons, step, ih, List.foldl_cons]

theorem withProperty_of_childBody? (h : childBody? property = some body) (route : Route) :
    route.withProperty property = route := by
  obtain ⟨key, value⟩ := property
  rw [childBody?] at h
  split at h
  case isTrue named =>
    obtain rfl : key = "children".toList := named
    rfl
  case isFalse => cases h

/-- Of the arrays of children that are read one after the other, the last one stays. -/
theorem foldlM_addProperty {read : List Char → Checked (List Route)}
    (reads : ∀ property ∈ properties, ∀ body, childBody? property = some body →
      read body = .ok (Source.routesIn body)) (route : Route) :
    properties.foldlM (addProperty read) route = .ok
      { properties.foldl Route.withProperty route with
        children := ((childTable? properties).map Source.routesIn).getD route.children } := by
  induction properties generalizing route with
  | nil => cases route with | mk => rfl
  | cons property properties ih =>
    obtain ⟨first, later⟩ := List.forall_mem_cons.1 reads
    rw [List.foldlM_cons, addProperty, childBody_eq, ok_bind]
    cases array : childBody? property with
    | none =>
      have table : childTable? (property :: properties) = childTable? properties := by
        rw [childTable?, List.filterMap_cons_none array]
        rfl
      have own : (route.withProperty property).children = route.children :=
        children_foldl_withProperty [property] route
      simp only [withProperty_eq, ok_bind]
      rw [ih later, table, own, List.foldl_cons]
    | some body =>
      have table : childTable? (property :: properties) =
          some ((childTable? properties).getD body) := by
        rw [childTable?, List.filterMap_cons_some array, List.getLast?_cons]
        rfl
      simp only [first body array, ok_bind]
      rw [pure_bind, ih later, table, List.foldl_cons, withProperty_of_childBody? array,
        foldl_withProperty_children]
      cases childTable? properties <;> rfl

theorem arrayBody?_of_childBody? (h : childBody? property = some body) :
    arrayBody? property.2 = some body := by
  rw [childBody?] at h
  split at h
  case isTrue => exact h
  case isFalse => cases h

theorem length_childBody_lt (mem : element ∈ Source.elements table)
    (read : objectProperties? element = some properties) (part : property ∈ properties)
    (array : childBody? property = some body) : body.length < table.length := by
  have inArray := arrayBody?_length (arrayBody?_of_childBody? array)
  have inElement := value_length_lt_of_objectProperties? read part
  have inTable := length_le_of_mem_elements mem
  omega

theorem FewBrackets.of_mem_objectProperties? (few : FewBrackets element)
    (read : objectProperties? element = some properties) (part : property ∈ properties) :
    FewBrackets property.2 := by
  rw [objectProperties?] at read
  simp only at read
  split at read
  case isTrue =>
    obtain ⟨p, pair, rfl⟩ := Option.map_eq_some_iff.1 read
    obtain ⟨piece, mem, split⟩ := List.mem_filterMap.1 part
    have inside := few.of_sublist ((inside_sublist pair).trans (trim_sublist element))
    exact (inside.of_mem_elements mem).of_sublist (value_sublist split)
  case isFalse => cases read

theorem FewBrackets.of_childBody? (few : FewBrackets property.2)
    (array : childBody? property = some body) : FewBrackets body :=
  few.of_sublist (arrayBody?_sublist (arrayBody?_of_childBody? array))

theorem routesIn_eq (few : FewBrackets table) :
    routesIn table = .ok (Source.routesIn table) := by
  -- on the length of the table, which the arrays of children in it fall short of
  induction hn : table.length using Nat.strong_induction_on generalizing table with
  | _ n ih =>
    subst hn
    rw [routesIn, elements_eq few, ok_bind, Source.routesIn_eq]
    refine filterMapM_eq_ok fun element mem => ?_
    have fewInside := few.of_mem_elements mem
    rw [objectProperties_eq fewInside, ok_bind, readRoute?]
    cases read : objectProperties? element with
    | none => rfl
    | some properties =>
      have inner : ∀ property ∈ properties, ∀ body, childBody? property = some body →
          (if body.length < table.length then routesIn body else .error .endless) =
            .ok (Source.routesIn body) := by
        intro property part body array
        have shorter := length_childBody_lt mem read part array
        rw [if_pos shorter]
        exact ih _ shorter ((fewInside.of_mem_objectProperties? read part).of_childBody? array) rfl
      simp only [dite_eq_ite, foldlM_addProperty inner, ok_bind]
      exact congrArg (fun route => Except.ok (some route))
        (foldl_withProperty_children {} _ properties).symm

theorem tableRoutes_eq (few : FewBrackets s) (mem : table ∈ routeTables s) :
    tableRoutes s table = .ok (((balanced? table).map fun p => Source.routesIn p.1).getD []) := by
  obtain ⟨before, t, rest, suffix, read⟩ := exists_of_mem_findAll mem
  obtain ⟨head, tail⟩ := opens_of_tableStart? read
  rw [tableRoutes, insideMatch_eq head (tail.trans suffix) (by decide), ok_bind]
  cases pair : balanced? table with
  | none => rfl
  | some p =>
    exact routesIn_eq (few.of_sublist ((inside_sublist pair).trans (tail.trans suffix).sublist))

theorem routes_eq (few : FewBrackets s) : routes s = .ok (parseRoutes s) := by
  have fewLeft := few.of_sublist (removeComments_sublist s)
  rw [routes]
  simp only [mapM_eq_ok fun table mem => tableRoutes_eq fewLeft mem, ok_bind]
  rw [parseRoutes, List.flatMap_def]
  refine congrArg (fun found => Except.ok (List.flatten found))
    (List.map_congr_left fun table _ => ?_)
  cases balanced? table <;> rfl

/-- What each scan finds in a text, none of which is stopped: every slice lies in the text and
between characters, and every counter stays in its range. -/
structure Scanned (s : List Char) : Prop where
  parsedFile : ∀ file, Checked.parsedFile file s = .ok (ParsedFile.ofText file s)
  component : ∀ file, Checked.component file s = .ok (Component.ofText? file s)
  routes : Checked.routes s = .ok (parseRoutes s)
  templateUses : ∀ selector,
    Checked.templateUses s selector = .ok (Hierarchy.templateUses s selector)
  balancedEnd : ∀ offset, Checked.balancedEnd s offset = .ok (closingOffset? s offset)
  insideBracket : ∀ offset, Checked.insideBracket s offset = .ok (insideBracket? s offset)
  classBody : ∀ offset, Checked.classBody s offset = .ok ((from? s offset).bind classBody?)
  constructorDependencies :
    Checked.constructorDependencies s = .ok (Source.constructorDependencies s)
  decoratedMembers : ∀ decorator, Checked.decoratedMembers decorator s =
    .ok ((MemberKind.ofDecorator? decorator).elim [] (Source.decoratedMembers · s))
  splitProperty : Checked.splitProperty s = .ok (splitProperty? s)
  unquote : Checked.unquote s = .ok (Source.unquote s)
  formatProvider : Checked.formatProvider s = .ok (Source.formatProvider s)

/-- Nothing stops a scan of a text whose brackets can be counted. -/
theorem FewBrackets.scanned (few : FewBrackets s) : Scanned s where
  parsedFile := parsedFile_eq few
  component file := component_eq file s
  routes := routes_eq few
  templateUses := templateUses_eq s
  balancedEnd := balancedEnd_eq s
  insideBracket := insideBracket_eq s
  classBody := classBody_eq s
  constructorDependencies := constructorDependencies_eq few
  decoratedMembers decorator := decoratedMembers_eq decorator s
  splitProperty := splitProperty_eq few
  unquote := unquote_eq s
  formatProvider := formatProvider_eq few

/-- A text of wide characters and of brackets that do not match. -/
def tangled : List Char :=
  "@Component('é') constructor(@Input() ü: Map<ß>] \x7d Routes = [\x7b 'ö: [ 日本".toList

theorem FewBrackets.scanned_tangled : FewBrackets tangled ∧ Scanned tangled :=
  have few : FewBrackets tangled := by decide +kernel
  ⟨few, few.scanned⟩

end AngularAtlas.Checked
