import AngularAtlas.Proofs.Source.RouteValue
import Mathlib.Data.List.Nodup
import Mathlib.Data.List.Perm.Basic

/-!
Object literals of routes, with their properties in any order. Main statement: such a literal is
read as the route it was written for.
-/

namespace AngularAtlas.Source

open Text

/-- How a property of a route is written: not at all where the route does not have it. -/
inductive Part (written : String → List Token → Prop) (key : String) :
    Option String → List Property → Prop
  | absent : Part written key none []
  | present {s : String} {value : List Token} : written s value →
      Part written key (some s) [⟨key.toList, value⟩]

/-- The properties of a route besides its children. -/
inductive OwnProperties (route : Route) : List Property → Prop
  | intro {path component redirectTo pathMatch loadChildren : List Property} :
      Part Quoted "path" route.path path →
      Part Named "component" route.component component →
      Part Quoted "redirectTo" route.redirectTo redirectTo →
      Part Quoted "pathMatch" route.pathMatch pathMatch →
      Part LazyImport "loadChildren" route.loadChildren loadChildren →
      route.loadComponent = none →
      OwnProperties route (path ++ (component ++ (redirectTo ++ (pathMatch ++ loadChildren))))

/-- The property that holds the children of a route. -/
def childrenProperty (comma : Bool) (literals : List (List Token)) : Property :=
  ⟨"children".toList, arrayTokens comma literals⟩

/-- An object literal that is written for a route. The array of its children may be left out
where there are none. -/
inductive RouteLiteral : Route → List Token → Prop
  | leaf {route : Route} {own properties : List Property} {comma : Bool} :
      OwnProperties route own → route.children = [] → properties.Perm own →
      RouteLiteral route (objectTokens comma properties)
  | parent {route : Route} {own properties : List Property} {literals : List (List Token)}
      {comma comma' : Bool} :
      OwnProperties route own → List.Forall₂ RouteLiteral route.children literals →
      properties.Perm (childrenProperty comma' literals :: own) →
      RouteLiteral route (objectTokens comma properties)

variable {route : Route} {own properties later : List Property} {tokens : List Token}
  {literals : List (List Token)} {found : List (List Char × List Char)} {k l v w s : List Char}
  {comma : Bool}

theorem Part.forall_mem {written : String → List Token → Prop} {key : String}
    {value : Option String} {part : List Property} {P : Property → Prop}
    (hp : Part written key value part)
    (hw : ∀ s tokens, written s tokens → P ⟨key.toList, tokens⟩) :
    ∀ property ∈ part, P property := by
  cases hp with
  | absent => exact fun _ h => nomatch h
  | present h => exact List.forall_mem_singleton.2 (hw _ _ h)

theorem Part.keys_sublist {written : String → List Token → Prop} {key : String}
    {value : Option String} {part : List Property} (hp : Part written key value part) :
    (part.map Property.key).Sublist [key.toList] := by
  cases hp with
  | absent => exact List.nil_sublist _
  | present => exact List.Sublist.refl _

/-- The keys of a route's own properties, in the order of `OwnProperties`. -/
def ownKeys : List Token :=
  ["path".toList, "component".toList, "redirectTo".toList, "pathMatch".toList,
    "loadChildren".toList]

theorem OwnProperties.forall_mem {P : Property → Prop} (ho : OwnProperties route own)
    (hq : ∀ key ∈ ownKeys, ∀ s tokens, Quoted s tokens → P ⟨key, tokens⟩)
    (hn : ∀ key ∈ ownKeys, ∀ s tokens, Named s tokens → P ⟨key, tokens⟩)
    (hl : ∀ key ∈ ownKeys, ∀ s tokens, LazyImport s tokens → P ⟨key, tokens⟩) :
    ∀ property ∈ own, P property := by
  cases ho with
  | intro path component redirectTo pathMatch loadChildren =>
    simp only [List.forall_mem_append]
    exact ⟨path.forall_mem (hq _ (by simp [ownKeys])),
      component.forall_mem (hn _ (by simp [ownKeys])),
      redirectTo.forall_mem (hq _ (by simp [ownKeys])),
      pathMatch.forall_mem (hq _ (by simp [ownKeys])),
      loadChildren.forall_mem (hl _ (by simp [ownKeys]))⟩

theorem isIdentifier_of_mem_ownKeys {key : Token} (hk : key ∈ ownKeys) :
    isIdentifier key = true := by
  have keys : ∀ key ∈ ownKeys, isIdentifier key = true := by decide
  exact keys key hk

theorem OwnProperties.isProper (ho : OwnProperties route own) :
    ∀ property ∈ own, property.IsProper :=
  ho.forall_mem (fun _ hk _ _ hv => ⟨isIdentifier_of_mem_ownKeys hk, hv.isItem⟩)
    (fun _ hk _ _ hv => ⟨isIdentifier_of_mem_ownKeys hk, hv.isItem⟩)
    (fun _ hk _ _ hv => ⟨isIdentifier_of_mem_ownKeys hk, hv.isItem⟩)

theorem OwnProperties.keys_sublist (ho : OwnProperties route own) :
    (own.map Property.key).Sublist ownKeys := by
  cases ho with
  | intro path component redirectTo pathMatch loadChildren =>
    simp only [List.map_append]
    exact path.keys_sublist.append (component.keys_sublist.append
      (redirectTo.keys_sublist.append (pathMatch.keys_sublist.append loadChildren.keys_sublist)))

theorem isProper_childrenProperty (hl : ∀ literal ∈ literals, IsItem literal) :
    (childrenProperty comma literals).IsProper where
  key := show isIdentifier "children".toList = true by decide
  value := isItem_arrayTokens hl

theorem OwnProperties.isProper_cons (ho : OwnProperties route own)
    (hl : ∀ literal ∈ literals, IsItem literal) :
    ∀ property ∈ childrenProperty comma literals :: own, property.IsProper :=
  List.forall_mem_cons.2 ⟨isProper_childrenProperty hl, ho.isProper⟩

theorem RouteLiteral.isItem (hr : RouteLiteral route tokens) : IsItem tokens := by
  induction route using Route.induction generalizing tokens with
  | step route ih =>
    cases hr with
    | leaf ho _ hp => exact isItem_objectTokens fun p h => ho.isProper p (hp.subset h)
    | parent ho hl hp =>
      refine isItem_objectTokens fun p h => ho.isProper_cons (fun literal hm => ?_) p (hp.subset h)
      obtain ⟨child, hc, hr⟩ := exists_of_mem_forall₂ hl hm
      exact ih child hc hr

theorem forall_isItem_of_forall₂ {routes : List Route}
    (hl : List.Forall₂ RouteLiteral routes literals) : ∀ literal ∈ literals, IsItem literal :=
  fun _ hm =>
    have ⟨_, _, hr⟩ := exists_of_mem_forall₂ hl hm
    hr.isItem

theorem withProperty_path (route : Route) (value : List Char) :
    route.withProperty ("path".toList, value) =
      { route with path := some (String.ofList (unquote value)) } := rfl

theorem withProperty_component (route : Route) (value : List Char) :
    route.withProperty ("component".toList, value) =
      { route with component := some (String.ofList value) } := rfl

theorem withProperty_redirectTo (route : Route) (value : List Char) :
    route.withProperty ("redirectTo".toList, value) =
      { route with redirectTo := some (String.ofList (unquote value)) } := rfl

theorem withProperty_pathMatch (route : Route) (value : List Char) :
    route.withProperty ("pathMatch".toList, value) =
      { route with pathMatch := some (String.ofList (unquote value)) } := rfl

theorem withProperty_loadChildren (route : Route) (value : List Char) :
    route.withProperty ("loadChildren".toList, value) =
      { route with
        loadChildren := some (String.ofList
          (((findFirst? importCall? value).map (·.1)).getD (unquote value))) } := rfl

theorem withProperty_loadComponent (route : Route) (value : List Char) :
    route.withProperty ("loadComponent".toList, value) =
      { route with
        component := route.component.or
          ((findFirst? thenMember? value).map fun (name, _) => String.ofList name)
        loadComponent := some (String.ofList value) } := rfl

/-- The keys that `Route.withProperty` knows. -/
def knownKeys : List Token := "loadComponent".toList :: ownKeys

theorem withProperty_of_not_mem (hk : k ∉ knownKeys) (v : List Char) :
    route.withProperty (k, v) = route := by
  simp only [knownKeys, ownKeys, List.mem_cons, not_or] at hk
  simp only [Route.withProperty, hk, if_false]

theorem key_childrenProperty_not_mem : (childrenProperty comma literals).key ∉ knownKeys :=
  show "children".toList ∉ knownKeys by decide

/-- Properties with different keys can be taken in either order. -/
theorem withProperty_comm (ne : k ≠ l) (route : Route) :
    (route.withProperty (k, v)).withProperty (l, w) =
      (route.withProperty (l, w)).withProperty (k, v) := by
  by_cases hk : k ∈ knownKeys
  · by_cases hl : l ∈ knownKeys
    · simp only [knownKeys, ownKeys, List.mem_cons, List.not_mem_nil, or_false] at hk hl
      rcases hk with rfl | rfl | rfl | rfl | rfl | rfl <;>
        rcases hl with rfl | rfl | rfl | rfl | rfl | rfl <;>
        first
        | (simp only [ne_eq, not_true_eq_false] at ne; done)
        | simp only [withProperty_path, withProperty_component, withProperty_redirectTo,
            withProperty_pathMatch, withProperty_loadChildren, withProperty_loadComponent,
            Option.some_or]
    · rw [withProperty_of_not_mem hl, withProperty_of_not_mem hl]
  · rw [withProperty_of_not_mem hk, withProperty_of_not_mem hk]

theorem foldl_withProperty_perm {found' : List (List Char × List Char)} (hp : found.Perm found')
    (hn : (found.map Prod.fst).Nodup) (route : Route) :
    found.foldl Route.withProperty route = found'.foldl Route.withProperty route := by
  refine hp.foldl_eq' (fun x hx y hy route => ?_) route
  by_cases h : x.1 = y.1
  · rw [List.inj_on_of_nodup_map hn hx hy h]
  · exact withProperty_comm h route

theorem map_fst_of_forall₂_isRead (hf : List.Forall₂ Property.IsRead properties found) :
    found.map Prod.fst = properties.map Property.key := by
  induction hf with
  | nil => rfl
  | cons hr _ ih =>
    cases hr with
    | intro => rw [List.map_cons, List.map_cons, ih]

theorem Part.foldl_append {written : String → List Token → Prop} {key : String}
    {value : Option String} {part : List Property} (hp : Part written key value part)
    {f : Option String → Route}
    (hw : ∀ s tokens text, written s tokens → Spaced tokens text →
      (f none).withProperty (key.toList, trim text) = f (some s))
    (hf : List.Forall₂ Property.IsRead (part ++ later) found) :
    ∃ rest, List.Forall₂ Property.IsRead later rest ∧
      found.foldl Route.withProperty (f none) = rest.foldl Route.withProperty (f value) := by
  cases hp with
  | absent => exact ⟨found, hf, rfl⟩
  | present h =>
    cases hf with
    | @cons _ _ _ rest hr hf =>
      cases hr with
      | intro ht => exact ⟨rest, hf, by rw [List.foldl_cons, hw _ _ _ h ht]⟩

theorem OwnProperties.foldl_eq (ho : OwnProperties route own)
    (hf : List.Forall₂ Property.IsRead own found) :
    found.foldl Route.withProperty { children := route.children } = route := by
  cases ho with
  | @intro p c r m l path component redirectTo pathMatch loadChildren loadComponent =>
    obtain ⟨found, hf, h₁⟩ := path.foldl_append
      (f := fun path => { path, children := route.children })
      (fun s tokens text hq ht => by
        simp only [withProperty_path, hq.ofList_unquote (ht.trim hq.isItem.phrases)]) hf
    obtain ⟨found, hf, h₂⟩ := component.foldl_append
      (f := fun component => { path := route.path, component, children := route.children })
      (fun s tokens text hn ht => by
        simp only [withProperty_component, hn.ofList_trim ht]) hf
    obtain ⟨found, hf, h₃⟩ := redirectTo.foldl_append
      (f := fun redirectTo =>
        { path := route.path, component := route.component, redirectTo,
          children := route.children })
      (fun s tokens text hq ht => by
        simp only [withProperty_redirectTo, hq.ofList_unquote (ht.trim hq.isItem.phrases)]) hf
    obtain ⟨found, hf, h₄⟩ := pathMatch.foldl_append
      (f := fun pathMatch =>
        { path := route.path, component := route.component, redirectTo := route.redirectTo,
          pathMatch, children := route.children })
      (fun s tokens text hq ht => by
        simp only [withProperty_pathMatch, hq.ofList_unquote (ht.trim hq.isItem.phrases)]) hf
    rw [← List.append_nil l] at hf
    obtain ⟨found, hf, h₅⟩ := loadChildren.foldl_append
      (f := fun loadChildren =>
        { path := route.path, component := route.component, redirectTo := route.redirectTo,
          pathMatch := route.pathMatch, loadChildren, children := route.children })
      (fun s tokens text hl ht => by
        obtain ⟨rest, he⟩ := hl.findFirst?_importCall? (ht.trim hl.isItem.phrases)
        simp only [withProperty_loadChildren, he, Option.map_some, Option.getD_some,
          String.ofList_toList]) hf
    cases hf
    rw [h₁, h₂, h₃, h₄, h₅, List.foldl_nil]
    cases route
    cases loadComponent
    rfl

theorem filterMap_childBody?_eq_nil (hk : "children".toList ∉ found.map Prod.fst) :
    found.filterMap childBody? = [] :=
  List.filterMap_eq_nil_iff.2 fun p hp => if_neg fun h => hk (List.mem_map.2 ⟨p, hp, h⟩)

theorem childTable?_eq_none (hk : "children".toList ∉ found.map Prod.fst) :
    childTable? found = none := by
  rw [childTable?, filterMap_childBody?_eq_nil hk]
  rfl

theorem childTable?_of_perm {rest : List (List Char × List Char)} {body : List Char}
    (hp : found.Perm (("children".toList, v) :: rest)) (hb : arrayBody? v = some body)
    (hk : "children".toList ∉ rest.map Prod.fst) : childTable? found = some body := by
  have first : childBody? ("children".toList, v) = some body := (if_pos rfl).trans hb
  have tables := hp.filterMap childBody?
  rw [List.filterMap_cons_some first, filterMap_childBody?_eq_nil hk, List.perm_singleton] at tables
  rw [childTable?, tables]
  rfl

/-- The route that an element of a table is read as. -/
def readRoute? (element : List Char) : Option Route :=
  (objectProperties? element).map fun properties =>
    properties.foldl Route.withProperty
      { children := ((childTable? properties).map routesIn).getD [] }

theorem routesIn_eq (table : List Char) :
    routesIn table = (elements table).filterMap readRoute? := by
  rw [routesIn]
  conv_rhs => rw [← List.attach_map_subtype_val (elements table), List.filterMap_map]
  refine List.filterMap_congr fun element _ => ?_
  simp only [Function.comp_apply, readRoute?]
  split
  case h_1 h => rw [h]; rfl
  case h_2 properties h =>
    rw [h, Option.map_some]
    split
    case h_1 h => rw [h]; rfl
    case h_2 body h => rw [h]; rfl

theorem readRoute?_eq_some (he : objectProperties? s = some found)
    (hc : ((childTable? found).map routesIn).getD [] = route.children)
    (hf : found.foldl Route.withProperty { children := route.children } = route) :
    readRoute? s = some route := by
  rw [readRoute?, he, Option.map_some, hc, hf]

theorem filterMap_readRoute? {routes : List Route} {texts : List (List Char)}
    (hr : List.Forall₂ (fun route literal => ∀ s, Spaced literal s → readRoute? s = some route)
      routes literals)
    (ht : List.Forall₂ Spaced literals texts) : texts.filterMap readRoute? = routes := by
  induction hr generalizing texts with
  | nil =>
    cases ht
    rfl
  | cons hr _ ih =>
    cases ht with
    | cons hs ht => rw [List.filterMap_cons_some (hr _ hs), ih ht]

theorem OwnProperties.nodup_keys (ho : OwnProperties route own) :
    ("children".toList :: own.map Property.key).Nodup :=
  (ho.keys_sublist.cons_cons _).nodup (by decide)

theorem RouteLiteral.readRoute?_eq (hr : RouteLiteral route tokens) (hs : Spaced tokens s) :
    readRoute? s = some route := by
  induction route using Route.induction generalizing tokens s with
  | step route ih =>
    cases hr with
    | leaf ho hc hp =>
      obtain ⟨found, he, hf⟩ :=
        exists_objectProperties? (fun p h => ho.isProper p (hp.subset h)) hs
      -- what was read, in the order of `OwnProperties`
      obtain ⟨found', hf', hp'⟩ := List.perm_comp_forall₂ hp.symm hf
      have keys := ho.nodup_keys
      rw [← map_fst_of_forall₂_isRead hf', List.nodup_cons] at keys
      refine readRoute?_eq_some he ?_ ?_
      · rw [childTable?_eq_none fun h => keys.1 ((hp'.map Prod.fst).symm.subset h), hc]
        rfl
      · rw [← foldl_withProperty_perm hp' keys.2, ho.foldl_eq hf']
    | parent ho hl hp =>
      have items := forall_isItem_of_forall₂ hl
      obtain ⟨found, he, hf⟩ :=
        exists_objectProperties? (fun p h => ho.isProper_cons items p (hp.subset h)) hs
      obtain ⟨_, hf', hp'⟩ := List.perm_comp_forall₂ hp.symm hf
      obtain - | ⟨⟨ht⟩, hf'⟩ := hf'
      have keys := ho.nodup_keys
      rw [← map_fst_of_forall₂_isRead hf'] at keys
      have array := ht.trim (isItem_arrayTokens items).phrases
      obtain ⟨body, hb, hbody⟩ := exists_arrayBody? items array
      have children := (List.forall₂_and_left (p := (· ∈ route.children)) _ _).2 ⟨fun _ h => h, hl⟩
      refine readRoute?_eq_some he ?_ ?_
      · rw [childTable?_of_perm hp'.symm hb (List.nodup_cons.1 keys).1]
        refine (routesIn_eq body).trans (filterMap_readRoute? ?_ (forall₂_elements items hbody))
        exact children.imp fun child literal h s hs => ih child h.1 h.2 hs
      · rw [← foldl_withProperty_perm hp' keys, List.foldl_cons,
          withProperty_of_not_mem key_childrenProperty_not_mem, ho.foldl_eq hf']

/-- The routes of a list are those that its items were written for. -/
theorem routesIn_eq_of_forall₂ {routes : List Route}
    (hl : List.Forall₂ RouteLiteral routes literals) (hs : Spaced (separated comma literals) s) :
    routesIn s = routes := by
  have texts := forall₂_elements (forall_isItem_of_forall₂ hl) hs
  rw [routesIn_eq]
  exact filterMap_readRoute? (hl.imp fun route literal hr s => hr.readRoute?_eq) texts

end AngularAtlas.Source
