import AngularAtlas.Source.Route

namespace AngularAtlas.Source

/-- The route at an address: the places that lead to it, from the outermost routes on. -/
def routeAt? (routes : List Route) : List Nat → Option Route
  | [] => none
  | [place] => routes[place]?
  | place :: next :: rest =>
    routes[place]?.bind fun route => routeAt? route.children (next :: rest)

/-- The routes of a forest, each once, in the lexicographic order of their addresses: a route
before those below it, and these before the next route beside it. -/
structure InPreorder (routes : List Route) (addresses : List (List Nat)) (listed : List Route) :
    Prop where
  sorted : addresses.Pairwise (· < ·)
  complete : ∀ address, (routeAt? routes address).isSome → address ∈ addresses
  listed_eq : addresses.map (routeAt? routes) = listed.map some

variable {route : Route} {routes listed later : List Route} {addresses others : List (List Nat)}
  {address other : List Nat}

/-- The address behind another route. -/
def shift : List Nat → List Nat
  | [] => []
  | place :: rest => (place + 1) :: rest

theorem routeAt?_zero : routeAt? (route :: routes) [0] = some route := rfl

theorem routeAt?_below (ne : address ≠ []) :
    routeAt? (route :: routes) (0 :: address) = routeAt? route.children address := by
  cases address with
  | nil => exact absurd rfl ne
  | cons next rest => rfl

theorem routeAt?_shift (address : List Nat) :
    routeAt? (route :: routes) (shift address) = routeAt? routes address := by
  match address with
  | [] => rfl
  | [place] => rfl
  | place :: next :: rest => rfl

theorem shift_lt_shift (h : address < other) : shift address < shift other := by
  cases other with
  | nil => exact absurd h (List.not_lt_nil _)
  | cons place rest =>
    cases address with
    | nil => exact List.nil_lt_cons _ _
    | cons place' rest' =>
      rw [List.cons_lt_cons_iff] at h
      refine List.cons_lt_cons_iff.2 (h.imp (fun h => ?_) fun h => ⟨?_, h.2⟩)
      · omega
      · omega

theorem cons_zero_lt_cons_zero (h : address < other) : 0 :: address < 0 :: other :=
  List.cons_lt_cons_iff.2 (.inr ⟨rfl, h⟩)

theorem nil_lt_of_ne_nil (ne : address ≠ []) : [] < address := by
  obtain ⟨place, rest, rfl⟩ := List.exists_cons_of_ne_nil ne
  exact List.nil_lt_cons _ _

theorem cons_zero_lt_shift (ne : other ≠ []) : 0 :: address < shift other := by
  obtain ⟨place, rest, rfl⟩ := List.exists_cons_of_ne_nil ne
  exact List.cons_lt_cons_iff.2 (.inl (Nat.succ_pos place))

theorem ne_nil_of_isSome (h : (routeAt? routes address).isSome) : address ≠ [] := by
  rintro rfl
  cases h

theorem InPreorder.isSome (hp : InPreorder routes addresses listed) (ha : address ∈ addresses) :
    (routeAt? routes address).isSome := by
  have mem : routeAt? routes address ∈ listed.map some :=
    hp.listed_eq ▸ List.mem_map_of_mem ha
  obtain ⟨route, -, he⟩ := List.mem_map.1 mem
  rw [← he]
  rfl

theorem inPreorder_nil : InPreorder [] [] [] where
  sorted := .nil
  complete address h := by
    match address with
    | [] => cases h
    | [_] => cases h
    | _ :: _ :: _ => cases h
  listed_eq := rfl

theorem InPreorder.ne_nil (hp : InPreorder routes addresses listed) (ha : address ∈ addresses) :
    address ≠ [] :=
  ne_nil_of_isSome (hp.isSome ha)

theorem InPreorder.cons (below : InPreorder route.children addresses listed)
    (beside : InPreorder routes others later) :
    InPreorder (route :: routes)
      ([0] :: (addresses.map (0 :: ·) ++ others.map shift)) (route :: (listed ++ later)) where
  sorted := by
    refine .cons (fun address h => ?_) (List.pairwise_append.2 ⟨?_, ?_, ?_⟩)
    · rcases List.mem_append.1 h with h | h
      · obtain ⟨address, ha, rfl⟩ := List.mem_map.1 h
        exact cons_zero_lt_cons_zero (nil_lt_of_ne_nil (below.ne_nil ha))
      · obtain ⟨other, ho, rfl⟩ := List.mem_map.1 h
        exact cons_zero_lt_shift (beside.ne_nil ho)
    · exact List.pairwise_map.2 (below.sorted.imp cons_zero_lt_cons_zero)
    · exact List.pairwise_map.2 (beside.sorted.imp shift_lt_shift)
    · intro a ha b hb
      obtain ⟨address, -, rfl⟩ := List.mem_map.1 ha
      obtain ⟨other, ho, rfl⟩ := List.mem_map.1 hb
      exact cons_zero_lt_shift (beside.ne_nil ho)
  complete address h := by
    match address with
    | [] => cases h
    | [0] => exact List.mem_cons_self
    | 0 :: next :: rest =>
      refine List.mem_cons_of_mem _ (List.mem_append_left _ (List.mem_map_of_mem ?_))
      exact below.complete (next :: rest) h
    | (place + 1) :: rest =>
      rw [← shift, routeAt?_shift] at h
      refine List.mem_cons_of_mem _ (List.mem_append_right _ ?_)
      exact List.mem_map_of_mem (f := shift) (beside.complete (place :: rest) h)
  listed_eq := by
    have first : (addresses.map (0 :: ·)).map (routeAt? (route :: routes)) = listed.map some := by
      rw [List.map_map, ← below.listed_eq]
      exact List.map_congr_left fun address ha => routeAt?_below (below.ne_nil ha)
    have last : (others.map shift).map (routeAt? (route :: routes)) = later.map some := by
      rw [List.map_map, ← beside.listed_eq]
      exact List.map_congr_left fun other _ => routeAt?_shift other
    rw [List.map_cons, List.map_append, first, last, List.map_cons, List.map_append, routeAt?_zero]

theorem flatten_eq (route : Route) :
    route.flatten = route :: route.children.flatMap Route.flatten := by
  have attached : route.children.attach.flatMap (fun child => child.1.flatten) =
      route.children.flatMap Route.flatten := by
    rw [← List.flatMap_map, List.attach_map_subtype_val]
  rw [Route.flatten]
  exact congrArg (route :: ·) attached

theorem exists_inPreorder_of_forall
    (below : ∀ route ∈ routes, ∃ addresses,
      InPreorder route.children addresses (route.children.flatMap Route.flatten)) :
    ∃ addresses, InPreorder routes addresses (routes.flatMap Route.flatten) := by
  induction routes with
  | nil => exact ⟨[], inPreorder_nil⟩
  | cons route routes ih =>
    obtain ⟨first, rest⟩ := List.forall_mem_cons.1 below
    obtain ⟨addresses, h⟩ := first
    obtain ⟨others, h'⟩ := ih rest
    rw [List.flatMap_cons, flatten_eq, List.cons_append]
    exact ⟨_, h.cons h'⟩

/-- Flattening lists a forest in the order of addresses. -/
theorem exists_inPreorder_flatten (routes : List Route) :
    ∃ addresses, InPreorder routes addresses (routes.flatMap Route.flatten) := by
  have below : ∀ route : Route, ∃ addresses,
      InPreorder route.children addresses (route.children.flatMap Route.flatten) := by
    intro route
    induction route using Route.induction with
    | step route ih => exact exists_inPreorder_of_forall ih
  exact exists_inPreorder_of_forall fun route _ => below route

end AngularAtlas.Source
