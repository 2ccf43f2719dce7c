import AngularAtlas.Component.Hierarchy

namespace AngularAtlas.Hierarchy

open Source

variable {h : Hierarchy} {parent child key : String} {kind : ChildKind} {c p : Component}

theorem mem_appendNew {name : String} {keys : List String} :
    name ∈ appendNew key keys ↔ name = key ∨ name ∈ keys := by
  unfold appendNew
  split
  case isTrue hk =>
    have : key ∈ keys := List.contains_iff_mem.1 hk
    constructor
    · exact .inr
    · rintro (rfl | hn)
      · exact this
      · exact hn
  case isFalse => simp [or_comm]

theorem nodup_appendNew {keys : List String} (hn : keys.Nodup) : (appendNew key keys).Nodup := by
  unfold appendNew
  split
  case isTrue => exact hn
  case isFalse hk =>
    rw [List.contains_iff_mem] at hk
    refine List.nodup_append.2 ⟨hn, by simp, fun a ha b hb => ?_⟩
    rw [List.mem_singleton] at hb
    rintro rfl
    exact hk (hb ▸ ha)

@[simp] theorem key_addChild : (addChild child kind c).key = c.key := by
  cases kind <;> rfl

@[simp] theorem isRoot_addChild : (addChild child kind c).isRoot = c.isRoot := by
  cases kind <;> rfl

theorem childrenOfKind_addChild (other : ChildKind) :
    childrenOfKind (addChild child kind c) other =
      if other = kind then appendNew child (childrenOfKind c other)
      else childrenOfKind c other := by
  cases kind <;> cases other <;> rfl

theorem mem_childrenOfKind_addChild {other : ChildKind} {name : String} :
    name ∈ childrenOfKind (addChild child kind c) other ↔
      (other = kind ∧ name = child) ∨ name ∈ childrenOfKind c other := by
  rw [childrenOfKind_addChild]
  split
  case isTrue ho => simp [mem_appendNew, ho]
  case isFalse ho => simp [ho]

/-- The component under one key has another key among its children of a kind. -/
def Lists (h : Hierarchy) (parent child : String) (kind : ChildKind) : Prop :=
  ∃ p, h.component? parent = some p ∧ child ∈ childrenOfKind p kind

theorem link_of_missing (hp : h.component? parent = none) : h.link parent child kind = h := by
  unfold link
  split
  · rfl
  · rw [hp]

theorem link_of_lists (hl : Lists h parent child kind) : h.link parent child kind = h := by
  obtain ⟨p, hp, mem⟩ := hl
  unfold link
  split
  · rfl
  · rw [hp]
    exact if_pos (List.contains_iff_mem.2 mem)

theorem link_self : h.link key key kind = h := if_pos rfl

/-- A new link appends the child to its parent's list, and makes it no root. -/
theorem component?_link (hp : h.component? parent = some p) (ne : parent ≠ child)
    (new : child ∉ childrenOfKind p kind) (key : String) :
    (h.link parent child kind).component? key =
      if key = parent then some (addChild child kind p)
      else if key = child then (h.component? key).map fun c => { c with isRoot := false }
      else h.component? key := by
  unfold link
  rw [if_neg ne, hp]
  dsimp only
  rw [if_neg (by simpa using new)]
  simp only [component?, Table.get?_modify] at hp ⊢
  by_cases hk : key = parent
  · simp [hk, ne, hp]
  · simp [hk]

/-- What a component is after a new link: the parent, the child, or one that is as before. -/
theorem component?_link_cases (hp : h.component? parent = some p) (ne : parent ≠ child)
    (new : child ∉ childrenOfKind p kind) {key : String}
    (hc : (h.link parent child kind).component? key = some c) :
    (key = parent ∧ c = addChild child kind p) ∨
      (key = child ∧ ∃ d, h.component? child = some d ∧ c = { d with isRoot := false }) ∨
      (key ≠ parent ∧ key ≠ child ∧ h.component? key = some c) := by
  rw [component?_link hp ne new] at hc
  split at hc
  case isTrue hk => exact .inl ⟨hk, (Option.some.inj hc).symm⟩
  case isFalse hk =>
    split at hc
    case isTrue hkc =>
      obtain ⟨d, hd, he⟩ := Option.map_eq_some_iff.1 hc
      exact .inr (.inl ⟨hkc, d, hkc ▸ hd, he.symm⟩)
    case isFalse hkc => exact .inr (.inr ⟨hk, hkc, hc⟩)

/-- A link leaves the hierarchy as it is, or it is a new one between two different keys, the
first of which is stored. -/
theorem link_cases (h : Hierarchy) (parent child : String) (kind : ChildKind) :
    h.link parent child kind = h ∨
      ∃ p, h.component? parent = some p ∧ parent ≠ child ∧ child ∉ childrenOfKind p kind := by
  by_cases ne : parent = child
  · exact .inl (ne ▸ link_self)
  · cases hp : h.component? parent with
    | none => exact .inl (link_of_missing hp)
    | some p =>
      by_cases mem : child ∈ childrenOfKind p kind
      · exact .inl (link_of_lists ⟨p, hp, mem⟩)
      · exact .inr ⟨p, rfl, ne, mem⟩

@[simp] theorem names_link : (h.link parent child kind).components.names = h.components.names := by
  unfold link
  split
  · rfl
  · split
    · rfl
    · split
      · rfl
      · simp

@[simp] theorem names_markOutlet : (h.markOutlet key).components.names = h.components.names :=
  Table.names_modify ..

theorem mem_names_of_mem_templateLinks {t : FileTree} (mem : (parent, child) ∈ templateLinks t h) :
    child ∈ h.components.names := by
  obtain ⟨⟨key, c⟩, -, hl⟩ := List.mem_flatMap.1 mem
  cases ht : template? t c with
  | none => simp [ht] at hl
  | some text =>
    simp only [ht, List.mem_map] at hl
    obtain ⟨other, ho, he⟩ := hl
    obtain ⟨-, rfl⟩ := Prod.mk.inj he
    exact (List.mem_filter.1 ho).1

/-- What marking an outlet and linking to a stored component keep, the linking of templates
keeps. -/
theorem linkTemplates_induction {P : Hierarchy → Prop} (t : FileTree)
    (mark : ∀ h key, P h → P (h.markOutlet key))
    (step : ∀ h parent child, P h → child ∈ h.components.names →
      P (h.link parent child .template))
    (start : P h) : P (h.linkTemplates t) := by
  -- the links are those of the hierarchy at the start, so its names are carried along
  have marks : ∀ (keys : List String) (g : Hierarchy), P g →
      P (keys.foldl markOutlet g) ∧
        (keys.foldl markOutlet g).components.names = g.components.names := by
    intro keys
    induction keys with
    | nil => exact fun g hg => ⟨hg, rfl⟩
    | cons key keys ih =>
      intro g hg
      obtain ⟨hP, hn⟩ := ih (g.markOutlet key) (mark g key hg)
      exact ⟨hP, hn.trans names_markOutlet⟩
  have links : ∀ (pairs : List (String × String)) (g : Hierarchy), P g →
      (∀ pair ∈ pairs, pair.2 ∈ g.components.names) →
      P (pairs.foldl (fun g pair => g.link pair.1 pair.2 .template) g) := by
    intro pairs
    induction pairs with
    | nil => exact fun g hg _ => hg
    | cons pair pairs ih =>
      intro g hg stored
      refine ih _ (step g pair.1 pair.2 hg (stored pair List.mem_cons_self)) fun q hq => ?_
      rw [names_link]
      exact stored q (List.mem_cons_of_mem _ hq)
  obtain ⟨hm, hn⟩ := marks (outlets t h) h start
  refine links _ _ hm fun pair mem => ?_
  rw [hn]
  exact mem_names_of_mem_templateLinks mem

theorem mem_values_of_ofClass? {name : String} (hc : h.ofClass? name = some c) :
    c ∈ h.components.values := List.mem_of_find?_eq_some hc

mutual

theorem attachRoutes_induction {P : Hierarchy → Prop} {h : Hierarchy}
    (step : ∀ h parent c, P h → c ∈ h.components.values → P (h.link parent c.key .route))
    (start : P h) (host : Option String) : ∀ routes : List Route, P (attachRoutes h host routes)
  | [] => by simpa only [attachRoutes] using start
  | route :: rest => by
    rw [attachRoutes]
    exact attachRoutes_induction step (attachRoute_induction step start host route) host rest

theorem attachRoute_induction {P : Hierarchy → Prop} {h : Hierarchy}
    (step : ∀ h parent c, P h → c ∈ h.components.values → P (h.link parent c.key .route))
    (start : P h) (host : Option String) : ∀ route : Route, P (attachRoute h host route)
  | ⟨_, component, _, _, _, _, children⟩ => by
    rw [attachRoute]
    cases hc : component.bind h.ofClass? with
    | none => exact attachRoutes_induction step start host children
    | some c =>
      obtain ⟨name, -, hc⟩ := Option.bind_eq_some_iff.1 hc
      have stored := mem_values_of_ofClass? hc
      cases host with
      | none => exact attachRoutes_induction step start _ children
      | some host => exact attachRoutes_induction step (step h host c start stored) _ children

end

theorem linkRoutes_induction {P : Hierarchy → Prop} (t : FileTree) (paths : List String)
    (step : ∀ h parent c, P h → c ∈ h.components.values → P (h.link parent c.key .route))
    (start : P h) : P (h.linkRoutes t paths).1 := by
  suffices files : ∀ (paths : List String) (state : Hierarchy × List Issue), P state.1 →
      P (paths.foldl (linkRouteFile t) state).1 from files paths (h, []) start
  intro paths
  induction paths with
  | nil => exact fun _ hs => hs
  | cons path paths ih =>
    intro state hs
    refine ih _ ?_
    unfold linkRouteFile
    dsimp only
    split
    · exact hs
    · exact attachRoutes_induction step hs _ _

end AngularAtlas.Hierarchy
