import AngularAtlas.Proofs.FileTree.Reading
import AngularAtlas.Proofs.Hierarchy.Consistency
import AngularAtlas.Proofs.Hierarchy.Walk
import AngularAtlas.Proofs.Table
import AngularAtlas.Proofs.Text.Search

namespace AngularAtlas.Hierarchy

open Text

variable {h : Hierarchy} {t : FileTree} {key other parent child : String} {c p : Component}
  {cs : List Component} {pairs : List (String × String)}

/-- A component after some components are marked. -/
def marked (keys : List String) (key : String) (c : Component) : Component :=
  { c with hasOutlet := c.hasOutlet || keys.contains key }

theorem component?_foldl_markOutlet (keys : List String) (key : String) :
    (keys.foldl markOutlet h).component? key = (h.component? key).map (marked keys key) := by
  induction keys generalizing h with
  | nil =>
    have same : marked [] key = id := funext fun c => by simp [marked]
    rw [List.foldl_nil, same, Option.map_id_apply]
  | cons first keys ih =>
    rw [List.foldl_cons, ih, component?_markOutlet]
    split
    case isTrue here =>
      rw [Option.map_map]
      exact congrArg (Option.map · _) (funext fun c => by simp [marked, here])
    case isFalse other =>
      exact congrArg (Option.map · _) (funext fun c => by simp [marked, other])

/-- The children that some links give a component. -/
def childrenIn (pairs : List (String × String)) (key : String) : List String :=
  (pairs.filter (·.1 == key)).map (·.2)

/-- A component after some new links. -/
def linked (pairs : List (String × String)) (key : String) (c : Component) : Component :=
  { c with
    templateChildren := c.templateChildren ++ childrenIn pairs key
    isRoot := c.isRoot && pairs.all (·.2 != key) }

/-- A link between two components that is not there yet. -/
structure IsNew (h : Hierarchy) (pair : String × String) : Prop where
  ne : pair.1 ≠ pair.2
  exists_parent : ∃ p, h.component? pair.1 = some p ∧ pair.2 ∉ childrenOfKind p .template

theorem component?_link_template (new : IsNew h (parent, child)) (key : String) :
    (h.link parent child .template).component? key =
      (h.component? key).map (linked [(parent, child)] key) := by
  obtain ⟨p, hp, absent⟩ := new.exists_parent
  rw [component?_link hp new.ne absent]
  have list : appendNew child p.templateChildren = p.templateChildren ++ [child] :=
    if_neg (by simpa [childrenOfKind] using absent)
  split
  case isTrue here =>
    subst here
    have apart : (child != key) = true := by simpa using new.ne.symm
    rw [hp, Option.map_some]
    simp [addChild, linked, childrenIn, list, apart]
  case isFalse differ =>
    have none : childrenIn [(parent, child)] key = [] := by
      simp [childrenIn, Ne.symm differ]
    split
    case isTrue there =>
      have hit : (child != key) = false := by simp [there]
      refine congrArg (Option.map · _) (funext fun c => ?_)
      simp [linked, none, hit]
    case isFalse other =>
      have apart : (child != key) = true := by simpa using Ne.symm other
      have same : linked [(parent, child)] key = id := funext fun c => by
        simp [linked, none, apart]
      rw [same, Option.map_id_apply]

theorem IsNew.link {pair first : String × String} (new : IsNew h pair) (now : IsNew h first)
    (differ : pair ≠ first) : IsNew (h.link first.1 first.2 .template) pair := by
  obtain ⟨p, hp, absent⟩ := new.exists_parent
  refine ⟨new.ne, linked [first] pair.1 p, ?_, fun mem => ?_⟩
  · rw [component?_link_template now, hp, Option.map_some]
  · rcases List.mem_append.1 mem with mem | mem
    · exact absent mem
    · obtain ⟨link, mem, child⟩ := List.mem_map.1 mem
      obtain ⟨mem, parent⟩ := List.mem_filter.1 mem
      obtain rfl := List.mem_singleton.1 mem
      exact differ (Prod.ext (eq_of_beq parent).symm child.symm)

/-- Each of some links is added, and they change nothing else. -/
theorem component?_foldl_link (new : ∀ pair ∈ pairs, IsNew h pair) (distinct : pairs.Nodup)
    (key : String) :
    (pairs.foldl (fun h pair => h.link pair.1 pair.2 .template) h).component? key =
      (h.component? key).map (linked pairs key) := by
  induction pairs generalizing h with
  | nil =>
    have same : linked [] key = id := funext fun c => by simp [linked, childrenIn]
    rw [List.foldl_nil, same, Option.map_id_apply]
  | cons first pairs ih =>
    obtain ⟨now, later⟩ := List.forall_mem_cons.1 new
    obtain ⟨absent, distinct⟩ := List.nodup_cons.1 distinct
    have still : ∀ pair ∈ pairs, IsNew (h.link first.1 first.2 .template) pair :=
      fun pair mem => (later pair mem).link now fun same => absent (same ▸ mem)
    rw [List.foldl_cons, ih still distinct, component?_link_template now, Option.map_map]
    refine congrArg (Option.map · _) (funext fun c => ?_)
    have children : childrenIn (first :: pairs) key =
        childrenIn [first] key ++ childrenIn pairs key := by
      simp [childrenIn, List.filter_cons]
      split <;> simp
    simp [linked, children, Bool.and_assoc]

/-- The text of a component's template: the inline one, or else that of its file. It is empty where
there is none, and where the file cannot be read. -/
def templateText (t : FileTree) (c : Component) : List Char :=
  match c.inlineTemplate, c.templateFile with
  | some text, _ => text.toList
  | none, none => []
  | none, some path =>
    match t.readSource path with
    | .ok text => text.toList
    | .error _ => []

/-- A stored component uses another one in its template. -/
def Uses (h : Hierarchy) (t : FileTree) (key other : String) : Prop :=
  other ≠ key ∧ (∃ d, h.component? other = some d) ∧
    ∃ c, h.component? key = some c ∧ templateUses (templateText t c) other.toList = true

/-- What comes of a hierarchy when it is linked through templates. -/
structure TemplatesLinked (h : Hierarchy) (t : FileTree) (result : Hierarchy) : Prop where
  names : result.components.names = h.components.names
  /-- A component has those as children that its template uses, in the order of their keys. It has
  an outlet if its template has one, and is a root if no other one uses it. All else is as it
  was. -/
  component : ∀ {key c}, h.component? key = some c → ∃ children outlet isRoot,
    result.component? key = some { c with
      templateChildren := children, hasOutlet := outlet, isRoot := isRoot } ∧
    children.Pairwise (· < ·) ∧
    (∀ other, other ∈ children ↔ Uses h t key other) ∧
    (outlet = true ↔ outletTag <:+: templateText t c) ∧
    (isRoot = true ↔ ∀ other, ¬Uses h t other key)

theorem templateText_eq (t : FileTree) (c : Component) :
    templateText t c = ((template? t c).getD "").toList := by
  unfold templateText template?
  split
  case h_1 inline => rw [inline, Option.getD_some]
  case h_2 inline file =>
    rw [inline, file]
    rfl
  case h_3 path inline file =>
    rw [inline, file]
    show _ = ((t.readSource path).toOption.getD "").toList
    cases t.readSource path with
    | error e => rfl
    | ok text => rfl

theorem templateUses_nil (selector : List Char) : templateUses [] selector = false := by
  simp [templateUses, contains, occursAsName]

/-- The stored components that the template of a component uses, in the order of their keys. -/
def usedBy (h : Hierarchy) (t : FileTree) (key : String) (c : Component) : List String :=
  h.components.names.filter fun other =>
    other != key && templateUses (templateText t c) other.toList

theorem templateLinks_eq (h : Hierarchy) (t : FileTree) :
    templateLinks t h = h.components.entries.flatMap fun entry =>
      (usedBy h t entry.1 entry.2).map (entry.1, ·) := by
  refine List.flatMap_congr fun entry _ => ?_
  obtain ⟨key, c⟩ := entry
  simp only [usedBy, templateText_eq]
  cases template? t c with
  | none => simp [templateUses_nil]
  | some text => rfl

theorem mem_templateLinks_iff : (key, other) ∈ templateLinks t h ↔ Uses h t key other := by
  have known : other ∈ h.components.names ↔ ∃ d, h.component? other = some d :=
    Table.mem_names_iff.trans Option.isSome_iff_exists
  rw [templateLinks_eq, List.mem_flatMap, Uses, ← known]
  constructor
  · rintro ⟨⟨name, c⟩, stored, mem⟩
    obtain ⟨used, usedBy, pair⟩ := List.mem_map.1 mem
    obtain ⟨rfl, rfl⟩ := Prod.mk.inj pair
    obtain ⟨mem, test⟩ := List.mem_filter.1 usedBy
    obtain ⟨ne, uses⟩ := Bool.and_eq_true_iff.1 test
    exact ⟨by simpa using ne, mem, c, Table.mem_entries_iff.1 stored, uses⟩
  · rintro ⟨ne, mem, c, stored, uses⟩
    refine ⟨(key, c), Table.mem_entries_iff.2 stored, List.mem_map_of_mem ?_⟩
    exact List.mem_filter.2 ⟨mem, Bool.and_eq_true_iff.2 ⟨by simpa using ne, uses⟩⟩

theorem ordered_templateLinks (h : Hierarchy) (t : FileTree) :
    (templateLinks t h).Pairwise fun a b => a.1 < b.1 ∨ a.1 = b.1 ∧ a.2 < b.2 := by
  rw [templateLinks_eq]
  refine List.pairwise_flatMap.2 ⟨fun entry _ => ?_, h.components.increasing.imp ?_⟩
  · have increasing := h.components.names_increasing.filter fun other =>
      other != entry.1 && templateUses (templateText t entry.2) other.toList
    exact List.pairwise_map.2 (increasing.imp fun lt => .inr ⟨rfl, lt⟩)
  · intro entry later lt pair mem pair' mem'
    obtain ⟨_, -, rfl⟩ := List.mem_map.1 mem
    obtain ⟨_, -, rfl⟩ := List.mem_map.1 mem'
    exact .inl lt

theorem nodup_templateLinks (h : Hierarchy) (t : FileTree) : (templateLinks t h).Nodup := by
  refine (ordered_templateLinks h t).imp ?_
  rintro pair _ (lt | ⟨-, lt⟩) rfl
  · exact String.lt_irrefl _ lt
  · exact String.lt_irrefl _ lt

theorem mem_childrenIn_iff : other ∈ childrenIn pairs key ↔ (key, other) ∈ pairs := by
  simp [childrenIn]

theorem pairwise_childrenIn (ordered : pairs.Pairwise fun a b => a.1 < b.1 ∨ a.1 = b.1 ∧ a.2 < b.2)
    (key : String) : (childrenIn pairs key).Pairwise (· < ·) := by
  have together : (pairs.filter (·.1 == key)).Pairwise fun a b => a.2 < b.2 := by
    refine (List.pairwise_filter.2 (ordered.imp ?_))
    rintro a b (lt | ⟨-, lt⟩) ha hb
    · rw [eq_of_beq ha, eq_of_beq hb] at lt
      exact absurd lt (String.lt_irrefl _)
    · exact lt
  exact List.pairwise_map.2 together

theorem mem_outlets_iff (hc : h.component? key = some c) :
    key ∈ outlets t h ↔ outletTag <:+: templateText t c := by
  have empty : ¬outletTag <:+: [] := by decide
  have test : (template? t c).any (fun text => contains outletTag text.toList) = true ↔
      outletTag <:+: templateText t c := by
    rw [templateText_eq]
    cases template? t c with
    | none => simpa using empty
    | some text => exact contains_iff
  rw [outlets, List.mem_map, ← test]
  constructor
  · rintro ⟨⟨name, d⟩, mem, rfl⟩
    obtain ⟨stored, marked⟩ := List.mem_filter.1 mem
    obtain rfl := Option.some.inj (hc.symm.trans (Table.mem_entries_iff.1 stored))
    exact marked
  · intro marked
    exact ⟨(key, c), List.mem_filter.2 ⟨Table.mem_entries_iff.2 hc, marked⟩, rfl⟩

/-- What is stored under a key after linking. -/
def relinked (h : Hierarchy) (t : FileTree) (key : String) (c : Component) : Component :=
  linked (templateLinks t h) key (marked (outlets t h) key c)

theorem component?_linkTemplates
    (childless : ∀ {key c}, h.component? key = some c → c.templateChildren = [])
    (key : String) :
    (h.linkTemplates t).component? key = (h.component? key).map (relinked h t key) := by
  have new : ∀ pair ∈ templateLinks t h, IsNew ((outlets t h).foldl markOutlet h) pair := by
    rintro ⟨parent, child⟩ mem
    obtain ⟨ne, -, c, hc, -⟩ := mem_templateLinks_iff.1 mem
    refine ⟨ne.symm, marked (outlets t h) parent c, ?_, ?_⟩
    · rw [component?_foldl_markOutlet, hc, Option.map_some]
    · have none : c.templateChildren = [] := childless hc
      simp [childrenOfKind, marked, none]
  refine (component?_foldl_link new (nodup_templateLinks h t) key).trans ?_
  rw [component?_foldl_markOutlet, Option.map_map]
  rfl

theorem mem_of_component?_foldl_insert (hc : (cs.foldl insert h).component? key = some c) :
    c ∈ cs ∨ h.component? key = some c := by
  induction cs generalizing h with
  | nil => exact .inr hc
  | cons d cs ih =>
    rcases ih hc with mem | stored
    · exact .inl (List.mem_cons_of_mem _ mem)
    · cases taken : h.component? d.key with
      | some p => exact .inr (insert_of_stored taken ▸ stored)
      | none =>
        rw [component?_insert taken] at stored
        split at stored
        case isTrue =>
          obtain rfl := Option.some.inj stored
          exact .inl List.mem_cons_self
        case isFalse => exact .inr stored

theorem isFresh_of_ofComponents (fresh : ∀ c ∈ cs, c.IsFresh)
    (hc : (ofComponents cs).component? key = some c) : c.IsFresh := by
  rcases mem_of_component?_foldl_insert hc with mem | stored
  · exact fresh c mem
  · cases stored

theorem names_linkTemplates (h : Hierarchy) (t : FileTree) :
    (h.linkTemplates t).components.names = h.components.names :=
  linkTemplates_induction (P := fun g => g.components.names = h.components.names) t
    (fun _ _ same => names_markOutlet.trans same) (fun _ _ _ same _ => names_link.trans same) rfl

theorem templatesLinked_linkTemplates (fresh : ∀ {key c}, h.component? key = some c → c.IsFresh)
    (t : FileTree) : TemplatesLinked h t (h.linkTemplates t) where
  names := names_linkTemplates h t
  component := by
    intro key c hc
    refine ⟨childrenIn (templateLinks t h) key, (outlets t h).contains key,
      (templateLinks t h).all (·.2 != key), ?_, pairwise_childrenIn (ordered_templateLinks h t) key,
      fun other => ?_, ?_, ?_⟩
    · have isFresh := fresh hc
      rw [component?_linkTemplates (fun hc => (fresh hc).templateChildren), hc, Option.map_some]
      simp [relinked, linked, marked, isFresh.templateChildren, isFresh.hasOutlet, isFresh.isRoot]
    · rw [mem_childrenIn_iff, mem_templateLinks_iff]
    · rw [List.contains_iff_mem, mem_outlets_iff hc]
    · rw [List.all_eq_true]
      simp only [← mem_templateLinks_iff]
      constructor
      · intro none other mem
        simpa using none (other, key) mem
      · rintro none ⟨other, used⟩ mem
        have differ : used ≠ key := by
          rintro rfl
          exact none other mem
        simpa using differ

theorem markOutlet_relinked {g : Hierarchy}
    (stored : ∀ key, g.component? key = (h.component? key).map (relinked h t key))
    (mem : key ∈ outlets t h) : g.markOutlet key = g := by
  have same : g.components.modify key (fun c => { c with hasOutlet := true }) = g.components := by
    refine Table.modify_eq_self fun c hc => ?_
    obtain ⟨d, -, rfl⟩ := Option.map_eq_some_iff.1 ((stored key).symm.trans hc)
    have outlet : (relinked h t key d).hasOutlet = true := by
      simp [relinked, linked, marked, mem]
    rw [← outlet]
  rw [markOutlet, same]

theorem link_relinked {g : Hierarchy}
    (stored : ∀ key, g.component? key = (h.component? key).map (relinked h t key))
    (mem : (parent, child) ∈ templateLinks t h) : g.link parent child .template = g := by
  obtain ⟨-, -, c, hc, -⟩ := mem_templateLinks_iff.1 mem
  refine link_of_lists ⟨relinked h t parent c, by rw [stored, hc, Option.map_some], ?_⟩
  exact List.mem_append_right _ (mem_childrenIn_iff.2 mem)

theorem linkTemplates_linkTemplates
    (childless : ∀ {key c}, h.component? key = some c → c.templateChildren = [])
    (t : FileTree) : (h.linkTemplates t).linkTemplates t = h.linkTemplates t := by
  have stored := component?_linkTemplates (t := t) childless
  have names := names_linkTemplates h t
  generalize h.linkTemplates t = g at stored names
  have entries := Table.entries_eq_of_get? stored
  -- what is asked for can be read off the templates, and these are as they were
  have links : templateLinks t g = templateLinks t h := by
    rw [templateLinks_eq, templateLinks_eq, entries, List.flatMap_map]
    refine List.flatMap_congr fun entry _ => ?_
    rw [usedBy, usedBy, names]
    rfl
  have marks : outlets t g = outlets t h := by
    rw [outlets, outlets, entries, List.filter_map, List.map_map]
    rfl
  have marked : (outlets t h).foldl markOutlet g = g := by
    refine List.foldlRecOn (motive := (· = g)) _ _ rfl ?_
    rintro _ rfl key mem
    exact markOutlet_relinked stored mem
  rw [linkTemplates, links, marks, marked]
  refine List.foldlRecOn (motive := (· = g)) _ _ rfl ?_
  rintro _ rfl pair mem
  exact link_relinked stored mem

/-- Fresh components that are linked through their templates become the parents of those that
their templates use, and nothing else changes. Doing so again changes nothing. -/
theorem linkTemplates_links (fresh : ∀ c ∈ cs, c.IsFresh) (t : FileTree) :
    TemplatesLinked (ofComponents cs) t ((ofComponents cs).linkTemplates t) ∧
      ((ofComponents cs).linkTemplates t).linkTemplates t = (ofComponents cs).linkTemplates t :=
  ⟨templatesLinked_linkTemplates (isFresh_of_ofComponents fresh) t,
    linkTemplates_linkTemplates
      (fun hc => (isFresh_of_ofComponents fresh hc).templateChildren) t⟩

/-- A component with an attribute selector, whose template is in a file. -/
def badge : Component where
  name := "Badge"
  file := "/app/badge.ts"
  templateFile := some "/app/badge.html"
  selector := "badge"

def badgeTree : FileTree where
  root := .directory [("app", .directory
    [("badge.html", .file "<p badge><app-nav /> <app-shell>".toUTF8)])]

def badges : Hierarchy := ofComponents [shell, nav, hero, badge]

theorem template?_badge :
    template? badgeTree badge = some "<p badge><app-nav /> <app-shell>" := by
  have held : badgeTree.Holds "/app/badge.html" ["app", "badge.html"]
      "<p badge><app-nav /> <app-shell>".toUTF8 :=
    ⟨by decide +kernel, by decide +kernel, by decide, by decide +kernel, rfl⟩
  show (badgeTree.readSource "/app/badge.html").toOption = _
  rw [held.readSource_eq]
  rfl

theorem linkTemplates_links_badge :
    let result := badges.linkTemplates badgeTree
    (∀ c ∈ [shell, nav, hero, badge], c.IsFresh) ∧ TemplatesLinked badges badgeTree result ∧
      result.linkTemplates badgeTree = result ∧
      (result.component? "badge").map (fun c => (c.templateChildren, c.hasOutlet, c.isRoot)) =
        some (["app-nav", "app-shell"], false, true) ∧
      (result.component? "app-shell").map (fun c => (c.templateChildren, c.hasOutlet, c.isRoot)) =
        some (["app-nav"], true, false) := by
  intro result
  have fresh : ∀ c ∈ [shell, nav, hero, badge], c.IsFresh := by
    simp only [List.forall_mem_cons, List.not_mem_nil, false_imp_iff, implies_true, and_true]
    exact ⟨⟨rfl, rfl, rfl, rfl⟩, ⟨rfl, rfl, rfl, rfl⟩, ⟨rfl, rfl, rfl, rfl⟩, ⟨rfl, rfl, rfl, rfl⟩⟩
  obtain ⟨linked, again⟩ := linkTemplates_links fresh badgeTree
  have entries : badges.components.entries =
      [("Hero", hero), ("app-nav", nav), ("app-shell", shell), ("badge", badge)] := rfl
  have links : templateLinks badgeTree badges =
      [("app-shell", "app-nav"), ("badge", "app-nav"), ("badge", "app-shell")] := by
    simp only [templateLinks, entries, List.flatMap_cons, template?_badge]
    decide +kernel
  have marks : outlets badgeTree badges = ["app-shell"] := by
    simp only [outlets, entries, List.filter_cons, template?_badge]
    decide +kernel
  have stored := component?_linkTemplates (h := badges) (t := badgeTree) fun hc =>
    (isFresh_of_ofComponents fresh hc).templateChildren
  refine ⟨fresh, linked, again, ?_⟩
  unfold relinked at stored
  rw [stored, stored, links, marks]
  decide +kernel

end AngularAtlas.Hierarchy
