import AngularAtlas.Proofs.Hierarchy.TemplateLinks

namespace AngularAtlas.Hierarchy

variable {h result : Hierarchy} {t : FileTree} {key parent child : String} {c : Component}
  {cs : List Component}

/-- A key that is the selector of the component stored under it. -/
def IsSelector (h : Hierarchy) (key : String) : Prop :=
  key ≠ "" ∧ ∃ c, h.component? key = some c ∧ c.selector = key

/-- A key that is the class name of the component stored under it, which has no selector. -/
def IsClassName (h : Hierarchy) (key : String) : Prop :=
  ∃ c, h.component? key = some c ∧ c.selector = "" ∧ c.name = key

theorem Keyed.isSelector_or_isClassName (keyed : Keyed h) (hc : h.component? key = some c) :
    IsSelector h key ∨ IsClassName h key := by
  have stored := keyed key c hc
  by_cases none : c.selector = ""
  · rw [Component.key, if_pos none] at stored
    exact .inr ⟨c, hc, none, stored⟩
  · rw [Component.key, if_neg none] at stored
    exact .inl ⟨stored ▸ none, c, hc, stored⟩

theorem IsSelector.not_isClassName (selector : IsSelector h key) : ¬ IsClassName h key := by
  rintro ⟨c, hc, none, -⟩
  obtain ⟨ne, d, hd, here⟩ := selector
  obtain rfl := Option.some.inj (hc.symm.trans hd)
  exact ne (here.symm.trans none)

/-- The links through templates are the uses in templates. -/
theorem TemplatesLinked.lists_iff (linked : TemplatesLinked h t result) :
    Lists result parent child .template ↔ Uses h t parent child := by
  constructor
  · rintro ⟨p, hp, mem⟩
    have known : parent ∈ result.components.names :=
      Table.mem_names_iff.2 (Option.isSome_iff_exists.2 ⟨p, hp⟩)
    rw [linked.names] at known
    obtain ⟨c, hc⟩ := Option.isSome_iff_exists.1 (Table.mem_names_iff.1 known)
    obtain ⟨children, _, _, there, -, uses, -⟩ := linked.component hc
    obtain rfl := Option.some.inj (hp.symm.trans there)
    exact (uses child).1 mem
  · intro used
    obtain ⟨-, -, c, hc, -⟩ := id used
    obtain ⟨children, _, _, there, -, uses, -⟩ := linked.component hc
    exact ⟨_, there, (uses child).2 used⟩

/-- In a hierarchy of fresh components, each template child is the selector of a stored component
or the class name of one without a selector. All are selectors exactly if no template uses such a
class name. -/
theorem isSelector_of_linkTemplates (fresh : ∀ c ∈ cs, c.IsFresh) (t : FileTree) :
    (∀ parent child, Lists ((ofComponents cs).linkTemplates t) parent child .template →
      IsSelector (ofComponents cs) child ∨
        IsClassName (ofComponents cs) child ∧ Uses (ofComponents cs) t parent child) ∧
    ((∀ parent child, Lists ((ofComponents cs).linkTemplates t) parent child .template →
        IsSelector (ofComponents cs) child) ↔
      ∀ parent child, IsClassName (ofComponents cs) child →
        ¬ Uses (ofComponents cs) t parent child) := by
  have linked := templatesLinked_linkTemplates (isFresh_of_ofComponents fresh) t
  have keys : ∀ {parent child}, Uses (ofComponents cs) t parent child →
      IsSelector (ofComponents cs) child ∨ IsClassName (ofComponents cs) child := by
    rintro parent child ⟨-, ⟨d, hd⟩, -⟩
    exact (keyed_ofComponents cs).isSelector_or_isClassName hd
  simp only [linked.lists_iff]
  refine ⟨fun parent child used => ?_, fun selectors parent child className used => ?_,
    fun unused parent child used => ?_⟩
  · exact (keys used).imp_right fun className => ⟨className, used⟩
  · exact (selectors parent child used).not_isClassName className
  · exact (keys used).resolve_right fun className => unused parent child className used

/-- A component whose template speaks of `hero` and uses `nav`. -/
def guide : Component where
  name := "Guide"
  file := "/app/guide.ts"
  inlineTemplate := some "<p>Meet Hero today</p><app-nav></app-nav>"
  selector := "app-guide"

theorem fresh_guided : ∀ c ∈ [guide, nav, hero], c.IsFresh := by
  simp only [List.forall_mem_cons, List.not_mem_nil, false_imp_iff, implies_true, and_true]
  exact ⟨⟨rfl, rfl, rfl, rfl⟩, ⟨rfl, rfl, rfl, rfl⟩, ⟨rfl, rfl, rfl, rfl⟩⟩

theorem isClassName_hero : IsClassName (ofComponents [guide, nav, hero]) "Hero" :=
  ⟨hero, by decide +kernel, rfl, rfl⟩

theorem uses_guided (t : FileTree) :
    Uses (ofComponents [guide, nav, hero]) t "app-guide" "Hero" := by
  have text : templateText t guide = "<p>Meet Hero today</p><app-nav></app-nav>".toList := rfl
  refine ⟨by decide, ⟨hero, by decide +kernel⟩, guide, by decide +kernel, ?_⟩
  rw [text]
  decide +kernel

theorem lists_guided (t : FileTree) :
    Lists ((ofComponents [guide, nav, hero]).linkTemplates t) "app-guide" "Hero" .template :=
  (templatesLinked_linkTemplates (isFresh_of_ofComponents fresh_guided) t).lists_iff.2
    (uses_guided t)

theorem isSelector_of_linkTemplates_guided :
    (∀ c ∈ [guide, nav, hero], c.IsFresh) ∧
      Lists ((ofComponents [guide, nav, hero]).linkTemplates {}) "app-guide" "Hero" .template ∧
      ¬ ∀ parent child,
        Lists ((ofComponents [guide, nav, hero]).linkTemplates {}) parent child .template →
          IsSelector (ofComponents [guide, nav, hero]) child := by
  obtain ⟨-, unused, -⟩ := isSelector_of_linkTemplates fresh_guided {}
  refine ⟨fresh_guided, lists_guided {}, fun selectors => ?_⟩
  exact unused selectors "app-guide" "Hero" isClassName_hero (uses_guided {})

/-- What one would expect: templates link to components by their selectors only. -/
def LinksSelectorsOnly : Prop :=
  ∀ (cs : List Component) (t : FileTree), (∀ c ∈ cs, c.IsFresh) →
    ∀ parent child, Lists ((ofComponents cs).linkTemplates t) parent child .template →
      IsSelector (ofComponents cs) child

theorem not_linksSelectorsOnly : ¬ LinksSelectorsOnly := fun selectors =>
  (selectors _ {} fresh_guided _ _ (lists_guided {})).not_isClassName isClassName_hero

end AngularAtlas.Hierarchy
