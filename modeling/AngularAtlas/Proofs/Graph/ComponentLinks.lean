import AngularAtlas.Export.Report
import AngularAtlas.Proofs.Graph.Components
import Mathlib.Data.List.Find

namespace AngularAtlas

open Hierarchy

variable {h : Hierarchy} {p : Component} {step : Step} {steps : List Step} {key : String}

namespace Hierarchy

/-- The keys of the parent and the component of a visit that comes from a parent. -/
def Step.ends? (step : Step) : Option (String × String) :=
  step.parent.map fun parent => (parent.1.key, step.component.key)

/-- The links that a walk meets, from parent to child. One that is there twice is met twice. -/
def walkEnds (h : Hierarchy) : List (String × String) := h.walk.filterMap Step.ends?

/-- Of the visits to a child, one that comes from the parent's template is the first. -/
theorem parent_of_find?_childSteps (hk : Keyed h)
    (found : (childSteps h p).find? (fun step => step.component.key == key) = some step) :
    step.parent = some (p, if key ∈ p.templateChildren then .template else .route) := by
  have same : step.component.key = key := by simpa using List.find?_some found
  have stored : h.component? key = some step.component := by
    obtain ⟨other, -, -, hc, -⟩ := mem_childSteps_iff.1 (List.mem_of_find?_eq_some found)
    rwa [← hk other _ hc, same] at hc
  rw [childSteps_eq, List.find?_append, Option.or_eq_some_iff] at found
  rcases found with first | ⟨missing, second⟩
  · obtain ⟨other, mem, hs⟩ := List.mem_filterMap.1 (List.mem_of_find?_eq_some first)
    obtain ⟨c, hc, rfl⟩ := Option.map_eq_some_iff.1 hs
    rw [← hk other c hc] at mem
    rw [if_pos (same ▸ mem)]
  · have unused : key ∉ p.templateChildren := by
      intro mem
      refine List.find?_eq_none.1 missing ⟨step.component, some (p, .template)⟩ ?_ (by simp [same])
      exact List.mem_filterMap.2 ⟨key, mem, by rw [stored, Option.map_some]⟩
    obtain ⟨other, -, hs⟩ := List.mem_filterMap.1 (List.mem_of_find?_eq_some second)
    obtain ⟨c, -, rfl⟩ := Option.map_eq_some_iff.1 hs
    rw [if_neg unused]

/-- The first visit that meets a link comes from the parent's template if any does. -/
theorem parent_of_find?_walk (hk : Keyed h) {ends : String × String}
    (found : h.walk.find? (fun step => step.ends? == some ends) = some step) :
    ∃ p, h.component? ends.1 = some p ∧
      step.parent = some (p, if ends.2 ∈ p.templateChildren then .template else .route) := by
  have met : step.ends? = some ends := by simpa using List.find?_some found
  obtain ⟨⟨p, kind⟩, hp, rfl⟩ := Option.map_eq_some_iff.1 met
  have reached : ∀ {s : Step}, s ∈ h.walk → ∀ parent ∈ s.parent, Reached h parent.1 :=
    fun mem => (isReached_of_mem_walk mem).2
  have here : Reached h p := reached (List.mem_of_find?_eq_some found) _ hp
  refine ⟨p, here.holds hk, parent_of_find?_childSteps hk ?_⟩
  -- a visit with these ends comes from `p`, because no other stored component has its key
  rw [← stepsBelow_walk_of_reached hk here, stepsBelow, List.find?_filter, ← found]
  refine List.find?_congr fun s hs => ?_
  rw [Bool.eq_iff_iff, decide_eq_true_eq, decide_eq_true_eq, beq_iff_eq, beq_iff_eq, Step.ends?]
  cases hq : s.parent with
  | none => simp
  | some parent =>
    have other := (reached hs parent hq).holds hk
    simp only [Option.map_some, Option.some.injEq, Prod.mk.injEq]
    constructor
    · rintro ⟨rfl, same⟩
      exact ⟨rfl, same⟩
    · rintro ⟨keys, same⟩
      exact ⟨other.eq_of_key_eq (here.holds hk) keys, same⟩

end Hierarchy

namespace Graph

variable {l : Link}

theorem ends_stepLink? (step : Step) : (stepLink? step).map Link.ends = step.ends? := by
  rw [stepLink?, Option.map_map]
  rfl

theorem map_ends_stepLinks (steps : List Step) :
    (stepLinks steps).map Link.ends = steps.filterMap Step.ends? := by
  rw [stepLinks, List.map_filterMap]
  exact List.filterMap_congr fun step _ => ends_stepLink? step

theorem relation_of_mem_links (hk : Keyed h) (hl : l ∈ (ofHierarchy h).links) :
    ∃ p, h.component? l.source = some p ∧
      l.relation = if l.target ∈ p.templateChildren then .uses else .routes := by
  have first := (collects_ofHierarchy h).links_first.first l hl
  rw [stepLinks, List.find?_filterMap] at first
  obtain ⟨step, found, hs⟩ := Option.bind_eq_some_iff.1 first
  have met : h.walk.find? (fun step => step.ends? == some l.ends) = some step := by
    rw [← found]
    refine List.find?_congr fun s _ => ?_
    rw [← ends_stepLink?]
    cases stepLink? s with
    | none => rfl
    | some other => rfl
  obtain ⟨p, hp, parent⟩ := parent_of_find?_walk hk met
  refine ⟨p, hp, ?_⟩
  rw [stepLink?, parent, Option.map_some] at hs
  have relation := congrArg Link.relation (Option.some.inj hs)
  rw [← relation]
  exact apply_ite Relation.ofChildKind _ _ _

end Graph

namespace Report

/-- A link as it is written in a report. -/
def endsLine (ends : String × String) : String := "    " ++ ends.1 ++ "-->" ++ ends.2 ++ "\n"

theorem linkLine_eq (step : Step) :
    linkLine step = String.join (step.ends?.toList.map endsLine) := by
  obtain ⟨c, parent⟩ := step
  cases parent with
  | none => rfl
  | some parent => exact (String.empty_append).symm

theorem join_map_linkLine (steps : List Step) :
    String.join (steps.map linkLine) =
      String.join ((steps.filterMap Step.ends?).map endsLine) := by
  induction steps with
  | nil => rfl
  | cons step steps ih =>
    rw [List.map_cons, String.join_cons, ih, linkLine_eq]
    cases ends : step.ends? with
    | none => simp [ends]
    | some pair => simp [ends]

theorem components_eq (h : Hierarchy) :
    components h = "# Component hierarchy\n\n\x60\x60\x60mermaid\ngraph TD;\n" ++
      String.join (h.walkEnds.map endsLine) ++ "\x60\x60\x60\n" := by
  unfold components walkEnds
  rw [join_map_linkLine]

end Report

namespace Graph

/-- The report on a hierarchy writes the links that a walk meets. Its graph has the same links in
the same order, each once, and each is one of use if the parent's template uses the child. -/
theorem edges_ofHierarchy (cs : List Component) :
    Report.components (ofComponents cs) =
        "# Component hierarchy\n\n\x60\x60\x60mermaid\ngraph TD;\n" ++
          String.join ((ofComponents cs).walkEnds.map Report.endsLine) ++ "\x60\x60\x60\n" ∧
      (ofHierarchy (ofComponents cs)).edges.map (fun e => (e.source, e.target)) =
        (ofComponents cs).walkEnds.eraseDups ∧
      (∀ i e, (ofHierarchy (ofComponents cs)).edges[i]? = some e → e.number = i + 1) ∧
      ∀ e ∈ (ofHierarchy (ofComponents cs)).edges, ∃ p,
        (ofComponents cs).component? e.source = some p ∧
          e.relation = if e.target ∈ p.templateChildren then .uses else .routes := by
  have keyed := keyed_ofComponents cs
  refine ⟨?_, ?_, (collects_ofHierarchy _).sound.number_eq, ?_⟩
  · exact Report.components_eq _
  · rw [← map_ends_links, (collects_ofHierarchy _).links_first.keys_eq, map_ends_stepLinks,
      walkEnds]
  · intro e he
    have mem : (⟨e.source, e.target, e.relation⟩ : Link) ∈ (ofHierarchy (ofComponents cs)).links :=
      List.mem_map.2 ⟨e, he, rfl⟩
    exact relation_of_mem_links keyed mem

/-- The way back from `b` to `a` is met through the template and through a route. -/
theorem edges_ofHierarchy_cycle :
    let h := ofComponents [selfUser, backUser, orphan]
    h.walkEnds = [("a", "b"), ("b", "a"), ("b", "a"), ("a", "b"), ("a", "a")] ∧
      (ofHierarchy h).edges.map (fun e => (e.source, e.target)) =
        [("a", "b"), ("b", "a"), ("a", "a")] ∧
      ∃ e ∈ (ofHierarchy h).edges, e.source = "b" ∧ e.target = "a" ∧ e.relation = .uses := by
  intro h
  have roots : h.roots = [selfUser] := by decide
  have belowSelf : h.childSteps selfUser =
      [⟨backUser, some (selfUser, .template)⟩, ⟨backUser, some (selfUser, .template)⟩,
        ⟨selfUser, some (selfUser, .template)⟩] := by decide
  have belowBack : h.childSteps backUser =
      [⟨selfUser, some (backUser, .template)⟩, ⟨selfUser, some (backUser, .route)⟩] := by decide
  have met : h.walkEnds = [("a", "b"), ("b", "a"), ("b", "a"), ("a", "b"), ("a", "a")] := by
    have keySelf : selfUser.key = "a" := by decide
    have keyBack : backUser.key = "b" := by decide
    simp [walkEnds, walk, roots, walkFrom, belowSelf, belowBack, Step.ends?, keySelf, keyBack]
  obtain ⟨-, edges, -, relation⟩ := edges_ofHierarchy [selfUser, backUser, orphan]
  have ends : (ofHierarchy h).edges.map (fun e => (e.source, e.target)) =
      [("a", "b"), ("b", "a"), ("a", "a")] := by
    rw [edges, met]
    decide
  have back : ("b", "a") ∈ (ofHierarchy h).edges.map fun e => (e.source, e.target) := by
    rw [ends]
    decide
  obtain ⟨e, he, same⟩ := List.mem_map.1 back
  obtain ⟨source, target⟩ := Prod.mk.inj same
  obtain ⟨p, hp, kind⟩ := relation e he
  have parent : h.component? "b" = some backUser := by decide
  rw [source, parent] at hp
  obtain rfl := Option.some.inj hp
  rw [target] at kind
  exact ⟨met, ends, e, he, source, target, kind⟩

end Graph

end AngularAtlas
