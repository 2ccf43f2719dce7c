import AngularAtlas.Proofs.Export.Document

namespace AngularAtlas

theorem NodeKind.name_injective : Function.Injective NodeKind.name := by
  intro a b h
  cases a <;> cases b <;> first | rfl | exact absurd h (by decide)

theorem Relation.name_injective : Function.Injective Relation.name := by
  intro a b h
  cases a <;> cases b <;> first | rfl | exact absurd h (by decide)

/-- Two kinds of nodes have names that relations have, too. -/
theorem NodeKind.name_eq_name_iff {kind : NodeKind} {relation : Relation} :
    kind.name = relation.name ↔ kind = .injectable ∧ relation = .injected ∨
      kind = .unknown ∧ relation = .unspecified := by
  cases kind <;> cases relation <;> decide

namespace Dgml

open Markup

variable {s : GraphStyle} {g : Graph} {e : Edge} {c : Category}

/-- What is read of a category: its id, the colour of nodes, and the colour of links. -/
def colours (a : Attributes) : Option String × Option String × Option String :=
  (value? "Id" a, value? "Background" a, value? "Stroke" a)

def colour? (colour : String) : Option String := if colour = "" then none else some colour

def Category.colours (c : Category) : Option String × Option String × Option String :=
  (some c.id, colour? c.background, colour? c.stroke)

def Category.isColoured (c : Category) : Bool := c.background ≠ "" ∨ c.stroke ≠ ""

theorem attributes_close (rest : List Char) : attributes (" />\n".toList ++ rest) = [] :=
  attributes_of_none rfl

theorem lookup_categoryAttributes (c : Category) :
    (categoryAttributes c).lookup "Id" = some c.id ∧
    (categoryAttributes c).lookup "Background" = colour? c.background ∧
    (categoryAttributes c).lookup "Stroke" = colour? c.stroke := by
  unfold categoryAttributes colour?
  by_cases hb : c.background = "" <;> by_cases hs : c.stroke = "" <;>
    simp [hb, hs, List.lookup_cons]

theorem colours_categoryAttributes (c : Category) (rest : List Char) :
    colours (attributes (written (categoryAttributes c) ++ (" />\n".toList ++ rest))) =
      c.colours := by
  obtain ⟨id, background, stroke⟩ := lookup_categoryAttributes c
  rw [attributes_written (plain_categoryAttributes c), attributes_close, colours, value?_escaped,
    value?_escaped, value?_escaped, id, background, stroke]
  have missing : ∀ key, value? key [] = none := fun _ => rfl
  simp only [missing, Option.or_none, Category.colours]

theorem reads_categoryElement (c : Category) :
    Reads "Category" colours (categoryElement c).toList
      (if c.isColoured then [c.colours] else []) := by
  unfold categoryElement
  by_cases bare : c.background = "" ∧ c.stroke = ""
  · rw [if_pos bare, if_neg (by simp [Category.isColoured, bare])]
    exact reads_of_not_mem (by decide)
  · have coloured : c.isColoured = true := by
      simpa [Category.isColoured, ← not_and_or] using bare
    rw [if_neg bare, if_pos coloured]
    exact reads_written (by decide) (plain_categoryAttributes c).keys
      (colours_categoryAttributes c)

theorem map_elements_category (s : GraphStyle) (g : Graph) :
    (elements "Category" (categoriesText s g).toList).map colours =
      ((categories s g).filter Category.isColoured).map Category.colours := by
  have seen : ∀ cs : List Category, (cs.filter Category.isColoured).map Category.colours =
      cs.flatMap fun c => if c.isColoured then [c.colours] else [] := by
    intro cs
    induction cs with
    | nil => rfl
    | cons c cs ih =>
      rw [List.filter_cons, List.flatMap_cons, ← ih]
      cases c.isColoured <;> rfl
  rw [seen]
  refine (reads_part "Categories" (by decide) (by decide +kernel) (by decide +kernel)
    ?_).map_elements_eq
  rw [List.flatMap_map]
  exact reads_flatMap fun c _ => reads_categoryElement c

def kindCategory (s : GraphStyle) (kind : NodeKind) : Category :=
  ⟨kind.name, s.dgmlNodeColor kind, ""⟩

def relationCategory (s : GraphStyle) (relation : Relation) : Category :=
  ⟨relation.name, "", s.edgeColor relation⟩

theorem firstOfEach_categories (s : GraphStyle) (g : Graph) :
    FirstOfEach Category.id (g.nodes.map (fun n => kindCategory s n.kind) ++
      g.edges.map fun e => relationCategory s e.relation) (categories s g) :=
  firstOfEach_firstBy _ _

/-- A relation that shares its name with a kind of node in use has no category. -/
theorem mem_categories_iff :
    c ∈ categories s g ↔ (∃ n ∈ g.nodes, kindCategory s n.kind = c) ∨
      ∃ e ∈ g.edges, (∀ n ∈ g.nodes, n.kind.name ≠ e.relation.name) ∧
        relationCategory s e.relation = c := by
  have kinds : ∀ a ∈ g.nodes.map (fun n => kindCategory s n.kind),
      ∀ b ∈ g.nodes.map (fun n => kindCategory s n.kind), a.id = b.id → a = b := by
    intro a ha b hb same
    obtain ⟨m, -, rfl⟩ := List.mem_map.1 ha
    obtain ⟨n, -, rfl⟩ := List.mem_map.1 hb
    rw [NodeKind.name_injective same]
  have relations : ∀ a ∈ g.edges.map (fun e => relationCategory s e.relation),
      ∀ b ∈ g.edges.map (fun e => relationCategory s e.relation), a.id = b.id → a = b := by
    intro a ha b hb same
    obtain ⟨d, -, rfl⟩ := List.mem_map.1 ha
    obtain ⟨e, -, rfl⟩ := List.mem_map.1 hb
    rw [Relation.name_injective same]
  have fresh : c.id ∉ (g.nodes.map fun n => kindCategory s n.kind).map Category.id ↔
      ∀ n ∈ g.nodes, n.kind.name ≠ c.id := by
    simp [kindCategory]
  rw [(firstOfEach_categories s g).mem_append_iff, find?_key_eq_some_iff kinds,
    find?_key_eq_some_iff relations, fresh, List.mem_map, List.mem_map]
  refine or_congr_right ⟨?_, ?_⟩
  · rintro ⟨h, e, he, rfl⟩
    exact ⟨e, he, h, rfl⟩
  · rintro ⟨e, he, h, rfl⟩
    exact ⟨h, e, he, rfl⟩

theorem isColoured_kindCategory {kind : NodeKind} :
    (kindCategory s kind).isColoured = true ↔ s.dgmlNodeColor kind ≠ "" := by
  simp [Category.isColoured, kindCategory]

theorem isColoured_relationCategory {relation : Relation} :
    (relationCategory s relation).isColoured = true ↔ s.edgeColor relation ≠ "" := by
  simp [Category.isColoured, relationCategory]

theorem colours_kindCategory {kind : NodeKind} (coloured : s.dgmlNodeColor kind ≠ "") :
    (kindCategory s kind).colours = (some kind.name, some (s.dgmlNodeColor kind), none) := by
  simp [Category.colours, kindCategory, colour?, coloured]

theorem colours_relationCategory {relation : Relation} (coloured : s.edgeColor relation ≠ "") :
    (relationCategory s relation).colours =
      (some relation.name, none, some (s.edgeColor relation)) := by
  simp [Category.colours, relationCategory, colour?, coloured]

theorem forall_name_ne_iff (coloured : s.edgeColor e.relation ≠ "") :
    (∀ n ∈ g.nodes, n.kind.name ≠ e.relation.name) ↔
      (e.relation = .injected → ∀ n ∈ g.nodes, n.kind ≠ .injectable) := by
  have specified : e.relation ≠ .unspecified := by
    intro h
    rw [h] at coloured
    exact coloured rfl
  simp only [ne_eq, NodeKind.name_eq_name_iff, specified, and_false, or_false, not_and']
  exact ⟨fun h r n hn => h n hn r, fun h n hn r => h r n hn⟩

theorem mem_map_elements_category {a : Option String × Option String × Option String} :
    a ∈ (elements "Category" (categoriesText s g).toList).map colours ↔
      (∃ n ∈ g.nodes, s.dgmlNodeColor n.kind ≠ "" ∧
        a = (some n.kind.name, some (s.dgmlNodeColor n.kind), none)) ∨
      ∃ e ∈ g.edges, s.edgeColor e.relation ≠ "" ∧
        (e.relation = .injected → ∀ n ∈ g.nodes, n.kind ≠ .injectable) ∧
        a = (some e.relation.name, none, some (s.edgeColor e.relation)) := by
  rw [map_elements_category, List.mem_map]
  simp only [List.mem_filter, mem_categories_iff]
  constructor
  · rintro ⟨c, ⟨⟨n, hn, rfl⟩ | ⟨e, he, fresh, rfl⟩, coloured⟩, rfl⟩
    · have coloured := isColoured_kindCategory.1 coloured
      exact .inl ⟨n, hn, coloured, colours_kindCategory coloured⟩
    · have coloured := isColoured_relationCategory.1 coloured
      exact .inr ⟨e, he, coloured, (forall_name_ne_iff coloured).1 fresh,
        colours_relationCategory coloured⟩
  · rintro (⟨n, hn, coloured, rfl⟩ | ⟨e, he, coloured, fresh, rfl⟩)
    · exact ⟨_, ⟨.inl ⟨n, hn, rfl⟩, isColoured_kindCategory.2 coloured⟩,
        colours_kindCategory coloured⟩
    · exact ⟨_, ⟨.inr ⟨e, he, (forall_name_ne_iff coloured).2 fresh, rfl⟩,
        isColoured_relationCategory.2 coloured⟩, colours_relationCategory coloured⟩

theorem nodup_category_ids (s : GraphStyle) (g : Graph) :
    (((elements "Category" (categoriesText s g).toList).map colours).map Prod.fst).Nodup := by
  have ids : (((categories s g).filter Category.isColoured).map Category.id).Nodup :=
    (firstOfEach_categories s g).nodup.sublist (List.filter_sublist.map _)
  rw [map_elements_category, List.map_map]
  have text : Prod.fst ∘ Category.colours = some ∘ Category.id := rfl
  rw [text, ← List.map_map]
  exact ids.map fun _ _ => Option.some.inj

theorem exists_document_eq (o : Options) (s : GraphStyle) (g : Graph) :
    ∃ front back, document o s g = front ++ categoriesText s g ++ back := by
  refine ⟨headText o ++ nodesText s g ++ linksText g, propertiesText ++ "</DirectedGraph>\n", ?_⟩
  rw [document_eq]
  exact String.append_assoc

/-- The categories of a document are those of the kinds of nodes and of the relations in use that
have colours, each once and with its colour. Missing is that of injections where an injectable,
which is known by the same name, is among the nodes. -/
theorem declared_styles (o : Options) (s : GraphStyle) (g : Graph) :
    (∃ front back, document o s g = front ++ categoriesText s g ++ back) ∧
    (((elements "Category" (categoriesText s g).toList).map colours).map Prod.fst).Nodup ∧
    ∀ a, a ∈ (elements "Category" (categoriesText s g).toList).map colours ↔
      (∃ n ∈ g.nodes, s.dgmlNodeColor n.kind ≠ "" ∧
        a = (some n.kind.name, some (s.dgmlNodeColor n.kind), none)) ∨
      ∃ e ∈ g.edges, s.edgeColor e.relation ≠ "" ∧
        (e.relation = .injected → ∀ n ∈ g.nodes, n.kind ≠ .injectable) ∧
        a = (some e.relation.name, none, some (s.edgeColor e.relation)) :=
  ⟨exists_document_eq o s g, nodup_category_ids s g, fun _ => mem_map_elements_category⟩

/-- All that is in use and has a colour is declared with it. -/
structure Declares (text : String) (s : GraphStyle) (g : Graph) : Prop where
  kinds : ∀ n ∈ g.nodes, s.dgmlNodeColor n.kind ≠ "" →
    ∃ a ∈ elements "Category" text.toList,
      value? "Id" a = some n.kind.name ∧ value? "Background" a = some (s.dgmlNodeColor n.kind)
  relations : ∀ e ∈ g.edges, s.edgeColor e.relation ≠ "" →
    ∃ a ∈ elements "Category" text.toList,
      value? "Id" a = some e.relation.name ∧ value? "Stroke" a = some (s.edgeColor e.relation)

/-- Whatever a document shows, its categories declare all of its styles. -/
def DeclaresAllInUse : Prop :=
  ∀ (name : String) (changes : List Graph.Change) (o : Options) (s : GraphStyle),
    ∃ front back, document o s (.afterChanges name changes) =
        front ++ categoriesText s (.afterChanges name changes) ++ back ∧
      Declares (categoriesText s (.afterChanges name changes)) s (.afterChanges name changes)

def injectionChanges : List Graph.Change :=
  [.addNode (.named "HeroService" .injectable), .addNode (.named "HeroesComponent" .component),
    .addEdge "HeroService" "HeroesComponent" .injected]

theorem not_declaresAllInUse : ¬ DeclaresAllInUse := by
  intro all
  obtain ⟨front, back, -, -, relations⟩ := all "G" injectionChanges {} {}
  have edge : ⟨1, "HeroService", "HeroesComponent", .injected⟩ ∈
      (Graph.afterChanges "G" injectionChanges).edges := by decide +kernel
  have service : ∃ n ∈ (Graph.afterChanges "G" injectionChanges).nodes, n.kind = .injectable := by
    decide +kernel
  obtain ⟨a, ha, id, stroke⟩ := relations _ edge (by decide)
  have seen := mem_map_elements_category.1 (List.mem_map_of_mem (f := colours) ha)
  rcases seen with ⟨n, -, -, same⟩ | ⟨e, -, -, free, same⟩
  · have none : value? "Stroke" a = none := congrArg (·.2.2) same
    rw [none] at stroke
    cases stroke
  · have name : value? "Id" a = some e.relation.name := congrArg (·.1) same
    rw [id] at name
    have injected := Relation.name_injective (Option.some.inj name)
    obtain ⟨n, hn, kind⟩ := service
    exact free injected.symm n hn kind

end Dgml

end AngularAtlas
