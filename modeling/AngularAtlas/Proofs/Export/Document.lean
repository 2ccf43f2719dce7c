import AngularAtlas.Proofs.Distinct
import AngularAtlas.Proofs.Export.Markup
import AngularAtlas.Proofs.Graph.History

/-!
What a DGML document shows of a graph. Main statement: reading the document back gives one node
for each id and one link for each pair of ids, case aside, namely the first, and the ends of all
links are among the nodes.
-/

namespace AngularAtlas.Dgml

open Markup

section FirstBy

variable {α κ : Type} [BEq κ] [LawfulBEq κ] {key : α → κ} {seen : List κ} {items : List α} {a : α}

theorem firstBy_concat_of_mem (known : key a ∈ seen ++ items.map key) :
    firstBy key seen (items ++ [a]) = firstBy key seen items := by
  induction items generalizing seen with
  | nil =>
    have : key a ∈ seen := by simpa using known
    simp [firstBy, this]
  | cons b items ih =>
    by_cases hb : key b ∈ seen
    · have known : key a ∈ seen ++ items.map key := by
        simp only [List.map_cons, List.mem_append, List.mem_cons] at known ⊢
        rcases known with h | h | h
        · exact .inl h
        · exact .inl (h ▸ hb)
        · exact .inr h
      simpa [firstBy, hb] using ih known
    · have known : key a ∈ (key b :: seen) ++ items.map key := by
        simp only [List.map_cons, List.mem_append, List.mem_cons] at known ⊢
        rcases known with h | h | h
        · exact .inl (.inr h)
        · exact .inl (.inl h)
        · exact .inr h
      simpa [firstBy, hb] using ih known

theorem firstBy_concat_of_not_mem (new : key a ∉ seen ++ items.map key) :
    firstBy key seen (items ++ [a]) = firstBy key seen items ++ [a] := by
  induction items generalizing seen with
  | nil =>
    have : key a ∉ seen := by simpa using new
    simp [firstBy, this]
  | cons b items ih =>
    simp only [List.map_cons, List.mem_append, List.mem_cons, not_or] at new
    obtain ⟨fresh, other, later⟩ := new
    by_cases hb : key b ∈ seen
    · have new : key a ∉ seen ++ items.map key := by simp [fresh, later]
      simpa [firstBy, hb] using ih new
    · have new : key a ∉ (key b :: seen) ++ items.map key := by simp [other, fresh, later]
      simpa [firstBy, hb] using ih new

theorem firstOfEach_firstBy (key : α → κ) (items : List α) :
    FirstOfEach key items (firstBy key [] items) := by
  induction items using List.reverseRecOn with
  | nil => exact .nil key
  | append_singleton items a ih =>
    by_cases known : key a ∈ items.map key
    · rw [firstBy_concat_of_mem (by simpa using known)]
      exact ih.concat_of_mem known
    · rw [firstBy_concat_of_not_mem (by simpa using known)]
      exact ih.concat_of_not_mem known

end FirstBy

section Pieces

variable {β : Type} {name other : String} {f : Attributes → β} {found : List β}
  {attrs more : Attributes}

theorem toList_element (name : String) (attrs : Attributes) :
    (element name attrs).toList =
      "    ".toList ++ ('<' :: name.toList ++ (written attrs ++ " />\n".toList)) := by
  simp [element, String.toList_join, written, List.flatMap_map]

theorem not_mem_written_append (hn : '<' ∉ name.toList) (keys : ∀ a ∈ attrs, '<' ∉ a.1.toList) :
    '<' ∉ name.toList ++ (written attrs ++ " />\n".toList) := by
  have := not_mem_written keys
  simp [hn, this]

theorem reads_written {b : β} (hn : '<' ∉ name.toList) (keys : ∀ a ∈ attrs, '<' ∉ a.1.toList)
    (hf : ∀ rest, f (attributes (written attrs ++ (" />\n".toList ++ rest))) = b) :
    Reads name f (element name attrs).toList [b] := by
  have blank : (written attrs ++ " />\n".toList).head? = some ' ' := by
    cases attrs <;> rfl
  rw [toList_element]
  refine (reads_of_not_mem (by decide)).append (reads_element ?_ blank fun rest => ?_)
  · exact not_mem_written_append hn keys
  · rw [List.append_assoc]
    exact hf rest

theorem reads_written_other (apart : Apart (startOf name) ('<' :: other.toList))
    (ho : '<' ∉ other.toList) (keys : ∀ a ∈ attrs, '<' ∉ a.1.toList) :
    Reads name f (element other attrs).toList [] := by
  rw [toList_element]
  exact (reads_of_not_mem (by decide)).append
    (reads_other apart (not_mem_written_append ho keys))

theorem reads_part {elements : List String} (tag : String) (ht : '<' ∉ tag.toList)
    (opened : Apart (startOf name) ('<' :: (tag.toList ++ ['>'])))
    (closed : Apart (startOf name) ('<' :: "/".toList))
    (inside : Reads name f (elements.flatMap String.toList) found) :
    Reads name f (part tag elements).toList found := by
  have text : (part tag elements).toList =
      "  ".toList ++ (('<' :: (tag.toList ++ ['>']) ++ "\n".toList) ++
        (elements.flatMap String.toList ++
          ("  ".toList ++ ('<' :: "/".toList ++ (tag.toList ++ ">\n".toList))))) := by
    simp [part, String.toList_join]
  have front : Reads name f ('<' :: (tag.toList ++ ['>']) ++ "\n".toList) [] :=
    reads_other opened (by simp [ht])
  have back : Reads name f ('<' :: "/".toList ++ (tag.toList ++ ">\n".toList)) [] :=
    reads_other closed (by simp [ht])
  rw [text]
  have blanks : Reads name f "  ".toList [] := reads_of_not_mem (by decide)
  have all := blanks.append (front.append (inside.append (blanks.append back)))
  simpa using all

end Pieces

section Document

variable {β : Type} {name : String} {f : Attributes → β} {nodes links found : List β}
  {s : GraphStyle} {g : Graph} {n : Node} {e : Edge}

/-- The lines before the parts of a document. -/
def headText (o : Options) : String :=
  "<?xml version=\"1.0\" encoding=\"utf-8\"?>\n" ++
  "<DirectedGraph GraphDirection=\"" ++ escape o.direction ++ "\" Layout=\"" ++ escape o.layout ++
    "\" ZoomLevel=\"" ++ escape o.zoomLevel ++ "\" xmlns=\"" ++ xmlNamespace ++ "\">\n"

def nodesText (s : GraphStyle) (g : Graph) : String :=
  part "Nodes" ((shownNodes g).map fun n => element "Node" (nodeAttributes s n))

def linksText (g : Graph) : String :=
  part "Links" ((shownEdges g).map fun e => element "Link" (linkAttributes e))

def categoriesText (s : GraphStyle) (g : Graph) : String :=
  part "Categories" ((categories s g).map categoryElement)

def propertiesText : String :=
  part "Properties" (properties.map fun p => element "Property" [("Id", p.1), ("DataType", p.2)])

theorem document_eq (o : Options) (s : GraphStyle) (g : Graph) :
    document o s g = headText o ++ nodesText s g ++ linksText g ++ categoriesText s g ++
      propertiesText ++ "</DirectedGraph>\n" := by
  unfold document headText nodesText linksText categoriesText propertiesText
  rfl

/-- What stands behind the opening of a tag of a document, other than of a node or a link. -/
def otherTags : List (List Char) :=
  ["?", "DirectedGraph", "/", "Category", "Property"].map String.toList ++
    ["Nodes", "Links", "Categories", "Properties"].map fun tag => tag.toList ++ ['>']

theorem reads_headText (apart : ∀ tag ∈ otherTags, Apart (startOf name) ('<' :: tag))
    (o : Options) : Reads name f (headText o).toList [] := by
  have declaration : Reads name f "<?xml version=\"1.0\" encoding=\"utf-8\"?>\n".toList [] := by
    have text : "<?xml version=\"1.0\" encoding=\"utf-8\"?>\n".toList =
        '<' :: "?".toList ++ "xml version=\"1.0\" encoding=\"utf-8\"?>\n".toList := by
      decide +kernel
    rw [text]
    exact reads_other (apart _ (by simp [otherTags])) (by decide +kernel)
  have opening : Reads name f "<DirectedGraph GraphDirection=\"".toList [] := by
    have text : "<DirectedGraph GraphDirection=\"".toList =
        '<' :: "DirectedGraph".toList ++ " GraphDirection=\"".toList := by
      decide +kernel
    rw [text]
    exact reads_other (apart _ (by simp [otherTags])) (by decide +kernel)
  have value : ∀ t, Reads name f (escape t).toList [] :=
    fun t => reads_of_not_mem (not_mem_escape (by decide) t)
  have plain : ∀ t : String, '<' ∉ t.toList → Reads name f t.toList [] := fun t => reads_of_not_mem
  have direction := (declaration.append_text opening).append_text (value o.direction)
  have layout := (direction.append_text (plain "\" Layout=\"" (by decide))).append_text
    (value o.layout)
  have zoom := (layout.append_text (plain "\" ZoomLevel=\"" (by decide))).append_text
    (value o.zoomLevel)
  have xmlns := (zoom.append_text (plain "\" xmlns=\"" (by decide))).append_text
    (plain xmlNamespace (by decide +kernel))
  exact xmlns.append_text (plain "\">\n" (by decide))

def categoryAttributes (c : Category) : Attributes :=
  [("Id", c.id), ("Label", c.id)] ++
    (if c.background = "" then [] else [("Background", c.background)]) ++
    (if c.stroke = "" then [] else [("Stroke", c.stroke)]) ++
    [("IsTag", "True")]

theorem plain_categoryAttributes (c : Category) : Plain (categoryAttributes c) := by
  intro a ha
  have key : a.1 ∈ ["Id", "Label", "Background", "Stroke", "IsTag"] := by
    unfold categoryAttributes at ha
    split at ha <;> split at ha <;> simp at ha ⊢ <;> grind
  revert key
  generalize a.1 = k
  revert k
  decide

theorem reads_categoriesText_other (apart : ∀ tag ∈ otherTags, Apart (startOf name) ('<' :: tag))
    (s : GraphStyle) (g : Graph) : Reads name f (categoriesText s g).toList [] := by
  have inside : ∀ c ∈ categories s g, Reads name f (categoryElement c).toList [] := by
    intro c _
    unfold categoryElement
    split
    case isTrue => exact reads_of_not_mem (by decide)
    case isFalse =>
      exact reads_written_other (apart _ (by simp [otherTags])) (by decide)
        (plain_categoryAttributes c).keys
  refine reads_part "Categories" (by decide) (apart _ (by simp [otherTags]))
    (apart _ (by simp [otherTags])) ?_
  rw [List.flatMap_map]
  exact reads_flatMap_nil inside

theorem reads_propertiesText (apart : ∀ tag ∈ otherTags, Apart (startOf name) ('<' :: tag)) :
    Reads name f propertiesText.toList [] := by
  have inside : ∀ p ∈ properties, Reads name f
      (element "Property" [("Id", p.1), ("DataType", p.2)]).toList [] := by
    intro p _
    refine reads_written_other (apart _ (by simp [otherTags])) (by decide) ?_
    simp only [List.forall_mem_cons]
    decide
  refine reads_part "Properties" (by decide) (apart _ (by simp [otherTags]))
    (apart _ (by simp [otherTags])) ?_
  rw [List.flatMap_map]
  exact reads_flatMap_nil inside

theorem reads_nodesText (apart : ∀ tag ∈ otherTags, Apart (startOf name) ('<' :: tag))
    (h : Reads name f ((shownNodes g).flatMap fun n => (element "Node" (nodeAttributes s n)).toList)
      found) : Reads name f (nodesText s g).toList found := by
  refine reads_part "Nodes" (by decide) (apart _ (by simp [otherTags]))
    (apart _ (by simp [otherTags])) ?_
  rw [List.flatMap_map]
  exact h

theorem reads_linksText (apart : ∀ tag ∈ otherTags, Apart (startOf name) ('<' :: tag))
    (h : Reads name f ((shownEdges g).flatMap fun e => (element "Link" (linkAttributes e)).toList)
      found) : Reads name f (linksText g).toList found := by
  refine reads_part "Links" (by decide) (apart _ (by simp [otherTags]))
    (apart _ (by simp [otherTags])) ?_
  rw [List.flatMap_map]
  exact h

/-- All elements of a document that are neither categories nor properties are in two of its
parts. -/
theorem reads_document (apart : ∀ tag ∈ otherTags, Apart (startOf name) ('<' :: tag))
    (hn : Reads name f (nodesText s g).toList nodes) (hl : Reads name f (linksText g).toList links)
    (o : Options) : Reads name f (document o s g).toList (nodes ++ links) := by
  have last : Reads name f "</DirectedGraph>\n".toList [] := by
    have text : "</DirectedGraph>\n".toList = '<' :: "/".toList ++ "DirectedGraph>\n".toList := by
      decide +kernel
    rw [text]
    exact reads_other (apart _ (by simp [otherTags])) (by decide +kernel)
  have shown := ((reads_headText apart o).append_text hn).append_text hl
  have all := ((shown.append_text (reads_categoriesText_other apart s g)).append_text
    (reads_propertiesText apart)).append_text last
  rw [document_eq]
  simpa only [List.nil_append, List.append_nil] using all

theorem exists_nodeAttributes (s : GraphStyle) (n : Node) :
    ∃ more, nodeAttributes s n = [("Label", s.label n.name), ("Id", n.id)] ++ more ∧
      ((∀ a ∈ n.attributes, '<' ∉ a.1.toList) → ∀ a ∈ more, '<' ∉ a.1.toList) := by
  have text := nodeAttributes.eq_1 s n
  simp only [List.append_assoc] at text
  refine ⟨_, text, fun keys => ?_⟩
  simp only [List.forall_mem_append]
  refine ⟨?_, ?_, ?_, keys⟩
  · cases boundsText? n with
    | none => exact fun _ h => nomatch h
    | some bounds =>
      simp only [List.forall_mem_cons]
      decide
  · simp only [List.forall_mem_cons]
    decide
  · cases n.file with
    | none => exact fun _ h => nomatch h
    | some file =>
      simp only [Option.map_some, Option.toList_some, List.forall_mem_cons]
      decide

theorem plain_labelled (label id : String) : Plain [("Label", label), ("Id", id)] := by
  simp only [Plain, List.forall_mem_cons]
  decide

theorem plain_linkAttributes (e : Edge) : Plain (linkAttributes e) := by
  simp only [Plain, linkAttributes, List.forall_mem_cons]
  decide

theorem keys_nodeAttributes (s : GraphStyle) (keys : ∀ a ∈ n.attributes, '<' ∉ a.1.toList) :
    ∀ a ∈ nodeAttributes s n, '<' ∉ a.1.toList := by
  obtain ⟨more, text, hm⟩ := exists_nodeAttributes s n
  rw [text, List.forall_mem_append]
  exact ⟨(plain_labelled _ _).keys, hm keys⟩

theorem reads_nodeElement (s : GraphStyle) (keys : ∀ a ∈ n.attributes, '<' ∉ a.1.toList) :
    Reads "Node" (value? "Id") (element "Node" (nodeAttributes s n)).toList [some n.id] := by
  refine reads_written (by decide) (keys_nodeAttributes s keys) fun rest => ?_
  obtain ⟨more, text, -⟩ := exists_nodeAttributes s n
  rw [text, written_append, List.append_assoc, attributes_written (plain_labelled _ _),
    value?_escaped]
  rfl

def linkEnds (a : Attributes) : Option String × Option String :=
  (value? "Source" a, value? "Target" a)

theorem reads_linkElement (e : Edge) :
    Reads "Link" linkEnds (element "Link" (linkAttributes e)).toList
      [(some e.source, some e.target)] := by
  refine reads_written (by decide) (plain_linkAttributes e).keys fun rest => ?_
  rw [linkEnds, attributes_written (plain_linkAttributes e), value?_escaped, value?_escaped]
  rfl

variable (o : Options) (s : GraphStyle) (keys : ∀ n ∈ g.nodes, ∀ a ∈ n.attributes, '<' ∉ a.1.toList)

include keys

theorem map_elements_node :
    (elements "Node" (document o s g).toList).map (value? "Id") =
      (shownNodes g).map fun n => some n.id := by
  have apart : ∀ tag ∈ otherTags, Apart (startOf "Node") ('<' :: tag) := by decide +kernel
  have nodes := reads_nodesText apart (reads_map fun n hn => reads_nodeElement s
    (keys n ((firstOfEach_firstBy _ g.nodes).mem_items hn)))
  have links : Reads "Node" (value? "Id") (linksText g).toList [] :=
    reads_linksText apart (reads_flatMap_nil fun e _ =>
      reads_written_other (by decide +kernel) (by decide) (plain_linkAttributes e).keys)
  rw [(reads_document apart nodes links o).map_elements_eq, List.append_nil]

theorem map_elements_link :
    (elements "Link" (document o s g).toList).map linkEnds =
      (shownEdges g).map fun e => (some e.source, some e.target) := by
  have apart : ∀ tag ∈ otherTags, Apart (startOf "Link") ('<' :: tag) := by decide +kernel
  have nodes : Reads "Link" linkEnds (nodesText s g).toList [] :=
    reads_nodesText apart (reads_flatMap_nil fun n hn =>
      reads_written_other (by decide +kernel) (by decide) (keys_nodeAttributes s
        (keys n ((firstOfEach_firstBy _ g.nodes).mem_items hn))))
  have links : Reads "Link" linkEnds (linksText g).toList
      ((shownEdges g).map fun e => (some e.source, some e.target)) :=
    reads_linksText apart (reads_map fun e _ => reads_linkElement e)
  rw [(reads_document apart nodes links o).map_elements_eq, List.nil_append]

end Document

section Shown

variable {g : Graph} {nodes : List Node} {links : List Edge} {n : Node} {e : Edge}

structure Shows (text : String) (g : Graph) (nodes : List Node) (links : List Edge) : Prop where
  nodes_first : FirstOfEach (fun n => foldId n.id) g.nodes nodes
  links_first : FirstOfEach (fun e => (foldId e.source, foldId e.target)) g.edges links
  node_ids : (elements "Node" text.toList).map (value? "Id") = nodes.map fun n => some n.id
  link_ends : (elements "Link" text.toList).map linkEnds =
    links.map fun e => (some e.source, some e.target)
  /-- Case aside, a link leads from one of the nodes to one of them. -/
  closed : ∀ e ∈ links, (∃ n ∈ nodes, foldId n.id = foldId e.source) ∧
    ∃ n ∈ nodes, foldId n.id = foldId e.target
  /-- Nothing is left out where ids do not differ in case only. -/
  complete : (g.nodes.map fun n => foldId n.id).Nodup → nodes = g.nodes ∧ links = g.edges

theorem exists_shown (hn : FirstOfEach (fun n => foldId n.id) g.nodes nodes) {id : String}
    (hid : id ∈ g.ids) : ∃ n ∈ nodes, foldId n.id = foldId id := by
  obtain ⟨n, mem, rfl⟩ := List.mem_map.1 hid
  have : foldId n.id ∈ nodes.map fun n => foldId n.id :=
    hn.mem_keys_iff.2 (List.mem_map.2 ⟨n, mem, rfl⟩)
  obtain ⟨m, hm, same⟩ := List.mem_map.1 this
  exact ⟨m, hm, same⟩

/-- Edges between ids that stay apart when case does not count stay apart, too. -/
theorem nodup_foldedEnds (hg : g.Sound) (distinct : (g.nodes.map fun n => foldId n.id).Nodup) :
    (g.edges.map fun e => (foldId e.source, foldId e.target)).Nodup := by
  have same : ∀ {a b}, a ∈ g.ids → b ∈ g.ids → foldId a = foldId b → a = b := by
    intro a b ha hb h
    obtain ⟨m, hm, rfl⟩ := List.mem_map.1 ha
    obtain ⟨n, hn, rfl⟩ := List.mem_map.1 hb
    rw [List.inj_on_of_nodup_map distinct hm hn h]
  refine List.Nodup.map_on ?_ hg.simple.of_map
  intro d hd e he h
  obtain ⟨source, target⟩ := Prod.mk.inj h
  have ends : (d.source, d.target) = (e.source, e.target) := by
    rw [same (hg.source_mem d hd) (hg.source_mem e he) source,
      same (hg.target_mem d hd) (hg.target_mem e he) target]
  exact List.inj_on_of_nodup_map hg.simple hd he ends

/-- A document shows the first node of each id and the first link of each pair of ids, case
aside, and nothing else as a node or as a link, whatever the names and values in it are. -/
theorem exists_shows_document (name : String) (changes : List Graph.Change) (o : Options)
    (s : GraphStyle)
    (keys : ∀ n ∈ (Graph.afterChanges name changes).nodes, ∀ a ∈ n.attributes, '<' ∉ a.1.toList) :
    ∃ nodes links, Shows (document o s (Graph.afterChanges name changes))
      (Graph.afterChanges name changes) nodes links := by
  have hg := Graph.sound_afterChanges name changes
  have hn := firstOfEach_firstBy (fun n : Node => foldId n.id)
    (Graph.afterChanges name changes).nodes
  have hl := firstOfEach_firstBy (fun e : Edge => (foldId e.source, foldId e.target))
    (Graph.afterChanges name changes).edges
  refine ⟨_, _, hn, hl, map_elements_node o s keys, map_elements_link o s keys, ?_, ?_⟩
  · intro e he
    have mem := hl.mem_items he
    exact ⟨exists_shown hn (hg.source_mem e mem), exists_shown hn (hg.target_mem e mem)⟩
  · intro distinct
    exact ⟨hn.eq_of_nodup distinct, hl.eq_of_nodup (nodup_foldedEnds hg distinct)⟩

/-- Two ids that differ in case only, and one that looks like markup. -/
def trickyChanges : List Graph.Change :=
  [.addNode (.named "App" .root), .addNode (.named "app" .component),
    .addNode (.named "\" /><Node Id=\"&amp;" .unknown),
    .setAttribute "App" "Inputs" "<Link Source=\"App\" />",
    .addEdge "App" "\" /><Node Id=\"&amp;" .uses, .addEdge "app" "\" /><Node Id=\"&amp;" .routes,
    .addEdge "app" "App" .uses]

theorem exists_shows_document_trickyChanges :
    (∀ n ∈ (Graph.afterChanges "G" trickyChanges).nodes, ∀ a ∈ n.attributes, '<' ∉ a.1.toList) ∧
    ∃ nodes links, Shows (document {} {} (Graph.afterChanges "G" trickyChanges))
        (Graph.afterChanges "G" trickyChanges) nodes links ∧
      (nodes.map fun n => foldId n.id) = ["app", "\" /><node id=\"&amp;"] ∧
      (links.map fun e => (foldId e.source, foldId e.target)) =
        [("app", "\" /><node id=\"&amp;"), ("app", "app")] := by
  have keys : ∀ n ∈ (Graph.afterChanges "G" trickyChanges).nodes, ∀ a ∈ n.attributes,
      '<' ∉ a.1.toList := by decide +kernel
  obtain ⟨nodes, links, shown⟩ := exists_shows_document "G" trickyChanges {} {} keys
  refine ⟨keys, nodes, links, shown, ?_, ?_⟩
  · rw [shown.nodes_first.keys_eq]
    decide +kernel
  · rw [shown.links_first.keys_eq]
    decide +kernel

end Shown

end AngularAtlas.Dgml
