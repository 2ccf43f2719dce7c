import AngularAtlas.Export.Dot
import AngularAtlas.Proofs.Graph.Requests
import AngularAtlas.Proofs.Text.Search
import AngularAtlas.Proofs.Text.Word

/-!
What the identifiers of a DOT document tell apart. Main statement: different nodes have different
identifiers, and the edges can be read from the identifiers on their lines, exactly if no two nodes
have ids that differ in underscores and characters outside of words alone.
-/

namespace AngularAtlas

namespace Graph

/-- The nodes of a graph with a single edge between them. -/
def withEdge (g : Graph) (source target : String) : Graph :=
  (g.nodes.foldl addNode { name := g.name }).addEdge source target .unspecified

variable {g : Graph} {source target : String}

theorem collects_withEdge (hs : source ∈ g.ids) (ht : target ∈ g.ids) :
    (g.withEdge source target).Collects g.nodes [⟨source, target, .unspecified⟩] := by
  have plain := (collects_empty g.name).foldl_addNode g.nodes
  exact plain.addEdge (l := ⟨source, target, .unspecified⟩) hs ht

theorem Sound.nodes_withEdge (sound : g.Sound) (hs : source ∈ g.ids) (ht : target ∈ g.ids) :
    (g.withEdge source target).nodes = g.nodes :=
  (collects_withEdge hs ht).nodes_first.eq_of_nodup sound.nodup

theorem map_ends_withEdge (hs : source ∈ g.ids) (ht : target ∈ g.ids) :
    (g.withEdge source target).edges.map (fun e => (e.source, e.target)) = [(source, target)] := by
  rw [← map_ends_links,
    (collects_withEdge hs ht).links_first.eq_of_nodup (List.nodup_singleton _)]
  rfl

end Graph

namespace Dot

open Text (isWord)

/-- A character that is an underscore in an identifier. -/
def IsFiller (c : Char) : Prop := c = '_' ∨ isWord c = false

/-- Texts of one length that differ in characters alone which are underscores in identifiers. -/
def Alike (a b : String) : Prop :=
  List.Forall₂ (fun c d => c = d ∨ IsFiller c ∧ IsFiller d) a.toList b.toList

/-- The two identifiers at the start of the line of an edge. -/
def lineEnds? (line : String) : Option (String × String) := do
  let rest ← " -> ".toList.isPrefixOf? (line.toList.dropWhile isWord)
  return (String.ofList (line.toList.takeWhile isWord), String.ofList (rest.takeWhile isWord))

/-- The lines of the edges, which come last in a document. -/
def edgeLines (s : GraphStyle) (g : Graph) : List String := g.edges.map (edgeStatement s)

def drawnEnds (s : GraphStyle) (g : Graph) : List (Option (String × String)) :=
  (edgeLines s g).map lineEnds?

/-- Different nodes have different identifiers. -/
def TellsNodes (g : Graph) : Prop :=
  ∀ m ∈ g.nodes, ∀ n ∈ g.nodes, identifier m.id = identifier n.id → m = n

/-- Whatever edges there are between the nodes, and in whatever style they are drawn, they can be
known from the identifiers on their lines. -/
def TellsEdges (g : Graph) : Prop :=
  ∀ h h' : Graph, h.Sound → h'.Sound → h.nodes = g.nodes → h'.nodes = g.nodes →
    ∀ s s', drawnEnds s h = drawnEnds s' h' →
      h.edges.map (fun e => (e.source, e.target)) = h'.edges.map fun e => (e.source, e.target)

def NoneAlike (g : Graph) : Prop :=
  ∀ m ∈ g.nodes, ∀ n ∈ g.nodes, Alike m.id n.id → m = n

variable {a b : String} {g h : Graph} {c d : Char}

theorem word_or_underscore_eq_iff :
    (if isWord c then c else '_') = (if isWord d then d else '_') ↔
      c = d ∨ IsFiller c ∧ IsFiller d := by
  have underscore : isWord '_' = true := by decide
  unfold IsFiller
  split <;> split <;> grind

theorem identifier_eq_iff : identifier a = identifier b ↔ Alike a b := by
  rw [identifier, identifier, String.ofList_inj, ← List.forall₂_eq_eq_eq, List.forall₂_map_left_iff,
    List.forall₂_map_right_iff]
  simp only [word_or_underscore_eq_iff, Alike]

theorem isWord_of_mem_identifier (mem : c ∈ (identifier a).toList) : isWord c = true := by
  rw [identifier, String.toList_ofList, List.mem_map] at mem
  obtain ⟨d, -, rfl⟩ := mem
  split
  case isTrue hd => exact hd
  case isFalse => decide

/-- Ids that are words are their own identifiers. -/
theorem identifier_of_word (word : ∀ c ∈ a.toList, isWord c = true) : identifier a = a := by
  have same : (a.toList.map fun c => if isWord c then c else '_') = a.toList.map id :=
    List.map_congr_left fun c mem => if_pos (word c mem)
  rw [identifier, same, List.map_id, String.ofList_toList]

theorem isWord_head?_cons {rest : List Char} (none : isWord c = false) :
    ∀ d ∈ (c :: rest).head?, isWord d = false := by
  intro d mem
  rwa [← Option.some.inj mem]

theorem lineEnds?_edgeStatement (s : GraphStyle) (e : Edge) :
    lineEnds? (edgeStatement s e) = some (identifier e.source, identifier e.target) := by
  obtain ⟨rest, line, stop⟩ : ∃ rest, (edgeStatement s e).toList =
      (identifier e.source).toList ++ (" -> ".toList ++ ((identifier e.target).toList ++ rest)) ∧
        ∀ c ∈ rest.head?, isWord c = false := by
    by_cases plain : s.edgeColor e.relation = ""
    · exact ⟨[';'], by simp [edgeStatement, plain], isWord_head?_cons (by decide)⟩
    · exact ⟨" [color=\"".toList ++ (s.edgeColor e.relation).toList ++ "\"];".toList,
        by simp [edgeStatement, plain], isWord_head?_cons (by decide)⟩
  have arrow : ∀ c ∈ (" -> ".toList ++ ((identifier e.target).toList ++ rest)).head?,
      isWord c = false := isWord_head?_cons (by decide)
  have source := fun c => isWord_of_mem_identifier (c := c) (a := e.source)
  have target := fun c => isWord_of_mem_identifier (c := c) (a := e.target)
  rw [lineEnds?, line, Text.takeWhile_append_of_stop source arrow,
    Text.dropWhile_append_of_stop source arrow, Text.isPrefixOf?_append_self]
  simp [Text.takeWhile_append_of_stop target stop]

theorem drawnEnds_eq (s : GraphStyle) (g : Graph) :
    drawnEnds s g = (g.edges.map fun e => (e.source, e.target)).map fun ends =>
      some (identifier ends.1, identifier ends.2) := by
  simp only [drawnEnds, edgeLines, List.map_map, Function.comp_def, lineEnds?_edgeStatement]

theorem exists_document_eq (s : GraphStyle) (g : Graph) : ∃ front,
    document s g = front ++ "\n   ".intercalate (edgeLines s g) ++ "\n\x7d" :=
  ⟨_, rfl⟩

/-- The id of the node that an identifier stands for. -/
def idOf? (g : Graph) (name : String) : Option String := g.ids.find? (identifier · == name)

theorem NoneAlike.idOf?_identifier (none : NoneAlike g) (mem : a ∈ g.ids) :
    idOf? g (identifier a) = some a := by
  refine (find?_key_eq_some_iff fun b hb c hc same => ?_).2 mem
  obtain ⟨m, hm, rfl⟩ := List.mem_map.1 hb
  obtain ⟨n, hn, rfl⟩ := List.mem_map.1 hc
  rw [none m hm n hn (identifier_eq_iff.1 same)]

theorem tellsNodes_iff : TellsNodes g ↔ NoneAlike g := by
  simp only [TellsNodes, NoneAlike, identifier_eq_iff]

/-- The ids of the nodes can be looked up by the identifiers on the lines of edges. -/
theorem NoneAlike.map_drawnEnds (none : NoneAlike g) (sound : h.Sound) (nodes : h.nodes = g.nodes)
    (s : GraphStyle) :
    (drawnEnds s h).map (fun ends => ends.map (Prod.map (idOf? g) (idOf? g))) =
      (h.edges.map fun e => (e.source, e.target)).map fun ends => some (ends.map some some) := by
  have ids : h.ids = g.ids := congrArg (List.map Node.id) nodes
  rw [drawnEnds_eq, List.map_map, List.map_map, List.map_map]
  refine List.map_congr_left fun e mem => ?_
  have source := none.idOf?_identifier (ids ▸ sound.source_mem e mem)
  have target := none.idOf?_identifier (ids ▸ sound.target_mem e mem)
  simp [source, target]

theorem NoneAlike.tellsEdges (none : NoneAlike g) : TellsEdges g := by
  intro h h' sound sound' nodes nodes' s s' same
  have both := congrArg (List.map fun ends => ends.map (Prod.map (idOf? g) (idOf? g))) same
  rw [none.map_drawnEnds sound nodes, none.map_drawnEnds sound' nodes'] at both
  refine List.map_injective_iff.2 (fun ends ends' same => ?_) both
  simpa [Prod.ext_iff] using same

theorem noneAlike_of_tellsEdges (sound : g.Sound) (tells : TellsEdges g) : NoneAlike g := by
  intro m hm n hn alike
  have hm' : m.id ∈ g.ids := List.mem_map_of_mem hm
  have hn' : n.id ∈ g.ids := List.mem_map_of_mem hn
  have loop := Graph.map_ends_withEdge hm' hm'
  have link := Graph.map_ends_withEdge hm' hn'
  -- a loop and a link to the other node have the same line
  have drawn : drawnEnds {} (g.withEdge m.id m.id) = drawnEnds {} (g.withEdge m.id n.id) := by
    rw [drawnEnds_eq, drawnEnds_eq, loop, link, List.map_singleton,
      List.map_singleton, identifier_eq_iff.2 alike]
  have same := tells (g.withEdge m.id m.id) (g.withEdge m.id n.id)
    (Graph.collects_withEdge hm' hm').sound (Graph.collects_withEdge hm' hn').sound
    (sound.nodes_withEdge hm' hm') (sound.nodes_withEdge hm' hn') _ _ drawn
  rw [loop, link] at same
  exact sound.eq_of_id_eq hm hn (by simpa using same)

theorem noneAlike_of_word (sound : g.Sound)
    (word : ∀ n ∈ g.nodes, ∀ c ∈ n.id.toList, isWord c = true) : NoneAlike g := by
  intro m hm n hn alike
  have same := identifier_eq_iff.2 alike
  rw [identifier_of_word (word m hm), identifier_of_word (word n hn)] at same
  exact sound.eq_of_id_eq hm hn same

/-- The identifiers of a document tell its nodes apart, and those on the lines of its edges tell the
edges apart, exactly if no two nodes have ids that are alike. Ids of word characters never are. -/
theorem tells_iff_noneAlike (sound : g.Sound) :
    (∀ s, ∃ front, document s g = front ++ "\n   ".intercalate (edgeLines s g) ++ "\n\x7d") ∧
    (TellsNodes g ↔ NoneAlike g) ∧ (TellsEdges g ↔ NoneAlike g) ∧
    ((∀ n ∈ g.nodes, ∀ c ∈ n.id.toList, isWord c = true) → NoneAlike g) :=
  ⟨fun s => exists_document_eq s g, tellsNodes_iff,
    ⟨noneAlike_of_tellsEdges sound, NoneAlike.tellsEdges⟩, noneAlike_of_word sound⟩

/-- Ids that are no words, two of which differ in one character. -/
def heroIds : List Graph.Change :=
  [.addNode (.named "app-hero" .component), .addNode (.named "app-zero" .component),
    .addNode (.named "RouterModule.forRoot(routes)" .module)]

theorem tells_iff_noneAlike_heroIds :
    (Graph.afterChanges "G" heroIds).Sound ∧ NoneAlike (.afterChanges "G" heroIds) ∧
      TellsNodes (.afterChanges "G" heroIds) ∧ TellsEdges (.afterChanges "G" heroIds) := by
  have sound := Graph.sound_afterChanges "G" heroIds
  obtain ⟨-, nodes, edges, -⟩ := tells_iff_noneAlike sound
  have distinct : ((Graph.afterChanges "G" heroIds).nodes.map (identifier ·.id)).Nodup := by
    decide +kernel
  have tells : TellsNodes (.afterChanges "G" heroIds) :=
    fun m hm n hn => List.inj_on_of_nodup_map distinct hm hn
  exact ⟨sound, nodes.1 tells, tells, edges.2 (nodes.1 tells)⟩

def TellsAll : Prop :=
  ∀ (name : String) (changes : List Graph.Change),
    TellsNodes (.afterChanges name changes) ∧ TellsEdges (.afterChanges name changes)

/-- Two selectors with the same identifier. -/
def twins : List Graph.Change :=
  [.addNode (.named "app-root" .component), .addNode (.named "app_root" .component)]

/-- A loop is drawn like a link to the twin. -/
theorem not_tellsAll : ¬ TellsAll ∧
    document {} (.afterChanges "G" (twins ++ [.addEdge "app-root" "app-root" .uses])) =
      document {} (.afterChanges "G" (twins ++ [.addEdge "app-root" "app_root" .uses])) := by
  refine ⟨fun all => ?_, by decide +kernel⟩
  have same := (all "G" twins).1 (.named "app-root" .component) (.head _)
    (.named "app_root" .component) (.tail _ (.head _)) (by decide +kernel)
  exact absurd (congrArg Node.id same) (by decide)

end Dot

end AngularAtlas
