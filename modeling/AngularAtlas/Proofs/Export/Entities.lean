import AngularAtlas.Proofs.Export.Markup

namespace AngularAtlas.Markup

variable {table : List (Char × List Char)} {c : Char} {s word : List Char}

/-- A text with a word in the place of each occurrence of a character. -/
def replaceAll (c : Char) (word s : List Char) : List Char :=
  s.flatMap fun d => if d = c then word else [d]

/-- A text after the replacements of a table, each of which sees what those before it have
written. -/
def replaceEach (table : List (Char × List Char)) (s : List Char) : List Char :=
  table.foldl (fun s entry => replaceAll entry.1 entry.2 s) s

/-- The word for a single character; without an entry in the table it stays as it is. -/
def substitute (table : List (Char × List Char)) (c : Char) : List Char :=
  (table.lookup c).getD [c]

theorem substitute_cons (entry : Char × List Char) (table : List (Char × List Char)) (c : Char) :
    substitute (entry :: table) c = if c = entry.1 then entry.2 else substitute table c := by
  rw [substitute, List.lookup_cons]
  by_cases here : c = entry.1
  · rw [if_pos here, beq_iff_eq.2 here]
    rfl
  · rw [if_neg here, beq_false_of_ne here]
    rfl

/-- A word for a character comes from the table, or there is no entry. -/
theorem substitute_cases (table : List (Char × List Char)) (c : Char) :
    (∃ entry ∈ table, substitute table c = entry.2) ∨ ∀ entry ∈ table, entry.1 ≠ c := by
  induction table with
  | nil => exact .inr (List.forall_mem_nil _)
  | cons entry table ih =>
    rw [substitute_cons]
    by_cases here : c = entry.1
    · exact .inl ⟨entry, List.mem_cons_self, if_pos here⟩
    · rw [if_neg here]
      rcases ih with ⟨other, mem, same⟩ | absent
      · exact .inl ⟨other, List.mem_cons_of_mem _ mem, same⟩
      · exact .inr (List.forall_mem_cons.2 ⟨Ne.symm here, absent⟩)

theorem substitute_of_not_mem (absent : ∀ entry ∈ table, entry.1 ≠ c) :
    substitute table c = [c] := by
  induction table with
  | nil => rfl
  | cons entry table ih =>
    obtain ⟨here, later⟩ := List.forall_mem_cons.1 absent
    rw [substitute_cons, if_neg (Ne.symm here), ih later]

theorem flatMap_substitute_eq_self (absent : ∀ entry ∈ table, entry.1 ∉ word) :
    word.flatMap (substitute table) = word := by
  have same : ∀ c ∈ word, substitute table c = [c] := by
    intro c mem
    refine substitute_of_not_mem fun entry listed => ?_
    rintro rfl
    exact absent entry listed mem
  rw [List.flatMap_congr same, List.flatMap_singleton']

/-- Replacements act on each character for itself if none finds a character that one before it has
written. -/
theorem replaceEach_eq_flatMap (apart : table.Pairwise fun first later => later.1 ∉ first.2)
    (s : List Char) : replaceEach table s = s.flatMap (substitute table) := by
  induction table generalizing s with
  | nil => exact (List.flatMap_singleton' s).symm
  | cons entry table ih =>
    obtain ⟨untouched, apart⟩ := List.pairwise_cons.1 apart
    have later : replaceEach (entry :: table) s =
        replaceEach table (replaceAll entry.1 entry.2 s) := rfl
    rw [later, ih apart, replaceAll, List.flatMap_assoc]
    refine List.flatMap_congr fun c _ => ?_
    rw [substitute_cons]
    split
    case isTrue => exact flatMap_substitute_eq_self untouched
    case isFalse => exact List.flatMap_singleton _ _

/-- The characters that are written as entities. The ampersand comes first. -/
def entities : List (Char × List Char) :=
  [('&', "&amp;".toList), ('"', "&quot;".toList), ('\'', "&apos;".toList), ('<', "&lt;".toList),
    ('>', "&gt;".toList)]

theorem substitute_entities (c : Char) : substitute entities c = Dgml.escapeChar c := by
  unfold Dgml.escapeChar
  split
  case h_6 ampersand quote apostrophe less greater =>
    refine substitute_of_not_mem ?_
    simp only [entities, List.forall_mem_cons]
    exact ⟨Ne.symm ampersand, Ne.symm quote, Ne.symm apostrophe, Ne.symm less, Ne.symm greater,
      List.forall_mem_nil _⟩
  all_goals rfl

theorem toList_escape (s : String) : (Dgml.escape s).toList = replaceEach entities s.toList := by
  have apart : entities.Pairwise fun first later => later.1 ∉ first.2 := by decide
  rw [replaceEach_eq_flatMap apart, Dgml.escape, String.toList_ofList]
  exact List.flatMap_congr fun c _ => (substitute_entities c).symm

/-- Each ampersand in a text starts one of the entities. -/
def EachStartsEntity (s : List Char) : Prop :=
  ∀ after, '&' :: after <:+ s → ∃ entity ∈ entities, entity.2 <+: '&' :: after

theorem EachStartsEntity.append (h : EachStartsEntity s) (absent : '&' ∉ word) :
    EachStartsEntity (word ++ s) := by
  induction word with
  | nil => exact h
  | cons c word ih =>
    rw [List.mem_cons, not_or] at absent
    intro after place
    rcases List.suffix_cons_iff.1 place with whole | place
    · exact absurd (List.cons.inj whole).1 absent.1
    · exact ih absent.2 after place

theorem EachStartsEntity.escapeChar (h : EachStartsEntity s) (c : Char) :
    EachStartsEntity (Dgml.escapeChar c ++ s) := by
  have shape : ∀ entity ∈ entities, entity.2.head? = some '&' ∧ '&' ∉ entity.2.tail := by decide
  rw [← substitute_entities]
  rcases substitute_cases entities c with ⟨entity, mem, written⟩ | absent
  · obtain ⟨starts, once⟩ := shape entity mem
    obtain ⟨word, parts⟩ := List.head?_eq_some_iff.1 starts
    rw [parts] at once
    rw [written, parts]
    intro after place
    rcases List.suffix_cons_iff.1 place with whole | place
    · exact ⟨entity, mem, by rw [whole, parts]; exact List.prefix_append _ s⟩
    · exact h.append once after place
  · have other : '&' ∉ [c] := by
      rw [List.mem_singleton]
      exact absent ('&', "&amp;".toList) List.mem_cons_self
    rw [substitute_of_not_mem absent]
    exact h.append other

theorem eachStartsEntity_escape (s : String) : EachStartsEntity (Dgml.escape s).toList := by
  rw [Dgml.escape, String.toList_ofList]
  induction s.toList with
  | nil =>
    intro after place
    exact absurd (List.suffix_nil.1 place) (List.cons_ne_nil _ _)
  | cons c chars ih =>
    rw [List.flatMap_cons]
    exact ih.escapeChar c

/-- Reading the entities of an escaped text from left to right gives the text back, so that no two
texts are escaped to the same. An escaped text is written by five replacements one after the other,
has no quotation mark, apostrophe or angle bracket in it, and each of its ampersands starts an
entity. -/
theorem escape_readable :
    (∀ s : String, String.ofList (unescape (Dgml.escape s).toList) = s ∧
      (Dgml.escape s).toList = replaceEach entities s.toList ∧
      (∀ c ∈ ['"', '\'', '<', '>'], c ∉ (Dgml.escape s).toList) ∧
      ∀ after, '&' :: after <:+ (Dgml.escape s).toList →
        ∃ entity ∈ entities, entity.2 <+: '&' :: after) ∧
      Function.Injective Dgml.escape := by
  refine ⟨fun s => ⟨unescape_escape s, toList_escape s, fun c mark => not_mem_escape mark s,
    eachStartsEntity_escape s⟩, fun s t same => ?_⟩
  rw [← unescape_escape s, same, unescape_escape]

/-- A text that has an entity in it before it is escaped. -/
theorem escape_readable_entity :
    Dgml.escape "a & \"b\" &lt;" = "a &amp; &quot;b&quot; &amp;lt;" ∧
      String.ofList (unescape "a &amp; &quot;b&quot; &amp;lt;".toList) = "a & \"b\" &lt;" ∧
      '"' ∉ "a &amp; &quot;b&quot; &amp;lt;".toList ∧
      ∃ entity ∈ entities, entity.2 <+: "&amp;lt;".toList := by
  have written : Dgml.escape "a & \"b\" &lt;" = "a &amp; &quot;b&quot; &amp;lt;" := by decide
  obtain ⟨read, -, absent, starts⟩ := escape_readable.1 "a & \"b\" &lt;"
  rw [written] at read absent starts
  exact ⟨written, read, absent '"' (by decide), starts "amp;lt;".toList (by decide)⟩

end AngularAtlas.Markup
