import AngularAtlas.Proofs.Source.Literal
import AngularAtlas.Source.NgModule

namespace AngularAtlas.Source

open Text

/-- A key as it may be written, bare or in quotes. -/
inductive IsKey : List Char → Token → Prop
  | bare {key : Token} : IsKey key key
  | quoted {key : Token} {quote : Char} : isQuote quote = true →
      IsKey key (quote :: (key ++ [quote]))

/-- The tokens of a property. Its value is written with single spaces, and has commas inside of its
brackets only. -/
inductive WrittenProperty : List Char × List Char → List Token → Prop
  | intro {key value : List Char} {written : Token} : isIdentifier key = true →
      IsKey key written → value ≠ [] → collapse value = value → Nested false value →
      WrittenProperty (key, value) [written, [':'], value]

/-- The last of some properties that has one of some keys has this value. -/
def HasLast (keys : List (List Char)) (properties : List (List Char × List Char))
    (value : List Char) : Prop :=
  ∃ front key back, properties = front ++ (key, value) :: back ∧ key ∈ keys ∧
    ∀ property ∈ back, property.1 ∉ keys

variable {key written value s literal : List Char} {tokens : List Token} {comma : Bool}
  {items : List (List Token)} {keys : List (List Char)} {property : List Char × List Char}
  {properties : List (List Char × List Char)}

theorem IsKey.chars (hw : IsKey key written) (hk : isIdentifier key = true) :
    ∀ c ∈ written, isNameChar c = true ∨ isQuote c = true := by
  intro c hc
  cases hw with
  | bare => exact .inl (isNameChar_of_mem_isIdentifier hk hc)
  | quoted hq =>
    rw [List.mem_cons, List.mem_append, List.mem_singleton] at hc
    rcases hc with rfl | hc | rfl
    · exact .inr hq
    · exact .inl (isNameChar_of_mem_isIdentifier hk hc)
    · exact .inr hq

theorem IsKey.not_mem (hw : IsKey key written) (hk : isIdentifier key = true)
    {chars : List Char} (hm : chars.all (fun c => !(isNameChar c || isQuote c)) = true) :
    ∀ c ∈ written, c ∉ chars := by
  intro c hc
  have test : (isNameChar c || isQuote c) = true := by simpa using hw.chars hk c hc
  exact @not_mem_of_test c (fun c => isNameChar c || isQuote c) chars test hm

theorem IsKey.isSolid (hw : IsKey key written) (hk : isIdentifier key = true) :
    IsSolid written where
  ne_nil := by
    cases hw with
    | bare => exact (isSolid_of_isIdentifier hk).ne_nil
    | quoted => exact List.cons_ne_nil _ _
  not_blank c hc := by
    rcases hw.chars hk c hc with hc | hc
    · exact isBlank_eq_false_of_isNameChar hc
    · have quotes : c ∈ ['\'', '"', '\x60'] := by simpa [isQuote, or_assoc] using hc
      exact eq_false_of_mem quotes (by decide)

theorem IsKey.unquote_eq (hw : IsKey key written) (hk : isIdentifier key = true)
    (hs : Spaced [written] s) : unquote s = key := by
  cases hw with
  | bare => exact unquote_of_isIdentifier hk hs
  | quoted hq => exact unquote_of_isQuote hq ((IsKey.quoted hq).isSolid hk) hs

theorem IsKey.isItem (hw : IsKey key written) (hk : isIdentifier key = true) : IsItem [written] :=
  isItem_singleton (hw.isSolid hk) (hw.not_mem hk (by decide))

theorem isItem_value (ne : value ≠ []) (spacing : collapse value = value)
    (nested : Nested false value) : IsItem [value] where
  ne_nil := List.cons_ne_nil _ _
  phrases := List.forall_mem_singleton.2 (spacing ▸ isPhrase_collapse (spacing.symm ▸ ne))
  nested := by rwa [List.flatten_singleton]

theorem WrittenProperty.isItem (hw : WrittenProperty property tokens) : IsItem tokens := by
  cases hw with
  | intro hk written ne spacing nested =>
    have colon : IsItem [[':']] := isItem_of_all (by decide) (by decide)
    exact (written.isItem hk).append (colon.append (isItem_value ne spacing nested))

theorem WrittenProperty.splitProperty?_eq (hw : WrittenProperty property tokens)
    (hs : Spaced tokens s) : splitProperty? s = some property := by
  have trimmed := hs.trim hw.isItem.phrases
  cases hw with
  | @intro key value written hk hwritten ne spacing nested =>
    obtain ⟨a, b, he, ha, hb⟩ := @Spaced.exists_append_cons _ [':'] [written] [value] trimmed
    -- no bracket or colon stands in front of the colon behind the key
    have front : ∀ c ∈ a, c ∉ colonMarks := by
      intro c hc
      rcases ha.isBlank_or_mem hc with blank | mem
      · exact not_mem_of_test blank (by decide)
      · exact hwritten.not_mem hk (by decide) c (by simpa using mem)
    have phrase := (isItem_value ne spacing nested).phrases value List.mem_cons_self
    rw [List.singleton_append] at he
    simp only [splitProperty?, he, head?_colonSplits front, hwritten.unquote_eq hk ha,
      hb.trim_eq phrase]

theorem forall_isItem_of_written (hw : List.Forall₂ WrittenProperty properties items) :
    ∀ item ∈ items, IsItem item := by
  intro item mem
  obtain ⟨_, -, written⟩ := exists_of_mem_forall₂ hw mem
  exact written.isItem

theorem map_splitProperty?_elements (hw : List.Forall₂ WrittenProperty properties items)
    (hs : Spaced (separated comma items) s) :
    (elements s).map splitProperty? = properties.map some := by
  have pieces := forall₂_elements (forall_isItem_of_written hw) hs
  generalize elements s = found at pieces
  clear hs
  induction hw generalizing found with
  | nil =>
    cases pieces
    rfl
  | cons written _ ih =>
    cases pieces with
    | cons spaced pieces =>
      rw [List.map_cons, List.map_cons, written.splitProperty?_eq spaced, ih _ pieces]

theorem objectProperties?_of_written (hw : List.Forall₂ WrittenProperty properties items)
    (hs : Spaced (bracketed '\x7b' '\x7d' (separated comma items)) literal) :
    objectProperties? literal = some properties := by
  have body : IsBody (separated comma items) := isBody_separated (forall_isItem_of_written hw)
  obtain ⟨inside, rest, head, closed, spaced⟩ := exists_balanced?_trim isPair_curly body hs
  have read : (elements inside).filterMap splitProperty? = properties := by
    have := congrArg (List.filterMap id) (map_splitProperty?_elements hw spaced)
    rwa [List.filterMap_map, List.filterMap_map, Function.id_comp, Function.id_comp,
      List.filterMap_some] at this
  simp only [objectProperties?, head, closed, if_pos, Option.map_some, read]

theorem exists_hasLast (h : ∃ property ∈ properties, property.1 ∈ keys) :
    ∃ value, HasLast keys properties value := by
  induction properties with
  | nil =>
    obtain ⟨property, mem, -⟩ := h
    cases mem
  | cons first properties ih =>
    by_cases later : ∃ property ∈ properties, property.1 ∈ keys
    · obtain ⟨value, front, key, back, rfl, hk, hb⟩ := ih later
      exact ⟨value, first :: front, key, back, rfl, hk, hb⟩
    · obtain ⟨property, mem, hk⟩ := h
      rcases List.mem_cons.1 mem with rfl | mem
      · exact ⟨property.2, [], property.1, properties, rfl, hk, fun other mem hk' =>
          later ⟨other, mem, hk'⟩⟩
      · exact absurd ⟨property, mem, hk⟩ later

/-- What only properties with some keys change, is as the last of them leaves it. -/
theorem apply_foldl_add {β : Type} (view : Provision → β)
    (keeps : ∀ (p : Provision) (property), property.1 ∉ keys → view (p.add property) = view p)
    (p : Provision) (other : ∀ property ∈ properties, property.1 ∉ keys) :
    view (properties.foldl Provision.add p) = view p := by
  induction properties generalizing p with
  | nil => rfl
  | cons property properties ih =>
    obtain ⟨first, later⟩ := List.forall_mem_cons.1 other
    rw [List.foldl_cons, ih _ later, keeps p property first]

theorem HasLast.apply_foldl_add {β : Type} (h : HasLast keys properties value)
    (view : Provision → β)
    (keeps : ∀ (p : Provision) (property), property.1 ∉ keys → view (p.add property) = view p)
    {b : β} (sets : ∀ (p : Provision) (key), key ∈ keys → view (p.add (key, value)) = b)
    (p : Provision) : view (properties.foldl Provision.add p) = b := by
  obtain ⟨front, key, back, rfl, hk, other⟩ := h
  rw [List.foldl_append, List.foldl_cons, Source.apply_foldl_add view keeps _ other]
  exact sets _ key hk

theorem token_add_of_not_mem (p : Provision) (property : List Char × List Char)
    (hk : property.1 ∉ ["provide".toList]) : (p.add property).token = p.token := by
  rw [List.mem_singleton] at hk
  rw [Provision.add, if_neg hk]
  split <;> rfl

theorem source_add_of_not_mem (p : Provision) (property : List Char × List Char)
    (hk : property.1 ∉ sourceKeys) : (p.add property).source = p.source := by
  rw [Provision.add]
  split
  · rfl
  · rw [if_neg (by simpa using hk)]

theorem token_add (p : Provision) (hk : key ∈ ["provide".toList]) :
    (p.add (key, value)).token = some (unquote value) := by
  rw [List.mem_singleton.1 hk]
  rfl

theorem source_add (p : Provision) (hk : key ∈ sourceKeys) :
    (p.add (key, value)).source = some (unquote value) := by
  have other : key ≠ "provide".toList := by
    rintro rfl
    exact absurd hk (by decide)
  rw [Provision.add, if_neg other, if_pos (List.contains_iff_mem.2 hk)]

/-- Reading the properties of an object literal gives them back, whatever brackets and colons their
values have. A literal that names a token and a source is listed by the last token and the last
source; one without is listed as it is written. -/
theorem properties_of_written (hw : List.Forall₂ WrittenProperty properties items) :
    (∀ s, Spaced (separated comma items) s →
      (elements s).map splitProperty? = properties.map some) ∧
    ∀ literal, Spaced (bracketed '\x7b' '\x7d' (separated comma items)) literal →
      ((∃ property ∈ properties, property.1 ∈ ["provide".toList]) →
        (∃ property ∈ properties, property.1 ∈ sourceKeys) →
        ∃ token source, HasLast ["provide".toList] properties token ∧
          HasLast sourceKeys properties source ∧
          formatProvider literal = unquote token ++ " provided by ".toList ++ unquote source) ∧
      ((∀ property ∈ properties, property.1 ∉ ["provide".toList]) ∨
        (∀ property ∈ properties, property.1 ∉ sourceKeys) →
        formatProvider literal = trim literal) := by
  refine ⟨fun s hs => map_splitProperty?_elements hw hs, fun literal hs => ?_⟩
  have read : (objectProperties? literal).getD [] = properties := by
    rw [objectProperties?_of_written hw hs, Option.getD_some]
  rw [formatProvider, read]
  refine ⟨fun provides uses => ?_, fun missing => ?_⟩
  · obtain ⟨token, lastToken⟩ := exists_hasLast provides
    obtain ⟨source, lastSource⟩ := exists_hasLast uses
    refine ⟨token, source, lastToken, lastSource, ?_⟩
    have first := lastToken.apply_foldl_add (·.token) token_add_of_not_mem
      (fun p key hk => token_add p hk) {}
    have second := lastSource.apply_foldl_add (·.source) source_add_of_not_mem
      (fun p key hk => source_add p hk) {}
    generalize properties.foldl Provision.add {} = provision at first second
    obtain ⟨_, _⟩ := provision
    obtain rfl := first
    obtain rfl := second
    rfl
  · have none : (properties.foldl Provision.add {}).token = none ∨
        (properties.foldl Provision.add {}).source = none :=
      missing.imp (apply_foldl_add (·.token) token_add_of_not_mem {})
        (apply_foldl_add (·.source) source_add_of_not_mem {})
    generalize properties.foldl Provision.add {} = provision at none
    obtain ⟨_ | _, _ | _⟩ := provision
    · rfl
    · rfl
    · rfl
    · simp at none

def multiProperty : List Char × List Char := ("multi".toList, "a ? b : c".toList)

def multiTokens : List Token := ["multi".toList, [':'], "a ? b : c".toList]

/-- Two tokens and a source, around a property that says neither. -/
def arrowProperties : List (List Char × List Char) :=
  [("provide".toList, "'old'".toList), multiProperty,
    ("useFactory".toList, "(a: A) => [a, 1]".toList), ("provide".toList, "\x60T\x60".toList)]

def arrowItems : List (List Token) :=
  [["'provide'".toList, [':'], "'old'".toList], multiTokens,
    ["useFactory".toList, [':'], "(a: A) => [a, 1]".toList],
    ["\"provide\"".toList, [':'], "\x60T\x60".toList]]

/-- The tokens with a space behind each. -/
def spacedOut (tokens : List Token) : List Char := tokens.flatMap fun token => token ++ [' ']

def literalTokens (items : List (List Token)) : List Token :=
  bracketed '\x7b' '\x7d' (separated true items)

theorem nested_arrow : Nested false "(a: A) => [a, 1]".toList := by
  have parameter : Nested true "a: A".toList := nested_of_not_mem_marks (not_mem_of_all (by decide))
  have arrow : Nested false " => ".toList := nested_of_not_mem_marks (not_mem_of_all (by decide))
  have first : Nested true "a".toList := nested_of_not_mem_marks (not_mem_of_all (by decide))
  have second : Nested true " 1".toList := nested_of_not_mem_marks (not_mem_of_all (by decide))
  have inner : Nested true "a, 1".toList := first.append (.char (by decide) (fun _ => rfl) second)
  exact .group isPair_round parameter (arrow.append (inner.bracketed isPair_square))

theorem written_multi : WrittenProperty multiProperty multiTokens :=
  .intro (by decide) .bare (by decide) (by decide)
    (nested_of_not_mem_marks (not_mem_of_all (by decide)))

theorem written_arrowItems : List.Forall₂ WrittenProperty arrowProperties arrowItems := by
  have single : IsKey "provide".toList "'provide'".toList := @IsKey.quoted _ '\'' rfl
  have double : IsKey "provide".toList "\"provide\"".toList := @IsKey.quoted _ '"' rfl
  refine .cons (.intro (by decide) single (by decide) (by decide) ?_) (.cons written_multi
    (.cons (.intro (by decide) .bare (by decide) (by decide) nested_arrow)
      (.cons (.intro (by decide) double (by decide) (by decide) ?_) .nil)))
  · exact nested_of_not_mem_marks (not_mem_of_all (by decide))
  · exact nested_of_not_mem_marks (not_mem_of_all (by decide))

theorem properties_of_written_arrowItems :
    List.Forall₂ WrittenProperty arrowProperties arrowItems ∧
      (elements (spacedOut (separated true arrowItems))).map splitProperty? =
        arrowProperties.map some ∧
      (∃ token source, HasLast ["provide".toList] arrowProperties token ∧
        HasLast sourceKeys arrowProperties source ∧
        formatProvider (spacedOut (literalTokens arrowItems)) =
          unquote token ++ " provided by ".toList ++ unquote source) ∧
      formatProvider (spacedOut (literalTokens [multiTokens])) =
        "\x7b multi : a ? b : c , \x7d".toList := by
  obtain ⟨elements, providers⟩ := @properties_of_written true _ _ written_arrowItems
  obtain ⟨-, others⟩ := @properties_of_written true _ _ (.cons written_multi .nil)
  refine ⟨written_arrowItems, elements _ (spaced_flatMap _), ?_, ?_⟩
  · exact (providers _ (spaced_flatMap _)).1 (by decide) (by decide)
  · exact ((others _ (spaced_flatMap _)).2 (.inl (by decide))).trans (by decide +kernel)

end AngularAtlas.Source
