import AngularAtlas.Proofs.Source.Nesting
import AngularAtlas.Proofs.Text.Word
import Mathlib.Data.List.Forall2
import Mathlib.Data.Option.Basic

namespace AngularAtlas.Source

open Text

/-- Some items with commas between them, and with one behind the last if `comma` is set. -/
def separated (comma : Bool) : List (List Token) → List Token
  | [] => []
  | [item] => if comma then item ++ [[',']] else item
  | item :: next :: rest => item ++ [','] :: separated comma (next :: rest)

/-- Tokens that can be an item of a list: there are some, and no comma is outside of brackets. -/
structure IsItem (tokens : List Token) : Prop where
  ne_nil : tokens ≠ []
  phrases : ∀ token ∈ tokens, IsPhrase token
  nested : Nested false tokens.flatten

/-- Tokens that can stand in brackets. -/
structure IsBody (tokens : List Token) : Prop where
  phrases : ∀ token ∈ tokens, IsPhrase token
  nested : Nested true tokens.flatten

variable {comma commas : Bool} {item tokens : List Token} {items : List (List Token)}
  {s : List Char} {c : Char}

theorem isSolid_singleton (hc : isBlank c = false) : IsSolid [c] :=
  ⟨List.cons_ne_nil _ _, fun _ h => List.mem_singleton.1 h ▸ hc⟩

/-- Tokens in brackets. -/
def bracketed (opener closer : Char) (tokens : List Token) : List Token :=
  [opener] :: (tokens ++ [[closer]])

theorem IsItem.append (ha : IsItem item) (hb : IsItem tokens) : IsItem (item ++ tokens) where
  ne_nil h := ha.ne_nil (List.append_eq_nil_iff.1 h).1
  phrases token h := (List.mem_append.1 h).elim (ha.phrases token) (hb.phrases token)
  nested := by
    rw [List.flatten_append]
    exact ha.nested.append hb.nested

theorem isItem_singleton {token : Token} (solid : IsSolid token)
    (hm : ∀ c ∈ token, c ∉ marks) : IsItem [token] where
  ne_nil := List.cons_ne_nil _ _
  phrases := List.forall_mem_singleton.2 (.word solid)
  nested := by
    rw [List.flatten_singleton]
    exact nested_of_not_mem_marks hm

theorem IsBody.append (ha : IsBody item) (hb : IsBody tokens) : IsBody (item ++ tokens) where
  phrases token h := (List.mem_append.1 h).elim (ha.phrases token) (hb.phrases token)
  nested := by
    rw [List.flatten_append]
    exact ha.nested.append hb.nested

theorem isBody_nil : IsBody [] := ⟨fun _ h => (nomatch h), .nil⟩

theorem IsItem.isBody (hi : IsItem tokens) : IsBody tokens := ⟨hi.phrases, hi.nested.anywhere⟩

theorem isBody_comma : IsBody [[',']] :=
  ⟨List.forall_mem_singleton.2 (.word (isSolid_singleton rfl)),
    .char (by decide) (fun _ => rfl) .nil⟩

/-- What holds of the items and of a comma, and of two groups of tokens together, holds of a whole
list. -/
theorem separated_induction {P : List Token → Prop} (nil : P []) (sep : P [[',']])
    (append : ∀ {a b}, P a → P b → P (a ++ b)) (hi : ∀ item ∈ items, P item) :
    P (separated comma items) := by
  fun_induction separated comma items with
  | case1 => exact nil
  | case2 item _ => exact append (hi item List.mem_cons_self) sep
  | case3 item _ => exact hi item List.mem_cons_self
  | case4 item next rest ih =>
    have later := ih fun item h => hi item (List.mem_cons_of_mem _ h)
    exact append (hi item List.mem_cons_self) (append sep later)

theorem forall_mem_separated {Q : Char → Prop} (sep : Q ',')
    (hi : ∀ item ∈ items, ∀ c ∈ item.flatten, Q c) :
    ∀ c ∈ (separated comma items).flatten, Q c := by
  refine separated_induction (P := fun tokens => ∀ c ∈ tokens.flatten, Q c)
    (fun c hc => nomatch hc) (by simpa using sep) ?_ hi
  intro a b ha hb c hc
  rw [List.flatten_append, List.mem_append] at hc
  exact hc.elim (ha c) (hb c)

theorem forall_mem_bracketed {Q : Char → Prop} {opener closer : Char} (ho : Q opener)
    (hc : Q closer) (ht : ∀ c ∈ tokens.flatten, Q c) :
    ∀ c ∈ (bracketed opener closer tokens).flatten, Q c := by
  intro c mem
  rw [bracketed, List.flatten_cons, List.flatten_append, List.flatten_singleton,
    List.singleton_append, List.mem_cons, List.mem_append, List.mem_singleton] at mem
  rcases mem with rfl | mem | rfl
  · exact ho
  · exact ht c mem
  · exact hc

theorem isBody_separated (hi : ∀ item ∈ items, IsItem item) : IsBody (separated comma items) :=
  separated_induction isBody_nil isBody_comma .append fun item h => (hi item h).isBody

theorem isItem_of_all {token : Token} (ne : token ≠ [])
    (h : token.all (fun c => !isBlank c && !marks.contains c) = true) : IsItem [token] := by
  have chars : ∀ c ∈ token, isBlank c = false ∧ c ∉ marks := by simpa using h
  exact isItem_singleton ⟨ne, fun c hc => (chars c hc).1⟩ fun c hc => (chars c hc).2

theorem isItem_bracketed {opener closer : Char} (hp : IsPair opener closer) (hb : IsBody tokens) :
    IsItem (bracketed opener closer tokens) where
  ne_nil := List.cons_ne_nil _ _
  phrases := by
    obtain ⟨ho, hc⟩ := hp.not_blank
    intro token h
    rcases List.mem_cons.1 h with rfl | h
    · exact .word (isSolid_singleton ho)
    · rcases List.mem_append.1 h with h | h
      · exact hb.phrases token h
      · exact List.mem_singleton.1 h ▸ .word (isSolid_singleton hc)
  nested := by
    have : Nested false (opener :: (tokens.flatten ++ [closer])) := hb.nested.bracketed hp
    simpa [bracketed] using this

theorem exists_balanced?_trim {opener closer : Char} (hp : IsPair opener closer)
    (hb : IsBody tokens) (hs : Spaced (bracketed opener closer tokens) s) :
    ∃ inside rest, (trim s).head? = some opener ∧ balanced? (trim s) = some (inside, rest) ∧
      Spaced tokens inside := by
  obtain ⟨t, he, ht, -⟩ := hs.exists_trim (isItem_bracketed hp hb).phrases
  obtain ⟨inside, rest, rfl, hi, -⟩ := ht.exists_append_cons
  rw [he]
  exact ⟨inside, rest, rfl, (nested_of_spaced hi hb.nested).balanced? hp rest, hi⟩

theorem Spaced.collapse_ne_nil (hs : Spaced tokens s) (hi : IsItem tokens) :
    Text.collapse s ≠ [] := by
  have hc := hs.collapse hi.phrases
  obtain ⟨token, rest, rfl⟩ := List.exists_cons_of_ne_nil hi.ne_nil
  intro h
  rw [h] at hc
  obtain ⟨a, b, he, -, -⟩ := hc.exists_cons
  have front := (List.append_eq_nil_iff.1 he.symm).2
  exact (hi.phrases token List.mem_cons_self).ne_nil (List.append_eq_nil_iff.1 front).1

theorem elements_of_isItem (hi : IsItem item) (hs : Spaced item s) :
    elements s = [collapse s] := by
  have nested := nested_of_spaced hs hi.nested
  rw [elements, nested.splitAtCommas_eq, List.map_singleton,
    List.filter_cons_of_pos (by simpa using Spaced.collapse_ne_nil hs hi), List.filter_nil]

theorem Nested.elements_append_comma (hs : Nested commas s) (t : List Char) :
    elements (s ++ ',' :: t) = elements s ++ elements t := by
  rw [elements, hs.splitAtCommas_append_comma, List.map_append, List.filter_append]
  rfl

theorem elements_append_comma (hi : IsItem item) (hs : Spaced item s) (t : List Char) :
    elements (s ++ ',' :: t) = collapse s :: elements t := by
  rw [(nested_of_spaced hs hi.nested).elements_append_comma, elements_of_isItem hi hs]
  rfl

theorem elements_of_isBlank (hs : Text.IsBlank s) : elements s = [] := by
  rw [elements, (nested_of_isBlank hs).splitAtCommas_eq, List.map_singleton,
    collapse_of_isBlank hs]
  rfl

theorem exists_of_mem_forall₂ {α β : Type} {R : α → β → Prop} {as : List α} {bs : List β}
    (h : List.Forall₂ R as bs) {b : β} (hb : b ∈ bs) : ∃ a ∈ as, R a b := by
  induction h with
  | nil => cases hb
  | cons hr _ ih =>
    rcases List.mem_cons.1 hb with rfl | hb
    · exact ⟨_, List.mem_cons_self, hr⟩
    · obtain ⟨a, ha, hr⟩ := ih hb
      exact ⟨a, List.mem_cons_of_mem _ ha, hr⟩

theorem forall₂_collapse_elements (hi : ∀ item ∈ items, IsItem item)
    (hs : Spaced (separated comma items) s) :
    List.Forall₂ (fun item piece => ∃ t, Spaced item t ∧ piece = collapse t) items
      (elements s) := by
  fun_induction separated comma items generalizing s with
  | case1 =>
    cases hs with
    | nil hb => exact elements_of_isBlank hb ▸ .nil
  | case2 item _ =>
    have hitem := hi item List.mem_cons_self
    obtain ⟨a, b, rfl, ha, hb⟩ := hs.exists_append_cons
    cases hb with
    | nil hb =>
      rw [List.singleton_append, elements_append_comma hitem ha, elements_of_isBlank hb]
      exact .cons ⟨a, ha, rfl⟩ .nil
  | case3 item _ =>
    have hitem := hi item List.mem_cons_self
    rw [elements_of_isItem hitem hs]
    exact .cons ⟨s, hs, rfl⟩ .nil
  | case4 item next rest ih =>
    have hitem := hi item List.mem_cons_self
    obtain ⟨a, b, rfl, ha, hb⟩ := hs.exists_append_cons
    rw [List.singleton_append, elements_append_comma hitem ha]
    exact .cons ⟨a, ha, rfl⟩ (ih (fun item h => hi item (List.mem_cons_of_mem _ h)) hb)

theorem forall₂_elements (hi : ∀ item ∈ items, IsItem item)
    (hs : Spaced (separated comma items) s) : List.Forall₂ Spaced items (elements s) := by
  have pieces := (List.forall₂_and_left items _).2 ⟨hi, forall₂_collapse_elements hi hs⟩
  refine pieces.imp ?_
  rintro item piece ⟨hitem, t, ht, rfl⟩
  exact ht.collapse hitem.phrases

/-- An array literal of some items. -/
def arrayTokens (comma : Bool) (items : List (List Token)) : List Token :=
  bracketed '[' ']' (separated comma items)

theorem isItem_arrayTokens (hi : ∀ item ∈ items, IsItem item) : IsItem (arrayTokens comma items) :=
  isItem_bracketed isPair_square (isBody_separated hi)

theorem exists_arrayBody? (hi : ∀ item ∈ items, IsItem item)
    (hs : Spaced (arrayTokens comma items) s) :
    ∃ body, arrayBody? s = some body ∧ Spaced (separated comma items) body := by
  obtain ⟨body, rest, hh, hb, hbody⟩ :=
    exists_balanced?_trim isPair_square (isBody_separated hi) hs
  exact ⟨body, by simp only [arrayBody?, hh, hb, if_pos, Option.map_some], hbody⟩

/-- A key and the tokens of its value. -/
structure Property where
  key : Token
  value : List Token

def Property.written (property : Property) : List Token :=
  property.key :: [':'] :: property.value

theorem forall_mem_written {Q : Char → Prop} {key : Token} {value : List Token}
    (hk : ∀ c ∈ key, Q c) (colon : Q ':') (hv : ∀ c ∈ value.flatten, Q c) :
    ∀ c ∈ (Property.written ⟨key, value⟩).flatten, Q c := by
  intro c hc
  rw [Property.written, List.flatten_cons, List.flatten_cons, List.singleton_append,
    List.mem_append, List.mem_cons] at hc
  rcases hc with hc | rfl | hc
  · exact hk c hc
  · exact colon
  · exact hv c hc

/-- A property whose key is an identifier. -/
structure Property.IsProper (property : Property) : Prop where
  key : isIdentifier property.key = true
  value : IsItem property.value

variable {name key : Token} {property : Property} {properties : List Property}

theorem isSolid_of_isIdentifier (hn : isIdentifier name = true) : IsSolid name where
  ne_nil := by
    rintro rfl
    cases hn
  not_blank c hc := isBlank_eq_false_of_isNameChar (isNameChar_of_mem_isIdentifier hn hc)

theorem isItem_of_isIdentifier (hn : isIdentifier name = true) : IsItem [name] :=
  isItem_singleton (isSolid_of_isIdentifier hn) fun _ hc =>
    not_mem_of_test (isNameChar_of_mem_isIdentifier hn hc) (by decide)

theorem Property.IsProper.isItem (hp : property.IsProper) : IsItem property.written := by
  have colon : IsItem [[':']] := isItem_of_all (by decide) (by decide)
  exact (isItem_of_isIdentifier hp.key).append (colon.append hp.value)

theorem unquote_of_isIdentifier (hn : isIdentifier name = true) (hs : Spaced [name] s) :
    unquote s = name := by
  rw [unquote, hs.trim_eq (.word (isSolid_of_isIdentifier hn))]
  cases name with
  | nil => cases hn
  | cons c rest =>
    have hc := isNameChar_of_mem_isIdentifier hn List.mem_cons_self
    have quotes : c ∉ ['\'', '"', '\x60'] := not_mem_of_test hc (by decide)
    simp only [List.mem_cons, List.not_mem_nil, or_false, not_or] at quotes
    simp [isQuote, quotes]

theorem unquote_of_isQuote {q : Char} {inner : List Char} (hq : isQuote q = true)
    (solid : IsSolid (q :: (inner ++ [q]))) (hs : Spaced [q :: (inner ++ [q])] s) :
    unquote s = inner := by
  rw [unquote, hs.trim_eq (.word solid)]
  simp [hq]

/-- The characters that `colonSplits` looks at. -/
def colonMarks : List Char := ':' :: '<' :: '>' :: marks

theorem angleStep_of_not_mem_colonMarks (hc : c ∉ colonMarks) : c ≠ ':' ∧ angleStep c = 0 := by
  simp only [colonMarks, List.mem_cons, not_or] at hc
  simp [angleStep, hc, (bracketStep_of_not_mem_marks hc.2.2.2).1]

theorem head?_colonSplits {a : List Char} (ha : ∀ c ∈ a, c ∉ colonMarks) (b : List Char) :
    (colonSplits 0 (a ++ ':' :: b)).head? = some (a, b) := by
  induction a with
  | nil => simp [colonSplits]
  | cons c a ih =>
    obtain ⟨hc, ha⟩ := List.forall_mem_cons.1 ha
    obtain ⟨ne, step⟩ := angleStep_of_not_mem_colonMarks hc
    rw [List.cons_append, colonSplits, step, Int.add_zero]
    simp only [ne, false_and, if_false, List.head?_map, ih ha, Option.map_some]

theorem not_mem_colonMarks_of_spaced (hk : isIdentifier key = true) (hs : Spaced [key] s) :
    ∀ c ∈ s, c ∉ colonMarks := by
  obtain ⟨a, b, rfl, ha, hb⟩ := hs.exists_singleton
  intro c hc
  rcases List.mem_append.1 hc with hc | hc
  · exact not_mem_of_test (ha c hc) (by decide)
  · rcases List.mem_append.1 hc with hc | hc
    · exact not_mem_of_test (isNameChar_of_mem_isIdentifier hk hc) (by decide)
    · exact not_mem_of_test (hb c hc) (by decide)

/-- What a property is read as: its key, and a text of its value without blanks at the ends. -/
inductive Property.IsRead (property : Property) : List Char × List Char → Prop
  | intro {text : List Char} : Spaced property.value text →
      property.IsRead (property.key, trim text)

theorem exists_splitProperty? (hp : property.IsProper) (hs : Spaced property.written s) :
    ∃ found, splitProperty? s = some found ∧ property.IsRead found := by
  have hs := hs.trim hp.isItem.phrases
  have : property.written = [property.key] ++ [':'] :: property.value := rfl
  rw [this] at hs
  obtain ⟨a, b, he, ha, hb⟩ := hs.exists_append_cons
  rw [List.singleton_append] at he
  refine ⟨(property.key, trim b), ?_, .intro hb⟩
  simp only [splitProperty?, he, head?_colonSplits (not_mem_colonMarks_of_spaced hp.key ha),
    unquote_of_isIdentifier hp.key ha]

theorem forall₂_filterMap_splitProperty? {found : List (List Char)}
    (hp : ∀ property ∈ properties, property.IsProper)
    (hf : List.Forall₂ Spaced (properties.map Property.written) found) :
    List.Forall₂ Property.IsRead properties (found.filterMap splitProperty?) := by
  induction properties generalizing found with
  | nil =>
    cases hf with
    | nil => exact .nil
  | cons property properties ih =>
    obtain ⟨first, rest⟩ := List.forall_mem_cons.1 hp
    cases hf with
    | cons hs hf =>
      obtain ⟨pair, he, hr⟩ := exists_splitProperty? first hs
      rw [List.filterMap_cons_some he]
      exact .cons hr (ih rest hf)

/-- An object literal with some properties. -/
def objectTokens (comma : Bool) (properties : List Property) : List Token :=
  bracketed '{' '}' (separated comma (properties.map Property.written))

theorem isItem_of_mem_map_written (hp : ∀ property ∈ properties, property.IsProper) :
    ∀ item ∈ properties.map Property.written, IsItem item := by
  intro item h
  obtain ⟨property, hm, rfl⟩ := List.mem_map.1 h
  exact (hp property hm).isItem

theorem isItem_objectTokens (hp : ∀ property ∈ properties, property.IsProper) :
    IsItem (objectTokens comma properties) :=
  isItem_bracketed isPair_curly (isBody_separated (isItem_of_mem_map_written hp))

theorem exists_objectProperties? (hp : ∀ property ∈ properties, property.IsProper)
    (hs : Spaced (objectTokens comma properties) s) :
    ∃ found, objectProperties? s = some found ∧ List.Forall₂ Property.IsRead properties found := by
  have items := isItem_of_mem_map_written hp
  obtain ⟨inside, rest, hh, hb, hi⟩ :=
    exists_balanced?_trim isPair_curly (isBody_separated items) hs
  refine ⟨_, ?_, forall₂_filterMap_splitProperty? hp (forall₂_elements items hi)⟩
  simp only [objectProperties?, hh, hb, if_pos, Option.map_some]

end AngularAtlas.Source
