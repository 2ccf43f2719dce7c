import AngularAtlas.Proofs.Source.Literal
import AngularAtlas.Source.NgModule

namespace AngularAtlas.Source

open Text

/-- A name, with or without dots in it. -/
structure IsDotted (name : List Char) : Prop where
  ne_nil : name ≠ []
  chars : ∀ c ∈ name, isNameChar c = true ∨ c = '.'

/-- A dotted name, or a call of one with elements as its arguments. -/
inductive IsElement : List Char → Prop
  | name {name : List Char} : IsDotted name → IsElement name
  | call {name : List Char} {args : List (List Char)} : IsDotted name →
      (∀ arg ∈ args, IsElement arg) →
      IsElement (name ++ '(' :: ([',', ' '].intercalate args ++ [')']))

/-- How an entry of a section is listed, and how it is written. -/
inductive Entry : MetadataKey → List Char → List Token → Prop
  | element {key : MetadataKey} {e : List Char} : IsElement e → Entry key e [e]
  | provision {comma : Bool} {token key value : List Char} : IsElement token →
      key ∈ sourceKeys → IsElement value →
      Entry .providers (token ++ (" provided by ".toList ++ value))
        (objectTokens comma [⟨"provide".toList, [token]⟩, ⟨key, [value]⟩])

variable {name e shown s token value : List Char} {args : List (List Char)} {tokens : List Token}
  {key : MetadataKey} {c : Char} {comma : Bool}

/-- The other characters of elements, besides those of names. -/
def elementMarks : List Char := ['.', '(', ')', ',', ' ']

theorem intercalate_induction {P : List Char → Prop} (none : args = [] → P [])
    (more : ∀ {a s}, P a → P s → P (a ++ ',' :: ' ' :: s)) (ha : ∀ arg ∈ args, P arg) :
    P ([',', ' '].intercalate args) := by
  induction args with
  | nil => exact none rfl
  | cons arg args ih =>
    obtain ⟨first, later⟩ := List.forall_mem_cons.1 ha
    cases args with
    | nil => simpa using first
    | cons next rest => simpa using more first (ih (fun h => nomatch h) later)

theorem IsDotted.isSolid (hn : IsDotted name) : IsSolid name where
  ne_nil := hn.ne_nil
  not_blank c hc := by
    rcases hn.chars c hc with h | rfl
    · exact isBlank_eq_false_of_isNameChar h
    · rfl

theorem IsDotted.nested {commas : Bool} (hn : IsDotted name) : Nested commas name := by
  refine nested_of_not_mem_marks fun c hc => ?_
  rcases hn.chars c hc with h | rfl
  · exact not_mem_of_test h (by decide)
  · decide

theorem IsElement.isPhrase (he : IsElement e) : IsPhrase e := by
  induction he with
  | name hn => exact .word hn.isSolid
  | @call name args hn _ ih =>
    have opened : IsPhrase (name ++ ['(']) := .word (hn.isSolid.append (isSolid_singleton rfl))
    have close : IsPhrase [')'] := .word (isSolid_singleton rfl)
    have whole : IsPhrase (name ++ ['('] ++ ([',', ' '].intercalate args ++ [')'])) := by
      by_cases ne : args = []
      · subst ne
        exact opened.append close
      · refine opened.append (IsPhrase.append (intercalate_induction (absurd · ne) ?_ ih) close)
        intro a s ha hs
        have comma : IsPhrase (a ++ [',']) := ha.append (.word (isSolid_singleton rfl))
        simpa using comma.append_space hs
    simpa using whole

theorem IsElement.nested (he : IsElement e) : Nested false e := by
  induction he with
  | name hn => exact hn.nested
  | @call name args hn _ ih =>
    have inside : Nested true ([',', ' '].intercalate args) := by
      refine intercalate_induction (fun _ => .nil) ?_ fun arg h => (ih arg h).anywhere
      intro a s ha hs
      exact ha.append (.char (by decide) (fun _ => rfl) (.char (by decide) (fun _ => rfl) hs))
    exact hn.nested.append (inside.bracketed isPair_round)

theorem IsElement.chars (he : IsElement e) :
    ∀ c ∈ e, isNameChar c = true ∨ c ∈ elementMarks := by
  induction he with
  | name hn =>
    intro c hc
    refine (hn.chars c hc).imp_right ?_
    rintro rfl
    decide
  | @call name args hn _ ih =>
    have inside : ∀ c ∈ [',', ' '].intercalate args, isNameChar c = true ∨ c ∈ elementMarks := by
      refine intercalate_induction (fun _ _ hc => nomatch hc) ?_ ih
      intro a s ha hs c hc
      simp only [List.mem_append, List.mem_cons] at hc
      rcases hc with hc | rfl | rfl | hc
      · exact ha c hc
      · exact .inr (by decide)
      · exact .inr (by decide)
      · exact hs c hc
    intro c hc
    simp only [List.mem_append, List.mem_cons, List.not_mem_nil, or_false] at hc
    rcases hc with hc | rfl | hc | rfl
    · refine (hn.chars c hc).imp_right ?_
      rintro rfl
      decide
    · exact .inr (by decide)
    · exact inside c hc
    · exact .inr (by decide)

theorem IsElement.not_mem (he : IsElement e) {chars : List Char}
    (hm : chars.all (fun c => !isNameChar c && !elementMarks.contains c) = true) (hc : c ∈ e) :
    c ∉ chars := by
  intro mem
  have other := List.all_eq_true.1 hm c mem
  simp only [Bool.and_eq_true, Bool.not_eq_true', List.contains_eq_mem, decide_eq_false_iff_not]
    at other
  rcases he.chars c hc with h | h
  · exact absurd h (by simp [other.1])
  · exact other.2 h

theorem IsElement.isItem (he : IsElement e) : IsItem [e] where
  ne_nil := List.cons_ne_nil _ _
  phrases := List.forall_mem_singleton.2 he.isPhrase
  nested := by
    rw [List.flatten_singleton]
    exact he.nested

theorem IsElement.unquote_eq (he : IsElement e) (hs : Spaced [e] s) : unquote s = e := by
  rw [unquote, hs.trim_eq he.isPhrase]
  obtain ⟨c, rest, rfl, -⟩ := he.isPhrase.exists_eq_cons
  have quotes : c ∉ ['\'', '"', '\x60'] := he.not_mem (by decide) List.mem_cons_self
  simp only [List.mem_cons, List.not_mem_nil, or_false, not_or] at quotes
  simp [isQuote, quotes]

theorem IsElement.formatProvider_eq (he : IsElement e) (hs : Spaced [e] s) :
    formatProvider s = e := by
  have none : objectProperties? s = none := by
    obtain ⟨c, rest, rfl, -⟩ := he.isPhrase.exists_eq_cons
    have curly : c ∉ ['{'] := he.not_mem (by decide) List.mem_cons_self
    rw [objectProperties?, hs.trim_eq he.isPhrase]
    exact if_neg (by simpa using curly)
  rw [formatProvider, none]
  exact hs.trim_eq he.isPhrase

theorem isProper_provision {k : Token} (ht : IsElement token) (hk : k ∈ sourceKeys)
    (hv : IsElement value) :
    ∀ property ∈ [Property.mk "provide".toList [token], ⟨k, [value]⟩], property.IsProper := by
  have key : ∀ k ∈ "provide".toList :: sourceKeys, isIdentifier k = true := by decide
  simp only [List.forall_mem_cons]
  exact ⟨⟨key _ List.mem_cons_self, ht.isItem⟩, ⟨key k (by simp [hk]), hv.isItem⟩,
    fun _ h => nomatch h⟩

theorem formatProvider_provision {k : Token} (ht : IsElement token) (hk : k ∈ sourceKeys)
    (hv : IsElement value)
    (hs : Spaced (objectTokens comma [⟨"provide".toList, [token]⟩, ⟨k, [value]⟩]) s) :
    formatProvider s = token ++ (" provided by ".toList ++ value) := by
  obtain ⟨found, hf, hr⟩ := exists_objectProperties? (isProper_provision ht hk hv) hs
  cases hr with
  | cons first hr =>
    cases hr with
    | cons second hr =>
      cases hr
      obtain ⟨htoken⟩ := first
      obtain ⟨hvalue⟩ := second
      have other : k ≠ "provide".toList := by
        rintro rfl
        exact absurd hk (by decide)
      have source : sourceKeys.contains k = true := List.contains_iff_mem.2 hk
      rw [formatProvider, hf]
      simp only [Option.getD_some, List.foldl_cons, List.foldl_nil, Provision.add, if_pos, other,
        if_false, source, ht.unquote_eq (htoken.trim ht.isItem.phrases),
        hv.unquote_eq (hvalue.trim hv.isItem.phrases), List.append_assoc]

theorem Entry.isItem (he : Entry key shown tokens) : IsItem tokens := by
  cases he with
  | element he => exact he.isItem
  | provision ht hk hv => exact isItem_objectTokens (isProper_provision ht hk hv)

theorem Entry.not_mem (he : Entry key shown tokens) : ∀ c ∈ tokens.flatten, c ∉ ['/', '['] := by
  cases he with
  | element he =>
    intro c hc
    rw [List.flatten_singleton] at hc
    exact he.not_mem (by decide) hc
  | @provision comma token k value ht hk hv =>
    have all : ∀ k ∈ "provide".toList :: sourceKeys,
        k.all (fun c => !(['/', '['].contains c)) = true := by decide
    have keys : ∀ k ∈ "provide".toList :: sourceKeys, ∀ c ∈ k, c ∉ ['/', '['] := by
      intro k hk c hc
      simpa using List.all_eq_true.1 (all k hk) c hc
    refine forall_mem_bracketed (by decide) (by decide) (forall_mem_separated (by decide) ?_)
    simp only [List.map_cons, List.map_nil, List.forall_mem_cons]
    refine ⟨forall_mem_written (keys _ (by decide)) (by decide) ?_,
      forall_mem_written (keys k (by simp [hk])) (by decide) ?_, fun _ h => nomatch h⟩
    · intro c hc
      rw [List.flatten_singleton] at hc
      exact ht.not_mem (by decide) hc
    · intro c hc
      rw [List.flatten_singleton] at hc
      exact hv.not_mem (by decide) hc

end AngularAtlas.Source
