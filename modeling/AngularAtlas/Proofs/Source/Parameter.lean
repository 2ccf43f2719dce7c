import AngularAtlas.Proofs.Source.MetadataEntry

namespace AngularAtlas.Source

open Text

/-- Identifiers with dots between them. -/
inductive IsDottedName : Token → Prop
  | name {name : Token} : isIdentifier name = true → IsDottedName name
  | dot {name rest : Token} : isIdentifier name = true → IsDottedName rest →
      IsDottedName (name ++ '.' :: rest)

/-- How a type is written that has a bare name: as that name alone, or with type arguments. -/
inductive IsType : Token → List Token → Prop
  | bare {name : Token} : IsDottedName name → IsType name [name]
  | generic {name : Token} {arguments : List (Token × List Token)} : IsDottedName name →
      (∀ argument ∈ arguments, IsType argument.1 argument.2) →
      IsType name (name :: bracketed '<' '>' (separated false (arguments.map (·.2))))

/-- The type that a parameter is declared with. -/
structure DeclaredType where
  name : Token
  type : List Token
  array : List Token := []
  union : List Token := []

/-- The brackets of an array type, between which no blank is left. -/
def closedArray : List Token := [['[', ']']]

/-- The brackets of an array type, between which blanks may stand. -/
def openArray : List Token := bracketed '[' ']' []

def DeclaredType.written (a : DeclaredType) : List Token := a.type ++ (a.array ++ a.union)

structure DeclaredType.IsProper (a : DeclaredType) : Prop where
  type : IsType a.name a.type
  array : a.array ∈ [[], closedArray, openArray]
  union : a.union ∈ [[], [['|'], "null".toList], [['|'], "undefined".toList]]

/-- There is no blank between the brackets of an array behind a bare name. -/
def DeclaredType.IsClosed (a : DeclaredType) : Prop := a.type = [a.name] → a.array ≠ openArray

def bareDecorator (name : Token) : List Token := ('@' :: name) :: bracketed '(' ')' []

def tokenDecorator (token : Token) : List Token := "@Inject".toList :: bracketed '(' ')' [token]

/-- A parameter with the names of its decorators that have no argument, and with the token that
it injects between those before and those after it. -/
structure Parameter where
  before : List Token := []
  token : Option Token := none
  after : List Token := []
  modifiers : List Token := []
  name : Token
  isOptional : Bool := false
  declared : Option DeclaredType := none

namespace Parameter

/-- What stands between the decorators and the type. -/
def words (p : Parameter) : List Token :=
  p.modifiers ++ p.name :: if p.isOptional then [['?']] else []

def lead (p : Parameter) : List Token :=
  p.before.flatMap bareDecorator ++
    (p.token.elim [] tokenDecorator ++ (p.after.flatMap bareDecorator ++ p.words))

def written (p : Parameter) : List Token :=
  p.lead ++ p.declared.elim [] fun a => [':'] :: a.written

/-- The token that is injected, or else the bare name of the type. -/
def dependency? (p : Parameter) : Option Token := p.token.or (p.declared.map (·.name))

structure IsProper (p : Parameter) : Prop where
  decorators : ∀ name ∈ p.before ++ p.after, IsDottedName name
  token : ∀ token ∈ p.token, IsDottedName token
  modifiers : ∀ word ∈ p.modifiers, isIdentifier word = true
  name : isIdentifier p.name = true
  declared : ∀ a ∈ p.declared, a.IsProper

/-- The type is closed, where it is asked for. -/
def IsClosed (p : Parameter) : Prop := p.token = none → ∀ a ∈ p.declared, a.IsClosed

end Parameter

variable {name token : Token} {type tokens : List Token} {c : Char} {a : DeclaredType}
  {p : Parameter}

theorem IsDottedName.isDotted (hn : IsDottedName name) : IsDotted name := by
  induction hn with
  | name hn =>
    exact ⟨(isSolid_of_isIdentifier hn).ne_nil,
      fun c hc => .inl (isNameChar_of_mem_isIdentifier hn hc)⟩
  | dot hn _ ih =>
    refine ⟨List.append_ne_nil_of_right_ne_nil _ (List.cons_ne_nil _ _), fun c hc => ?_⟩
    rcases List.mem_append.1 hc with hc | hc
    · exact .inl (isNameChar_of_mem_isIdentifier hn hc)
    · exact (List.mem_cons.1 hc).elim .inr (ih.chars c)

theorem IsDottedName.isItem (hn : IsDottedName name) : IsItem [name] :=
  (IsElement.name hn.isDotted).isItem

theorem IsDottedName.not_mem (hn : IsDottedName name) {chars : List Char}
    (hm : chars.all (fun c => !isNameChar c && c != '.') = true) : ∀ c ∈ name, c ∉ chars := by
  intro c hc mem
  have other := List.all_eq_true.1 hm c mem
  rcases hn.isDotted.chars c hc with hc | rfl
  · simp [hc] at other
  · simp at other

theorem IsDottedName.all_isIdentifier (hn : IsDottedName name) :
    (name.splitOn '.').all isIdentifier = true := by
  have apart : ∀ {name : Token}, isIdentifier name = true → '.' ∉ name := fun hn mem =>
    absurd (isNameChar_of_mem_isIdentifier hn mem) (by decide)
  induction hn with
  | name hn => rw [List.splitOn_eq_singleton (apart hn), List.all_cons, hn]; rfl
  | dot hn _ ih =>
    rw [List.splitOn_append_cons_self_of_not_mem (apart hn), List.all_cons, hn, ih]
    rfl

theorem isBody_angle (hc : c ∈ ['<', '>']) : IsBody [[c]] := by
  have angles : c = '<' ∨ c = '>' := by simpa using hc
  rcases angles with rfl | rfl <;> exact (isItem_of_all (by decide) (by decide)).isBody

theorem IsType.isBody (ht : IsType name type) : IsBody type := by
  induction ht with
  | bare hn => exact hn.isItem.isBody
  | @generic name arguments hn _ ih =>
    have inside : IsBody (separated false (arguments.map (·.2))) := by
      refine separated_induction isBody_nil isBody_comma .append fun item h => ?_
      obtain ⟨argument, ha, rfl⟩ := List.mem_map.1 h
      exact ih argument ha
    exact hn.isItem.isBody.append
      ((isBody_angle (by decide)).append (inside.append (isBody_angle (by decide))))

/-- The characters that the search for a parameter's type or token looks at. -/
def outerMarks : List Char := [':', '@', '=']

theorem IsType.not_mem (ht : IsType name type) : ∀ c ∈ type.flatten, c ∉ outerMarks := by
  have dotted : ∀ {name : Token}, IsDottedName name → ∀ c ∈ name, c ∉ outerMarks :=
    fun hn => hn.not_mem (by decide)
  induction ht with
  | bare hn =>
    rw [List.flatten_singleton]
    exact dotted hn
  | @generic name arguments hn _ ih =>
    intro c hc
    rw [List.flatten_cons, List.mem_append] at hc
    refine hc.elim (dotted hn c) (forall_mem_bracketed (Q := (· ∉ outerMarks)) (by decide)
      (by decide) (forall_mem_separated (by decide) fun item h => ?_) c)
    obtain ⟨argument, ha, rfl⟩ := List.mem_map.1 h
    exact ih argument ha

theorem IsType.eq_or_exists (ht : IsType name type) :
    IsDottedName name ∧ (type = [name] ∨ ∃ more, type = name :: ['<'] :: more) := by
  cases ht with
  | bare hn => exact ⟨hn, .inl rfl⟩
  | generic hn _ => exact ⟨hn, .inr ⟨_, rfl⟩⟩

theorem IsItem.flatMap_append {f : Token → List Token} {names : List Token}
    (hn : ∀ name ∈ names, IsItem (f name)) (ht : IsItem tokens) :
    IsItem (names.flatMap f ++ tokens) := by
  induction names with
  | nil => exact ht
  | cons name names ih =>
    obtain ⟨first, later⟩ := List.forall_mem_cons.1 hn
    rw [List.flatMap_cons, List.append_assoc]
    exact first.append (ih later)

theorem isItem_bareDecorator (hn : IsDottedName name) : IsItem (bareDecorator name) := by
  have at_name : IsItem ['@' :: name] := by
    refine isItem_singleton ((isSolid_singleton rfl).append hn.isDotted.isSolid) fun c hc => ?_
    rcases List.mem_cons.1 hc with rfl | hc
    · decide
    · exact hn.not_mem (by decide) c hc
  exact at_name.append (isItem_bracketed isPair_round isBody_nil)

theorem isItem_tokenDecorator (ht : IsDottedName token) : IsItem (tokenDecorator token) := by
  have word : IsItem ["@Inject".toList] := isItem_of_all (by decide) (by decide)
  exact word.append (isItem_bracketed isPair_round ht.isItem.isBody)

namespace Parameter

theorem IsProper.isItem_words_append (hp : p.IsProper) (ht : tokens = [] ∨ IsItem tokens) :
    IsItem (p.words ++ tokens) := by
  have mark : IsItem [['?']] := isItem_of_all (by decide) (by decide)
  have name := isItem_of_isIdentifier hp.name
  have close : IsItem (p.name :: (if p.isOptional then [['?']] else []) ++ tokens) := by
    rcases ht with rfl | ht <;> split
    · simpa using name.append mark
    · simpa using name
    · simpa using name.append (mark.append ht)
    · simpa using name.append ht
  have whole := IsItem.flatMap_append (f := fun word => [word])
    (fun word hw => isItem_of_isIdentifier (hp.modifiers word hw)) close
  rw [List.flatMap_singleton'] at whole
  simpa [words] using whole

theorem IsProper.isItem_lead_append (hp : p.IsProper) (ht : tokens = [] ∨ IsItem tokens) :
    IsItem (p.lead ++ tokens) := by
  obtain ⟨before, after⟩ := List.forall_mem_append.1 hp.decorators
  have behind := IsItem.flatMap_append (fun name hn => isItem_bareDecorator (after name hn))
    (hp.isItem_words_append ht)
  have injected : IsItem (p.token.elim [] tokenDecorator ++
      (p.after.flatMap bareDecorator ++ (p.words ++ tokens))) := by
    cases token : p.token with
    | none => exact behind
    | some t => exact (isItem_tokenDecorator (hp.token t token)).append behind
  have whole :=
    IsItem.flatMap_append (fun name hn => isItem_bareDecorator (before name hn)) injected
  simpa [lead] using whole

theorem IsProper.not_mem_words (hp : p.IsProper) :
    ∀ c ∈ p.words.flatten, c ∉ [':', '<', '>', '@'] := by
  have word : ∀ {name : Token}, isIdentifier name = true → ∀ c ∈ name, c ∉ [':', '<', '>', '@'] :=
    fun hn c hc => not_mem_of_test (isNameChar_of_mem_isIdentifier hn hc) (by decide)
  intro c hc
  simp only [words, List.flatten_append, List.mem_append, List.flatten_cons] at hc
  rcases hc with hc | hc | hc
  · obtain ⟨name, mem, hc⟩ := List.mem_flatten.1 hc
    exact word (hp.modifiers name mem) c hc
  · exact word hp.name c hc
  · split at hc
    · rw [List.flatten_singleton, List.mem_singleton] at hc
      exact hc ▸ by decide
    · cases hc

theorem IsProper.not_mem_lead (hp : p.IsProper) :
    ∀ c ∈ p.lead.flatten, c ∉ [':', '<', '>'] := by
  have dotted : ∀ {name : Token}, IsDottedName name → ∀ c ∈ name, c ∉ [':', '<', '>'] :=
    fun hn => hn.not_mem (by decide)
  have called : ∀ {word : Token} {tokens : List Token}, (∀ c ∈ word, c ∉ [':', '<', '>']) →
      (∀ c ∈ tokens.flatten, c ∉ [':', '<', '>']) →
      ∀ c ∈ (word :: bracketed '(' ')' tokens).flatten, c ∉ [':', '<', '>'] := by
    intro word tokens hw ht c hc
    rw [List.flatten_cons, List.mem_append] at hc
    exact hc.elim (hw c)
      (forall_mem_bracketed (Q := (· ∉ [':', '<', '>'])) (by decide) (by decide) ht c)
  have decorated : ∀ {names : List Token}, (∀ name ∈ names, IsDottedName name) →
      ∀ c ∈ (names.flatMap bareDecorator).flatten, c ∉ [':', '<', '>'] := by
    intro names hn c hc
    obtain ⟨t, ht, hc⟩ := List.mem_flatten.1 hc
    obtain ⟨name, mem, ht⟩ := List.mem_flatMap.1 ht
    have at_name : ∀ c ∈ '@' :: name, c ∉ [':', '<', '>'] :=
      List.forall_mem_cons.2 ⟨by decide, dotted (hn name mem)⟩
    exact called at_name (fun _ h => (List.not_mem_nil h).elim) c (List.mem_flatten.2 ⟨t, ht, hc⟩)
  obtain ⟨before, after⟩ := List.forall_mem_append.1 hp.decorators
  intro c hc
  simp only [lead, List.flatten_append, List.mem_append] at hc
  rcases hc with hc | hc | hc | hc
  · exact decorated before c hc
  · cases token : p.token with
    | none =>
      rw [token] at hc
      cases hc
    | some t =>
      rw [token] at hc
      have inject : ∀ c ∈ "@Inject".toList, c ∉ [':', '<', '>'] := not_mem_of_all (by decide)
      refine called inject ?_ c hc
      rw [List.flatten_singleton]
      exact dotted (hp.token t token)
  · exact decorated after c hc
  · exact fun mem => hp.not_mem_words c hc (List.mem_append_left ['@'] mem)

end Parameter

theorem isSolid_brackets : IsSolid ['[', ']'] :=
  (isSolid_singleton rfl).append (isSolid_singleton rfl)

theorem isItem_closedArray : IsItem closedArray where
  ne_nil := List.cons_ne_nil _ _
  phrases := List.forall_mem_singleton.2 (.word isSolid_brackets)
  nested := (isItem_bracketed isPair_square isBody_nil).nested

theorem DeclaredType.IsProper.isBody (ha : a.IsProper) : IsBody a.written := by
  have array : ∀ array ∈ [[], closedArray, openArray], IsBody array := by
    have opened := (isItem_bracketed isPair_square isBody_nil).isBody
    simp only [List.forall_mem_cons]
    exact ⟨isBody_nil, isItem_closedArray.isBody, opened, fun _ h => nomatch h⟩
  have union : ∀ union ∈ [[], [['|'], "null".toList], [['|'], "undefined".toList]],
      IsBody union := by
    have bar : IsItem [['|']] := isItem_of_all (by decide) (by decide)
    have word : ∀ {w : Token}, isIdentifier w = true → IsBody [['|'], w] :=
      fun hw => (bar.append (isItem_of_isIdentifier hw)).isBody
    simp only [List.forall_mem_cons]
    exact ⟨isBody_nil, word (by decide), word (by decide), fun _ h => nomatch h⟩
  exact ha.type.isBody.append ((array _ ha.array).append (union _ ha.union))

theorem DeclaredType.IsProper.not_mem (ha : a.IsProper) :
    ∀ c ∈ a.written.flatten, c ∉ outerMarks := by
  have array : ∀ array ∈ [[], closedArray, openArray],
      array.flatten.all (!outerMarks.contains ·) = true := by decide
  have union : ∀ union ∈ [[], [['|'], "null".toList], [['|'], "undefined".toList]],
      union.flatten.all (!outerMarks.contains ·) = true := by decide
  intro c hc
  simp only [written, List.flatten_append, List.mem_append] at hc
  rcases hc with hc | hc | hc
  · exact ha.type.not_mem c hc
  · exact not_mem_of_all (array _ ha.array) c hc
  · exact not_mem_of_all (union _ ha.union) c hc

theorem Parameter.IsProper.isBody (hp : p.IsProper) : IsBody p.written := by
  have lead : IsBody p.lead := by
    have := (hp.isItem_lead_append (.inl rfl)).isBody
    rwa [List.append_nil] at this
  cases declared : p.declared with
  | none =>
    rw [written, declared]
    exact lead.append isBody_nil
  | some a =>
    have colon : IsItem [[':']] := isItem_of_all (by decide) (by decide)
    rw [written, declared]
    exact lead.append (colon.isBody.append (hp.declared a declared).isBody)

end AngularAtlas.Source
