import AngularAtlas.Proofs.Source.Constructor
import AngularAtlas.Proofs.Text.Squeeze

namespace AngularAtlas.Source

open Text

/-- A decorator, perhaps with arguments in which the brackets are properly nested. -/
inductive IsDecorator : List Char → Prop
  | bare {name : Token} : IsDottedName name → IsDecorator ('@' :: name)
  | call {name : Token} {gap arguments : List Char} : IsDottedName name → Text.IsBlank gap →
      Nested true arguments → IsDecorator ('@' :: (name ++ (gap ++ '(' :: (arguments ++ [')']))))

/-- A parameter that is declared with a bare name as its type, with the text of its decorators in
front of the declaration. -/
structure IsDecorated (type : Token) (front declaration : List Char) : Prop where
  decorators : ∃ decorators, (∀ decorator ∈ decorators, IsDecorator decorator) ∧
    Spaced decorators front
  declaration : ∃ modifiers name, (∀ word ∈ modifiers ++ [name], isIdentifier word = true) ∧
    Spaced (modifiers ++ [name, [':'], type]) declaration
  type : IsDottedName type

/-- A plain token is injected at a place of a text. -/
def InjectsAt (s place : List Char) (token : Token) : Prop :=
  IsPlainToken token ∧ ∃ inside rest, Spaced [['('], token] inside ∧
    s = place ++ ("@Inject".toList ++ (inside ++ ')' :: rest))

/-- The first plain token that is injected in a text. -/
def InjectsFirst (s : List Char) (token : Token) : Prop :=
  ∃ place, InjectsAt s place token ∧
    ∀ other token', InjectsAt s other token' → place.length ≤ other.length

/-- As many brackets are opened as closed in front of a colon, angle brackets among them. -/
def HasOuterColon (s : List Char) : Prop := ∃ a b, s = a ++ ':' :: b ∧ angleSurplus a = 0

variable {s t front declaration body place after : List Char} {name type token : Token}
  {c : Char} {before : Option Char} {depth : Int}

theorem injectDecorator?_squeeze (before : Option Char) (s : List Char) :
    injectDecorator? before (squeeze s) =
      (injectDecorator? before s).map fun found => (found.1, squeeze found.2) := by
  simp only [injectDecorator?, Option.bind_eq_bind]
  rw [isPrefixOf?_squeeze fun c hc => eq_false_of_mem hc (by decide), Option.bind_map,
    Option.map_bind]
  refine congrArg _ (funext fun s => ?_)
  simp only [Function.comp_apply]
  rw [afterChar?_skipBlanks_squeeze rfl, Option.bind_map, Option.map_bind]
  refine congrArg _ (funext fun s => ?_)
  simp only [Function.comp_apply]
  rw [skipBlanks_squeeze, ← squeeze_skipBlanks]
  cases hs : skipBlanks s with
  | nil => rfl
  | cons c r =>
    have solid : isBlank c = false := by
      have := List.head?_dropWhile_not isBlank s
      rw [← skipBlanks, hs] at this
      exact this
    have tokenChar : ∀ d, (isNameChar d || d == '.') = true → isBlank d = false := by
      intro d hd
      rcases Bool.or_eq_true_iff.1 hd with hd | hd
      · exact isBlank_eq_false_of_isNameChar hd
      · exact eq_of_beq hd ▸ rfl
    obtain ⟨taken, left⟩ := takeWhile_squeeze tokenChar r
    rw [squeeze_cons solid]
    simp only [taken, left]
    rw [afterChar?_skipBlanks_squeeze rfl]
    simp only [Option.bind_map, Option.map_bind, Function.comp_def]
    rfl

/-- The token that a text injects first. -/
def tokenOf? (s : List Char) : Option Token := (findFirst? injectDecorator? s).map (·.1)

theorem tokenOf?_cons (hc : isBlank c = true) (s : List Char) : tokenOf? (c :: s) = tokenOf? s := by
  have nothing : NoToken [c] := noToken_of_not_mem fun mem =>
    absurd (List.mem_singleton.1 mem ▸ hc) (by decide)
  exact congrArg (Option.map (·.1)) (nothing s)

theorem tokenOf?_squeeze (s : List Char) : tokenOf? (squeeze s) = tokenOf? s := by
  induction s with
  | nil => rfl
  | cons c s ih =>
    cases hc : isBlank c with
    | true =>
      rw [apply_squeeze_cons_of_blank tokenOf? (fun _ s hc => tokenOf?_cons hc s) hc, ih,
        tokenOf?_cons hc]
    | false =>
      -- what is read here does not depend on the spacing, and the search behind it neither
      have here := injectDecorator?_squeeze none (c :: s)
      rw [squeeze_cons hc] at here ⊢
      rw [tokenOf?, tokenOf?, findFirst?, findFirst?, findFirstFrom?, findFirstFrom?, here]
      cases injectDecorator? none (c :: s) with
      | some found => rfl
      | none => simpa only [tokenOf?, Option.map_none, findFirstFrom?_injectDecorator?] using ih

theorem tokenOf?_collapse (s : List Char) : tokenOf? (collapse s) = tokenOf? s := by
  rw [apply_collapse tokenOf? fun _ s hc => tokenOf?_cons hc s, tokenOf?_squeeze]

/-- What stands behind the outer colons of a text. -/
def behindColons (depth : Int) (s : List Char) : List (List Char) :=
  (colonSplits depth s).map (·.2)

theorem behindColons_cons (c : Char) (s : List Char) :
    behindColons depth (c :: s) =
      if c = ':' ∧ depth = 0 then s :: behindColons (depth + angleStep c) s
      else behindColons (depth + angleStep c) s := by
  have later : ((colonSplits (depth + angleStep c) s).map fun split => (c :: split.1, split.2)).map
      (·.2) = behindColons (depth + angleStep c) s := by
    rw [List.map_map]
    rfl
  rw [behindColons, colonSplits]
  split
  · exact congrArg (s :: ·) later
  · exact later

theorem behindColons_cons_of_blank (hc : isBlank c = true) (s : List Char) :
    behindColons depth (c :: s) = behindColons depth s := by
  have marks : c ∉ [':', '<', '>'] := not_mem_of_test hc (by decide)
  obtain ⟨angle, other⟩ := angleStep_eq_bracketStep marks
  rw [behindColons_cons, if_neg fun h => other h.1, angle, (bracketStep_of_isBlank hc).1,
    Int.add_zero]

theorem behindColons_squeeze (depth : Int) (s : List Char) :
    behindColons depth (squeeze s) = (behindColons depth s).map squeeze := by
  induction s generalizing depth with
  | nil => rfl
  | cons c s ih =>
    cases hc : isBlank c with
    | true =>
      rw [apply_squeeze_cons_of_blank _ (fun _ s hc => behindColons_cons_of_blank hc s) hc, ih,
        behindColons_cons_of_blank hc]
    | false =>
      rw [squeeze_cons hc, behindColons_cons, behindColons_cons, ih]
      split <;> rfl

theorem behindColons_collapse (depth : Int) (s : List Char) :
    behindColons depth (collapse s) = (behindColons depth s).map squeeze := by
  rw [apply_collapse _ fun _ s hc => behindColons_cons_of_blank hc s, behindColons_squeeze]

theorem parameterDependency?_collapse (s : List Char) :
    parameterDependency? (collapse s) = (tokenOf? s).or
      (((behindColons 0 s).getLast?.map squeeze).bind typeName?) := by
  have last : ((colonSplits 0 (collapse s)).getLast?.bind fun split => typeName? split.2) =
      (behindColons 0 (collapse s)).getLast?.bind typeName? := by
    rw [behindColons, List.getLast?_map, Option.bind_map]
    rfl
  rw [parameterDependency?_eq, last, behindColons_collapse, List.getLast?_map, ← tokenOf?_collapse]
  rfl

theorem injectsAt_iff : InjectsAt s place token ↔ ∃ back rest, s = place ++ back ∧ back ≠ [] ∧
    injectDecorator? place.getLast? back = some (token, rest) := by
  constructor
  · rintro ⟨plain, inside, rest, hi, he⟩
    exact ⟨_, rest, he, by simp, injectDecorator?_eq_some_iff.2 ⟨plain, inside, rfl, hi⟩⟩
  · rintro ⟨back, rest, he, -, here⟩
    obtain ⟨plain, inside, rfl, hi⟩ := injectDecorator?_eq_some_iff.1 here
    exact ⟨plain, inside, rest, hi, he⟩

theorem tokenOf?_eq_some_iff : tokenOf? s = some token ↔ InjectsFirst s token := by
  constructor
  · intro h
    obtain ⟨⟨_, rest⟩, found, rfl⟩ := Option.map_eq_some_iff.1 h
    obtain ⟨place, back, he, ne, here, leftmost⟩ := findFirst?_eq_some_iff.1 found
    refine ⟨place, injectsAt_iff.2 ⟨back, rest, he, ne, here⟩, fun other token' later => ?_⟩
    obtain ⟨back', rest', he', ne', there⟩ := injectsAt_iff.1 later
    exact leftmost other back' _ he' ne' there
  · rintro ⟨place, here, first⟩
    obtain ⟨back, rest, he, ne, found⟩ := injectsAt_iff.1 here
    refine Option.map_eq_some_iff.2 ⟨(token, rest), findFirst?_eq_some_iff.2
      ⟨place, back, he, ne, found, fun a b other he' ne' there => ?_⟩, rfl⟩
    exact first a other.1 (injectsAt_iff.2 ⟨b, other.2, he', ne', there⟩)

theorem tokenOf?_eq_none_iff : tokenOf? s = none ↔ ∀ place token, ¬InjectsAt s place token := by
  rw [tokenOf?, Option.map_eq_none_iff, findFirst?_eq_none_iff]
  constructor
  · intro nowhere place token here
    obtain ⟨back, rest, he, ne, found⟩ := injectsAt_iff.1 here
    rw [nowhere place back he ne] at found
    cases found
  · intro nowhere a b he ne
    exact Option.eq_none_iff_forall_ne_some.2 fun found here =>
      nowhere a found.1 (injectsAt_iff.2 ⟨b, found.2, he, ne, here⟩)

/-- What closes no bracket takes no part in an injection in front of it. -/
theorem injectsAt_append_iff (hs : ')' ∉ declaration) :
    InjectsAt (front ++ declaration) place token ↔ InjectsAt front place token := by
  constructor
  · rintro ⟨plain, inside, rest, hi, he⟩
    have parts : (place ++ ("@Inject".toList ++ inside)) ++ ')' :: rest = front ++ declaration := by
      simpa using he.symm
    -- the bracket behind the token can only stand in `front`
    rcases List.append_eq_append_iff.1 parts with ⟨a, rfl, behind⟩ | ⟨b, -, rfl⟩
    · cases a with
      | nil =>
        obtain rfl : ')' :: rest = declaration := behind
        simp at hs
      | cons c a =>
        obtain ⟨rfl, -⟩ := List.cons.inj behind
        exact ⟨plain, inside, a, hi, by simp⟩
    · simp at hs
  · rintro ⟨plain, inside, rest, hi, rfl⟩
    exact ⟨plain, inside, rest ++ declaration, hi, by simp⟩

theorem tokenOf?_append (hs : ')' ∉ declaration) :
    tokenOf? (front ++ declaration) = tokenOf? front := by
  refine Option.ext fun token => ?_
  rw [tokenOf?_eq_some_iff, tokenOf?_eq_some_iff, InjectsFirst, InjectsFirst]
  simp only [injectsAt_append_iff hs]

theorem behindColons_append (depth : Int) (s t : List Char) :
    behindColons depth (s ++ t) =
      (behindColons depth s).map (· ++ t) ++ behindColons (depth + angleSurplus s) t := by
  simp only [behindColons, colonSplits_append, List.map_append, List.map_map]
  rfl

theorem behindColons_eq_nil (hs : ':' ∉ s) : behindColons depth s = [] := by
  rw [behindColons, colonSplits_eq_nil hs, List.map_nil]

theorem behindColons_eq_nil_of_forall (hs : ∀ a b, s = a ++ ':' :: b → depth + angleSurplus a ≠ 0) :
    behindColons depth s = [] := by
  induction s generalizing depth with
  | nil => rfl
  | cons c s ih =>
    have inner : ¬(c = ':' ∧ depth = 0) := by
      rintro ⟨rfl, rfl⟩
      exact hs [] s rfl rfl
    rw [behindColons_cons, if_neg inner]
    refine ih fun a b he => ?_
    have := hs (c :: a) b (by rw [he]; rfl)
    rwa [angleSurplus_cons, ← Int.add_assoc] at this

theorem behindColons_colon (hs : ':' ∉ s) :
    behindColons depth (':' :: s) = if depth = 0 then [s] else [] := by
  rw [behindColons_cons, behindColons_eq_nil hs]
  simp

theorem IsDecorator.nested {decorator : List Char} (h : IsDecorator decorator) :
    Nested false decorator := by
  have start : ∀ {name : Token}, IsDottedName name → Nested false ('@' :: name) :=
    fun hn => .char rfl (absurd · (by decide)) hn.isDotted.nested
  cases h with
  | bare hn => exact start hn
  | call hn hg arguments =>
    exact (start hn).append ((nested_of_isBlank hg).append (arguments.bracketed isPair_round))

theorem nested_flatten {decorators : List (List Char)}
    (h : ∀ decorator ∈ decorators, IsDecorator decorator) : Nested false decorators.flatten := by
  induction decorators with
  | nil => exact .nil
  | cons decorator decorators ih =>
    obtain ⟨first, later⟩ := List.forall_mem_cons.1 h
    exact first.nested.append (ih later)

theorem IsDecorated.nested_front (hp : IsDecorated type front declaration) :
    Nested false front := by
  obtain ⟨decorators, each, hs⟩ := hp.decorators
  exact nested_of_spaced hs (nested_flatten each)

/-- What a declaration has besides the colon in front of its type is not counted. -/
def counted : List Char := ':' :: '<' :: '>' :: marks

theorem IsDecorated.exists_append (hp : IsDecorated type front declaration) :
    ∃ words back, declaration = words ++ ':' :: back ∧ Spaced [type] back ∧
      (∀ c ∈ words, c ∉ counted) ∧ ∀ c ∈ back, c ∉ counted := by
  obtain ⟨modifiers, name, identifiers, hs⟩ := hp.declaration
  have apart : modifiers ++ [name, [':'], type] = (modifiers ++ [name]) ++ [':'] :: [type] := by
    simp
  rw [apart] at hs
  obtain ⟨words, back, rfl, hw, hb⟩ := hs.exists_append_cons
  have blank : ∀ {c}, isBlank c = true → c ∉ counted := fun hc => not_mem_of_test hc (by decide)
  refine ⟨words, back, rfl, hb, fun c hc => ?_, fun c hc => ?_⟩
  · refine (hw.isBlank_or_mem hc).elim blank fun mem => ?_
    obtain ⟨word, hword, mem⟩ := List.mem_flatten.1 mem
    exact not_mem_of_test (isNameChar_of_mem_isIdentifier (identifiers word hword) mem) (by decide)
  · refine (hb.isBlank_or_mem hc).elim blank fun mem => ?_
    exact hp.type.not_mem (by decide) c (by simpa using mem)

theorem IsDecorated.nested (hp : IsDecorated type front declaration) :
    Nested false (front ++ declaration) ∧ ')' ∉ declaration := by
  obtain ⟨words, back, rfl, -, plain, other⟩ := hp.exists_append
  have nested : ∀ {s : List Char}, (∀ c ∈ s, c ∉ counted) → Nested false s := fun hs =>
    nested_of_not_mem_marks fun c hc mem => hs c hc (by simp [counted, mem])
  refine ⟨hp.nested_front.append
    ((nested plain).append (.char rfl (absurd · (by decide)) (nested other))), ?_⟩
  simp only [List.mem_append, List.mem_cons, not_or]
  exact ⟨fun mem => plain _ mem (by decide), by decide, fun mem => other _ mem (by decide)⟩

/-- The colon in front of the type is an outer one when the angle brackets of the decorators are as
many opening as closing ones. -/
theorem IsDecorated.exists_behindColons (hp : IsDecorated type front declaration) :
    ∃ words back, ':' ∉ words ∧ Spaced [type] back ∧
      behindColons 0 (front ++ declaration) =
        (behindColons 0 (front ++ words)).map (· ++ ':' :: back) ++
          if front.count '<' = front.count '>' then [back] else [] := by
  obtain ⟨words, back, rfl, hb, plain, other⟩ := hp.exists_append
  refine ⟨words, back, fun mem => plain _ mem (by decide), hb, ?_⟩
  have nested : Nested false words :=
    nested_of_not_mem_marks fun c hc mem => plain c hc (by simp [counted, mem])
  -- the other brackets are nested, so that only the angle brackets of `front` are left over
  have level : angleSurplus (front ++ words) = front.count '<' - front.count '>' := by
    rw [angleSurplus, (hp.nested_front.append nested).surplus_eq, List.count_append,
      List.count_append, List.count_eq_zero.2 fun mem => plain _ mem (by decide),
      List.count_eq_zero.2 fun mem => plain _ mem (by decide)]
    omega
  have outer : angleSurplus (front ++ words) = 0 ↔ front.count '<' = front.count '>' := by
    omega
  rw [← List.append_assoc, behindColons_append, Int.zero_add,
    behindColons_colon fun mem => other _ mem (by decide)]
  simp only [outer]

theorem IsDecorated.typeName?_squeeze (hp : IsDecorated type front declaration)
    (hs : Spaced [type] s) : typeName? (squeeze s) = some type := by
  have phrase : IsPhrase type := .word hp.type.isDotted.isSolid
  have bare : [] ∈ [[], closedArray] := List.mem_cons_self
  have name := typeName?_append hp.type bare (hs.squeeze (List.forall_mem_singleton.2 phrase))
    (r := []) fun _ h => nomatch h
  rwa [List.append_nil] at name

theorem constructorDependencies_of_nested (hs : Nested false s)
    (first : OpensFirst body place (s ++ ')' :: after)) :
    constructorDependencies body = (parameterDependency? (collapse s)).toList := by
  have parameters := hs.balanced? isPair_round after
  simp only [constructorDependencies, first.findFirst?, Option.bind_some, parameters]
  rw [filterMap_elements_eq, hs.splitAtCommas_eq, List.filterMap_cons, Function.comp_apply]
  cases parameterDependency? (collapse s) <;> rfl

/-- A decorated parameter asks for the first plain token of its decorators. Without one it asks for
its type, when as many angle brackets are opened in the decorators as closed; else the colon in
front of the type does not count. -/
theorem constructorDependencies_decorated (hp : IsDecorated type front declaration)
    (first : OpensFirst body place (front ++ declaration ++ ')' :: after)) :
    (∀ token, InjectsFirst front token → constructorDependencies body = [token]) ∧
      ((∀ place token, ¬InjectsAt front place token) →
        (front.count '<' = front.count '>' → constructorDependencies body = [type]) ∧
        (front.count '<' ≠ front.count '>' → ¬HasOuterColon front →
          constructorDependencies body = [])) := by
  obtain ⟨nested, unclosed⟩ := hp.nested
  obtain ⟨words, back, plain, hb, behind⟩ := hp.exists_behindColons
  rw [constructorDependencies_of_nested nested first, parameterDependency?_collapse, behind,
    tokenOf?_append unclosed]
  refine ⟨fun token injects => ?_, fun nowhere => ?_⟩
  · rw [tokenOf?_eq_some_iff.2 injects]
    rfl
  rw [tokenOf?_eq_none_iff.2 nowhere, Option.none_or]
  refine ⟨fun same => ?_, fun differ inner => ?_⟩
  · rw [if_pos same, List.getLast?_concat, Option.map_some, Option.bind_some,
      hp.typeName?_squeeze hb]
    rfl
  · have none : behindColons 0 front = [] := behindColons_eq_nil_of_forall fun a b he level =>
      inner ⟨a, b, he, by rwa [Int.zero_add] at level⟩
    rw [if_neg differ, behindColons_append, none, behindColons_eq_nil plain]
    rfl

/-- The arguments of the second decorator, an arrow function with a comparison in its body, open as
many angle brackets as they close. -/
def sortedDecorators : List (List Char) :=
  ["@Optional()".toList, "@Sorted.By(() =>\n [a < b])".toList]

def storeTokens : List Token :=
  ["private".toList, "readonly".toList] ++ ["store".toList, [':'], "ng.Store".toList]

def sortedText : List Char := sortedDecorators.flatMap fun decorator => decorator ++ [' ']

def storeText : List Char := storeTokens.flatMap fun token => token ++ [' ']

theorem isDecorated_storeText : IsDecorated "ng.Store".toList sortedText storeText := by
  have optional : IsDecorator "@Optional()".toList :=
    .call (.name (by decide) : IsDottedName "Optional".toList) isBlank_nil .nil
  have arrow : Nested true " =>\n ".toList := nested_of_not_mem_marks (not_mem_of_all (by decide))
  have comparison : Nested true "a < b".toList :=
    nested_of_not_mem_marks (not_mem_of_all (by decide))
  have inside : Nested true (('(' :: ([] ++ [')'])) ++ (" =>\n ".toList ++
      ('[' :: ("a < b".toList ++ [']'])))) :=
    (Nested.nil.bracketed isPair_round).append
      (arrow.append (comparison.bracketed isPair_square))
  have sortedBy : IsDottedName ("Sorted".toList ++ '.' :: "By".toList) :=
    .dot (by decide) (.name (by decide))
  have sorted : IsDecorator "@Sorted.By(() =>\n [a < b])".toList :=
    .call sortedBy isBlank_nil inside
  have store : IsDottedName ("ng".toList ++ '.' :: "Store".toList) :=
    .dot (by decide) (.name (by decide))
  refine ⟨⟨sortedDecorators, ?_, spaced_flatMap _⟩, ⟨_, _, ?_, spaced_flatMap storeTokens⟩,
    store⟩
  · simp only [sortedDecorators, List.forall_mem_cons]
    exact ⟨optional, sorted, fun _ h => nomatch h⟩
  · decide

theorem constructorDependencies_decorated_sortedText :
    IsDecorated "ng.Store".toList sortedText storeText ∧
      OpensFirst ("constructor(".toList ++ (sortedText ++ storeText ++ [')'])) []
        (sortedText ++ storeText ++ [')']) ∧
      (∀ place token, ¬InjectsAt sortedText place token) ∧
      sortedText.count '<' = sortedText.count '>' ∧
      constructorDependencies ("constructor(".toList ++ (sortedText ++ storeText ++ [')'])) =
        ["ng.Store".toList] := by
  have opens : OpensFirst ("constructor(".toList ++ (sortedText ++ storeText ++ [')'])) []
      (sortedText ++ storeText ++ [')']) := opensFirst_self isBlank_nil _
  have nowhere := tokenOf?_eq_none_iff.1 (show tokenOf? sortedText = none by decide +kernel)
  have same : sortedText.count '<' = sortedText.count '>' := by decide +kernel
  obtain ⟨-, typed⟩ := constructorDependencies_decorated isDecorated_storeText opens
  exact ⟨isDecorated_storeText, opens, nowhere, same, (typed nowhere).1 same⟩

/-- What one would expect of decorators: none of them hides the type. -/
def NoneHides : Prop :=
  ∀ type front declaration, IsDecorated type front declaration →
    (∀ token, InjectsFirst front token →
      token ∈ constructorDependencies ("constructor(".toList ++ (front ++ declaration ++ [')']))) ∧
    ((∀ place token, ¬InjectsAt front place token) →
      type ∈ constructorDependencies ("constructor(".toList ++ (front ++ declaration ++ [')'])))

def lateDecorator : List Char := "@Inject(forwardRef(() => Foo))".toList

theorem isDecorated_lateDecorator :
    IsDecorated "Foo".toList (lateDecorator ++ [' ']) "private foo: Foo".toList := by
  have reference : Nested true "forwardRef".toList :=
    nested_of_not_mem_marks (not_mem_of_all (by decide))
  have arrow : Nested true " => Foo".toList := nested_of_not_mem_marks (not_mem_of_all (by decide))
  have call : Nested true ("forwardRef".toList ++
      ('(' :: (('(' :: ([] ++ [')'])) ++ " => Foo".toList ++ [')']))) :=
    reference.append (((Nested.nil.bracketed isPair_round).append arrow).bracketed isPair_round)
  have late : IsDecorator lateDecorator :=
    .call (.name (by decide) : IsDottedName "Inject".toList) isBlank_nil call
  have declared : Spaced (["private".toList] ++ ["foo".toList, [':'], "Foo".toList])
      ([] ++ ("private".toList ++ ([' '] ++ ("foo".toList ++ ([] ++ ([':'] ++ ([' '] ++
        ("Foo".toList ++ [])))))))) :=
    .cons isBlank_nil (.cons isBlank_space (.cons isBlank_nil (.cons isBlank_space
      (.nil isBlank_nil))))
  exact ⟨⟨[lateDecorator], List.forall_mem_singleton.2 late,
    .cons isBlank_nil (.nil isBlank_space)⟩, ⟨_, _, by decide, declared⟩, .name (by decide)⟩

theorem not_noneHides : ¬NoneHides := by
  intro hides
  have nowhere := tokenOf?_eq_none_iff.1
    (show tokenOf? (lateDecorator ++ [' ']) = none by decide +kernel)
  have found : constructorDependencies ("constructor(".toList ++
      (lateDecorator ++ [' '] ++ "private foo: Foo".toList ++ [')'])) = [] := by decide +kernel
  have expected := (hides _ _ _ isDecorated_lateDecorator).2 nowhere
  rw [found] at expected
  cases expected

end AngularAtlas.Source
