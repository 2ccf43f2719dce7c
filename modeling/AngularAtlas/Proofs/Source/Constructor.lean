import AngularAtlas.Proofs.Source.ParameterReading

namespace AngularAtlas.Source

open Text

/-- The word `constructor` and an opening bracket stand in a class body behind `front`. -/
structure Opens (body front rest : List Char) : Prop where
  boundary : ∀ c ∈ front.getLast?, isWord c = false
  text : ∃ gap, Text.IsBlank gap ∧
    body = front ++ ("constructor".toList ++ (gap ++ '(' :: rest))

/-- The first constructor opens behind `front`. -/
structure OpensFirst (body front rest : List Char) : Prop where
  opens : Opens body front rest
  first : ∀ {other later}, Opens body other later → front.length ≤ other.length

theorem opensFirst_self {gap : List Char} (hg : Text.IsBlank gap) (rest : List Char) :
    OpensFirst ("constructor".toList ++ (gap ++ '(' :: rest)) [] rest :=
  ⟨⟨fun _ h => (nomatch h), gap, hg, rfl⟩, fun _ => Nat.zero_le _⟩

/-- The first constructor of a class body has some parameters, perhaps with a comma behind the last
one. -/
def HasConstructor (body : List Char) (ps : List Parameter) : Prop :=
  ∃ comma front inside after, Spaced (separated comma (ps.map Parameter.written)) inside ∧
    OpensFirst body front (inside ++ ')' :: after)

variable {body front rest s t : List Char} {before : Option Char} {ps : List Parameter}
  {comma : Bool}

theorem isBoundary_constructor (before : Option Char) (s : List Char) :
    isBoundary before ("constructor".toList ++ s) = true ↔ ∀ c ∈ before, isWord c = false := by
  change (before.any isWord != true) = true ↔ _
  cases before <;> simp

theorem exists_of_constructorStart? (h : constructorStart? before s = some ((), t)) :
    (∀ c ∈ before, isWord c = false) ∧ ∃ gap rest, Text.IsBlank gap ∧ t = '(' :: rest ∧
      s = "constructor".toList ++ (gap ++ t) := by
  simp only [constructorStart?, Option.bind_eq_bind, Option.bind_eq_some_iff] at h
  obtain ⟨_, boundary, s₁, h₁, _, opened, he⟩ := h
  obtain rfl : skipBlanks s₁ = t := (Prod.mk.inj (Option.some.inj he)).2
  obtain ⟨gap, rest, hg, hr, rfl⟩ :=
    exists_of_head?_skipBlanks ((Option.guard_eq_some' _).1 opened)
  obtain rfl := isPrefixOf?_append h₁
  refine ⟨(isBoundary_constructor before _).1 ((Option.guard_eq_some' _).1 boundary), gap, rest,
    hg, hr, ?_⟩
  rw [hr]

theorem constructorStart?_append (hb : ∀ c ∈ before, isWord c = false) {gap : List Char}
    (hg : Text.IsBlank gap) (rest : List Char) :
    constructorStart? before ("constructor".toList ++ (gap ++ '(' :: rest)) =
      some ((), '(' :: rest) := by
  have opened : skipBlanks (gap ++ '(' :: rest) = '(' :: rest := by
    rw [skipBlanks_append hg, skipBlanks_of_not_blank (by decide)]
  simp only [constructorStart?, (isBoundary_constructor before _).2 hb, isPrefixOf?_append_self,
    opened, List.head?_cons, guard_true, Option.bind_eq_bind, Option.bind_some]
  rfl

theorem Opens.reads (h : Opens body front rest) :
    ∃ back, body = front ++ back ∧ back ≠ [] ∧
      constructorStart? front.getLast? back = some ((), '(' :: rest) := by
  obtain ⟨gap, hg, rfl⟩ := h.text
  exact ⟨_, rfl, List.append_ne_nil_of_left_ne_nil (by decide) _,
    constructorStart?_append h.boundary hg rest⟩

theorem exists_opens {back : List Char} (h : constructorStart? front.getLast? back = some ((), t)) :
    ∃ rest, t = '(' :: rest ∧ Opens (front ++ back) front rest := by
  obtain ⟨boundary, gap, rest, hg, ht, rfl⟩ := exists_of_constructorStart? h
  exact ⟨rest, ht, boundary, gap, hg, by rw [ht]⟩

theorem OpensFirst.findFirst? (ho : OpensFirst body front rest) :
    findFirst? constructorStart? body = some ((), '(' :: rest) := by
  obtain ⟨back, he, ne, here⟩ := ho.opens.reads
  refine findFirst?_eq_some_iff.2 ⟨front, back, he, ne, here, fun a b other he _ found => ?_⟩
  obtain ⟨_, -, there⟩ := exists_opens found
  rw [← he] at there
  exact ho.first there

theorem exists_opensFirst (h : findFirst? constructorStart? body = some ((), t)) :
    ∃ front rest, t = '(' :: rest ∧ OpensFirst body front rest := by
  obtain ⟨front, back, rfl, -, here, leftmost⟩ := findFirst?_eq_some_iff.1 h
  obtain ⟨rest, rfl, opens⟩ := exists_opens here
  refine ⟨front, rest, rfl, opens, fun {other later} found => ?_⟩
  obtain ⟨back', he, ne, there⟩ := found.reads
  exact leftmost other back' _ he ne there

theorem not_opens_of_findFirst? (h : findFirst? constructorStart? body = none)
    (front rest : List Char) : ¬Opens body front rest := by
  intro opens
  obtain ⟨back, he, ne, here⟩ := opens.reads
  exact nomatch (findFirst?_eq_none_iff.1 h front back he ne).symm.trans here

/-- The pieces of a parameter tell what it asks for, whatever stands behind the comma after it. -/
theorem filterMap_elements_append_comma {p : Parameter} (hp : p.IsProper) (closed : p.IsClosed)
    (hs : Spaced p.written s) (t : List Char) :
    (elements (s ++ ([','] ++ t))).filterMap parameterDependency? =
      p.dependency?.toList ++ (elements t).filterMap parameterDependency? := by
  rw [List.singleton_append, (nested_of_spaced hs hp.isBody.nested).elements_append_comma,
    List.filterMap_append, filterMap_elements hp closed hs]

theorem filterMap_elements_separated (hp : ∀ p ∈ ps, p.IsProper) (closed : ∀ p ∈ ps, p.IsClosed)
    (hs : Spaced (separated comma (ps.map Parameter.written)) s) :
    (elements s).filterMap parameterDependency? = ps.filterMap Parameter.dependency? := by
  have cons : ∀ (p : Parameter) (ps : List Parameter),
      p.dependency?.toList ++ ps.filterMap Parameter.dependency? =
        (p :: ps).filterMap Parameter.dependency? := by
    intro p ps
    rw [List.filterMap_cons]
    cases p.dependency? <;> rfl
  induction ps generalizing s with
  | nil =>
    cases hs with
    | nil hb => rw [elements_of_isBlank hb]; rfl
  | cons p ps ih =>
    obtain ⟨first, later⟩ := List.forall_mem_cons.1 hp
    obtain ⟨firstClosed, laterClosed⟩ := List.forall_mem_cons.1 closed
    rw [← cons]
    cases ps with
    | nil =>
      cases comma with
      | false =>
        rw [filterMap_elements first firstClosed hs]
        exact (List.append_nil _).symm
      | true =>
        obtain ⟨front, back, rfl, hf, hb⟩ := hs.exists_append_cons
        rw [filterMap_elements_append_comma first firstClosed hf]
        cases hb with
        | nil hb => rw [elements_of_isBlank hb]; rfl
    | cons q ps =>
      obtain ⟨front, back, rfl, hf, hb⟩ := hs.exists_append_cons
      rw [filterMap_elements_append_comma first firstClosed hf, ih later laterClosed hb]

theorem isBody_parameters (hp : ∀ p ∈ ps, p.IsProper) :
    IsBody (separated comma (ps.map Parameter.written)) := by
  refine separated_induction isBody_nil isBody_comma .append fun item h => ?_
  obtain ⟨p, mem, rfl⟩ := List.mem_map.1 h
  exact (hp p mem).isBody

/-- The parameters of the first constructor tell what it asks for, however they are spaced, as long
as no blank stands between the brackets of an array behind a bare name. -/
theorem constructorDependencies_of_hasConstructor (hp : ∀ p ∈ ps, p.IsProper)
    (closed : ∀ p ∈ ps, p.IsClosed) (has : HasConstructor body ps) :
    constructorDependencies body = (ps.filterMap Parameter.dependency?).eraseDups := by
  obtain ⟨comma, front, inside, after, hs, first⟩ := has
  have nested := nested_of_spaced hs (isBody_parameters hp).nested
  have parameters := nested.balanced? isPair_round after
  simp only [constructorDependencies, first.findFirst?, Option.bind_some, parameters]
  rw [filterMap_elements_separated hp closed hs]

def heroType : List Token :=
  "List".toList :: bracketed '<' '>' (separated false [["Hero".toList], ["Villain".toList]])

def cacheType : List Token :=
  "ng.Map".toList :: bracketed '<' '>' (separated false [["string".toList], heroType])

def cacheParameters : List Parameter :=
  [{ before := ["Optional".toList]
     token := "APP_CONFIG".toList
     modifiers := ["private".toList]
     name := "config".toList
     declared := some ⟨"Config".toList, ["Config".toList], closedArray, []⟩ },
    { modifiers := ["protected".toList, "readonly".toList]
      name := "cache".toList
      isOptional := true
      declared := some ⟨"ng.Map".toList, cacheType, openArray, [['|'], "null".toList]⟩ },
    { name := "plain".toList }]

def cacheBody : List Char :=
  "constructor (".toList ++ ((separated true (cacheParameters.map Parameter.written)).flatMap
    (fun token => token ++ [' ']) ++ ") \x7b\x7d".toList)

theorem isType_cacheType : IsType "ng.Map".toList cacheType := by
  have named : ∀ {name : Token}, isIdentifier name = true → IsType name [name] :=
    fun hn => .bare (.name hn)
  have heroes : ∀ argument ∈ [("Hero".toList, ["Hero".toList]),
      ("Villain".toList, ["Villain".toList])], IsType argument.1 argument.2 := by
    simp only [List.forall_mem_cons]
    exact ⟨named (by decide), named (by decide), fun _ h => nomatch h⟩
  have list : IsType "List".toList heroType := .generic (.name (by decide)) heroes
  have both : ∀ argument ∈ [("string".toList, ["string".toList]), ("List".toList, heroType)],
      IsType argument.1 argument.2 := by
    simp only [List.forall_mem_cons]
    exact ⟨named (by decide), list, fun _ h => nomatch h⟩
  have ng : isIdentifier "ng".toList = true := by decide
  exact .generic (.dot ng (.name (by decide))) both

theorem isProper_cacheParameters : ∀ p ∈ cacheParameters, p.IsProper := by
  have config : DeclaredType.IsProper ⟨"Config".toList, ["Config".toList], closedArray, []⟩ :=
    ⟨.bare (.name (by decide)), by decide, by decide⟩
  have cache : DeclaredType.IsProper ⟨"ng.Map".toList, cacheType, openArray,
      [['|'], "null".toList]⟩ := ⟨isType_cacheType, by decide, by decide⟩
  have word : ∀ {name : Token}, isIdentifier name = true →
      ∀ other ∈ some name, IsDottedName other :=
    fun hn _ same => Option.some.inj same ▸ .name hn
  simp only [cacheParameters, List.forall_mem_cons]
  refine ⟨⟨?_, word (by decide), by decide, by decide, fun _ h => Option.some.inj h ▸ config⟩,
    ⟨fun _ h => (nomatch h), fun _ h => (nomatch h), by decide, by decide,
      fun _ h => Option.some.inj h ▸ cache⟩,
    ⟨fun _ h => (nomatch h), fun _ h => (nomatch h), by decide, by decide,
      fun _ h => (nomatch h)⟩, fun _ h => nomatch h⟩
  exact List.forall_mem_singleton.2 (.name (by decide))

theorem constructorDependencies_cacheBody :
    (∀ p ∈ cacheParameters, p.IsProper) ∧ (∀ p ∈ cacheParameters, p.IsClosed) ∧
      HasConstructor cacheBody cacheParameters ∧
      constructorDependencies cacheBody = ["APP_CONFIG".toList, "ng.Map".toList] := by
  have closed : ∀ p ∈ cacheParameters, p.IsClosed := by
    simp only [cacheParameters, List.forall_mem_cons]
    refine ⟨fun h => (nomatch h), fun _ _ h => Option.some.inj h ▸ fun bare => ?_,
      fun _ _ h => (nomatch h), fun _ h => nomatch h⟩
    exact absurd bare (by decide)
  have has : HasConstructor cacheBody cacheParameters :=
    ⟨true, [], _, " \x7b\x7d".toList, spaced_flatMap _, opensFirst_self isBlank_space _⟩
  refine ⟨isProper_cacheParameters, closed, has, ?_⟩
  exact (constructorDependencies_of_hasConstructor isProper_cacheParameters closed has).trans
    (by decide +kernel)

/-- What one would expect of a constructor: its parameters tell what it asks for, however they are
spaced. -/
def EachTells : Prop :=
  ∀ (body : List Char) (ps : List Parameter), (∀ p ∈ ps, p.IsProper) → HasConstructor body ps →
    constructorDependencies body = (ps.filterMap Parameter.dependency?).eraseDups

def itemsParameter : Parameter where
  modifiers := ["private".toList]
  name := "items".toList
  declared := some ⟨"Item".toList, ["Item".toList], openArray, []⟩

def itemsBody : List Char := "constructor(private items: Item[ ]) \x7b\x7d".toList

theorem hasConstructor_itemsBody : HasConstructor itemsBody [itemsParameter] := by
  have inside : Spaced (separated false [itemsParameter.written])
      ([] ++ ("private".toList ++ ([' '] ++ ("items".toList ++ ([] ++ ([':'] ++ ([' '] ++
        ("Item".toList ++ ([] ++ (['['] ++ ([' '] ++ ([']'] ++ [])))))))))))) :=
    .cons isBlank_nil (.cons isBlank_space (.cons isBlank_nil (.cons isBlank_space
      (.cons isBlank_nil (.cons isBlank_space (.nil isBlank_nil))))))
  exact ⟨false, [], _, " \x7b\x7d".toList, inside, opensFirst_self isBlank_nil _⟩

theorem not_eachTells : ¬ EachTells := by
  intro tells
  have items : DeclaredType.IsProper ⟨"Item".toList, ["Item".toList], openArray, []⟩ :=
    ⟨.bare (.name (by decide)), by decide, by decide⟩
  have proper : ∀ p ∈ [itemsParameter], p.IsProper := List.forall_mem_singleton.2
    ⟨fun _ h => (nomatch h), fun _ h => (nomatch h), by decide, by decide,
      fun _ h => Option.some.inj h ▸ items⟩
  have found : constructorDependencies itemsBody = [] := by decide +kernel
  have expected := tells itemsBody [itemsParameter] proper hasConstructor_itemsBody
  rw [found] at expected
  exact absurd expected (by decide +kernel)

end AngularAtlas.Source
