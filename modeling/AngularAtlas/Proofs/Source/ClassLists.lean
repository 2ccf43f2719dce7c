import AngularAtlas.Proofs.Distinct
import AngularAtlas.Proofs.Source.ClosingBracket
import AngularAtlas.Proofs.Source.Constructor
import AngularAtlas.Proofs.Source.Matches

namespace AngularAtlas.Source

open Text

/-- What the parameters of the first constructor ask for, in their order. Nothing is asked for
without a constructor, or when its bracket never closes. -/
inductive Asks (body : List Char) : List (List Char) → Prop
  | missing : (∀ front rest, ¬Opens body front rest) → Asks body []
  | unclosed {front rest : List Char} : OpensFirst body front rest →
      (∀ inside back, rest = inside ++ ')' :: back → ¬IsBalanced '(' ')' inside) → Asks body []
  | closed {front inside back : List Char} : OpensFirst body front (inside ++ ')' :: back) →
      IsBalanced '(' ')' inside → Asks body ((elements inside).filterMap parameterDependency?)

/-- The dependencies of a class: what its constructor asks for, and then the arguments of all
`inject` calls, from left to right, that the constructor does not ask for. -/
def AreDependencies (body : List Char) (listed : List String) : Prop :=
  ∃ asked calls first more, Asks body asked ∧ Finds injectCall? [] body calls ∧
    ListsOnce asked first ∧ ListsOnce ((calls.map (·.2)).filter (· ∉ first)) more ∧
    listed = (first ++ more).map String.ofList

/-- The lists of a class have names, each of them once. -/
structure DecoratedClass.IsProper (c : DecoratedClass) : Prop where
  dependencies_nodup : c.dependencies.Nodup
  dependencies : ∀ name ∈ c.dependencies, IsPlainToken name.toList
  members_nodup : ∀ kind, (c.membersOf kind).Nodup
  members : ∀ kind, ∀ name ∈ c.membersOf kind, isIdentifier name.toList = true

variable {s rest name word body : List Char} {before : Option Char} {kind : MemberKind}

theorem isIdentifier_of_mem_modifierWords (h : word ∈ modifierWords) :
    isIdentifier word = true := by
  have all : modifierWords.all isIdentifier = true := by decide
  exact List.all_eq_true.1 all word h

theorem isIdentifier_of_modifier? (h : modifier? s = some (word, rest)) :
    isIdentifier word = true := by
  obtain ⟨other, mem, found⟩ := List.exists_of_findSome?_eq_some h
  obtain ⟨_, -, found⟩ := Option.bind_eq_some_iff.1 found
  obtain ⟨_, -, he⟩ := Option.bind_eq_some_iff.1 found
  obtain ⟨rfl, rfl⟩ := Prod.mk.inj (Option.some.inj he)
  exact isIdentifier_of_mem_modifierWords mem

theorem isIdentifier_of_nameAfterModifiers? (h : nameAfterModifiers? s = some name) :
    isIdentifier name = true := by
  fun_induction nameAfterModifiers? s generalizing name with
  | case1 s word rest found shorter ih =>
    obtain rfl := Option.some.inj h
    -- without a name behind it, the modifier is the name
    cases later : nameAfterModifiers? rest with
    | none => exact isIdentifier_of_modifier? found
    | some other => exact ih later
  | case2 => cases h
  | case3 s none =>
    obtain ⟨⟨_, rest⟩, read, rfl⟩ := Option.map_eq_some_iff.1 h
    exact isIdentifier_of_identifier? read

theorem isIdentifier_of_go (chars : ∀ c ∈ word, isWord c = true)
    (h : nameInside?.go word = some name) : isIdentifier name = true := by
  induction word generalizing name with
  | nil => cases h
  | cons c word ih =>
    obtain ⟨-, chars⟩ := List.forall_mem_cons.1 chars
    rw [nameInside?.go] at h
    split at h
    case h_1 later =>
      obtain rfl := Option.some.inj h
      exact ih chars later
    case h_2 =>
      split at h
      case isTrue start =>
        obtain rfl := Option.some.inj h
        rw [isIdentifier, start, Bool.true_and, List.all_eq_true]
        exact fun d mem => isNameChar_of_isWord (chars d mem)
      case isFalse => cases h

theorem isIdentifier_of_nameInside? (chars : ∀ c ∈ word, isWord c = true)
    (h : nameInside? word = some name) : isIdentifier name = true := by
  cases word with
  | nil => cases h
  | cons c word => exact isIdentifier_of_go (List.forall_mem_cons.1 chars).2 h

theorem isWord_of_decorator? (h : decorator? s = some (word, rest)) :
    ∀ c ∈ word, isWord c = true := by
  simp only [decorator?, Option.bind_eq_bind, Option.bind_eq_some_iff] at h
  obtain ⟨s₁, -, _, -, he⟩ := h
  obtain rfl : s₁.takeWhile isWord = word := (Prod.mk.inj (Option.some.inj he)).1
  exact fun c mem => List.mem_takeWhile_imp mem

theorem isIdentifier_of_memberName? (h : memberName? s = some name) : isIdentifier name = true := by
  fun_induction memberName? s generalizing name with
  | case1 s word rest found shorter ih =>
    rcases Option.or_eq_some_iff.1 h with later | ⟨-, inside⟩
    · exact ih later
    · exact isIdentifier_of_nameInside? (isWord_of_decorator? found) inside
  | case2 => cases h
  | case3 s none => exact isIdentifier_of_nameAfterModifiers? h

theorem isIdentifier_of_signalMember? (h : signalMember? before s = some ((kind, name), rest)) :
    isIdentifier name = true := by
  simp only [signalMember?, Option.bind_eq_bind, Option.bind_eq_some_iff] at h
  obtain ⟨⟨other, _⟩, read, _, -, h⟩ := h
  obtain ⟨kind', -, h⟩ := List.exists_of_findSome?_eq_some h
  obtain ⟨_, -, _, -, he⟩ := by simpa only [Option.bind_eq_some_iff] using h
  obtain rfl : other = name := (Prod.mk.inj (Prod.mk.inj (Option.some.inj he)).1).2
  exact isIdentifier_of_identifier? read

theorem isIdentifier_of_mem_members (h : name ∈ members kind body) : isIdentifier name = true := by
  rw [members, List.mem_eraseDups, List.mem_append, decoratedMembers, signalMembers,
    List.mem_eraseDups, List.mem_eraseDups, List.mem_filterMap, List.mem_filterMap] at h
  rcases h with ⟨⟨found, t⟩, -, h⟩ | ⟨⟨found, other⟩, mem, h⟩
  · obtain ⟨-, h⟩ := Option.ite_none_right_eq_some.1 h
    obtain ⟨_, -, read⟩ := Option.bind_eq_some_iff.1 h
    exact isIdentifier_of_memberName? read
  · obtain ⟨-, he⟩ := Option.ite_none_right_eq_some.1 h
    obtain rfl : other = name := Option.some.inj he
    obtain ⟨_, _, _, -, read⟩ := exists_of_mem_findAll mem
    exact isIdentifier_of_signalMember? read

theorem isDottedName_intercalate {parts : List (List Char)} (ne : parts ≠ [])
    (names : ∀ part ∈ parts, isIdentifier part = true) :
    IsDottedName (['.'].intercalate parts) := by
  induction parts with
  | nil => exact absurd rfl ne
  | cons part parts ih =>
    obtain ⟨first, names⟩ := List.forall_mem_cons.1 names
    cases parts with
    | nil => simpa using IsDottedName.name first
    | cons next parts =>
      rw [List.intercalate_cons_cons]
      simpa using IsDottedName.dot first (ih (List.cons_ne_nil _ _) names)

theorem isDottedName_of_typeName? (h : typeName? s = some name) : IsDottedName name := by
  rw [typeName?, Option.ite_none_right_eq_some] at h
  obtain ⟨⟨-, names⟩, he⟩ := h
  obtain rfl := Option.some.inj he
  have joined := isDottedName_intercalate (List.splitOn_ne_nil _ _) (List.all_eq_true.1 names)
  rwa [List.intercalate_splitOn] at joined

theorem isPlainToken_of_parameterDependency? (h : parameterDependency? s = some name) :
    IsPlainToken name := by
  rw [parameterDependency?] at h
  split at h
  case h_1 token rest found =>
    obtain rfl := Option.some.inj h
    obtain ⟨_, _, -, read⟩ := exists_of_findFirst? found
    exact (injectDecorator?_eq_some_iff.1 read).1
  case h_2 =>
    obtain ⟨_, -, read⟩ := Option.bind_eq_some_iff.1 h
    exact (isDottedName_of_typeName? read).isPlainToken

theorem suffix_of_skipTypeArguments? (h : skipTypeArguments? s = some rest) : rest <:+ s := by
  rw [skipTypeArguments?] at h
  split at h
  · exact (suffix_of_afterChar? h).trans (List.dropWhile_suffix _)
  · obtain rfl := Option.some.inj h
    exact List.suffix_rfl

theorem exists_of_injectCall? (h : injectCall? before s = some (name, rest)) :
    isIdentifier name = true ∧ ∃ t, s = '=' :: t ∧ rest <:+ t := by
  simp only [injectCall?, Option.bind_eq_bind, Option.bind_eq_some_iff] at h
  obtain ⟨s₁, h₁, s₂, h₂, s₃, h₃, s₄, h₄, read⟩ := h
  refine ⟨isIdentifier_of_identifier? read, s₁, eq_cons_of_afterChar? h₁, ?_⟩
  have argument : rest <:+ skipBlanks s₄ := ⟨name, identifier?_append read⟩
  have inside : rest <:+ s₃ := argument.trans
    ((skipBlanks_suffix s₄).trans ((suffix_of_afterChar? h₄).trans (skipBlanks_suffix s₃)))
  exact inside.trans ((suffix_of_skipTypeArguments? h₃).trans ((skipBlanks_suffix s₂).trans
    ((suffix_of_isPrefixOf? h₂).trans (skipBlanks_suffix s₁))))

theorem advances_injectCall? : Advances injectCall? := by
  intro before s name rest h
  obtain ⟨-, t, rfl, front, rfl⟩ := exists_of_injectCall? h
  exact ⟨'=' :: front, List.cons_ne_nil _ _, rfl⟩

theorem isPlainToken_of_mem_dependencies (h : name ∈ dependencies body) : IsPlainToken name := by
  rw [dependencies, List.mem_eraseDups, List.mem_append] at h
  rcases h with h | h
  · rw [constructorDependencies] at h
    split at h
    case h_1 => cases h
    case h_2 =>
      obtain ⟨_, -, asked⟩ := List.mem_filterMap.1 (List.mem_eraseDups.1 h)
      exact isPlainToken_of_parameterDependency? asked
  · obtain ⟨_, _, _, -, read⟩ := exists_of_mem_findAll (List.mem_eraseDups.1 h)
    exact (IsDottedName.name (exists_of_injectCall? read).1).isPlainToken

theorem exists_asks (body : List Char) :
    ∃ asked, Asks body asked ∧ constructorDependencies body = asked.eraseDups := by
  have round : ('(', ')') ∈ bracketPairs := by decide
  cases found : findFirst? constructorStart? body with
  | none =>
    refine ⟨[], .missing (not_opens_of_findFirst? found), ?_⟩
    rw [constructorDependencies, found]
    rfl
  | some start =>
    obtain ⟨⟨⟩, t⟩ := start
    obtain ⟨front, rest, rfl, first⟩ := exists_opensFirst found
    cases closed : balanced? ('(' :: rest) with
    | none =>
      refine ⟨[], .unclosed first ((balanced?_cons_eq_none_iff round).1 closed), ?_⟩
      simp only [constructorDependencies, found, Option.bind_some, closed]
      rfl
    | some parts =>
      obtain ⟨rfl, balanced⟩ := (balanced?_cons_eq_some_iff round).1 closed
      refine ⟨_, .closed first balanced, ?_⟩
      simp only [constructorDependencies, found, Option.bind_some, closed]

theorem areDependencies_dependencies (body : List Char) :
    AreDependencies body ((dependencies body).map String.ofList) := by
  obtain ⟨asked, asks, he⟩ := exists_asks body
  obtain ⟨calls, finds, hc⟩ := exists_finds advances_injectCall? body
  refine ⟨asked, calls, _, _, asks, finds, listsOnce_eraseDups _, listsOnce_eraseDups _, ?_⟩
  rw [dependencies, injectCalls, he, hc, eraseDups_append_eraseDups]

theorem nodup_map_ofList {names : List (List Char)} (h : names.Nodup) :
    (names.map String.ofList).Nodup :=
  h.map fun _ _ => String.ofList_injective

theorem membersOf_toClass (found : Finding) (file : String) (decorator : Decorator)
    (kind : MemberKind) : (found.toClass file decorator).membersOf kind =
      (members kind (removeComments ((classBody? found.rest).getD []))).map String.ofList := by
  cases kind <;> rfl

theorem isProper_toClass (found : Finding) (file : String) (decorator : Decorator) :
    (found.toClass file decorator).IsProper where
  dependencies_nodup := nodup_map_ofList (nodup_eraseDups _)
  dependencies := List.forall_mem_map.2 fun name mem => by
    rw [String.toList_ofList]
    exact isPlainToken_of_mem_dependencies mem
  members_nodup kind := membersOf_toClass found file decorator kind ▸
    nodup_map_ofList (nodup_eraseDups _)
  members kind := membersOf_toClass found file decorator kind ▸
    List.forall_mem_map.2 fun name mem => by
      rw [String.toList_ofList]
      exact isIdentifier_of_mem_members mem

/-- The classes with one decorator, from left to right. -/
def classGroup (file : String) (content : List Char) (decorator : Decorator) :
    List DecoratedClass :=
  (findings decorator content).map (·.toClass file decorator)

/-- The classes of a file stand in four groups, each from left to right. Their dependencies and
members are names, each listed once, and of the dependencies those of the constructor come first. -/
theorem classes_ofText (file : String) (content : List Char) :
    (ParsedFile.ofText file content).classes =
      classGroup file content .component ++ (classGroup file content .directive ++
        (classGroup file content .pipe ++ classGroup file content .injectable)) ∧
    (∀ decorator, ∃ finds, Finds (decoratedHead? decorator) [] content finds ∧
      (finds.Pairwise fun a b => a.1.length < b.1.length) ∧
      classGroup file content decorator = finds.map (·.2.toClass file decorator)) ∧
    (∀ c ∈ (ParsedFile.ofText file content).classes, c.IsProper) ∧
    ∀ decorator, ∀ found ∈ findings decorator content,
      AreDependencies (removeComments ((classBody? found.rest).getD []))
        (found.toClass file decorator).dependencies := by
  refine ⟨by simp [ParsedFile.ofText, Decorator.ofClasses, classGroup], fun decorator => ?_, ?_,
    fun _ _ _ => areDependencies_dependencies _⟩
  · obtain ⟨finds, h, he⟩ := exists_finds_findings decorator content
    exact ⟨finds, h, h.pairwise, by simp [classGroup, he]⟩
  · intro c mem
    obtain ⟨decorator, -, mem⟩ := List.mem_flatMap.1 mem
    obtain ⟨found, -, rfl⟩ := List.mem_map.1 mem
    exact isProper_toClass found file decorator

/-- A service in front of a component that asks for some of its dependencies more than once. -/
def shownText : List Char :=
  "@Injectable() export class Store \x7b\x7d\n".toList ++
    "@Component(\x7b selector: 'x' \x7d) export class Shown \x7b\n".toList ++
    "  @Input() set size(n) \x7b\x7d color = input('');\n".toList ++
    "  constructor(b: B, private a: ng.A<B>, @Inject(T) t: B, c: B) \x7b\x7d\n".toList ++
    "  d = inject(T); e = inject<D>(C); f = inject(C); \x7d".toList

theorem classes_ofText_shownText :
    (∃ c ∈ (ParsedFile.ofText "app.ts" shownText).classes,
      c.dependencies = ["B", "ng.A", "T", "C"] ∧ c.inputs = ["size", "color"] ∧ c.IsProper) ∧
      ∃ found ∈ findings .component shownText,
        AreDependencies (removeComments ((classBody? found.rest).getD []))
          (found.toClass "app.ts" .component).dependencies := by
  obtain ⟨-, -, proper, order⟩ := classes_ofText "app.ts" shownText
  have lists : (ParsedFile.ofText "app.ts" shownText).classes.map
      (fun c => (c.dependencies, c.inputs)) =
        [(["B", "ng.A", "T", "C"], ["size", "color"]), ([], [])] := by decide +kernel
  obtain ⟨c, _, classes, he, -⟩ := List.map_eq_cons_iff.1 lists
  obtain ⟨dependencies, inputs⟩ := Prod.mk.inj he
  have mem : c ∈ (ParsedFile.ofText "app.ts" shownText).classes := classes ▸ List.mem_cons_self
  have names : (findings .component shownText).map (·.name) = ["Shown".toList] := by
    decide +kernel
  obtain ⟨found, _, found', -, -⟩ := List.map_eq_cons_iff.1 names
  have here : found ∈ findings .component shownText := found' ▸ List.mem_cons_self
  exact ⟨⟨c, mem, dependencies, inputs, proper c mem⟩, found, here, order _ found here⟩

end AngularAtlas.Source
