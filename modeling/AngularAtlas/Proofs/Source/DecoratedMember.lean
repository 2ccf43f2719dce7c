import AngularAtlas.Proofs.Distinct
import AngularAtlas.Proofs.Source.ClassLists
import AngularAtlas.Proofs.Source.ClosingBracket
import AngularAtlas.Proofs.Source.Literal
import AngularAtlas.Proofs.Source.Matches
import AngularAtlas.Proofs.Text.Search
import AngularAtlas.Source.Member

namespace AngularAtlas.Source

open Text

/-- A name with modifiers in front of it, each with blanks behind it. -/
inductive Declares (name : List Char) : List Char → Prop
  | name : isIdentifier name = true → name ∉ modifierWords → Declares name name
  | modifier {word gap s : List Char} : word ∈ modifierWords → Text.IsBlank gap → gap ≠ [] →
      Declares name s → Declares name (word ++ (gap ++ s))

/-- A member with a decorator and its arguments, a declaration and what follows it. -/
def memberText (kind : MemberKind) (gap arguments gap' declaration rest : List Char) : List Char :=
  '@' :: (kind.decorator.toList ++ (gap ++ '(' :: (arguments ++ ')' ::
    (gap' ++ (declaration ++ rest)))))

/-- A name does not go on into the text. -/
def EndsName (s : List Char) : Prop := ∀ c ∈ s.head?, isNameChar c = false

/-- The text of a member with a decorator of a kind and a name. Its decorator has arguments in
balanced brackets, and the name ends where the rest of the member starts. -/
inductive WrittenMember : MemberKind × List Char → List Char → Prop
  | intro {kind : MemberKind} {name gap arguments gap' declaration rest : List Char} :
      Text.IsBlank gap → IsBalanced '(' ')' arguments → '@' ∉ arguments → Text.IsBlank gap' →
      Declares name declaration → EndsName rest → '@' ∉ rest →
      WrittenMember (kind, name) (memberText kind gap arguments gap' declaration rest)

variable {s t r w v gap name word rest front declaration : List Char} {c : Char}
  {before : Option Char} {kind : MemberKind} {member : MemberKind × List Char}
  {members : List (MemberKind × List Char)} {texts : List (List Char)}

theorem endsName_nil : EndsName [] := nofun

theorem endsName_cons (hc : isNameChar c = false) (s : List Char) : EndsName (c :: s) := by
  rintro d ⟨⟩
  exact hc

theorem endsName_of_isBlank (hg : Text.IsBlank gap) (hs : EndsName s) : EndsName (gap ++ s) := by
  cases gap with
  | nil => exact hs
  | cons c gap => exact endsName_cons (isNameChar_eq_false_of_isBlank (hg c List.mem_cons_self)) _

theorem eq_of_endsName (hw : ∀ c ∈ w, isNameChar c = true) (hv : ∀ c ∈ v, isNameChar c = true)
    (hs : EndsName s) (ht : EndsName t) (he : w ++ s = v ++ t) : w = v ∧ s = t := by
  have same : w = v := by
    rw [← takeWhile_append_of_stop hw hs, he, takeWhile_append_of_stop hv ht]
  exact ⟨same, List.append_cancel_left (same ▸ he)⟩

theorem findSome?_eq_of_unique {α β : Type} {read : α → Option β} {items : List α} {a : α} {b : β}
    (mem : a ∈ items) (h : read a = some b)
    (unique : ∀ a' b', read a' = some b' → a' ∈ items → a' = a) :
    items.findSome? read = some b := by
  cases found : items.findSome? read with
  | none =>
    rw [List.findSome?_eq_none_iff.1 found a mem] at h
    cases h
  | some b' =>
    obtain ⟨a', mem', h'⟩ := List.exists_of_findSome?_eq_some found
    rw [unique a' b' h' mem', h] at h'
    exact h'.symm

theorem isNameChar_of_mem_modifierWords (hw : word ∈ modifierWords) (hc : c ∈ word) :
    isNameChar c = true :=
  isNameChar_of_mem_isIdentifier (isIdentifier_of_mem_modifierWords hw) hc

/-- A modifier is read where one stands with a blank behind it. -/
theorem modifier?_eq_some_iff : modifier? s = some (word, rest) ↔ word ∈ modifierWords ∧
    ∃ c t, s = word ++ c :: t ∧ isBlank c = true ∧ rest = skipBlanks t := by
  have reads : ∀ {w : List Char} {found : List Char × List Char},
      ((do return (w, ← skipBlanks1? (← w.isPrefixOf? s))) : Option (List Char × List Char)) =
        some found ↔
      ∃ c t, s = w ++ c :: t ∧ isBlank c = true ∧ found = (w, skipBlanks t) := by
    intro w found
    simp only [Option.bind_eq_bind, Option.bind_eq_some_iff, skipBlanks1?_eq_some_iff]
    constructor
    · rintro ⟨r, front, r', ⟨c, t, rfl, hc, rfl⟩, he⟩
      exact ⟨c, t, (isPrefixOf?_append front).symm, hc, (Option.some.inj he).symm⟩
    · rintro ⟨c, t, rfl, hc, rfl⟩
      exact ⟨c :: t, isPrefixOf?_append_self w _, _, ⟨c, t, rfl, hc, rfl⟩, rfl⟩
  constructor
  · intro h
    obtain ⟨w, mem, found⟩ := List.exists_of_findSome?_eq_some h
    obtain ⟨c, t, he, hc, same⟩ := reads.1 found
    obtain ⟨rfl, rfl⟩ := Prod.mk.inj same
    exact ⟨mem, c, t, he, hc, rfl⟩
  · rintro ⟨mem, c, t, rfl, hc, rfl⟩
    refine findSome?_eq_of_unique mem (reads.2 ⟨c, t, rfl, hc, rfl⟩) fun w found h mem' => ?_
    obtain ⟨c', t', he, hc', -⟩ := reads.1 h
    exact (eq_of_endsName (fun _ => isNameChar_of_mem_modifierWords mem')
      (fun _ => isNameChar_of_mem_modifierWords mem)
      (endsName_cons (isNameChar_eq_false_of_isBlank hc') t')
      (endsName_cons (isNameChar_eq_false_of_isBlank hc) t) he.symm).1

theorem identifier?_of_endsName (hn : isIdentifier name = true) (hr : EndsName r) :
    identifier? (name ++ r) = some (name, r) := by
  cases name with
  | nil => cases hn
  | cons c name =>
    simp only [isIdentifier, Bool.and_eq_true, List.all_eq_true] at hn
    rw [List.cons_append, identifier?, if_pos hn.1, takeWhile_append_of_stop hn.2 hr,
      dropWhile_append_of_stop hn.2 hr]

theorem Declares.exists_eq_cons (h : Declares name s) :
    ∃ c t, s = c :: t ∧ isNameChar c = true := by
  have first : ∀ {w r : List Char}, w ≠ [] → (∀ c ∈ w, isNameChar c = true) →
      ∃ c t, w ++ r = c :: t ∧ isNameChar c = true := by
    intro w r ne hw
    obtain ⟨c, t, rfl⟩ := List.exists_cons_of_ne_nil ne
    exact ⟨c, t ++ r, rfl, hw c List.mem_cons_self⟩
  cases h with
  | name hn _ =>
    have := first (r := []) (isSolid_of_isIdentifier hn).ne_nil
      fun _ => isNameChar_of_mem_isIdentifier hn
    rwa [List.append_nil] at this
  | modifier mem =>
    refine first ?_ fun _ => isNameChar_of_mem_modifierWords mem
    rintro rfl
    exact absurd mem (by decide)

theorem nameAfterModifiers?_append (h : Declares name s) (hr : EndsName r) :
    nameAfterModifiers? (s ++ r) = some name := by
  induction h with
  | name hn other =>
    -- the name is no modifier, and no modifier ends inside of it
    have none : modifier? (name ++ r) = none := by
      refine Option.eq_none_iff_forall_ne_some.2 fun found here => ?_
      obtain ⟨mem, c, t, he, hc, -⟩ := modifier?_eq_some_iff.1 here
      obtain ⟨same, -⟩ := eq_of_endsName (fun _ => isNameChar_of_mem_isIdentifier hn)
        (fun _ => isNameChar_of_mem_modifierWords mem) hr
        (endsName_cons (isNameChar_eq_false_of_isBlank hc) t) he
      exact other (same ▸ mem)
    rw [nameAfterModifiers?]
    split
    next found => cases none.symm.trans found
    next => rw [identifier?_of_endsName hn hr, Option.map_some]
  | @modifier word gap s mem hg ne later ih =>
    obtain ⟨c, gap, rfl⟩ := List.exists_cons_of_ne_nil ne
    obtain ⟨hc, hg⟩ := List.forall_mem_cons.1 hg
    obtain ⟨d, t, rfl, hd⟩ := later.exists_eq_cons
    have behind : skipBlanks (gap ++ (d :: t ++ r)) = d :: t ++ r := by
      rw [skipBlanks_append hg]
      exact skipBlanks_of_not_blank (isBlank_eq_false_of_isNameChar hd) _
    have read : modifier? (word ++ (c :: gap ++ d :: t) ++ r) = some (word, d :: t ++ r) :=
      modifier?_eq_some_iff.2 ⟨mem, c, gap ++ (d :: t ++ r), by simp, hc, behind.symm⟩
    rw [nameAfterModifiers?]
    split
    next found =>
      obtain ⟨rfl, rfl⟩ := Prod.mk.inj (Option.some.inj (read.symm.trans found))
      rw [dif_pos (by simp only [List.length_append, List.length_cons]; omega), ih,
        Option.getD_some]
    next found => cases read.symm.trans found

theorem Declares.not_mem (h : Declares name s) : '@' ∉ s := by
  induction h with
  | name hn _ =>
    exact fun mem => absurd (isNameChar_of_mem_isIdentifier hn mem) (by decide)
  | @modifier word gap s hw hg _ _ ih =>
    rw [List.mem_append, List.mem_append, not_or, not_or]
    exact ⟨fun mem => absurd (isNameChar_of_mem_modifierWords hw mem) (by decide),
      fun mem => absurd (hg _ mem) (by decide), ih⟩

theorem memberName?_append (hg : Text.IsBlank gap) (h : Declares name s) (hr : EndsName r) :
    memberName? (skipBlanks (gap ++ (s ++ r))) = some name := by
  obtain ⟨c, t, rfl, hc⟩ := h.exists_eq_cons
  have start : skipBlanks (gap ++ (c :: t ++ r)) = c :: t ++ r := by
    rw [skipBlanks_append hg]
    exact skipBlanks_of_not_blank (isBlank_eq_false_of_isNameChar hc) _
  have none : decorator? (c :: t ++ r) = none := by
    have other : '@' ≠ c := by
      rintro rfl
      exact absurd hc (by decide)
    rw [decorator?, List.cons_append, afterChar?, if_neg other]
    rfl
  rw [start, memberName?]
  split
  next found => cases none.symm.trans found
  next => exact nameAfterModifiers?_append h hr

theorem decorator_injective {other : MemberKind} (h : kind.decorator = other.decorator) :
    kind = other := by
  cases kind <;> cases other <;> first | rfl | exact absurd h (by decide)

theorem isNameChar_of_mem_decorator (hc : c ∈ kind.decorator.toList) : isNameChar c = true := by
  have all : MemberKind.all.all (·.decorator.toList.all isNameChar) = true := by decide
  have mem : kind ∈ MemberKind.all := by cases kind <;> decide
  exact List.all_eq_true.1 (List.all_eq_true.1 all kind mem) c hc

theorem memberDecorator?_append (hg : Text.IsBlank gap) (before : Option Char) (r : List Char) :
    memberDecorator? before ('@' :: (kind.decorator.toList ++ (gap ++ '(' :: r))) =
      some ((kind, '(' :: r), r) := by
  have bracket : ∀ r, EndsName ('(' :: r) := endsName_cons (by decide)
  have mem : kind ∈ MemberKind.all := by cases kind <;> decide
  rw [memberDecorator?, afterChar?, if_pos rfl, Option.bind_eq_bind, Option.bind_some]
  refine findSome?_eq_of_unique mem ?_ fun other found h _ => ?_
  · rw [isPrefixOf?_append_self, Option.bind_some, skipBlanks_append hg,
      skipBlanks_of_not_blank (by decide)]
    rfl
  · obtain ⟨s, front, opened⟩ := Option.bind_eq_some_iff.1 h
    obtain ⟨r', opened, -⟩ := Option.bind_eq_some_iff.1 opened
    -- both names end where the gap in front of the bracket starts
    have head : (skipBlanks s).head? = some '(' := by rw [eq_cons_of_afterChar? opened]; rfl
    obtain ⟨gap', r'', hg', -, rfl⟩ := exists_of_head?_skipBlanks head
    obtain ⟨same, -⟩ := eq_of_endsName (fun _ => isNameChar_of_mem_decorator)
      (fun _ => isNameChar_of_mem_decorator) (endsName_of_isBlank hg' (bracket r''))
      (endsName_of_isBlank hg (bracket r)) (isPrefixOf?_append front)
    exact decorator_injective (String.toList_injective same)

theorem failsAt_memberDecorator? (hs : '@' ∉ s) : FailsAt memberDecorator? s := by
  intro c hc before r
  have other : '@' ≠ c := by
    rintro rfl
    exact hs hc
  simp only [memberDecorator?, afterChar?, if_neg other]
  rfl

/-- The name of the member behind a decorator that was found, if it is of the given kind. -/
def declaredName? (kind : MemberKind) (found : MemberKind × List Char) : Option (List Char) :=
  if found.1 = kind then (balanced? found.2).bind fun p => memberName? (skipBlanks p.2) else none

theorem decoratedMembers_eq (kind : MemberKind) (body : List Char) : decoratedMembers kind body =
    ((findAll memberDecorator? body).filterMap (declaredName? kind)).eraseDups := rfl

theorem WrittenMember.exists_findAllFrom (h : WrittenMember member s) (ht : EndsName t)
    (before : Option Char) : ∃ last found,
      findAllFrom memberDecorator? 0 before (s ++ t) =
        (member.1, found) :: findAllFrom memberDecorator? 0 last t ∧
      ∀ kind, declaredName? kind (member.1, found) =
        if member.1 = kind then some member.2 else none := by
  cases h with
  | @intro kind name gap arguments gap' declaration rest hg balanced args hg' declares ends hr =>
    let behind := gap' ++ (declaration ++ rest)
    let passed := arguments ++ ')' :: behind
    have read := @memberDecorator?_append gap kind hg before (passed ++ t)
    obtain ⟨last, finds⟩ := exists_findAllFrom_eq_cons read
      ⟨kind.decorator.toList ++ (gap ++ ['(']), by simp⟩
    have only : '@' ∉ passed := by
      simp only [passed, behind, List.mem_append, List.mem_cons, not_or]
      exact ⟨args, by decide, fun mem => absurd (hg' _ mem) (by decide), declares.not_mem, hr⟩
    refine ⟨passed.getLast?.or last, '(' :: (passed ++ t), ?_, fun other => ?_⟩
    · rw [← (failsAt_memberDecorator? only).findAllFrom_append, ← finds]
      simp [memberText, passed, behind]
    · have closes : balanced? ('(' :: (passed ++ t)) = some (arguments, behind ++ t) :=
        (balanced?_cons_eq_some_iff (by decide)).2 ⟨by simp [passed], balanced⟩
      have stop : EndsName (rest ++ t) := by
        cases rest with
        | nil => exact ht
        | cons => exact ends
      have named : memberName? (skipBlanks (behind ++ t)) = some name := by
        simpa [behind] using memberName?_append hg' declares stop
      simp only [declaredName?, closes, Option.bind_some, named]

theorem endsName_flatten (h : List.Forall₂ WrittenMember members texts) :
    EndsName texts.flatten := by
  cases h with
  | nil => exact endsName_nil
  | cons first =>
    cases first
    exact endsName_cons (by decide) _

/-- The search finds the members of a body one by one. -/
theorem filterMap_declaredName?_findAllFrom (h : List.Forall₂ WrittenMember members texts)
    (kind : MemberKind) (before : Option Char) :
    (findAllFrom memberDecorator? 0 before texts.flatten).filterMap (declaredName? kind) =
      (members.filter (·.1 = kind)).map (·.2) := by
  induction h generalizing before with
  | nil => rfl
  | @cons member text members texts first later ih =>
    obtain ⟨last, found, finds, name⟩ := first.exists_findAllFrom (endsName_flatten later) before
    rw [List.flatten_cons, finds, List.filterMap_cons, name, ih]
    by_cases same : member.1 = kind <;> simp [same]

/-- In a body that is a row of decorated members each kind lists the names of its own members, each
once and in order. -/
theorem listsOnce_decoratedMembers (front : List Char) (only : '@' ∉ front)
    (h : List.Forall₂ WrittenMember members texts) (kind : MemberKind) :
    ListsOnce ((members.filter (·.1 = kind)).map (·.2))
      (decoratedMembers kind (front ++ texts.flatten)) := by
  rw [decoratedMembers_eq, findAll, (failsAt_memberDecorator? only).findAllFrom_append,
    filterMap_declaredName?_findAllFrom h]
  exact listsOnce_eraseDups _

/-- Queries for one child and for several in turns, a setter beside its getter, and a member that is
named like a decorator. -/
def gridMembers : List (MemberKind × List Char) :=
  [(.viewChildren, "rows".toList), (.viewChild, "head".toList), (.input, "size".toList),
    (.input, "size".toList), (.viewChildren, "ViewChild".toList)]

def gridTexts : List (List Char) :=
  [memberText .viewChildren [] "Row, \x7b read: of(Row) \x7d".toList " ".toList
      "private readonly rows".toList "!: Rows;\n".toList,
    memberText .viewChild [] "'head'".toList " ".toList "head".toList [],
    memberText .input " ".toList " ".toList " ".toList "public set size".toList
      "(n: number) \x7b this.set(n); \x7d\n".toList,
    memberText .input [] [] [] "get size".toList "() \x7b return this.width; \x7d\n".toList,
    memberText .viewChildren [] "of(Cell)".toList [] "ViewChild".toList []]

theorem written_gridTexts : List.Forall₂ WrittenMember gridMembers gridTexts := by
  have none : Text.IsBlank [] := isBlank_nil
  have space : Text.IsBlank " ".toList := isBlank_space
  have even : ∀ {a}, balanced? ('(' :: (a ++ [')'])) = some (a, []) → IsBalanced '(' ')' a :=
    fun h => ((balanced?_cons_eq_some_iff (by decide)).1 h).2
  have after : ∀ {word name s}, word ∈ modifierWords → Declares name s →
      Declares name (word ++ (" ".toList ++ s)) := fun mem => .modifier mem space (by decide)
  have rows : Declares "rows".toList "private readonly rows".toList :=
    @after "private".toList _ _ (by decide)
      (@after "readonly".toList _ _ (by decide) (.name (by decide) (by decide)))
  have setter : Declares "size".toList "public set size".toList :=
    @after "public".toList _ _ (by decide)
      (@after "set".toList _ _ (by decide) (.name (by decide) (by decide)))
  have getter : Declares "size".toList "get size".toList :=
    @after "get".toList _ _ (by decide) (.name (by decide) (by decide))
  refine .cons ?_ (.cons ?_ (.cons ?_ (.cons ?_ (.cons ?_ .nil))))
  · exact .intro none (even (by decide)) (by decide) space rows (endsName_cons rfl _) (by decide)
  · exact .intro none (even (by decide)) (by decide) space (.name (by decide) (by decide))
      endsName_nil (by decide)
  · exact .intro space (even (by decide)) (by decide) space setter (endsName_cons rfl _) (by decide)
  · exact .intro none (even (by decide)) (by decide) none getter (endsName_cons rfl _) (by decide)
  · exact .intro none (even (by decide)) (by decide) none (.name (by decide) (by decide))
      endsName_nil (by decide)

theorem listsOnce_decoratedMembers_gridTexts :
    '@' ∉ "\n  ".toList ∧ List.Forall₂ WrittenMember gridMembers gridTexts ∧
      ListsOnce ["rows".toList, "ViewChild".toList]
        (decoratedMembers .viewChildren ("\n  ".toList ++ gridTexts.flatten)) ∧
      ListsOnce ["head".toList]
        (decoratedMembers .viewChild ("\n  ".toList ++ gridTexts.flatten)) ∧
      ListsOnce ["size".toList, "size".toList]
        (decoratedMembers .input ("\n  ".toList ++ gridTexts.flatten)) := by
  have lists := listsOnce_decoratedMembers "\n  ".toList (by decide) written_gridTexts
  exact ⟨by decide, written_gridTexts, lists .viewChildren, lists .viewChild, lists .input⟩

end AngularAtlas.Source
