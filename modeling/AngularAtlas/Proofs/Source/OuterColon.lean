import AngularAtlas.Proofs.Source.ClosingBracket
import AngularAtlas.Proofs.Source.ParameterReading

namespace AngularAtlas.Source

open Text

/-- The brackets of a text are properly nested, angle brackets among them. -/
inductive Paired : List Char → Prop
  | nil : Paired []
  | char {c : Char} {s : List Char} : angleStep c = 0 → Paired s → Paired (c :: s)
  | group {opener closer : Char} {inner s : List Char} : (opener, closer) ∈ bracketPairs →
      Paired inner → Paired s → Paired (opener :: (inner ++ closer :: s))

/-- A place between two parts of a text lies inside a pair of brackets. -/
def IsInside (front back : List Char) : Prop :=
  ∃ opener closer before left right after, (opener, closer) ∈ bracketPairs ∧
    front = before ++ opener :: left ∧ back = right ++ closer :: after ∧ Paired (left ++ right)

/-- As many brackets are opened as closed in front of a place. -/
def IsLevel (front _back : List Char) : Prop := angleSurplus front = 0

/-- A colon between two parts of a text is outside of all pairs of brackets. -/
def IsOuter (front back : List Char) : Prop := ¬IsInside front (':' :: back)

/-- Another colon stands next to the one between two parts of a text. -/
def IsDoubled (front back : List Char) : Prop :=
  front.getLast? = some ':' ∨ back.head? = some ':'

/-- A colon outside of all pairs of brackets that stands alone. -/
def IsSingle (front back : List Char) : Prop := IsOuter front back ∧ ¬IsDoubled front back

/-- The first colon of a text that is of some kind stands between these parts. -/
def FirstColon (kind : List Char → List Char → Prop) (s front back : List Char) : Prop :=
  s = front ++ ':' :: back ∧ kind front back ∧
    ∀ a b, s = a ++ ':' :: b → kind a b → front.length ≤ a.length

/-- The first of the colons at which a text can be split is the first one of some kind. -/
def SplitsAtFirst (kind : List Char → List Char → Prop) (s : List Char) : Prop :=
  ∀ n, (colonOffsets s).head? = some n ↔
    ∃ front back, FirstColon kind s front back ∧ n = utf8Length front

variable {s t front back a b inner : List Char} {opener closer c : Char} {depth : Int}
  {kind other : List Char → List Char → Prop}

theorem angleSurplus_nil : angleSurplus [] = 0 := rfl

theorem angleSurplus_append (s t : List Char) :
    angleSurplus (s ++ t) = angleSurplus s + angleSurplus t := by
  simp only [angleSurplus, surplus_append, List.count_append]
  omega

theorem angleStep_of_mem_bracketPairs (h : (opener, closer) ∈ bracketPairs) :
    angleStep opener = 1 ∧ angleStep closer = -1 := by
  have all : bracketPairs.all (fun p => angleStep p.1 == 1 && angleStep p.2 == -1) = true := by
    decide
  simpa using List.all_eq_true.1 all _ h

theorem Paired.angleSurplus_eq (hs : Paired s) : angleSurplus s = 0 := by
  induction hs with
  | nil => rfl
  | char hc _ ih => rw [angleSurplus_cons, hc, ih, Int.add_zero]
  | group hp _ _ ihInner ih =>
    obtain ⟨opens, closes⟩ := angleStep_of_mem_bracketPairs hp
    rw [angleSurplus_cons, angleSurplus_append, angleSurplus_cons, opens, closes, ihInner, ih]
    rfl

theorem paired_of_forall (hs : ∀ c ∈ s, angleStep c = 0) : Paired s := by
  induction s with
  | nil => exact .nil
  | cons c s ih =>
    obtain ⟨hc, hs⟩ := List.forall_mem_cons.1 hs
    exact .char hc (ih hs)

theorem IsInside.append_left (h : IsInside front back) (s : List Char) :
    IsInside (s ++ front) back := by
  obtain ⟨opener, closer, before, left, right, after, hp, rfl, rfl, paired⟩ := h
  exact ⟨opener, closer, s ++ before, left, right, after, hp, by rw [List.append_assoc], rfl,
    paired⟩

/-- A group is cut in front of it, inside of it, or behind it. -/
theorem cut_group (h : opener :: (inner ++ closer :: s) = front ++ back) :
    front = [] ∨
      (∃ left right, front = opener :: left ∧ inner = left ++ right ∧
        back = right ++ closer :: s) ∨
      ∃ later, front = opener :: (inner ++ closer :: later) ∧ s = later ++ back := by
  cases front with
  | nil => exact .inl rfl
  | cons d front =>
    obtain ⟨rfl, parts⟩ := List.cons.inj h
    right
    rcases List.append_eq_append_iff.1 parts with ⟨more, rfl, tail⟩ | ⟨right, rfl, rfl⟩
    · cases more with
      | nil => exact .inl ⟨inner, [], by simp, by simp, by simpa using tail.symm⟩
      | cons e later =>
        obtain ⟨rfl, rfl⟩ := List.cons.inj tail
        exact .inr ⟨later, rfl, rfl⟩
    · exact .inl ⟨front, right, rfl, rfl, rfl⟩

/-- In front of a place of a properly nested text no more brackets are closed than opened, and as
many only where the place is not inside a pair. -/
theorem Paired.cut (hs : Paired s) (he : s = front ++ back) :
    angleSurplus front = 0 ∨ (0 < angleSurplus front ∧ IsInside front back) := by
  induction hs generalizing front back with
  | nil =>
    obtain ⟨rfl, -⟩ := List.append_eq_nil_iff.1 he.symm
    exact .inl rfl
  | char hc _ ih =>
    cases front with
    | nil => exact .inl rfl
    | cons d front =>
      obtain ⟨rfl, rfl⟩ := List.cons.inj he
      rw [angleSurplus_cons, hc, Int.zero_add]
      exact (ih rfl).imp_right fun h => ⟨h.1, h.2.append_left [_]⟩
  | @group opener closer inner s hp paired _ ihInner ih =>
    obtain ⟨opens, closes⟩ := angleStep_of_mem_bracketPairs hp
    rcases cut_group he with rfl | ⟨left, right, rfl, rfl, rfl⟩ | ⟨later, rfl, rfl⟩
    · exact .inl rfl
    · right
      have level : 0 ≤ angleSurplus left := by
        rcases ihInner rfl with h | h <;> omega
      rw [angleSurplus_cons, opens]
      exact ⟨by omega, opener, closer, [], left, right, s, hp, rfl, rfl, paired⟩
    · have same : angleSurplus (opener :: (inner ++ closer :: later)) = angleSurplus later := by
        rw [angleSurplus_cons, angleSurplus_append, angleSurplus_cons, opens, closes,
          paired.angleSurplus_eq]
        omega
      rw [same]
      refine (ih rfl).imp_right fun h => ⟨h.1, ?_⟩
      simpa using h.2.append_left (opener :: (inner ++ [closer]))

theorem Paired.angleSurplus_nonneg (hs : Paired (front ++ back)) : 0 ≤ angleSurplus front := by
  rcases hs.cut rfl with h | h <;> omega

theorem Paired.angleSurplus_pos (hs : Paired (front ++ back)) (inside : IsInside front back) :
    0 < angleSurplus front := by
  obtain ⟨opener, closer, before, left, right, after, hp, rfl, rfl, paired⟩ := inside
  have outer : 0 ≤ angleSurplus before := by
    rw [List.append_assoc] at hs
    exact hs.angleSurplus_nonneg
  have inner : 0 ≤ angleSurplus left := paired.angleSurplus_nonneg
  rw [angleSurplus_append, angleSurplus_cons, (angleStep_of_mem_bracketPairs hp).1]
  omega

theorem Paired.isLevel_iff (hs : Paired (front ++ ':' :: back)) :
    IsLevel front back ↔ IsOuter front back := by
  constructor
  · intro level inside
    have := hs.angleSurplus_pos inside
    rw [IsLevel] at level
    omega
  · intro outer
    exact (hs.cut rfl).resolve_right fun h => outer h.2

theorem FirstColon.congr (same : ∀ a b, s = a ++ ':' :: b → (kind a b ↔ other a b)) :
    FirstColon kind s front back ↔ FirstColon other s front back := by
  rw [FirstColon, FirstColon]
  refine and_congr_right fun he => and_congr (same front back he) ?_
  exact forall_congr' fun a => forall_congr' fun b => forall_congr' fun he =>
    imp_congr_left (same a b he)

/-- Two places at the same offset are the same. -/
theorem eq_of_utf8Length_eq (he : s = front ++ back) (he' : s = a ++ b)
    (h : utf8Length front = utf8Length a) : front = a ∧ back = b := by
  have cut := cutAt?_eq_some_iff.2 ⟨he, rfl⟩
  rw [h, cutAt?_eq_some_iff.2 ⟨he', rfl⟩] at cut
  exact (Prod.mk.inj (Option.some.inj cut)).imp Eq.symm Eq.symm

theorem FirstColon.unique (h : FirstColon kind s front back) (h' : FirstColon kind s a b) :
    front = a ∧ back = b := by
  obtain ⟨he, hk, first⟩ := h
  obtain ⟨he', hk', first'⟩ := h'
  have length := Nat.le_antisymm (first a b he' hk') (first' front back he hk)
  obtain ⟨rfl, tails⟩ := List.append_inj (he.symm.trans he') length
  exact ⟨rfl, (List.cons.inj tails).2⟩

theorem exists_firstColon (he : s = a ++ ':' :: b) (hk : kind a b) :
    ∃ front back, FirstColon kind s front back := by
  induction length : a.length using Nat.strongRecOn generalizing a b with
  | ind n ih =>
    by_cases earlier : ∃ a' b', s = a' ++ ':' :: b' ∧ kind a' b' ∧ a'.length < n
    · obtain ⟨a', b', he', hk', shorter⟩ := earlier
      exact ih _ shorter he' hk' rfl
    · refine ⟨a, b, he, hk, fun a' b' he' hk' => ?_⟩
      rw [length]
      exact Nat.not_lt.1 fun shorter => earlier ⟨a', b', he', hk', shorter⟩

/-- The first split of a text, from a depth on. -/
theorem head?_colonSplits_eq_some_iff : (colonSplits depth s).head? = some (front, back) ↔
    FirstColon (fun a _ => depth + angleSurplus a = 0) s front back := by
  induction s generalizing depth front with
  | nil => simp [colonSplits, FirstColon]
  | cons c s ih =>
    by_cases here : c = ':' ∧ depth = 0
    · obtain ⟨rfl, rfl⟩ := here
      have first : FirstColon (fun a _ => 0 + angleSurplus a = 0) (':' :: s) [] s :=
        ⟨rfl, rfl, fun a b _ _ => Nat.zero_le _⟩
      rw [colonSplits, if_pos ⟨rfl, rfl⟩, List.head?_cons, Option.some.injEq, Prod.mk.injEq]
      constructor
      · rintro ⟨rfl, rfl⟩
        exact first
      · exact first.unique
    · have step : ∀ a, depth + angleSurplus (c :: a) = depth + angleStep c + angleSurplus a := by
        intro a
        rw [angleSurplus_cons, Int.add_assoc]
      have later : ∀ a b, c :: s = a ++ ':' :: b → depth + angleSurplus a = 0 →
          ∃ a', a = c :: a' ∧ s = a' ++ ':' :: b := by
        intro a b he level
        cases a with
        | nil => exact absurd ⟨(List.cons.inj he).1, by simpa [angleSurplus_nil] using level⟩ here
        | cons d a =>
          obtain ⟨rfl, rfl⟩ := List.cons.inj he
          exact ⟨a, rfl, rfl⟩
      rw [colonSplits, if_neg here, List.head?_map, Option.map_eq_some_iff]
      constructor
      · rintro ⟨⟨front', back'⟩, found, he⟩
        obtain ⟨rfl, rfl⟩ := Prod.mk.inj he
        obtain ⟨rfl, level, first⟩ := ih.1 found
        refine ⟨rfl, (step front').trans level, fun a b he hk => ?_⟩
        obtain ⟨a', rfl, he'⟩ := later a b he hk
        exact Nat.succ_le_succ (first a' b he' ((step a').symm.trans hk))
      · rintro ⟨he, level, first⟩
        obtain ⟨front', rfl, he'⟩ := later front back he level
        refine ⟨(front', back), ih.2 ⟨he', (step front').symm.trans level, ?_⟩, rfl⟩
        intro a b he hk
        have := first (c :: a) b (by rw [he]; rfl) ((step a).trans hk)
        exact Nat.le_of_succ_le_succ this

theorem head?_colonSplits_eq_some_iff_level : (colonSplits 0 s).head? = some (front, back) ↔
    FirstColon IsLevel s front back := by
  rw [head?_colonSplits_eq_some_iff]
  refine FirstColon.congr fun a b _ => ?_
  rw [Int.zero_add, IsLevel]

theorem splitsAtFirst_isLevel (s : List Char) : SplitsAtFirst IsLevel s := by
  intro n
  have head : (colonOffsets s).head? = (colonSplits 0 s).head?.map fun p => utf8Length p.1 :=
    List.head?_map
  rw [head, Option.map_eq_some_iff]
  constructor
  · rintro ⟨⟨front, back⟩, found, rfl⟩
    exact ⟨front, back, head?_colonSplits_eq_some_iff_level.1 found, rfl⟩
  · rintro ⟨front, back, first, rfl⟩
    exact ⟨(front, back), head?_colonSplits_eq_some_iff_level.2 first, rfl⟩

theorem SplitsAtFirst.congr (h : SplitsAtFirst kind s)
    (same : ∀ front back, FirstColon kind s front back ↔ FirstColon other s front back) :
    SplitsAtFirst other s := by
  intro n
  simp only [h n, same]

/-- Two kinds of colons that a text is split at have the same first one. -/
theorem SplitsAtFirst.firstColon (h : SplitsAtFirst kind s) (h' : SplitsAtFirst other s)
    (first : FirstColon kind s front back) : FirstColon other s front back := by
  obtain ⟨a, b, first', same⟩ := (h' _).1 ((h _).2 ⟨front, back, first, rfl⟩)
  obtain ⟨rfl, tails⟩ := eq_of_utf8Length_eq first.1 first'.1 same
  obtain rfl := (List.cons.inj tails).2
  exact first'

theorem Paired.splitsAtFirst_isOuter (hs : Paired s) : SplitsAtFirst IsOuter s :=
  (splitsAtFirst_isLevel s).congr fun _ _ => FirstColon.congr fun _ _ he => (he ▸ hs).isLevel_iff

/-- The first outer colon is also the first that stands alone, unless it is one of two. -/
theorem Paired.splitsAtFirst_isSingle_iff (hs : Paired s) : SplitsAtFirst IsSingle s ↔
    ∀ front back, FirstColon IsOuter s front back → ¬IsDoubled front back := by
  constructor
  · intro h front back first
    exact (hs.splitsAtFirst_isOuter.firstColon h first).2.1.2
  · intro alone
    refine hs.splitsAtFirst_isOuter.congr fun front back => ?_
    have single : ∀ {front back}, FirstColon IsOuter s front back →
        FirstColon IsSingle s front back := by
      intro front back first
      exact ⟨first.1, ⟨first.2.1, alone _ _ first⟩, fun a b he h => first.2.2 a b he h.1⟩
    refine ⟨single, fun first => ?_⟩
    obtain ⟨a, b, first'⟩ := exists_firstColon first.1 first.2.1.1
    obtain ⟨rfl, rfl⟩ := first.unique (single first')
    exact first'

theorem splitProperty?_of_firstColon (h : FirstColon IsLevel (trim s) front back) :
    splitProperty? s = some (unquote front, trim back) := by
  simp only [splitProperty?, head?_colonSplits_eq_some_iff_level.2 h]

theorem splitProperty?_of_forall (h : ∀ front back, ¬FirstColon IsLevel (trim s) front back) :
    splitProperty? s = if isIdentifier (trim s) then some (trim s, trim s) else none := by
  have none : (colonSplits 0 (trim s)).head? = none :=
    Option.eq_none_iff_forall_ne_some.2 fun split found =>
      h split.1 split.2 (head?_colonSplits_eq_some_iff_level.1 found)
  simp only [splitProperty?, none]

/-- A text is split at its first colon in front of which as many brackets are opened as closed.
Where its brackets are properly nested, this is the first colon outside of all pairs; it is the
first one that also stands alone exactly if it does. -/
theorem splitsAtFirst (s : List Char) :
    SplitsAtFirst IsLevel s ∧
    (Paired s → SplitsAtFirst IsOuter s ∧ (SplitsAtFirst IsSingle s ↔
      ∀ front back, FirstColon IsOuter s front back → ¬IsDoubled front back)) ∧
    (∀ front back, FirstColon IsLevel (trim s) front back →
      splitProperty? s = some (unquote front, trim back)) ∧
    ((∀ front back, ¬FirstColon IsLevel (trim s) front back) →
      splitProperty? s = if isIdentifier (trim s) then some (trim s, trim s) else none) :=
  ⟨splitsAtFirst_isLevel s, fun hs => ⟨hs.splitsAtFirst_isOuter, hs.splitsAtFirst_isSingle_iff⟩,
    fun _ _ => splitProperty?_of_firstColon, splitProperty?_of_forall⟩

/-- A text whose first outer colon is one of two, behind one in brackets. -/
def scopedText : List Char := "m<a: b>::c".toList

theorem paired_scopedText : Paired scopedText := by
  have plain : ∀ t ∈ ["a: b".toList, "::c".toList], Paired t := by
    have all : ∀ t ∈ ["a: b".toList, "::c".toList], t.all (angleStep · == 0) = true := by decide
    exact fun t mem => paired_of_forall fun c hc => by
      simpa using List.all_eq_true.1 (all t mem) c hc
  exact .char rfl (@Paired.group '<' '>' "a: b".toList "::c".toList (by decide)
    (plain _ (by simp)) (plain _ (by simp)))

theorem splitsAtFirst_scopedText :
    Paired scopedText ∧ SplitsAtFirst IsOuter scopedText ∧ ¬SplitsAtFirst IsSingle scopedText ∧
      FirstColon IsLevel (trim scopedText) "m<a: b>".toList ":c".toList ∧
      splitProperty? scopedText = some ("m<a: b>".toList, ":c".toList) := by
  obtain ⟨level, nested, split, -⟩ := splitsAtFirst scopedText
  obtain ⟨outer, single⟩ := nested paired_scopedText
  have first : FirstColon IsLevel scopedText "m<a: b>".toList ":c".toList :=
    head?_colonSplits_eq_some_iff_level.1 (by decide)
  have same : trim scopedText = scopedText := by decide
  refine ⟨paired_scopedText, outer, fun h => ?_, same ▸ first, ?_⟩
  · exact single.1 h _ _ (level.firstColon outer first) (.inr rfl)
  · exact split _ _ (same ▸ first)

/-- A colon that is one of two is not passed over, and texts are split there. -/
theorem not_passesDoubled :
    (¬∀ s, SplitsAtFirst IsSingle s) ∧
      ¬∀ s front back, trim s = front ++ ':' :: back → IsDoubled front back →
        splitProperty? s ≠ some (unquote front, trim back) := by
  refine ⟨fun h => ?_, fun h => ?_⟩
  · have head : (colonOffsets "a::b".toList).head? = some 1 := by decide
    obtain ⟨front, back, ⟨he, ⟨-, alone⟩, -⟩, length⟩ := (h "a::b".toList 1).1 head
    obtain ⟨rfl, tails⟩ := @eq_of_utf8Length_eq _ "a".toList "::b".toList _ _ rfl he length
    exact alone (.inr ((List.cons.inj tails).2 ▸ rfl))
  · exact h "a::b".toList "a".toList ":b".toList (by decide) (.inr rfl) (by decide)

end AngularAtlas.Source
