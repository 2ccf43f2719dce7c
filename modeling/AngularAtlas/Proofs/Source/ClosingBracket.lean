import AngularAtlas.Proofs.Checked.Brackets
import Mathlib.Order.Bounds.Basic

namespace AngularAtlas.Source

open Text Checked

/-- The kinds of brackets that can be closed. -/
def bracketPairs : List (Char × Char) := [('[', ']'), ('{', '}'), ('(', ')'), ('<', '>')]

/-- In all of the text as many brackets of a kind are opened as closed, and in no start of it are
more closed than opened. -/
structure IsBalanced (opener closer : Char) (s : List Char) : Prop where
  starts : ∀ p, p <+: s → p.count closer ≤ p.count opener
  all : s.count opener = s.count closer

/-- The bytes of a text from one offset to another, both included. -/
def bytesBetween (s : List Char) (first last : Nat) : List UInt8 :=
  ((encode s).drop first).take (last + 1 - first)

/-- The offsets behind a given one up to which the text from there on has as many brackets of a
kind opened as closed. -/
def evenOffsets (opener closer : Char) (s : List Char) (offset : Nat) : Set Nat :=
  {stop | offset < stop ∧ stop < utf8Length s ∧
    (bytesBetween s offset stop).count opener.toUInt8 =
      (bytesBetween s offset stop).count closer.toUInt8}

/-- A bracket that opens at one offset is closed at another, with a balanced text in between. -/
def Enclosed (s : List Char) (offset stop : Nat) (inside : List Char) : Prop :=
  ∃ opener closer front back, (opener, closer) ∈ bracketPairs ∧
    s = front ++ opener :: (inside ++ closer :: back) ∧ offset = utf8Length front ∧
      stop = offset + 1 + utf8Length inside ∧ IsBalanced opener closer inside

variable {opener closer c : Char} {s a b p : List Char} {depth offset stop : Nat}

theorem closer?_eq_some_iff : closer? opener = some closer ↔ (opener, closer) ∈ bracketPairs := by
  constructor
  · intro h
    unfold closer? at h
    split at h <;> cases h <;> decide
  · simp only [bracketPairs, List.mem_cons, Prod.mk.injEq, List.not_mem_nil, or_false]
    rintro (⟨rfl, rfl⟩ | ⟨rfl, rfl⟩ | ⟨rfl, rfl⟩ | ⟨rfl, rfl⟩) <;> rfl

theorem ne_of_mem_bracketPairs (h : (opener, closer) ∈ bracketPairs) : closer ≠ opener := by
  have apart : bracketPairs.all (fun p => p.2 != p.1) = true := by decide
  simpa using List.all_eq_true.1 apart _ h

theorem count_cons_eq (c d : Char) (s : List Char) :
    (c :: s).count d = [c].count d + s.count d :=
  show ([c] ++ s).count d = _ from List.count_append

theorem splitAtClose_cons (ne : closer ≠ opener) (depth : Nat) (c : Char) (s : List Char) :
    splitAtClose opener closer depth (c :: s) =
      if c = closer ∧ depth = 0 then some ([], s)
      else (splitAtClose opener closer (depth + [c].count opener - [c].count closer) s).map
        fun p => (c :: p.1, p.2) := by
  by_cases ho : c = opener
  · subst ho
    rw [splitAtClose_cons_opener, if_neg fun h => ne h.1.symm]
    simp [ne.symm]
  by_cases hc : c = closer
  · subst hc
    cases depth with
    | zero => rw [splitAtClose, if_neg ho, if_pos rfl, if_pos ⟨rfl, rfl⟩]
    | succ depth =>
      rw [splitAtClose_cons_closer ne, if_neg fun h => Nat.succ_ne_zero _ h.2]
      simp [ne]
  · rw [splitAtClose_cons_of_ne ho hc, if_neg fun h => hc h.1]
    simp [ho, hc]

/-- Unless a bracket closes at depth zero, the depth stays one. -/
theorem count_singleton_le (h : ¬(c = closer ∧ depth = 0)) :
    [c].count closer ≤ depth + [c].count opener := by
  by_cases hc : c = closer
  · subst hc
    have := Nat.pos_of_ne_zero fun zero => h ⟨rfl, zero⟩
    rw [List.count_singleton_self]
    omega
  · rw [List.count_singleton, if_neg (by simpa using hc)]
    exact Nat.zero_le _

theorem splitAtClose_eq_some_iff (ne : closer ≠ opener) :
    splitAtClose opener closer depth s = some (a, b) ↔ s = a ++ closer :: b ∧
      (∀ p, p <+: a → p.count closer ≤ depth + p.count opener) ∧
      a.count closer = depth + a.count opener := by
  induction s generalizing depth a with
  | nil => simp [splitAtClose]
  | cons c s ih =>
    rw [splitAtClose_cons ne]
    split
    case isTrue h =>
      obtain ⟨rfl, rfl⟩ := h
      constructor
      · intro he
        obtain ⟨rfl, rfl⟩ := Prod.mk.inj (Option.some.inj he)
        simp
      · rintro ⟨he, starts, -⟩
        cases a with
        | nil => rw [(List.cons.inj he).2]
        | cons d a =>
          obtain rfl := (List.cons.inj he).1
          have := starts [c] ((List.prefix_append [c] a))
          simp [ne] at this
    case isFalse h =>
      have step : [c].count closer ≤ depth + [c].count opener := count_singleton_le h
      constructor
      · intro he
        obtain ⟨⟨a', b'⟩, found, he⟩ := Option.map_eq_some_iff.1 he
        obtain ⟨rfl, rfl⟩ := Prod.mk.inj he
        obtain ⟨rfl, starts, all⟩ := ih.1 found
        refine ⟨rfl, fun p hp => ?_, ?_⟩
        · rcases List.prefix_cons_iff.1 hp with rfl | ⟨t, rfl, ht⟩
          · simp
          · have := starts t ht
            rw [count_cons_eq c closer, count_cons_eq c opener]
            omega
        · rw [count_cons_eq c closer a', count_cons_eq c opener a']
          omega
      · rintro ⟨he, starts, all⟩
        cases a with
        | nil =>
          obtain rfl := (List.cons.inj he).1
          exact absurd ⟨rfl, by simpa using all.symm⟩ h
        | cons d a =>
          obtain ⟨rfl, rfl⟩ := List.cons.inj he
          refine Option.map_eq_some_iff.2 ⟨(a, b), ih.2 ⟨rfl, fun p hp => ?_, ?_⟩, rfl⟩
          · have := starts (c :: p) (List.cons_prefix_cons.2 ⟨rfl, hp⟩)
            rw [count_cons_eq c closer, count_cons_eq c opener] at this
            omega
          · rw [count_cons_eq c closer, count_cons_eq c opener] at all
            omega

theorem count_le_of_splitAtClose_eq_none (ne : closer ≠ opener)
    (h : splitAtClose opener closer depth s = none) (hp : p <+: s) :
    p.count closer ≤ depth + p.count opener := by
  induction s generalizing depth p with
  | nil => simp [List.prefix_nil.1 hp]
  | cons c s ih =>
    rw [splitAtClose_cons ne] at h
    split at h
    case isTrue => cases h
    case isFalse inside =>
      have step : [c].count closer ≤ depth + [c].count opener := count_singleton_le inside
      rcases List.prefix_cons_iff.1 hp with rfl | ⟨t, rfl, ht⟩
      · simp
      · have := ih (Option.map_eq_none_iff.1 h) ht
        rw [count_cons_eq c closer, count_cons_eq c opener]
        omega

theorem splitAtClose_zero_eq_some_iff (ne : closer ≠ opener) :
    splitAtClose opener closer 0 s = some (a, b) ↔
      s = a ++ closer :: b ∧ IsBalanced opener closer a := by
  rw [splitAtClose_eq_some_iff ne]
  simp only [Nat.zero_add]
  constructor
  · rintro ⟨he, starts, all⟩
    exact ⟨he, starts, all.symm⟩
  · rintro ⟨he, balanced⟩
    exact ⟨he, balanced.starts, balanced.all.symm⟩

theorem balanced?_cons_eq_some_iff (pair : (opener, closer) ∈ bracketPairs) :
    balanced? (opener :: s) = some (a, b) ↔ s = a ++ closer :: b ∧ IsBalanced opener closer a := by
  rw [balanced?, closer?_eq_some_iff.2 pair, Option.bind_some,
    splitAtClose_zero_eq_some_iff (ne_of_mem_bracketPairs pair)]

theorem balanced?_cons_eq_none_iff (pair : (opener, closer) ∈ bracketPairs) :
    balanced? (opener :: s) = none ↔
      ∀ inside back, s = inside ++ closer :: back → ¬IsBalanced opener closer inside := by
  rw [Option.eq_none_iff_forall_ne_some]
  constructor
  · intro h inside back he balanced
    exact h (inside, back) ((balanced?_cons_eq_some_iff pair).2 ⟨he, balanced⟩)
  · intro h parts found
    obtain ⟨he, balanced⟩ := (balanced?_cons_eq_some_iff pair).1 found
    exact h _ _ he balanced

theorem balanced?_eq_some_iff : balanced? s = some (a, b) ↔ ∃ opener closer,
    (opener, closer) ∈ bracketPairs ∧ s = opener :: (a ++ closer :: b) ∧
      IsBalanced opener closer a := by
  constructor
  · intro h
    cases s with
    | nil => cases h
    | cons opener s =>
      obtain ⟨closer, kind, -⟩ := Option.bind_eq_some_iff.1 h
      have pair := closer?_eq_some_iff.1 kind
      obtain ⟨rfl, balanced⟩ := (balanced?_cons_eq_some_iff pair).1 h
      exact ⟨opener, closer, pair, rfl, balanced⟩
  · rintro ⟨opener, closer, pair, rfl, balanced⟩
    exact (balanced?_cons_eq_some_iff pair).2 ⟨rfl, balanced⟩

theorem count_utf8EncodeChar {d : Char} (small : d.toNat < 128) (c : Char) :
    (String.utf8EncodeChar c).count d.toUInt8 = [c].count d := by
  by_cases same : c = d
  · subst same
    rw [utf8EncodeChar_of_lt small, List.count_singleton_self, List.count_singleton_self]
  · have none : d.toUInt8 ∉ String.utf8EncodeChar c :=
      fun mem => ne_of_mem_utf8EncodeChar small same mem rfl
    rw [List.count_eq_zero.2 none, List.count_eq_zero.2 (by simpa using Ne.symm same)]

theorem count_encode {d : Char} (small : d.toNat < 128) (s : List Char) :
    (encode s).count d.toUInt8 = s.count d := by
  induction s with
  | nil => rfl
  | cons c s ih =>
    rw [encode_cons, List.count_append, count_utf8EncodeChar small, ih, count_cons_eq c d s]

/-- The bytes at the start of a text have the brackets of a start of the text, also where they end
inside a character. -/
theorem exists_prefix_of_prefix_encode {q : List UInt8} (hq : q <+: encode s) :
    ∃ p, p <+: s ∧ ∀ d : Char, d.toNat < 128 → q.count d.toUInt8 = p.count d := by
  induction s generalizing q with
  | nil => exact ⟨[], List.nil_prefix, fun d _ => by rw [List.prefix_nil.1 hq]; rfl⟩
  | cons c s ih =>
    rw [encode_cons] at hq
    by_cases whole : String.utf8EncodeChar c <+: q
    · obtain ⟨q, rfl⟩ := whole
      obtain ⟨p, hp, counts⟩ := ih ((List.prefix_append_right_inj _).1 hq)
      refine ⟨c :: p, List.cons_prefix_cons.2 ⟨rfl, hp⟩, fun d small => ?_⟩
      rw [List.count_append, count_utf8EncodeChar small, counts d small, count_cons_eq c d p]
    · have part : q <+: String.utf8EncodeChar c :=
        (List.prefix_or_prefix_of_prefix hq (List.prefix_append _ _)).resolve_right whole
      refine ⟨[], List.nil_prefix, fun d small => List.count_eq_zero.2 fun mem => ?_⟩
      by_cases same : c = d
      · subst same
        rw [utf8EncodeChar_of_lt small] at part whole
        rcases List.prefix_cons_iff.1 part with rfl | ⟨t, rfl, ht⟩
        · cases mem
        · exact whole (List.cons_prefix_cons.2 ⟨rfl, List.nil_prefix⟩)
      · exact ne_of_mem_utf8EncodeChar small same (part.subset mem) rfl

/-- As long as an opened bracket is not closed, more of its kind are opened than closed. -/
theorem count_lt_of_prefix_encode (pair : (opener, closer) ∈ bracketPairs)
    (starts : ∀ p, p <+: s → p.count closer ≤ p.count opener) {q : List UInt8} (ne : q ≠ [])
    (hq : q <+: encode (opener :: s)) : q.count closer.toUInt8 < q.count opener.toUInt8 := by
  obtain ⟨small, small'⟩ := lt_of_closer? (closer?_eq_some_iff.2 pair)
  have differ := ne_of_mem_bracketPairs pair
  obtain ⟨p, hp, counts⟩ := exists_prefix_of_prefix_encode hq
  rw [counts _ small, counts _ small']
  rcases List.prefix_cons_iff.1 hp with rfl | ⟨t, rfl, ht⟩
  · rw [encode_cons_of_lt small] at hq
    obtain ⟨b, q, rfl⟩ := List.exists_cons_of_ne_nil ne
    obtain ⟨rfl, -⟩ := List.cons_prefix_cons.1 hq
    have opened := counts opener small
    simp at opened
  · rw [List.count_cons_self, List.count_cons_of_ne differ.symm]
    exact Nat.lt_succ_of_le (starts t ht)

theorem drop_encode (front t : List Char) :
    (encode (front ++ t)).drop (utf8Length front) = encode t := by
  rw [encode_append, ← length_encode front, List.drop_left]

theorem getElem?_encode (front : List Char) (small : opener.toNat < 128) (t : List Char) :
    (encode (front ++ opener :: t))[utf8Length front]? = some opener.toUInt8 := by
  rw [← List.head?_drop, drop_encode, encode_cons_of_lt small, List.head?_cons]

theorem exists_of_getElem?_encode (small : opener.toNat < 128)
    (h : (encode s)[offset]? = some opener.toUInt8) :
    ∃ front t, s = front ++ opener :: t ∧ offset = utf8Length front := by
  cases found : from? s offset with
  | none => exact absurd (toUInt8_lt small) (Nat.not_lt.2 (le_of_from?_eq_none found h))
  | some t =>
    obtain ⟨front, rfl, rfl⟩ := from?_eq_some_iff.1 found
    rw [← List.head?_drop, drop_encode] at h
    cases t with
    | nil => cases h
    | cons c t =>
      have mem : opener.toUInt8 ∈ String.utf8EncodeChar c := by
        obtain ⟨b, bytes, he⟩ := List.exists_cons_of_ne_nil (String.utf8EncodeChar_ne_nil (c := c))
        rw [encode_cons, he] at h
        rw [he, ← Option.some.inj h]
        exact List.mem_cons_self
      by_cases same : c = opener
      · exact ⟨front, t, by rw [same], rfl⟩
      · exact absurd rfl (ne_of_mem_utf8EncodeChar small same mem)

theorem bytesBetween_append (front t : List Char) (stop : Nat) :
    bytesBetween (front ++ t) (utf8Length front) stop =
      (encode t).take (stop + 1 - utf8Length front) := by
  rw [bytesBetween, drop_encode]

theorem count_bytesBetween_lt (pair : (opener, closer) ∈ bracketPairs)
    (starts : ∀ p, p <+: a → p.count closer ≤ p.count opener) {front : List Char}
    (behind : utf8Length front < stop) (within : stop ≤ utf8Length front + utf8Length a)
    (t : List Char) :
    (bytesBetween (front ++ opener :: (a ++ t)) (utf8Length front) stop).count closer.toUInt8 <
      (bytesBetween (front ++ opener :: (a ++ t)) (utf8Length front) stop).count
        opener.toUInt8 := by
  have small := (lt_of_closer? (closer?_eq_some_iff.2 pair)).1
  have length : (encode (opener :: a)).length = 1 + utf8Length a := by
    rw [length_encode, utf8Length_cons, utf8Size_of_lt small]
  rw [bytesBetween_append, ← List.cons_append, encode_append,
    List.take_append_of_le_length (by omega)]
  refine count_lt_of_prefix_encode pair starts ?_ (List.take_prefix _ _)
  refine List.ne_nil_of_length_pos ?_
  rw [List.length_take, length]
  omega

theorem not_mem_evenOffsets (pair : (opener, closer) ∈ bracketPairs)
    (starts : ∀ p, p <+: a → p.count closer ≤ p.count opener) (front : List Char) (stop : Nat) :
    stop ∉ evenOffsets opener closer (front ++ opener :: a) (utf8Length front) := by
  rintro ⟨behind, within, even⟩
  have size := utf8Size_of_lt (lt_of_closer? (closer?_eq_some_iff.2 pair)).1
  rw [utf8Length_append, utf8Length_cons, size] at within
  have less := count_bytesBetween_lt pair starts behind (by omega) []
  rw [List.append_nil, even] at less
  exact Nat.lt_irrefl _ less

theorem isLeast_evenOffsets (pair : (opener, closer) ∈ bracketPairs)
    (balanced : IsBalanced opener closer a) (front back : List Char) :
    IsLeast (evenOffsets opener closer (front ++ opener :: (a ++ closer :: back))
      (utf8Length front)) (utf8Length front + 1 + utf8Length a) := by
  obtain ⟨small, small'⟩ := lt_of_closer? (closer?_eq_some_iff.2 pair)
  have differ := ne_of_mem_bracketPairs pair
  have size := utf8Size_of_lt small
  have size' := utf8Size_of_lt small'
  refine ⟨⟨by omega, ?_, ?_⟩, fun stop ⟨behind, _, even⟩ => Nat.not_lt.1 fun before => ?_⟩
  · simp only [utf8Length_append, utf8Length_cons]
    omega
  · have whole : opener :: (a ++ closer :: back) = (opener :: (a ++ [closer])) ++ back := by simp
    have length : utf8Length front + 1 + utf8Length a + 1 - utf8Length front =
        (encode (opener :: (a ++ [closer]))).length := by
      simp only [length_encode, utf8Length_cons, utf8Length_append, utf8Length_nil]
      omega
    rw [bytesBetween_append, whole, encode_append, length, List.take_left, count_encode small,
      count_encode small', count_cons_eq opener opener, count_cons_eq opener closer,
      List.count_append, List.count_append, balanced.all]
    simp [differ, differ.symm, Nat.add_comm]
  · have less := count_bytesBetween_lt pair balanced.starts behind (by omega) (closer :: back)
    omega

theorem closingOffset?_append (front t : List Char) :
    closingOffset? (front ++ t) (utf8Length front) =
      (balanced? t).map fun p => utf8Length front + 1 + utf8Length p.1 := by
  rw [closingOffset?, from?_append, Option.bind_eq_bind, Option.bind_some]
  cases balanced? t <;> rfl

theorem insideBracket?_append (front t : List Char) :
    insideBracket? (front ++ t) (utf8Length front) = (balanced? t).map (·.1) := by
  rw [insideBracket?, from?_append, Option.bind_eq_bind, Option.bind_some]
  cases balanced? t <;> rfl

theorem exists_enclosed_of_closingOffset? (h : closingOffset? s offset = some stop) :
    ∃ inside, insideBracket? s offset = some inside ∧ Enclosed s offset stop inside := by
  cases found : from? s offset with
  | none => simp [closingOffset?, found] at h
  | some t =>
    obtain ⟨front, rfl, rfl⟩ := from?_eq_some_iff.1 found
    rw [closingOffset?_append] at h
    obtain ⟨⟨inside, back⟩, pair, rfl⟩ := Option.map_eq_some_iff.1 h
    refine ⟨inside, by rw [insideBracket?_append, pair]; rfl, ?_⟩
    obtain ⟨opener, closer, kind, rfl, balanced⟩ := balanced?_eq_some_iff.1 pair
    exact ⟨opener, closer, front, back, kind, rfl, rfl, rfl, balanced⟩

theorem isLeast_or_not_mem (pair : (opener, closer) ∈ bracketPairs)
    (opened : (encode s)[offset]? = some opener.toUInt8) :
    (∃ stop, closingOffset? s offset = some stop ∧
        IsLeast (evenOffsets opener closer s offset) stop) ∨
      closingOffset? s offset = none ∧ ∀ stop, stop ∉ evenOffsets opener closer s offset := by
  have kind := closer?_eq_some_iff.2 pair
  have ne := ne_of_mem_bracketPairs pair
  obtain ⟨front, t, rfl, rfl⟩ := exists_of_getElem?_encode (lt_of_closer? kind).1 opened
  rw [closingOffset?_append, balanced?, kind, Option.bind_some]
  cases found : splitAtClose opener closer 0 t with
  | none =>
    refine .inr ⟨rfl, not_mem_evenOffsets pair (fun p hp => ?_) front⟩
    simpa using count_le_of_splitAtClose_eq_none ne found hp
  | some parts =>
    obtain ⟨inside, back⟩ := parts
    obtain ⟨rfl, balanced⟩ := (splitAtClose_zero_eq_some_iff ne).1 found
    exact .inl ⟨_, rfl, isLeast_evenOffsets pair balanced front back⟩

theorem closingOffset?_eq_some_iff : closingOffset? s offset = some stop ↔
    ∃ opener closer, (opener, closer) ∈ bracketPairs ∧
      (encode s)[offset]? = some opener.toUInt8 ∧
      IsLeast (evenOffsets opener closer s offset) stop := by
  constructor
  · intro h
    obtain ⟨inside, -, opener, closer, front, back, pair, rfl, rfl, rfl, balanced⟩ :=
      exists_enclosed_of_closingOffset? h
    have small := (lt_of_closer? (closer?_eq_some_iff.2 pair)).1
    exact ⟨opener, closer, pair, getElem?_encode front small _,
      isLeast_evenOffsets pair balanced front back⟩
  · rintro ⟨opener, closer, pair, opened, least⟩
    rcases isLeast_or_not_mem pair opened with ⟨other, found, least'⟩ | ⟨-, nowhere⟩
    · rw [found, least.unique least']
    · exact absurd least.1 (nowhere stop)

/-- No bracket opens at an offset, or none closes it. -/
theorem closingOffset?_eq_none_iff : closingOffset? s offset = none ↔
    utf8Length s ≤ offset ∨
      (∀ pair ∈ bracketPairs, (encode s)[offset]? ≠ some pair.1.toUInt8) ∨
      ∃ pair ∈ bracketPairs, (encode s)[offset]? = some pair.1.toUInt8 ∧
        ∀ stop, stop ∉ evenOffsets pair.1 pair.2 s offset := by
  constructor
  · intro none
    by_cases opens : ∃ pair ∈ bracketPairs, (encode s)[offset]? = some pair.1.toUInt8
    · obtain ⟨pair, mem, opened⟩ := opens
      rcases isLeast_or_not_mem mem opened with ⟨stop, found, -⟩ | ⟨-, nowhere⟩
      · rw [none] at found
        cases found
      · exact .inr (.inr ⟨pair, mem, opened, nowhere⟩)
    · exact .inr (.inl fun pair mem opened => opens ⟨pair, mem, opened⟩)
  · intro h
    refine Option.eq_none_iff_forall_ne_some.2 fun stop found => ?_
    obtain ⟨opener, closer, pair, opened, least⟩ := closingOffset?_eq_some_iff.1 found
    rcases h with outside | other | ⟨⟨opener', closer'⟩, pair', opened', nowhere⟩
    · rw [List.getElem?_eq_none (by rwa [length_encode])] at opened
      cases opened
    · exact other _ pair opened
    · rcases isLeast_or_not_mem pair' opened' with ⟨_, -, least'⟩ | ⟨none, -⟩
      · exact nowhere _ least'.1
      · rw [none] at found
        cases found

/-- From any offset, the closing bracket is the first place up to which as many brackets of the
kind that opens there are closed as opened; the text in between is balanced, and it is what is
taken out. -/
theorem closingOffset?_isLeast (s : List Char) (offset : Nat) :
    (∀ stop, closingOffset? s offset = some stop ↔
      ∃ opener closer, (opener, closer) ∈ bracketPairs ∧
        (encode s)[offset]? = some opener.toUInt8 ∧
        IsLeast (evenOffsets opener closer s offset) stop) ∧
    (closingOffset? s offset = none ↔
      utf8Length s ≤ offset ∨
        (∀ pair ∈ bracketPairs, (encode s)[offset]? ≠ some pair.1.toUInt8) ∨
        ∃ pair ∈ bracketPairs, (encode s)[offset]? = some pair.1.toUInt8 ∧
          ∀ stop, stop ∉ evenOffsets pair.1 pair.2 s offset) ∧
    ∀ stop, closingOffset? s offset = some stop →
      ∃ inside, insideBracket? s offset = some inside ∧ Enclosed s offset stop inside :=
  ⟨fun _ => closingOffset?_eq_some_iff, closingOffset?_eq_none_iff,
    fun _ => exists_enclosed_of_closingOffset?⟩

/-- A text with characters of several bytes, in which brackets of two kinds are interleaved. -/
def mixedText : List Char := "é[ü(a]ö[b)c]]".toList

theorem closingOffset?_isLeast_mixedText :
    closingOffset? mixedText 2 = some 7 ∧
      ∃ inside, insideBracket? mixedText 2 = some inside ∧ Enclosed mixedText 2 7 inside := by
  have found : closingOffset? mixedText 2 = some 7 := by decide +kernel
  exact ⟨found, (closingOffset?_isLeast mixedText 2).2.2 7 found⟩

end AngularAtlas.Source
