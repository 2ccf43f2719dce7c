import AngularAtlas.Toml.Literal
import Mathlib.Data.List.Basic
import Mathlib.Data.Option.Basic

namespace AngularAtlas.Toml

open AngularAtlas.Text (isAsciiDigit)

variable {n : Nat} {ds rest : List Char}

theorem isAsciiDigit_of_mem_toDigits {c : Char} (mem : c ∈ Nat.toDigits 10 n) :
    isAsciiDigit c = true := by
  have digit := Nat.isDigit_of_mem_toDigits (by decide) (by decide) mem
  rw [Char.isDigit, Bool.and_eq_true, decide_eq_true_eq, decide_eq_true_eq] at digit
  rw [isAsciiDigit, Bool.and_eq_true, decide_eq_true_eq, decide_eq_true_eq]
  exact digit

theorem digitsValue_eq_ofDigitChars (digits : ∀ c ∈ ds, isAsciiDigit c = true) (start : Nat) :
    ds.foldl (fun n d => n * 10 + (Json.hexDigit? d).getD 0) start =
      Nat.ofDigitChars 10 ds start := by
  induction ds generalizing start with
  | nil => rfl
  | cons c ds ih =>
    obtain ⟨here, later⟩ := List.forall_mem_cons.1 digits
    rw [List.foldl_cons, ih later, Nat.ofDigitChars_cons, Json.hexDigit?, if_pos here,
      Option.getD_some, Nat.mul_comm]

theorem digitsValue_toDigits (n : Nat) : digitsValue 10 (Nat.toDigits 10 n) = n := by
  rw [digitsValue, digitsValue_eq_ofDigitChars fun _ => isAsciiDigit_of_mem_toDigits]
  exact Nat.ofDigitChars_toDigits (by decide) (by decide)

/-- A zero at the start stands alone. -/
theorem eq_nil_of_toDigits_eq (h : Nat.toDigits 10 n = '0' :: ds) : ds = [] := by
  induction n using Nat.strongRecOn generalizing ds with
  | ind n ih =>
    by_cases small : n < 10
    · rw [Nat.toDigits_of_lt_base small] at h
      exact (List.cons.inj h).2.symm
    · have split := Nat.toDigits_append_toDigits (b := 10) (n := n / 10) (d := n % 10)
        (by decide) (by omega) (Nat.mod_lt _ (by decide))
      rw [Nat.div_add_mod, h] at split
      obtain ⟨c, front, he⟩ :=
        List.exists_cons_of_ne_nil (Nat.toDigits_ne_nil (b := 10) (n := n / 10))
      rw [he, List.cons_append] at split
      obtain ⟨rfl, -⟩ := List.cons.inj split
      obtain rfl := ih (n / 10) (by omega) he
      have zero := digitsValue_toDigits (n / 10)
      rw [he] at zero
      have nothing : digitsValue 10 ['0'] = 0 := by decide
      omega

theorem moreDigits_append (digits : ∀ c ∈ ds, isAsciiDigit c = true) (rest : List Char) :
    moreDigits isAsciiDigit (ds ++ '\n' :: rest) = (ds, '\n' :: rest) := by
  induction ds with
  | nil =>
    have other : isAsciiDigit '\n' = false := by decide
    simp [moreDigits, other]
  | cons c ds ih =>
    obtain ⟨here, later⟩ := List.forall_mem_cons.1 digits
    have noMark : c ≠ '_' := by
      rintro rfl
      exact absurd here (by decide)
    simp [moreDigits, here, ih later, noMark]

/-- Behind a fixed count of digits there is one more digit, or the end of the line. -/
theorem afterChar?_of_fixedNumber? {width least most value : Nat} {c : Char} {s : List Char}
    (digits : ∀ c ∈ ds, isAsciiDigit c = true) (noDigit : isAsciiDigit c = false) (noEnd : c ≠ '\n')
    (h : fixedNumber? width least most (ds ++ '\n' :: rest) = some (value, s)) :
    Text.afterChar? c s = none := by
  rw [fixedNumber?] at h
  split_ifs at h with fits
  obtain ⟨-, all, -, -⟩ := fits
  obtain ⟨-, rfl⟩ := Prod.mk.inj (Option.some.inj h)
  have inside : width ≤ ds.length := by
    by_contra long
    have reached : '\n' ∈ (ds ++ '\n' :: rest).take width :=
      List.mem_take_iff_getElem.2 ⟨ds.length, by simp; omega, by simp⟩
    exact absurd (List.all_eq_true.1 all _ reached) (by decide)
  rw [List.drop_append_of_le_length inside]
  cases behind : ds.drop width with
  | nil => exact if_neg noEnd
  | cons d more =>
    have digit := digits d (List.mem_of_mem_drop (behind ▸ List.mem_cons_self))
    refine if_neg ?_
    rintro rfl
    rw [digit] at noDigit
    cases noDigit

theorem moment?_digits (digits : ∀ c ∈ ds, isAsciiDigit c = true) (rest : List Char) :
    moment? (ds ++ '\n' :: rest) = none := by
  have date : afterDate? (ds ++ '\n' :: rest) = none := by
    rw [afterDate?]
    cases year : fixedNumber? 4 0 9999 (ds ++ '\n' :: rest) with
    | none => rfl
    | some found =>
      obtain ⟨value, s⟩ := found
      have stop := afterChar?_of_fixedNumber? (c := '-') digits (by decide) (by decide) year
      simp [stop]
  have time : afterTime? (ds ++ '\n' :: rest) = none := by
    rw [afterTime?]
    cases hour : fixedNumber? 2 0 23 (ds ++ '\n' :: rest) with
    | none => rfl
    | some found =>
      obtain ⟨value, s⟩ := found
      have stop := afterChar?_of_fixedNumber? (c := ':') digits (by decide) (by decide) hour
      simp [stop]
  simp [moment?, date, time]

theorem sign_of_isAsciiDigit {c : Char} (digit : isAsciiDigit c = true) (s : List Char) :
    sign (c :: s) = (false, [], c :: s) := by
  unfold sign
  split
  · next same => cases same; exact absurd digit (by decide)
  · next same => cases same; exact absurd digit (by decide)
  · rfl

theorem decimalDigits?_toDigits (n : Nat) (rest : List Char) :
    decimalDigits? (Nat.toDigits 10 n ++ '\n' :: rest) =
      some (Nat.toDigits 10 n, '\n' :: rest) := by
  obtain ⟨c, ds, he⟩ := List.exists_cons_of_ne_nil (Nat.toDigits_ne_nil (b := 10) (n := n))
  have digits : ∀ d ∈ c :: ds, isAsciiDigit d = true :=
    he ▸ fun _ => isAsciiDigit_of_mem_toDigits
  obtain ⟨here, later⟩ := List.forall_mem_cons.1 digits
  rw [he, List.cons_append]
  by_cases zero : c = '0'
  · subst zero
    rw [eq_nil_of_toDigits_eq he]
    rfl
  · rw [decimalDigits?]
    · simp [digits?, here, moreDigits_append later]
    · simp [zero]

/-- The first digit of a number. -/
theorem exists_toDigits_eq_cons (n : Nat) :
    ∃ c ds, Nat.toDigits 10 n = c :: ds ∧ isAsciiDigit c = true := by
  obtain ⟨c, ds, he⟩ := List.exists_cons_of_ne_nil (Nat.toDigits_ne_nil (b := 10) (n := n))
  exact ⟨c, ds, he, isAsciiDigit_of_mem_toDigits (he ▸ List.mem_cons_self)⟩

theorem sign_toDigits (n : Nat) (rest : List Char) :
    sign (Nat.toDigits 10 n ++ rest) = (false, [], Nat.toDigits 10 n ++ rest) := by
  obtain ⟨c, ds, he, digit⟩ := exists_toDigits_eq_cons n
  rw [he, List.cons_append, sign_of_isAsciiDigit digit]

theorem decimalFloat?_toDigits (n : Nat) (rest : List Char) :
    decimalFloat? (Nat.toDigits 10 n ++ '\n' :: rest) = none := by
  simp [decimalFloat?, sign_toDigits, decimalDigits?_toDigits, fraction?, exponent?]

theorem integer?_natCast (short : n < Nat.pow 2 63) : integer? n = some (.integer n) := by
  refine if_pos ⟨?_, Int.ofNat_lt.2 short⟩
  exact Int.le_trans (Int.neg_nonpos_of_nonneg (Int.natCast_nonneg _)) (Int.natCast_nonneg n)

theorem integerLiteral?_toDigits (short : n < Nat.pow 2 63) (rest : List Char) :
    integerLiteral? (Nat.toDigits 10 n ++ '\n' :: rest) = some (.integer n, '\n' :: rest) := by
  -- a zero stands alone, so that no base is named behind it
  have noBase : ∀ c r, isAsciiDigit c = false → c ≠ '\n' →
      Nat.toDigits 10 n ++ '\n' :: rest ≠ '0' :: c :: r := by
    intro c r noDigit noEnd same
    obtain ⟨d, ds, he, -⟩ := exists_toDigits_eq_cons n
    rw [he, List.cons_append] at same
    obtain ⟨rfl, behind⟩ := List.cons.inj same
    rw [eq_nil_of_toDigits_eq he, List.nil_append] at behind
    exact noEnd (List.cons.inj behind).1.symm
  rw [integerLiteral?]
  · have value := integer?_natCast short
    -- the bounds of an integer are too large to be unfolded
    obtain ⟨read, same⟩ : ∃ read, integer? = read := ⟨_, rfl⟩
    rw [same] at value ⊢
    simp [sign_toDigits, decimalDigits?_toDigits, digitsValue_toDigits, value]
  · exact fun r => noBase 'x' r (by decide) (by decide)
  · exact fun r => noBase 'o' r (by decide) (by decide)
  · exact fun r => noBase 'b' r (by decide) (by decide)

theorem literal?_toDigits (short : n < Nat.pow 2 63) (rest : List Char) :
    literal? (Nat.toDigits 10 n ++ '\n' :: rest) = some (.integer n, '\n' :: rest) := by
  have digits : ∀ c ∈ Nat.toDigits 10 n, isAsciiDigit c = true :=
    fun _ => isAsciiDigit_of_mem_toDigits
  have noWord : ∀ word : String, word.toList.head?.any isAsciiDigit = false →
      word.toList ≠ [] → word.toList.isPrefixOf? (Nat.toDigits 10 n ++ '\n' :: rest) = none := by
    intro word noDigit ne
    obtain ⟨c, ds, he, digit⟩ := exists_toDigits_eq_cons n
    obtain ⟨d, letters, hw⟩ := List.exists_cons_of_ne_nil ne
    have differ : d ≠ c := by
      rintro rfl
      rw [hw, List.head?_cons, Option.any_some, digit] at noDigit
      cases noDigit
    simp [he, hw, List.isPrefixOf?, differ]
  have bool : bool? (Nat.toDigits 10 n ++ '\n' :: rest) = none := by
    have yes := noWord "true" (by decide) (by decide)
    have no := noWord "false" (by decide) (by decide)
    simp only [bool?, List.findSome?_cons, List.findSome?_nil, yes, no, Option.map_none]
  have named : namedFloat? (Nat.toDigits 10 n ++ '\n' :: rest) = none := by
    have infinite := noWord "inf" (by decide) (by decide)
    have unknown := noWord "nan" (by decide) (by decide)
    simp only [namedFloat?, sign_toDigits, List.findSome?_cons, List.findSome?_nil, infinite,
      unknown, Option.map_none]
  simp [literal?, bool, named, moment?_digits digits, decimalFloat?_toDigits,
    integerLiteral?_toDigits short]

end AngularAtlas.Toml
