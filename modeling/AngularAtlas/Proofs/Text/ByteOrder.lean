import Mathlib.Data.String.Basic

namespace AngularAtlas.Text

/-- The bytes of a text in UTF-8. -/
def bytes (s : String) : List UInt8 := s.toUTF8.data.toList

/-- The least code point of a character that has so many bytes behind its first one. -/
def leastCode : Nat → Nat
  | 0 => 0
  | 1 => 0x80
  | 2 => 0x800
  | 3 => 0x10000
  | _ => 0x110000

/-- The first byte of a character that has so many bytes behind it is at least this. -/
def leastLead : Nat → Nat
  | 0 => 0
  | 1 => 0xc0
  | 2 => 0xe0
  | 3 => 0xf0
  | _ => 0x100

/-- The last bytes of a character, each with six bits of its code point. -/
def trail : Nat → Nat → List UInt8
  | 0, _ => []
  | k + 1, code => trail k (code / 64) ++ [UInt8.ofNat (code % 64 + 0x80)]

variable {c d : Char} {a b : List Char} {s t : String} {k : Nat}

theorem bytes_eq (s : String) : bytes s = s.toList.flatMap String.utf8EncodeChar := by
  conv_lhs => rw [← String.ofList_toList (s := s)]
  rw [bytes, String.toUTF8_eq_toByteArray]
  exact List.toList_data_toByteArray

theorem exists_utf8EncodeChar_eq (c : Char) : ∃ k < 4,
    leastCode k ≤ c.val.toNat ∧ c.val.toNat < leastCode (k + 1) ∧
      String.utf8EncodeChar c =
        UInt8.ofNat (c.val.toNat / 64 ^ k + leastLead k) :: trail k c.val.toNat := by
  have valid : c.val.toNat < 0x110000 := by
    rcases c.valid with h | h
    · exact Nat.lt_trans h (by decide)
    · exact h.2
  fun_cases String.utf8EncodeChar c with
  | case1 code h1 =>
    refine ⟨0, by decide, Nat.zero_le _, Nat.lt_succ_of_le h1, ?_⟩
    simp [leastLead, trail, code]
  | case2 code h1 h2 =>
    refine ⟨1, by decide, Nat.lt_of_not_le h1, Nat.lt_succ_of_le h2, ?_⟩
    have lead : code / 64 % 32 = code / 64 := Nat.mod_eq_of_lt (by omega)
    rw [lead]
    rfl
  | case3 code h1 h2 h3 =>
    refine ⟨2, by decide, Nat.lt_of_not_le h2, Nat.lt_succ_of_le h3, ?_⟩
    have lead : code / 4096 % 16 = code / 4096 := Nat.mod_eq_of_lt (by omega)
    rw [lead]
    rfl
  | case4 code h1 h2 h3 =>
    refine ⟨3, by decide, Nat.lt_of_not_le h3, valid, ?_⟩
    have lead : code / 262144 % 8 = code / 262144 := Nat.mod_eq_of_lt (by omega)
    have third : code / 4096 = code / 64 / 64 := (Nat.div_div_eq_div_mul code 64 64).symm
    rw [lead, third]
    rfl

/-- The first byte tells how many bytes there are. -/
theorem lead_lt (hk : k < 4) {code : Nat} (h : code < leastCode (k + 1)) :
    code / 64 ^ k + leastLead k < leastLead (k + 1) := by
  match k with
  | 0 | 1 | 2 | 3 =>
    simp only [leastCode, leastLead, Nat.reducePow] at h ⊢
    omega

theorem least_le_least : ∀ j < 4, ∀ i < j,
    leastCode (i + 1) ≤ leastCode j ∧ leastLead (i + 1) ≤ leastLead j := by
  decide

theorem leastLead_le : ∀ k < 4, leastLead (k + 1) ≤ 0x100 := by
  decide

/-- Of two bytes the first decides, and what follows if they are the same. -/
theorem ofNat_cons_lt {m n : Nat} {x y : List UInt8} (small : n < 0x100)
    (lt : m < n ∨ m = n ∧ x < y) : UInt8.ofNat m :: x < UInt8.ofNat n :: y := by
  rw [List.cons_lt_cons_iff, UInt8.lt_iff_toNat_lt, ← UInt8.toNat_inj, UInt8.toNat_ofNat',
    UInt8.toNat_ofNat', Nat.mod_eq_of_lt (by omega : m < 2 ^ 8), Nat.mod_eq_of_lt small]
  exact lt

/-- Of two code points the lesser one has the lesser first bits, or the same ones and then the
lesser last bytes. -/
theorem trail_append_lt {v w : Nat} (lt : v < w) (k : Nat) (x y : List UInt8) :
    v / 64 ^ k < w / 64 ^ k ∨ v / 64 ^ k = w / 64 ^ k ∧ trail k v ++ x < trail k w ++ y := by
  induction k generalizing v w x y with
  | zero =>
    left
    simpa using lt
  | succ k ih =>
    have split : ∀ n, n / 64 ^ (k + 1) = n / 64 / 64 ^ k := fun n => by
      rw [pow_succ', Nat.div_div_eq_div_mul]
    rw [split, split, trail, trail, List.append_assoc, List.append_assoc]
    rcases Nat.lt_or_ge (v / 64) (w / 64) with lt' | ge
    · exact ih lt' _ _
    · have same : v / 64 = w / 64 := by omega
      rw [same]
      exact .inr ⟨rfl, List.append_left_lt (ofNat_cons_lt (by omega) (.inl (by omega)))⟩

/-- Of two characters the lesser one has the lesser bytes, whatever follows them. -/
theorem utf8EncodeChar_append_lt (lt : c < d) (x y : List UInt8) :
    String.utf8EncodeChar c ++ x < String.utf8EncodeChar d ++ y := by
  have lt : c.val.toNat < d.val.toNat := lt
  obtain ⟨i, hi, lowC, highC, encodedC⟩ := exists_utf8EncodeChar_eq c
  obtain ⟨j, hj, lowD, highD, encodedD⟩ := exists_utf8EncodeChar_eq d
  have leadC := lead_lt hi highC
  have leadD := lead_lt hj highD
  rw [encodedC, encodedD]
  refine ofNat_cons_lt (Nat.lt_of_lt_of_le leadD (leastLead_le j hj)) ?_
  rcases Nat.lt_trichotomy i j with less | rfl | more
  · have := (least_le_least j hj i less).2
    exact .inl (Nat.lt_of_lt_of_le leadC (this.trans (Nat.le_add_left ..)))
  · rcases trail_append_lt lt i x y with lt | ⟨same, lt⟩
    · exact .inl (Nat.add_lt_add_right lt _)
    · exact .inr ⟨by rw [same], lt⟩
  · have := (least_le_least i hi j more).1
    omega

theorem flatMap_utf8EncodeChar_lt (lt : a < b) :
    a.flatMap String.utf8EncodeChar < b.flatMap String.utf8EncodeChar := by
  induction a generalizing b with
  | nil =>
    cases b with
    | nil => exact absurd lt (List.not_lt_nil _)
    | cons d b =>
      obtain ⟨first, rest, encoded⟩ :=
        List.exists_cons_of_ne_nil (String.utf8EncodeChar_ne_nil (c := d))
      rw [List.flatMap_cons, encoded]
      exact List.nil_lt_cons _ _
  | cons c a ih =>
    cases b with
    | nil => exact absurd lt (List.not_lt_nil _)
    | cons d b =>
      rw [List.flatMap_cons, List.flatMap_cons]
      rcases List.cons_lt_cons_iff.1 lt with first | ⟨rfl, rest⟩
      · exact utf8EncodeChar_append_lt first _ _
      · exact List.append_left_lt (ih rest)

theorem bytes_lt_bytes (lt : s < t) : bytes s < bytes t := by
  rw [bytes_eq, bytes_eq]
  exact flatMap_utf8EncodeChar_lt (String.lt_iff_toList_lt.1 lt)

end AngularAtlas.Text
