import AngularAtlas.Proofs.Checked.Slices
import AngularAtlas.Proofs.Results
import AngularAtlas.Proofs.Source.Nesting
import AngularAtlas.Proofs.Source.Pieces
import AngularAtlas.Proofs.Text.ByteOrder
import AngularAtlas.Source.DecoratedClass
import Mathlib.Data.List.TakeWhile

namespace AngularAtlas.Checked

open Text Source

/-- The bytes of a text in UTF-8. -/
def encode (s : List Char) : List UInt8 := s.flatMap String.utf8EncodeChar

def closerByte? (b : UInt8) : Option UInt8 :=
  if b = '['.toUInt8 then some ']'.toUInt8
  else if b = '\x7b'.toUInt8 then some '\x7d'.toUInt8
  else if b = '('.toUInt8 then some ')'.toUInt8
  else if b = '<'.toUInt8 then some '>'.toUInt8
  else none

/-- The offset at which the brackets opened so far are closed. The counter of open brackets is
unsigned. -/
def closingFrom (opener closer : UInt8) (depth offset : Nat) : List UInt8 → Checked (Option Nat)
  | [] => .ok none
  | b :: r =>
    if b = opener then closingFrom opener closer (depth + 1) (offset + 1) r
    else if b = closer then do
      let depth ← subtract depth 1
      if depth = 0 then .ok (some offset) else closingFrom opener closer depth (offset + 1) r
    else closingFrom opener closer depth (offset + 1) r

def bytesFrom (bytes : List UInt8) (start : Nat) : Checked (List UInt8) :=
  if start ≤ bytes.length then .ok (bytes.drop start) else .error (.outside start)

/-- The offset of the bracket that closes the one at a given offset. -/
def balancedEnd (s : List Char) (offset : Nat) : Checked (Option Nat) := do
  match (encode s)[offset]? with
  | none => return none
  | some opener =>
    match closerByte? opener with
    | none => return none
    | some closer => closingFrom opener closer 0 offset (← bytesFrom (encode s) offset)

/-- The text between the bracket at an offset and the one that closes it. -/
def insideBracket (s : List Char) (offset : Nat) : Checked (Option (List Char)) := do
  match ← balancedEnd s offset with
  | none => return none
  | some stop => return some (← slice s (offset + 1) stop)

/-- The text inside the bracket that a match ends with; `rest` is the text from the bracket on. -/
def insideMatch (s rest : List Char) : Checked (Option (List Char)) := do
  insideBracket s (← subtract (matchEnd s rest) 1)

/-- The offset of the first place where a character stands. -/
def offsetOfChar? (c : Char) (s : List Char) : Option Nat :=
  if c ∈ s then some (utf8Length (s.takeWhile (· != c))) else none

/-- The body of a class whose head ends at an offset. -/
def classBody (s : List Char) (after : Nat) : Checked (Option (List Char)) :=
  match from? s after with
  | none => .ok none
  | some rest =>
    match offsetOfChar? '\x7b' rest with
    | none => .ok none
    | some found => insideBracket s (after + found)

variable {c : Char} {s t : List Char} {k code : Nat} {b : UInt8} {bytes : List UInt8}

theorem utf8Size_of_lt (h : c.toNat < 128) : c.utf8Size = 1 := by
  rw [Char.utf8Size_eq_one_iff, UInt32.le_iff_toNat_le]
  exact Nat.le_of_lt_succ h

theorem utf8EncodeChar_of_lt (h : c.toNat < 128) : String.utf8EncodeChar c = [c.toUInt8] :=
  String.utf8EncodeChar_eq_singleton (utf8Size_of_lt h)

theorem le_of_mem_trail (h : b ∈ trail k code) : 128 ≤ b.toNat := by
  induction k generalizing code with
  | zero => cases h
  | succ k ih =>
    rcases List.mem_append.1 h with h | h
    · exact ih h
    · rw [List.mem_singleton.1 h, UInt8.toNat_ofNat']
      omega

/-- All bytes of a character that is not ASCII are larger than those that are. -/
theorem le_of_mem_utf8EncodeChar (h : 128 ≤ c.toNat) (mem : b ∈ String.utf8EncodeChar c) :
    128 ≤ b.toNat := by
  obtain ⟨k, hk, low, high, encoded⟩ := exists_utf8EncodeChar_eq c
  rw [encoded] at mem
  rcases List.mem_cons.1 mem with rfl | mem
  · have lead := Nat.lt_of_lt_of_le (lead_lt hk high) (leastLead_le k hk)
    rw [UInt8.toNat_ofNat', Nat.mod_eq_of_lt lead]
    match k with
    | 0 => exact absurd high (Nat.not_lt.2 h)
    | 1 | 2 | 3 =>
      simp only [leastLead]
      omega
  · exact le_of_mem_trail mem

theorem toUInt8_eq_iff {d : Char} (hc : c.toNat < 128) (hd : d.toNat < 128) :
    c.toUInt8 = d.toUInt8 ↔ c = d := by
  have toNat : ∀ e : Char, e.toNat < 128 → e.toUInt8.toNat = e.toNat := fun e he =>
    Nat.mod_eq_of_lt (Nat.lt_trans he (by decide))
  rw [← UInt8.toNat_inj, toNat c hc, toNat d hd, Char.toNat_inj]

theorem toUInt8_lt (h : c.toNat < 128) : c.toUInt8.toNat < 128 :=
  Nat.lt_of_le_of_lt (Nat.mod_le _ _) h

theorem encode_cons (c : Char) (s : List Char) :
    encode (c :: s) = String.utf8EncodeChar c ++ encode s := rfl

theorem encode_cons_of_lt (h : c.toNat < 128) (s : List Char) :
    encode (c :: s) = c.toUInt8 :: encode s := by
  rw [encode_cons, utf8EncodeChar_of_lt h, List.singleton_append]

theorem encode_append (s t : List Char) : encode (s ++ t) = encode s ++ encode t :=
  List.flatMap_append

theorem length_encode (s : List Char) : (encode s).length = utf8Length s := by
  induction s with
  | nil => rfl
  | cons c s ih => rw [encode_cons, List.length_append, String.length_utf8EncodeChar, ih]; rfl

/-- A byte where no character starts is none of ASCII. -/
theorem le_of_from?_eq_none {offset : Nat} (h : from? s offset = none)
    (found : (encode s)[offset]? = some b) : 128 ≤ b.toNat := by
  induction s generalizing offset with
  | nil => cases found
  | cons c s ih =>
    cases offset with
    | zero => simp [from?, cutAt?] at h
    | succ n =>
      rw [encode_cons] at found
      by_cases inside : n + 1 < c.utf8Size
      · have wide : 128 ≤ c.toNat := by
          by_contra ascii
          have := utf8Size_of_lt (Nat.not_le.1 ascii)
          omega
        rw [List.getElem?_append_left (by rwa [String.length_utf8EncodeChar])] at found
        exact le_of_mem_utf8EncodeChar wide (List.mem_of_getElem? found)
      · rw [List.getElem?_append_right (by rw [String.length_utf8EncodeChar]; omega),
          String.length_utf8EncodeChar] at found
        refine ih ?_ found
        simpa [from?, cutAt?, Nat.not_lt.1 inside, Function.comp_def] using h

theorem closerByte?_toUInt8 (h : c.toNat < 128) :
    closerByte? c.toUInt8 = (closer? c).map Char.toUInt8 := by
  have all : ∀ n < 128, closerByte? (Char.ofNat n).toUInt8 =
      (closer? (Char.ofNat n)).map Char.toUInt8 := by decide
  simpa using all c.toNat h

theorem closerByte?_of_le (h : 128 ≤ b.toNat) : closerByte? b = none := by
  have other : ∀ d : Char, d.toNat < 128 → b ≠ d.toUInt8 := by
    rintro d small rfl
    exact absurd h (Nat.not_le.2 (toUInt8_lt small))
  rw [closerByte?, if_neg (other _ (by decide)), if_neg (other _ (by decide)),
    if_neg (other _ (by decide)), if_neg (other _ (by decide))]

theorem lt_of_closer? {closer : Char} (h : closer? c = some closer) :
    c.toNat < 128 ∧ closer.toNat < 128 := by
  unfold closer? at h
  split at h
  all_goals cases h
  all_goals decide

theorem closingFrom_append {opener closer : UInt8}
    (other : ∀ b ∈ bytes, b ≠ opener ∧ b ≠ closer) (depth offset : Nat) (rest : List UInt8) :
    closingFrom opener closer depth offset (bytes ++ rest) =
      closingFrom opener closer depth (offset + bytes.length) rest := by
  induction bytes generalizing offset with
  | nil => rfl
  | cons b bytes ih =>
    obtain ⟨here, later⟩ := List.forall_mem_cons.1 other
    rw [List.cons_append, closingFrom, if_neg here.1, if_neg here.2, ih later, List.length_cons,
      Nat.add_right_comm, Nat.add_assoc]

theorem ne_of_mem_utf8EncodeChar {d : Char} (small : d.toNat < 128) (differ : c ≠ d)
    (mem : b ∈ String.utf8EncodeChar c) : b ≠ d.toUInt8 := by
  rintro rfl
  by_cases ascii : c.toNat < 128
  · rw [utf8EncodeChar_of_lt ascii, List.mem_singleton, toUInt8_eq_iff small ascii] at mem
    exact differ mem.symm
  · have large := le_of_mem_utf8EncodeChar (Nat.not_lt.1 ascii) mem
    exact absurd (toUInt8_lt small) (Nat.not_lt.2 large)

/-- With one bracket open the depth stays above zero until that bracket is closed. -/
theorem closingFrom_encode {opener closer : Char} (small : opener.toNat < 128)
    (small' : closer.toNat < 128) (depth offset : Nat) (s : List Char) :
    closingFrom opener.toUInt8 closer.toUInt8 (depth + 1) offset (encode s) =
      .ok ((splitAtClose opener closer depth s).map fun p => offset + utf8Length p.1) := by
  induction s generalizing depth offset with
  | nil => rfl
  | cons c s ih =>
    have next : ∀ depth, closingFrom opener.toUInt8 closer.toUInt8 (depth + 1)
        (offset + c.utf8Size) (encode s) =
          .ok (((splitAtClose opener closer depth s).map fun p => (c :: p.1, p.2)).map
            fun p => offset + utf8Length p.1) := by
      intro depth
      rw [ih, Option.map_map]
      simp [Function.comp_def, Nat.add_assoc]
    by_cases isOpener : c = opener
    · subst isOpener
      rw [encode_cons_of_lt small, closingFrom, if_pos rfl, splitAtClose_cons_opener]
      rw [utf8Size_of_lt small] at next
      exact next (depth + 1)
    by_cases isCloser : c = closer
    · subst isCloser
      have differ : c.toUInt8 ≠ opener.toUInt8 := mt (toUInt8_eq_iff small' small).1 isOpener
      rw [encode_cons_of_lt small', closingFrom, if_neg differ, if_pos rfl]
      rw [utf8Size_of_lt small'] at next
      cases depth with
      | zero =>
        rw [splitAtClose, if_neg isOpener, if_pos rfl]
        rfl
      | succ depth =>
        rw [splitAtClose_cons_closer isOpener]
        exact next depth
    · have other : ∀ b ∈ String.utf8EncodeChar c, b ≠ opener.toUInt8 ∧ b ≠ closer.toUInt8 :=
        fun b mem => ⟨ne_of_mem_utf8EncodeChar small isOpener mem,
          ne_of_mem_utf8EncodeChar small' isCloser mem⟩
      rw [encode_cons, closingFrom_append other, String.length_utf8EncodeChar,
        splitAtClose_cons_of_ne isOpener isCloser]
      exact next depth

theorem balancedEnd_of_none (h : from? s offset = none) : balancedEnd s offset = .ok none := by
  rw [balancedEnd]
  cases found : (encode s)[offset]? with
  | none => rfl
  | some b => simp only [closerByte?_of_le (le_of_from?_eq_none h found)]; rfl

theorem balancedEnd_append (a t : List Char) : balancedEnd (a ++ t) (utf8Length a) =
    .ok ((balanced? t).map fun p => utf8Length a + 1 + utf8Length p.1) := by
  have start : (encode (a ++ t)).drop (utf8Length a) = encode t := by
    rw [encode_append, ← length_encode a, List.drop_left]
  have first : (encode (a ++ t))[utf8Length a]? = (encode t).head? := by
    rw [← List.head?_drop, start]
  rw [balancedEnd, first]
  cases t with
  | nil => rfl
  | cons c r =>
    rw [balanced?]
    by_cases ascii : c.toNat < 128
    · have within : utf8Length a ≤ (encode (a ++ c :: r)).length := by
        rw [length_encode, utf8Length_append]
        exact Nat.le_add_right _ _
      rw [bytesFrom, if_pos within, start, encode_cons_of_lt ascii, List.head?_cons]
      simp only [closerByte?_toUInt8 ascii]
      cases pair : closer? c with
      | none => rfl
      | some closer =>
        have scan := closingFrom_encode ascii (lt_of_closer? pair).2 0 (utf8Length a + 1) r
        simp only [Option.map_some, ok_bind, closingFrom, if_pos]
        exact scan
    · obtain ⟨b, bytes, he⟩ := List.exists_cons_of_ne_nil (String.utf8EncodeChar_ne_nil (c := c))
      have large : 128 ≤ b.toNat :=
        le_of_mem_utf8EncodeChar (Nat.not_lt.1 ascii) (by rw [he]; exact List.mem_cons_self)
      have none : closer? c = none :=
        Option.eq_none_iff_forall_ne_some.2 fun closer pair => ascii (lt_of_closer? pair).1
      rw [encode_cons, he, List.cons_append, List.head?_cons, none]
      simp only [closerByte?_of_le large]
      rfl

theorem balancedEnd_eq (s : List Char) (offset : Nat) :
    balancedEnd s offset = .ok (closingOffset? s offset) := by
  rw [closingOffset?]
  cases found : from? s offset with
  | none => exact balancedEnd_of_none found
  | some t =>
    obtain ⟨a, rfl, rfl⟩ := from?_eq_some_iff.1 found
    rw [balancedEnd_append, Option.bind_eq_bind, Option.bind_some]
    cases balanced? t <;> rfl

theorem sliceFrom_behind {p : List Char × List Char} (pair : balanced? t = some p)
    (a : List Char) :
    sliceFrom (a ++ t) (utf8Length a + 1 + utf8Length p.1 + 1) = .ok p.2 := by
  obtain ⟨opener, closer, kind, rfl⟩ := exists_of_balanced? pair
  obtain ⟨small, small'⟩ := lt_of_closer? kind
  have parts : a ++ opener :: (p.1 ++ closer :: p.2) =
      (a ++ (opener :: p.1 ++ [closer])) ++ p.2 := by
    simp
  have front : utf8Length a + 1 + utf8Length p.1 + 1 =
      utf8Length (a ++ (opener :: p.1 ++ [closer])) := by
    simp only [utf8Length_append, utf8Length_cons, utf8Length_nil, List.cons_append,
      utf8Size_of_lt small, utf8Size_of_lt small']
    omega
  rw [parts, front, sliceFrom_append]

theorem insideBracket_append (a t : List Char) :
    insideBracket (a ++ t) (utf8Length a) = .ok ((balanced? t).map (·.1)) := by
  rw [insideBracket, balancedEnd_append, ok_bind]
  cases pair : balanced? t with
  | none => rfl
  | some p =>
    obtain ⟨opener, closer, kind, rfl⟩ := exists_of_balanced? pair
    have length : utf8Length a + 1 = utf8Length (a ++ [opener]) := by
      rw [utf8Length_append, utf8Length_cons, utf8Size_of_lt (lt_of_closer? kind).1]
      rfl
    have parts : a ++ opener :: (p.1 ++ closer :: p.2) =
        (a ++ [opener]) ++ (p.1 ++ closer :: p.2) := by simp
    simp only [Option.map_some, length, parts, slice_append]
    rfl

theorem insideBracket_eq (s : List Char) (offset : Nat) :
    insideBracket s offset = .ok (insideBracket? s offset) := by
  rw [insideBracket?]
  cases found : from? s offset with
  | none => rw [insideBracket, balancedEnd_of_none found]; rfl
  | some t =>
    obtain ⟨a, rfl, rfl⟩ := from?_eq_some_iff.1 found
    rw [insideBracket_append, Option.bind_eq_bind, Option.bind_some]
    cases balanced? t <;> rfl

theorem insideBracket_zero (s : List Char) :
    insideBracket s 0 = .ok ((balanced? s).map (·.1)) :=
  insideBracket_append [] s

theorem insideMatch_eq (head : t.head? = some c) (suffix : t <:+ s) (single : c.utf8Size = 1) :
    insideMatch s t = .ok ((balanced? t).map (·.1)) := by
  rw [insideMatch, subtract_matchEnd head suffix single, ok_bind]
  obtain ⟨a, rfl⟩ := suffix
  rw [offsetOf_append, insideBracket_append]

theorem offsetOfChar?_of_mem (h : c ∈ s) : ∃ r, s.dropWhile (· != c) = c :: r ∧
    s = s.takeWhile (· != c) ++ c :: r ∧
    offsetOfChar? c s = some (utf8Length (s.takeWhile (· != c))) := by
  have ne : s.dropWhile (· != c) ≠ [] := fun empty => by
    simpa using List.dropWhile_eq_nil_iff.1 empty c h
  obtain ⟨d, r, he⟩ := List.exists_cons_of_ne_nil ne
  have first := List.head_dropWhile_not (· != c) ne
  obtain rfl : d = c := by simpa [he] using first
  refine ⟨r, he, ?_, if_pos h⟩
  rw [← he, List.takeWhile_append_dropWhile]

theorem classBody_eq (s : List Char) (after : Nat) :
    classBody s after = .ok ((from? s after).bind classBody?) := by
  rw [classBody]
  cases found : from? s after with
  | none => rfl
  | some t =>
    obtain ⟨a, rfl, rfl⟩ := from?_eq_some_iff.1 found
    rw [Option.bind_some, classBody?]
    by_cases mem : '\x7b' ∈ t
    · obtain ⟨r, dropped, parts, place⟩ := offsetOfChar?_of_mem mem
      have front : a ++ t = (a ++ t.takeWhile (· != '\x7b')) ++ '\x7b' :: r := by
        rw [List.append_assoc, ← parts]
      simp only [place]
      rw [dropped, ← utf8Length_append, front, insideBracket_append]
    · have nothing : t.dropWhile (· != '\x7b') = [] := by
        rw [List.dropWhile_eq_nil_iff]
        intro c hc
        have differ : c ≠ '\x7b' := by
          rintro rfl
          exact mem hc
        simpa using differ
      simp only [offsetOfChar?, if_neg mem, nothing]
      rfl

end AngularAtlas.Checked
