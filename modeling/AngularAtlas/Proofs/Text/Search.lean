import AngularAtlas.Text.Search

namespace AngularAtlas.Text

variable {α : Type} {read : Reader α}

theorem isPrefixOf?_append_self (w r : List Char) : w.isPrefixOf? (w ++ r) = some r := by
  induction w with
  | nil => rfl
  | cons c w ih => exact (if_pos (beq_self_eq_true c)).trans ih

theorem suffix_of_isPrefixOf? {w s r : List Char} (h : w.isPrefixOf? s = some r) : r <:+ s :=
  ⟨w, isPrefixOf?_append h⟩

theorem eq_cons_of_afterChar? {c : Char} {s r : List Char} (h : afterChar? c s = some r) :
    s = c :: r := by
  cases s with
  | nil => cases h
  | cons d s =>
    rw [afterChar?] at h
    split at h
    case isTrue hd => rw [hd, Option.some.inj h]
    case isFalse => cases h

theorem findFirstFrom?_of_eq_some {s : List Char} {before : Option Char} {found : α × List Char}
    (ne : s ≠ []) (h : read before s = some found) :
    findFirstFrom? read before s = some found := by
  cases s with
  | nil => exact absurd rfl ne
  | cons c s => rw [findFirstFrom?, h]

/-- The reader does not succeed where the text goes on with one of some characters. -/
def FailsAt (read : Reader α) (s : List Char) : Prop :=
  ∀ c ∈ s, ∀ before r, read before (c :: r) = none

theorem forall_read_cons_iff {c : Char} {front s : List Char} {before : Option Char} :
    (∀ a b, c :: front = a ++ b → b ≠ [] → read (a.getLast?.or before) (b ++ s) = none) ↔
      read before (c :: (front ++ s)) = none ∧
        ∀ a b, front = a ++ b → b ≠ [] → read (a.getLast?.or (some c)) (b ++ s) = none := by
  constructor
  · intro h
    refine ⟨h [] _ rfl (List.cons_ne_nil _ _), fun a b he ne => ?_⟩
    simpa [List.getLast?_cons] using h (c :: a) b (by rw [he]; rfl) ne
  · rintro ⟨here, later⟩ a b he ne
    cases a with
    | nil =>
      obtain rfl : c :: front = b := he
      exact here
    | cons d a =>
      obtain ⟨rfl, rfl⟩ := List.cons.inj he
      simpa [List.getLast?_cons] using later a b rfl ne

/-- The search goes on behind a stretch of text when the reader succeeds at no place of it. -/
theorem findFirstFrom?_of_forall {front s : List Char} {before : Option Char}
    (hf : ∀ a b, front = a ++ b → b ≠ [] → read (a.getLast?.or before) (b ++ s) = none) :
    findFirstFrom? read before (front ++ s) =
      findFirstFrom? read (front.getLast?.or before) s := by
  induction front generalizing before with
  | nil => rfl
  | cons c front ih =>
    obtain ⟨here, later⟩ := forall_read_cons_iff.1 hf
    rw [List.cons_append, findFirstFrom?, here]
    simpa [List.getLast?_cons] using ih later

/-- A search fails when the reader succeeds at no place, up to the end. -/
theorem findFirstFrom?_eq_none_iff {s : List Char} {before : Option Char} :
    findFirstFrom? read before s = none ↔
      ∀ a b, s = a ++ b → b ≠ [] → read (a.getLast?.or before) b = none := by
  constructor
  · intro h a b he ne
    subst he
    induction a generalizing before with
    | nil =>
      obtain ⟨c, b, rfl⟩ := List.exists_cons_of_ne_nil ne
      rw [List.nil_append, findFirstFrom?] at h
      split at h
      case h_1 => cases h
      case h_2 here => exact here
    | cons c a ih =>
      rw [List.cons_append, findFirstFrom?] at h
      split at h
      case h_1 => cases h
      case h_2 => simpa [List.getLast?_cons] using ih h
  · intro h
    have passed : findFirstFrom? read before (s ++ []) = none :=
      findFirstFrom?_of_forall fun a b he ne => by simpa using h a b he ne
    rwa [List.append_nil] at passed

/-- A search stops at the first place where the reader succeeds. -/
theorem findFirstFrom?_eq_some_iff {s : List Char} {found : α × List Char}
    {before : Option Char} :
    findFirstFrom? read before s = some found ↔
      ∃ front back, s = front ++ back ∧ back ≠ [] ∧
        read (front.getLast?.or before) back = some found ∧
          ∀ a b, front = a ++ b → b ≠ [] → read (a.getLast?.or before) (b ++ back) = none := by
  constructor
  · intro h
    induction s generalizing before with
    | nil => cases h
    | cons c s ih =>
      rw [findFirstFrom?] at h
      split at h
      case h_1 first here =>
        obtain rfl := Option.some.inj h
        refine ⟨[], c :: s, rfl, List.cons_ne_nil _ _, here, fun a b he ne => ?_⟩
        exact absurd (List.append_eq_nil_iff.1 he.symm).2 ne
      case h_2 here =>
        obtain ⟨front, back, rfl, ne, stands, before'⟩ := ih h
        refine ⟨c :: front, back, rfl, ne, ?_, forall_read_cons_iff.2 ⟨here, before'⟩⟩
        simpa [List.getLast?_cons] using stands
  · rintro ⟨front, back, rfl, ne, stands, first⟩
    rw [findFirstFrom?_of_forall first]
    exact findFirstFrom?_of_eq_some ne stands

theorem findFirst?_eq_none_iff {s : List Char} :
    findFirst? read s = none ↔ ∀ a b, s = a ++ b → b ≠ [] → read a.getLast? b = none := by
  simp only [findFirst?, findFirstFrom?_eq_none_iff, Option.or_none]

/-- What is found first stands furthest left. -/
theorem findFirst?_eq_some_iff {s : List Char} {found : α × List Char} :
    findFirst? read s = some found ↔
      ∃ front back, s = front ++ back ∧ back ≠ [] ∧ read front.getLast? back = some found ∧
        ∀ a b other, s = a ++ b → b ≠ [] → read a.getLast? b = some other →
          front.length ≤ a.length := by
  simp only [findFirst?, findFirstFrom?_eq_some_iff, Option.or_none]
  refine exists_congr fun front => exists_congr fun back => ?_
  constructor
  · rintro ⟨rfl, ne, here, first⟩
    refine ⟨rfl, ne, here, fun a b other he _ there => Nat.le_of_not_lt fun shorter => ?_⟩
    rcases List.append_eq_append_iff.1 he with ⟨more, rfl, -⟩ | ⟨more, rfl, rfl⟩
    · rw [List.length_append] at shorter
      omega
    · have between : more ≠ [] := by
        rintro rfl
        simp at shorter
      rw [first a more rfl between] at there
      cases there
  · rintro ⟨rfl, ne, here, leftmost⟩
    refine ⟨rfl, ne, here, fun a b he nb => ?_⟩
    refine Option.eq_none_iff_forall_ne_some.2 fun other there => ?_
    have := leftmost a (b ++ back) other (by rw [he, List.append_assoc])
      (List.append_ne_nil_of_left_ne_nil nb back) there
    rw [he, List.length_append] at this
    have := List.length_pos_iff.2 nb
    omega

theorem FailsAt.eq_none {front : List Char} (hf : FailsAt read front) (before : Option Char)
    (s : List Char) :
    ∀ a b, front = a ++ b → b ≠ [] → read (a.getLast?.or before) (b ++ s) = none := by
  intro a b he hb
  obtain ⟨c, rest, rfl⟩ := List.exists_cons_of_ne_nil hb
  exact hf c (by simp [he]) _ _

theorem FailsAt.findFirstFrom?_append {front : List Char} (hf : FailsAt read front)
    (before : Option Char) (s : List Char) :
    findFirstFrom? read before (front ++ s) =
      findFirstFrom? read (front.getLast?.or before) s :=
  findFirstFrom?_of_forall (hf.eq_none before s)

theorem findAllFrom_append {front : List Char} (hf : FailsAt read front) {last : Char}
    (hl : ∀ before r, read before (last :: r) = none) (before : Option Char) (s : List Char) :
    findAllFrom read 0 before (front ++ last :: s) = findAllFrom read 0 (some last) s := by
  induction front generalizing before with
  | nil => rw [List.nil_append, findAllFrom, hl]
  | cons c front ih =>
    obtain ⟨hc, hf⟩ := List.forall_mem_cons.1 hf
    rw [List.cons_append, findAllFrom, hc]
    exact ih hf (some c)

theorem findAllFrom_eq_nil {s : List Char} (hs : ∀ before t, t <:+ s → read before t = none)
    (skip : Nat) (before : Option Char) : findAllFrom read skip before s = [] := by
  induction s generalizing skip before with
  | nil => rw [findAllFrom]
  | cons c s ih =>
    have later : ∀ before t, t <:+ s → read before t = none :=
      fun before t ht => hs before t (ht.trans (List.suffix_cons c s))
    cases skip with
    | zero =>
      rw [findAllFrom, hs before (c :: s) List.suffix_rfl]
      exact ih later 0 (some c)
    | succ skip => exact ih later skip (some c)

/-- A search passes over a stretch of text in which the reader succeeds nowhere. -/
theorem findAllFrom_of_forall {front s : List Char} {before : Option Char}
    (hf : ∀ a b, front = a ++ b → b ≠ [] → read (a.getLast?.or before) (b ++ s) = none) :
    findAllFrom read 0 before (front ++ s) =
      findAllFrom read 0 (front.getLast?.or before) s := by
  induction front generalizing before with
  | nil => rfl
  | cons c front ih =>
    obtain ⟨here, later⟩ := forall_read_cons_iff.1 hf
    rw [List.cons_append, findAllFrom, here]
    simpa [List.getLast?_cons] using ih later

theorem FailsAt.findAllFrom_append {front : List Char} (hf : FailsAt read front)
    (before : Option Char) (s : List Char) :
    findAllFrom read 0 before (front ++ s) = findAllFrom read 0 (front.getLast?.or before) s :=
  findAllFrom_of_forall (hf.eq_none before s)

/-- A search for all finds has none where a search for the first one has none. -/
theorem findAll_eq_nil_of_findFirst? {s : List Char} (h : findFirst? read s = none) :
    findAll read s = [] := by
  have passed : findAllFrom read 0 none (s ++ []) = [] :=
    findAllFrom_of_forall fun a b he ne => by
      rw [List.append_nil, Option.or_none]
      exact findFirst?_eq_none_iff.1 h a b he ne
  rwa [List.append_nil] at passed

theorem findAllFrom_skip (read : Reader α) (front s : List Char) (before : Option Char) :
    findAllFrom read front.length before (front ++ s) =
      findAllFrom read 0 (front.getLast?.or before) s := by
  induction front generalizing before with
  | nil => rfl
  | cons c front ih => simpa [List.getLast?_cons, findAllFrom] using ih (some c)

theorem findAllFrom_eq_cons {c : Char} {used rest : List Char} {a : α} {before : Option Char}
    (h : read before (c :: (used ++ rest)) = some (a, rest)) :
    findAllFrom read 0 before (c :: (used ++ rest)) =
      a :: findAllFrom read 0 (used.getLast?.or (some c)) rest := by
  rw [findAllFrom, h]
  simp only [List.length_append, Nat.add_sub_cancel, findAllFrom_skip]

theorem exists_findAllFrom_eq_cons {c : Char} {r rest : List Char} {a : α} {before : Option Char}
    (h : read before (c :: r) = some (a, rest)) (hr : rest <:+ r) :
    ∃ last, findAllFrom read 0 before (c :: r) = a :: findAllFrom read 0 last rest := by
  obtain ⟨used, rfl⟩ := hr
  exact ⟨_, findAllFrom_eq_cons h⟩

theorem contains_iff {word s : List Char} : contains word s = true ↔ word <:+: s := by
  induction s with
  | nil => rw [contains, List.isEmpty_iff, List.infix_nil]
  | cons c s ih =>
    rw [contains, Bool.or_eq_true, List.isPrefixOf_iff_prefix, ih, List.infix_cons_iff]

theorem exists_of_findFirstFrom? {s rest : List Char} {a : α} {before : Option Char}
    (h : findFirstFrom? read before s = some (a, rest)) :
    ∃ before t, t <:+ s ∧ read before t = some (a, rest) := by
  obtain ⟨front, back, rfl, -, here, -⟩ := findFirstFrom?_eq_some_iff.1 h
  exact ⟨_, back, List.suffix_append front back, here⟩

theorem exists_of_findFirst? {s rest : List Char} {a : α}
    (h : findFirst? read s = some (a, rest)) :
    ∃ before t, t <:+ s ∧ read before t = some (a, rest) :=
  exists_of_findFirstFrom? h

theorem exists_of_mem_findAllFrom {s : List Char} {a : α} {skip : Nat} {before : Option Char}
    (h : a ∈ findAllFrom read skip before s) :
    ∃ before t rest, t <:+ s ∧ read before t = some (a, rest) := by
  induction s generalizing skip before with
  | nil =>
    rw [findAllFrom] at h
    cases h
  | cons c s ih =>
    have later : ∀ {skip before}, a ∈ findAllFrom read skip before s →
        ∃ before t rest, t <:+ c :: s ∧ read before t = some (a, rest) := by
      intro skip before mem
      obtain ⟨before, t, rest, suffix, here⟩ := ih mem
      exact ⟨before, t, rest, suffix.trans (List.suffix_cons c s), here⟩
    cases skip with
    | succ skip => exact later h
    | zero =>
      rw [findAllFrom] at h
      split at h
      case h_1 found rest here =>
        rcases List.mem_cons.1 h with rfl | mem
        · exact ⟨before, c :: s, rest, List.suffix_rfl, here⟩
        · exact later mem
      case h_2 => exact later h

theorem exists_of_mem_findAll {s : List Char} {a : α} (h : a ∈ findAll read s) :
    ∃ before t rest, t <:+ s ∧ read before t = some (a, rest) :=
  exists_of_mem_findAllFrom h

end AngularAtlas.Text
