import AngularAtlas.Proofs.Source.ClosingBracket
import AngularAtlas.Proofs.Source.SectionSearch

namespace AngularAtlas.Source

open Text

/-- Behind `front`, where no word goes on, a text has a key written as `word`, and then a colon and
an opening bracket with `rest` behind it. -/
structure StartsAt (s key front word rest : List Char) : Prop where
  boundary : ∀ c ∈ front.getLast?, isNameChar c = false
  fold : word.map foldChar = key.map foldChar
  text : ∃ gap gap', Text.IsBlank gap ∧ Text.IsBlank gap' ∧
    s = front ++ (word ++ (gap ++ ':' :: (gap' ++ '[' :: rest)))

/-- The first place like this is behind `front`. -/
structure StartsFirst (s key front word rest : List Char) : Prop where
  starts : StartsAt s key front word rest
  first : ∀ {other word' later}, StartsAt s key other word' later → front.length ≤ other.length

/-- The section of a key is an array that closes behind `inside`. -/
def HasSection (s key inside : List Char) : Prop :=
  ∃ front word back, StartsFirst s key front word (inside ++ ']' :: back) ∧
    IsBalanced '[' ']' inside

variable {s key front word rest inside name : List Char}

theorem StartsAt.reads (h : StartsAt s key front word rest) :
    ∃ back, s = front ++ back ∧ back ≠ [] ∧
      sectionStart? key front.getLast? back = some ((), '[' :: rest) := by
  obtain ⟨gap, gap', hg, hg', rfl⟩ := h.text
  refine ⟨_, rfl, by simp, sectionStart?_eq_some_iff.2 ⟨h.boundary, word, gap, gap', rest, h.fold,
    hg, hg', rfl, rfl⟩⟩

theorem exists_startsAt {back t : List Char}
    (h : sectionStart? key front.getLast? back = some ((), t)) :
    ∃ word rest, t = '[' :: rest ∧ StartsAt (front ++ back) key front word rest := by
  obtain ⟨boundary, word, gap, gap', rest, fold, hg, hg', rfl, rfl⟩ :=
    sectionStart?_eq_some_iff.1 h
  exact ⟨word, rest, rfl, boundary, fold, gap, gap', hg, hg', rfl⟩

theorem StartsFirst.findFirst?_eq (h : StartsFirst s key front word rest) :
    findFirst? (sectionStart? key) s = some ((), '[' :: rest) := by
  obtain ⟨back, rfl, ne, here⟩ := h.starts.reads
  refine findFirst?_eq_some_iff.2 ⟨front, back, rfl, ne, here, fun a b other he _ found => ?_⟩
  obtain ⟨word', later, -, starts⟩ := exists_startsAt found
  rw [← he] at starts
  exact h.first starts

theorem exists_startsFirst {t : List Char} (h : findFirst? (sectionStart? key) s = some ((), t)) :
    ∃ front word rest, t = '[' :: rest ∧ StartsFirst s key front word rest := by
  obtain ⟨front, back, rfl, -, here, leftmost⟩ := findFirst?_eq_some_iff.1 h
  obtain ⟨word, rest, rfl, starts⟩ := exists_startsAt here
  refine ⟨front, word, rest, rfl, starts, fun {other word' later} found => ?_⟩
  obtain ⟨back', he, ne, there⟩ := found.reads
  exact leftmost other back' _ he ne there

theorem findFirst?_sectionStart?_eq_none_iff : findFirst? (sectionStart? key) s = none ↔
    ∀ front word rest, ¬StartsAt s key front word rest := by
  rw [findFirst?_eq_none_iff]
  constructor
  · intro h front word rest starts
    obtain ⟨back, he, ne, here⟩ := starts.reads
    rw [h front back he ne] at here
    cases here
  · intro h front back he _
    refine Option.eq_none_iff_forall_ne_some.2 fun ⟨(), t⟩ found => ?_
    obtain ⟨word, rest, -, starts⟩ := exists_startsAt found
    exact h front word rest (he ▸ starts)

theorem balanced?_square_eq_some_iff {back : List Char} :
    balanced? ('[' :: rest) = some (inside, back) ↔
      rest = inside ++ ']' :: back ∧ IsBalanced '[' ']' inside :=
  balanced?_cons_eq_some_iff (by decide)

theorem balanced?_square_eq_none_iff : balanced? ('[' :: rest) = none ↔
    ∀ inside back, rest = inside ++ ']' :: back → ¬IsBalanced '[' ']' inside :=
  balanced?_cons_eq_none_iff (by decide)

/-- The leftmost place decides, and there the array closes or not. -/
theorem findSection_cases (s key : List Char) :
    (findSection s key = .missing ∧ ∀ front word rest, ¬StartsAt s key front word rest) ∨
      (findSection s key = .unclosed ∧ ∃ front word rest, StartsFirst s key front word rest ∧
        ∀ inside back, rest = inside ++ ']' :: back → ¬IsBalanced '[' ']' inside) ∨
      ∃ inside, findSection s key = .found inside ∧ HasSection s key inside := by
  rw [findSection]
  cases found : findFirst? (sectionStart? key) s with
  | none => exact .inl ⟨rfl, findFirst?_sectionStart?_eq_none_iff.1 found⟩
  | some start =>
    obtain ⟨front, word, rest, he, first⟩ := exists_startsFirst found
    simp only [he]
    cases closed : balanced? ('[' :: rest) with
    | none =>
      exact .inr (.inl ⟨rfl, front, word, rest, first, balanced?_square_eq_none_iff.1 closed⟩)
    | some parts =>
      obtain ⟨rfl, balanced⟩ := balanced?_square_eq_some_iff.1 closed
      exact .inr (.inr ⟨parts.1, rfl, front, word, parts.2, first, balanced⟩)

theorem StartsFirst.findSection_eq (h : StartsFirst s key front word rest) :
    findSection s key =
      (balanced? ('[' :: rest)).elim .unclosed fun parts => .found parts.1 := by
  rw [findSection, h.findFirst?_eq]
  cases h : balanced? ('[' :: rest) <;> simp [h]

theorem findSection_eq_missing_iff : findSection s key = .missing ↔
    ∀ front word rest, ¬StartsAt s key front word rest := by
  constructor
  · intro h
    rcases findSection_cases s key with ⟨-, nowhere⟩ | ⟨unclosed, -⟩ | ⟨inside, found, -⟩
    · exact nowhere
    · exact nomatch h.symm.trans unclosed
    · exact nomatch h.symm.trans found
  · intro h
    rw [findSection, findFirst?_sectionStart?_eq_none_iff.2 h]

theorem findSection_eq_found_iff : findSection s key = .found inside ↔ HasSection s key inside := by
  constructor
  · intro h
    rcases findSection_cases s key with ⟨missing, -⟩ | ⟨unclosed, -⟩ | ⟨other, found, has⟩
    · exact nomatch h.symm.trans missing
    · exact nomatch h.symm.trans unclosed
    · exact ArraySection.found.inj (h.symm.trans found) ▸ has
  · rintro ⟨front, word, back, first, balanced⟩
    rw [first.findSection_eq, balanced?_square_eq_some_iff.2 ⟨rfl, balanced⟩]
    rfl

theorem findSection_eq_unclosed_iff : findSection s key = .unclosed ↔
    ∃ front word rest, StartsFirst s key front word rest ∧
      ∀ inside back, rest = inside ++ ']' :: back → ¬IsBalanced '[' ']' inside := by
  constructor
  · intro h
    rcases findSection_cases s key with ⟨missing, -⟩ | ⟨-, open'⟩ | ⟨inside, found, -⟩
    · exact nomatch h.symm.trans missing
    · exact open'
    · exact nomatch h.symm.trans found
  · rintro ⟨front, word, rest, first, open'⟩
    rw [first.findSection_eq, balanced?_square_eq_none_iff.2 open']
    rfl

theorem body_findSection_eq_iff : (findSection s key).body = inside ↔
    HasSection s key inside ∨ inside = [] ∧ ∀ other, ¬HasSection s key other := by
  simp only [← findSection_eq_found_iff]
  cases findSection s key with
  | found body => simp [ArraySection.body]
  | missing => simp [ArraySection.body, eq_comm]
  | unclosed => simp [ArraySection.body, eq_comm]

/-- A name that ends where the key ends is no longer than the key. -/
theorem StartsAt.length_le (h : StartsAt s key front word rest)
    (chars : ∀ c ∈ name, isNameChar c = true) (suffix : name <:+ front ++ word) :
    name.length ≤ word.length := by
  obtain ⟨start, he⟩ := suffix
  rcases List.append_eq_append_iff.1 he with ⟨more, rfl, rfl⟩ | ⟨more, rfl, rfl⟩
  · rcases List.eq_nil_or_concat more with rfl | ⟨more, c, rfl⟩
    · simp
    · have free : isNameChar c = false := h.boundary c (by simp [← List.append_assoc])
      have inside : isNameChar c = true := chars c (by simp)
      rw [free] at inside
      cases inside
  · simp

/-- The leftmost place with the key as a word of its own, a colon and a bracket is the section's: it
is missing without such a place, and else it is the array there, when that closes. -/
theorem findSection_leftmost (s key : List Char) :
    (findSection s key = .missing ↔ ∀ front word rest, ¬StartsAt s key front word rest) ∧
    (∀ inside, findSection s key = .found inside ↔ HasSection s key inside) ∧
    (findSection s key = .unclosed ↔ ∃ front word rest, StartsFirst s key front word rest ∧
      ∀ inside back, rest = inside ++ ']' :: back → ¬IsBalanced '[' ']' inside) ∧
    (∀ inside, (findSection s key).body = inside ↔
      HasSection s key inside ∨ inside = [] ∧ ∀ other, ¬HasSection s key other) ∧
    ∀ front word rest name, StartsAt s key front word rest →
      (∀ c ∈ name, isNameChar c = true) → name <:+ front ++ word → name.length ≤ word.length :=
  ⟨findSection_eq_missing_iff, fun _ => findSection_eq_found_iff, findSection_eq_unclosed_iff,
    fun _ => body_findSection_eq_iff, fun _ _ _ _ => StartsAt.length_le⟩

/-- A text in which a longer key ends like the key, and the key is written with a capital. -/
def viewText : List Char := "\x7b viewProviders: [A], Providers : [B, [C]] \x7d".toList

theorem findSection_leftmost_viewText :
    HasSection viewText "providers".toList "B, [C]".toList ∧
      StartsAt viewText "providers".toList "\x7b viewProviders: [A], ".toList "Providers".toList
        "B, [C]] \x7d".toList ∧
      (∀ c ∈ "Providers".toList, isNameChar c = true) ∧
      "Providers".toList.length ≤ "Providers".toList.length := by
  obtain ⟨-, -, -, body, longest⟩ := findSection_leftmost viewText "providers".toList
  have inside : (findSection viewText "providers".toList).body = "B, [C]".toList := by
    decide +kernel
  have last : "\x7b viewProviders: [A], ".toList.getLast? = some ' ' := by decide +kernel
  have starts : StartsAt viewText "providers".toList "\x7b viewProviders: [A], ".toList
      "Providers".toList "B, [C]] \x7d".toList :=
    ⟨fun c hc => Option.some.inj (last.symm.trans hc) ▸ rfl, by decide +kernel, [' '], [' '],
      isBlank_space, isBlank_space, rfl⟩
  have chars : ∀ c ∈ "Providers".toList, isNameChar c = true :=
    List.all_eq_true.1 (by decide +kernel)
  refine ⟨((body _).1 inside).resolve_right fun empty => absurd empty.1 (by decide), starts, chars,
    longest _ _ _ _ starts chars (List.suffix_append _ _)⟩

end AngularAtlas.Source
