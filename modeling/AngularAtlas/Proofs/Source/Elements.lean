import AngularAtlas.Proofs.Source.Literal
import AngularAtlas.Proofs.Source.Pieces

namespace AngularAtlas.Source

open Text

/-- How many more round, square and curly brackets are opened in a text than closed. -/
def surplus (s : List Char) : Int :=
  s.countP ['(', '[', '{'].contains - s.countP [')', ']', '}'].contains

/-- The rest of a text behind `before`, without the commas up to which no more brackets are opened
than closed. -/
def withoutOuterCommas (before : List Char) : List Char → List Char
  | [] => []
  | c :: r =>
    if c = ',' ∧ surplus before ≤ 0 then withoutOuterCommas (before ++ [c]) r
    else c :: withoutOuterCommas (before ++ [c]) r

/-- No comma cuts the text when it starts at a depth. -/
def Uncut (depth : Int) (s : List Char) : Prop :=
  ∀ front back, s = front ++ ',' :: back → 0 < depth + surplus front

/-- Pieces between which commas cut, and inside which none does, from a depth on. -/
inductive ArePieces : Int → List (List Char) → Prop
  | nil {depth : Int} : ArePieces depth []
  | cons {depth : Int} {piece : List Char} {later : List (List Char)} : Uncut depth piece →
      (later ≠ [] → depth + surplus piece ≤ 0) → ArePieces (depth + surplus piece) later →
      ArePieces depth (piece :: later)

variable {s t piece : List Char} {pieces : List (List Char)} {c : Char} {depth depth' : Int}

theorem surplus_nil : surplus [] = 0 := rfl

theorem surplus_append (s t : List Char) : surplus (s ++ t) = surplus s + surplus t := by
  simp only [surplus, List.countP_append]
  omega

theorem surplus_singleton (c : Char) : surplus [c] = bracketStep c := by
  by_cases marked : c ∈ marks
  · have all : marks.all (fun c => surplus [c] == bracketStep c) = true := by decide
    exact eq_of_beq (List.all_eq_true.1 all c marked)
  · rw [(bracketStep_of_not_mem_marks marked).1]
    simp only [marks, List.mem_cons, List.not_mem_nil, or_false, not_or] at marked
    simp [surplus, marked]

theorem surplus_cons (c : Char) (s : List Char) : surplus (c :: s) = bracketStep c + surplus s := by
  rw [← surplus_singleton, ← surplus_append, List.singleton_append]

theorem surplus_filter (s : List Char) : surplus (s.filter (!isBlank ·)) = surplus s := by
  induction s with
  | nil => rfl
  | cons c s ih =>
    cases hb : isBlank c with
    | true =>
      rw [List.filter_cons_of_neg (by simp [hb]), ih, surplus_cons, (bracketStep_of_isBlank hb).1,
        Int.zero_add]
    | false => rw [List.filter_cons_of_pos (by simp [hb]), surplus_cons, surplus_cons, ih]

theorem surplus_collapse (s : List Char) : surplus (collapse s) = surplus s := by
  rw [← surplus_filter, filter_collapse, surplus_filter]

theorem Nested.surplus_eq {commas : Bool} (hs : Nested commas s) : surplus s = 0 := by
  induction hs with
  | nil => rfl
  | char hc _ _ ih => rw [surplus_cons, hc, ih, Int.add_zero]
  | group hp _ _ ihInner ih =>
    obtain ⟨hopen, hclose⟩ := hp.bracketStep_eq
    rw [surplus_cons, surplus_append, surplus_cons, hopen, hclose, ihInner, ih]
    rfl

theorem uncut_nil : Uncut depth [] := fun _ _ he => by simp at he

theorem uncut_cons_iff : Uncut depth (c :: s) ↔
    (c = ',' → 0 < depth) ∧ Uncut (depth + bracketStep c) s := by
  constructor
  · refine fun h => ⟨fun hc => ?_, fun front back he => ?_⟩
    · simpa [surplus_nil] using h [] s (by rw [hc]; rfl)
    · have := h (c :: front) back (by rw [he]; rfl)
      rwa [surplus_cons, ← Int.add_assoc] at this
  · rintro ⟨first, later⟩ front back he
    cases front with
    | nil => simpa [surplus_nil] using first (List.cons.inj he).1
    | cons d front =>
      obtain ⟨rfl, rfl⟩ := List.cons.inj he
      rw [surplus_cons, ← Int.add_assoc]
      exact later front back rfl

theorem Uncut.mono (h : Uncut depth s) (le : depth ≤ depth') : Uncut depth' s :=
  fun front back he => Int.lt_of_lt_of_le (h front back he) (by omega)

/-- Blanks have no part in whether a comma cuts. -/
theorem Uncut.collapse (h : Uncut depth s) : Uncut depth (collapse s) := by
  intro front back he
  have same : s.filter (!isBlank ·) = (front.filter (!isBlank ·)) ++ ',' :: back.filter
      (!isBlank ·) := by
    rw [← filter_collapse, he, List.filter_append, List.filter_cons_of_pos (by decide)]
  obtain ⟨front', rest, rfl, hf, hr⟩ := List.filter_eq_append_iff.1 same
  obtain ⟨gap, back', rfl, hg, -, -⟩ := List.filter_eq_cons_iff.1 hr
  have open' := h (front' ++ gap) back' (by rw [List.append_assoc])
  rw [surplus_append, ← surplus_filter front', hf, surplus_filter, ← surplus_filter gap,
    List.filter_eq_nil_iff.2 hg, surplus_nil] at open'
  omega

theorem Uncut.splitAtCommas_append (h : Uncut depth s) (t : List Char) :
    splitAtCommas depth (s ++ t) =
      (splitAtCommas (depth + surplus s) t).modifyHead (s ++ ·) := by
  induction s generalizing depth with
  | nil =>
    rw [List.nil_append, surplus_nil, Int.add_zero]
    cases splitAtCommas depth t <;> rfl
  | cons c s ih =>
    obtain ⟨first, later⟩ := uncut_cons_iff.1 h
    rw [List.cons_append, splitAtCommas, if_neg, ih later, surplus_cons, Int.add_assoc]
    · simp [Function.comp_def]
    · rintro ⟨rfl, le⟩
      exact Int.not_lt.2 le (first rfl)

theorem Uncut.splitAtCommas_eq (h : Uncut depth s) : splitAtCommas depth s = [s] := by
  simpa [splitAtCommas] using h.splitAtCommas_append []

theorem arePieces_splitAtCommas (depth : Int) (s : List Char) :
    ArePieces depth (splitAtCommas depth s) := by
  induction s generalizing depth with
  | nil => exact .cons uncut_nil (absurd rfl) .nil
  | cons c s ih =>
    rw [splitAtCommas]
    split
    case isTrue cuts =>
      refine .cons uncut_nil (fun _ => ?_) ?_
      · simpa [surplus_nil] using cuts.2
      · simpa [surplus_nil] using ih depth
    case isFalse stays =>
      have pieces := ih (depth + bracketStep c)
      obtain ⟨piece, later, he⟩ := List.exists_cons_of_ne_nil
        (splitAtCommas_ne_nil (depth + bracketStep c) s)
      rw [he] at pieces ⊢
      cases pieces with
      | cons uncut cut rest =>
        rw [Int.add_assoc, ← surplus_cons] at cut rest
        refine .cons (uncut_cons_iff.2 ⟨fun hc => ?_, uncut⟩) cut rest
        exact Int.not_le.1 fun le => stays ⟨hc, le⟩

/-- Blank pieces open no bracket, so that they can be left out. -/
theorem ArePieces.collapse (h : ArePieces depth pieces) :
    ArePieces depth ((pieces.map Text.collapse).filter (· ≠ [])) := by
  induction h with
  | nil => exact .nil
  | @cons depth piece later uncut cut _ ih =>
    rw [← surplus_collapse] at cut ih
    by_cases empty : Text.collapse piece = []
    · rw [List.map_cons, List.filter_cons_of_neg (by simpa using empty)]
      simpa [empty, surplus_nil] using ih
    · rw [List.map_cons, List.filter_cons_of_pos (by simpa using empty)]
      refine .cons uncut.collapse (fun more => cut fun none => more ?_) ih
      rw [none]
      rfl

theorem ArePieces.uncut (h : ArePieces depth pieces) (le : depth ≤ 0) (mem : piece ∈ pieces) :
    Uncut 0 piece := by
  induction h with
  | nil => cases mem
  | cons uncut cut _ ih =>
    rcases List.mem_cons.1 mem with rfl | mem
    · exact uncut.mono le
    · exact ih (cut (List.ne_nil_of_mem mem)) mem

/-- With a comma and a space between them, the pieces are cut there and nowhere else. -/
theorem ArePieces.splitAtCommas_intercalate (h : ArePieces depth (piece :: pieces)) :
    splitAtCommas depth ([',', ' '].intercalate (piece :: pieces)) =
      piece :: pieces.map (' ' :: ·) := by
  induction pieces generalizing depth piece with
  | nil =>
    cases h with
    | cons uncut _ _ => rw [List.intercalate_singleton, uncut.splitAtCommas_eq, List.map_nil]
  | cons next pieces ih =>
    cases h with
    | cons uncut cut rest =>
      have space : splitAtCommas (depth + surplus piece)
          (' ' :: [',', ' '].intercalate (next :: pieces)) =
            (' ' :: next) :: pieces.map (' ' :: ·) := by
        rw [splitAtCommas, if_neg (by simp), show bracketStep ' ' = 0 from rfl, Int.add_zero,
          ih rest, List.modifyHead_cons]
      have closed := cut (List.cons_ne_nil _ _)
      rw [List.intercalate_cons_cons, List.append_assoc, uncut.splitAtCommas_append,
        List.cons_append, splitAtCommas, if_pos ⟨rfl, closed⟩, List.singleton_append, space,
        List.modifyHead_cons, List.append_nil, List.map_cons]

theorem arePieces_elements (s : List Char) : ArePieces 0 (elements s) :=
  (arePieces_splitAtCommas 0 s).collapse

theorem isPhrase_of_mem_elements (h : piece ∈ elements s) : IsPhrase piece := by
  obtain ⟨mem, ne⟩ := List.mem_filter.1 h
  obtain ⟨raw, -, rfl⟩ := List.mem_map.1 mem
  exact isPhrase_collapse (by simpa using ne)

theorem flatten_splitAtCommas (before s : List Char) :
    (splitAtCommas (surplus before) s).flatten = withoutOuterCommas before s := by
  induction s generalizing before with
  | nil => rfl
  | cons c s ih =>
    have later := ih (before ++ [c])
    rw [surplus_append, surplus_singleton] at later
    rw [splitAtCommas, withoutOuterCommas]
    split
    case isTrue cuts =>
      rw [← later, cuts.1, show bracketStep ',' = 0 from rfl, Int.add_zero]
      rfl
    case isFalse =>
      obtain ⟨piece, pieces, he⟩ := List.exists_cons_of_ne_nil
        (splitAtCommas_ne_nil (surplus before + bracketStep c) s)
      rw [← later, he]
      rfl

theorem filter_flatten_elements (s : List Char) :
    (elements s).flatten.filter (!isBlank ·) =
      (withoutOuterCommas [] s).filter (!isBlank ·) := by
  have pieces : ∀ pieces : List (List Char), (pieces.map collapse).flatten.filter (!isBlank ·) =
      pieces.flatten.filter (!isBlank ·) := by
    intro pieces
    rw [List.filter_flatten, List.filter_flatten, List.map_map]
    exact congrArg List.flatten (List.map_congr_left fun piece _ => filter_collapse piece)
  rw [elements, List.flatten_filter_ne_nil, pieces, ← flatten_splitAtCommas, surplus_nil]

theorem elements_of_uncut (h : Uncut 0 piece) (phrase : IsPhrase piece) :
    elements piece = [piece] := by
  have same : collapse piece = piece := by
    simpa using phrase.collapse_append_of_isBlank isBlank_nil
  rw [elements, h.splitAtCommas_eq, List.map_singleton, same,
    List.filter_cons_of_pos (by simpa using phrase.ne_nil), List.filter_nil]

theorem elements_intercalate (phrases : ∀ piece ∈ pieces, IsPhrase piece)
    (h : ArePieces 0 pieces) : elements ([',', ' '].intercalate pieces) = pieces := by
  have same : ∀ piece ∈ pieces, collapse piece = piece := fun piece mem => by
    simpa using (phrases piece mem).collapse_append_of_isBlank isBlank_nil
  cases pieces with
  | nil => rfl
  | cons piece pieces =>
    obtain ⟨first, later⟩ := List.forall_mem_cons.1 same
    have spaced : pieces.map (collapse ∘ (' ' :: ·)) = pieces := by
      refine (List.map_congr_left fun piece mem => ?_).trans (List.map_id pieces)
      rw [Function.comp_apply, collapse, words_cons_of_isBlank rfl]
      exact later piece mem
    rw [elements, h.splitAtCommas_intercalate, List.map_cons, List.map_map, first, spaced,
      List.filter_eq_self]
    exact fun piece mem => by simpa using (phrases piece mem).ne_nil

/-- The elements of any text have all of it but blanks and the commas that cut it; they are written
with single spaces, each is its own only element, and joined by commas they are the elements
again. -/
theorem elements_normal (s : List Char) :
    (elements s).flatten.filter (!isBlank ·) =
        (withoutOuterCommas [] s).filter (!isBlank ·) ∧
      (∀ element ∈ elements s, IsPhrase element) ∧
      (∀ element ∈ elements s, elements element = [element]) ∧
      elements ([',', ' '].intercalate (elements s)) = elements s := by
  have phrases : ∀ element ∈ elements s, IsPhrase element := fun _ => isPhrase_of_mem_elements
  refine ⟨filter_flatten_elements s, phrases, fun element mem => ?_, ?_⟩
  · exact elements_of_uncut ((arePieces_elements s).uncut (Int.le_refl 0) mem) (phrases element mem)
  · exact elements_intercalate phrases (arePieces_elements s)

/-- A text in which a closed bracket was not opened, so that the element behind it may open one. -/
def tornText : List Char := ") a\n b ,, ( [c , d] , e ,f".toList

theorem elements_normal_tornText :
    "( [c , d]".toList ∈ elements tornText ∧ IsPhrase "( [c , d]".toList ∧
      elements "( [c , d]".toList = ["( [c , d]".toList] ∧
      elements ") a b, ( [c , d], e, f".toList = elements tornText := by
  have whole : elements tornText =
      [") a b".toList, "( [c , d]".toList, "e".toList, "f".toList] := by decide +kernel
  have mem : "( [c , d]".toList ∈ elements tornText := by
    rw [whole]
    simp
  obtain ⟨-, phrases, alone, joined⟩ := elements_normal tornText
  refine ⟨mem, phrases _ mem, alone _ mem, ?_⟩
  rw [whole] at joined ⊢
  exact joined

end AngularAtlas.Source
