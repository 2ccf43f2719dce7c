import AngularAtlas.Proofs.Text.Spacing
import AngularAtlas.Proofs.Text.Word
import AngularAtlas.Source.Property

/-!
Texts whose brackets are properly nested. Main statements: the text inside a pair of brackets
ends at the closing one, and a list is cut at its commas and nowhere inside its elements.
-/

namespace AngularAtlas.Source

open Text

/-- An opening bracket with the one that closes it; angle brackets are none. -/
def IsPair (opener closer : Char) : Prop :=
  (opener, closer) ∈ [('{', '}'), ('(', ')'), ('[', ']')]

/-- The brackets of the text are properly nested. Where `commas` is false, commas stand inside
brackets only. -/
inductive Nested : (commas : Bool) → List Char → Prop
  | nil {commas : Bool} : Nested commas []
  | char {commas : Bool} {c : Char} {s : List Char} : bracketStep c = 0 →
      (c = ',' → commas = true) → Nested commas s → Nested commas (c :: s)
  | group {commas : Bool} {opener closer : Char} {inner s : List Char} : IsPair opener closer →
      Nested true inner → Nested commas s → Nested commas (opener :: (inner ++ closer :: s))

variable {commas : Bool} {opener closer c : Char} {s t : List Char}

theorem isPair_curly : IsPair '{' '}' := by simp [IsPair]

theorem isPair_round : IsPair '(' ')' := by simp [IsPair]

theorem isPair_square : IsPair '[' ']' := by simp [IsPair]

theorem IsPair.cases (hp : IsPair opener closer) :
    (opener = '{' ∧ closer = '}') ∨ (opener = '(' ∧ closer = ')') ∨
      (opener = '[' ∧ closer = ']') := by
  simpa [IsPair] using hp

theorem IsPair.closer?_eq (hp : IsPair opener closer) : closer? opener = some closer := by
  rcases hp.cases with ⟨rfl, rfl⟩ | ⟨rfl, rfl⟩ | ⟨rfl, rfl⟩ <;> rfl

theorem IsPair.bracketStep_eq (hp : IsPair opener closer) :
    bracketStep opener = 1 ∧ bracketStep closer = -1 := by
  rcases hp.cases with ⟨rfl, rfl⟩ | ⟨rfl, rfl⟩ | ⟨rfl, rfl⟩ <;> decide

theorem IsPair.not_blank (hp : IsPair opener closer) :
    isBlank opener = false ∧ isBlank closer = false := by
  rcases hp.cases with ⟨rfl, rfl⟩ | ⟨rfl, rfl⟩ | ⟨rfl, rfl⟩ <;> decide

theorem IsPair.eq_or_ne {other close : Char} (hp : IsPair opener closer)
    (ho : IsPair other close) :
    (other = opener ∧ close = closer) ∨
      (other ≠ opener ∧ other ≠ closer ∧ close ≠ opener ∧ close ≠ closer) := by
  rcases hp.cases with ⟨rfl, rfl⟩ | ⟨rfl, rfl⟩ | ⟨rfl, rfl⟩ <;>
    rcases ho.cases with ⟨rfl, rfl⟩ | ⟨rfl, rfl⟩ | ⟨rfl, rfl⟩ <;> decide

/-- The brackets and the comma. -/
def marks : List Char := ['{', '(', '[', '}', ')', ']', ',']

theorem bracketStep_of_not_mem_marks (hc : c ∉ marks) : bracketStep c = 0 ∧ c ≠ ',' := by
  simp only [marks, List.mem_cons, List.not_mem_nil, or_false, not_or] at hc
  simp [bracketStep, hc]

theorem Nested.append (hs : Nested commas s) (ht : Nested commas t) : Nested commas (s ++ t) := by
  induction hs with
  | nil => exact ht
  | char hc hcomma _ ih => exact .char hc hcomma (ih ht)
  | group hp hi _ _ ih =>
    rw [List.cons_append, List.append_assoc]
    exact .group hp hi (ih ht)

theorem Nested.anywhere (hs : Nested commas s) : Nested true s := by
  induction hs with
  | nil => exact .nil
  | char hc _ _ ih => exact .char hc (fun _ => rfl) ih
  | group hp hi _ _ ih => exact .group hp hi ih

theorem Nested.bracketed (hs : Nested true s) (hp : IsPair opener closer) :
    Nested commas (opener :: (s ++ [closer])) :=
  .group hp hs .nil

theorem nested_of_forall (hs : ∀ c ∈ s, bracketStep c = 0 ∧ c ≠ ',') : Nested commas s := by
  induction s with
  | nil => exact .nil
  | cons c s ih =>
    obtain ⟨⟨hc, hcomma⟩, hs⟩ := List.forall_mem_cons.1 hs
    exact .char hc (fun h => absurd h hcomma) (ih hs)

theorem nested_of_not_mem_marks (hs : ∀ c ∈ s, c ∉ marks) : Nested commas s :=
  nested_of_forall fun c hc => bracketStep_of_not_mem_marks (hs c hc)

theorem bracketStep_of_isBlank (hc : isBlank c = true) : bracketStep c = 0 ∧ c ≠ ',' :=
  bracketStep_of_not_mem_marks (not_mem_of_test hc (by decide))

theorem nested_of_isBlank (hs : IsBlank s) : Nested commas s :=
  nested_of_forall fun c hc => bracketStep_of_isBlank (hs c hc)

/-- Blanks do not matter for how brackets are nested. -/
theorem nested_of_filter (hs : Nested commas (s.filter (!isBlank ·))) : Nested commas s := by
  generalize hf : s.filter (!isBlank ·) = solid at hs
  induction hs generalizing s with
  | nil =>
    refine nested_of_isBlank fun c hc => ?_
    have := List.filter_eq_nil_iff.1 hf c hc
    simpa using this
  | char hc hcomma _ ih =>
    obtain ⟨gap, rest, rfl, hg, -, hr⟩ := List.filter_eq_cons_iff.1 hf
    refine .append (nested_of_isBlank fun c hc => ?_) (.char hc hcomma (ih hr))
    simpa using hg c hc
  | group hp _ _ ihInner ih =>
    obtain ⟨gap, rest, rfl, hg, -, hr⟩ := List.filter_eq_cons_iff.1 hf
    obtain ⟨inner, later, rfl, hi, hl⟩ := List.filter_eq_append_iff.1 hr
    obtain ⟨gap', rest, rfl, hg', -, hr⟩ := List.filter_eq_cons_iff.1 hl
    have blanks : ∀ {gap : List Char}, (∀ c ∈ gap, ¬(!isBlank c) = true) → IsBlank gap :=
      fun hg c hc => by simpa using hg c hc
    refine .append (nested_of_isBlank (blanks hg)) ?_
    rw [← List.append_assoc]
    exact .group hp ((ihInner hi).append (nested_of_isBlank (blanks hg'))) (ih hr)

theorem Nested.filter (hs : Nested commas s) : Nested commas (s.filter (!isBlank ·)) := by
  induction hs with
  | nil => exact .nil
  | @char _ c s hc hcomma _ ih =>
    cases hb : isBlank c with
    | true => rwa [List.filter_cons_of_neg (by simp [hb])]
    | false =>
      rw [List.filter_cons_of_pos (by simp [hb])]
      exact .char hc hcomma ih
  | group hp _ _ ihInner ih =>
    obtain ⟨ho, hc⟩ := hp.not_blank
    rw [List.filter_cons_of_pos (by simp [ho]), List.filter_append,
      List.filter_cons_of_pos (by simp [hc])]
    exact .group hp ihInner ih

theorem nested_of_spaced {tokens : List Token} (hs : Spaced tokens s)
    (hn : Nested commas tokens.flatten) : Nested commas s := by
  refine nested_of_filter ?_
  rw [hs.filter_eq]
  exact hn.filter

theorem splitAtClose_cons_opener (opener closer : Char) (depth : Nat) (s : List Char) :
    splitAtClose opener closer depth (opener :: s) =
      (splitAtClose opener closer (depth + 1) s).map fun (a, b) => (opener :: a, b) := by
  cases depth <;> exact if_pos rfl

theorem splitAtClose_cons_closer (ne : closer ≠ opener) (depth : Nat) (s : List Char) :
    splitAtClose opener closer (depth + 1) (closer :: s) =
      (splitAtClose opener closer depth s).map fun (a, b) => (closer :: a, b) := by
  rw [splitAtClose, if_neg ne, if_pos rfl]

theorem splitAtClose_cons_of_ne (ho : c ≠ opener) (hc : c ≠ closer) (depth : Nat)
    (s : List Char) :
    splitAtClose opener closer depth (c :: s) =
      (splitAtClose opener closer depth s).map fun (a, b) => (c :: a, b) := by
  cases depth <;> rw [splitAtClose, if_neg ho, if_neg hc]

/-- A nested text in front does not change where a bracket is closed. -/
theorem Nested.splitAtClose_append (hs : Nested commas s) (hp : IsPair opener closer) (depth : Nat)
    (t : List Char) :
    splitAtClose opener closer depth (s ++ t) =
      (splitAtClose opener closer depth t).map fun (a, b) => (s ++ a, b) := by
  induction hs generalizing depth t with
  | nil => simp
  | @char _ c s hc _ _ ih =>
    obtain ⟨ho, hcl⟩ := hp.bracketStep_eq
    have neOpener : c ≠ opener := by
      rintro rfl
      omega
    have neCloser : c ≠ closer := by
      rintro rfl
      omega
    rw [List.cons_append, splitAtClose_cons_of_ne neOpener neCloser, ih, Option.map_map]
    rfl
  | @group _ other close inner s ho _ _ ihInner ih =>
    have combine : ∀ found : Option (List Char × List Char),
        (((found.map fun (a, b) => (s ++ a, b)).map fun (a, b) => (close :: a, b)).map
            fun (a, b) => (inner ++ a, b)).map (fun (a, b) => (other :: a, b)) =
          found.map fun (a, b) => (other :: (inner ++ close :: s) ++ a, b) := by
      intro found
      cases found <;> simp
    rw [List.cons_append, List.append_assoc, List.cons_append]
    -- a pair of the same kind goes one deeper and back, the other kinds do not count
    rcases hp.eq_or_ne ho with ⟨rfl, rfl⟩ | ⟨h1, h2, h3, h4⟩
    · have ne : close ≠ other := by
        rintro rfl
        have := hp.bracketStep_eq
        omega
      rw [splitAtClose_cons_opener, ihInner, splitAtClose_cons_closer ne, ih, combine]
    · rw [splitAtClose_cons_of_ne h1 h2, ihInner, splitAtClose_cons_of_ne h3 h4, ih, combine]

theorem Nested.balanced? (hs : Nested commas s) (hp : IsPair opener closer) (t : List Char) :
    balanced? (opener :: (s ++ closer :: t)) = some (s, t) := by
  have ne : closer ≠ opener := by
    rintro rfl
    have := hp.bracketStep_eq
    omega
  rw [Source.balanced?, hp.closer?_eq, Option.bind_some, hs.splitAtClose_append hp, splitAtClose,
    if_neg ne, if_pos rfl]
  simp

/-- No comma of a nested text cuts it, unless one stands outside of brackets. -/
theorem Nested.splitAtCommas_append (hs : Nested commas s) {depth : Int} (hd : 0 ≤ depth)
    (inside : commas = true → 1 ≤ depth) (t : List Char) :
    splitAtCommas depth (s ++ t) = (splitAtCommas depth t).modifyHead (s ++ ·) := by
  induction hs generalizing depth t with
  | nil =>
    rw [List.nil_append]
    cases splitAtCommas depth t <;> rfl
  | @char commas c s hc hcomma _ ih =>
    rw [List.cons_append, splitAtCommas, if_neg, hc, Int.add_zero, ih hd inside]
    · simp [Function.comp_def]
    · rintro ⟨rfl, h⟩
      have := inside (hcomma rfl)
      omega
  | @group commas other close inner s ho _ _ ihInner ih =>
    obtain ⟨hopen, hclose⟩ := ho.bracketStep_eq
    have neOpener : other ≠ ',' := by
      rintro rfl
      exact absurd hopen (by decide)
    have neCloser : close ≠ ',' := by
      rintro rfl
      exact absurd hclose (by decide)
    rw [List.cons_append, List.append_assoc, List.cons_append, splitAtCommas,
      if_neg (fun h => neOpener h.1), hopen, ihInner (by omega) (fun _ => by omega), splitAtCommas,
      if_neg (fun h => neCloser h.1), hclose, Int.add_neg_cancel_right, ih hd inside]
    simp [Function.comp_def]

theorem Nested.splitAtCommas_eq (hs : Nested false s) : splitAtCommas 0 s = [s] := by
  have := hs.splitAtCommas_append (Int.le_refl 0) (fun h => nomatch h) []
  simpa [splitAtCommas] using this

/-- What the commas of a text cut off, and the piece that goes on behind it. -/
theorem Nested.exists_splitAtCommas (hs : Nested commas s) :
    ∃ pieces last, ∀ t, splitAtCommas 0 (s ++ t) =
      pieces ++ (splitAtCommas 0 t).modifyHead (last ++ ·) := by
  have longer : ∀ {front s : List Char},
      (∀ t, splitAtCommas 0 (front ++ t) = (splitAtCommas 0 t).modifyHead (front ++ ·)) →
      (∃ pieces last, ∀ t, splitAtCommas 0 (s ++ t) =
        pieces ++ (splitAtCommas 0 t).modifyHead (last ++ ·)) →
      ∃ pieces last, ∀ t, splitAtCommas 0 (front ++ s ++ t) =
        pieces ++ (splitAtCommas 0 t).modifyHead (last ++ ·) := by
    rintro front s whole ⟨pieces, last, hs⟩
    cases pieces with
    | nil =>
      refine ⟨[], front ++ last, fun t => ?_⟩
      rw [List.append_assoc, whole, hs]
      simp [Function.comp_def]
    | cons piece pieces =>
      refine ⟨(front ++ piece) :: pieces, last, fun t => ?_⟩
      rw [List.append_assoc, whole, hs]
      rfl
  induction hs with
  | nil =>
    refine ⟨[], [], fun t => ?_⟩
    cases h : splitAtCommas 0 t <;> simp [h]
  | @char _ c s hc _ _ ih =>
    by_cases comma : c = ','
    · obtain ⟨pieces, last, hs⟩ := ih
      refine ⟨[] :: pieces, last, fun t => ?_⟩
      rw [List.cons_append, splitAtCommas, if_pos ⟨comma, Int.le_refl 0⟩, hs]
      rfl
    · have whole : ∀ t, splitAtCommas 0 ([c] ++ t) =
          (splitAtCommas 0 t).modifyHead ([c] ++ ·) := by
        intro t
        rw [List.singleton_append, splitAtCommas, if_neg fun h => comma h.1, hc]
        rfl
      exact longer whole ih
  | @group _ opener closer inner s hp hi _ _ ih =>
    have group : Nested false (opener :: (inner ++ [closer])) := hi.bracketed hp
    have whole : ∀ t, splitAtCommas 0 (opener :: (inner ++ [closer]) ++ t) =
        (splitAtCommas 0 t).modifyHead (opener :: (inner ++ [closer]) ++ ·) :=
      group.splitAtCommas_append (Int.le_refl 0) (absurd · Bool.false_ne_true)
    simpa using longer whole ih

theorem Nested.splitAtCommas_append_comma (hs : Nested commas s) (t : List Char) :
    splitAtCommas 0 (s ++ ',' :: t) = splitAtCommas 0 s ++ splitAtCommas 0 t := by
  obtain ⟨pieces, last, he⟩ := hs.exists_splitAtCommas
  have cut : splitAtCommas 0 (',' :: t) = [] :: splitAtCommas 0 t := by
    rw [splitAtCommas, if_pos ⟨rfl, Int.le_refl 0⟩]
  have whole := he []
  rw [List.append_nil] at whole
  rw [he, whole, cut]
  simp [splitAtCommas]

end AngularAtlas.Source
