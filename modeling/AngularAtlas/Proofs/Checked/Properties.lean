import AngularAtlas.Proofs.Checked.Brackets
import AngularAtlas.Source.NgModule

namespace AngularAtlas.Checked

open Text Source

/-- The pieces between the commas at which no more brackets have been opened than closed. -/
def pieces (depth : Int) : List Char → Checked (List (List Char))
  | [] => .ok [[]]
  | c :: r =>
    if c = ',' ∧ depth ≤ 0 then do
      return [] :: (← pieces depth r)
    else do
      return (← pieces (← count depth (bracketStep c)) r).modifyHead (c :: ·)

def elements (s : List Char) : Checked (List (List Char)) := do
  return ((← pieces 0 s).map collapse).filter (· ≠ [])

/-- The offsets of the colons that stand at depth zero, in a text that starts at an offset. -/
def colonsFrom (offset : Nat) (depth : Int) : List Char → Checked (List Nat)
  | [] => .ok []
  | c :: r => do
    let later ← colonsFrom (offset + c.utf8Size) (← count depth (angleStep c)) r
    return if c = ':' ∧ depth = 0 then offset :: later else later

def colons (s : List Char) : Checked (List Nat) := colonsFrom 0 0 s

def quotes : List Char := ['\'', '"', '\x60']

def unquote (s : List Char) : Checked (List Char) :=
  let s := trim s
  if quotes.any fun q => 2 ≤ utf8Length s && s.head? == some q && s.getLast? == some q then do
    slice s 1 (← subtract (utf8Length s) 1)
  else .ok s

def splitProperty (s : List Char) : Checked (Option (List Char × List Char)) := do
  let s := trim s
  if s = [] then return none
  match (← colons s).head? with
  | some colon =>
    let key ← unquote (trim (← sliceTo s colon))
    return some (key, trim (← sliceFrom s (colon + 1)))
  | none => return if isIdentifier s then some (s, s) else none

def stripGenerics (s : List Char) : Checked (List Char) :=
  match offsetOfChar? '<' s with
  | some start => do return trim (← sliceTo s start)
  | none => .ok (trim s)

/-- The properties of an object literal. -/
def objectProperties (s : List Char) : Checked (Option (List (List Char × List Char))) := do
  let s := trim s
  if s.head? = some '\x7b' then
    match ← insideBracket s 0 with
    | none => return none
    | some inside => return some (← (← elements inside).filterMapM splitProperty)
  else return none

def isBracket (c : Char) : Bool := ['(', ')', '[', ']', '\x7b', '\x7d', '<', '>'].contains c

/-- A signed number of 32 bits can count the brackets of the text. -/
def FewBrackets (s : List Char) : Prop := s.countP isBracket < 2 ^ 31

instance (s : List Char) : Decidable (FewBrackets s) :=
  inferInstanceAs (Decidable (_ < _))

variable {s t : List Char} {c : Char} {depth : Int}

theorem FewBrackets.of_sublist (few : FewBrackets s) (h : t.Sublist s) : FewBrackets t :=
  Nat.lt_of_le_of_lt (h.countP_le) few

theorem isBlank_of_isBracket (h : isBracket c = true) : isBlank c = false := by
  have none : ['(', ')', '[', ']', '\x7b', '\x7d', '<', '>'].any isBlank = false := by decide
  simpa using List.any_eq_false.1 none c (List.contains_iff_mem.1 h)

theorem FewBrackets.of_mem_elements (few : FewBrackets s) (mem : t ∈ Source.elements s) :
    FewBrackets t := by
  have share := countP_flatten_elements (fun _ => isBlank_of_isBracket) (by decide) s
  have part : t.countP isBracket ≤ (Source.elements s).flatten.countP isBracket :=
    (List.sublist_flatten_of_mem mem).countP_le
  exact Nat.lt_of_le_of_lt (part.trans_eq share) few

theorem natAbs_angleStep_le (c : Char) :
    (angleStep c).natAbs ≤ if isBracket c then 1 else 0 := by
  by_cases h : isBracket c = true
  · rw [if_pos h, angleStep, bracketStep]
    split_ifs <;> decide
  · have other : angleStep c = 0 := by
      simp only [isBracket, List.contains_iff_mem, List.mem_cons, List.not_mem_nil, or_false,
        not_or] at h
      simp [angleStep, bracketStep, h]
    simp [other]

theorem natAbs_bracketStep_le (c : Char) :
    (bracketStep c).natAbs ≤ if isBracket c then 1 else 0 := by
  by_cases angle : c = '<' ∨ c = '>'
  · rcases angle with rfl | rfl <;> decide
  · have same : angleStep c = bracketStep c := by
      rw [not_or] at angle
      rw [angleStep, if_neg angle.1, if_neg angle.2]
    rw [← same]
    exact natAbs_angleStep_le c

/-- A counter takes a step, and the brackets that are left cannot take it out of its range. -/
theorem step_within {step : Int} (small : step.natAbs ≤ if isBracket c then 1 else 0)
    (few : depth.natAbs + (c :: s).countP isBracket < 2 ^ 31) :
    count depth step = .ok (depth + step) ∧
      (depth + step).natAbs + s.countP isBracket < 2 ^ 31 := by
  have both := Int.natAbs_add_le depth step
  rw [List.countP_cons] at few
  have within : (depth + step).natAbs + s.countP isBracket < 2 ^ 31 := by omega
  exact ⟨count_eq_ok (Nat.lt_of_le_of_lt (Nat.le_add_right _ _) within), within⟩

theorem pieces_eq (few : depth.natAbs + s.countP isBracket < 2 ^ 31) :
    pieces depth s = .ok (splitAtCommas depth s) := by
  induction s generalizing depth with
  | nil => rfl
  | cons c s ih =>
    rw [pieces, splitAtCommas]
    split
    case isTrue =>
      have less : s.countP isBracket ≤ (c :: s).countP isBracket :=
        (List.sublist_cons_self c s).countP_le
      rw [ih (by omega)]
      rfl
    case isFalse =>
      obtain ⟨counted, later⟩ := step_within (natAbs_bracketStep_le c) few
      rw [counted, ok_bind, ih later]
      rfl

theorem colonsFrom_eq (few : depth.natAbs + s.countP isBracket < 2 ^ 31) (offset : Nat) :
    colonsFrom offset depth s =
      .ok ((colonSplits depth s).map fun p => offset + utf8Length p.1) := by
  induction s generalizing depth offset with
  | nil => rfl
  | cons c s ih =>
    obtain ⟨counted, later⟩ := step_within (natAbs_angleStep_le c) few
    rw [colonsFrom, counted, ok_bind, ih later, ok_bind, colonSplits]
    split <;> simp [Function.comp_def, Nat.add_assoc] <;> rfl

theorem elements_eq (few : FewBrackets s) : elements s = .ok (Source.elements s) := by
  have start : Int.natAbs 0 + s.countP isBracket < 2 ^ 31 := (Nat.zero_add _).symm ▸ few
  rw [elements, pieces_eq start]
  rfl

theorem colons_eq (few : FewBrackets s) : colons s = .ok (colonOffsets s) := by
  have start : Int.natAbs 0 + s.countP isBracket < 2 ^ 31 := (Nat.zero_add _).symm ▸ few
  rw [colons, colonsFrom_eq start, colonOffsets]
  simp

theorem skipBlanks_of_head? (solid : ∀ c ∈ s.head?, isBlank c = false) : skipBlanks s = s := by
  cases s with
  | nil => rfl
  | cons c s => exact skipBlanks_of_not_blank (solid c rfl) s

theorem head?_skipBlanks (s : List Char) : ∀ c ∈ (skipBlanks s).head?, isBlank c = false := by
  intro c head
  have first := List.head?_dropWhile_not isBlank s
  rwa [← skipBlanks, Option.mem_def.1 head] at first

theorem trim_trim (s : List Char) : trim (trim s) = trim s := by
  have front : trimEnd (skipBlanks s) <+: skipBlanks s := by
    rw [← List.reverse_suffix, trimEnd, List.reverse_reverse]
    exact List.dropWhile_suffix isBlank
  have starts : ∀ c ∈ (trim s).head?, isBlank c = false := by
    intro c head
    refine head?_skipBlanks s c ?_
    obtain ⟨r, he⟩ := List.head?_eq_some_iff.1 head
    obtain ⟨t, parts⟩ := front
    rw [trim] at he
    rw [← parts, he]
    rfl
  have ends : trimEnd (trimEnd (skipBlanks s)) = trimEnd (skipBlanks s) := by
    rw [trimEnd, trimEnd, List.reverse_reverse]
    exact congrArg List.reverse (skipBlanks_of_head? (head?_skipBlanks _))
  rw [trim, skipBlanks_of_head? starts, trim, ends]

theorem utf8Length_of_mem_quotes {q : Char} (hq : q ∈ quotes) : utf8Length [q] = 1 := by
  have all : quotes.all (utf8Length [·] == 1) = true := by decide
  exact eq_of_beq (List.all_eq_true.1 all q hq)

theorem isEnclosed_iff {q : Char} {r : List Char} :
    (quotes.any fun mark => 2 ≤ utf8Length (q :: r) && (q :: r).head? == some mark &&
      (q :: r).getLast? == some mark) = true ↔ isQuote q = true ∧ r.getLast? = some q := by
  have isMark : isQuote q = true ↔ q ∈ quotes := by
    simp [isQuote, quotes, or_assoc]
  rw [isMark]
  simp only [List.any_eq_true, Bool.and_eq_true, decide_eq_true_eq, beq_iff_eq, List.head?_cons]
  constructor
  · rintro ⟨mark, mem, ⟨long, same⟩, last⟩
    obtain rfl := Option.some.inj same
    refine ⟨mem, ?_⟩
    cases r with
    | nil =>
      rw [utf8Length_of_mem_quotes mem] at long
      omega
    | cons d r => rwa [List.getLast?_cons_cons] at last
  · rintro ⟨mem, last⟩
    refine ⟨q, mem, ⟨?_, rfl⟩, ?_⟩
    · have ends := List.dropLast_append_getLast? q last
      have := Char.utf8Size_pos q
      rw [← ends, utf8Length_cons, utf8Length_append, utf8Length_cons]
      omega
    · rw [List.getLast?_cons, last]
      rfl

theorem unquote_eq (s : List Char) : unquote s = .ok (Source.unquote s) := by
  rw [unquote, Source.unquote]
  cases trim s with
  | nil => rfl
  | cons q r =>
    simp only [isEnclosed_iff]
    split
    case isTrue enclosed =>
      have single : utf8Length [q] = 1 :=
        utf8Length_of_mem_quotes (by simpa [isQuote, quotes, or_assoc] using enclosed.1)
      have ends := List.dropLast_append_getLast? q enclosed.2
      have parts : q :: r = [q] ++ (r.dropLast ++ [q]) := by rw [ends]; rfl
      have stop : subtract (utf8Length (q :: r)) 1 =
          .ok (utf8Length [q] + utf8Length r.dropLast) := by
        rw [parts, utf8Length_append, utf8Length_append, single, subtract, if_pos (by omega)]
        congr 1
      rw [stop, ok_bind, parts, ← single]
      exact slice_append [q] r.dropLast [q]
    case isFalse => rfl

theorem sliceTo_colon {key value : List Char} (parts : key ++ ':' :: value = s) :
    sliceTo s (utf8Length key) = .ok key := by
  rw [← parts, sliceTo_append]

theorem sliceFrom_colon {key value : List Char} (parts : key ++ ':' :: value = s) :
    sliceFrom s (utf8Length key + 1) = .ok value := by
  have behind : utf8Length key + 1 = utf8Length (key ++ [':']) := by
    rw [utf8Length_append]
    rfl
  have split : s = (key ++ [':']) ++ value := by rw [← parts]; simp
  rw [split, behind, sliceFrom_append]

theorem splitProperty_eq (few : FewBrackets s) :
    splitProperty s = .ok (splitProperty? s) := by
  rw [splitProperty, splitProperty?]
  by_cases empty : trim s = []
  · simp only [empty]
    rfl
  have head : (colonOffsets (trim s)).head? =
      (colonSplits 0 (trim s)).head?.map fun p => utf8Length p.1 := List.head?_map
  simp only [if_neg empty, colons_eq (few.of_sublist (trim_sublist s)), ok_bind, head]
  cases found : (colonSplits 0 (trim s)).head? with
  | none => rfl
  | some sides =>
    obtain ⟨key, value⟩ := sides
    have parts := append_of_mem_colonSplits (List.mem_of_mem_head? found)
    have same : Source.unquote (trim key) = Source.unquote key := by
      rw [Source.unquote, Source.unquote, trim_trim]
    simp only [Option.map_some, sliceTo_colon parts, sliceFrom_colon parts, ok_bind, unquote_eq,
      same]
    rfl

theorem stripGenerics_eq (s : List Char) : stripGenerics s = .ok (Source.stripGenerics s) := by
  rw [stripGenerics, Source.stripGenerics]
  by_cases mem : '<' ∈ s
  · obtain ⟨r, -, parts, place⟩ := offsetOfChar?_of_mem mem
    have front : sliceTo s (utf8Length (s.takeWhile (· != '<'))) =
        .ok (s.takeWhile (· != '<')) := by
      have cut := sliceTo_append (s.takeWhile (· != '<')) ('<' :: r)
      rwa [← parts] at cut
    simp only [place, front]
    rfl
  · have whole : s.takeWhile (· != '<') = s := by
      rw [List.takeWhile_eq_self_iff]
      intro c hc
      have differ : c ≠ '<' := by
        rintro rfl
        exact mem hc
      simpa using differ
    simp only [offsetOfChar?, if_neg mem, whole]

theorem objectProperties_eq (few : FewBrackets s) :
    objectProperties s = .ok (objectProperties? s) := by
  rw [objectProperties, objectProperties?]
  simp only [insideBracket_zero, ok_bind]
  split
  case isFalse => rfl
  case isTrue =>
    cases pair : balanced? (trim s) with
    | none => rfl
    | some p =>
      have fewInside := few.of_sublist ((inside_sublist pair).trans (trim_sublist s))
      have each : ∀ element ∈ Source.elements p.1,
          splitProperty element = .ok (splitProperty? element) :=
        fun element mem => splitProperty_eq (fewInside.of_mem_elements mem)
      simp only [Option.map_some, elements_eq fewInside, ok_bind, filterMapM_eq_ok each]
      rfl

end AngularAtlas.Checked
