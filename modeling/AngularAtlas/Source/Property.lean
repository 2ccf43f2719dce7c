import AngularAtlas.Source.Bracket
import AngularAtlas.Text.Blank
import AngularAtlas.Text.Word

namespace AngularAtlas.Source

open AngularAtlas.Text

def bracketStep (c : Char) : Int :=
  if c = '{' ∨ c = '(' ∨ c = '[' then 1
  else if c = '}' ∨ c = ')' ∨ c = ']' then -1
  else 0

def angleStep (c : Char) : Int :=
  if c = '<' then 1 else if c = '>' then -1 else bracketStep c

/-- The pieces between the commas at which no more brackets have been opened than closed, from
a given depth on. -/
def splitAtCommas (depth : Int) : List Char → List (List Char)
  | [] => [[]]
  | c :: r =>
    if c = ',' ∧ depth ≤ 0 then [] :: splitAtCommas depth r
    else (splitAtCommas (depth + bracketStep c) r).modifyHead (c :: ·)

/-- The elements of a list in the text: the pieces between its outer commas with their spacing
collapsed, without the empty ones. -/
def elements (s : List Char) : List (List Char) :=
  ((splitAtCommas 0 s).map collapse).filter (· ≠ [])

/-- The two sides of each colon that stands at depth zero, in order, from a given depth on. -/
def colonSplits (depth : Int) : List Char → List (List Char × List Char)
  | [] => []
  | c :: r =>
    let later := (colonSplits (depth + angleStep c) r).map fun (a, b) => (c :: a, b)
    if c = ':' ∧ depth = 0 then ([], r) :: later else later

def colonOffsets (s : List Char) : List Nat := (colonSplits 0 s).map fun (a, _) => utf8Length a

def isQuote (c : Char) : Bool := c == '\'' || c == '"' || c == '\x60'

def unquote (s : List Char) : List Char :=
  let s := trim s
  match s with
  | q :: r =>
    if isQuote q ∧ r.getLast? = some q then r.dropLast else s
  | [] => s

/-- The key and the value of a property: the texts before and after its first outer colon. A
lone identifier is its own value. -/
def splitProperty? (s : List Char) : Option (List Char × List Char) :=
  let s := trim s
  match (colonSplits 0 s).head? with
  | some (key, value) => some (unquote key, trim value)
  | none => if isIdentifier s then some (s, s) else none

/-- The keys and values of an object literal, in order. Elements that are no properties are left
out. -/
def objectProperties? (s : List Char) : Option (List (List Char × List Char)) :=
  let s := trim s
  if s.head? = some '{' then
    (balanced? s).map fun (inside, _) => (elements inside).filterMap splitProperty?
  else none

def arrayBody? (s : List Char) : Option (List Char) :=
  let s := trim s
  if s.head? = some '[' then (balanced? s).map (·.1) else none

def stripGenerics (s : List Char) : List Char := trim (s.takeWhile (· != '<'))

theorem length_le_of_mem_splitAtCommas {depth : Int} {s piece : List Char}
    (h : piece ∈ splitAtCommas depth s) : piece.length ≤ s.length := by
  induction s generalizing depth piece with
  | nil =>
    simp only [splitAtCommas, List.mem_singleton] at h
    simp [h]
  | cons c r ih =>
    simp only [splitAtCommas] at h
    split at h
    · rcases List.mem_cons.1 h with rfl | h
      · simp
      · exact Nat.le_succ_of_le (ih h)
    · cases hp : splitAtCommas (depth + bracketStep c) r with
      | nil => simp [hp] at h
      | cons p ps =>
        rw [hp, List.modifyHead_cons] at h
        rcases List.mem_cons.1 h with rfl | h
        · have : p.length ≤ r.length := ih (by rw [hp]; exact List.mem_cons_self)
          simpa using this
        · exact Nat.le_succ_of_le (ih (by rw [hp]; exact List.mem_cons_of_mem _ h))

theorem length_le_of_mem_elements {s element : List Char} (h : element ∈ elements s) :
    element.length ≤ s.length := by
  simp only [elements, List.mem_filter, List.mem_map] at h
  obtain ⟨⟨piece, hp, rfl⟩, -⟩ := h
  exact Nat.le_trans (collapse_length_le piece) (length_le_of_mem_splitAtCommas hp)

theorem length_lt_of_mem_colonSplits {depth : Int} {s a b : List Char}
    (h : (a, b) ∈ colonSplits depth s) : a.length + b.length < s.length := by
  induction s generalizing depth a b with
  | nil => simp [colonSplits] at h
  | cons c r ih =>
    have later : (a, b) ∈ (colonSplits (depth + angleStep c) r).map (fun (a, b) => (c :: a, b)) →
        a.length + b.length < (c :: r).length := by
      intro h
      obtain ⟨⟨a', b'⟩, h', he⟩ := List.mem_map.1 h
      obtain ⟨rfl, rfl⟩ := Prod.mk.inj he
      have := ih h'
      simp only [List.length_cons]
      omega
    simp only [colonSplits] at h
    split at h
    · rcases List.mem_cons.1 h with h | h
      · obtain ⟨rfl, rfl⟩ := Prod.mk.inj h
        simp
      · exact later h
    · exact later h

theorem value_length_le {s key value : List Char} (h : splitProperty? s = some (key, value)) :
    value.length ≤ s.length := by
  have hs := trim_length_le s
  simp only [splitProperty?] at h
  split at h
  case h_1 k v hk =>
    obtain ⟨-, rfl⟩ := Prod.mk.inj (Option.some.inj h)
    have := length_lt_of_mem_colonSplits (List.mem_of_mem_head? hk)
    have := trim_length_le v
    omega
  case h_2 =>
    split at h
    · obtain ⟨-, rfl⟩ := Prod.mk.inj (Option.some.inj h)
      exact hs
    · simp at h

theorem value_length_lt_of_objectProperties? {s key value : List Char}
    {properties : List (List Char × List Char)} (h : objectProperties? s = some properties)
    (mem : (key, value) ∈ properties) : value.length < s.length := by
  have hs := trim_length_le s
  simp only [objectProperties?] at h
  split at h
  case isTrue =>
    obtain ⟨⟨inside, rest⟩, hb, rfl⟩ := Option.map_eq_some_iff.1 h
    obtain ⟨element, he, hp⟩ := List.mem_filterMap.1 mem
    have := balanced?_length hb
    have : element.length ≤ inside.length := length_le_of_mem_elements he
    have := value_length_le hp
    omega
  case isFalse => simp at h

theorem arrayBody?_length {s body : List Char} (h : arrayBody? s = some body) :
    body.length < s.length := by
  have hs := trim_length_le s
  simp only [arrayBody?] at h
  split at h
  case isTrue =>
    obtain ⟨⟨inside, rest⟩, hb, rfl⟩ := Option.map_eq_some_iff.1 h
    have := balanced?_length hb
    dsimp only
    omega
  case isFalse => simp at h

end AngularAtlas.Source
