import AngularAtlas.Export.Dgml
import Mathlib.Data.List.Infix

namespace AngularAtlas.Markup

/-- A text with each of the five entities replaced by the character it stands for. -/
def unescape : List Char → List Char
  | '&' :: 'a' :: 'm' :: 'p' :: ';' :: r => '&' :: unescape r
  | '&' :: 'q' :: 'u' :: 'o' :: 't' :: ';' :: r => '"' :: unescape r
  | '&' :: 'a' :: 'p' :: 'o' :: 's' :: ';' :: r => '\'' :: unescape r
  | '&' :: 'l' :: 't' :: ';' :: r => '<' :: unescape r
  | '&' :: 'g' :: 't' :: ';' :: r => '>' :: unescape r
  | c :: r => c :: unescape r
  | [] => []

abbrev Attributes := List (String × String)

def isNameChar (c : Char) : Bool := !" =\"'<>/".toList.contains c

/-- Reads a blank, a name, and a value in quotation marks, which is not unescaped. -/
def attribute? : List Char → Option ((String × String) × List Char)
  | ' ' :: s =>
    match s.dropWhile isNameChar with
    | '=' :: '"' :: r =>
      match r.dropWhile (· != '"') with
      | _ :: rest =>
        let name := String.ofList (s.takeWhile isNameChar)
        some ((name, String.ofList (r.takeWhile (· != '"'))), rest)
      | [] => none
    | _ => none
  | _ => none

theorem attribute?_length {s rest : List Char} {a : String × String}
    (h : attribute? s = some (a, rest)) : rest.length < s.length := by
  unfold attribute? at h
  split at h
  case h_2 => cases h
  case h_1 s =>
    split at h
    case h_2 => cases h
    case h_1 r hr =>
      split at h
      case h_2 => cases h
      case h_1 last rest' hl =>
        obtain ⟨-, rfl⟩ := Prod.mk.inj (Option.some.inj h)
        have first := (List.dropWhile_suffix isNameChar (l := s)).length_le
        have second := (List.dropWhile_suffix (· != '"') (l := r)).length_le
        rw [hr] at first
        rw [hl] at second
        simp only [List.length_cons] at *
        omega

/-- The attributes with which a text starts. -/
def attributes (s : List Char) : Attributes :=
  match _h : attribute? s with
  | some (a, rest) => a :: attributes rest
  | none => []
termination_by s.length
decreasing_by exact attribute?_length ‹_›

/-- The value of an attribute, unescaped. -/
def value? (key : String) (a : Attributes) : Option String :=
  (a.lookup key).map fun value => String.ofList (unescape value.toList)

def startOf (name : String) : List Char := '<' :: name.toList ++ [' ']

/-- Reads the attributes of an element that starts with a name and a blank. -/
def element? (name : String) (s : List Char) : Option Attributes :=
  if (startOf name).isPrefixOf s then some (attributes (s.drop ('<' :: name.toList).length))
  else none

/-- The elements with a name, wherever in a text they start. -/
def elements (name : String) (s : List Char) : List Attributes := s.tails.filterMap (element? name)

section Reads

variable {β : Type} {name : String} {f : Attributes → β} {front back s : List Char}
  {found more : List β} {c : Char}

/-- Whatever follows it, a piece of text has some elements, of each of which something is seen. -/
def Reads (name : String) (f : Attributes → β) (front : List Char) (found : List β) : Prop :=
  ∀ rest, (elements name (front ++ rest)).map f = found ++ (elements name rest).map f

theorem elements_cons (name : String) (c : Char) (s : List Char) :
    elements name (c :: s) = (element? name (c :: s)).toList ++ elements name s := by
  rw [elements, List.tails_cons, List.filterMap_cons]
  cases element? name (c :: s) <;> rfl

theorem element?_of_ne (hc : c ≠ '<') (name : String) (s : List Char) :
    element? name (c :: s) = none := by
  refine if_neg fun starts => ?_
  obtain ⟨same, -⟩ := List.cons_prefix_cons.1 (List.isPrefixOf_iff_prefix.1 starts)
  exact hc same.symm

theorem Reads.map_elements_eq (h : Reads name f front found) :
    (elements name front).map f = found := by
  have here := h []
  rw [List.append_nil] at here
  rw [here]
  exact List.append_nil found

theorem Reads.append (hf : Reads name f front found) (hb : Reads name f back more) :
    Reads name f (front ++ back) (found ++ more) := by
  intro rest
  rw [List.append_assoc, hf, hb, List.append_assoc]

theorem Reads.append_text {t u : String} (ht : Reads name f t.toList found)
    (hu : Reads name f u.toList more) : Reads name f (t ++ u).toList (found ++ more) := by
  rw [String.toList_append]
  exact ht.append hu

theorem reads_of_not_mem (hs : '<' ∉ s) : Reads name f s [] := by
  intro rest
  induction s with
  | nil => rfl
  | cons c s ih =>
    rw [List.mem_cons, not_or] at hs
    rw [List.cons_append, elements_cons, element?_of_ne (Ne.symm hs.1)]
    exact ih hs.2

theorem reads_flatMap {α : Type} {items : List α} {write : α → List Char} {see : α → List β}
    (h : ∀ a ∈ items, Reads name f (write a) (see a)) :
    Reads name f (items.flatMap write) (items.flatMap see) := by
  induction items with
  | nil => exact reads_of_not_mem List.not_mem_nil
  | cons a items ih =>
    obtain ⟨here, later⟩ := List.forall_mem_cons.1 h
    exact here.append (ih later)

theorem reads_map {α : Type} {items : List α} {write : α → List Char} {see : α → β}
    (h : ∀ a ∈ items, Reads name f (write a) [see a]) :
    Reads name f (items.flatMap write) (items.map see) := by
  rw [List.map_eq_flatMap]
  exact reads_flatMap h

theorem reads_flatMap_nil {α : Type} {items : List α} {write : α → List Char}
    (h : ∀ a ∈ items, Reads name f (write a) []) : Reads name f (items.flatMap write) [] := by
  have all := reads_flatMap h
  rwa [List.flatMap_eq_nil_iff.2 fun _ _ => rfl] at all

/-- Neither of two texts goes on as the other one. -/
def Apart (v w : List Char) : Prop := ¬ v <+: w ∧ ¬ w <+: v

instance (v w : List Char) : Decidable (Apart v w) := inferInstanceAs (Decidable (_ ∧ _))

theorem Apart.not_prefix {v w : List Char} (h : Apart v w) (rest : List Char) :
    ¬ v <+: w ++ rest := by
  intro starts
  rcases List.prefix_or_prefix_of_prefix starts (List.prefix_append w rest) with hv | hw
  · exact h.1 hv
  · exact h.2 hw

theorem reads_other {tag : List Char} (apart : Apart (startOf name) ('<' :: tag))
    (hs : '<' ∉ tag ++ s) : Reads name f ('<' :: tag ++ s) [] := by
  intro rest
  have start : element? name ('<' :: (tag ++ s ++ rest)) = none := by
    refine if_neg fun starts => apart.not_prefix (s ++ rest) ?_
    simpa using List.isPrefixOf_iff_prefix.1 starts
  rw [List.cons_append, List.cons_append, elements_cons, start]
  exact reads_of_not_mem hs rest

theorem reads_element {b : β} (hs : '<' ∉ name.toList ++ s) (blank : s.head? = some ' ')
    (hf : ∀ rest, f (attributes (s ++ rest)) = b) : Reads name f ('<' :: name.toList ++ s) [b] := by
  intro rest
  obtain ⟨r, rfl⟩ := List.head?_eq_some_iff.1 blank
  have start : element? name ('<' :: name.toList ++ (' ' :: r ++ rest)) =
      some (attributes (' ' :: r ++ rest)) := by
    have starts : startOf name <+: '<' :: name.toList ++ (' ' :: r ++ rest) :=
      ⟨r ++ rest, by simp [startOf]⟩
    rw [element?, if_pos (List.isPrefixOf_iff_prefix.2 starts), List.drop_left]
  have inside : Reads name f (name.toList ++ ' ' :: r) [] := reads_of_not_mem hs
  have later := inside rest
  rw [List.append_assoc] at later
  rw [List.append_assoc, List.cons_append, elements_cons, ← List.cons_append, start,
    List.map_append, later]
  exact congrArg (· :: _) (hf rest)

end Reads

theorem unescape_cons_of_ne {c : Char} (hc : c ≠ '&') (r : List Char) :
    unescape (c :: r) = c :: unescape r := by
  rw [unescape] <;> rintro _ rfl <;> exact absurd rfl hc

theorem unescape_escapeChar (c : Char) (r : List Char) :
    unescape (Dgml.escapeChar c ++ r) = c :: unescape r := by
  unfold Dgml.escapeChar
  split
  case h_6 hc _ _ _ _ => exact unescape_cons_of_ne hc r
  all_goals rfl

theorem unescape_escape (s : String) :
    String.ofList (unescape (Dgml.escape s).toList) = s := by
  have chars : ∀ t : List Char, unescape (t.flatMap Dgml.escapeChar) = t := by
    intro t
    induction t with
    | nil => rfl
    | cons c t ih => rw [List.flatMap_cons, unescape_escapeChar, ih]
  rw [Dgml.escape, String.toList_ofList, chars, String.ofList_toList]

/-- The characters that an escaped text does not have. -/
def marks : List Char := ['"', '\'', '<', '>']

theorem not_mem_escapeChar {c : Char} (hc : c ∈ marks) (d : Char) : c ∉ Dgml.escapeChar d := by
  simp only [marks, List.mem_cons, List.not_mem_nil, or_false] at hc
  unfold Dgml.escapeChar
  split
  case h_6 quote apostrophe less greater =>
    rw [List.mem_singleton]
    rintro rfl
    rcases hc with same | same | same | same
    exacts [quote same, apostrophe same, less same, greater same]
  all_goals rcases hc with rfl | rfl | rfl | rfl <;> decide

theorem not_mem_escape {c : Char} (hc : c ∈ marks) (s : String) :
    c ∉ (Dgml.escape s).toList := by
  rw [Dgml.escape, String.toList_ofList, List.mem_flatMap]
  rintro ⟨d, -, mem⟩
  exact not_mem_escapeChar hc d mem

section Written

variable {attrs : Attributes} {key value : String} {rest : List Char}

def written (attrs : Attributes) : List Char :=
  attrs.flatMap fun a => ' ' :: a.1.toList ++ '=' :: '"' :: (Dgml.escape a.2).toList ++ ['"']

/-- Attributes as they are read back, with values that are not unescaped. -/
def escaped (attrs : Attributes) : Attributes := attrs.map fun a => (a.1, Dgml.escape a.2)

theorem attributes_of_some {s : List Char} {a : String × String}
    (h : attribute? s = some (a, rest)) : attributes s = a :: attributes rest := by
  rw [attributes]
  split
  case h_1 a' rest' h' =>
    obtain ⟨rfl, rfl⟩ := Prod.mk.inj (Option.some.inj (h.symm.trans h'))
    rfl
  case h_2 h' =>
    rw [h] at h'
    cases h'

theorem attributes_of_none {s : List Char} (h : attribute? s = none) : attributes s = [] := by
  rw [attributes]
  split
  case h_1 h' =>
    rw [h] at h'
    cases h'
  case h_2 => rfl

theorem attribute?_written (hk : key.toList.all isNameChar = true) (value : String)
    (rest : List Char) :
    attribute? (' ' :: key.toList ++ '=' :: '"' :: (Dgml.escape value).toList ++ '"' :: rest) =
      some ((key, Dgml.escape value), rest) := by
  have name : ∀ c ∈ key.toList, isNameChar c = true := List.all_eq_true.1 hk
  have text : ∀ c ∈ (Dgml.escape value).toList, (c != '"') = true := by
    intro c hc
    rw [bne_iff_ne]
    rintro rfl
    exact not_mem_escape (by decide) value hc
  have stop : isNameChar '=' = false := by decide
  have last : ((Dgml.escape value).toList ++ '"' :: rest).dropWhile (· != '"') = '"' :: rest := by
    rw [List.dropWhile_append_of_pos text]
    rfl
  have read : ((Dgml.escape value).toList ++ '"' :: rest).takeWhile (· != '"') =
      (Dgml.escape value).toList := by
    rw [List.takeWhile_append_of_pos text]
    exact List.append_nil _
  simp [attribute?, List.dropWhile_append_of_pos name, List.takeWhile_append_of_pos name, stop,
    last, read]

/-- All names are such as a reader takes for names. -/
def Plain (attrs : Attributes) : Prop := ∀ a ∈ attrs, a.1.toList.all isNameChar = true

theorem Plain.keys (plain : Plain attrs) : ∀ a ∈ attrs, '<' ∉ a.1.toList := by
  intro a ha mem
  have : isNameChar '<' = true := List.all_eq_true.1 (plain a ha) '<' mem
  exact absurd this (by decide)

theorem attributes_written (plain : Plain attrs) (rest : List Char) :
    attributes (written attrs ++ rest) = escaped attrs ++ attributes rest := by
  induction attrs with
  | nil => rfl
  | cons a attrs ih =>
    obtain ⟨here, later⟩ := List.forall_mem_cons.1 plain
    have first := attribute?_written here a.2 (written attrs ++ rest)
    have text : written (a :: attrs) ++ rest = ' ' :: a.1.toList ++ '=' :: '"' ::
        (Dgml.escape a.2).toList ++ '"' :: (written attrs ++ rest) := by
      simp [written]
    rw [text, attributes_of_some first, ih later]
    rfl

theorem value?_escaped (key : String) (attrs more : Attributes) :
    value? key (escaped attrs ++ more) = (attrs.lookup key).or (value? key more) := by
  induction attrs with
  | nil => rfl
  | cons a attrs ih =>
    obtain ⟨k, v⟩ := a
    by_cases h : key = k
    · simp [value?, escaped, h, unescape_escape]
    · have ne : (key == k) = false := beq_false_of_ne h
      simpa [value?, escaped, List.lookup_cons, ne] using ih

theorem written_append (attrs more : Attributes) :
    written (attrs ++ more) = written attrs ++ written more := List.flatMap_append

theorem not_mem_written (keys : ∀ a ∈ attrs, '<' ∉ a.1.toList) : '<' ∉ written attrs := by
  rw [written, List.mem_flatMap]
  rintro ⟨a, ha, mem⟩
  simp [keys a ha, not_mem_escape (c := '<') (by decide) a.2] at mem

end Written

end AngularAtlas.Markup
