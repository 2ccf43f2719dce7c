import AngularAtlas.Text.Offset

namespace AngularAtlas.Source

def closer? : Char → Option Char
  | '[' => some ']'
  | '{' => some '}'
  | '(' => some ')'
  | '<' => some '>'
  | _ => none

/-- The text before and after the bracket that closes the one in front of the text, when
`depth` more of its kind have been opened since. -/
def splitAtClose (opener closer : Char) : Nat → List Char → Option (List Char × List Char)
  | _, [] => none
  | depth, c :: r =>
    if c = opener then
      (splitAtClose opener closer (depth + 1) r).map fun (a, b) => (c :: a, b)
    else if c = closer then
      match depth with
      | 0 => some ([], r)
      | depth + 1 => (splitAtClose opener closer depth r).map fun (a, b) => (c :: a, b)
    else (splitAtClose opener closer depth r).map fun (a, b) => (c :: a, b)

def balanced? : List Char → Option (List Char × List Char)
  | [] => none
  | c :: r => (closer? c).bind fun closer => splitAtClose c closer 0 r

/-- The byte offset of the bracket that closes the one at `offset`. -/
def closingOffset? (s : List Char) (offset : Nat) : Option Nat := do
  let (inside, _) ← balanced? (← Text.from? s offset)
  return offset + 1 + Text.utf8Length inside

def insideBracket? (s : List Char) (offset : Nat) : Option (List Char) := do
  let (inside, _) ← balanced? (← Text.from? s offset)
  return inside

theorem splitAtClose_append {opener closer : Char} {depth : Nat} {s a b : List Char}
    (h : splitAtClose opener closer depth s = some (a, b)) : a ++ closer :: b = s := by
  induction s generalizing depth a b with
  | nil => simp [splitAtClose] at h
  | cons c s ih =>
    simp only [splitAtClose] at h
    split at h
    · obtain ⟨⟨a', b'⟩, h', he⟩ := Option.map_eq_some_iff.1 h
      obtain ⟨rfl, rfl⟩ := Prod.mk.inj he
      rw [List.cons_append, ih h']
    · split at h
      case isTrue hc =>
        cases depth with
        | zero =>
          obtain ⟨rfl, rfl⟩ := Prod.mk.inj (Option.some.inj h)
          rw [hc, List.nil_append]
        | succ depth =>
          obtain ⟨⟨a', b'⟩, h', he⟩ := Option.map_eq_some_iff.1 h
          obtain ⟨rfl, rfl⟩ := Prod.mk.inj he
          rw [List.cons_append, ih h']
      case isFalse =>
        obtain ⟨⟨a', b'⟩, h', he⟩ := Option.map_eq_some_iff.1 h
        obtain ⟨rfl, rfl⟩ := Prod.mk.inj he
        rw [List.cons_append, ih h']

theorem balanced?_length {s a b : List Char} (h : balanced? s = some (a, b)) :
    a.length + b.length + 2 = s.length := by
  cases s with
  | nil => simp [balanced?] at h
  | cons c s =>
    obtain ⟨closer, -, h⟩ := Option.bind_eq_some_iff.1 h
    have := congrArg List.length (splitAtClose_append h)
    simp only [List.length_append, List.length_cons] at this ⊢
    omega

end AngularAtlas.Source
