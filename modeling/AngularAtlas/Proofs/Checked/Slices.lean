import AngularAtlas.Text.Offset
import Mathlib.Algebra.Group.Int.Defs
import Mathlib.Algebra.Group.Nat.Defs

/-!
Slices and counters that can fail. A text is cut at byte offsets, which have to lie in it and
between two of its characters; a counter must not leave the range of its numbers. Main statement:
a text can be cut wherever a part of it starts or ends.
-/

namespace AngularAtlas

open Text

/-- What stops a scan. -/
inductive Fault where
  /-- A slice starts or ends outside the text, or inside a character. -/
  | outside (offset : Nat)
  /-- An unsigned number falls below zero. -/
  | underflow
  /-- A signed number leaves its 32 bits. -/
  | overflow
  /-- A scan goes on with a text that is not shorter. -/
  | endless
deriving Repr, DecidableEq

/-- What a scan finds, unless something stops it. -/
abbrev Checked (α : Type) := Except Fault α

namespace Checked

def sliceFrom (s : List Char) (start : Nat) : Checked (List Char) :=
  match cutAt? s start with
  | some (_, back) => .ok back
  | none => .error (.outside start)

def sliceTo (s : List Char) (stop : Nat) : Checked (List Char) :=
  match cutAt? s stop with
  | some (front, _) => .ok front
  | none => .error (.outside stop)

/-- The text between two offsets, the first of which must not be the larger one. -/
def slice (s : List Char) (start stop : Nat) : Checked (List Char) := do
  sliceFrom (← sliceTo s stop) start

def subtract (a b : Nat) : Checked Nat := if b ≤ a then .ok (a - b) else .error .underflow

/-- A signed counter of 32 bits after a step up or down. -/
def count (depth step : Int) : Checked Int :=
  if -2 ^ 31 ≤ depth + step ∧ depth + step < 2 ^ 31 then .ok (depth + step)
  else .error .overflow

variable {s t : List Char} {c : Char}

theorem sliceFrom_append (a b : List Char) : sliceFrom (a ++ b) (utf8Length a) = .ok b := by
  rw [sliceFrom, cutAt?_append]

theorem sliceTo_append (a b : List Char) : sliceTo (a ++ b) (utf8Length a) = .ok a := by
  rw [sliceTo, cutAt?_append]

theorem slice_append (a b c : List Char) :
    slice (a ++ (b ++ c)) (utf8Length a) (utf8Length a + utf8Length b) = .ok b := by
  rw [slice, ← utf8Length_append, ← List.append_assoc, sliceTo_append]
  exact sliceFrom_append a b

theorem from?_append (a b : List Char) : from? (a ++ b) (utf8Length a) = some b := by
  rw [from?, cutAt?_append]
  rfl

theorem from?_eq_some_iff {offset : Nat} :
    from? s offset = some t ↔ ∃ a, s = a ++ t ∧ utf8Length a = offset := by
  rw [from?, Option.map_eq_some_iff]
  constructor
  · rintro ⟨⟨a, b⟩, cut, rfl⟩
    exact ⟨a, cutAt?_eq_some_iff.1 cut⟩
  · rintro ⟨a, rfl, rfl⟩
    exact ⟨(a, t), cutAt?_append a t, rfl⟩

/-- The offset of a part at the end of a text. -/
def offsetOf (s rest : List Char) : Nat := utf8Length s - utf8Length rest

theorem offsetOf_append (a b : List Char) : offsetOf (a ++ b) b = utf8Length a := by
  rw [offsetOf, utf8Length_append, Nat.add_sub_cancel]

theorem from?_offsetOf (h : t <:+ s) : from? s (offsetOf s t) = some t := by
  obtain ⟨a, rfl⟩ := h
  rw [offsetOf_append, from?_append]

/-- The offset at which a match ends that takes along the first character of `rest`. -/
def matchEnd (s rest : List Char) : Nat := offsetOf s rest.tail

theorem matchEnd_append (a : List Char) (c : Char) (r : List Char) :
    matchEnd (a ++ c :: r) (c :: r) = utf8Length (a ++ [c]) := by
  rw [matchEnd, List.tail_cons, List.append_cons, offsetOf_append]

theorem subtract_matchEnd (head : t.head? = some c) (suffix : t <:+ s) (single : c.utf8Size = 1) :
    subtract (matchEnd s t) 1 = .ok (offsetOf s t) := by
  obtain ⟨r, rfl⟩ := List.head?_eq_some_iff.1 head
  obtain ⟨a, rfl⟩ := suffix
  rw [matchEnd_append, utf8Length_append, utf8Length_cons, utf8Length_nil, single, offsetOf_append,
    subtract, if_pos (Nat.le_add_left 1 _)]
  rfl

theorem count_eq_ok {depth step : Int} (h : (depth + step).natAbs < 2 ^ 31) :
    count depth step = .ok (depth + step) :=
  if_pos (by omega)

end Checked

end AngularAtlas
