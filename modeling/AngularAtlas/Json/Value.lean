import AngularAtlas.Decimal.Float

/-!
JSON values and how they are written.
-/

namespace AngularAtlas

namespace Json

/-- A number: an integer of up to 64 bits, or a floating point number. -/
inductive Number where
  | nonnegative (n : Nat)
  /-- The negative of a positive number. -/
  | negative (n : Nat)
  | float (x : Float)
deriving Repr, Inhabited

end Json

inductive Json where
  | null
  | bool (value : Bool)
  | number (value : Json.Number)
  | text (value : String)
  | array (items : List Json)
  | object (fields : List (String × Json))
deriving Repr, Inhabited

namespace Json

/-- Floating point numbers always show a point or an exponent; plain notation ends below 10^16
and starts at 10^-5. -/
def floatLayout : Decimal.Layout := ⟨.even, some 16, -4, true⟩

def Number.format : Number → String
  | .nonnegative n => String.ofList (Decimal.digits n)
  | .negative n => String.ofList ('-' :: Decimal.digits n)
  | .float x => if x.isFinite then floatLayout.format x else "null"

def hexPair (n : Nat) : List Char := [Nat.digitChar (n / 16), Nat.digitChar (n % 16)]

def escapeChar (c : Char) : List Char :=
  match c with
  | '"' => ['\\', '"']
  | '\\' => ['\\', '\\']
  | '\x08' => ['\\', 'b']
  | '\x0c' => ['\\', 'f']
  | '\n' => ['\\', 'n']
  | '\r' => ['\\', 'r']
  | '\t' => ['\\', 't']
  | c => if c.toNat < 0x20 then "\\u00".toList ++ hexPair c.toNat else [c]

def quote (s : String) : String :=
  String.ofList ('"' :: s.toList.flatMap escapeChar ++ ['"'])

def compact : Json → String
  | .null => "null"
  | .bool true => "true"
  | .bool false => "false"
  | .number n => n.format
  | .text s => quote s
  | .array items =>
    "[" ++ ",".intercalate (items.attach.map fun ⟨item, _⟩ => item.compact) ++ "]"
  | .object fields =>
    "\x7b" ++ ",".intercalate (fields.attach.map fun ⟨(key, value), _⟩ =>
      quote key ++ ":" ++ value.compact) ++ "\x7d"
termination_by v => sizeOf v
decreasing_by
  · have := List.sizeOf_lt_of_mem ‹_›
    simp only [array.sizeOf_spec]
    omega
  · have := List.sizeOf_lt_of_mem ‹_›
    simp only [object.sizeOf_spec, Prod.mk.sizeOf_spec] at this ⊢
    omega

def lineBreak (depth : Nat) : String := String.ofList ('\n' :: List.replicate (2 * depth) ' ')

def spread (opener closer : String) (depth : Nat) (parts : List String) : String :=
  if parts = [] then opener ++ closer
  else
    opener ++ lineBreak (depth + 1) ++ ("," ++ lineBreak (depth + 1)).intercalate parts ++
      lineBreak depth ++ closer

def prettyAt (depth : Nat) : Json → String
  | .array items =>
    spread "[" "]" depth (items.attach.map fun ⟨item, _⟩ => item.prettyAt (depth + 1))
  | .object fields =>
    spread "\x7b" "\x7d" depth (fields.attach.map fun ⟨(key, value), _⟩ =>
      quote key ++ ": " ++ value.prettyAt (depth + 1))
  | value => value.compact
termination_by v => sizeOf v
decreasing_by
  · have := List.sizeOf_lt_of_mem ‹_›
    simp only [array.sizeOf_spec]
    omega
  · have := List.sizeOf_lt_of_mem ‹_›
    simp only [object.sizeOf_spec, Prod.mk.sizeOf_spec] at this ⊢
    omega

def pretty (value : Json) : String := value.prettyAt 0

def field? (value : Json) (key : String) : Option Json :=
  match value with
  | .object fields => fields.lookup key
  | _ => none

end Json

end AngularAtlas
