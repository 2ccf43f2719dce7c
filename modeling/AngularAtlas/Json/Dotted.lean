import AngularAtlas.Json.Value
import AngularAtlas.Table

namespace AngularAtlas.Json

def namePieces (name : String) : List String := (name.toList.splitOn '.').map String.ofList

def at? (value : Json) : List String → Option Json
  | [] => some value
  | key :: keys => (value.field? key).bind (·.at? keys)

def lookup? (value : Json) (name : String) : Option Json := value.at? (namePieces name)

def dotted (name key : String) : String := if name = "" then key else name ++ "." ++ key

mutual

def leavesBelow (name : String) : Json → List (String × Json)
  | .object fields => fieldLeaves name fields
  | value => [(name, value)]

def fieldLeaves (name : String) : List (String × Json) → List (String × Json)
  | [] => []
  | (key, value) :: fields => value.leavesBelow (dotted name key) ++ fieldLeaves name fields

end

/-- The leaves of a value, by their dotted names. -/
def leaves (value : Json) : List (String × Json) := value.leavesBelow ""

mutual

/-- The value with the fields of its objects in the order of their names. -/
def sorted : Json → Json
  | .array items => .array (sortedItems items)
  | .object fields => .object (sortedFields fields)
  | value => value

def sortedItems : List Json → List Json
  | [] => []
  | item :: items => item.sorted :: sortedItems items

def sortedFields : List (String × Json) → List (String × Json)
  | [] => []
  | (key, value) :: fields => putEntry key value.sorted (sortedFields fields)

end

/-- Two numbers are the same and of the same kind. -/
def Number.same : Number → Number → Bool
  | .nonnegative a, .nonnegative b => a == b
  | .negative a, .negative b => a == b
  | .float a, .float b => a == b
  | _, _ => false

mutual

def same : Json → Json → Bool
  | .null, .null => true
  | .bool a, .bool b => a == b
  | .number a, .number b => a.same b
  | .text a, .text b => a == b
  | .array a, .array b => sameItems a b
  | .object a, .object b => sameFields a b
  | _, _ => false

def sameItems : List Json → List Json → Bool
  | [], [] => true
  | a :: as, b :: bs => a.same b && sameItems as bs
  | _, _ => false

def sameFields : List (String × Json) → List (String × Json) → Bool
  | [], [] => true
  | (k, a) :: as, (l, b) :: bs => k == l && a.same b && sameFields as bs
  | _, _ => false

end

end AngularAtlas.Json
