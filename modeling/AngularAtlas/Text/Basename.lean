import AngularAtlas.Text.Case

namespace AngularAtlas.Text

def basename (s : List Char) : List Char :=
  (s.reverse.takeWhile fun c => c != '/' && c != '\\').reverse

def basenameKey (s : List Char) : List Char := upper (basename s)

def compareChars : List Char → List Char → Ordering
  | [], [] => .eq
  | [], _ :: _ => .lt
  | _ :: _, [] => .gt
  | a :: r, b :: s =>
    if a.toNat < b.toNat then .lt else if b.toNat < a.toNat then .gt else compareChars r s

def compareBasenames (a b : List Char) : Ordering :=
  compareChars (basenameKey a) (basenameKey b)

/-- The names by their last segments; names with the same last segment keep their order. -/
def sortByBasename (names : List String) : List String :=
  let keyed := names.map fun name => (basenameKey name.toList, name)
  (keyed.mergeSort fun a b => (compareChars a.1 b.1).isLE).map (·.2)

end AngularAtlas.Text
