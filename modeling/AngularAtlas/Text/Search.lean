namespace AngularAtlas.Text

abbrev Reader (α : Type) := Option Char → List Char → Option (α × List Char)

/-- All that a reader finds from left to right, after `skip` characters. The search goes on
behind each find. -/
def findAllFrom {α : Type} (read : Reader α) : Nat → Option Char → List Char → List α
  | _, _, [] => []
  | skip + 1, _, c :: r => findAllFrom read skip (some c) r
  | 0, before, c :: r =>
    match read before (c :: r) with
    | some (a, rest) => a :: findAllFrom read (r.length - rest.length) (some c) r
    | none => findAllFrom read 0 (some c) r

def findAll {α : Type} (read : Reader α) (s : List Char) : List α := findAllFrom read 0 none s

def findFirstFrom? {α : Type} (read : Reader α) : Option Char → List Char → Option (α × List Char)
  | _, [] => none
  | before, c :: r =>
    match read before (c :: r) with
    | some found => some found
    | none => findFirstFrom? read (some c) r

def findFirst? {α : Type} (read : Reader α) (s : List Char) : Option (α × List Char) :=
  findFirstFrom? read none s

def afterAny? (starts : List (List Char)) (s : List Char) : Option (List Char) :=
  starts.findSome? (·.isPrefixOf? s)

def afterChar? (c : Char) : List Char → Option (List Char)
  | [] => none
  | d :: r => if c = d then some r else none

def contains (word : List Char) : List Char → Bool
  | [] => word.isEmpty
  | c :: r => word.isPrefixOf (c :: r) || contains word r

theorem isPrefixOf?_append {w s r : List Char} (h : w.isPrefixOf? s = some r) : w ++ r = s := by
  induction w generalizing s with
  | nil =>
    have hs : some s = some r := h
    rw [List.nil_append, Option.some.inj hs]
  | cons c w ih =>
    cases s with
    | nil =>
      have hn : none = some r := h
      cases hn
    | cons d s =>
      have hd : (if c == d then w.isPrefixOf? s else none) = some r := h
      split at hd
      case isTrue hc => rw [List.cons_append, ih hd, eq_of_beq hc]
      case isFalse => cases hd

end AngularAtlas.Text
