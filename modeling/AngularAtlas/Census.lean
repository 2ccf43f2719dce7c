import AngularAtlas.Source.Import
import AngularAtlas.Table
import AngularAtlas.Text.Basename

namespace AngularAtlas.Census

open Text

def raise (counts : Table Nat) (specifier : String) (n : Nat) : Table Nat :=
  counts.insert specifier ((counts.get? specifier).getD 0 + n)

def countSource (counts : Table Nat) (content : String) : Table Nat :=
  (Source.importsIn content.toList).foldl (fun counts specifier => raise counts specifier 1) counts

def add (totals : Table Nat) (entries : List (String × Nat)) : Table Nat :=
  entries.foldl (fun totals entry => raise totals entry.1 entry.2) totals

/-- Entries are ordered by the last segments of their specifiers. Specifiers with the same last
segment are in their own order. -/
def precedes (a b : String × Nat) : Bool :=
  ((compareBasenames a.1.toList b.1.toList).then (compare a.1 b.1)).isLE

def sorted (entries : List (String × Nat)) : List (String × Nat) := entries.mergeSort precedes

/-- The census of some sources: each is counted on its own, and then they are added. -/
def ofSources (contents : List String) : List (String × Nat) :=
  let counted := contents.map (countSource .empty)
  sorted (counted.foldl (fun totals counts => add totals counts.entries) .empty).entries

end AngularAtlas.Census
