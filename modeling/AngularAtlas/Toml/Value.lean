/-!
Values of a TOML document. Floating point numbers and points in time are kept as they are
written.
-/

namespace AngularAtlas.Toml

/-- How a table came to be, which decides how it can be added to. -/
inductive TableKind where
  | header
  /-- On the way to a table that a header names. -/
  | parent
  | dotted
  /-- In braces; such a table is complete. -/
  | inline
deriving Repr, DecidableEq

inductive Value where
  | text (s : String)
  | integer (n : Int)
  | float (literal : String)
  | bool (b : Bool)
  | moment (literal : String)
  | array (items : List Value)
  | table (kind : TableKind) (entries : List (String × Value))
  /-- Tables that were added one by one under one header. -/
  | tables (elements : List (List (String × Value)))
deriving Repr, Inhabited

abbrev Entries := List (String × Value)

end AngularAtlas.Toml
