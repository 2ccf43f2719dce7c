import AngularAtlas.Toml.Reader

namespace AngularAtlas.Toml

/-- Changes the table under a path of headers. Tables on the way that are missing are created,
and in an array of tables the last one is meant. -/
def within (change : Entries → Option Entries) : List String → Entries → Option Entries
  | [], entries => change entries
  | key :: path, entries =>
    let replace := fun (new : Value) =>
      entries.map fun (k, v) => if k = key then (k, new) else (k, v)
    match entries.lookup key with
    | none => (within change path []).map fun sub => entries ++ [(key, .table .parent sub)]
    | some (.table kind sub) =>
      if kind = .inline then none
      else (within change path sub).map fun sub => replace (.table kind sub)
    | some (.tables elements) =>
      (within change path (elements.getLast?.getD [])).map fun sub =>
        replace (.tables (elements.dropLast ++ [sub]))
    | some _ => none

/-- Starts the table of a header. It must not have been started before. -/
def startTable (key : String) (entries : Entries) : Option Entries :=
  match entries.lookup key with
  | none => some (entries ++ [(key, .table .header [])])
  | some (.table .parent sub) =>
    some (entries.map fun (k, v) => if k = key then (k, .table .header sub) else (k, v))
  | some _ => none

def startElement (key : String) (entries : Entries) : Option Entries :=
  match entries.lookup key with
  | none => some (entries ++ [(key, .tables [[]])])
  | some (.tables elements) =>
    some (entries.map fun (k, v) => if k = key then (k, .tables (elements ++ [[]])) else (k, v))
  | some _ => none

structure Draft where
  root : Entries := []
  header : List String := []

def Draft.add (d : Draft) : Statement → Option Draft
  | .assignment path value => do
    return { d with root := ← within (assign value path) d.header d.root }
  | .table path => do
    let root ← within (startTable (path.getLast?.getD "")) path.dropLast d.root
    return { root, header := path }
  | .element path => do
    let root ← within (startElement (path.getLast?.getD "")) path.dropLast d.root
    return { root, header := path }

def ofStatements? (statements : List Statement) : Option Entries :=
  (statements.foldlM Draft.add {}).map (·.root)

def document? (text : String) : Option Entries :=
  let s := match text.toList with
    | '\ufeff' :: r => r
    | s => s
  (statements? s).bind ofStatements?

end AngularAtlas.Toml
