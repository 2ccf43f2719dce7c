import AngularAtlas.Settings.Schema
import AngularAtlas.Toml.Quoted

namespace AngularAtlas

inductive Settings.WriteError where
  /-- A number has more than the 63 bits of a positive integer. -/
  | outOfRange
deriving Repr, DecidableEq

def Settings.WriteError.message : Settings.WriteError → String
  | .outOfRange => "out-of-range value for u64 type"

namespace Setting

def writeTexts (items : List String) : String :=
  let items := items.map fun item => String.ofList (Toml.quote item.toList)
  match items with
  | [] => "[]"
  | [item] => "[" ++ item ++ "]"
  | items => "[\n" ++ String.join (items.map fun item => "    " ++ item ++ ",\n") ++ "]"

def writeText (s : String) : String := String.ofList (Toml.quote s.toList)

def write? (s : Settings) : Setting → Except Settings.WriteError (Option String)
  | .excludes => return some (writeTexts s.excludes)
  | .maxLabelLength =>
    match s.maxLabelLength with
    | none => return none
    | some n => if n < Nat.pow 2 63 then return some (toString n) else throw .outOfRange
  | .text key => return some (writeText (s.text key))
  | .directory => return s.directory.map writeText
  | .logFormat => return some (writeText s.logFormat.name)

def line (s : Settings) (name : String) (setting : Setting) :
    Except Settings.WriteError String := do
  match ← setting.write? s with
  | some value => return name ++ " = " ++ value ++ "\n"
  | none => return ""

end Setting

namespace Schema

mutual

/-- The tables of a group under a header: its own settings first, then the groups in it. -/
def tables (s : Settings) (header : String) : Schema → Except Settings.WriteError (List String)
  | .setting _ => return []
  | .group parts => do
    return ("[" ++ header ++ "]\n" ++ (← ownLines s parts)) :: (← innerTables s header parts)

def ownLines (s : Settings) : List (String × Schema) → Except Settings.WriteError String
  | [] => return ""
  | (name, .setting which) :: parts => do
    return (← which.line s name) ++ (← ownLines s parts)
  | (_, .group _) :: parts => ownLines s parts

def innerTables (s : Settings) (header : String) :
    List (String × Schema) → Except Settings.WriteError (List String)
  | [] => return []
  | (name, part) :: parts => do
    return (← part.tables s (if header = "" then name else header ++ "." ++ name)) ++
      (← innerTables s header parts)

end

end Schema

def Settings.toToml (s : Settings) : Except Settings.WriteError String := do
  return "\n".intercalate (← Schema.innerTables s "" Schema.settingsParts)

end AngularAtlas
