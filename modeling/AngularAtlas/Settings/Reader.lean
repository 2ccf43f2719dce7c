import AngularAtlas.Settings.Schema
import AngularAtlas.Toml.Document

namespace AngularAtlas

def Toml.Value.isVoid : Toml.Value → Bool
  | .array items => items.isEmpty
  | .table _ entries => entries.isEmpty
  | .tables elements => elements.isEmpty
  | _ => false

def Toml.Value.text? : Toml.Value → Option String
  | .text s => some s
  | _ => none

namespace Setting

def logFormat? : Toml.Value → Option LogFormat
  | .text name => LogFormat.ofName? name
  | .table _ [(name, value)] => if value.isVoid then LogFormat.ofName? name else none
  | _ => none

def read? (setting : Setting) (value : Toml.Value) (s : Settings) : Option Settings :=
  match setting with
  | .excludes => do
    match value with
    | .array items => return { s with excludes := ← items.mapM (·.text?) }
    | _ => none
  | .maxLabelLength => do
    match value with
    | .integer n => if 0 ≤ n then some { s with maxLabelLength := some n.toNat } else none
    | _ => none
  | .text key => value.text?.map (s.setText key)
  | .directory => value.text?.map fun path => { s with directory := some path }
  | .logFormat => (logFormat? value).map fun format => { s with logFormat := format }

end Setting

namespace Schema

mutual

/-- Changes the settings of a schema to those of a value. A group is a table, in which unknown
names do not count, or an array with its parts in order; a point in time is a group with nothing
in it. -/
def read? (value : Toml.Value) (s : Settings) : Schema → Option Settings
  | .setting which => which.read? value s
  | .group parts =>
    match value with
    | .table _ entries => readNamed? entries s parts
    | .array items => readInOrder? items s parts
    | .tables elements => readInOrder? (elements.map (.table .header)) s parts
    | .moment _ => some s
    | _ => none

def readNamed? (entries : Toml.Entries) (s : Settings) :
    List (String × Schema) → Option Settings
  | [] => some s
  | (name, part) :: parts => do
    let s ← match entries.lookup name with
      | none => some s
      | some value => part.read? value s
    readNamed? entries s parts

def readInOrder? (items : List Toml.Value) (s : Settings) :
    List (String × Schema) → Option Settings
  | [] => some s
  | (_, part) :: parts =>
    match items with
    | [] => some s
    | value :: items => do readInOrder? items (← part.read? value s) parts

end

end Schema

/-- Reads settings. What a text does not set has its built-in value. -/
def Settings.ofToml? (text : String) : Option Settings := do
  Schema.readNamed? (← Toml.document? text) {} Schema.settingsParts

end AngularAtlas
