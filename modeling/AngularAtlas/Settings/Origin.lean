import AngularAtlas.Json.Dotted
import AngularAtlas.Settings.Files
import AngularAtlas.Settings.View

namespace AngularAtlas

inductive Origin where
  | builtin
  | user
  | workspace
  | file
  | commandLine
deriving Repr, DecidableEq

def Origin.name : Origin → String
  | .builtin => "default"
  | .user => "global"
  | .workspace => "local"
  | .file => "file"
  | .commandLine => "cli"

structure ListedSetting where
  key : String
  value : Json
  origin : Origin

/-- The settings files that count, the uppermost first, and what they say together. -/
structure SettingsLayers where
  files : List (Origin × Settings)
  combined : Settings

namespace SettingsLayers

def ofFile (t : FileTree) (path : String) : Except SettingsError SettingsLayers := do
  let s ← Settings.loadFile t path {}
  return ⟨[(.file, s)], s⟩

def ofWorkspace (u : UserSettings) (t : FileTree) (workspace : String) :
    Except SettingsError SettingsLayers := do
  let there ← Settings.loadLocal t workspace
  let own ← (u.load t).1
  let combined ← (u.loadFor t workspace {}).1
  return ⟨(there.map (Origin.workspace, ·)).toList ++ (own.map (Origin.user, ·)).toList, combined⟩

def valueOf (s : Settings) (key : String) : Json := (s.json.lookup? key).getD .null

def originOf (layers : SettingsLayers) (key : String) (value : Json) : Origin :=
  if (valueOf layers.combined key).same value then
    ((layers.files.find? fun (_, s) => !(valueOf s key).same (valueOf {} key)).map (·.1)).getD
      .builtin
  else .commandLine

def list (layers : SettingsLayers) (effective : Settings) : List ListedSetting :=
  effective.json.sorted.leaves.map fun (key, value) => ⟨key, value, layers.originOf key value⟩

end SettingsLayers

namespace ListedSetting

def nameParts (key : String) : String × String :=
  match (Json.namePieces key).reverse with
  | [] => ("", key)
  | name :: groups => (".".intercalate groups.reverse, name)

/-- A line for each value, with a header before each group. The group of the line before is
given. -/
def lines (group : String) : List ListedSetting → String
  | [] => ""
  | s :: rest =>
    let (here, name) := nameParts s.key
    let header := if here = group then "" else "\n[" ++ here ++ "]\n"
    let origin := if s.origin = .builtin then "" else " (" ++ s.origin.name ++ ")"
    header ++ "  " ++ name ++ " = " ++ s.value.compact ++ origin ++ "\n" ++ lines here rest

def text (listed : List ListedSetting) : String :=
  "ngmap Configuration\n===================\n" ++ lines "" listed

def json (listed : List ListedSetting) : Json :=
  .array (listed.map fun s =>
    .object [("key", .text s.key), ("value", s.value), ("source", .text s.origin.name)])

end ListedSetting

end AngularAtlas
