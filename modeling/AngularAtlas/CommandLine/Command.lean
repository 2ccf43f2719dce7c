import AngularAtlas.Settings.Basic

namespace AngularAtlas.CommandLine

inductive GraphKind where
  | modules
  | components
  | injection
deriving Repr, DecidableEq

def GraphKind.all : List GraphKind := [.modules, .components, .injection]

inductive GraphFormat where
  | dgml
  | dot
  | json
deriving Repr, DecidableEq

/-- The name of a form, which is also the extension of its files. -/
def GraphFormat.name : GraphFormat → String
  | .dgml => "dgml"
  | .dot => "dot"
  | .json => "json"

structure Destination where
  toOutput : Bool := false
  file : Option String := none
deriving Repr, DecidableEq

inductive SettingsCommand where
  | list (asJson isEffective : Bool)
  | get (key : String) (asJson : Bool)
  | path (asJson : Bool)
  | create (isGlobal : Bool)
deriving Repr, DecidableEq

inductive Command where
  | modules (destination : Destination)
  | components (destination : Destination)
  | graph (kind : GraphKind) (format : GraphFormat) (layout : Option String)
      (destination : Destination)
  | imports (destination : Destination)
  | directories (destination : Destination)
  | packages (destination : Destination)
  | all (format : GraphFormat)
  | settings (command : SettingsCommand)
deriving Repr, DecidableEq

structure CommonOptions where
  workspace : Option String := none
  /-- A settings file that replaces the user's own and that of the workspace. -/
  settingsFile : Option String := none
  isQuiet : Bool := false
  overrides : Overrides := {}
deriving Repr, DecidableEq

structure Invocation where
  command : Command
  options : CommonOptions
deriving Repr, DecidableEq

inductive Request where
  | run (invocation : Invocation)
  /-- The version is asked for, by the name of a command. -/
  | version (name : String)
  | help
  | misuse
deriving Repr, DecidableEq

structure Environment where
  home : String
  workspace : Option String := none
  settingsFile : Option String := none
deriving Repr, DecidableEq

end AngularAtlas.CommandLine
