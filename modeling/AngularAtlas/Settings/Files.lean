import AngularAtlas.FileTree
import AngularAtlas.Settings.Reader
import AngularAtlas.Settings.Writer

namespace AngularAtlas

inductive SettingsError where
  | unreadable (path : String) (cause : FileError)
  | malformed (path : String)
  | unwritable (path : String) (cause : FileError)
  | noDirectory (path : String) (cause : FileError)
  | unprintable (cause : Settings.WriteError)
  | invalid (cause : InvalidSetting)
deriving Repr, DecidableEq

namespace SettingsError

def malformedText : String := "<toml error>"

def message : SettingsError → String
  | .unreadable path cause => "cannot read ngmap config '" ++ path ++ "': " ++ cause.message
  | .malformed path => "invalid TOML in ngmap config '" ++ path ++ "': " ++ malformedText
  | .unwritable path cause => "cannot write ngmap config '" ++ path ++ "': " ++ cause.message
  | .noDirectory path cause => "cannot create config directory '" ++ path ++ "': " ++ cause.message
  | .unprintable cause => "cannot render config as TOML: " ++ cause.message
  | .invalid cause => cause.message

def cause? : SettingsError → Option String
  | .unreadable _ cause | .unwritable _ cause | .noDirectory _ cause => some cause.message
  | .malformed _ => some malformedText
  | .unprintable cause => some cause.message
  | .invalid _ => none

end SettingsError

namespace Settings

def directoryName : String := ".ngmap"

def fileIn (directory : String) : String := Path.join directory "config.toml"

def localPath (workspace : String) : String := fileIn (Path.join workspace directoryName)

def readFile (t : FileTree) (path : String) : Except SettingsError Settings :=
  match t.readText path with
  | .error cause => .error (.unreadable path cause)
  | .ok text =>
    match ofToml? text with
    | none => .error (.malformed path)
    | some s => .ok s

def readIfPresent (t : FileTree) (path : String) : Except SettingsError (Option Settings) :=
  if t.pathExists path then (readFile t path).map some else .ok none

def loadLocal (t : FileTree) (workspace : String) : Except SettingsError (Option Settings) :=
  readIfPresent t (localPath workspace)

def finish (s : Settings) (overrides : Overrides) : Except SettingsError Settings :=
  let s := s.override overrides
  match s.validate with
  | .ok () => .ok s
  | .error cause => .error (.invalid cause)

/-- The built-in settings with those of some files over them, from the lowest one up. -/
def layered (files : List (Option Settings)) : Settings :=
  files.foldl (fun lower file => match file with
    | none => lower
    | some upper => upper.laidOver lower) {}

def loadFile (t : FileTree) (path : String) (overrides : Overrides) :
    Except SettingsError Settings := do
  finish (layered [some (← readFile t path)]) overrides

def ensureDirectory (t : FileTree) (path : String) : Except SettingsError FileTree :=
  if t.pathExists path then .ok t
  else (t.createDirectories path).mapError (.noDirectory path)

def save (s : Settings) (t : FileTree) (path : String) : Except SettingsError FileTree := do
  let t ← match Path.parent? path with
    | some parent => ensureDirectory t parent
    | none => pure t
  let text ← s.toToml.mapError .unprintable
  (t.write path text).mapError (.unwritable path)

/-- Writes the built-in settings to the file of a directory, unless there is one. -/
def createIn (t : FileTree) (directory : String) : Except SettingsError FileTree := do
  let t ← ensureDirectory t directory
  if t.pathExists (fileIn directory) then return t
  save {} t (fileIn directory)

end Settings

structure UserSettings where
  directory : String
  known : Option Settings := none
deriving Inhabited

namespace UserSettings

def path (u : UserSettings) : String := Settings.fileIn u.directory

def load (u : UserSettings) (t : FileTree) :
    Except SettingsError (Option Settings) × UserSettings :=
  match u.known with
  | some s => (.ok (some s), u)
  | none =>
    match Settings.readIfPresent t u.path with
    | .ok found => (.ok found, { u with known := found })
    | .error e => (.error e, u)

def forget (u : UserSettings) : UserSettings := { u with known := none }

def loadFor (u : UserSettings) (t : FileTree) (workspace : String) (overrides : Overrides) :
    Except SettingsError Settings × UserSettings :=
  let (own, u) := u.load t
  let loaded := do
    let own ← own
    let there ← Settings.loadLocal t workspace
    Settings.finish (Settings.layered [own, there]) overrides
  (loaded, u)

end UserSettings

end AngularAtlas
