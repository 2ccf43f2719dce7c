import AngularAtlas.CommandLine.Reports
import AngularAtlas.Settings.Origin

namespace AngularAtlas.CommandLine

open Run

def plainFailure (e : SettingsError) : Failure := ⟨e.message, e.cause?.toList⟩

def loadLayers (env : Environment) (options : CommonOptions) (root : Location) :
    Run SettingsLayers := do
  let t ← tree
  match options.settingsFile with
  | some path => orFail (settingsFileFailure path) (SettingsLayers.ofFile t path)
  | none => orFail plainFailure (SettingsLayers.ofWorkspace env.userSettings t root.path)

def printJson (value : Json) : Run Unit := print (value.pretty ++ "\n")

/-- Prints the settings in effect, with their origins unless only the values are wanted. -/
def listSettings (env : Environment) (options : CommonOptions) (asJson isEffective : Bool) :
    Run Unit := do
  let root ← workspaceRoot options
  let s ← loadSettings env options root
  match isEffective, asJson with
  | true, true => printJson s.json
  | true, false => print (← orFail (fun e => plainFailure (.unprintable e)) s.toToml)
  | false, _ =>
    let listed := (← loadLayers env options root).list s
    if asJson then printJson (ListedSetting.json listed) else print (ListedSetting.text listed)

/-- A value as it is shown to the user: a text without its quotes. -/
def shownValue : Json → String
  | .text s => s
  | value => value.pretty

def getSetting (env : Environment) (options : CommonOptions) (key : String) (asJson : Bool) :
    Run Unit := do
  let s ← loadSettings env options (← workspaceRoot options)
  match s.json.sorted.lookup? key with
  | none => throw ⟨"Unknown configuration key: " ++ key, []⟩
  | some value => if asJson then printJson value else print (shownValue value ++ "\n")

def printPaths (env : Environment) (options : CommonOptions) (asJson : Bool) : Run Unit := do
  let own := env.userSettings.path
  let there := Settings.localPath (← workspaceRoot options).path
  let t ← tree
  if asJson then
    printJson (.object [("global", .text own), ("local", .text there),
      ("global_exists", .bool (t.pathExists own)), ("local_exists", .bool (t.pathExists there))])
  else
    let state := fun path => if t.pathExists path then "exists" else "not found"
    print ("Configuration Paths\n===================\n\nGlobal: " ++ own ++ " (" ++ state own ++
      ")\nLocal:  " ++ there ++ " (" ++ state there ++ ")\n")
    match options.settingsFile with
    | none => pure ()
    | some path => print ("File:   " ++ path ++ " (--config, replaces both)\n")

def createSettings (env : Environment) (options : CommonOptions) (isGlobal : Bool) : Run Unit := do
  let (directory, what) ←
    if isGlobal then pure (env.userSettings.directory, "Failed to create global config")
    else do
      let root ← workspaceRoot options
      pure (Path.join root.path Settings.directoryName, "Failed to create local config")
  setTree (← orFail (settingsFailure what) (Settings.createIn (← tree) directory))
  if !options.isQuiet then print ("Config file: " ++ Settings.fileIn directory ++ "\n")

def SettingsCommand.run (env : Environment) (options : CommonOptions) :
    SettingsCommand → Run Unit
  | .list asJson isEffective => listSettings env options asJson isEffective
  | .get key asJson => getSetting env options key asJson
  | .path asJson => printPaths env options asJson
  | .create isGlobal => createSettings env options isGlobal

end AngularAtlas.CommandLine
