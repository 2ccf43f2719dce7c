import AngularAtlas.CommandLine.Program

namespace AngularAtlas.CommandLine

partial def inputLines (input : IO.FS.Stream) : IO (List String) := do
  let line ← input.getLine
  if line.isEmpty then return []
  return (if line.endsWith "\n" then (line.dropEnd 1).toString else line) :: (← inputLines input)

def addFromOutside (t : FileTree) (path : String) : IO FileTree := do
  if path.endsWith "/" then return (t.createDirectories path).toOption.getD t
  try
    let content ← IO.FS.readBinFile path
    let t := (t.createDirectories ((Path.parent? path).getD "")).toOption.getD t
    return (t.writeBytes path content).toOption.getD t
  catch _ => return t

/-- The files that matter although nobody may have named them: those with settings and layouts. -/
def Invocation.ownFiles (env : Environment) (i : Invocation) : List String :=
  let layout := match i.command with
    | .graph _ _ layout _ => layout
    | _ => none
  [env.userSettings.path, Settings.localPath (i.options.workspace.getD "")] ++
    i.options.settingsFile.toList ++ layout.toList

def treeFromOutside (env : Environment) (i : Invocation) : IO FileTree := do
  let cwd := toString (← IO.currentDir)
  let t : FileTree := { workingDirectory := cwd }
  let t := (t.createDirectories cwd).toOption.getD t
  ((← inputLines (← IO.getStdin)) ++ i.ownFiles env).foldlM addFromOutside t

def start (args : List String) : IO UInt32 := do
  let env : Environment := {
    home := (← IO.getEnv "HOME").getD "/"
    workspace := ← IO.getEnv "NGMAP_WORKSPACE"
    settingsFile := ← IO.getEnv "NGMAP_CONFIG" }
  let request := Request.ofArguments env args
  let tree ← match request with
    | .run invocation => treeFromOutside env invocation
    | _ => pure {}
  let outcome := request.outcome env tree
  for (location, content) in tree.changedFiles outcome.session.tree do
    IO.FS.createDirAll (Location.path location.dropLast)
    IO.FS.writeBinFile location.path content
  IO.print outcome.session.output
  IO.eprint outcome.session.messages
  return outcome.exitCode.toUInt32

end AngularAtlas.CommandLine

def main (args : List String) : IO UInt32 := AngularAtlas.CommandLine.start args
