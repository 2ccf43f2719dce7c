import AngularAtlas.CommandLine.Parser
import AngularAtlas.CommandLine.SettingsCommands

namespace AngularAtlas.CommandLine

def Invocation.run (env : Environment) (i : Invocation) : Run Unit :=
  match i.command with
  | .settings command => command.run env i.options
  | command => do
    let task ← Task.ofOptions env i.options
    match command with
    | .modules destination => task.writeModules destination
    | .components destination => task.writeComponents destination
    | .graph kind format layout destination =>
      task.writeGraph kind format layout destination
    | .imports destination => task.writeImports destination
    | .directories destination => task.writeDirectories destination
    | .packages destination => task.writePackages destination
    | .all format => task.writeAll format
    | .settings _ => pure ()

def usage : String :=
  "Usage: ngmap [OPTIONS] <COMMAND>\n\n" ++
  "Commands:\n" ++
  "  modules                   Write the modules overview\n" ++
  "  components                Write the component hierarchy\n" ++
  "  graph <modules|components|di>\n" ++
  "                            Write a graph (-f, --format <dgml|dot|json>; --layout <FILE>)\n" ++
  "  imports                   Write the import counts\n" ++
  "  dirs                      Write the list of directories\n" ++
  "  packages                  Write the package.json dependencies\n" ++
  "  all                       Write all of these (-f, --format <dgml|dot|json>)\n" ++
  "  config show               Show the settings (--json, --effective)\n" ++
  "  config get <KEY>          Show one setting (--json)\n" ++
  "  config path               Show where the settings files are (--json)\n" ++
  "  config init               Create a settings file (--global)\n\n" ++
  "Reports go to a file, or elsewhere with --stdout or -o, --output <FILE>.\n\n" ++
  "Options:\n" ++
  "  -w, --workspace <DIR>         The workspace instead of the current directory\n" ++
  "  -c, --config <FILE>           A settings file instead of the usual ones\n" ++
  "  -v, --verbose                 Say more\n" ++
  "  -q, --quiet                   Say less\n" ++
  "      --exclude <NAMES>         More directories to pass over, between commas\n" ++
  "      --max-label-length <N>    Cut longer labels in graphs\n" ++
  "      --output-dir <DIR>        The directory for reports\n" ++
  "  -h, --help                    Show this text\n" ++
  "  -V, --version                 Show the version\n"

def versionNumber : String := "0.1.0"

structure Outcome where
  exitCode : Nat
  session : Session
deriving Inhabited

/-- The exit code after a failure, and the one after a command line that makes no sense. -/
def failureCode : Nat := 1
def misuseCode : Nat := 2

def Request.outcome (env : Environment) (tree : FileTree) : Request → Outcome
  | .run invocation =>
    match (invocation.run env).run ⟨tree, "", ""⟩ with
    | (.ok (), session) => ⟨0, session⟩
    | (.error f, session) =>
      ⟨failureCode, { session with messages := session.messages ++ f.report }⟩
  | .version name => ⟨0, ⟨tree, name ++ " " ++ versionNumber ++ "\n", ""⟩⟩
  | .help => ⟨0, ⟨tree, usage, ""⟩⟩
  | .misuse => ⟨misuseCode, ⟨tree, "", usage⟩⟩

def runProgram (env : Environment) (tree : FileTree) (args : List String) : Outcome :=
  (Request.ofArguments env args).outcome env tree

end AngularAtlas.CommandLine
