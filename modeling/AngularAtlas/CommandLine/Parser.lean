import AngularAtlas.CommandLine.Command

namespace AngularAtlas.CommandLine

inductive OptionName where
  | workspace | settingsFile | verbose | quiet | exclude | maxLabelLength | outputDirectory
  | toOutput | outputFile | format | layout | json | effective | global
  | help | version
deriving Repr, DecidableEq

structure OptionForm where
  name : OptionName
  long : String
  short : Option Char := none
  takesValue : Bool := false
deriving Repr, DecidableEq

def commonForms : List OptionForm :=
  [⟨.workspace, "workspace", some 'w', true⟩, ⟨.settingsFile, "config", some 'c', true⟩,
    ⟨.verbose, "verbose", some 'v', false⟩, ⟨.quiet, "quiet", some 'q', false⟩,
    ⟨.exclude, "exclude", none, true⟩, ⟨.maxLabelLength, "max-label-length", none, true⟩,
    ⟨.outputDirectory, "output-dir", none, true⟩, ⟨.help, "help", some 'h', false⟩,
    ⟨.version, "version", some 'V', false⟩]

def destinationForms : List OptionForm :=
  [⟨.toOutput, "stdout", none, false⟩, ⟨.outputFile, "output", some 'o', true⟩]

def formatForm : OptionForm := ⟨.format, "format", some 'f', true⟩
def layoutForm : OptionForm := ⟨.layout, "layout", none, true⟩
def jsonForm : OptionForm := ⟨.json, "json", none, false⟩
def effectiveForm : OptionForm := ⟨.effective, "effective", none, false⟩
def globalForm : OptionForm := ⟨.global, "global", none, false⟩

/-- A level of the command line: a command with the options of its own. An operand is required
where one is allowed. -/
structure Level where
  name : String
  forms : List OptionForm := []
  subcommands : List String := []
  below : String → List String := fun _ => []
  operand : Option (String → Bool) := none

namespace Level

def allForms (level : Level) : List OptionForm := level.forms ++ commonForms

end Level

def GraphKind.ofName? : String → Option GraphKind
  | "modules" => some .modules
  | "components" => some .components
  | "di" => some .injection
  | _ => none

def GraphFormat.ofName? : String → Option GraphFormat
  | "dgml" => some .dgml
  | "dot" => some .dot
  | "json" => some .json
  | _ => none

/-- Reads a count of 64 bits; a plus sign may stand before it. -/
def count? (s : String) : Option Nat :=
  let ds := match s.toList with
    | '+' :: r => r
    | ds => ds
  if ds ≠ [] ∧ ds.all Text.isAsciiDigit then
    let n := ds.foldl (fun n c => n * 10 + (c.toNat - '0'.toNat)) 0
    if n < Nat.pow 2 64 then some n else none
  else none

def OptionName.accepts (value : String) : OptionName → Bool
  | .workspace | .settingsFile | .outputDirectory | .outputFile | .layout => value ≠ ""
  | .maxLabelLength => (count? value).isSome
  | .format => (GraphFormat.ofName? value).isSome
  | _ => true

inductive Stop where
  | misuse
  | help
  | version (name : String)
deriving Repr, DecidableEq

def hasHelpOn (subcommands : List String) (name : String) : Bool :=
  subcommands ≠ [] ∧ (name = "help" ∨ subcommands.contains name)

def Level.helpOn (level : Level) : List String → Stop
  | [] => .help
  | [name] => if hasHelpOn level.subcommands name then .help else .misuse
  | [name, inner] =>
    if level.subcommands.contains name ∧ hasHelpOn (level.below name) inner then .help else .misuse
  | _ => .misuse

structure Found where
  options : List (OptionName × String) := []
  operand : Option String := none
  unchecked : Option (OptionName × String) := none
deriving Repr, DecidableEq

namespace Found

def has (f : Found) (name : OptionName) : Bool := f.options.any (·.1 == name)

def value? (f : Found) (name : OptionName) : Option String := f.options.lookup name

def values (f : Found) (name : OptionName) : List String :=
  f.options.filterMap fun (n, value) => if n = name then some value else none

def add (f : Found) (level : Level) (name : OptionName) (value : String) : Except Stop Found :=
  match name with
  | .help => .error .help
  | .version => .error (.version level.name)
  | name =>
    if name.accepts value ∧ (name = .exclude ∨ !f.has name) then
      .ok { f with options := f.options ++ [(name, value)] }
    else .error .misuse

def settle (f : Found) (level : Level) : Except Stop Found :=
  match f.unchecked with
  | some (name, value) => { f with unchecked := none }.add level name value
  | none => .ok f

def addOperand (f : Found) (level : Level) (operand : String) : Except Stop Found :=
  if f.operand.isNone ∧ level.operand.any (· operand) then .ok { f with operand := some operand }
  else .error .misuse

end Found

/-- Reads the letters of short options. An option that takes a value takes the rest as its value
or, when nothing is left, the next argument, for which it is returned. -/
def readShort (level : Level) (f : Found) : List Char → Except Stop (Found × Option OptionName)
  | [] => .ok (f, none)
  | c :: r =>
    match level.allForms.find? (·.short == some c) with
    | none => .error .misuse
    | some form =>
      if !form.takesValue then do readShort level (← f.add level form.name "") r
      else if r = [] then .ok (f, some form.name)
      else do
        let value := if r.head? = some '=' then r.tail else r
        return (← f.add level form.name (String.ofList value), none)

def readLong (level : Level) (f : Found) (s : List Char) :
    Except Stop (Found × Option OptionName) :=
  let name := s.takeWhile (· != '=')
  let value? := match s.dropWhile (· != '=') with
    | '=' :: r => some (String.ofList r)
    | _ => none
  match level.allForms.find? (·.long.toList == name) with
  | none => .error .misuse
  | some form =>
    match form.takesValue, value? with
    | true, some value => do return (← f.add level form.name value, none)
    | true, none => .ok (f, some form.name)
    | false, none => do return (← f.add level form.name "", none)
    | false, some _ => .error .misuse

/-- Reads the arguments of a level. Where a subcommand begins, reading ends, and it is returned
with the arguments behind it. `pending` is an option that waits for its value. -/
def readLevel (level : Level) (pending : Option OptionName) (f : Found) :
    List String → Except Stop (Found × Option (String × List String))
  | [] => do
    if pending.isSome then throw .misuse
    return (← f.settle level, none)
  | arg :: rest =>
    match pending, arg.toList with
    | some name, s =>
      if s.head? = some '-' ∧ s ≠ ['-'] then .error .misuse
      else readLevel level none { f with unchecked := some (name, arg) } rest
    | none, ['-', '-'] => do
      let f ← f.settle level
      return (← rest.foldlM (fun f operand => f.addOperand level operand) f, none)
    | none, '-' :: '-' :: s => do
      let (f, pending) ← readLong level (← f.settle level) s
      readLevel level pending f rest
    | none, '-' :: c :: s => do
      let (f, pending) ← readShort level (← f.settle level) (c :: s)
      readLevel level pending f rest
    | none, _ =>
      if level.subcommands.contains arg then .ok (f, some (arg, rest))
      else if arg = "help" ∧ level.subcommands ≠ [] then .error (level.helpOn rest)
      else do readLevel level none (← (← f.settle level).addOperand level arg) rest

def settingsCommandNames : List String := ["show", "get", "path", "init"]

def programLevel : Level where
  name := "ngmap"
  subcommands :=
    ["modules", "components", "graph", "imports", "dirs", "packages", "all", "config"]
  below command := if command = "config" then settingsCommandNames else []

def commandLevel (command : String) : Level :=
  let name := programLevel.name ++ "-" ++ command
  match command with
  | "graph" =>
    { name, forms := formatForm :: layoutForm :: destinationForms
      operand := some fun kind => (GraphKind.ofName? kind).isSome }
  | "all" => { name, forms := [formatForm] }
  | "config" => { name, subcommands := settingsCommandNames }
  | _ => { name, forms := destinationForms }

def settingsLevel (command : String) : Level :=
  let name := (commandLevel "config").name ++ "-" ++ command
  match command with
  | "show" => { name, forms := [jsonForm, effectiveForm] }
  | "get" => { name, forms := [jsonForm], operand := some fun _ => true }
  | "path" => { name, forms := [jsonForm] }
  | _ => { name, forms := [globalForm] }

def destination? (f : Found) : Option Destination :=
  if f.has .toOutput ∧ f.has .outputFile then none
  else some ⟨f.has .toOutput, f.value? .outputFile⟩

def graphFormat (f : Found) : GraphFormat :=
  ((f.value? .format).bind GraphFormat.ofName?).getD .dgml

def command? (name : String) (f : Found) : Option Command :=
  match name with
  | "modules" => (destination? f).map .modules
  | "components" => (destination? f).map .components
  | "graph" => do
    let kind ← f.operand.bind GraphKind.ofName?
    return .graph kind (graphFormat f) (f.value? .layout) (← destination? f)
  | "imports" => (destination? f).map .imports
  | "dirs" => (destination? f).map .directories
  | "packages" => (destination? f).map .packages
  | "all" => some (.all (graphFormat f))
  | _ => none

def settingsCommand? (name : String) (f : Found) : Option SettingsCommand :=
  match name with
  | "show" => some (.list (f.has .json) (f.has .effective))
  | "get" => f.operand.map fun key => .get key (f.has .json)
  | "path" => some (.path (f.has .json))
  | "init" => some (.create (f.has .global))
  | _ => none

def innermost (levels : List Found) (name : OptionName) : List String :=
  match levels.reverse.find? (·.has name) with
  | some f => f.values name
  | none => []

/-- The value of an option that may also be given by the environment. Every level looks there if
it does not have the option, so a value there has to be acceptable unless they all have it. -/
def withEnvironment (levels : List Found) (name : OptionName) (given : Option String) :
    Option (Option String) :=
  match given with
  | some value =>
    if levels.all (·.has name) ∨ name.accepts value then
      some (some ((innermost levels name).head?.getD value))
    else none
  | none => some (innermost levels name).head?

def commaSeparated (s : String) : List String := (s.toList.splitOn ',').map String.ofList

def commonOptions? (env : Environment) (levels : List Found) : Option CommonOptions := do
  let workspace ← withEnvironment levels .workspace env.workspace
  let settingsFile ← withEnvironment levels .settingsFile env.settingsFile
  return {
    workspace, settingsFile
    isQuiet := levels.any (·.has .quiet)
    overrides := {
      excludes := (innermost levels .exclude).flatMap commaSeparated
      maxLabelLength := (innermost levels .maxLabelLength).head?.bind count?
      directory := (innermost levels .outputDirectory).head? } }

def invocation? (env : Environment) (args : List String) : Except Stop (Option Invocation) := do
  let (outer, sub) ← readLevel programLevel none {} args
  match sub with
  | none => return none
  | some (name, rest) =>
    let (found, sub) ← readLevel (commandLevel name) none {} rest
    match sub with
    | none =>
      let outer ← outer.settle programLevel
      return do return ⟨← command? name found, ← commonOptions? env [outer, found]⟩
    | some (inside, rest) =>
      let (inner, _) ← readLevel (settingsLevel inside) none {} rest
      let found ← found.settle (commandLevel name)
      let outer ← outer.settle programLevel
      return do
        return ⟨.settings (← settingsCommand? inside inner),
          ← commonOptions? env [outer, found, inner]⟩

def Request.ofArguments (env : Environment) (args : List String) : Request :=
  match invocation? env args with
  | .ok (some invocation) => .run invocation
  | .ok none | .error .misuse => .misuse
  | .error .help => .help
  | .error (.version name) => .version name

end AngularAtlas.CommandLine
