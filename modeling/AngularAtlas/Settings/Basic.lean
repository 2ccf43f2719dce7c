import AngularAtlas.Export.Dgml
import AngularAtlas.Workspace

/-!
Settings: which directories are passed over, how graphs look, where reports go, and how much is
logged. Settings come in layers, and what a later layer sets to something other than the built-in
value counts.
-/

namespace AngularAtlas

inductive TextKey where
  | dgmlRootColor | arrowHead
  | rootColor | componentColor | moduleColor | pipeColor | directiveColor | injectableColor
  | importColor | exportColor | injectionColor | usesColor | routeColor
  | rootShape | componentShape | moduleShape | pipeShape | directiveShape | injectableShape
  | layout | direction | zoomLevel
  | modulesFile | componentsFile | moduleGraphFile | componentGraphFile | injectionGraphFile
  | importsFile | directoriesFile | packagesFile
  | logLevel
deriving Repr, DecidableEq

def TextKey.builtin (key : TextKey) : String :=
  let style : GraphStyle := {}
  let options : Dgml.Options := {}
  match key with
  | .dgmlRootColor => style.dgmlRootColor
  | .arrowHead => style.arrowHead
  | .rootColor => style.rootColor
  | .componentColor => style.componentColor
  | .moduleColor => style.moduleColor
  | .pipeColor => style.pipeColor
  | .directiveColor => style.directiveColor
  | .injectableColor => style.injectableColor
  | .importColor => style.importColor
  | .exportColor => style.exportColor
  | .injectionColor => style.injectionColor
  | .usesColor => style.usesColor
  | .routeColor => style.routeColor
  | .rootShape => style.rootShape
  | .componentShape => style.componentShape
  | .moduleShape => style.moduleShape
  | .pipeShape => style.pipeShape
  | .directiveShape => style.directiveShape
  | .injectableShape => style.injectableShape
  | .layout => options.layout
  | .direction => options.direction
  | .zoomLevel => options.zoomLevel
  | .modulesFile => "ReadMe-Modules.md"
  | .componentsFile => "ComponentHierarchy.md"
  | .moduleGraphFile => "ReadMe-ProjectStructure"
  | .componentGraphFile => "ReadMe-ComponentHierarchy"
  | .injectionGraphFile => "ReadMe-DependencyInjection"
  | .importsFile => "ReadMe-Imports.txt"
  | .directoriesFile => "ReadMe-ProjectDirectoryStructure.md"
  | .packagesFile => "ReadMe-PackagesJson.md"
  | .logLevel => "warn"

inductive LogFormat where
  | text
  | json
deriving Repr, DecidableEq

structure Settings where
  excludes : List String := defaultExcludes
  maxLabelLength : Option Nat := none
  text : TextKey → String := TextKey.builtin
  /-- The directory for reports, within the workspace if it is relative. -/
  directory : Option String := none
  logFormat : LogFormat := .text

instance : Inhabited Settings := ⟨{}⟩

structure Overrides where
  excludes : List String := []
  maxLabelLength : Option Nat := none
  directory : Option String := none
  logLevel : Option String := none
deriving Repr, DecidableEq

inductive InvalidSetting where
  | value (key message : String)
  | excludedPath (entry : String)
deriving Repr, DecidableEq

def InvalidSetting.message : InvalidSetting → String
  | .value key message => "invalid configuration value for '" ++ key ++ "': " ++ message
  | .excludedPath entry =>
    "scan.exclude_directories takes directory names, not paths: '" ++ entry ++ "'"

def extend (names more : List String) : List String :=
  more.foldl (fun names name => if names.contains name then names else names ++ [name]) names

theorem mem_extend {names more : List String} {name : String} :
    name ∈ extend names more ↔ name ∈ names ∨ name ∈ more := by
  unfold extend
  induction more generalizing names with
  | nil => simp
  | cons first more ih =>
    simp only [List.foldl_cons, ih, List.mem_cons]
    by_cases h : first ∈ names
    · simp only [List.contains_eq_mem, h, decide_true, if_true]
      constructor
      · rintro (hn | hm)
        · exact .inl hn
        · exact .inr (.inr hm)
      · rintro (hn | rfl | hm)
        · exact .inl hn
        · exact .inl h
        · exact .inr hm
    · simp [h, or_assoc]

def directions : List String := ["TopToBottom", "BottomToTop", "LeftToRight", "RightToLeft"]

/-- The values that the log level can have, in upper or lower case. -/
def logLevels : List String := ["trace", "debug", "info", "warn", "error"]

namespace Settings

/-- A layer of settings over another one. A text that equals the built-in one lets the text below
through, and excluded names add up. -/
def laidOver (upper lower : Settings) : Settings where
  excludes := extend lower.excludes upper.excludes
  maxLabelLength := upper.maxLabelLength.or lower.maxLabelLength
  text key := if upper.text key = key.builtin then lower.text key else upper.text key
  directory := upper.directory.or lower.directory
  logFormat := if upper.logFormat = .text then lower.logFormat else upper.logFormat

def setText (s : Settings) (key : TextKey) (value : String) : Settings :=
  { s with text := fun k => if k = key then value else s.text k }

@[simp] theorem text_setText_self (s : Settings) (key : TextKey) (value : String) :
    (s.setText key value).text key = value := by
  simp [setText]

theorem text_setText_of_ne (s : Settings) {key other : TextKey} (value : String)
    (h : other ≠ key) : (s.setText key value).text other = s.text other := by
  simp [setText, h]

def override (s : Settings) (o : Overrides) : Settings :=
  let s := { s with
    excludes := extend s.excludes o.excludes
    maxLabelLength := o.maxLabelLength.or s.maxLabelLength
    directory := o.directory.or s.directory }
  match o.logLevel with
  | none => s
  | some level => s.setText .logLevel level

def validate (s : Settings) : Except InvalidSetting Unit := do
  if s.maxLabelLength = some 0 then
    throw (.value "graph.maximum_node_label_length" "must be greater than 0")
  let direction := s.text .direction
  if !directions.contains direction then
    throw (.value "dgml.direction" ("unknown direction '" ++ direction ++ "'. Valid values: " ++
      ", ".intercalate directions))
  let level := s.text .logLevel
  if !logLevels.contains (String.ofList (Text.lower level.toList)) then
    throw (.value "logging.level" ("unknown level '" ++ level ++ "'"))
  match s.excludes.find? fun entry => entry.toList.any fun c => c == '/' || c == '\\' with
  | some entry => throw (.excludedPath entry)
  | none => return ()

def outputDirectory (s : Settings) (workspace : String) : String :=
  match s.directory with
  | some directory => Path.join workspace directory
  | none => workspace

def outputPath (s : Settings) (workspace file : String) : String :=
  Path.join (s.outputDirectory workspace) file

def graphStyle (s : Settings) : GraphStyle where
  rootColor := s.text .rootColor
  dgmlRootColor := s.text .dgmlRootColor
  componentColor := s.text .componentColor
  moduleColor := s.text .moduleColor
  pipeColor := s.text .pipeColor
  directiveColor := s.text .directiveColor
  injectableColor := s.text .injectableColor
  importColor := s.text .importColor
  exportColor := s.text .exportColor
  injectionColor := s.text .injectionColor
  usesColor := s.text .usesColor
  routeColor := s.text .routeColor
  rootShape := s.text .rootShape
  componentShape := s.text .componentShape
  moduleShape := s.text .moduleShape
  pipeShape := s.text .pipeShape
  directiveShape := s.text .directiveShape
  injectableShape := s.text .injectableShape
  arrowHead := s.text .arrowHead
  maxLabelLength := s.maxLabelLength

def dgmlOptions (s : Settings) : Dgml.Options where
  direction := s.text .direction
  layout := s.text .layout
  zoomLevel := s.text .zoomLevel

end Settings

end AngularAtlas
