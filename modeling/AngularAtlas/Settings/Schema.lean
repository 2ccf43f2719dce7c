import AngularAtlas.Settings.Basic

namespace AngularAtlas

inductive Setting where
  | excludes
  | maxLabelLength
  | text (key : TextKey)
  | directory
  | logFormat
deriving Repr, DecidableEq

/-- The names of settings, in groups. -/
inductive Schema where
  | setting (which : Setting)
  | group (parts : List (String × Schema))
deriving Repr, Inhabited

namespace Schema

def texts (parts : List (String × TextKey)) : Schema :=
  .group (parts.map fun (name, key) => (name, .setting (.text key)))

def settingsParts : List (String × Schema) :=
  [("scan", .group [("exclude_directories", .setting .excludes)]),
    ("graph", .group [
      ("maximum_node_label_length", .setting .maxLabelLength),
      ("dgml_root_color", .setting (.text .dgmlRootColor)),
      ("edge_arrow_type", .setting (.text .arrowHead)),
      ("node_colors", texts [("root", .rootColor), ("component", .componentColor),
        ("module", .moduleColor), ("pipe", .pipeColor), ("directive", .directiveColor),
        ("injectable", .injectableColor)]),
      ("edge_colors", texts [("import", .importColor), ("export", .exportColor),
        ("injectable", .injectionColor), ("uses", .usesColor), ("route", .routeColor)]),
      ("node_shapes", texts [("root", .rootShape), ("component", .componentShape),
        ("module", .moduleShape), ("pipe", .pipeShape), ("directive", .directiveShape),
        ("injectable", .injectableShape)])]),
    ("dgml", texts [("layout", .layout), ("direction", .direction), ("zoom_level", .zoomLevel)]),
    ("output", .group [
      ("directory", .setting .directory),
      ("modules", .setting (.text .modulesFile)),
      ("component_hierarchy", .setting (.text .componentsFile)),
      ("module_graph", .setting (.text .moduleGraphFile)),
      ("component_graph", .setting (.text .componentGraphFile)),
      ("dependency_injection_graph", .setting (.text .injectionGraphFile)),
      ("imports", .setting (.text .importsFile)),
      ("directories", .setting (.text .directoriesFile)),
      ("packages", .setting (.text .packagesFile))]),
    ("logging", .group [
      ("level", .setting (.text .logLevel)),
      ("format", .setting .logFormat)])]

def settings : Schema := .group settingsParts

end Schema

def LogFormat.name : LogFormat → String
  | .text => "text"
  | .json => "json"

def LogFormat.ofName? : String → Option LogFormat
  | "text" => some .text
  | "json" => some .json
  | _ => none

end AngularAtlas
