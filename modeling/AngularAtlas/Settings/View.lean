import AngularAtlas.Json.Value
import AngularAtlas.Settings.Schema

namespace AngularAtlas

def Setting.json? (s : Settings) : Setting → Option Json
  | .excludes => some (.array (s.excludes.map .text))
  | .maxLabelLength => s.maxLabelLength.map fun n => .number (.nonnegative n)
  | .text key => some (.text (s.text key))
  | .directory => s.directory.map .text
  | .logFormat => some (.text s.logFormat.name)

namespace Schema

mutual

def json? (s : Settings) : Schema → Option Json
  | .setting which => which.json? s
  | .group parts => some (.object (jsonFields s parts))

def jsonFields (s : Settings) : List (String × Schema) → List (String × Json)
  | [] => []
  | (name, part) :: parts =>
    ((part.json? s).map (name, ·)).toList ++ jsonFields s parts

end

end Schema

/-- The settings in groups, in the order in which a file has them. -/
def Settings.json (s : Settings) : Json := .object (Schema.jsonFields s Schema.settingsParts)

end AngularAtlas
