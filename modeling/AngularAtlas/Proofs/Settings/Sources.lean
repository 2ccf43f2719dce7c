import AngularAtlas.Proofs.Settings.Validation
import AngularAtlas.Settings.Origin

namespace AngularAtlas

namespace Settings

/-- The settings of some files, the uppermost first, over the built-in ones. -/
def combine (files : List (Origin × Settings)) : Settings :=
  files.foldr (fun file lower => file.2.laidOver lower) {}

theorem layered_eq_combine (own there : Option Settings) :
    layered [own, there] = combine ((there.map (Origin.workspace, ·)).toList ++
      (own.map (Origin.user, ·)).toList) := by
  cases own <;> cases there <;> rfl

/-- The built-in settings under some settings are there only once. -/
theorem laidOver_builtin_twice (s : Settings) : (s.laidOver {}).laidOver {} = s.laidOver {} := by
  have names : (({} : Settings).laidOver {}).excludes = ({} : Settings).excludes :=
    extend_of_subset (List.Subset.refl _)
  have builtin : ({} : Settings).laidOver {} = {} :=
    (congrArg (fun list => { ({} : Settings).laidOver {} with excludes := list }) names).trans
      (laidOver_builtin {})
  rw [← laidOver_laidOver, builtin]

variable {t : FileTree} {path : String} {s : Settings}

/-- What a settings file says of a setting: what its document gives, or else the built-in value. -/
inductive Says (t : FileTree) (path : String) (which : Setting) : SettingValue → Prop
  | missing : t.pathExists path = false → Says t path which which.builtin
  | document {entries : Toml.Entries} {value : SettingValue} : IsDocument t path entries →
      which.Turns which.builtin (which.given? entries) value → Says t path which value

theorem says_of_readIfPresent {file : Option Settings} (read : readIfPresent t path = .ok file)
    (which : Setting) : Says t path which ((file.map which.of).getD which.builtin) := by
  cases file with
  | none => exact .missing (pathExists_of_readIfPresent read)
  | some s =>
    obtain ⟨entries, document, settings⟩ := exists_isDocument read
    exact .document document (turns_ofEntries? settings which)

theorem pathExists_of_readFile (read : readFile t path = .ok s) : t.pathExists path = true := by
  rw [readFile] at read
  rw [FileTree.pathExists]
  cases located : t.locate path with
  | ok => rfl
  | error => simp [FileTree.readText, FileTree.read, located, bind, Except.bind] at read

theorem says_of_readFile (read : readFile t path = .ok s) (which : Setting) :
    Says t path which (which.of s) := by
  have present : readIfPresent t path = .ok (some s) := by
    rw [readIfPresent, if_pos (pathExists_of_readFile read), read]
    rfl
  exact says_of_readIfPresent present which

end Settings

namespace Setting

variable {which : Setting}

theorem of_laidOver_builtin (scalar : which ≠ .excludes) (s : Settings) :
    which.of (s.laidOver {}) = which.of s := by
  rw [of_laidOver scalar]
  split
  case isTrue same => exact same.symm
  case isFalse => rfl

/-- The file that decides a setting: the uppermost one with another value than the built-in one. -/
def decider? (which : Setting) (files : List (Origin × Settings)) : Option (Origin × Settings) :=
  files.find? fun file => which.of file.2 ≠ which.builtin

theorem decider?_cons (which : Setting) (file : Origin × Settings)
    (files : List (Origin × Settings)) :
    which.decider? (file :: files) =
      if which.of file.2 = which.builtin then which.decider? files else some file := by
  rw [decider?, decider?, List.find?_cons]
  by_cases same : which.of file.2 = which.builtin <;> simp [same]

theorem of_combine (scalar : which ≠ .excludes) (files : List (Origin × Settings)) :
    which.of (Settings.combine files) =
      ((which.decider? files).map fun file => which.of file.2).getD which.builtin := by
  induction files with
  | nil => rfl
  | cons file files ih =>
    have below : which.of (Settings.combine (file :: files)) =
        if which.of file.2 = which.builtin then which.of (Settings.combine files)
        else which.of file.2 := of_laidOver scalar ..
    rw [below, ih, decider?_cons]
    split <;> rfl

/-- The value that the command line gives to a setting, if it does. -/
def overridden? (o : Overrides) : Setting → Option SettingValue
  | .maxLabelLength => o.maxLabelLength.map fun n => .number (some n)
  | .directory => o.directory.map fun path => .place (some path)
  | .text .logLevel => o.logLevel.map .text
  | _ => none

theorem of_override (scalar : which ≠ .excludes) (s : Settings) (o : Overrides) :
    which.of (s.override o) = (which.overridden? o).getD (which.of s) := by
  cases which with
  | excludes => exact absurd rfl scalar
  | maxLabelLength =>
    have value : (s.override o).maxLabelLength = o.maxLabelLength.or s.maxLabelLength := by
      cases level : o.logLevel <;> simp [Settings.override, level, Settings.setText]
    rw [of, of, value]
    cases given : o.maxLabelLength <;> simp [overridden?, given]
  | text key =>
    rw [of, of, Settings.text_override]
    cases given : o.logLevel <;> cases key <;> simp [overridden?, given]
  | directory =>
    have value : (s.override o).directory = o.directory.or s.directory := by
      cases level : o.logLevel <;> simp [Settings.override, level, Settings.setText]
    rw [of, of, value]
    cases given : o.directory <;> simp [overridden?, given]
  | logFormat =>
    cases level : o.logLevel <;> simp [of, overridden?, Settings.override, level, Settings.setText]

end Setting

end AngularAtlas
