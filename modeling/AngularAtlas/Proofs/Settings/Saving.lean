import AngularAtlas.Proofs.FileTree.Joining
import AngularAtlas.Proofs.Settings.RoundTrip
import AngularAtlas.Proofs.Settings.Sources

namespace AngularAtlas

open AngularAtlas.Path (join)

theorem isPathName_directoryName : IsPathName Settings.directoryName := by decide

theorem isPathName_configFile : IsPathName "config.toml" := by decide

namespace Settings

variable {s : Settings} {t t' : FileTree} {workspace path : String} {place : Location}
  {entries inner : List (String × Entry)}

theorem parent?_localPath (workspace : String) :
    Path.parent? (localPath workspace) = some (join workspace directoryName) :=
  Path.parent?_join isPathName_directoryName isPathName_configFile
    (Path.getLast?_splitOn_join isPathName_directoryName)

/-- Settings can be saved in a workspace: it is a directory, and the place for their file is free or
has a file in it. -/
structure FitsIn (t : FileTree) (workspace : String) : Prop where
  short : (localPath workspace).utf8ByteSize ≤ FileTree.maxPathSize
  free : ∃ place entries, t.locate workspace = .ok (place, .directory entries) ∧
    ∀ e ∈ entries.lookup directoryName, ∃ inner, e = .directory inner ∧
      ∀ e ∈ inner.lookup "config.toml", ∃ content, e = .file content

/-- What saving comes to: the directory for the file is made if it is not there, and the file is
written. -/
theorem save_localPath (short : s.HasWritableLabel) (t : FileTree) (workspace : String) :
    ∃ text, ofToml? text = some s ∧ s.save t (localPath workspace) =
      (ensureDirectory t (join workspace directoryName) >>= fun t =>
        (t.write (localPath workspace) text).mapError (.unwritable (localPath workspace))) := by
  obtain ⟨text, written, read⟩ := exists_toToml short
  refine ⟨text, read, ?_⟩
  rw [save, parent?_localPath, written]
  rfl

theorem ensureDirectory_of_missing (led : t.locate workspace = .ok (place, .directory entries))
    (short : (join workspace directoryName).utf8ByteSize ≤ FileTree.maxPathSize)
    (missing : entries.lookup directoryName = none) :
    ensureDirectory t (join workspace directoryName) =
        .ok (t.put (place ++ [directoryName]) (.directory [])) ∧
      (t.put (place ++ [directoryName]) (.directory [])).locate (join workspace directoryName) =
        .ok (place ++ [directoryName], .directory []) := by
  have isName := isPathName_directoryName
  have nowhere := FileTree.pathExists_join_of_missing led isName short missing
  have created := FileTree.createDirectory_join led isName short missing
  have grows := FileTree.grows_of_createDirectory created
  obtain ⟨entries', led'⟩ := FileTree.exists_locate_directory led grows.stays rfl
  have found : entries'.lookup directoryName = some (.directory []) := by
    have here := FileTree.at?_of_locate led'
    have below := Entry.at?_put_self t.root (place ++ [directoryName]) (.directory [])
    change (t.put _ _).root.at? _ = _ at below
    rw [Entry.at?_append, here] at below
    simpa [Entry.at?, Entry.child?] using below
  refine ⟨?_, FileTree.locate_join_directory led' isName short found⟩
  rw [ensureDirectory, nowhere, if_neg Bool.false_ne_true,
    FileTree.createDirectories_join_of_missing led isName short missing]
  rfl

theorem exists_ensureDirectory (fits : FitsIn t workspace) :
    ∃ made place inner, ensureDirectory t (join workspace directoryName) = .ok made ∧
      made.locate (join workspace directoryName) = .ok (place, .directory inner) ∧
      ∀ e ∈ inner.lookup "config.toml", ∃ content, e = .file content := by
  obtain ⟨short, place, entries, led, free⟩ := fits
  have short' : (join workspace directoryName).utf8ByteSize ≤ FileTree.maxPathSize :=
    (Path.utf8ByteSize_le_join isPathName_configFile.isAbsolute_eq).trans short
  cases found : entries.lookup directoryName with
  | none =>
    obtain ⟨ensured, there⟩ := ensureDirectory_of_missing led short' found
    exact ⟨_, _, [], ensured, there, by simp⟩
  | some e =>
    obtain ⟨inner, rfl, free⟩ := free e found
    have there := FileTree.locate_join_directory led isPathName_directoryName short' found
    refine ⟨t, _, inner, ?_, there, free⟩
    rw [ensureDirectory, FileTree.pathExists, there, if_pos rfl]

/-- Settings with a length of labels that can be written are saved where they fit in. -/
theorem exists_save (short : s.HasWritableLabel) (fits : FitsIn t workspace) :
    ∃ t', s.save t (localPath workspace) = .ok t' := by
  obtain ⟨text, -, saved⟩ := save_localPath short t workspace
  obtain ⟨made, place, inner, ensured, led, free⟩ := exists_ensureDirectory fits
  have wrote := FileTree.write_join led isPathName_configFile fits.short free text
  refine ⟨made.put (place ++ ["config.toml"]) (.file text.toUTF8), ?_⟩
  rw [saved, ensured]
  exact congrArg (Except.mapError _) wrote

theorem isDirectory_root_of_write {text : String}
    (wrote : t.write (localPath workspace) text = .ok t') : t.root.isDirectory = true := by
  obtain ⟨target, resolved, -⟩ := FileTree.put_of_writeBytes wrote
  obtain ⟨steps, taken, -, followed⟩ := FileTree.exists_of_resolve resolved
  have ends : steps = Path.steps (join t.workingDirectory (join workspace directoryName)) ++
      [.name "config.toml"] :=
    (FileTree.boundedSteps_eq_ok taken).1.trans
      (Path.steps_join_join (Path.join_ne_empty isPathName_directoryName) isPathName_configFile)
  have last : Segment.name "config.toml" ∈ steps := by simp [ends]
  exact FileTree.isDirectory_of_follow last followed

/-- After settings were saved, the path of their file leads to a file with these settings. -/
theorem exists_locate_of_save (short : s.HasWritableLabel)
    (saved : s.save t (localPath workspace) = .ok t') :
    ∃ place text, t'.locate (localPath workspace) = .ok (place, .file text.toUTF8) ∧
      ofToml? text = some s := by
  obtain ⟨text, read, steps⟩ := save_localPath short t workspace
  obtain ⟨made, -, wrote⟩ := exists_of_bind_eq_ok (steps.symm.trans saved)
  have wrote := eq_ok_of_mapError wrote
  obtain ⟨place, -, led⟩ :=
    FileTree.exists_grows_of_write (isDirectory_root_of_write wrote) wrote
  exact ⟨place, text, led, read⟩

theorem readIfPresent_of_locate {text : String}
    (led : t.locate path = .ok (place, .file text.toUTF8)) (read : ofToml? text = some s) :
    readIfPresent t path = .ok (some s) := by
  have present : t.pathExists path = true := by rw [FileTree.pathExists, led]
  rw [readIfPresent, if_pos present, readFile, FileTree.readText_of_locate led]
  simp only [read]
  rfl

theorem laidOver_builtin_eq (s : Settings) :
    s.laidOver {} = { s with excludes := (defaultExcludes ++ s.excludes).eraseDups } := by
  have names : (s.laidOver {}).excludes = (defaultExcludes ++ s.excludes).eraseDups := by
    have distinct : defaultExcludes.eraseDups = defaultExcludes := by decide
    have all := extend_eraseDups defaultExcludes s.excludes
    rwa [distinct] at all
  have others := laidOver_builtin s
  rw [← names]
  exact (congrArg (fun r => { r with excludes := (s.laidOver {}).excludes }) others)

theorem laidOver_self (s : Settings) : s.laidOver s = s := by
  have names : extend s.excludes s.excludes = s.excludes :=
    extend_of_subset (List.Subset.refl _)
  refine eq_of_of_eq fun which => ?_
  by_cases scalar : which = .excludes
  · rw [scalar]
    exact congrArg SettingValue.names names
  · rw [Setting.of_laidOver scalar]
    split <;> rfl

/-- Settings that can be used can also be used over the built-in ones. -/
theorem Valid.laidOver_builtin (valid : s.Valid) : (s.laidOver {}).Valid := by
  rw [laidOver_builtin_eq]
  refine ⟨valid.label, valid.direction, valid.level, fun entry mem => ?_⟩
  have builtin : ∀ entry ∈ ({} : Settings).excludes, ¬ IsPath entry :=
    find?_path_eq_none_iff.1 (by decide)
  rcases List.mem_append.1 (List.mem_eraseDups.1 mem) with mem | mem
  · exact builtin entry mem
  · exact valid.excludes entry mem

end Settings

namespace UserSettings

variable {u : UserSettings} {s : Settings} {t t' : FileTree} {workspace : String}

/-- Settings that can be used, with any texts in them, are saved in a workspace and loaded from
there, where the user has no other settings. -/
theorem loadFor_of_save (valid : s.validate = .ok ()) (short : s.HasWritableLabel)
    (fresh : u.known = none) :
    (Settings.FitsIn t workspace → ∃ t', s.save t (Settings.localPath workspace) = .ok t') ∧
    ∀ t', s.save t (Settings.localPath workspace) = .ok t' →
      (t'.pathExists u.path = true →
        t'.locate u.path = t'.locate (Settings.localPath workspace)) →
      (u.loadFor t' workspace {}).1 =
        .ok { s with excludes := (defaultExcludes ++ s.excludes).eraseDups } := by
  refine ⟨Settings.exists_save short, fun t' saved only => ?_⟩
  obtain ⟨place, text, led, read⟩ := Settings.exists_locate_of_save short saved
  have there := Settings.readIfPresent_of_locate led read
  have usable := (Settings.validate_eq_ok_iff.1 valid).laidOver_builtin
  have finished : (s.laidOver {}).finish {} =
      .ok { s with excludes := (defaultExcludes ++ s.excludes).eraseDups } :=
    Settings.finish_eq_ok_iff.2 ⟨(Settings.laidOver_builtin_eq s).symm, usable⟩
  cases present : t'.pathExists u.path with
  | false =>
    have own : Settings.readIfPresent t' u.path = .ok none := by
      rw [Settings.readIfPresent, present, if_neg Bool.false_ne_true]
    simp only [loadFor, load, fresh, own, Settings.loadLocal, there]
    exact finished
  | true =>
    have own : Settings.readIfPresent t' u.path = .ok (some s) :=
      Settings.readIfPresent_of_locate ((only present).trans led) read
    simp only [loadFor, load, fresh, own, Settings.loadLocal, there]
    have once : s.laidOver (s.laidOver {}) = s.laidOver {} := by
      rw [Settings.laidOver_laidOver, Settings.laidOver_self]
    change (s.laidOver (s.laidOver {})).finish {} = _
    rw [once]
    exact finished

def oddSettings : Settings where
  excludes := ["say \"hi\"", "dist", "two\nlines", "it's", "\x07\t"]
  maxLabelLength := some 40
  text key := if key = .rootColor then "\"\"\"'''" else key.builtin
  directory := some "C:\\out 'new'\r\n"
  logFormat := .json

def absentUser : UserSettings where
  directory := "/home/.ngmap"

def bareTree : FileTree where
  root := .directory [("ws", .directory [])]

/-- The workspace after the settings were saved there as a text. -/
def savedTree (text : String) : FileTree where
  root := .directory [("ws", .directory [(".ngmap", .directory [
    ("config.toml", .file text.toUTF8)])])]

theorem locate_bareTree : bareTree.locate "/ws" = .ok (["ws"], .directory []) :=
  FileTree.locate_of_directory (by decide +kernel) rfl rfl

theorem fitsIn_bareTree : Settings.FitsIn bareTree "/ws" :=
  ⟨by decide, ["ws"], [], locate_bareTree, by simp⟩

theorem exists_save_bareTree (short : s.HasWritableLabel) :
    ∃ text, s.save bareTree (Settings.localPath "/ws") = .ok (savedTree text) := by
  obtain ⟨text, -, saved⟩ := Settings.save_localPath short bareTree "/ws"
  obtain ⟨ensured, there⟩ :=
    Settings.ensureDirectory_of_missing locate_bareTree (by decide) rfl
  have wrote := FileTree.write_join there isPathName_configFile (by decide) (by simp) text
  refine ⟨text, ?_⟩
  rw [saved, ensured]
  refine (congrArg (Except.mapError _) wrote).trans ?_
  simp [Except.mapError, FileTree.put, Entry.put, putEntry, bareTree, savedTree,
    Settings.directoryName]

theorem loadFor_of_save_odd : Settings.FitsIn bareTree "/ws" ∧
    ∃ text, oddSettings.save bareTree (Settings.localPath "/ws") = .ok (savedTree text) ∧
      (absentUser.loadFor (savedTree text) "/ws" {}).1 =
        .ok { oddSettings with
          excludes := defaultExcludes ++ ["say \"hi\"", "two\nlines", "it's", "\x07\t"] } := by
  have valid : oddSettings.validate = .ok () := rfl
  have short : oddSettings.HasWritableLabel := by
    rintro n ⟨⟩
    decide
  obtain ⟨text, saved⟩ := exists_save_bareTree short
  have noUser : (savedTree text).pathExists absentUser.path = false := by
    have steps : (bareTree.boundedSteps absentUser.path).toOption =
        some (.root :: .name "home" :: [.name ".ngmap", .name "config.toml"]) := by
      decide +kernel
    exact FileTree.pathExists_of_missing steps rfl rfl
  have fresh : absentUser.known = none := rfl
  obtain ⟨-, law⟩ := loadFor_of_save valid short fresh
  refine ⟨fitsIn_bareTree, text, saved, (law _ saved ?_).trans ?_⟩
  · rw [noUser]
    exact nofun
  · have names : (defaultExcludes ++ oddSettings.excludes).eraseDups =
        defaultExcludes ++ ["say \"hi\"", "two\nlines", "it's", "\x07\t"] := by decide
    rw [names]

end UserSettings

end AngularAtlas
