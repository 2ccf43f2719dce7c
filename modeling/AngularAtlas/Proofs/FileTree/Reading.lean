import AngularAtlas.Workspace

namespace AngularAtlas.FileTree

variable {t : FileTree} {root : Entry} {trail : Trail} {names : List String}
  {content : ByteArray} {path text : String}

/-- Names lead down to the file that stands under them. -/
theorem follow_names (creating : Bool) (links : Nat)
    (short : ∀ name ∈ names, name.utf8ByteSize ≤ Entry.maxNameSize)
    (below : (trail.entry root).at? names = some (.file content)) (ne : names ≠ []) :
    follow root creating links false trail (names.map .name) =
      .ok (.found (trail.location ++ names) (.file content)) := by
  induction names generalizing trail with
  | nil => exact absurd rfl ne
  | cons name names ih =>
    obtain ⟨here, later⟩ := List.forall_mem_cons.1 short
    rw [Entry.at?] at below
    obtain ⟨child, hc, below⟩ := Option.bind_eq_some_iff.1 below
    have directory : (trail.entry root).isDirectory = true := by
      revert hc
      cases trail.entry root <;> simp [Entry.child?, Entry.isDirectory]
    have found : (trail.entry root).lookup name = .ok (some child) := by
      rw [Entry.lookup, if_neg (Nat.not_lt.2 here), hc]
    rw [List.map_cons, follow, directory, found]
    cases names with
    | nil =>
      obtain rfl := Option.some.inj below
      simp
    | cons next rest =>
      cases child with
      | file => simp [Entry.at?, Entry.child?] at below
      | link => simp [Entry.at?, Entry.child?] at below
      | directory entries =>
        have inside : (Trail.entry root ((name, .directory entries) :: trail)).at? (next :: rest) =
            some (.file content) := below
        simpa [Trail.location] using ih later inside (List.cons_ne_nil _ _)

theorem boundedSteps_of_toOption {steps : List Segment}
    (h : (t.boundedSteps path).toOption = some steps) : t.boundedSteps path = .ok steps := by
  cases hb : t.boundedSteps path with
  | error => rw [hb] at h; cases h
  | ok found => rw [hb] at h; exact congrArg _ (Option.some.inj h)

/-- A path consists of names only, and under these names stands a file. -/
structure Holds (t : FileTree) (path : String) (names : List String) (content : ByteArray) :
    Prop where
  steps : (t.boundedSteps path).toOption = some (.root :: names.map .name)
  noSlash : Path.endsInSlash path = false
  ne_nil : names ≠ []
  short : ∀ name ∈ names, name.utf8ByteSize ≤ Entry.maxNameSize
  below : t.root.at? names = some (.file content)

theorem Holds.locate_eq (h : Holds t path names content) :
    t.locate path = .ok (names, .file content) := by
  have steps := boundedSteps_of_toOption h.steps
  have there : follow t.root false maxLinks false [] (names.map .name) =
      .ok (.found names (.file content)) := follow_names false maxLinks h.short h.below h.ne_nil
  simp only [locate, resolve, steps, h.noSlash, bind, Except.bind, follow, there]
  rfl

theorem Holds.pathExists_eq (h : Holds t path names content) : t.pathExists path = true := by
  rw [pathExists, h.locate_eq]

theorem Holds.read_eq (h : Holds t path names content) : t.read path = .ok content := by
  rw [read, h.locate_eq]
  rfl

theorem readText_of_locate {location : Location}
    (led : t.locate path = .ok (location, .file text.toUTF8)) : t.readText path = .ok text := by
  have decoded : String.fromUTF8? text.toUTF8 = some text := by
    simp [String.toUTF8, String.fromUTF8?, String.fromUTF8, text.isValidUTF8]
  rw [readText, read, led]
  simp only [bind, Except.bind, pure, Except.pure, decoded]

theorem Holds.readText_eq (h : Holds t path names text.toUTF8) : t.readText path = .ok text :=
  readText_of_locate h.locate_eq

theorem Holds.readSource_eq (h : Holds t path names text.toUTF8) :
    t.readSource path = .ok text := by
  rw [readSource, h.read_eq]
  exact congrArg _ (Text.Utf8.decode_toUTF8 text)

variable {name : String} {rest : List Segment} {entries : List (String × Entry)}

/-- Nothing stands under the first name of a path. -/
theorem pathExists_of_missing
    (steps : (t.boundedSteps path).toOption = some (.root :: .name name :: rest))
    (directory : t.root.isDirectory = true) (missing : t.root.lookup name = .ok none) :
    t.pathExists path = false := by
  have nowhere : t.resolve false path = .error .notFound := by
    simp [resolve, boundedSteps_of_toOption steps, bind, Except.bind, follow, Trail.entry,
      directory, missing]
  rw [pathExists, locate, nowhere]
  rfl

/-- Nothing stands under the second name of a path. -/
theorem pathExists_of_missing_below {place : String}
    (steps : (t.boundedSteps path).toOption = some (.root :: .name place :: .name name :: rest))
    (directory : t.root.isDirectory = true)
    (found : t.root.lookup place = .ok (some (.directory entries)))
    (missing : (Entry.directory entries).lookup name = .ok none) : t.pathExists path = false := by
  have isDirectory : (Entry.directory entries).isDirectory = true := rfl
  have nowhere : t.resolve false path = .error .notFound := by
    simp [resolve, boundedSteps_of_toOption steps, bind, Except.bind, follow, Trail.entry,
      directory, found, isDirectory, missing]
  rw [pathExists, locate, nowhere]
  rfl

theorem locate_of_directory
    (steps : (t.boundedSteps path).toOption = some [.root, .name name])
    (directory : t.root.isDirectory = true)
    (found : t.root.lookup name = .ok (some (.directory entries))) :
    t.locate path = .ok ([name], .directory entries) := by
  have there : t.resolve false path = .ok (.found [name] (.directory entries)) := by
    simp [resolve, boundedSteps_of_toOption steps, bind, Except.bind, follow, Trail.entry,
      Trail.location, directory, found]
  rw [locate, there]
  rfl

theorem canonical_of_directory (steps : t.stepsOf path = .ok [.root, .name name])
    (directory : t.root.isDirectory = true)
    (found : t.root.lookup name = .ok (some (.directory entries))) :
    t.canonical path = .ok (.found [name] (.directory entries)) := by
  simp [canonical, steps, bind, Except.bind, follow, Trail.entry, Trail.location, directory, found]

end AngularAtlas.FileTree
