import AngularAtlas.Path
import AngularAtlas.Table

/-!
A file system as a value: directories, files with their bytes, and symbolic links. Paths are
looked up from the root or from the working directory, and links are followed on the way. A
directory lists its entries in the order of their names.
-/

namespace AngularAtlas

inductive Entry where
  | file (content : ByteArray)
  | link (target : String)
  | directory (entries : List (String × Entry))
deriving Inhabited

inductive FileError where
  | notFound
  | alreadyExists
  | notDirectory
  | isDirectory
  | nameTooLong
  | tooManyLinks
  | nullCharacter
  | notText
deriving Repr, DecidableEq

def FileError.message : FileError → String
  | .notFound => "No such file or directory (os error 2)"
  | .alreadyExists => "File exists (os error 17)"
  | .notDirectory => "Not a directory (os error 20)"
  | .isDirectory => "Is a directory (os error 21)"
  | .nameTooLong => "File name too long (os error 36)"
  | .tooManyLinks => "Too many levels of symbolic links (os error 40)"
  | .nullCharacter => "file name contained an unexpected NUL byte"
  | .notText => "stream did not contain valid UTF-8"

namespace Entry

def child? (e : Entry) (name : String) : Option Entry :=
  match e with
  | .directory entries => entries.lookup name
  | _ => none

def maxNameSize : Nat := 255

/-- The entry of a name in a directory; it is an error when no entry can have such a name. -/
def lookup (e : Entry) (name : String) : Except FileError (Option Entry) :=
  if maxNameSize < name.utf8ByteSize then .error .nameTooLong else .ok (e.child? name)

theorem child?_of_lookup {e : Entry} {name : String} {found : Option Entry}
    (h : e.lookup name = .ok found) : e.child? name = found := by
  unfold lookup at h
  split at h
  · contradiction
  · exact Except.ok.inj h

def isDirectory : Entry → Bool
  | .directory _ => true
  | _ => false

def at? (e : Entry) : List String → Option Entry
  | [] => some e
  | name :: rest => (e.child? name).bind (·.at? rest)

theorem at?_append (e : Entry) (names more : List String) :
    e.at? (names ++ more) = (e.at? names).bind (·.at? more) := by
  induction names generalizing e with
  | nil => rfl
  | cons name names ih =>
    simp only [List.cons_append, at?]
    cases e.child? name with
    | none => rfl
    | some child => exact ih child

/-- The entry with another one put at the end of some names. Directories that are missing on the
way are created. -/
def put (e : Entry) : List String → Entry → Entry
  | [], new => new
  | name :: rest, new =>
    let entries := match e with
      | .directory entries => entries
      | _ => []
    let child := (entries.lookup name).getD (.directory [])
    .directory (putEntry name (child.put rest new) entries)

end Entry

/-- A place in a file system: the names from the root, with all links followed. -/
abbrev Location := List String

def Location.path (location : Location) : String := "/" ++ "/".intercalate location

/-- Where a path leads: to an entry, or to a place in a directory where nothing stands yet. -/
inductive Target where
  | found (location : Location) (entry : Entry)
  | vacant (location : Location)

structure FileTree where
  root : Entry := .directory []
  workingDirectory : String := "/"
deriving Inhabited

/-- The way from the root to a place: the names and what stands under them, the last one first. -/
abbrev Trail := List (String × Entry)

def Trail.location (trail : Trail) : Location := (trail.map (·.1)).reverse

def Trail.entry (root : Entry) (trail : Trail) : Entry := (trail.head?.map (·.2)).getD root

namespace Trail

theorem location_cons (name : String) (e : Entry) (trail : Trail) :
    Trail.location ((name, e) :: trail) = trail.location ++ [name] := by
  simp [Trail.location]

def IsFrom (root : Entry) : Trail → Prop
  | [] => True
  | (name, e) :: trail => (Trail.entry root trail).child? name = some e ∧ IsFrom root trail

theorem IsFrom.tail {root : Entry} {trail : Trail} (h : trail.IsFrom root) :
    Trail.IsFrom root trail.tail := by
  cases trail with
  | nil => exact h
  | cons step trail => exact h.2

theorem IsFrom.at?_location {root : Entry} {trail : Trail} (h : trail.IsFrom root) :
    root.at? trail.location = some (trail.entry root) := by
  induction trail with
  | nil => rfl
  | cons step trail ih =>
    obtain ⟨name, e⟩ := step
    rw [location_cons, Entry.at?_append, ih h.2]
    simp only [Option.bind_some, Entry.at?, h.1]
    rfl

end Trail

namespace FileTree

def maxPathSize : Nat := 4095

def maxLinks : Nat := 40

/-- Takes the steps of a path from a directory, with a limit on the links that may be followed.
`slash` says that a slash stands behind the last step, whose name then has to be that of a
directory. When `creating`, nothing need stand at the end, but a slash behind the last name is an
error, no matter what stands there: no file can have such a path. -/
def follow (root : Entry) (creating : Bool) (links : Nat) (slash : Bool) (trail : Trail) :
    List Segment → Except FileError Target
  | [] => .ok (.found trail.location (trail.entry root))
  | .root :: rest => follow root creating links slash [] rest
  | .here :: rest => follow root creating links slash trail rest
  | .up :: rest => follow root creating links slash trail.tail rest
  | .name name :: rest =>
    if !(trail.entry root).isDirectory then .error .notDirectory
    else if rest = [] ∧ slash ∧ creating then .error .isDirectory
    else match (trail.entry root).lookup name with
      | .error e => .error e
      | .ok none =>
        if rest = [] ∧ creating then .ok (.vacant (trail.location ++ [name]))
        else .error .notFound
      | .ok (some (.link target)) =>
        match links with
        | 0 => .error .tooManyLinks
        | links + 1 =>
          let slash := slash || (rest = [] && Path.endsInSlash target)
          follow root creating links slash trail (Path.steps target ++ rest)
      | .ok (some (.file content)) =>
        if rest = [] ∧ !slash then .ok (.found (trail.location ++ [name]) (.file content))
        else .error .notDirectory
      | .ok (some (.directory entries)) =>
        follow root creating links slash ((name, .directory entries) :: trail) rest
termination_by steps => (links, steps.length)

theorem at?_of_follow {root : Entry} {creating : Bool} {links : Nat} {slash : Bool}
    {trail : Trail} {steps : List Segment} {location : Location} {entry : Entry}
    (start : trail.IsFrom root)
    (h : follow root creating links slash trail steps = .ok (.found location entry)) :
    root.at? location = some entry := by
  fun_induction follow root creating links slash trail steps with
  | case1 =>
    obtain ⟨rfl, rfl⟩ := Target.found.inj (Except.ok.inj h)
    exact start.at?_location
  | case2 _ _ _ _ ih => exact ih trivial h
  | case3 _ _ _ _ ih => exact ih start h
  | case4 _ _ _ _ ih => exact ih start.tail h
  | case11 _ _ _ _ _ _ _ _ _ _ ih => exact ih start h
  | case12 _ _ _ _ _ _ _ content found =>
    obtain ⟨rfl, rfl⟩ := Target.found.inj (Except.ok.inj h)
    rw [Entry.at?_append, start.at?_location]
    simp [Entry.at?, Entry.child?_of_lookup found]
  | case14 _ _ _ _ _ _ _ _ found ih => exact ih ⟨Entry.child?_of_lookup found, start⟩ h
  | case8 => exact Target.noConfusion (Except.ok.inj h)
  | case5 | case6 | case7 | case9 | case10 | case13 => contradiction

/-- The steps of a path from the root. An empty path leads nowhere, and no path has a null character
in it. -/
def stepsOf (t : FileTree) (path : String) : Except FileError (List Segment) :=
  if path = "" then .error .notFound
  else if '\x00' ∈ path.toList then .error .nullCharacter
  else .ok (Path.steps (Path.join t.workingDirectory path))

def boundedSteps (t : FileTree) (path : String) : Except FileError (List Segment) := do
  let steps ← t.stepsOf path
  if maxPathSize < path.utf8ByteSize then throw .nameTooLong
  return steps

def resolve (t : FileTree) (creating : Bool) (path : String) : Except FileError Target := do
  follow t.root creating maxLinks (Path.endsInSlash path) [] (← t.boundedSteps path)

/-- Where a path leads that is walked one step at a time, so that it may be of any length. -/
def canonical (t : FileTree) (path : String) : Except FileError Target := do
  follow t.root false maxLinks (Path.endsInSlash path) [] (← t.stepsOf path)

def locate (t : FileTree) (path : String) : Except FileError (Location × Entry) := do
  match ← t.resolve false path with
  | .found location entry => return (location, entry)
  | .vacant _ => throw .notFound

def pathExists (t : FileTree) (path : String) : Bool :=
  match t.locate path with
  | .ok _ => true
  | .error _ => false

def isDirectory (t : FileTree) (path : String) : Bool :=
  match t.locate path with
  | .ok (_, entry) => entry.isDirectory
  | .error _ => false

def read (t : FileTree) (path : String) : Except FileError ByteArray := do
  match ← t.locate path with
  | (_, .file content) => return content
  | _ => throw .isDirectory

def readText (t : FileTree) (path : String) : Except FileError String := do
  match String.fromUTF8? (← t.read path) with
  | some text => return text
  | none => throw .notText

def put (t : FileTree) (location : Location) (entry : Entry) : FileTree :=
  { t with root := t.root.put location entry }

def writeBytes (t : FileTree) (path : String) (content : ByteArray) :
    Except FileError FileTree := do
  match ← t.resolve true path with
  | .found _ (.directory _) => throw .isDirectory
  | .found location _ | .vacant location => return t.put location (.file content)

def write (t : FileTree) (path text : String) : Except FileError FileTree :=
  t.writeBytes path text.toUTF8

def createDirectory (t : FileTree) (path : String) : Except FileError FileTree := do
  let steps ← t.boundedSteps path
  match ← follow t.root false maxLinks false [] steps.dropLast with
  | .vacant _ => throw .notFound
  | .found location entry =>
    if !entry.isDirectory then throw .notDirectory
    match steps.getLast? with
    | some (.name name) =>
      if (← entry.lookup name).isSome then throw .alreadyExists
      return t.put (location ++ [name]) (.directory [])
    | _ => throw .alreadyExists

def createDirectoriesWithin : Nat → FileTree → String → Except FileError FileTree
  | 0, _, _ => .error .notFound
  | levels + 1, t, path =>
    if path = "" then .ok t
    else match t.createDirectory path with
      | .ok t => .ok t
      | .error e =>
        if e = .notFound then
          match Path.parent? path with
          | none => .error .notFound
          | some parent =>
            match createDirectoriesWithin levels t parent with
            | .error e => .error e
            | .ok t =>
              match t.createDirectory path with
              | .ok t => .ok t
              | .error e => if t.isDirectory path then .ok t else .error e
        else if t.isDirectory path then .ok t
        else .error e

def createDirectories (t : FileTree) (path : String) : Except FileError FileTree :=
  createDirectoriesWithin (path.length + 1) t path

def filesBelow (location : Location) : List (String × Entry) → List (Location × ByteArray)
  | [] => []
  | (name, .directory entries) :: rest =>
    filesBelow (location ++ [name]) entries ++ filesBelow location rest
  | (name, .file content) :: rest => (location ++ [name], content) :: filesBelow location rest
  | (_, .link _) :: rest => filesBelow location rest

def files (t : FileTree) : List (Location × ByteArray) :=
  match t.root with
  | .directory entries => filesBelow [] entries
  | _ => []

def changedFiles (before after : FileTree) : List (Location × ByteArray) :=
  after.files.filter fun (location, content) =>
    match before.root.at? location with
    | some (.file old) => old != content
    | _ => true

end FileTree

end AngularAtlas
