import AngularAtlas.Proofs.FileTree.Growth

namespace AngularAtlas

/-- A name that stands for an entry where it is the last piece of a path. -/
structure IsPathName (name : String) : Prop where
  isName : IsName name
  ne_here : name ≠ "."
  ne_up : name ≠ ".."
  no_null : '\x00' ∉ name.toList
  short : name.utf8ByteSize ≤ Entry.maxNameSize

instance (name : String) : Decidable (IsPathName name) :=
  decidable_of_iff
    (IsName name ∧ name ≠ "." ∧ name ≠ ".." ∧ '\x00' ∉ name.toList ∧
      name.utf8ByteSize ≤ Entry.maxNameSize)
    ⟨fun ⟨isName, here, up, null, short⟩ => ⟨isName, here, up, null, short⟩,
      fun h => ⟨h.isName, h.ne_here, h.ne_up, h.no_null, h.short⟩⟩

namespace IsPathName

variable {name : String}

theorem stepOf?_eq (h : IsPathName name) : Path.stepOf? name.toList = some (.name name) := by
  have isHere : name.toList ≠ ['.'] := fun same => h.ne_here (String.toList_inj.1 same)
  have isUp : name.toList ≠ ['.', '.'] := fun same => h.ne_up (String.toList_inj.1 same)
  have isEmpty : name.toList ≠ [] := by simpa using h.isName.ne_empty
  rw [Path.stepOf?, if_neg isEmpty, if_neg isHere, if_neg isUp, String.ofList_toList]

theorem segmentOf?_eq (h : IsPathName name) : Path.segmentOf? name.toList = some (.name name) := by
  rw [Path.segmentOf?, h.stepOf?_eq]
  rfl

theorem splitOn_eq (h : IsPathName name) : name.toList.splitOn '/' = [name.toList] :=
  List.splitOn_eq_singleton h.isName.no_slash

theorem isAbsolute_eq (h : IsPathName name) : Path.isAbsolute name = false := by
  rw [Path.isAbsolute, decide_eq_false_iff_not]
  exact fun first => h.isName.no_slash (List.mem_of_mem_head? first)

theorem steps_eq (h : IsPathName name) : Path.steps name = [.name name] := by
  rw [Path.steps, h.isAbsolute_eq, h.splitOn_eq]
  simp [h.stepOf?_eq]

theorem endsInSlash_eq (h : IsPathName name) : Path.endsInSlash name = false := by
  rw [Path.endsInSlash, decide_eq_false_iff_not]
  exact fun last => h.isName.no_slash (List.mem_of_getLast? last)

theorem lookup_eq (h : IsPathName name) (entries : List (String × Entry)) :
    (Entry.directory entries).lookup name = .ok (entries.lookup name) := by
  rw [Entry.lookup, if_neg (Nat.not_lt.2 h.short)]
  rfl

end IsPathName

namespace Path

variable {directory path : String} {s piece : List Char}

theorem isAbsolute_join (ne : directory ≠ "") (relative : isAbsolute path = false) :
    isAbsolute (join directory path) = isAbsolute directory := by
  obtain ⟨c, r, he⟩ := List.exists_cons_of_ne_nil (mt String.toList_eq_nil_iff.1 ne)
  rw [join, relative, if_neg Bool.false_ne_true]
  split <;> simp [isAbsolute, he]

/-- How a path below a directory is spelt. -/
theorem exists_toList_join (ne : directory ≠ "") (relative : isAbsolute path = false) :
    ∃ front, (join directory path).toList = front ++ '/' :: path.toList ∧
      (directory.toList = front ∨ directory.toList = front ++ ['/']) := by
  rw [join, relative, if_neg Bool.false_ne_true]
  split
  case isTrue closed =>
    obtain ⟨front, he⟩ := List.getLast?_eq_some_iff.1 (closed.resolve_left ne)
    exact ⟨front, by simp [he], .inr he⟩
  case isFalse => exact ⟨directory.toList, by simp, .inl rfl⟩

theorem utf8ByteSize_le_join (relative : isAbsolute path = false) :
    directory.utf8ByteSize ≤ (join directory path).utf8ByteSize := by
  rw [join, relative, if_neg Bool.false_ne_true]
  split <;> simp only [String.utf8ByteSize_append] <;> omega

theorem utf8ByteSize_join_le (relative : isAbsolute path = false) :
    (join directory path).utf8ByteSize ≤ directory.utf8ByteSize + 1 + path.utf8ByteSize := by
  have slash : "/".utf8ByteSize = 1 := rfl
  rw [join, relative, if_neg Bool.false_ne_true]
  split <;> simp only [String.utf8ByteSize_append, slash] <;> omega

theorem steps_join (relative : isAbsolute path = false) :
    steps (join directory path) = steps directory ++ steps path := by
  by_cases ne : directory = ""
  · subst ne
    have same : join "" path = path := by simp [join, relative]
    rw [same]
    rfl
  · obtain ⟨front, text, spelt⟩ := exists_toList_join ne relative
    have pieces : (directory.toList.splitOn '/').filterMap stepOf? =
        (front.splitOn '/').filterMap stepOf? := by
      rcases spelt with he | he
      · rw [he]
      · rw [he, List.splitOn_append_cons_self, List.filterMap_append]
        simp [stepOf?]
    rw [steps, steps, steps, isAbsolute_join ne relative, relative, pieces, text,
      List.splitOn_append_cons_self, List.filterMap_append]
    cases isAbsolute directory <;> rfl

theorem steps_join_join {start name : String} (ne : directory ≠ "") (isName : IsPathName name) :
    steps (join start (join directory name)) = steps (join start directory) ++ [.name name] := by
  have below : steps (join directory name) = steps directory ++ [.name name] := by
    rw [steps_join isName.isAbsolute_eq, isName.steps_eq]
  cases absolute : isAbsolute directory with
  | true =>
    have alone : ∀ {path}, isAbsolute path = true → join start path = path := fun h => if_pos h
    rw [alone absolute, alone ((isAbsolute_join ne isName.isAbsolute_eq).trans absolute), below]
  | false =>
    have relative := (isAbsolute_join ne isName.isAbsolute_eq).trans absolute
    rw [steps_join relative, steps_join absolute, below, List.append_assoc]

theorem endsInSlash_join {name : String} (ne : directory ≠ "") (isName : IsPathName name) :
    endsInSlash (join directory name) = false := by
  obtain ⟨front, text, -⟩ := exists_toList_join ne isName.isAbsolute_eq
  have isEmpty : name.toList ≠ [] := by simpa using isName.isName.ne_empty
  have last := isName.endsInSlash_eq
  rw [endsInSlash] at last ⊢
  rwa [text, List.getLast?_append_of_ne_nil _ (List.cons_ne_nil _ _),
    List.getLast?_cons_of_ne_nil isEmpty]

theorem splitStart_append (ne : s ≠ []) (noDot : s ≠ ['.']) (piece : List Char) :
    splitStart (s ++ '/' :: piece) = ((splitStart s).1, (splitStart s).2 ++ '/' :: piece) := by
  conv_rhs => unfold splitStart
  split
  · rfl
  · exact absurd rfl noDot
  · rfl
  · next noRoot _ noHere =>
    obtain ⟨c, r, rfl⟩ := List.exists_cons_of_ne_nil ne
    unfold splitStart
    split
    · next same => exact absurd (congrArg (· :: r) (List.cons.inj same).1) (noRoot r)
    · next same => simp at same
    · next same =>
      obtain ⟨rfl, rest⟩ := List.cons.inj same
      cases r with
      | nil => exact absurd rfl noDot
      | cons d r =>
        obtain ⟨rfl, -⟩ := List.cons.inj rest
        exact absurd rfl (noHere r)
    · rfl

theorem text_splitStart (s : List Char) :
    (((splitStart s).1.map Segment.text).getD "").toList ++ (splitStart s).2 = s := by
  unfold splitStart
  split <;> simp [Segment.text]

theorem getLast?_splitOn_splitStart (noDot : s ≠ ['.']) :
    ((splitStart s).2.splitOn '/').getLast? = (s.splitOn '/').getLast? := by
  have behind : ∀ front r : List Char,
      ((front ++ '/' :: r).splitOn '/').getLast? = (r.splitOn '/').getLast? := by
    intro front r
    rw [List.splitOn_append_cons_self,
      List.getLast?_append_of_ne_nil _ (List.splitOn_ne_nil '/' r)]
  unfold splitStart
  split
  · exact (behind [] _).symm
  · exact absurd rfl noDot
  · exact (behind [] _).trans (behind ['.'] _).symm
  · rfl

theorem trimPieces_concat {front : List (List Char)} (isSegment : (segmentOf? piece).isSome) :
    trimPieces (front ++ [piece]) = front ++ [piece] := by
  simp [trimPieces, Option.isSome_iff_ne_none.1 isSegment]

theorem parent?_join {last name : String} (isLast : IsPathName last) (isName : IsPathName name)
    (ends : (directory.toList.splitOn '/').getLast? = some last.toList) :
    parent? (join directory name) = some directory := by
  have isSegment : ∀ {name}, IsPathName name → (segmentOf? name.toList).isSome = true := by
    intro name isName
    rw [isName.segmentOf?_eq]
    rfl
  have ne : directory.toList ≠ [] := by
    intro same
    rw [same] at ends
    exact isLast.isName.ne_empty (String.toList_eq_nil_iff.1 (Option.some.inj ends).symm)
  have noDot : directory.toList ≠ ['.'] := by
    intro same
    rw [same] at ends
    exact isLast.ne_here (String.toList_inj.1 (Option.some.inj ends).symm)
  have text : (join directory name).toList = directory.toList ++ '/' :: name.toList := by
    obtain ⟨front, text, spelt⟩ :=
      exists_toList_join (mt String.toList_eq_nil_iff.2 ne) isName.isAbsolute_eq
    rcases spelt with he | he
    · rw [text, he]
    · rw [he, List.splitOn_append_cons_self, List.splitOn_nil, List.getLast?_concat] at ends
      exact absurd (String.toList_eq_nil_iff.1 (Option.some.inj ends).symm) isLast.isName.ne_empty
  rw [← getLast?_splitOn_splitStart noDot] at ends
  obtain ⟨front, pieces⟩ := List.getLast?_eq_some_iff.1 ends
  have spelt := text_splitStart directory.toList
  have body : ['/'].intercalate (front ++ [last.toList]) = (splitStart directory.toList).2 := by
    rw [← pieces, List.intercalate_splitOn]
  rw [parent?, text, splitStart_append ne noDot]
  simp only [List.splitOn_append_cons_self, pieces, isName.splitOn_eq,
    trimPieces_concat (isSegment isName)]
  split
  · next none _ => simp at none
  · next none _ => simp at none
  · rw [List.dropLast_concat, trimPieces_concat (isSegment isLast), body]
    exact congrArg some (String.toList_inj.1 (by simpa using spelt))

theorem getLast?_splitOn_join {name : String} (isName : IsPathName name) :
    ((join directory name).toList.splitOn '/').getLast? = some name.toList := by
  by_cases ne : directory = ""
  · have same : join directory name = name := by simp [join, ne, isName.isAbsolute_eq]
    rw [same, isName.splitOn_eq]
    rfl
  · obtain ⟨front, text, -⟩ := exists_toList_join ne isName.isAbsolute_eq
    rw [text, List.splitOn_append_cons_self, isName.splitOn_eq, List.getLast?_concat]

theorem join_ne_empty {name : String} (isName : IsPathName name) : join directory name ≠ "" := by
  intro empty
  have last : ((join directory name).toList.splitOn '/').getLast? = some name.toList :=
    getLast?_splitOn_join isName
  rw [empty] at last
  exact isName.isName.ne_empty (String.toList_eq_nil_iff.1 (Option.some.inj last).symm)

end Path

namespace FileTree

open AngularAtlas.Path (join)

variable {t t' : FileTree} {path name text : String} {steps : List Segment} {place : Location}
  {entries inner : List (String × Entry)} {content : ByteArray}

/-- A path is not empty, has no null character and is not too long. -/
theorem boundedSteps_eq_ok_iff : t.boundedSteps path = .ok steps ↔
    path ≠ "" ∧ '\x00' ∉ path.toList ∧ path.utf8ByteSize ≤ maxPathSize ∧
      steps = Path.steps (join t.workingDirectory path) := by
  rw [boundedSteps, stepsOf]
  by_cases empty : path = ""
  · simp [empty, bind, Except.bind]
  by_cases null : '\x00' ∈ path.toList
  · simp [empty, null, bind, Except.bind]
  by_cases long : maxPathSize < path.utf8ByteSize
  · simp [empty, null, bind, Except.bind, throw, throwThe, MonadExceptOf.throw, long]
  · simp [empty, null, bind, Except.bind, pure, Except.pure, long, Nat.not_lt.1 long, eq_comm]

theorem boundedSteps_join (taken : t.boundedSteps path = .ok steps) (isName : IsPathName name)
    (fits : (join path name).utf8ByteSize ≤ maxPathSize) :
    t.boundedSteps (join path name) = .ok (steps ++ [.name name]) := by
  obtain ⟨ne, noNull, -, rfl⟩ := boundedSteps_eq_ok_iff.1 taken
  obtain ⟨front, text, spelt⟩ := Path.exists_toList_join ne isName.isAbsolute_eq
  refine boundedSteps_eq_ok_iff.2
    ⟨Path.join_ne_empty isName, ?_, fits, (Path.steps_join_join ne isName).symm⟩
  have noNullFront : '\x00' ∉ front := by
    rcases spelt with he | he
    · rwa [← he]
    · rw [he] at noNull
      exact fun mem => noNull (List.mem_append_left _ mem)
  simp [text, noNullFront, isName.no_null]

/-- A walk goes on behind the path of a directory. -/
theorem exists_follow_of_locate (led : t.locate path = .ok (place, .directory entries))
    (stays : Stays t.root t'.root) (sameStart : t'.workingDirectory = t.workingDirectory) :
    ∃ steps links there, t'.boundedSteps path = .ok steps ∧ Trail.IsFrom t'.root there ∧
      Trail.location there = place ∧ (∃ entries', there.entry t'.root = .directory entries') ∧
      ∀ creating slash more, (more = [] → creating = false) →
        ∃ slash', follow t'.root creating maxLinks slash [] (steps ++ more) =
          follow t'.root creating links slash' there more ∧ (more ≠ [] → slash' = slash) := by
  obtain ⟨steps, taken, -, followed⟩ := exists_of_resolve (locate_eq_ok_iff.1 led)
  obtain ⟨links, there, isFrom, reached, goesOn⟩ :=
    exists_follow_append stays (.nil t.root t'.root) followed
  refine ⟨steps, links, there, ?_, isFrom, reached, ?_, goesOn⟩
  · rw [boundedSteps_eq_ok_iff] at taken ⊢
    rwa [sameStart]
  · obtain ⟨entries', here⟩ := stays.exists_directory (at?_of_locate led)
    rw [← reached, isFrom.at?_location] at here
    exact ⟨entries', Option.some.inj here⟩

/-- Where a path leads to a directory, it still does when directories and links are still there. -/
theorem exists_locate_directory (led : t.locate path = .ok (place, .directory entries))
    (stays : Stays t.root t'.root) (sameStart : t'.workingDirectory = t.workingDirectory) :
    ∃ entries', t'.locate path = .ok (place, .directory entries') := by
  obtain ⟨steps, links, there, taken, -, reached, ⟨entries', entry⟩, goesOn⟩ :=
    exists_follow_of_locate led stays sameStart
  obtain ⟨slash', led', -⟩ := goesOn false (Path.endsInSlash path) [] fun _ => rfl
  refine ⟨entries', ?_⟩
  rw [List.append_nil, follow, entry, reached] at led'
  rw [locate_eq_ok_iff, resolve, taken]
  exact led'

/-- The walk to a name in a directory ends with a step from the directory. -/
theorem exists_follow_join (led : t.locate path = .ok (place, .directory entries))
    (isName : IsPathName name) (fits : (join path name).utf8ByteSize ≤ maxPathSize) :
    ∃ steps links there, t.boundedSteps (join path name) = .ok (steps ++ [.name name]) ∧
      Trail.location there = place ∧ there.entry t.root = .directory entries ∧
      follow t.root false maxLinks false [] steps = .ok (.found place (.directory entries)) ∧
      ∀ creating, follow t.root creating maxLinks (Path.endsInSlash (join path name)) []
        (steps ++ [.name name]) = follow t.root creating links false there [.name name] := by
  obtain ⟨steps, links, there, taken, isFrom, reached, -, goesOn⟩ :=
    exists_follow_of_locate led (Stays.refl t.root) rfl
  have entry : there.entry t.root = .directory entries := by
    have here := isFrom.at?_location
    rw [reached, at?_of_locate led] at here
    exact (Option.some.inj here).symm
  have noSlash := Path.endsInSlash_join (boundedSteps_eq_ok_iff.1 taken).1 isName
  refine ⟨steps, links, there, boundedSteps_join taken isName fits, reached, entry, ?_, ?_⟩
  · obtain ⟨slash, followed, -⟩ := goesOn false false [] fun _ => rfl
    rw [List.append_nil, follow, entry, reached] at followed
    exact followed
  · intro creating
    obtain ⟨slash, followed, same⟩ := goesOn creating false [.name name] (by simp)
    rw [noSlash, followed, same (List.cons_ne_nil _ _)]

variable (led : t.locate path = .ok (place, .directory entries)) (isName : IsPathName name)
  (fits : (join path name).utf8ByteSize ≤ maxPathSize)

include led isName fits

theorem locate_join_directory (found : entries.lookup name = some (.directory inner)) :
    t.locate (join path name) = .ok (place ++ [name], .directory inner) := by
  obtain ⟨steps, links, there, taken, reached, entry, -, goesOn⟩ :=
    exists_follow_join led isName fits
  rw [locate_eq_ok_iff, resolve, taken]
  refine (goesOn false).trans ?_
  simp [follow, entry, Entry.isDirectory, isName.lookup_eq, found, ← reached, Trail.location]
  rfl

theorem createDirectory_join (missing : entries.lookup name = none) :
    t.createDirectory (join path name) = .ok (t.put (place ++ [name]) (.directory [])) := by
  obtain ⟨steps, links, there, taken, reached, entry, whole, -⟩ :=
    exists_follow_join led isName fits
  have notThere : ¬ (!(Entry.directory entries).isDirectory) = true := by simp [Entry.isDirectory]
  simp only [createDirectory, taken, bind, Except.bind, List.dropLast_concat, whole,
    List.getLast?_concat, if_neg notThere, isName.lookup_eq, missing]
  rfl

theorem resolve_join (free : ∀ e ∈ entries.lookup name, ∃ content, e = .file content)
    (creating : Bool) :
    t.resolve creating (join path name) =
      match entries.lookup name, creating with
      | some e, _ => .ok (.found (place ++ [name]) e)
      | none, true => .ok (.vacant (place ++ [name]))
      | none, false => .error .notFound := by
  obtain ⟨steps, links, there, taken, reached, entry, -, goesOn⟩ :=
    exists_follow_join led isName fits
  rw [resolve, taken]
  refine (goesOn creating).trans ?_
  cases found : entries.lookup name with
  | none => cases creating <;>
      simp [follow, entry, Entry.isDirectory, isName.lookup_eq, found, reached]
  | some e =>
    obtain ⟨content, rfl⟩ := free e found
    simp [follow, entry, Entry.isDirectory, isName.lookup_eq, found, reached]

/-- Where the path of a name in a directory leads if there is no directory and no link. -/
theorem locate_join (free : ∀ e ∈ entries.lookup name, ∃ content, e = .file content) :
    t.locate (join path name) =
      match entries.lookup name with
      | some e => .ok (place ++ [name], e)
      | none => .error .notFound := by
  rw [locate, resolve_join led isName fits free]
  cases entries.lookup name <;> rfl

theorem pathExists_join_of_missing (missing : entries.lookup name = none) :
    t.pathExists (join path name) = false := by
  rw [pathExists, locate_join led isName fits (by simp [missing]), missing]

/-- A directory is made in one that is there. -/
theorem createDirectories_join_of_missing (missing : entries.lookup name = none) :
    t.createDirectories (join path name) = .ok (t.put (place ++ [name]) (.directory [])) := by
  rw [createDirectories, createDirectoriesWithin, if_neg (Path.join_ne_empty isName),
    createDirectory_join led isName fits missing]

/-- A directory that is there already is kept. -/
theorem createDirectories_join_of_directory
    (found : entries.lookup name = some (.directory inner)) :
    t.createDirectories (join path name) = .ok t := by
  obtain ⟨steps, links, there, taken, reached, entry, whole, -⟩ :=
    exists_follow_join led isName fits
  have refused : t.createDirectory (join path name) = .error .alreadyExists := by
    have isThere : ¬ (!(Entry.directory entries).isDirectory) = true := by
      simp [Entry.isDirectory]
    simp only [createDirectory, taken, bind, Except.bind, List.dropLast_concat, whole,
      List.getLast?_concat, if_neg isThere, isName.lookup_eq, found]
    rfl
  have isDirectory : t.isDirectory (join path name) = true := by
    rw [FileTree.isDirectory, locate_join_directory led isName fits found]
    rfl
  rw [createDirectories, createDirectoriesWithin, if_neg (Path.join_ne_empty isName), refused]
  simp [isDirectory]

/-- A file can be written in a directory where nothing or a file stands. -/
theorem write_join (free : ∀ e ∈ entries.lookup name, ∃ content, e = .file content)
    (text : String) :
    t.write (join path name) text = .ok (t.put (place ++ [name]) (.file text.toUTF8)) := by
  rw [write, writeBytes, resolve_join led isName fits free]
  cases found : entries.lookup name with
  | none => rfl
  | some e =>
    obtain ⟨content, rfl⟩ := free e found
    rfl

end FileTree

end AngularAtlas
