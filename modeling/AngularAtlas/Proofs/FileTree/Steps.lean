import AngularAtlas.Proofs.FileTree.Places
import AngularAtlas.Proofs.Text.Comment

namespace AngularAtlas

open Entry (Proper Takes)

/-- All names in some steps are names that an entry can have. -/
def AreNames (steps : List Segment) : Prop := ∀ name, .name name ∈ steps → IsName name

theorem AreNames.of_cons {step : Segment} {steps : List Segment} (h : AreNames (step :: steps)) :
    AreNames steps :=
  fun name mem => h name (List.mem_cons_of_mem _ mem)

theorem areNames_steps (path : String) : AreNames (Path.steps path) := by
  intro name mem
  have listed : .name name ∈ (path.toList.splitOn '/').filterMap Path.stepOf? := by
    rw [Path.steps] at mem
    split at mem
    · simpa using mem
    · exact mem
  obtain ⟨piece, hp, step⟩ := List.mem_filterMap.1 listed
  rw [Path.stepOf?] at step
  split_ifs at step with empty
  · cases step
  · cases step
  · obtain rfl := Segment.name.inj (Option.some.inj step)
    exact ⟨by simpa using empty, by simpa using Text.not_mem_of_mem_splitOn hp⟩

/-- The place of a target, whether something stands there or not. -/
def Target.location : Target → Location
  | .found location _ => location
  | .vacant location => location

namespace FileTree

variable {t : FileTree} {root root' e : Entry} {creating slash : Bool} {links links' : Nat}
  {trail trail' : Trail} {steps more : List Segment} {target : Target} {location : Location}
  {content : ByteArray} {path : String}

theorem exists_of_isDirectory (h : e.isDirectory = true) : ∃ entries, e = .directory entries := by
  cases e with
  | directory entries => exact ⟨entries, rfl⟩
  | file | link => cases h

theorem exists_of_follow_vacant (start : trail.IsFrom root) (isNames : AreNames steps)
    (h : follow root creating links slash trail steps = .ok (.vacant location)) :
    ∃ base name entries, location = base ++ [name] ∧
      root.at? base = some (.directory entries) ∧ entries.lookup name = none ∧ IsName name := by
  fun_induction follow root creating links slash trail steps with
  | case1 => exact Target.noConfusion (Except.ok.inj h)
  | case2 _ _ _ _ ih => exact ih trivial isNames.of_cons h
  | case3 _ _ _ _ ih => exact ih start isNames.of_cons h
  | case4 _ _ _ _ ih => exact ih start.tail isNames.of_cons h
  | case8 _ _ trail name rest directory _ missing =>
    obtain rfl := Target.vacant.inj (Except.ok.inj h)
    obtain ⟨entries, entry⟩ := exists_of_isDirectory (by simpa using directory)
    refine ⟨trail.location, name, entries, rfl, ?_, ?_, isNames name List.mem_cons_self⟩
    · rw [start.at?_location, entry]
    · simpa [entry, Entry.child?] using Entry.child?_of_lookup missing
  | case11 _ _ _ _ _ _ _ _ _ _ ih =>
    refine ih start (fun name mem => ?_) h
    rcases List.mem_append.1 mem with mem | mem
    · exact areNames_steps _ name mem
    · exact isNames.of_cons name mem
  | case14 _ _ _ _ _ _ _ _ found ih =>
    exact ih ⟨Entry.child?_of_lookup found, start⟩ isNames.of_cons h
  | case12 => exact Target.noConfusion (Except.ok.inj h)
  | case5 | case6 | case7 | case9 | case10 | case13 => contradiction

/-- In a file system whose root is no link, no path leads to a link. -/
theorem ne_link_of_follow (directory : root.isDirectory = true)
    (inside : ∀ step ∈ trail, step.2.isDirectory = true)
    (h : follow root creating links slash trail steps = .ok (.found location e)) (link : String) :
    e ≠ .link link := by
  fun_induction follow root creating links slash trail steps with
  | case1 _ _ trail =>
    obtain ⟨-, rfl⟩ := Target.found.inj (Except.ok.inj h)
    rintro isLink
    cases trail with
    | nil =>
      obtain rfl : root = _ := isLink
      cases directory
    | cons step trail =>
      have here := inside step List.mem_cons_self
      have same : step.2 = .link link := isLink
      rw [same] at here
      cases here
  | case2 _ _ _ _ ih => exact ih (List.forall_mem_nil _) h
  | case3 _ _ _ _ ih => exact ih inside h
  | case4 _ _ _ _ ih => exact ih (fun step mem => inside step (List.mem_of_mem_tail mem)) h
  | case11 _ _ _ _ _ _ _ _ _ _ ih => exact ih inside h
  | case12 =>
    obtain ⟨-, rfl⟩ := Target.found.inj (Except.ok.inj h)
    exact Entry.noConfusion
  | case14 _ _ _ _ _ _ _ _ _ ih => exact ih (List.forall_mem_cons.2 ⟨rfl, inside⟩) h
  | case8 => exact Target.noConfusion (Except.ok.inj h)
  | case5 | case6 | case7 | case9 | case10 | case13 => contradiction

/-- Names are only looked up where the root is a directory. -/
theorem isDirectory_of_follow {name : String} (mem : .name name ∈ steps)
    (h : follow root creating links slash [] steps = .ok target) : root.isDirectory = true := by
  induction steps with
  | nil => simp at mem
  | cons step steps ih =>
    cases step with
    | root | here | up =>
      rw [follow] at h
      exact ih (by simpa using mem) h
    | name first =>
      rw [follow] at h
      by_contra noDirectory
      have inside : (Trail.entry root []).isDirectory = false := by
        simpa [Trail.entry] using noDirectory
      simp [inside] at h

/-- Directories and links stay as they are. -/
def Stays (root root' : Entry) : Prop :=
  ∀ place e, root.seen? place = some e → (∀ content, e ≠ .file content) → root'.seen? place = some e

theorem Stays.exists_directory {entries : List (String × Entry)} (stays : Stays root root')
    (here : root.at? location = some (.directory entries)) :
    ∃ entries, root'.at? location = some (.directory entries) :=
  Entry.seen?_eq_directory_iff.1
    (stays _ _ (Entry.seen?_eq_directory_iff.2 ⟨entries, here⟩) (by rintro _ ⟨⟩))

theorem Stays.at?_link {text : String} (stays : Stays root root')
    (here : root.at? location = some (.link text)) : root'.at? location = some (.link text) :=
  Entry.seen?_eq_link_iff.1 (stays _ _ (Entry.seen?_eq_link_iff.2 here) (by rintro _ ⟨⟩))

theorem at?_location_append (start : trail.IsFrom root) (name : String) :
    root.at? (trail.location ++ [name]) = (trail.entry root).child? name := by
  rw [Entry.at?_append, start.at?_location, Option.bind_some, Entry.at?]
  cases (trail.entry root).child? name <;> rfl

/-- Two trails with the same names, each from a root of its own. -/
structure Alongside (root root' : Entry) (trail trail' : Trail) : Prop where
  isFrom : trail.IsFrom root
  isFrom' : trail'.IsFrom root'
  names_eq : trail'.map Prod.fst = trail.map Prod.fst

namespace Alongside

theorem nil (root root' : Entry) : Alongside root root' [] [] := ⟨trivial, trivial, rfl⟩

theorem tail (h : Alongside root root' trail trail') :
    Alongside root root' trail.tail trail'.tail :=
  ⟨h.isFrom.tail, h.isFrom'.tail, by
    simpa only [List.map_tail] using congrArg List.tail h.names_eq⟩

theorem cons {name : String} {child child' : Entry} (h : Alongside root root' trail trail')
    (found : (trail.entry root).child? name = some child)
    (found' : (trail'.entry root').child? name = some child') :
    Alongside root root' ((name, child) :: trail) ((name, child') :: trail') :=
  ⟨⟨found, h.isFrom⟩, ⟨found', h.isFrom'⟩, by simpa using h.names_eq⟩

theorem location_eq (h : Alongside root root' trail trail') :
    trail'.location = trail.location := congrArg List.reverse h.names_eq

theorem entry_eq (h : Alongside root root' trail trail')
    (there : root'.at? trail.location = some e) : trail'.entry root' = e := by
  rw [← h.location_eq, h.isFrom'.at?_location] at there
  exact Option.some.inj there

theorem isDirectory_entry (h : Alongside root root' trail trail') (stays : Stays root root')
    (directory : (trail.entry root).isDirectory = true) :
    (trail'.entry root').isDirectory = true := by
  obtain ⟨entries, entry⟩ := exists_of_isDirectory directory
  obtain ⟨_, here⟩ := stays.exists_directory (h.isFrom.at?_location.trans (congrArg some entry))
  rw [h.entry_eq here]
  rfl

/-- What is found under a name of a trail is found under it in any root where it stands. -/
theorem lookup_eq {name : String} {found : Option Entry} (h : Alongside root root' trail trail')
    (looked : (trail.entry root).lookup name = .ok found)
    (there : root'.at? (trail.location ++ [name]) = some e) :
    (trail'.entry root').lookup name = .ok (some e) := by
  rw [Entry.lookup] at looked ⊢
  split at looked
  case isTrue => cases looked
  case isFalse short =>
    rw [if_neg short, ← at?_location_append h.isFrom', h.location_eq, there]

theorem lookup_link {name text : String} (h : Alongside root root' trail trail')
    (stays : Stays root root') (found : (trail.entry root).lookup name = .ok (some (.link text))) :
    (trail'.entry root').lookup name = .ok (some (.link text)) :=
  h.lookup_eq found (stays.at?_link
    ((at?_location_append h.isFrom name).trans (Entry.child?_of_lookup found)))

theorem exists_lookup_directory {name : String} {entries : List (String × Entry)}
    (h : Alongside root root' trail trail') (stays : Stays root root')
    (found : (trail.entry root).lookup name = .ok (some (.directory entries))) :
    ∃ entries', (trail'.entry root').lookup name = .ok (some (.directory entries')) ∧
      Alongside root root' ((name, .directory entries) :: trail)
        ((name, .directory entries') :: trail') := by
  have child := Entry.child?_of_lookup found
  obtain ⟨entries', there⟩ := stays.exists_directory
    ((at?_location_append h.isFrom name).trans child)
  have found' := h.lookup_eq found there
  exact ⟨entries', found', h.cons child (Entry.child?_of_lookup found')⟩

end Alongside

/-- Where a path leads to a file, or to where one can be, it leads when a file stands there and the
directories and links are still there. -/
theorem follow_of_stays (stays : Stays root root') (both : Alongside root root' trail trail')
    (h : follow root creating links slash trail steps = .ok target)
    (there : root'.at? target.location = some (.file content)) :
    follow root' false links slash trail' steps =
      .ok (.found target.location (.file content)) := by
  fun_induction follow root creating links slash trail steps generalizing trail' with
  | case1 =>
    obtain rfl := Except.ok.inj h
    rw [follow, both.entry_eq there, both.location_eq]
    rfl
  | case2 _ _ _ _ ih =>
    rw [follow]
    exact ih (.nil root root') h
  | case3 _ _ _ _ ih =>
    rw [follow]
    exact ih both h
  | case4 _ _ _ _ ih =>
    rw [follow]
    exact ih both.tail h
  | case8 _ slash trail name rest directory noSlash missing last =>
    obtain rfl := Except.ok.inj h
    have directory' := both.isDirectory_entry stays (by simpa using directory)
    obtain ⟨rfl, rfl⟩ := last
    have open' : slash = false := by simpa using noSlash
    rw [follow, directory', both.lookup_eq missing there]
    simp [open', both.location_eq]
    rfl
  | case11 _ _ _ _ directory _ _ found =>
    rename_i ih
    have directory' := both.isDirectory_entry stays (by simpa using directory)
    rw [follow, directory', both.lookup_link stays found]
    simpa using ih both h
  | case12 _ _ _ _ _ directory _ _ found last =>
    obtain rfl := Except.ok.inj h
    have directory' := both.isDirectory_entry stays (by simpa using directory)
    rw [follow, directory', both.lookup_eq found there]
    simp [last, both.location_eq, Target.location]
  | case14 _ _ _ _ _ directory _ _ found ih =>
    have directory' := both.isDirectory_entry stays (by simpa using directory)
    obtain ⟨entries', found', both'⟩ := both.exists_lookup_directory stays found
    rw [follow, directory', found']
    simpa using ih both' h
  | case5 | case6 | case7 | case9 | case10 | case13 => contradiction

theorem Stays.refl (root : Entry) : Stays root root := fun _ _ seen _ => seen

theorem not_creating_append {rest : List Segment} (last : more = [] → creating = false) :
    ¬ (rest ++ more = [] ∧ slash = true ∧ creating = true) := by
  rintro ⟨empty, -, isCreating⟩
  rw [last (List.append_eq_nil_iff.1 empty).2] at isCreating
  cases isCreating

/-- Where some steps lead to a directory, a walk goes on from there with what steps follow, also in
a file system that has grown. A slash behind the last step only matters for what follows. -/
theorem exists_follow_append {entries : List (String × Entry)} (stays : Stays root root')
    (both : Alongside root root' trail trail')
    (h : follow root creating links slash trail steps =
      .ok (.found location (.directory entries))) :
    ∃ links' there, Trail.IsFrom root' there ∧ Trail.location there = location ∧
      ∀ creating slash more, (more = [] → creating = false) →
        ∃ slash', follow root' creating links slash trail' (steps ++ more) =
          follow root' creating links' slash' there more ∧ (more ≠ [] → slash' = slash) := by
  fun_induction follow root creating links slash trail steps generalizing trail' with
  | case1 links slash trail =>
    obtain ⟨rfl, -⟩ := Target.found.inj (Except.ok.inj h)
    exact ⟨links, trail', both.isFrom', both.location_eq,
      fun creating slash more _ => ⟨slash, rfl, fun _ => rfl⟩⟩
  | case2 _ _ _ _ ih =>
    simp only [List.cons_append, follow]
    exact ih (.nil root root') h
  | case3 _ _ _ _ ih =>
    simp only [List.cons_append, follow]
    exact ih both h
  | case4 _ _ _ _ ih =>
    simp only [List.cons_append, follow]
    exact ih both.tail h
  | case11 _ _ _ rest directory _ link found =>
    rename_i ih
    have directory' := both.isDirectory_entry stays (by simpa using directory)
    obtain ⟨links', there, isFrom, reached, goesOn⟩ := ih both h
    refine ⟨links', there, isFrom, reached, fun creating slash more last => ?_⟩
    obtain ⟨slash', led, kept⟩ := goesOn creating
      (slash || (rest ++ more = [] && Path.endsInSlash link)) more last
    refine ⟨slash', ?_, fun ne => ?_⟩
    · rw [List.cons_append, follow, directory', if_neg (by simp), if_neg (not_creating_append last),
        both.lookup_link stays found]
      rw [List.append_assoc] at led
      exact led
    · simpa [ne] using kept ne
  | case14 _ _ _ name rest directory _ _ found ih =>
    have directory' := both.isDirectory_entry stays (by simpa using directory)
    obtain ⟨entries', found', both'⟩ := both.exists_lookup_directory stays found
    obtain ⟨links', there, isFrom, reached, goesOn⟩ := ih both' h
    refine ⟨links', there, isFrom, reached, fun creating slash more last => ?_⟩
    obtain ⟨slash', led, kept⟩ := goesOn creating slash more last
    refine ⟨slash', ?_, kept⟩
    rw [List.cons_append, follow, directory', if_neg (by simp), if_neg (not_creating_append last),
      found']
    exact led
  | case12 =>
    obtain ⟨-, same⟩ := Target.found.inj (Except.ok.inj h)
    cases same
  | case8 => exact Target.noConfusion (Except.ok.inj h)
  | case5 | case6 | case7 | case9 | case10 | case13 => contradiction

end FileTree

end AngularAtlas
