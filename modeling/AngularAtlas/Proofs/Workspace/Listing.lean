import AngularAtlas.Proofs.FileTree.Proper
import AngularAtlas.Proofs.Text.ByteOrder
import AngularAtlas.Workspace
import Mathlib.Data.List.Nodup

namespace AngularAtlas

open Entry (Proper)

/-- The order of a walk: a place comes before those below it, and where two places part, the one
whose name has the lesser bytes comes first. -/
def Location.Before (a b : Location) : Prop := a.map Text.bytes < b.map Text.bytes

/-- Whether an entry is listed, and then whether it is a directory. Links are not listed. -/
def Entry.listed? : Entry → Option Bool
  | .directory _ => some true
  | .file _ => some false
  | .link _ => none

variable {excluded : String → Bool} {location place : Location} {name next : String}
  {names rest more : List String} {e child : Entry} {entries : List (String × Entry)}
  {isDirectory : Bool}

theorem Location.before_append_cons : location.Before (location ++ name :: rest) := by
  have less : location.map Text.bytes ++ [] <
      location.map Text.bytes ++ (name :: rest).map Text.bytes :=
    List.append_left_lt (List.nil_lt_cons _ _)
  rwa [List.append_nil, ← List.map_append] at less

theorem Location.before_of_lt (lt : name < next) :
    Location.Before (location ++ name :: rest) (location ++ next :: more) := by
  rw [Location.Before, List.map_append, List.map_append]
  exact List.append_left_lt (List.cons_lt_cons_iff.2 (.inl (Text.bytes_lt_bytes lt)))

theorem Location.Before.ne {a b : Location} (h : a.Before b) : a ≠ b := by
  rintro rfl
  exact List.lt_irrefl _ h

theorem FileTree.at?_of_canonical {t : FileTree} {path : String}
    (h : t.canonical path = .ok (.found place e)) : t.root.at? place = some e := by
  unfold FileTree.canonical at h
  cases steps : t.stepsOf path with
  | error cause =>
    rw [steps] at h
    cases h
  | ok segments =>
    rw [steps] at h
    have start : Trail.IsFrom t.root [] := trivial
    exact at?_of_follow start h

namespace Workspace

/-- Some names lead to an entry that is listed. -/
def Stands (e : Entry) (names : List String) (isDirectory : Bool) : Prop :=
  (e.at? names).bind Entry.listed? = some isDirectory

/-- No directory on the way is excluded; the name of a file itself does not matter. -/
def Passable (excluded : String → Bool) (names : List String) (isDirectory : Bool) : Prop :=
  ∀ name ∈ if isDirectory then names else names.dropLast, excluded name = false

variable {w : Workspace}

theorem passable_cons_cons : Passable excluded (name :: next :: rest) isDirectory ↔
    excluded name = false ∧ Passable excluded (next :: rest) isDirectory := by
  cases isDirectory <;> simp [Passable]

theorem stands_true :
    Stands e names true ↔ ∃ entries, e.at? names = some (.directory entries) := by
  rw [Stands, Option.bind_eq_some_iff]
  constructor
  · rintro ⟨_ | _ | entries, found, ⟨⟩⟩
    exact ⟨entries, found⟩
  · rintro ⟨entries, found⟩
    exact ⟨_, found, rfl⟩

theorem stands_false : Stands e names false ↔ ∃ content, e.at? names = some (.file content) := by
  rw [Stands, Option.bind_eq_some_iff]
  constructor
  · rintro ⟨content | _ | _, found, ⟨⟩⟩
    exact ⟨content, found⟩
  · rintro ⟨content, found⟩
    exact ⟨_, found, rfl⟩

theorem stands_cons (h : Proper (.directory entries)) :
    Stands (.directory entries) (name :: rest) isDirectory ↔
      ∃ child, (name, child) ∈ entries ∧ Stands child rest isDirectory := by
  simp only [h.mem_iff]
  rw [Stands, Entry.at?, Option.bind_assoc, Option.bind_eq_some_iff]
  rfl

theorem not_stands_cons (h : ∀ entries, e ≠ .directory entries) :
    ¬ Stands e (name :: rest) isDirectory := by
  cases e with
  | directory entries => exact absurd rfl (h entries)
  | file | link => simp [Stands, Entry.at?, Entry.child?]

theorem not_stands_link {target : String} : ¬ Stands (.link target) names isDirectory := by
  intro stands
  cases names with
  | nil => cases stands
  | cons name rest => exact not_stands_cons (by rintro _ ⟨⟩) stands

theorem walkEntries_eq (excluded : String → Bool) (location : Location)
    (entries : List (String × Entry)) :
    walkEntries excluded location entries =
      entries.flatMap fun entry => walkEntry excluded location entry.1 entry.2 := by
  induction entries with
  | nil => rfl
  | cons entry entries ih => rw [walkEntries, ih, List.flatMap_cons]

/-- A walk from an entry gets to a place: something listed stands there, and no directory on the way
is excluded. -/
def Reached (excluded : String → Bool) (name : String) (e : Entry) (location place : Location)
    (isDirectory : Bool) : Prop :=
  ∃ rest, place = location ++ name :: rest ∧ Passable excluded (name :: rest) isDirectory ∧
    Stands e rest isDirectory

theorem reached_file {content : ByteArray} :
    Reached excluded name (.file content) location place isDirectory ↔
      place = location ++ [name] ∧ isDirectory = false := by
  constructor
  · rintro ⟨rest, rfl, -, stands⟩
    cases rest with
    | nil => exact ⟨rfl, (Option.some.inj stands).symm⟩
    | cons next rest => exact absurd stands (not_stands_cons (by rintro _ ⟨⟩))
  · rintro ⟨rfl, rfl⟩
    exact ⟨[], rfl, List.forall_mem_nil _, rfl⟩

theorem not_reached_link {target : String} :
    ¬ Reached excluded name (.link target) location place isDirectory :=
  fun ⟨_, _, _, stands⟩ => not_stands_link stands

theorem reached_directory (h : Proper (.directory entries)) :
    Reached excluded name (.directory entries) location place isDirectory ↔
      excluded name = false ∧ (place = location ++ [name] ∧ isDirectory = true ∨
        ∃ entry ∈ entries,
          Reached excluded entry.1 entry.2 (location ++ [name]) place isDirectory) := by
  constructor
  · rintro ⟨rest, rfl, passable, stands⟩
    cases rest with
    | nil =>
      obtain rfl := Option.some.inj stands
      exact ⟨passable name (List.mem_singleton_self _), .inl ⟨rfl, rfl⟩⟩
    | cons next rest =>
      obtain ⟨child, mem, stands⟩ := (stands_cons h).1 stands
      obtain ⟨allowed, passable⟩ := passable_cons_cons.1 passable
      exact ⟨allowed, .inr ⟨(next, child), mem, rest, by simp, passable, stands⟩⟩
  · rintro ⟨allowed, ⟨rfl, rfl⟩ | ⟨entry, mem, rest, rfl, passable, stands⟩⟩
    · exact ⟨[], rfl, by simpa [Passable] using allowed, rfl⟩
    · exact ⟨entry.1 :: rest, by simp, passable_cons_cons.2 ⟨allowed, passable⟩,
        (stands_cons h).2 ⟨entry.2, mem, stands⟩⟩

theorem mem_walkEntry_iff (h : e.Proper) :
    ⟨place, isDirectory⟩ ∈ walkEntry excluded location name e ↔
      Reached excluded name e location place isDirectory := by
  induction h generalizing location name with
  | file content => rw [reached_file, walkEntry, List.mem_singleton, Visit.mk.injEq]
  | link target => simp [walkEntry, not_reached_link]
  | @directory entries increasing isNames proper ih =>
    rw [reached_directory (.directory increasing isNames proper), walkEntry]
    cases excluded name with
    | true => simp
    | false =>
      rw [if_neg Bool.false_ne_true, List.mem_cons, Visit.mk.injEq, walkEntries_eq,
        List.mem_flatMap]
      simp only [true_and]
      exact or_congr_right
        (exists_congr fun entry => and_congr_right fun mem => ih entry mem)

/-- The places of a walk are in order. -/
def Ordered (visits : List Visit) : Prop :=
  visits.Pairwise fun a b => a.location.Before b.location

theorem exists_of_mem_walkEntries (h : Proper (.directory entries)) {v : Visit}
    (met : v ∈ walkEntries excluded location entries) :
    ∃ name rest, v.location = location ++ name :: rest := by
  rw [walkEntries_eq, List.mem_flatMap] at met
  obtain ⟨entry, mem, met⟩ := met
  obtain ⟨rest, place, -⟩ := (mem_walkEntry_iff (h.proper entry mem)).1 met
  exact ⟨entry.1, rest, place⟩

theorem ordered_walkEntries (h : Proper (.directory entries))
    (inner : ∀ entry ∈ entries, Ordered (walkEntry excluded location entry.1 entry.2)) :
    Ordered (walkEntries excluded location entries) := by
  rw [walkEntries_eq, Ordered, List.pairwise_flatMap]
  refine ⟨inner, h.increasing.imp_of_mem fun {a b} ha hb lt v hv w hw => ?_⟩
  obtain ⟨_, first, -⟩ := (mem_walkEntry_iff (h.proper a ha)).1 hv
  obtain ⟨_, second, -⟩ := (mem_walkEntry_iff (h.proper b hb)).1 hw
  rw [first, second]
  exact Location.before_of_lt lt

theorem ordered_walkEntry (h : e.Proper) : Ordered (walkEntry excluded location name e) := by
  induction h generalizing location name with
  | file content => exact List.pairwise_singleton _ _
  | link target => exact .nil
  | @directory entries increasing isNames proper ih =>
    have whole : Proper (.directory entries) := .directory increasing isNames proper
    rw [walkEntry]
    split
    · exact .nil
    · refine List.pairwise_cons.2 ⟨fun v met => ?_, ordered_walkEntries whole fun entry mem =>
        ih entry mem⟩
      obtain ⟨next, rest, place⟩ := exists_of_mem_walkEntries whole met
      rw [place]
      exact Location.before_append_cons

theorem mem_visits_iff (proper : w.tree.root.Proper)
    (found : w.tree.root.at? w.root = some (.directory entries))
    (allowed : ∀ name ∈ w.root.getLast?, name ∉ w.excludes) :
    ⟨place, isDirectory⟩ ∈ w.visits ↔ ∃ names ≠ [], place = w.root ++ names ∧
      Passable w.isExcluded names isDirectory ∧ Stands w.tree.root place isDirectory := by
  have inside : Proper (.directory entries) := (proper.of_at? found).2
  have start : ¬ w.root.getLast?.any w.isExcluded = true := by
    simpa [Option.any_eq_true, isExcluded] using allowed
  rw [visits, if_neg start, found]
  dsimp only
  rw [walkEntries_eq, List.mem_flatMap]
  constructor
  · rintro ⟨entry, mem, met⟩
    obtain ⟨rest, rfl, passable, stands⟩ := (mem_walkEntry_iff (inside.proper _ mem)).1 met
    refine ⟨entry.1 :: rest, List.cons_ne_nil _ _, rfl, passable, ?_⟩
    rw [Stands, Entry.at?_append, found]
    exact (stands_cons inside).2 ⟨entry.2, mem, stands⟩
  · rintro ⟨names, ne, rfl, passable, stands⟩
    obtain ⟨name, rest, rfl⟩ := List.exists_cons_of_ne_nil ne
    rw [Stands, Entry.at?_append, found] at stands
    obtain ⟨child, mem, stands⟩ := (stands_cons inside).1 stands
    exact ⟨(name, child), mem,
      (mem_walkEntry_iff (inside.proper _ mem)).2 ⟨rest, rfl, passable, stands⟩⟩

theorem visits_of_excluded (excluded : ∃ name ∈ w.root.getLast?, name ∈ w.excludes) :
    w.visits = [] := by
  rw [visits, if_pos]
  simpa [Option.any_eq_true, isExcluded] using excluded

theorem ordered_visits (proper : w.tree.root.Proper) : Ordered w.visits := by
  unfold visits
  split
  · exact .nil
  · split
    · rename_i entries found
      have inside := (proper.of_at? found).2
      exact ordered_walkEntries inside fun entry mem => ordered_walkEntry (inside.proper entry mem)
    · exact .nil

def directoryPlaces (w : Workspace) : List Location :=
  (w.visits.filter (·.isDirectory)).map (·.location)

theorem directories_eq (w : Workspace) : w.directories = w.directoryPlaces.map Location.path := by
  rw [directoryPlaces, List.map_map]
  rfl

theorem mem_directoryPlaces : place ∈ w.directoryPlaces ↔ ⟨place, true⟩ ∈ w.visits := by
  rw [directoryPlaces, List.mem_map]
  constructor
  · rintro ⟨⟨_, _⟩, mem, rfl⟩
    obtain ⟨met, rfl⟩ := List.mem_filter.1 mem
    exact met
  · exact fun met => ⟨_, List.mem_filter.2 ⟨met, rfl⟩, rfl⟩

theorem mem_directories {path : String} :
    path ∈ w.directories ↔ ∃ place, ⟨place, true⟩ ∈ w.visits ∧ place.path = path := by
  simp only [directories_eq, List.mem_map, mem_directoryPlaces]

theorem mem_files {kind : String → Bool} {path : String} :
    path ∈ w.files kind ↔ kind path = true ∧ ∃ place, ⟨place, false⟩ ∈ w.visits ∧
      path = place.path := by
  simp only [files, List.mem_map, List.mem_filter]
  constructor
  · rintro ⟨⟨⟨place, _ | _⟩, ⟨met, ⟨⟩⟩, rfl⟩, isKind⟩
    exact ⟨isKind, place, met, rfl⟩
  · rintro ⟨isKind, place, met, rfl⟩
    exact ⟨⟨_, ⟨met, rfl⟩, rfl⟩, isKind⟩

section

variable (proper : w.tree.root.Proper)
  (found : w.tree.root.at? w.root = some (.directory entries))
  (allowed : ∀ name ∈ w.root.getLast?, name ∉ w.excludes)

include proper found allowed

theorem mem_visits_true : ⟨place, true⟩ ∈ w.visits ↔ ∃ names ≠ [], place = w.root ++ names ∧
    (∀ name ∈ names, name ∉ w.excludes) ∧
      ∃ entries, w.tree.root.at? place = some (.directory entries) := by
  simp only [mem_visits_iff proper found allowed, stands_true, Passable, if_true, isExcluded,
    List.contains_eq_mem, decide_eq_false_iff_not]

/-- Files are met where directories are: in the root, or in one that is met. -/
theorem mem_visits_false : ⟨place, false⟩ ∈ w.visits ↔ ∃ parent name content,
    place = parent ++ [name] ∧ w.tree.root.at? place = some (.file content) ∧
      (parent = w.root ∨ ⟨parent, true⟩ ∈ w.visits) := by
  rw [mem_visits_iff proper found allowed, stands_false]
  constructor
  · rintro ⟨names, ne, rfl, passable, content, here⟩
    obtain ⟨names, name, rfl⟩ := (List.eq_nil_or_concat' names).resolve_left ne
    rw [← List.append_assoc] at here ⊢
    refine ⟨w.root ++ names, name, content, rfl, here, ?_⟩
    rcases eq_or_ne names [] with rfl | below
    · exact .inl (List.append_nil _)
    · have passable : Passable w.isExcluded names true := by simpa [Passable] using passable
      exact .inr ((mem_visits_iff proper found allowed).2
        ⟨names, below, rfl, passable, stands_true.2 (Entry.exists_directory_of_at?_append here)⟩)
  · rintro ⟨parent, name, content, rfl, here, rfl | met⟩
    · exact ⟨[name], List.cons_ne_nil _ _, rfl, List.forall_mem_nil _, content, here⟩
    · obtain ⟨names, -, rfl, passable, -⟩ := (mem_visits_iff proper found allowed).1 met
      exact ⟨names ++ [name], by simp, List.append_assoc _ _ _, by simpa [Passable] using passable,
        content, here⟩

theorem isName_of_mem_visits {v : Visit} (met : v ∈ w.visits) :
    ∀ name ∈ v.location, IsName name := by
  obtain ⟨_, -, -, -, stands⟩ := (mem_visits_iff proper found allowed).1 met
  obtain ⟨_, here, -⟩ := Option.bind_eq_some_iff.1 stands
  exact (proper.of_at? here).1

theorem nodup_paths (kind : Visit → Bool) :
    ((w.visits.filter kind).map (·.location.path)).Nodup := by
  rw [List.Nodup, List.pairwise_map]
  refine ((ordered_visits proper).filter kind).imp_of_mem fun {a b} ha hb before same => ?_
  have isNames {v : Visit} (mem : v ∈ w.visits.filter kind) :=
    isName_of_mem_visits proper found allowed (List.mem_of_mem_filter mem)
  exact before.ne (Location.eq_of_path_eq (isNames ha) (isNames hb) same)

theorem mem_visits_of_path_eq {v : Visit} (met : v ∈ w.visits)
    (isNames : ∀ name ∈ place, IsName name) (same : place.path = v.location.path) :
    ⟨place, v.isDirectory⟩ ∈ w.visits := by
  rwa [Location.eq_of_path_eq isNames (isName_of_mem_visits proper found allowed met) same]

theorem not_mem_visits_of_link {target : String}
    (here : w.tree.root.at? place = some (.link target)) :
    ⟨place ++ names, isDirectory⟩ ∉ w.visits := by
  intro met
  obtain ⟨_, -, -, -, stands⟩ := (mem_visits_iff proper found allowed).1 met
  rw [Stands, Entry.at?_append, here] at stands
  exact not_stands_link stands

end

/-- What a workspace lists. -/
structure Lists (w : Workspace) : Prop where
  /-- The directories strictly below the root that no excluded name leads to, depth first. -/
  directories : ∃ places : List Location, w.directories = places.map Location.path ∧
    places.Pairwise Location.Before ∧ ∀ place, place ∈ places ↔ ∃ names ≠ [],
      place = w.root ++ names ∧ (∀ name ∈ names, name ∉ w.excludes) ∧
        ∃ entries, w.tree.root.at? place = some (.directory entries)
  nodup_directories : w.directories.Nodup
  /-- The files of the root and of these directories, whatever their own names are. -/
  mem_files_iff : ∀ kind path, path ∈ w.files kind ↔ kind path = true ∧
    ∃ parent name content, w.tree.root.at? (parent ++ [name]) = some (.file content) ∧
      path = Location.path (parent ++ [name]) ∧
        (parent = w.root ∨ parent.path ∈ w.directories)
  nodup_files : ∀ kind, (w.files kind).Nodup
  /-- A link is not listed, and nothing behind it. -/
  link : ∀ place target, w.tree.root.at? place = some (.link target) →
    ∀ names, (∀ name ∈ names, IsName name) →
      Location.path (place ++ names) ∉ w.directories ∧
        ∀ kind, Location.path (place ++ names) ∉ w.files kind

theorem lists (proper : w.tree.root.Proper)
    (found : w.tree.root.at? w.root = some (.directory entries))
    (allowed : ∀ name ∈ w.root.getLast?, name ∉ w.excludes) : w.Lists where
  directories := by
    refine ⟨w.directoryPlaces, w.directories_eq,
      List.pairwise_map.2 ((ordered_visits proper).filter _), fun place => ?_⟩
    rw [mem_directoryPlaces, mem_visits_true proper found allowed]
  nodup_directories := nodup_paths proper found allowed _
  mem_files_iff := by
    intro kind path
    rw [mem_files]
    refine and_congr_right fun _ => ?_
    constructor
    · rintro ⟨place, met, rfl⟩
      obtain ⟨parent, name, content, rfl, here, above⟩ :=
        (mem_visits_false proper found allowed).1 met
      exact ⟨parent, name, content, here, rfl,
        above.imp_right fun met => mem_directories.2 ⟨parent, met, rfl⟩⟩
    · rintro ⟨parent, name, content, here, rfl, above⟩
      refine ⟨_, (mem_visits_false proper found allowed).2
        ⟨parent, name, content, rfl, here, above.imp_right fun mem => ?_⟩, rfl⟩
      obtain ⟨place, met, same⟩ := mem_directories.1 mem
      obtain ⟨_, above⟩ := Entry.exists_directory_of_at?_append here
      exact mem_visits_of_path_eq proper found allowed met (proper.of_at? above).1 same.symm
  nodup_files := fun kind => (nodup_paths proper found allowed _).filter kind
  link := by
    intro place target here names isNames
    have isNames : ∀ name ∈ place ++ names, IsName name :=
      List.forall_mem_append.2 ⟨(proper.of_at? here).1, isNames⟩
    have absent : ∀ v ∈ w.visits, Location.path (place ++ names) ≠ v.location.path :=
      fun v met same => not_mem_visits_of_link proper found allowed here
        (mem_visits_of_path_eq proper found allowed met isNames same)
    constructor
    · intro mem
      obtain ⟨_, met, same⟩ := mem_directories.1 mem
      exact absent _ met same.symm
    · intro kind mem
      obtain ⟨-, _, met, same⟩ := mem_files.1 mem
      exact absent _ met same

/-- Every directory of a proper file system can be a root. Where its own name is excluded, nothing
is listed. -/
theorem lists_of_canonical {tree : FileTree} {path : String} {root : Location}
    (proper : tree.root.Proper)
    (found : tree.canonical path = .ok (.found root (.directory entries)))
    (excludes : List String) :
    open? tree path excludes = .ok ⟨tree, root, excludes⟩ ∧
    ((∃ name ∈ root.getLast?, name ∈ excludes) →
      (⟨tree, root, excludes⟩ : Workspace).directories = [] ∧
        ∀ kind, (⟨tree, root, excludes⟩ : Workspace).files kind = []) ∧
    ((∀ name ∈ root.getLast?, name ∉ excludes) →
      (⟨tree, root, excludes⟩ : Workspace).Lists) := by
  have here : tree.root.at? root = some (.directory entries) := FileTree.at?_of_canonical found
  refine ⟨?_, ?_, lists (w := ⟨tree, root, excludes⟩) proper here⟩
  · rw [open?, found]
  · rintro ⟨name, last, excluded⟩
    have nothing : (⟨tree, root, excludes⟩ : Workspace).visits = [] := by
      rw [visits, if_pos]
      simpa [Option.any_eq_true, isExcluded] using ⟨name, last, excluded⟩
    simp [Workspace.directories, Workspace.files, nothing]

/-- A directory `app` with an excluded directory, a file of an excluded name, and links in it. -/
def linkedTree : FileTree :=
  ({} : FileTree).put ["app", "same"] (.link "lib")
    |>.put ["app", "node_modules", "c.ts"] (.file .empty)
    |>.put ["app", "lib", "b.ts"] (.file .empty)
    |>.put ["app", "lib", "up"] (.link "/app")
    |>.put ["app", "dist"] (.file .empty)
    |>.put ["app", "a.ts"] (.file .empty)

theorem proper_linkedTree : linkedTree.root.Proper :=
  Entry.proper_empty.put (by decide) (.link _)
    |>.put (by decide) (.file _)
    |>.put (by decide) (.file _)
    |>.put (by decide) (.link _)
    |>.put (by decide) (.file _)
    |>.put (by decide) (.file _)

theorem lists_linkedTree : ∃ w, open? linkedTree "/app" ["dist", "node_modules"] = .ok w ∧
    w.Lists ∧ w.directories = ["/app/lib"] ∧
      w.files (fun _ => true) = ["/app/a.ts", "/app/dist", "/app/lib/b.ts"] := by
  obtain ⟨entries, app⟩ : ∃ entries, linkedTree.root.child? "app" = some (.directory entries) :=
    ⟨_, rfl⟩
  have isDirectory : linkedTree.root.isDirectory = true := rfl
  have here : linkedTree.root.lookup "app" = .ok (some (.directory entries)) := by
    rw [Entry.lookup, if_neg (by decide), app]
  have steps : linkedTree.stepsOf "/app" = .ok [.root, .name "app"] := rfl
  have found : linkedTree.canonical "/app" = .ok (.found ["app"] (.directory entries)) := by
    rw [FileTree.canonical, steps]
    simp [bind, Except.bind, FileTree.follow, Trail.entry, Trail.location, isDirectory, here]
  obtain ⟨opened, -, lists⟩ := lists_of_canonical proper_linkedTree found ["dist", "node_modules"]
  refine ⟨_, opened, lists (by decide), by decide +kernel, by decide +kernel⟩

end Workspace

end AngularAtlas
