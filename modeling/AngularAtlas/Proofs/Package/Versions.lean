import AngularAtlas.Proofs.Distinct
import AngularAtlas.Proofs.Package.Additions
import Mathlib.Data.List.Infix

/-!
The versions of a package in a summary. They are kept as one text with commas between them, and a
version is known if it is a piece of that text between commas. Main statement: those versions are
listed that are no piece of an earlier one. As long as no version has such a comma in it, these are
all different versions, and a manifest that was added before changes nothing; with such a comma the
version is added again and again.
-/

namespace AngularAtlas

section Pieces

variable {c : Char} {s r piece : List Char}

theorem commaPieces_cons (apart : ∀ t, c = ',' → s = ' ' :: t → False) :
    commaPieces (c :: s) = (commaPieces s).modifyHead (c :: ·) :=
  commaPieces.eq_3 c s apart

theorem exists_commaPieces_eq_cons (s : List Char) :
    ∃ piece pieces, commaPieces s = piece :: pieces ∧ piece <+: s := by
  fun_induction commaPieces s with
  | case1 => exact ⟨[], [], rfl, List.prefix_rfl⟩
  | case2 s => exact ⟨[], commaPieces s, rfl, List.nil_prefix⟩
  | case3 c s _ ih =>
    obtain ⟨piece, pieces, eq, before⟩ := ih
    exact ⟨c :: piece, pieces, by rw [eq]; rfl, List.cons_prefix_cons.2 ⟨rfl, before⟩⟩

theorem commaPieces_append (s r : List Char) :
    commaPieces (s ++ ',' :: ' ' :: r) = commaPieces s ++ commaPieces r := by
  fun_induction commaPieces s with
  | case1 => rfl
  | case2 s ih => simp [commaPieces, ih]
  | case3 c s apart ih =>
    have next : ∀ t, c = ',' → s ++ ',' :: ' ' :: r = ' ' :: t → False := by
      intro t comma blank
      cases s with
      | nil => simp at blank
      | cons d s => exact apart s comma (by rw [(List.cons.inj blank).1])
    obtain ⟨piece, pieces, eq, -⟩ := exists_commaPieces_eq_cons s
    rw [List.cons_append, commaPieces_cons next, ih, eq]
    rfl

theorem not_infix_of_mem_commaPieces (mem : piece ∈ commaPieces s) :
    ¬ [',', ' '] <:+: piece := by
  fun_induction commaPieces s generalizing piece with
  | case1 => simp_all
  | case2 s ih =>
    rcases List.mem_cons.1 mem with rfl | mem
    · simp
    · exact ih mem
  | case3 c s apart ih =>
    obtain ⟨first, pieces, eq, before⟩ := exists_commaPieces_eq_cons s
    rw [eq] at mem ih
    rcases List.mem_cons.1 mem with rfl | mem
    · -- the separator does not start at the first character, since the text goes on otherwise
      rw [List.infix_cons_iff, not_or]
      refine ⟨fun starts => ?_, ih List.mem_cons_self⟩
      obtain ⟨rfl, blank⟩ := List.cons_prefix_cons.1 starts
      obtain ⟨t, rfl⟩ := blank.trans before
      exact apart t rfl rfl
    · exact ih (List.mem_cons_of_mem _ mem)

theorem commaPieces_of_not_infix (whole : ¬ [',', ' '] <:+: s) : commaPieces s = [s] := by
  fun_induction commaPieces s with
  | case1 => rfl
  | case2 s => exact absurd (List.prefix_append [',', ' '] s).isInfix whole
  | case3 c s _ ih =>
    rw [ih fun inside => whole (List.infix_cons inside)]
    rfl

end Pieces

namespace PackageSummary

variable {version text known : String} {earlier kept versions : List String}

/-- A text in which a comma stands with a blank behind it. -/
def HasSeparator (text : String) : Prop := [',', ' '] <:+: text.toList

instance (text : String) : Decidable (HasSeparator text) :=
  inferInstanceAs (Decidable (_ <:+: _))

def IsPiece (version text : String) : Prop := version.toList ∈ commaPieces text.toList

instance (version text : String) : Decidable (IsPiece version text) :=
  inferInstanceAs (Decidable (_ ∈ _))

theorem IsPiece.not_hasSeparator (h : IsPiece version text) : ¬ HasSeparator version :=
  not_infix_of_mem_commaPieces h

theorem isPiece_iff_of_not_hasSeparator (whole : ¬ HasSeparator text) :
    IsPiece version text ↔ version = text := by
  rw [IsPiece, commaPieces_of_not_infix whole, List.mem_singleton, String.toList_inj]

theorem isPiece_append_iff {rest : String} :
    IsPiece version (text ++ ", " ++ rest) ↔ IsPiece version text ∨ IsPiece version rest := by
  have split : (text ++ ", " ++ rest).toList = text.toList ++ ',' :: ' ' :: rest.toList := by
    simp
  rw [IsPiece, split, commaPieces_append, List.mem_append]
  rfl

/-- Of some versions those that are no piece of an earlier one. -/
def listedAfter (earlier : List String) : List String → List String
  | [] => []
  | version :: rest =>
    if ∃ text ∈ earlier, IsPiece version text then listedAfter (earlier ++ [version]) rest
    else version :: listedAfter (earlier ++ [version]) rest

def listed (versions : List String) : List String := listedAfter [] versions

/-- What is known after some versions: the text lists the kept ones, and its pieces are those of
all of them. -/
structure Tells (known : String) (earlier kept : List String) : Prop where
  ne_nil : kept ≠ []
  eq_intercalate : known = ", ".intercalate kept
  isPiece_iff : ∀ version, IsPiece version known ↔ ∃ text ∈ earlier, IsPiece version text

theorem tells_singleton (version : String) : Tells version [version] [version] where
  ne_nil := List.cons_ne_nil _ _
  eq_intercalate := String.intercalate_singleton.symm
  isPiece_iff _ := by simp

theorem noted_some (known version : String) :
    noted (some known) version =
      if IsPiece version known then known else known ++ ", " ++ version := by
  by_cases piece : IsPiece version known
  · rw [if_pos piece]
    exact if_pos (List.contains_iff_mem.2 piece)
  · rw [if_neg piece]
    exact if_neg (mt List.contains_iff_mem.1 piece)

theorem Tells.of_isPiece (h : Tells known earlier kept) (piece : IsPiece version known) :
    Tells known (earlier ++ [version]) kept where
  ne_nil := h.ne_nil
  eq_intercalate := h.eq_intercalate
  isPiece_iff other := by
    have itself : IsPiece other version ↔ other = version :=
      isPiece_iff_of_not_hasSeparator piece.not_hasSeparator
    simp only [List.mem_append, List.mem_singleton, or_and_right, exists_or, exists_eq_left,
      ← h.isPiece_iff, itself]
    exact ⟨.inl, fun found => found.elim id fun same => same ▸ piece⟩

theorem Tells.of_not_isPiece (h : Tells known earlier kept) (version : String) :
    Tells (known ++ ", " ++ version) (earlier ++ [version]) (kept ++ [version]) where
  ne_nil := List.append_ne_nil_of_left_ne_nil h.ne_nil _
  eq_intercalate := by
    rw [String.intercalate_append_of_ne_nil h.ne_nil (List.cons_ne_nil _ _),
      String.intercalate_singleton, ← h.eq_intercalate]
  isPiece_iff other := by
    simp only [List.mem_append, List.mem_singleton, or_and_right, exists_or, exists_eq_left,
      ← h.isPiece_iff, isPiece_append_iff]

theorem Tells.exists_notedAll (h : Tells known earlier kept) (versions : List String) :
    ∃ text, notedAll (some known) versions = some text ∧
      Tells text (earlier ++ versions) (kept ++ listedAfter earlier versions) := by
  induction versions generalizing known earlier kept with
  | nil => exact ⟨known, rfl, by simpa [listedAfter] using h⟩
  | cons version versions ih =>
    rw [notedAll_cons, noted_some, listedAfter]
    simp only [← h.isPiece_iff]
    by_cases piece : IsPiece version known
    · rw [if_pos piece, if_pos piece]
      simpa using ih (h.of_isPiece piece)
    · rw [if_neg piece, if_neg piece]
      simpa using ih (h.of_not_isPiece version)

theorem exists_tells {manifests : List Manifest} {name : String}
    (ne : declared manifests name ≠ []) :
    ∃ text, (afterManifests manifests).versions.get? name = some text ∧
      Tells text (declared manifests name) (listed (declared manifests name)) := by
  obtain ⟨version, versions, eq⟩ := List.exists_cons_of_ne_nil ne
  obtain ⟨text, known, tells⟩ := (tells_singleton version).exists_notedAll versions
  rw [get?_versions_afterManifests, eq]
  exact ⟨text, known, by simpa [listed, listedAfter] using tells⟩

theorem version_afterManifests (manifests : List Manifest) (name : String) :
    (afterManifests manifests).version name =
      ", ".intercalate (listed (declared manifests name)) := by
  rw [version]
  by_cases ne : declared manifests name = []
  · rw [get?_versions_afterManifests, ne]
    rfl
  · obtain ⟨text, known, tells⟩ := exists_tells ne
    rw [known]
    exact tells.eq_intercalate

/-- Where no version has a separator, only a version itself is a piece of it. -/
theorem eraseDups_append_listedAfter
    (whole : ∀ text ∈ earlier ++ versions, ¬ HasSeparator text) :
    earlier.eraseDups ++ listedAfter earlier versions = (earlier ++ versions).eraseDups := by
  induction versions generalizing earlier with
  | nil => simp [listedAfter]
  | cons version versions ih =>
    have known : (∃ text ∈ earlier, IsPiece version text) ↔ version ∈ earlier := by
      constructor
      · rintro ⟨text, mem, piece⟩
        have plain := whole text (List.mem_append_left _ mem)
        exact (isPiece_iff_of_not_hasSeparator plain).1 piece ▸ mem
      · intro mem
        exact ⟨version, mem, (isPiece_iff_of_not_hasSeparator
          (whole version (List.mem_append_left _ mem))).2 rfl⟩
    rw [List.append_cons] at whole ⊢
    rw [listedAfter, ← ih whole]
    simp only [known]
    by_cases mem : version ∈ earlier
    · rw [if_pos mem, eraseDups_concat_of_mem mem]
    · rw [if_neg mem, eraseDups_concat_of_not_mem mem, ← List.append_cons]

theorem listed_eq_eraseDups (whole : ∀ text ∈ versions, ¬ HasSeparator text) :
    listed versions = versions.eraseDups := by
  have all : [].eraseDups ++ listed versions = ([] ++ versions).eraseDups :=
    eraseDups_append_listedAfter whole
  exact all

theorem listedAfter_eq_nil_iff (before : versions ⊆ earlier) :
    listedAfter earlier versions = [] ↔ ∀ version ∈ versions, ¬ HasSeparator version := by
  induction versions generalizing earlier with
  | nil => simp [listedAfter]
  | cons version versions ih =>
    obtain ⟨mem, later⟩ := List.cons_subset.1 before
    have known : (∃ text ∈ earlier, IsPiece version text) ↔ ¬ HasSeparator version := by
      constructor
      · rintro ⟨text, -, piece⟩
        exact piece.not_hasSeparator
      · intro whole
        exact ⟨version, mem, (isPiece_iff_of_not_hasSeparator whole).2 rfl⟩
    rw [listedAfter, List.forall_mem_cons]
    by_cases separated : HasSeparator version
    · rw [if_neg fun piece => known.1 piece separated]
      simp [separated]
    · rw [if_pos (known.2 separated), ih (List.subset_append_of_subset_left _ later)]
      exact (and_iff_right separated).symm

theorem intercalate_append_eq_iff {more : List String} (ne : kept ≠ []) :
    ", ".intercalate (kept ++ more) = ", ".intercalate kept ↔ more = [] := by
  constructor
  · intro same
    by_contra some
    rw [String.intercalate_append_of_ne_nil ne some] at same
    have length := congrArg (fun text => text.toList.length) same
    simp at length
  · rintro rfl
    rw [List.append_nil]

/-- All version texts of a manifest. -/
def versionTexts (m : Manifest) : List String :=
  DependencyKind.all.flatMap fun kind => (m.group kind).values.map versionText

theorem mem_versionTexts {m : Manifest} :
    text ∈ versionTexts m ↔ ∃ name, text ∈ m.declared name := by
  simp only [versionTexts, List.mem_flatMap, List.mem_map, Table.mem_values_iff,
    Manifest.mem_declared]
  constructor
  · rintro ⟨kind, -, value, ⟨name, found⟩, same⟩
    exact ⟨name, kind, value, found, same⟩
  · rintro ⟨name, kind, value, found, same⟩
    exact ⟨kind, kind.mem_all, value, ⟨name, found⟩, same⟩

/-- A manifest that was added before changes nothing when it is added again, unless one of its
versions has a separator. -/
theorem add_eq_self_iff {manifests : List Manifest} {m : Manifest} (mem : m ∈ manifests) :
    (afterManifests manifests).add m = afterManifests manifests ↔
      ∀ text ∈ versionTexts m, ¬ HasSeparator text := by
  have before : ∀ name, m.declared name ⊆ declared manifests name :=
    fun name text declares => List.mem_flatMap.2 ⟨m, mem, declares⟩
  have versions : ∀ name,
      ((afterManifests manifests).add m).versions.get? name =
        (afterManifests manifests).versions.get? name ↔
      ∀ text ∈ m.declared name, ¬ HasSeparator text := by
    intro name
    rw [get?_versions_add]
    by_cases ne : declared manifests name = []
    · have nothing : m.declared name = [] := List.subset_nil.1 (ne ▸ before name)
      simp [nothing, notedAll]
    · obtain ⟨text, known, tells⟩ := exists_tells ne
      obtain ⟨next, noted, tells'⟩ := tells.exists_notedAll (m.declared name)
      rw [known, noted, Option.some_inj, tells.eq_intercalate, tells'.eq_intercalate,
        intercalate_append_eq_iff tells.ne_nil, listedAfter_eq_nil_iff (before name)]
  constructor
  · intro same text mem
    obtain ⟨name, declares⟩ := mem_versionTexts.1 mem
    exact (versions name).1 (by rw [same]) text declares
  · intro whole
    have texts : ∀ name, ∀ text ∈ m.declared name, ¬ HasSeparator text :=
      fun name text declares => whole text (mem_versionTexts.2 ⟨name, declares⟩)
    have same := Table.ext_get? fun name => (versions name).2 (texts name)
    refine ext_parts (fun kind => Table.ext_names fun name => ?_) same rfl
    rw [names_add, mem_names_addNames, mem_names_afterManifests]
    exact or_iff_left_of_imp fun named => ⟨m, mem, named⟩

/-- Those versions of a package are listed that are no piece of an earlier one. These are all
different ones, and a manifest that was added before changes nothing, as long as no version has a
separator. -/
theorem version_afterTexts (texts : List String) :
    (∀ name, (afterTexts texts).version name =
      ", ".intercalate (listed (declared (Manifest.readable texts) name))) ∧
    (∀ name, (∀ text ∈ declared (Manifest.readable texts) name, ¬ HasSeparator text) →
      (afterTexts texts).version name =
        ", ".intercalate (declared (Manifest.readable texts) name).eraseDups) ∧
    ∀ m ∈ Manifest.readable texts, (afterTexts texts).add m = afterTexts texts ↔
      ∀ text ∈ versionTexts m, ¬ HasSeparator text := by
  rw [afterTexts_eq]
  refine ⟨version_afterManifests _, fun name whole => ?_, fun m mem => add_eq_self_iff mem⟩
  rw [version_afterManifests, listed_eq_eraseDups whole]

def rangeText : String := "\x7b\"peerDependencies\": \x7b\"rxjs\": \"^6.5, ^7.0\"\x7d\x7d"

def plainText : String :=
  "\x7b\"dependencies\": \x7b\"rxjs\": \"^7.0\", \"tslib\": \"^2\"\x7d, " ++
    "\"devDependencies\": \x7b\"tslib\": \"^1\"\x7d\x7d"

theorem version_afterTexts_plainText :
    (afterTexts [rangeText, plainText]).version "rxjs" =
      ", ".intercalate (listed ["^6.5, ^7.0", "^7.0"]) ∧
    listed ["^6.5, ^7.0", "^7.0"] = ["^6.5, ^7.0"] ∧
    (∀ text ∈ ["^1", "^2"], ¬ HasSeparator text) ∧
    (afterTexts [rangeText, plainText]).version "tslib" =
      ", ".intercalate ["^1", "^2"].eraseDups ∧
    ∃ m ∈ Manifest.readable [rangeText, plainText], (∀ text ∈ versionTexts m, ¬ HasSeparator text) ∧
      (afterTexts [rangeText, plainText]).add m = afterTexts [rangeText, plainText] := by
  obtain ⟨general, plain, again⟩ := version_afterTexts [rangeText, plainText]
  have rxjs : declared (Manifest.readable [rangeText, plainText]) "rxjs" =
      ["^6.5, ^7.0", "^7.0"] := by decide +kernel
  have tslib : declared (Manifest.readable [rangeText, plainText]) "tslib" = ["^1", "^2"] := by
    decide +kernel
  have whole : ∀ text ∈ ["^1", "^2"], ¬ HasSeparator text := by decide +kernel
  have found : ∃ m ∈ Manifest.readable [rangeText, plainText],
      ∀ text ∈ versionTexts m, ¬ HasSeparator text := by decide +kernel
  obtain ⟨m, mem, texts⟩ := found
  refine ⟨rxjs ▸ general "rxjs", by decide +kernel, whole, ?_, m, mem, texts, (again m mem).2 texts⟩
  rw [← tslib] at whole ⊢
  exact plain "tslib" whole

/-- What one would expect of a list of different versions: each stands in it once, and a manifest
that was added before changes nothing. -/
def EachVersionOnce : Prop :=
  ∀ texts : List String,
    (∀ name, (afterTexts texts).version name =
      ", ".intercalate (declared (Manifest.readable texts) name).eraseDups) ∧
    ∀ m ∈ Manifest.readable texts, (afterTexts texts).add m = afterTexts texts

theorem not_eachVersionOnce : ¬ EachVersionOnce := by
  intro once
  obtain ⟨versions, -⟩ := once [rangeText, rangeText]
  have listed : (afterTexts [rangeText, rangeText]).version "rxjs" =
      "^6.5, ^7.0, ^6.5, ^7.0" := by decide +kernel
  have distinct : (declared (Manifest.readable [rangeText, rangeText]) "rxjs").eraseDups =
      ["^6.5, ^7.0"] := by decide +kernel
  have expected := versions "rxjs"
  rw [listed, distinct] at expected
  exact absurd expected (by decide +kernel)

end PackageSummary

end AngularAtlas
