import AngularAtlas.Proofs.Source.MetadataEntry
import AngularAtlas.Proofs.Source.SectionSearch
import AngularAtlas.Proofs.Text.Gap

/-!
Module metadata as it may be written: sections in any order, with blanks and comments between their
tokens. Main statement: reading it gives the lists that it was written for.
-/

namespace AngularAtlas.Source

open Text

/-- Entries for some of the keys. The first list of a key counts. -/
abbrev MetadataLists := List (MetadataKey × List (List Char))

inductive WrittenSection : MetadataKey × List (List Char) → List Token → Prop
  | intro {key : MetadataKey} {shown : List (List Char)} {items : List (List Token)}
      {comma : Bool} : List.Forall₂ (Entry key) shown items →
      WrittenSection (key, shown) (sectionTokens key comma items)

/-- A text of metadata that lists some entries. -/
inductive WrittenMetadata (lists : MetadataLists) (text : List Char) : Prop
  | intro {sections : List (List Token)} {comma : Bool} :
      List.Forall₂ WrittenSection lists sections →
      Commented (bracketed '{' '}' (separated comma sections)) text →
      WrittenMetadata lists text

def MetadataLists.shown (lists : MetadataLists) (key : MetadataKey) : List (List Char) :=
  (lists.lookup key).getD []

variable {lists : MetadataLists} {sections items : List (List Token)} {tokens item : List Token}
  {key : MetadataKey} {before : Option Char} {s body text : List Char} {shown : List (List Char)}
  {comma : Bool}

theorem forall_isItem_of_entries (he : List.Forall₂ (Entry key) shown items) :
    ∀ item ∈ items, IsItem item := by
  intro item hi
  obtain ⟨_, -, h⟩ := exists_of_mem_forall₂ he hi
  exact h.isItem

theorem forall_mem_of_entries (he : List.Forall₂ (Entry key) shown items) :
    ∀ c ∈ (separated comma items).flatten, c ∉ ['/', '['] := by
  refine forall_mem_separated (by decide) fun item hi => ?_
  obtain ⟨_, -, h⟩ := exists_of_mem_forall₂ he hi
  exact h.not_mem

theorem WrittenSection.isItem {written : MetadataKey × List (List Char)}
    (hw : WrittenSection written tokens) : IsItem tokens := by
  cases hw with
  | @intro key _ _ comma he =>
    have name : isIdentifier key.name.toList = true := by
      cases key <;> decide
    have array : IsItem (arrayTokens comma _) := isItem_arrayTokens (forall_isItem_of_entries he)
    exact Property.IsProper.isItem ⟨name, array⟩

theorem WrittenSection.slash {written : MetadataKey × List (List Char)}
    (hw : WrittenSection written tokens) : ∀ c ∈ tokens.flatten, c ≠ '/' := by
  cases hw with
  | @intro key _ items comma he =>
    have name : ∀ c ∈ key.name.toList, c ≠ '/' := by
      have : key.name.toList.contains '/' = false := by
        cases key <;> decide
      rintro c hc rfl
      rw [List.contains_iff_mem.2 hc] at this
      cases this
    refine forall_mem_written name (by decide) (forall_mem_bracketed (by decide) (by decide) ?_)
    rintro c hc rfl
    exact forall_mem_of_entries he _ hc (by decide)

theorem exists_separated_cons (comma : Bool) (item : List Token) (items : List (List Token)) :
    ∃ front, separated comma (item :: items) = item ++ (front ++ separated comma items) ∧
      ∀ token ∈ front, token = [','] := by
  cases items with
  | nil =>
    cases comma with
    | true => exact ⟨[[',']], rfl, by simp⟩
    | false => exact ⟨[], by simp [separated], by simp⟩
  | cons next rest => exact ⟨[[',']], rfl, by simp⟩

theorem isGapChar_of_spaced (hs : Spaced tokens s)
    (ht : ∀ token ∈ tokens, token = [','] ∨ token = ['{'] ∨ token = ['}']) :
    ∀ c ∈ s, IsGapChar c := by
  intro c hc
  rcases hs.isBlank_or_mem hc with h | h
  · exact isGapChar_of_isBlank h
  · obtain ⟨token, mem, hc⟩ := List.mem_flatten.1 h
    apply isGapChar_of_mem
    rcases ht token mem with rfl | rfl | rfl <;> rw [List.mem_singleton.1 hc] <;> decide

/-- The search in what is left of a literal finds the first section of the key. -/
theorem findFirstFrom?_sections (key : MetadataKey)
    (hw : List.Forall₂ WrittenSection lists sections) (hb : EndsWord before)
    (hs : Spaced (separated comma sections ++ [['}']]) s) :
    match lists.lookup key with
    | none => findFirstFrom? (sectionStart? key.name.toList) before s = none
    | some shown => ∃ items comma' rest body later, List.Forall₂ (Entry key) shown items ∧
        findFirstFrom? (sectionStart? key.name.toList) before s = some ((), rest) ∧
        balanced? rest = some (body, later) ∧ Spaced (separated comma' items) body := by
  induction hw generalizing before s with
  | nil =>
    have gaps := isGapChar_of_spaced hs (by simp [separated])
    have := (failsAt_of_isGapChar key gaps).findFirstFrom?_append before []
    rw [List.append_nil] at this
    exact this
  | @cons written tokens lists sections hwritten hw ih =>
    obtain ⟨front, he, hf⟩ := exists_separated_cons comma tokens sections
    rw [he, List.append_assoc, List.append_assoc] at hs
    obtain ⟨s₁, s', rfl, h₁, hs⟩ := hs.exists_append
    obtain ⟨s₂, s₃, rfl, h₂, h₃⟩ := hs.exists_append
    cases hwritten with
    | @intro other shown items comma' hentries =>
      by_cases same : key = other
      · subst same
        rw [List.lookup_cons_self]
        obtain ⟨rest, body, later, hfind, hbal, hbody⟩ := exists_findFirstFrom?_section
          (forall_isItem_of_entries hentries) hb h₁ (s₂ ++ s₃)
        exact ⟨items, comma', rest, body, later, hentries, hfind, hbal, hbody⟩
      · have array : '[' ∉ (separated comma' items).flatten :=
          fun mem => forall_mem_of_entries hentries _ mem (by decide)
        have commas := isGapChar_of_spaced h₂ fun token mem => .inl (hf token mem)
        have passes := (passes_section same array h₁).append (passes_of_forall key commas)
        obtain ⟨last, hl, hp⟩ := passes before s₃ hb
        have other : (key == other) = false := by simpa using same
        rw [List.lookup_cons, other, ← List.append_assoc, hp]
        exact ih hl h₃

theorem findSection_eq (key : MetadataKey)
    (hw : List.Forall₂ WrittenSection lists sections)
    (hs : Spaced (bracketed '{' '}' (separated comma sections)) s) :
    match lists.lookup key with
    | none => findSection s key.name.toList = .missing
    | some shown => ∃ items comma' body, List.Forall₂ (Entry key) shown items ∧
        findSection s key.name.toList = .found body ∧ Spaced (separated comma' items) body := by
  have tokens : bracketed '{' '}' (separated comma sections) =
      [['{']] ++ (separated comma sections ++ [['}']]) := rfl
  rw [tokens] at hs
  obtain ⟨a, b, rfl, ha, hb⟩ := hs.exists_append
  have front := isGapChar_of_spaced ha (by simp)
  obtain ⟨last, hl, hp⟩ := passes_of_forall key front none b (by decide)
  have found := findFirstFrom?_sections key hw hl hb
  rw [← hp] at found
  cases hk : lists.lookup key with
  | none =>
    rw [hk] at found
    rw [findSection, findFirst?, found]
  | some shown =>
    rw [hk] at found
    obtain ⟨items, comma', rest, body, later, he, hf, hbal, hbody⟩ := found
    refine ⟨items, comma', body, he, ?_, hbody⟩
    rw [findSection, findFirst?, hf]
    simp only [hbal]

theorem elements_eq (ne : key ≠ .providers) (he : List.Forall₂ (Entry key) shown items)
    (hs : Spaced (separated comma items) body) : elements body = shown := by
  have pieces := forall₂_collapse_elements (forall_isItem_of_entries he) hs
  generalize elements body = found at pieces
  clear hs
  induction he generalizing found with
  | nil =>
    cases pieces
    rfl
  | cons he _ ih =>
    cases pieces with
    | cons first rest =>
      obtain ⟨t, ht, rfl⟩ := first
      rw [ih _ rest]
      cases he with
      | element he => rw [ht.collapse_eq he.isPhrase]
      | provision => exact absurd rfl ne

theorem map_formatProvider_elements (he : List.Forall₂ (Entry .providers) shown items)
    (hs : Spaced (separated comma items) body) : (elements body).map formatProvider = shown := by
  have pieces := forall₂_elements (forall_isItem_of_entries he) hs
  generalize elements body = found at pieces
  clear hs
  induction he generalizing found with
  | nil =>
    cases pieces
    rfl
  | cons he _ ih =>
    cases pieces with
    | cons first rest =>
      rw [List.map_cons, ih _ rest]
      cases he with
      | element he => rw [he.formatProvider_eq first]
      | provision ht hk hv => rw [formatProvider_provision ht hk hv first]

theorem sectionElements_eq (hw : List.Forall₂ WrittenSection lists sections)
    (hs : Spaced (bracketed '{' '}' (separated comma sections)) s) (ne : key ≠ .providers) :
    sectionElements s key = .ok (lists.shown key) := by
  have found := findSection_eq key hw hs
  rw [sectionElements, MetadataLists.shown]
  cases hk : lists.lookup key with
  | none =>
    rw [hk] at found
    rw [found]
    rfl
  | some shown =>
    rw [hk] at found
    obtain ⟨items, comma', body, he, hf, hbody⟩ := found
    simp only [hf, elements_eq ne he hbody, Option.getD_some]

theorem exists_sectionElements_providers (hw : List.Forall₂ WrittenSection lists sections)
    (hs : Spaced (bracketed '{' '}' (separated comma sections)) s) :
    ∃ found, sectionElements s .providers = .ok found ∧
      found.map formatProvider = lists.shown .providers := by
  have found := findSection_eq .providers hw hs
  rw [sectionElements, MetadataLists.shown]
  cases hk : lists.lookup .providers with
  | none =>
    rw [hk] at found
    rw [found]
    exact ⟨[], rfl, rfl⟩
  | some shown =>
    rw [hk] at found
    obtain ⟨items, comma', body, he, hf, hbody⟩ := found
    rw [hf]
    exact ⟨elements body, rfl, map_formatProvider_elements he hbody⟩

theorem WrittenMetadata.exists_spaced (hw : WrittenMetadata lists text) :
    ∃ sections comma, List.Forall₂ WrittenSection lists sections ∧
      Spaced (bracketed '{' '}' (separated comma sections)) (removeComments text) := by
  obtain ⟨hsections, htext⟩ := hw
  rename_i sections comma
  refine ⟨sections, comma, hsections, htext.spaced_removeComments ?_ ?_⟩
  · refine (isItem_bracketed isPair_curly (isBody_separated fun tokens ht => ?_)).phrases
    obtain ⟨_, -, h⟩ := exists_of_mem_forall₂ hsections ht
    exact h.isItem
  · intro mem
    refine forall_mem_bracketed (Q := (· ≠ '/')) (by decide) (by decide)
      (forall_mem_separated (by decide) fun tokens ht => ?_) '/' mem rfl
    obtain ⟨_, -, h⟩ := exists_of_mem_forall₂ hsections ht
    exact h.slash

/-- Reading metadata gives the lists that it was written for. -/
theorem NgModule.ofMetadata_of_written (hw : WrittenMetadata lists text) :
    let listed := fun key => (lists.shown key).map String.ofList
    NgModule.ofMetadata text = .ok {
      imports := listed .imports
      exports := listed .exports
      declarations := listed .declarations
      entryComponents := listed .entryComponents
      providers := listed .providers
      bootstrap := listed .bootstrap
      isRouting := (listed .imports).any configuresRouter } := by
  obtain ⟨sections, comma, hsections, hs⟩ := hw.exists_spaced
  obtain ⟨found, hf, hp⟩ := exists_sectionElements_providers hsections hs
  have others : ∀ key ≠ .providers,
      sectionElements (removeComments text) key = .ok (lists.shown key) :=
    fun key ne => sectionElements_eq hsections hs ne
  intro listed
  have providers : found.map (fun p => String.ofList (formatProvider p)) = listed .providers := by
    have := congrArg (List.map String.ofList) hp
    rwa [List.map_map] at this
  simp only [NgModule.ofMetadata, hf, others .imports (by decide), others .exports (by decide),
    others .declarations (by decide), others .entryComponents (by decide),
    others .bootstrap (by decide), bind, Except.bind, pure, Except.pure, providers, listed]

def shellLists : MetadataLists :=
  [(.providers, ["Api provided by http.Real".toList, "Log".toList]),
    (.exports, []),
    (.imports, ["RouterModule.forRoot(routes, opts(a))".toList])]

def shellSections : List (List Token) :=
  [sectionTokens .providers true
      [objectTokens false
        [⟨"provide".toList, ["Api".toList]⟩, ⟨"useClass".toList, ["http.Real".toList]⟩],
        ["Log".toList]],
    sectionTokens .exports false [],
    sectionTokens .imports false [["RouterModule.forRoot(routes, opts(a))".toList]]]

/-- The tokens of the module's metadata, each with the gap in front of it. -/
def shellPieces : List (String × String) :=
  [("", "\x7b"), ("\n  ", "providers"), (" /* imports: [ */", ":"), (" ", "["),
    ("\n    ", "\x7b"), (" ", "provide"), ("", ":"), (" ", "Api"), ("", ","), (" ", "useClass"),
    ("", ":"), (" ", "http.Real"), (" ", "\x7d"), ("", ","), (" // the same for all\n    ", "Log"),
    ("", ","), ("\n  ", "]"), ("", ","), ("\n  ", "exports"), ("", ":"), (" ", "["), ("", "]"),
    ("", ","), (" ", "imports"), ("", ":"), (" ", "["),
    ("", "RouterModule.forRoot(routes, opts(a))"), ("", "]"), ("", ","), ("\n", "\x7d")]

def shellText : List Char :=
  shellPieces.flatMap fun piece => piece.1.toList ++ piece.2.toList

theorem gap_of_mem_shellPieces : ∀ piece ∈ shellPieces, Gap piece.1.toList := by
  have gaps : ∀ piece ∈ shellPieces, piece.1.toList.all isBlank = true ∨
      piece.1 = " /* imports: [ */" ∨ piece.1 = " // the same for all\n    " := by decide +kernel
  intro piece mem
  rcases gaps piece mem with h | h | h
  · exact gap_of_isBlank (List.all_eq_true.1 h)
  · rw [h]
    exact .blank rfl (@Gap.block " imports: [ ".toList [] (by decide +kernel) .nil)
  · rw [h]
    exact .blank rfl (@Gap.line " the same for all".toList "    ".toList (by decide +kernel)
      (by decide +kernel) (gap_of_isBlank (List.all_eq_true.1 (by decide))))

theorem isDotted_of_all {name : List Char} (ne : name ≠ [])
    (h : name.all (fun c => isNameChar c || c == '.') = true) : IsDotted name := by
  refine ⟨ne, fun c hc => ?_⟩
  simpa using List.all_eq_true.1 h c hc

theorem isElement_forRoot : IsElement "RouterModule.forRoot(routes, opts(a))".toList := by
  have options : IsElement "opts(a)".toList := by
    refine @IsElement.call "opts".toList ["a".toList] (isDotted_of_all (by decide) (by decide)) ?_
    exact List.forall_mem_singleton.2 (.name (isDotted_of_all (by decide) (by decide)))
  refine @IsElement.call "RouterModule.forRoot".toList ["routes".toList, "opts(a)".toList]
    (isDotted_of_all (by decide) (by decide)) ?_
  simp only [List.forall_mem_cons]
  exact ⟨.name (isDotted_of_all (by decide) (by decide)), options, fun _ h => nomatch h⟩

theorem writtenMetadata_shellText : WrittenMetadata shellLists shellText := by
  have name : ∀ name ∈ ["Api".toList, "http.Real".toList, "Log".toList], IsElement name := by
    have all : ∀ name ∈ ["Api".toList, "http.Real".toList, "Log".toList],
        name ≠ [] ∧ name.all (fun c => isNameChar c || c == '.') = true := by decide
    exact fun n hn => .name (isDotted_of_all (all n hn).1 (all n hn).2)
  have sections : List.Forall₂ WrittenSection shellLists shellSections := by
    refine .cons (.intro (.cons ?_ (.cons (.element (name _ (by simp))) .nil)))
      (.cons (.intro .nil) (.cons (.intro (.cons (.element isElement_forRoot) .nil)) .nil))
    exact @Entry.provision false "Api".toList "useClass".toList "http.Real".toList
      (name _ (by simp)) (by decide) (name _ (by simp))
  have gaps : ∀ piece ∈ shellPieces.map fun piece => (piece.1.toList, piece.2.toList),
      Gap piece.1 := by
    intro piece mem
    obtain ⟨given, hp, rfl⟩ := List.mem_map.1 mem
    exact gap_of_mem_shellPieces given hp
  have text := commented_flatMap gaps
  rw [List.flatMap_map] at text
  exact @WrittenMetadata.intro _ _ shellSections true sections text

theorem NgModule.ofMetadata_of_written_shellText :
    WrittenMetadata shellLists shellText ∧
      NgModule.ofMetadata shellText = .ok {
        imports := ["RouterModule.forRoot(routes, opts(a))"]
        providers := ["Api provided by http.Real", "Log"]
        isRouting := true } := by
  refine ⟨writtenMetadata_shellText, (ofMetadata_of_written writtenMetadata_shellText).trans ?_⟩
  decide +kernel

end AngularAtlas.Source
