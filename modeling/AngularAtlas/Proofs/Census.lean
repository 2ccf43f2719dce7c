import AngularAtlas.Census
import Mathlib.Algebra.BigOperators.Group.List.Basic
import Mathlib.Algebra.GroupWithZero.Nat
import Mathlib.Data.List.Lex
import Mathlib.Data.List.Nodup
import Mathlib.Data.Prod.Lex
import Mathlib.Data.String.Basic

/-!
What the census of imports says. Main statement: in whatever order sources are counted, together or
one by one, and in whatever order counts are added, the census is the same; it lists each specifier
once, by the order of its last segment, with the number of lines that import it.
-/

namespace AngularAtlas.Census

open Text

variable {s t : String} {imports more : List String} {counts part : Table Nat}
  {entries others : List (String × Nat)} {n : Nat}

theorem compareChars_eq (a b : List Char) : compareChars a b = compareOfLessAndEq a b := by
  fun_induction compareChars a b with
  | case1 | case2 | case3 => rfl
  | case4 c a d b less =>
    have less : c :: a < d :: b := List.cons_lt_cons_iff.2 (.inl less)
    rw [compareOfLessAndEq, if_pos less]
  | case5 c a d b _ less =>
    have less : d :: b < c :: a := List.cons_lt_cons_iff.2 (.inl less)
    rw [compareOfLessAndEq, if_neg less.asymm, if_neg less.ne']
  | case6 c a d b notLess notMore ih =>
    obtain rfl : c = d := Char.toNat_inj.1 (by omega)
    simp [ih, compareOfLessAndEq]

/-- Specifiers are ordered by their last segments in upper case, and then by themselves. -/
def rank (specifier : String) : Lex (List Char × String) :=
  toLex (basenameKey specifier.toList, specifier)

theorem eq_of_rank_eq (same : rank s = rank t) : s = t :=
  congrArg (fun r => (ofLex r).2) same

theorem isLE_compare_iff : (compare s t).isLE = true ↔ s ≤ t :=
  isLE_compareOfLessAndEq String.le_antisymm String.not_le String.le_total

theorem precedes_iff {a b : String × Nat} : precedes a b = true ↔ rank a.1 ≤ rank b.1 := by
  rw [precedes, Ordering.isLE_then_iff_or, compareBasenames, compareChars_eq,
    compareOfLessAndEq_eq_lt, compareOfLessAndEq_eq_eq le_refl not_le, isLE_compare_iff, rank, rank,
    Prod.Lex.toLex_le_toLex]

theorem perm_sorted (entries : List (String × Nat)) : (sorted entries).Perm entries :=
  List.mergeSort_perm _ _

theorem pairwise_sorted (entries : List (String × Nat)) :
    (sorted entries).Pairwise fun a b => rank a.1 ≤ rank b.1 := by
  have transitive : ∀ a b c, precedes a b = true → precedes b c = true → precedes a c = true := by
    intro a b c
    simpa only [precedes_iff] using le_trans
  have total : ∀ a b, (precedes a b || precedes b a) = true := by
    intro a b
    simpa only [Bool.or_eq_true, precedes_iff] using le_total _ _
  exact (List.pairwise_mergeSort transitive total entries).imp precedes_iff.1

/-- Entries that name each specifier once are sorted in one way only. -/
theorem sorted_eq_sorted (once : (entries.map (·.1)).Nodup) (same : entries.Perm others) :
    sorted entries = sorted others := by
  refine List.Perm.eq_of_pairwise ?_ (pairwise_sorted _) (pairwise_sorted _)
    (((perm_sorted _).trans same).trans (perm_sorted _).symm)
  intro a b ha hb ab ba
  have ha := (perm_sorted _).mem_iff.1 ha
  have hb := same.mem_iff.2 ((perm_sorted _).mem_iff.1 hb)
  exact List.inj_on_of_nodup_map once ha hb (eq_of_rank_eq (le_antisymm ab ba))

/-- A census of some imports: the specifiers among them, each with how often it is there. -/
structure Tallies (counts : Table Nat) (imports : List String) : Prop where
  getD_get? : ∀ specifier, (counts.get? specifier).getD 0 = imports.count specifier
  get?_ne_zero : ∀ specifier, counts.get? specifier ≠ some 0

/-- The imports that some counts stand for. -/
def spread (entries : List (String × Nat)) : List String :=
  entries.flatMap fun entry => List.replicate entry.2 entry.1

theorem tallies_empty : Tallies .empty [] where
  getD_get? _ := rfl
  get?_ne_zero _ := by rintro ⟨⟩

theorem Tallies.perm (h : Tallies counts imports) (same : imports.Perm more) :
    Tallies counts more where
  getD_get? specifier := (h.getD_get? specifier).trans (same.count_eq specifier)
  get?_ne_zero := h.get?_ne_zero

theorem Tallies.raise (h : Tallies counts imports) (s : String) (positive : n ≠ 0) :
    Tallies (raise counts s n) (imports ++ List.replicate n s) where
  getD_get? specifier := by
    rw [Census.raise, Table.get?_insert, List.count_append, ← h.getD_get? specifier,
      List.count_replicate]
    by_cases same : specifier = s
    · simp [same]
    · simp [same, Ne.symm same]
  get?_ne_zero specifier := by
    rw [Census.raise, Table.get?_insert]
    split
    · simp [positive]
    · exact h.get?_ne_zero specifier

theorem Tallies.countSource (h : Tallies counts imports) (content : String) :
    Tallies (countSource counts content) (imports ++ Source.importsIn content.toList) := by
  rw [Census.countSource]
  generalize Source.importsIn content.toList = found
  induction found generalizing counts imports with
  | nil => simpa using h
  | cons specifier found ih =>
    have rest := ih (h.raise specifier Nat.one_ne_zero)
    rwa [List.append_assoc] at rest

theorem Tallies.add (h : Tallies counts imports) (positive : ∀ entry ∈ entries, entry.2 ≠ 0) :
    Tallies (add counts entries) (imports ++ spread entries) := by
  induction entries generalizing counts imports with
  | nil => simpa [spread, Census.add] using h
  | cons entry entries ih =>
    obtain ⟨here, after⟩ := List.forall_mem_cons.1 positive
    have rest := ih (h.raise entry.1 here) after
    rwa [List.append_assoc] at rest

theorem count_spread (increasing : entries.Pairwise fun a b => a.1 < b.1) :
    (spread entries).count s = (entries.lookup s).getD 0 := by
  induction entries with
  | nil => rfl
  | cons entry entries ih =>
    obtain ⟨first, increasing⟩ := List.pairwise_cons.1 increasing
    rw [spread, List.flatMap_cons, List.count_append, List.count_replicate,
      Table.lookup_cons_eq_ite]
    by_cases same : s = entry.1
    · -- no later entry has the same specifier
      have absent : entries.lookup s = none := by
        rw [List.lookup_eq_none_iff]
        intro other mem
        rw [same, bne_iff_ne]
        exact (first other mem).ne
      rw [← spread, ih increasing, absent, if_pos same, same]
      simp
    · rw [← spread, ih increasing, if_neg same]
      simp [Ne.symm same]

theorem length_spread (entries : List (String × Nat)) :
    (spread entries).length = (entries.map (·.2)).sum := by
  simp [spread, List.length_flatMap]

theorem Tallies.mem_entries_iff (h : Tallies counts imports) :
    (s, n) ∈ counts.entries ↔ n = imports.count s ∧ n ≠ 0 := by
  rw [Table.mem_entries_iff, ← h.getD_get? s]
  constructor
  · intro found
    refine ⟨by rw [found]; rfl, ?_⟩
    rintro rfl
    exact h.get?_ne_zero s found
  · rintro ⟨rfl, positive⟩
    cases found : counts.get? s with
    | none => simp [found] at positive
    | some m => rfl

theorem Tallies.ne_zero (h : Tallies counts imports) (same : entries.Perm counts.entries) :
    ∀ entry ∈ entries, entry.2 ≠ 0 :=
  fun _ mem => (h.mem_entries_iff.1 (same.mem_iff.1 mem)).2

/-- A census stands for the imports that were counted. -/
theorem Tallies.spread_perm (h : Tallies counts imports) (same : entries.Perm counts.entries) :
    (spread entries).Perm imports := by
  have whole : (spread counts.entries).Perm imports := by
    rw [List.perm_iff_count]
    intro specifier
    rw [count_spread counts.increasing]
    exact h.getD_get? specifier
  exact (same.flatMap_right _).trans whole

/-- The same imports have the same census. -/
theorem Tallies.entries_perm (h : Tallies counts imports) (other : Tallies part imports) :
    counts.entries.Perm part.entries := by
  rw [List.perm_ext_iff_of_nodup counts.nodup_names.of_map part.nodup_names.of_map]
  intro entry
  rw [h.mem_entries_iff, other.mem_entries_iff]

/-- What the sources import, one after another. -/
def importsOf (contents : List String) : List String :=
  contents.flatMap fun content => Source.importsIn content.toList

/-- Entries that a census of some sources has, in any order: the sources are counted together, or
each is counted on its own and then the entries of each are added, in any order, too. -/
inductive Collected (contents : List String) : List (String × Nat) → Prop
  | together {shuffled : List String} {entries : List (String × Nat)} :
      shuffled.Perm contents → entries.Perm (shuffled.foldl countSource .empty).entries →
      Collected contents entries
  | apart {shuffled : List String} {parts : List (List (String × Nat))}
      {entries : List (String × Nat)} :
      shuffled.Perm contents →
      List.Forall₂ (fun part content => part.Perm (countSource .empty content).entries) parts
        shuffled →
      entries.Perm (parts.foldl add .empty).entries → Collected contents entries

variable {contents : List String} {parts : List (List (String × Nat))}

theorem Tallies.foldl_countSource (h : Tallies counts imports) (contents : List String) :
    Tallies (contents.foldl Census.countSource counts) (imports ++ importsOf contents) := by
  induction contents generalizing counts imports with
  | nil => simpa [importsOf] using h
  | cons content contents ih =>
    have rest := ih (h.countSource content)
    rwa [List.append_assoc] at rest

theorem Tallies.foldl_add (h : Tallies counts imports)
    (counted : List.Forall₂
      (fun part content => part.Perm (Census.countSource .empty content).entries) parts contents) :
    Tallies (parts.foldl Census.add counts) (imports ++ importsOf contents) := by
  induction counted generalizing counts imports with
  | nil => simpa [importsOf] using h
  | @cons part content parts contents same _ ih =>
    have own : Tallies (Census.countSource .empty content) (Source.importsIn content.toList) :=
      tallies_empty.countSource content
    have next := (h.add (own.ne_zero same)).perm ((own.spread_perm same).append_left imports)
    have rest := ih next
    rwa [List.append_assoc] at rest

theorem Collected.exists_tallies (h : Collected contents entries) :
    ∃ counts, Tallies counts (importsOf contents) ∧ entries.Perm counts.entries := by
  cases h with
  | together shuffle same =>
    exact ⟨_, (tallies_empty.foldl_countSource _).perm (shuffle.flatMap_right _), same⟩
  | apart shuffle counted same =>
    exact ⟨_, (tallies_empty.foldl_add counted).perm (shuffle.flatMap_right _), same⟩

theorem exists_collected (contents : List String) :
    ∃ entries, Collected contents entries ∧ ofSources contents = sorted entries := by
  have counted : List.Forall₂ (fun part content => part.Perm (countSource .empty content).entries)
      (contents.map fun content => (countSource .empty content).entries) contents := by
    rw [List.forall₂_map_left_iff, List.forall₂_same]
    exact fun _ _ => .refl _
  refine ⟨_, .apart (.refl _) counted (.refl _), ?_⟩
  rw [ofSources, List.foldl_map, List.foldl_map]

theorem Collected.nodup (h : Collected contents entries) : (entries.map (·.1)).Nodup := by
  obtain ⟨counts, -, same⟩ := h.exists_tallies
  exact (same.map _).nodup_iff.2 counts.nodup_names

theorem Collected.perm (h : Collected contents entries) (h' : Collected contents others) :
    entries.Perm others := by
  obtain ⟨_, tallies, same⟩ := h.exists_tallies
  obtain ⟨_, tallies', same'⟩ := h'.exists_tallies
  exact (same.trans (tallies.entries_perm tallies')).trans same'.symm

theorem Collected.sum_eq (h : Collected contents entries) :
    (entries.map (·.2)).sum = (importsOf contents).length := by
  obtain ⟨_, tallies, same⟩ := h.exists_tallies
  rw [← length_spread]
  exact (tallies.spread_perm same).length_eq

theorem mem_ofSources_iff :
    (s, n) ∈ ofSources contents ↔ n = (importsOf contents).count s ∧ n ≠ 0 := by
  obtain ⟨whole, collected, eq⟩ := exists_collected contents
  obtain ⟨counts, tallies, same⟩ := collected.exists_tallies
  rw [eq, (perm_sorted whole).mem_iff, same.mem_iff]
  exact tallies.mem_entries_iff

/-- Each line imports one specifier at most. -/
theorem length_importsOf (contents : List String) :
    (importsOf contents).length =
      (contents.flatMap fun content => Source.textLines content.toList).countP
        fun line => (Source.importOnLine? line).isSome := by
  simp only [importsOf, Source.importsIn, List.length_flatMap, List.countP_flatMap, List.length_map,
    List.length_filterMap_eq_countP]
  rfl

/-- The census of some sources is the same in whatever way it comes about. It has each specifier
that is imported, in strict order, and its counts add up to the number of lines that import
something. -/
theorem ofSources_spec (contents : List String) :
    (∀ entries, Collected contents entries → sorted entries = ofSources contents) ∧
    (∀ specifier n, (specifier, n) ∈ ofSources contents ↔
      n = (importsOf contents).count specifier ∧ n ≠ 0) ∧
    ((ofSources contents).map (·.1)).Nodup ∧
    ((ofSources contents).Pairwise fun a b => rank a.1 < rank b.1) ∧
    ((ofSources contents).map (·.2)).sum =
      (contents.flatMap fun content => Source.textLines content.toList).countP
        fun line => (Source.importOnLine? line).isSome := by
  obtain ⟨whole, collected, eq⟩ := exists_collected contents
  have perm : (ofSources contents).Perm whole := by
    rw [eq]
    exact perm_sorted whole
  have once : ((ofSources contents).map (·.1)).Nodup := (perm.map _).nodup_iff.2 collected.nodup
  refine ⟨fun entries h => ?_, fun _ _ => mem_ofSources_iff, once, ?_, ?_⟩
  · rw [eq]
    exact sorted_eq_sorted h.nodup (h.perm collected)
  · rw [eq] at once ⊢
    refine (pairwise_sorted whole).imp₂ (fun a b le ne => ?_) (List.pairwise_map.1 once)
    exact lt_of_le_of_ne le fun same => ne (eq_of_rank_eq same)
  · rw [(perm.map _).sum_eq, collected.sum_eq, length_importsOf]

/-- Two sources that import modules whose last segments differ only in case. -/
def heroSources : List String :=
  ["import { a } from './hero'\nconst fs = require('fs')\n",
    "import { b } from '@app/Hero';\nimport c from 'fs'\nexport class D {}"]

theorem ofSources_spec_heroSources :
    Collected heroSources [("@app/Hero", 1), ("fs", 2), ("./hero", 1)] ∧
    sorted [("@app/Hero", 1), ("fs", 2), ("./hero", 1)] = ofSources heroSources ∧
    ofSources heroSources = [("fs", 2), ("./hero", 1), ("@app/Hero", 1)] := by
  have counted : List.Forall₂ (fun part content => part.Perm (countSource .empty content).entries)
      [[("fs", 1), ("@app/Hero", 1)], [("fs", 1), ("./hero", 1)]] heroSources.reverse :=
    .cons (by decide +kernel) (.cons (by decide +kernel) .nil)
  have collected : ∀ entries, entries.Perm [("fs", 2), ("./hero", 1), ("@app/Hero", 1)] →
      Collected heroSources entries := by
    intro entries same
    refine .apart (List.reverse_perm _) counted (same.trans ?_)
    decide +kernel
  have listed : sorted [("fs", 2), ("./hero", 1), ("@app/Hero", 1)] =
      [("fs", 2), ("./hero", 1), ("@app/Hero", 1)] :=
    List.mergeSort_of_pairwise (by decide +kernel)
  have same := (ofSources_spec heroSources).1
  refine ⟨collected _ ?_, same _ (collected _ ?_), ?_⟩
  · decide
  · decide
  · rw [← same _ (collected _ (.refl _)), listed]

end AngularAtlas.Census
