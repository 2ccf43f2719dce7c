import Mathlib.Data.List.Induction
import Mathlib.Data.List.Nodup

namespace AngularAtlas

variable {α κ : Type} [BEq κ]

/-- Of some items those are chosen that are the first with their key. -/
structure FirstOfEach (key : α → κ) (items chosen : List α) : Prop where
  /-- Each key occurs once, in the order in which the keys come up. -/
  keys_eq : chosen.map key = (items.map key).eraseDups
  first : ∀ a ∈ chosen, items.find? (fun b => key b == key a) = some a

/-- Some keys are listed, each once, in the order in which they come up. -/
structure ListsOnce (keys listed : List κ) : Prop where
  mem_iff : ∀ k, k ∈ listed ↔ k ∈ keys
  order : listed.Pairwise fun a b => keys.idxOf a < keys.idxOf b

theorem FirstOfEach.nil (key : α → κ) : FirstOfEach key [] [] := ⟨rfl, by simp⟩

theorem FirstOfEach.mem_items {key : α → κ} {items chosen : List α} {a : α}
    (h : FirstOfEach key items chosen) (ha : a ∈ chosen) : a ∈ items :=
  List.mem_of_find?_eq_some (h.first a ha)

variable [LawfulBEq κ]

theorem eraseDups_concat_of_mem {k : κ} {keys : List κ} (known : k ∈ keys) :
    (keys ++ [k]).eraseDups = keys.eraseDups := by
  simp [List.eraseDups_append, List.removeAll, known]

theorem eraseDups_concat_of_not_mem {k : κ} {keys : List κ} (new : k ∉ keys) :
    (keys ++ [k]).eraseDups = keys.eraseDups ++ [k] := by
  simp [List.eraseDups_append, List.removeAll, new, List.eraseDups_cons]

theorem nodup_eraseDups (keys : List κ) : keys.eraseDups.Nodup := by
  induction keys using List.reverseRecOn with
  | nil => exact List.nodup_nil
  | append_singleton keys k ih =>
    by_cases h : k ∈ keys
    · rwa [eraseDups_concat_of_mem h]
    · rw [eraseDups_concat_of_not_mem h]
      refine ih.append (List.nodup_singleton k) ?_
      rw [List.disjoint_singleton, List.mem_eraseDups]
      exact h

theorem eraseDups_of_nodup {keys : List κ} (distinct : keys.Nodup) : keys.eraseDups = keys := by
  induction keys using List.reverseRecOn with
  | nil => rfl
  | append_singleton keys k ih =>
    rw [← List.concat_eq_append, List.nodup_concat] at distinct
    obtain ⟨new, before⟩ := distinct
    rw [eraseDups_concat_of_not_mem new, ih before]

theorem eraseDups_filter (p : κ → Bool) (keys : List κ) :
    (keys.filter p).eraseDups = keys.eraseDups.filter p := by
  induction keys using List.reverseRecOn with
  | nil => rfl
  | append_singleton keys k ih =>
    rw [List.filter_append, List.filter_singleton]
    by_cases known : k ∈ keys
    · rw [eraseDups_concat_of_mem known, ← ih]
      cases hp : p k with
      | false => rw [cond_false, List.append_nil]
      | true => exact eraseDups_concat_of_mem (List.mem_filter.2 ⟨known, hp⟩)
    · rw [eraseDups_concat_of_not_mem known, List.filter_append, List.filter_singleton, ← ih]
      cases p k with
      | false => rw [cond_false, List.append_nil, List.append_nil]
      | true => exact eraseDups_concat_of_not_mem fun mem => known (List.mem_of_mem_filter mem)

/-- Of two lists, the first one comes first, and of the second one what is new. -/
theorem eraseDups_append_eraseDups [DecidableEq κ] (keys more : List κ) :
    (keys.eraseDups ++ more.eraseDups).eraseDups =
      keys.eraseDups ++ (more.filter (· ∉ keys.eraseDups)).eraseDups := by
  have new : more.eraseDups.removeAll keys.eraseDups =
      more.eraseDups.filter (· ∉ keys.eraseDups) :=
    List.filter_congr fun k _ => by simp
  rw [List.eraseDups_append, new, eraseDups_filter, eraseDups_filter,
    eraseDups_of_nodup (nodup_eraseDups keys), eraseDups_of_nodup (nodup_eraseDups more)]

theorem listsOnce_eraseDups (keys : List κ) : ListsOnce keys keys.eraseDups where
  mem_iff _ := List.mem_eraseDups
  order := by
    induction keys using List.reverseRecOn with
    | nil => exact .nil
    | append_singleton keys k ih =>
      have before : keys.eraseDups.Pairwise fun a b =>
          (keys ++ [k]).idxOf a < (keys ++ [k]).idxOf b := by
        refine ih.imp_of_mem fun {a b} ha hb less => ?_
        rw [List.mem_eraseDups] at ha hb
        rwa [List.idxOf_append_of_mem ha, List.idxOf_append_of_mem hb]
      by_cases known : k ∈ keys
      · rwa [eraseDups_concat_of_mem known]
      · rw [eraseDups_concat_of_not_mem known, List.pairwise_append]
        refine ⟨before, List.pairwise_singleton _ _, fun a ha b hb => ?_⟩
        obtain rfl := List.mem_singleton.1 hb
        have ha := List.mem_eraseDups.1 ha
        rw [List.idxOf_append_of_mem ha, List.idxOf_append_of_notMem known]
        exact Nat.lt_add_right _ (List.idxOf_lt_length_iff.2 ha)

theorem find?_key_eq_some_iff {key : α → κ} {items : List α} {a : α}
    (injective : ∀ a ∈ items, ∀ b ∈ items, key a = key b → a = b) :
    items.find? (fun b => key b == key a) = some a ↔ a ∈ items := by
  refine ⟨List.mem_of_find?_eq_some, fun ha => ?_⟩
  have found : (items.find? fun b => key b == key a).isSome = true :=
    List.find?_isSome.2 ⟨a, ha, BEq.rfl⟩
  obtain ⟨b, hb⟩ := Option.isSome_iff_exists.1 found
  have same : key b = key a := by simpa using List.find?_some hb
  rw [hb, injective b (List.mem_of_find?_eq_some hb) a ha same]

namespace FirstOfEach

variable {key : α → κ} {items chosen : List α} {a : α} {k : κ}

theorem mem_keys_iff (h : FirstOfEach key items chosen) :
    k ∈ chosen.map key ↔ k ∈ items.map key := by
  rw [h.keys_eq, List.mem_eraseDups]

theorem nodup (h : FirstOfEach key items chosen) : (chosen.map key).Nodup := by
  rw [h.keys_eq]
  exact nodup_eraseDups _

theorem find?_concat_of_some {p : α → Bool} {b : α} (h : items.find? p = some b) (a : α) :
    (items ++ [a]).find? p = some b := by
  rw [List.find?_append, h, Option.some_or]

theorem concat_of_mem (h : FirstOfEach key items chosen) (known : key a ∈ items.map key) :
    FirstOfEach key (items ++ [a]) chosen where
  keys_eq := by
    rw [List.map_append, List.map_singleton, eraseDups_concat_of_mem known]
    exact h.keys_eq
  first b hb := find?_concat_of_some (h.first b hb) a

theorem concat_of_not_mem (h : FirstOfEach key items chosen) (new : key a ∉ items.map key) :
    FirstOfEach key (items ++ [a]) (chosen ++ [a]) where
  keys_eq := by
    rw [List.map_append, List.map_append, List.map_singleton, eraseDups_concat_of_not_mem new,
      h.keys_eq]
  first b hb := by
    rcases List.mem_append.1 hb with hb | hb
    · exact find?_concat_of_some (h.first b hb) a
    · obtain rfl := List.mem_singleton.1 hb
      have missing : items.find? (fun c => key c == key b) = none := by
        rw [List.find?_eq_none]
        intro c hc same
        exact new (List.mem_map.2 ⟨c, hc, eq_of_beq same⟩)
      rw [List.find?_append, missing, Option.none_or, List.find?_singleton, if_pos (by simp)]

theorem mem_of_find? (h : FirstOfEach key items chosen)
    (hf : items.find? (fun b => key b == k) = some a) : a ∈ chosen := by
  have same : key a = k := by simpa using List.find?_some hf
  have found : key a ∈ chosen.map key :=
    h.mem_keys_iff.2 (List.mem_map.2 ⟨a, List.mem_of_find?_eq_some hf, rfl⟩)
  obtain ⟨b, hb, hk⟩ := List.mem_map.1 found
  have first := h.first b hb
  rw [hk, same, hf] at first
  exact Option.some.inj first ▸ hb

theorem mem_iff (h : FirstOfEach key items chosen) :
    a ∈ chosen ↔ items.find? (fun b => key b == key a) = some a :=
  ⟨h.first a, h.mem_of_find?⟩

theorem mem_append_iff {more : List α} (h : FirstOfEach key (items ++ more) chosen) :
    a ∈ chosen ↔ items.find? (fun b => key b == key a) = some a ∨
      key a ∉ items.map key ∧ more.find? (fun b => key b == key a) = some a := by
  have missing : items.find? (fun b => key b == key a) = none ↔ key a ∉ items.map key := by
    simp
  rw [h.mem_iff, List.find?_append, Option.or_eq_some_iff, missing]

/-- Nothing is left out where no key occurs twice. -/
theorem eq_of_nodup (h : FirstOfEach key items chosen) (distinct : (items.map key).Nodup) :
    chosen = items := by
  have keys : chosen.map key = items.map key := by
    rw [h.keys_eq, eraseDups_of_nodup distinct]
  have injective : ∀ a ∈ items, ∀ b ∈ items, key a = key b → a = b :=
    fun a ha b hb => List.inj_on_of_nodup_map distinct ha hb
  refine List.ext_getElem (by simpa using congrArg List.length keys) fun i hi hj => ?_
  refine injective _ (h.mem_items (List.getElem_mem hi)) _ (List.getElem_mem hj) ?_
  have here := congrArg (fun l => l[i]?) keys
  simpa [hi, hj] using here

end FirstOfEach

end AngularAtlas
