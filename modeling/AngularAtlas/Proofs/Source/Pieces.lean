import AngularAtlas.Proofs.Text.Spacing
import AngularAtlas.Source.Property

namespace AngularAtlas.Source

open Text

variable {p : Char → Bool} {c : Char} {s a b body : List Char} {depth : Int}
  {property : List Char × List Char}

theorem splitAtCommas_ne_nil (depth : Int) (s : List Char) : splitAtCommas depth s ≠ [] := by
  induction s generalizing depth with
  | nil => exact List.cons_ne_nil _ _
  | cons c s ih =>
    rw [splitAtCommas]
    split
    · exact List.cons_ne_nil _ _
    · simpa using ih _

theorem countP_flatten_splitAtCommas (comma : p ',' = false) (depth : Int) (s : List Char) :
    (splitAtCommas depth s).flatten.countP p = s.countP p := by
  induction s generalizing depth with
  | nil => rfl
  | cons d s ih =>
    rw [splitAtCommas]
    split
    case isTrue h =>
      rw [List.flatten_cons, List.nil_append, ih, h.1, List.countP_cons_of_neg (by simp [comma])]
    case isFalse =>
      obtain ⟨piece, pieces, he⟩ := List.exists_cons_of_ne_nil
        (splitAtCommas_ne_nil (depth + bracketStep d) s)
      rw [he, List.modifyHead_cons, List.flatten_cons, List.cons_append, ← List.flatten_cons, ← he,
        List.countP_cons, List.countP_cons, ih]

theorem countP_collapse (solid : ∀ c, p c = true → isBlank c = false) (s : List Char) :
    (collapse s).countP p = s.countP p := by
  have kept : ∀ t : List Char, (t.filter (!isBlank ·)).countP p = t.countP p := by
    intro t
    rw [List.countP_filter]
    refine List.countP_congr fun c _ => ?_
    cases hp : p c with
    | false => simp
    | true => simp [solid c hp]
  rw [← kept, filter_collapse, kept]

/-- The elements of a list share out its characters; only commas and blanks are lost. -/
theorem countP_flatten_elements (solid : ∀ c, p c = true → isBlank c = false)
    (comma : p ',' = false) (s : List Char) : (elements s).flatten.countP p = s.countP p := by
  rw [elements, List.flatten_filter_ne_nil, List.countP_flatten, List.map_map,
    ← countP_flatten_splitAtCommas comma 0 s, List.countP_flatten]
  exact congrArg List.sum (List.map_congr_left fun piece _ => countP_collapse solid piece)

theorem count_flatten_elements (solid : isBlank c = false) (other : c ≠ ',') (s : List Char) :
    (elements s).flatten.count c = s.count c := by
  refine countP_flatten_elements (fun d same => ?_) ?_ s
  · rwa [eq_of_beq same]
  · simpa using other.symm

theorem not_mem_of_mem_splitAtCommas (other : c ≠ ',') (hc : c ∉ s) {piece : List Char}
    (hp : piece ∈ splitAtCommas depth s) : c ∉ piece := by
  have none : (splitAtCommas depth s).flatten.count c = 0 := by
    rw [List.count, countP_flatten_splitAtCommas (by simpa using other.symm)]
    exact List.count_eq_zero.2 hc
  exact fun mem => List.count_eq_zero.1 none (List.mem_flatten.2 ⟨piece, hp, mem⟩)

theorem not_mem_collapse (solid : isBlank c = false) (hc : c ∉ s) : c ∉ collapse s := by
  have none : (collapse s).count c = 0 := by
    rw [List.count, countP_collapse fun d same => by rwa [eq_of_beq same]]
    exact List.count_eq_zero.2 hc
  exact List.count_eq_zero.1 none

theorem trim_sublist (s : List Char) : (trim s).Sublist s := by
  have front : (trimEnd (skipBlanks s)).reverse <:+ (skipBlanks s).reverse := by
    simpa [trimEnd] using List.dropWhile_suffix isBlank (l := (skipBlanks s).reverse)
  exact (List.reverse_suffix.1 front).sublist.trans (List.dropWhile_suffix isBlank).sublist

theorem append_of_mem_colonSplits (h : (a, b) ∈ colonSplits depth s) : a ++ ':' :: b = s := by
  induction s generalizing depth a with
  | nil => cases h
  | cons d s ih =>
    have later : (a, b) ∈ (colonSplits (depth + angleStep d) s).map (fun p => (d :: p.1, p.2)) →
        a ++ ':' :: b = d :: s := by
      intro mem
      obtain ⟨⟨front, back⟩, found, he⟩ := List.mem_map.1 mem
      obtain ⟨rfl, rfl⟩ := Prod.mk.inj he
      rw [List.cons_append, ih found]
    rw [colonSplits] at h
    split at h
    case isTrue hd =>
      rcases List.mem_cons.1 h with h | h
      · obtain ⟨rfl, rfl⟩ := Prod.mk.inj h
        rw [hd.1, List.nil_append]
      · exact later h
    case isFalse => exact later h

/-- The value of a property is a part of it. -/
theorem value_sublist (h : splitProperty? s = some property) : property.2.Sublist s := by
  simp only [splitProperty?] at h
  split at h
  case h_1 key value found =>
    obtain rfl := Option.some.inj h
    have parts := append_of_mem_colonSplits (List.mem_of_mem_head? found)
    have right : value <:+ trim s := ⟨key ++ [':'], by simpa using parts⟩
    exact (trim_sublist value).trans (right.sublist.trans (trim_sublist s))
  case h_2 =>
    split at h
    · obtain rfl := Option.some.inj h
      exact trim_sublist s
    · cases h

theorem exists_of_balanced? (h : balanced? s = some (a, b)) :
    ∃ opener closer, closer? opener = some closer ∧ s = opener :: (a ++ closer :: b) := by
  cases s with
  | nil => cases h
  | cons opener s =>
    obtain ⟨closer, hc, split⟩ := Option.bind_eq_some_iff.1 h
    exact ⟨opener, closer, hc, by rw [splitAtClose_append split]⟩

theorem inside_sublist (h : balanced? s = some (a, b)) : a.Sublist s := by
  obtain ⟨opener, closer, -, rfl⟩ := exists_of_balanced? h
  exact (List.sublist_append_left _ _).trans (List.sublist_cons_self _ _)

theorem arrayBody?_sublist (h : arrayBody? s = some body) : body.Sublist s := by
  simp only [arrayBody?] at h
  split at h
  case isTrue =>
    obtain ⟨⟨inside, rest⟩, found, rfl⟩ := Option.map_eq_some_iff.1 h
    exact (inside_sublist found).trans (trim_sublist s)
  case isFalse => cases h

end AngularAtlas.Source
