import AngularAtlas.Proofs.Source.Literal
import AngularAtlas.Proofs.Source.TableStart
import AngularAtlas.Proofs.Text.Search
import AngularAtlas.Source.NgModule

namespace AngularAtlas.Source

open Text

variable {key other : MetadataKey} {before : Option Char} {s t r w gap body name : List Char}
  {c : Char} {tokens : List Token} {items : List (List Token)} {comma : Bool}

theorem isAsciiLetter_foldChar_of_mem_name (key : MetadataKey) :
    ∀ c ∈ key.name.toList, isAsciiLetter (foldChar c) = true := by
  apply List.all_eq_true.1
  cases key <;> decide +kernel

theorem isAsciiLetter_foldChar_of_isBlank (hc : isBlank c = true) :
    isAsciiLetter (foldChar c) = false := by
  have codes : ∀ n ∈ blankCodes, isAsciiLetter (foldChar (Char.ofNat n)) = false := by
    decide +kernel
  have := codes c.toNat (toNat_mem_blankCodes hc)
  rwa [Char.ofNat_toNat] at this

theorem afterIgnoringCase?_eq_some_iff : afterIgnoringCase? w s = some r ↔
    ∃ word, s = word ++ r ∧ word.map foldChar = w.map foldChar := by
  induction w generalizing s with
  | nil => simp [afterIgnoringCase?, eq_comm]
  | cons c w ih =>
    cases s with
    | nil => simp [afterIgnoringCase?]
    | cons d s =>
      rw [afterIgnoringCase?]
      constructor
      · intro h
        split at h
        next fold =>
          obtain ⟨word, rfl, he⟩ := ih.1 h
          exact ⟨d :: word, rfl, by rw [List.map_cons, List.map_cons, fold, he]⟩
        next => cases h
      · rintro ⟨word, he, fold⟩
        cases word with
        | nil => cases fold
        | cons e word =>
          obtain ⟨rfl, rfl⟩ := List.cons.inj he
          obtain ⟨first, later⟩ := List.cons.inj fold
          rw [if_pos first.symm]
          exact ih.2 ⟨word, rfl, later⟩

theorem afterIgnoringCase?_of_ne (ne : key ≠ other) (s : List Char) :
    afterIgnoringCase? key.name.toList (other.name.toList ++ s) = none := by
  cases key <;> cases other <;> first | exact absurd rfl ne | rfl

theorem sectionStart?_of_isNameChar (hc : isNameChar c = true) (s : List Char) :
    sectionStart? key.name.toList (some c) s = none := by
  simp only [sectionStart?, Option.all_some, hc]
  rfl

theorem sectionStart?_of_ne (ne : key ≠ other) (before : Option Char) (s : List Char) :
    sectionStart? key.name.toList before (other.name.toList ++ s) = none := by
  simp [sectionStart?, afterIgnoringCase?_of_ne ne]

/-- A section starts where its key is written, with a colon and a bracket behind it. -/
theorem sectionStart?_eq_some_iff {key : List Char} :
    sectionStart? key before s = some ((), t) ↔ (∀ c ∈ before, isNameChar c = false) ∧
      ∃ word gap gap' rest, word.map foldChar = key.map foldChar ∧ IsBlank gap ∧ IsBlank gap' ∧
        t = '[' :: rest ∧ s = word ++ (gap ++ ':' :: (gap' ++ '[' :: rest)) := by
  have boundary : (before.all fun c => !isNameChar c) = true ↔
      ∀ c ∈ before, isNameChar c = false := by
    simp [Option.all_eq_true]
  simp only [sectionStart?, Option.bind_eq_bind, Option.bind_eq_some_iff]
  constructor
  · rintro ⟨_, free, s₁, h₁, s₂, h₂, _, opened, he⟩
    obtain rfl : skipBlanks s₂ = t := (Prod.mk.inj (Option.some.inj he)).2
    obtain ⟨word, rfl, fold⟩ := afterIgnoringCase?_eq_some_iff.1 h₁
    have colon : (skipBlanks s₁).head? = some ':' := by rw [eq_cons_of_afterChar? h₂]; rfl
    obtain ⟨gap, _, hg, hc, rfl⟩ := exists_of_head?_skipBlanks colon
    obtain rfl := (List.cons.inj (hc.symm.trans (eq_cons_of_afterChar? h₂))).2
    obtain ⟨gap', rest, hg', hr, rfl⟩ :=
      exists_of_head?_skipBlanks ((Option.guard_eq_some' _).1 opened)
    exact ⟨boundary.1 ((Option.guard_eq_some' _).1 free), word, gap, gap', rest, fold, hg, hg', hr,
      rfl⟩
  · rintro ⟨free, word, gap, gap', rest, fold, hg, hg', rfl, rfl⟩
    refine ⟨(), (Option.guard_eq_some' _).2 (boundary.2 free), _,
      afterIgnoringCase?_eq_some_iff.2 ⟨word, rfl, fold⟩, gap' ++ '[' :: rest, ?_, ?_⟩
    · rw [skipBlanks_append hg, skipBlanks_of_not_blank rfl]
      rfl
    · rw [skipBlanks_append hg', skipBlanks_of_not_blank rfl]
      exact ⟨(), rfl, rfl⟩

/-- In front of the bracket stand letters, blanks and a colon only. -/
theorem exists_of_sectionStart? {found : Unit × List Char}
    (h : sectionStart? key.name.toList before s = some found) :
    ∃ start r, s = start ++ '[' :: r ∧
      start.head?.any (fun c => isAsciiLetter (foldChar c)) = true ∧ ']' ∉ start := by
  obtain ⟨-, word, gap, gap', r, fold, hg, hg', -, rfl⟩ := sectionStart?_eq_some_iff.1 h
  have letters : ∀ c ∈ word, isAsciiLetter (foldChar c) = true := by
    intro c hc
    have mem : foldChar c ∈ key.name.toList.map foldChar := fold ▸ List.mem_map_of_mem hc
    obtain ⟨d, hd, he⟩ := List.mem_map.1 mem
    rw [← he]
    exact isAsciiLetter_foldChar_of_mem_name key d hd
  have ne : word ≠ [] := by
    rintro rfl
    revert fold
    cases key <;> decide
  have blanks : ∀ {gap : List Char}, IsBlank gap → ']' ∉ gap := fun hg mem =>
    absurd (hg _ mem) (by decide)
  refine ⟨word ++ (gap ++ ':' :: gap'), r, by simp, ?_, ?_⟩
  · obtain ⟨c, rest, rfl⟩ := List.exists_cons_of_ne_nil ne
    exact letters c List.mem_cons_self
  · simp only [List.mem_append, List.mem_cons, not_or]
    exact ⟨fun h => absurd (letters _ h) (by decide), blanks hg, by decide, blanks hg'⟩

theorem sectionStart?_cons (hc : isAsciiLetter (foldChar c) = false) (before : Option Char)
    (s : List Char) : sectionStart? key.name.toList before (c :: s) = none := by
  refine Option.eq_none_iff_forall_ne_some.2 fun found h => ?_
  obtain ⟨start, r, he, hs, -⟩ := exists_of_sectionStart? h
  cases start with
  | nil => cases hs
  | cons d start =>
    obtain ⟨rfl, -⟩ := List.cons.inj he
    have letter : isAsciiLetter (foldChar c) = true := hs
    rw [hc] at letter
    cases letter

/-- No section starts in front of a closing bracket that is not opened there. -/
theorem sectionStart?_append (hs : '[' ∉ s) (before : Option Char) (t : List Char) :
    sectionStart? key.name.toList before (s ++ ']' :: t) = none := by
  refine Option.eq_none_iff_forall_ne_some.2 fun found h => ?_
  obtain ⟨start, r, he, -, hm⟩ := exists_of_sectionStart? h
  rcases List.append_eq_append_iff.1 he with ⟨more, rfl, hc⟩ | ⟨more, rfl, hc⟩
  · cases more with
    | nil => simp at hc
    | cons c more =>
      obtain ⟨rfl, -⟩ := List.cons.inj hc
      exact hm (by simp)
  · cases more with
    | nil => simp at hc
    | cons c more =>
      obtain ⟨rfl, -⟩ := List.cons.inj hc
      exact hs (by simp)

/-- No word goes on behind a place. -/
def EndsWord (before : Option Char) : Prop := before.all (fun c => !isNameChar c) = true

instance : Decidable (EndsWord before) := inferInstanceAs (Decidable (_ = true))

/-- The search for a section passes over a text, and no word goes on behind it. -/
def Passes (key : MetadataKey) (front : List Char) : Prop :=
  ∀ before t, EndsWord before → ∃ last, EndsWord last ∧
    findFirstFrom? (sectionStart? key.name.toList) before (front ++ t) =
      findFirstFrom? (sectionStart? key.name.toList) last t

/-- A character at which no section starts, and that is in no name. -/
structure IsGapChar (c : Char) : Prop where
  noLetter : isAsciiLetter (foldChar c) = false
  noName : isNameChar c = false

theorem isGapChar_of_isBlank (hc : isBlank c = true) : IsGapChar c :=
  ⟨isAsciiLetter_foldChar_of_isBlank hc, isNameChar_eq_false_of_isBlank hc⟩

theorem isGapChar_of_mem (hc : c ∈ [':', ',', '{', '}', '[', ']']) : IsGapChar c := by
  have all : [':', ',', '{', '}', '[', ']'].all
      (fun c => !isAsciiLetter (foldChar c) && !isNameChar c) = true := by decide +kernel
  have both := List.all_eq_true.1 all c hc
  rw [Bool.and_eq_true, Bool.not_eq_true', Bool.not_eq_true'] at both
  exact ⟨both.1, both.2⟩

theorem Passes.append (hs : Passes key s) (ht : Passes key t) : Passes key (s ++ t) := by
  intro before r hb
  obtain ⟨middle, hm, first⟩ := hs before (t ++ r) hb
  obtain ⟨last, hl, second⟩ := ht middle r hm
  refine ⟨last, hl, ?_⟩
  rw [List.append_assoc, first, second]

theorem failsAt_of_isGapChar (key : MetadataKey) (hs : ∀ c ∈ s, IsGapChar c) :
    FailsAt (sectionStart? key.name.toList) s :=
  fun c hc => sectionStart?_cons (hs c hc).noLetter

theorem endsWord_getLast? (hs : ∀ c ∈ s, IsGapChar c) (h : s = [] → EndsWord before) :
    EndsWord (s.getLast?.or before) := by
  cases hl : s.getLast? with
  | none => exact h (List.getLast?_eq_none_iff.1 hl)
  | some c =>
    have := (hs c (List.mem_of_getLast? hl)).noName
    simp [EndsWord, this]

theorem passes_of_forall (key : MetadataKey) (hs : ∀ c ∈ s, IsGapChar c) : Passes key s :=
  fun before t hb =>
    ⟨_, endsWord_getLast? hs fun _ => hb,
      (failsAt_of_isGapChar key hs).findFirstFrom?_append before t⟩

theorem passes_of_isBlank (key : MetadataKey) (hs : IsBlank s) : Passes key s :=
  passes_of_forall key fun c hc => isGapChar_of_isBlank (hs c hc)

/-- The search passes over another key with a colon behind it. -/
theorem passes_name (ne : key ≠ other) (hg : IsBlank gap) :
    Passes key (other.name.toList ++ (gap ++ [':'])) := by
  intro before t _
  have gaps : ∀ c ∈ gap ++ [':'], IsGapChar c := by
    refine List.forall_mem_append.2 ⟨fun c hc => isGapChar_of_isBlank (hg c hc), ?_⟩
    exact List.forall_mem_singleton.2 (isGapChar_of_mem (by decide))
  have chars : ∀ c ∈ other.name.toList, isNameChar c = true := by
    apply List.all_eq_true.1
    cases other <;> decide
  refine ⟨some ':', by decide +kernel, ?_⟩
  rw [List.append_assoc, findFirstFrom?_of_forall,
    (failsAt_of_isGapChar key gaps).findFirstFrom?_append, List.getLast?_concat, Option.some_or]
  intro a b he hb
  cases hl : a.getLast? with
  | none =>
    obtain rfl := List.getLast?_eq_none_iff.1 hl
    obtain rfl : other.name.toList = b := he
    exact sectionStart?_of_ne ne _ _
  | some c =>
    have mem : c ∈ other.name.toList := by
      rw [he]
      exact List.mem_append_left _ (List.mem_of_getLast? hl)
    exact sectionStart?_of_isNameChar (chars c mem) _

/-- The search passes over an array that holds no other one. -/
theorem passes_array (hb : '[' ∉ body) : Passes key ('[' :: (body ++ [']'])) := by
  intro before t _
  have last : ('[' :: (body ++ [']'])).getLast?.or before = some ']' := by
    rw [← List.cons_append, List.getLast?_concat, Option.some_or]
  refine ⟨some ']', by decide +kernel, ?_⟩
  rw [findFirstFrom?_of_forall, last]
  intro a b he ne
  cases a with
  | nil =>
    obtain rfl : '[' :: (body ++ [']']) = b := he
    exact sectionStart?_cons (isGapChar_of_mem (by decide)).noLetter _ _
  | cons c a =>
    obtain ⟨rest, close, rfl⟩ := (List.eq_nil_or_concat b).resolve_left ne
    have tail : body ++ [']'] = (a ++ rest) ++ [close] := by
      simpa using (List.cons.inj he).2
    obtain ⟨rfl, hc⟩ := List.append_inj' tail rfl
    obtain rfl : ']' = close := by simpa using hc
    rw [List.concat_eq_append, List.append_assoc]
    refine sectionStart?_append ?_ _ t
    exact fun mem => hb (List.mem_append_right _ mem)

/-- The tokens of a section. -/
def sectionTokens (key : MetadataKey) (comma : Bool) (items : List (List Token)) : List Token :=
  Property.written ⟨key.name.toList, arrayTokens comma items⟩

theorem exists_of_spaced_section (hs : Spaced (sectionTokens key comma items) s) :
    ∃ a b c body d, s = a ++ (key.name.toList ++ (b ++ ':' :: (c ++ '[' :: (body ++ ']' :: d)))) ∧
      IsBlank a ∧ IsBlank b ∧ IsBlank c ∧ Spaced (separated comma items) body ∧ IsBlank d := by
  obtain ⟨a, s₁, rfl, ha, h₁⟩ := hs.exists_cons
  obtain ⟨b, s₂, rfl, hb, h₂⟩ := h₁.exists_cons
  obtain ⟨c, s₃, rfl, hc, h₃⟩ := h₂.exists_cons
  obtain ⟨body, d, rfl, hbody, hd⟩ := h₃.exists_append_cons
  cases hd with
  | nil hd => exact ⟨a, b, c, body, d, rfl, ha, hb, hc, hbody, hd⟩

theorem passes_section (ne : key ≠ other) (hi : '[' ∉ (separated comma items).flatten)
    (hs : Spaced (sectionTokens other comma items) s) : Passes key s := by
  obtain ⟨a, b, c, body, d, rfl, ha, hb, hc, hbody, hd⟩ := exists_of_spaced_section hs
  have array : '[' ∉ body := fun mem => (hbody.isBlank_or_mem mem).elim (by decide) hi
  have name := (passes_of_isBlank key ha).append (passes_name ne hb)
  have value := (passes_of_isBlank key hc).append (passes_array array)
  have whole := name.append (value.append (passes_of_isBlank key hd))
  simpa using whole

theorem sectionStart?_section (key : MetadataKey) {gap' : List Char} (hb : EndsWord before)
    (hg : IsBlank gap) (hg' : IsBlank gap') (s : List Char) :
    sectionStart? key.name.toList before
      (key.name.toList ++ (gap ++ ':' :: (gap' ++ '[' :: s))) = some ((), '[' :: s) := by
  have free : ∀ c ∈ before, isNameChar c = false := by
    simpa [EndsWord, Option.all_eq_true] using hb
  exact sectionStart?_eq_some_iff.2 ⟨free, _, gap, gap', s, rfl, hg, hg', rfl, rfl⟩

theorem exists_findFirstFrom?_section (hi : ∀ item ∈ items, IsItem item) (hb : EndsWord before)
    (hs : Spaced (sectionTokens key comma items) s) (t : List Char) :
    ∃ rest body later,
      findFirstFrom? (sectionStart? key.name.toList) before (s ++ t) = some ((), rest) ∧
        balanced? rest = some (body, later) ∧ Spaced (separated comma items) body := by
  obtain ⟨a, b, c, body, d, rfl, ha, hgap, hgap', hbody, -⟩ := exists_of_spaced_section hs
  have nested := nested_of_spaced hbody (isBody_separated hi).nested
  refine ⟨'[' :: (body ++ ']' :: (d ++ t)), body, d ++ t, ?_, ?_, hbody⟩
  · obtain ⟨last, hl, he⟩ := passes_of_isBlank key ha before
      (key.name.toList ++ (b ++ ':' :: (c ++ '[' :: (body ++ ']' :: (d ++ t))))) hb
    have found := sectionStart?_section key hl hgap hgap' (body ++ ']' :: (d ++ t))
    simp only [List.append_assoc, List.cons_append]
    rw [he]
    obtain ⟨first, name, hn⟩ : ∃ first name, key.name.toList = first :: name := by
      cases key <;> exact ⟨_, _, rfl⟩
    rw [hn, List.cons_append] at found ⊢
    rw [findFirstFrom?, found]
  · exact nested.balanced? isPair_square _

end AngularAtlas.Source
