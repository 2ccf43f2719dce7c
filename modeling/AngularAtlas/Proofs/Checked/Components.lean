import AngularAtlas.Component.Hierarchy
import AngularAtlas.Proofs.Checked.Classes
import AngularAtlas.Proofs.Source.RouteValue

namespace AngularAtlas.Checked

open Text Source Hierarchy

/-- The component of a class, as its metadata tells it. -/
def describe (file : String) (metadata name : List Char) : Component :=
  let selector := (findFirst? (quotedValue? "selector".toList) metadata).map fun (value, _) =>
    trim (value.filter fun c => c != '[' && c != ']')
  let templateFile := (quotedProperty? "templateUrl" metadata).map (Component.templatePath file)
  { name := String.ofList name
    file
    templateFile
    inlineTemplate :=
      if templateFile.isSome then none
      else (findFirst? Component.inlineTemplate? metadata).map fun (text, _) => String.ofList text
    selector := String.ofList (selector.getD []) }

/-- The component of a source file. Its class is looked for from the closing bracket on. -/
def component (file : String) (content : List Char) : Checked (Option Component) := do
  let content := removeComments content
  match findFirst? Component.decoratorStart? content with
  | none => return none
  | some (_, rest) =>
    match ← insideMatch content rest with
    | none => return none
    | some metadata =>
      let after := matchEnd content rest + utf8Length metadata
      let behind ← sliceFrom content after
      return (findFirst? Component.exportedClass? behind).map fun (name, _) =>
        describe file metadata name

/-- The offset of the first place where a word stands. -/
def offsetOfWord? (word : List Char) : List Char → Option Nat
  | [] => if word = [] then some 0 else none
  | c :: r =>
    if (word.isPrefixOf? (c :: r)).isSome then some 0
    else (offsetOfWord? word r).map (c.utf8Size + ·)

/-- Looks from an offset on for a place where a tag or an attribute is used; the search goes on
behind the character in front of its name. -/
def usesFrom (template : List Char) (mark : Char) (selector : List Char) (start : Nat) :
    Checked Bool :=
  match _cut : from? template start with
  | none => .error (.outside start)
  | some rest =>
    match offsetOfWord? (mark :: selector) rest with
    | none => .ok false
    | some found => do
      let behind ← sliceFrom template (start + found + utf8Length (mark :: selector))
      if behind.head?.all (!isTagChar ·) then return true
      else usesFrom template mark selector (start + found + mark.utf8Size)
termination_by utf8Length template + 1 - start
decreasing_by
  obtain ⟨a, rfl, rfl⟩ := from?_eq_some_iff.1 _cut
  have := Char.utf8Size_pos mark
  rw [utf8Length_append]
  omega

def templateUses (template selector : List Char) : Checked Bool := do
  if selector = [] then return false
  if contains ('<' :: '/' :: selector ++ ['>']) template then return true
  if ← usesFrom template '<' selector 0 then return true
  usesFrom template ' ' selector 0

variable {s content word selector template rest : List Char} {mark : Char} {start : Nat}

theorem exportedClass?_congr (before before' : Option Char) (s : List Char) :
    Component.exportedClass? before s = Component.exportedClass? before' s := rfl

/-- A closing bracket in front of a text does not matter to the search for a class. -/
theorem findFirst?_exportedClass?_cons (s : List Char) :
    findFirst? Component.exportedClass? (')' :: s) = findFirst? Component.exportedClass? s := by
  have here : Component.exportedClass? none (')' :: s) = none := rfl
  rw [findFirst?, findFirstFrom?, here, findFirst?]
  cases s with
  | nil => rfl
  | cons c s =>
    simp only [findFirstFrom?]
    rw [exportedClass?_congr (some ')') none]

theorem component_eq (file : String) (content : List Char) :
    component file content = .ok (Component.ofText? file content) := by
  rw [component, Component.ofText?]
  cases find : findFirst? Component.decoratorStart? (removeComments content) with
  | none => rfl
  | some place =>
    obtain ⟨_, rest⟩ := place
    obtain ⟨before, t, suffix, read⟩ := exists_of_findFirst? find
    obtain ⟨head, tail⟩ := opens_of_decoratorStart? read
    have inside := insideMatch_eq head (tail.trans suffix) (by decide)
    generalize removeComments content = content at *
    simp only [inside, ok_bind, Option.bind_eq_bind, Option.bind_some]
    cases pair : balanced? rest with
    | none => rfl
    | some p =>
      obtain ⟨a, rfl⟩ := tail.trans suffix
      obtain ⟨opener, closer, kind, rfl⟩ := exists_of_balanced? pair
      obtain rfl := Option.some.inj head
      obtain rfl := Option.some.inj kind
      have parts : a ++ '(' :: (p.1 ++ ')' :: p.2) = (a ++ ['('] ++ p.1) ++ ')' :: p.2 := by simp
      have behind : sliceFrom (a ++ '(' :: (p.1 ++ ')' :: p.2))
          (matchEnd (a ++ '(' :: (p.1 ++ ')' :: p.2)) ('(' :: (p.1 ++ ')' :: p.2)) +
            utf8Length p.1) = .ok (')' :: p.2) := by
        rw [matchEnd_append, ← utf8Length_append, parts, sliceFrom_append]
      simp only [Option.map_some, behind, ok_bind, findFirst?_exportedClass?_cons,
        Option.bind_some]
      cases findFirst? Component.exportedClass? p.2 <;> rfl

theorem occursAsName_of_offsetOfWord?_eq_none (h : offsetOfWord? word s = none) :
    occursAsName word s = false := by
  induction s with
  | nil => rfl
  | cons c s ih =>
    rw [offsetOfWord?] at h
    split at h
    case isTrue => cases h
    case isFalse here =>
      have missing : word.isPrefixOf? (c :: s) = none :=
        Option.not_isSome_iff_eq_none.1 here
      rw [occursAsName, missing, ih (Option.map_eq_none_iff.1 h)]
      rfl

/-- Before the first place of a word it is used nowhere. -/
theorem exists_of_offsetOfWord? {offset : Nat} (h : offsetOfWord? word s = some offset) :
    ∃ a b, s = a ++ (word ++ b) ∧ utf8Length a = offset ∧
      occursAsName word s = occursAsName word (word ++ b) := by
  induction s generalizing offset with
  | nil =>
    rw [offsetOfWord?] at h
    split at h
    case isTrue empty => exact ⟨[], [], by simp [empty], Option.some.inj h, by simp [empty]⟩
    case isFalse => cases h
  | cons c s ih =>
    rw [offsetOfWord?] at h
    split at h
    case isTrue here =>
      obtain ⟨b, hb⟩ := Option.isSome_iff_exists.1 here
      exact ⟨[], b, (isPrefixOf?_append hb).symm, Option.some.inj h,
        congrArg _ (isPrefixOf?_append hb).symm⟩
    case isFalse here =>
      obtain ⟨later, found, rfl⟩ := Option.map_eq_some_iff.1 h
      obtain ⟨a, b, rfl, rfl, same⟩ := ih found
      have missing : word.isPrefixOf? (c :: (a ++ (word ++ b))) = none :=
        Option.not_isSome_iff_eq_none.1 here
      refine ⟨c :: a, b, rfl, rfl, ?_⟩
      rw [occursAsName, missing, same]
      rfl

theorem usesFrom_eq (h : from? template start = some rest) :
    usesFrom template mark selector start = .ok (occursAsName (mark :: selector) rest) := by
  -- on the length of the text from the offset on
  induction hn : rest.length using Nat.strong_induction_on generalizing start rest with
  | _ n ih =>
    subst hn
    obtain ⟨front, rfl, rfl⟩ := from?_eq_some_iff.1 h
    rw [usesFrom]
    split
    case h_1 missing =>
      rw [h] at missing
      cases missing
    case h_2 rest' found =>
      obtain rfl := Option.some.inj (h.symm.trans found)
      cases place : offsetOfWord? (mark :: selector) rest with
      | none =>
        rw [occursAsName_of_offsetOfWord?_eq_none place]
      | some offset =>
        obtain ⟨a, b, rfl, rfl, same⟩ := exists_of_offsetOfWord? place
        have behind : sliceFrom (front ++ (a ++ (mark :: selector ++ b)))
            (utf8Length front + utf8Length a + utf8Length (mark :: selector)) = .ok b := by
          rw [← utf8Length_append, ← utf8Length_append, ← List.append_assoc, ← List.append_assoc,
            sliceFrom_append]
        have next : from? (front ++ (a ++ (mark :: selector ++ b)))
            (utf8Length front + utf8Length a + mark.utf8Size) = some (selector ++ b) := by
          have parts : front ++ (a ++ (mark :: selector ++ b)) =
              (front ++ a ++ [mark]) ++ (selector ++ b) := by simp
          have stop : utf8Length front + utf8Length a + mark.utf8Size =
              utf8Length (front ++ a ++ [mark]) := by simp [Nat.add_assoc]
          rw [parts, stop, from?_append]
        have uses : occursAsName (mark :: selector) (mark :: selector ++ b) =
            (b.head?.all (!isTagChar ·) || occursAsName (mark :: selector) (selector ++ b)) := by
          rw [List.cons_append, occursAsName, ← List.cons_append, isPrefixOf?_append_self]
          rfl
        simp only [behind, ok_bind]
        rw [same, uses]
        cases b.head?.all (!isTagChar ·) with
        | true => rfl
        | false =>
          have shorter : (selector ++ b).length < (a ++ (mark :: selector ++ b)).length := by
            simp only [List.length_append, List.length_cons]
            omega
          exact ih _ shorter next rfl

theorem templateUses_eq (template selector : List Char) :
    templateUses template selector = .ok (Hierarchy.templateUses template selector) := by
  have start : from? template 0 = some template := from?_append [] template
  rw [templateUses, Hierarchy.templateUses]
  by_cases empty : selector = []
  · simp only [empty]
    rfl
  simp only [empty, usesFrom_eq start, ok_bind, if_false, ne_eq, not_false_eq_true, decide_true,
    Bool.true_and]
  cases contains ('<' :: '/' :: selector ++ ['>']) template with
  | true => rfl
  | false => cases occursAsName ('<' :: selector) template <;> rfl

end AngularAtlas.Checked
