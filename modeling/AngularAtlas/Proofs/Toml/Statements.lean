import AngularAtlas.Proofs.Toml.Escaping
import AngularAtlas.Proofs.Toml.Numbers
import AngularAtlas.Toml.Reader

/-!
Statements as they are written: headers and assignments with keys that need no quotes, one on a
line. Main statement: such lines, one behind the other, are read as the statements that they say.
-/

namespace AngularAtlas.Toml

variable {w w' rest s : List Char} {c : Char} {key : String} {keys : List String}
  {items : List String} {value : Value} {said said' : List Statement}

/-- Neither a blank nor the end of a line nor a comment starts with this character. -/
def IsStart (c : Char) : Prop := isSpace c = false ∧ c ≠ '#' ∧ c ≠ '\n' ∧ c ≠ '\r'

instance (c : Char) : Decidable (IsStart c) := by
  unfold IsStart
  infer_instance

theorem skipSpaces_cons (start : isSpace c = false) (r : List Char) :
    skipSpaces (c :: r) = c :: r := by
  simp [skipSpaces, start]

theorem IsStart.lineBreak?_eq_none (start : IsStart c) (r : List Char) :
    lineBreak? (skipComment (skipSpaces (c :: r))) = none := by
  obtain ⟨noSpace, noComment, noBreak, noReturn⟩ := start
  rw [skipSpaces_cons noSpace]
  simp [skipComment, lineBreak?, noComment, noBreak, noReturn]

theorem IsStart.lineEnd?_eq_none (start : IsStart c) (r : List Char) :
    lineEnd? (c :: r) = none := by
  have stop := start.lineBreak?_eq_none r
  rw [lineEnd?]
  split
  · next empty =>
    obtain ⟨noSpace, noComment, -⟩ := start
    rw [skipSpaces_cons noSpace] at empty
    simp [skipComment, noComment] at empty
  · exact stop

theorem lineEnd?_newline (r : List Char) : lineEnd? ('\n' :: r) = some r := by
  rfl

theorem IsStart.skipGaps_cons (start : IsStart c) (r : List Char) :
    skipGaps (c :: r) = c :: r := by
  rw [skipGaps, start.lineBreak?_eq_none r, skipSpaces_cons start.1]

theorem skipGaps_newline (r : List Char) : skipGaps ('\n' :: r) = skipGaps r := by
  rw [skipGaps]
  simp [skipSpaces, isSpace, skipComment, lineBreak?]

theorem IsStart.skipGaps_spaces (start : IsStart c) (r : List Char) :
    skipGaps (' ' :: ' ' :: ' ' :: ' ' :: c :: r) = c :: r := by
  have spaces : skipSpaces (' ' :: ' ' :: ' ' :: ' ' :: c :: r) = skipSpaces (c :: r) := rfl
  rw [skipGaps, spaces, start.lineBreak?_eq_none r, skipSpaces_cons start.1]

/-- A key that needs no quotes. -/
def IsBareKey (key : String) : Prop := key.toList ≠ [] ∧ ∀ c ∈ key.toList, isKeyChar c = true

instance (key : String) : Decidable (IsBareKey key) :=
  decidable_of_iff (key.toList ≠ [] ∧ key.toList.all isKeyChar = true)
    (and_congr_right fun _ => List.all_eq_true)

theorem isStart_of_isKeyChar (h : isKeyChar c = true) :
    IsStart c ∧ c ≠ '[' ∧ c ≠ '"' ∧ c ≠ '\'' := by
  have others : ∀ d ∈ [' ', '\t', '#', '\n', '\r', '[', '"', '\''], c ≠ d := by
    rintro d mem rfl
    have no : [' ', '\t', '#', '\n', '\r', '[', '"', '\''].any isKeyChar = false := by decide
    exact List.any_eq_false.1 no c mem h
  simpa [IsStart, isSpace, and_assoc] using others

theorem IsBareKey.exists_cons (bare : IsBareKey key) :
    ∃ c r, key.toList = c :: r ∧ isKeyChar c = true := by
  obtain ⟨c, r, he⟩ := List.exists_cons_of_ne_nil bare.1
  exact ⟨c, r, he, bare.2 c (he ▸ List.mem_cons_self)⟩

theorem key?_append (bare : IsBareKey key) (stop : ∀ c ∈ rest.head?, isKeyChar c = false) :
    key? (key.toList ++ rest) = some (key, rest) := by
  have taken := Text.takeWhile_append_of_stop bare.2 stop
  have left := Text.dropWhile_append_of_stop bare.2 stop
  obtain ⟨c, r, he, isKey⟩ := bare.exists_cons
  obtain ⟨-, -, noBasic, noLiteral⟩ := isStart_of_isKeyChar isKey
  have unquoted : ¬ (((key.toList ++ rest).head?.any fun c => c == '"' || c == '\'') = true) := by
    simp [he, noBasic, noLiteral]
  rw [key?, if_neg unquoted]
  simp only [taken, left, if_neg bare.1, String.ofList_toList]

/-- Keys with points between them. -/
def joinedKeys (keys : List String) : List Char := ['.'].intercalate (keys.map String.toList)

theorem dottedKeys?_joinedKeys (bare : ∀ key ∈ keys, IsBareKey key) (ne : keys ≠ [])
    (stop : ∀ c ∈ rest.head?, isKeyChar c = false) (noDot : (skipSpaces rest).head? ≠ some '.') :
    dottedKeys? (joinedKeys keys ++ rest) = some (keys, skipSpaces rest) := by
  induction keys with
  | nil => exact absurd rfl ne
  | cons key keys ih =>
    obtain ⟨here, later⟩ := List.forall_mem_cons.1 bare
    obtain ⟨c, r, he, isKey⟩ := here.exists_cons
    have noSpace := (isStart_of_isKeyChar isKey).1.1
    have front : ∀ more, skipSpaces (key.toList ++ more) = key.toList ++ more := by
      intro more
      rw [he, List.cons_append, skipSpaces_cons noSpace]
    cases keys with
    | nil =>
      have text : joinedKeys [key] ++ rest = key.toList ++ rest := by
        simp [joinedKeys]
      rw [text, dottedKeys?, front, key?_append here stop]
      dsimp only
      split
      · next dot => simp [dot] at noDot
      · rfl
    | cons next keys =>
      have text : joinedKeys (key :: next :: keys) ++ rest =
          key.toList ++ ('.' :: (joinedKeys (next :: keys) ++ rest)) := by
        simp [joinedKeys, List.intercalate_cons_cons]
      have dot : ∀ c ∈ ('.' :: (joinedKeys (next :: keys) ++ rest)).head?, isKeyChar c = false := by
        rintro _ ⟨⟩
        decide
      have shorter : (joinedKeys (next :: keys) ++ rest).length <
          (key.toList ++ ('.' :: (joinedKeys (next :: keys) ++ rest))).length := by
        simp
        omega
      rw [text, dottedKeys?, front, key?_append here dot]
      dsimp only
      rw [skipSpaces_cons (c := '.') (by decide)]
      simp only [if_pos shorter, ih later (List.cons_ne_nil _ _), Option.map_some]

theorem keyPath?_joinedKeys (bare : ∀ key ∈ keys, IsBareKey key) (ne : keys ≠ [])
    (few : keys.length < maxDepth) (stop : ∀ c ∈ rest.head?, isKeyChar c = false)
    (noDot : (skipSpaces rest).head? ≠ some '.') :
    keyPath? (joinedKeys keys ++ rest) = some (keys, skipSpaces rest) := by
  simp [keyPath?, dottedKeys?_joinedKeys bare ne stop noDot, few]

theorem exists_joinedKeys_eq_cons (bare : ∀ key ∈ keys, IsBareKey key) (ne : keys ≠ []) :
    ∃ c r, joinedKeys keys = c :: r ∧ isKeyChar c = true := by
  obtain ⟨key, keys, rfl⟩ := List.exists_cons_of_ne_nil ne
  obtain ⟨c, r, he, isKey⟩ := (bare key List.mem_cons_self).exists_cons
  cases keys with
  | nil => exact ⟨c, r, by simp [joinedKeys, he], isKey⟩
  | cons next keys =>
    refine ⟨c, r ++ '.' :: joinedKeys (next :: keys), ?_, isKey⟩
    simp [joinedKeys, List.intercalate_cons_cons, he]

theorem exists_quote_eq_cons (s : List Char) :
    ∃ c r, quote s = c :: r ∧ (c = '"' ∨ c = '\'') := by
  refine ⟨(quotingOf s).mark, (quote s).tail, ?_, ?_⟩
  · cases multi : (quotingOf s).isMultiline <;>
      simp [quote, delimiter_eq, multi, List.replicate_succ]
  · rw [Quoting.mark]
    split
    · exact .inr rfl
    · exact .inl rfl

theorem isStart_of_quote (h : c = '"' ∨ c = '\'') : IsStart c := by
  rcases h with rfl | rfl <;> decide

theorem value?_quote (basic : rest.head? ≠ some '"') (literal : rest.head? ≠ some '\'')
    (steps depth : Nat) (s : List Char) :
    value? (steps + 1) depth (quote s ++ rest) = some (.text (String.ofList s), rest) := by
  obtain ⟨c, r, he, mark⟩ := exists_quote_eq_cons s
  have read := quoted?_quote s basic literal
  have isQuote : (c == '"' || c == '\'') = true := by simpa using mark
  rw [he, List.cons_append] at read ⊢
  rw [value?]
  · simp [isQuote, read]
  · rintro _ ⟨⟩
    simp at mark
  · rintro _ ⟨⟩
    simp at mark

/-- A value on the rest of a line: where it starts, and what it is read as. -/
structure Writes (w : List Char) (value : Value) : Prop where
  start : ∀ c ∈ w.head?, isSpace c = false
  ne_nil : w ≠ []
  read : ∀ steps rest, w.length < steps →
    value? steps (maxDepth - 1) (w ++ '\n' :: rest) = some (value, '\n' :: rest)

theorem writes_quote (s : List Char) : Writes (quote s) (.text (String.ofList s)) := by
  obtain ⟨c, r, he, mark⟩ := exists_quote_eq_cons s
  refine ⟨?_, by simp [he], fun steps rest enough => ?_⟩
  · rw [he]
    rintro _ ⟨⟩
    exact (isStart_of_quote mark).1
  · obtain ⟨steps, rfl⟩ := Nat.exists_eq_add_of_lt enough
    exact value?_quote (by simp) (by simp) _ _ s

/-- Texts between brackets, each on a line of its own. -/
def itemLines (items : List String) : List Char :=
  items.flatMap fun item => [' ', ' ', ' ', ' '] ++ quote item.toList ++ [',', '\n']

theorem items?_itemLines (rest : List Char) (depth : Nat) {steps : Nat}
    (enough : items.length < steps) :
    items? steps depth (skipGaps ('\n' :: (itemLines items ++ ']' :: rest))) =
      some (items.map .text, rest) := by
  induction items generalizing steps with
  | nil =>
    obtain ⟨steps, rfl⟩ := Nat.exists_eq_succ_of_ne_zero (Nat.ne_of_gt enough)
    have bracket : IsStart ']' := by decide
    have text : itemLines [] ++ ']' :: rest = ']' :: rest := rfl
    rw [text, skipGaps_newline, bracket.skipGaps_cons, items?, List.map_nil]
    exact Nat.succ_ne_zero steps
  | cons item items ih =>
    obtain ⟨steps, rfl⟩ := Nat.exists_eq_succ_of_ne_zero (Nat.ne_of_gt (Nat.zero_lt_of_lt enough))
    have enough' : items.length < steps := by simpa using enough
    obtain ⟨more, rfl⟩ := Nat.exists_eq_succ_of_ne_zero (Nat.ne_of_gt (Nat.zero_lt_of_lt enough'))
    obtain ⟨c, r, he, mark⟩ := exists_quote_eq_cons item.toList
    have comma : IsStart ',' := by decide
    have text : itemLines (item :: items) ++ ']' :: rest =
        ' ' :: ' ' :: ' ' :: ' ' :: (quote item.toList ++
          (',' :: '\n' :: (itemLines items ++ ']' :: rest))) := by
      simp [itemLines]
    have first : skipGaps ('\n' :: (itemLines (item :: items) ++ ']' :: rest)) =
        quote item.toList ++ (',' :: '\n' :: (itemLines items ++ ']' :: rest)) := by
      rw [skipGaps_newline, text, he, List.cons_append, (isStart_of_quote mark).skipGaps_spaces]
    have value : ∀ tail, value? (more + 1) depth (quote item.toList ++ ',' :: tail) =
        some (.text (String.ofList item.toList), ',' :: tail) :=
      fun tail => value?_quote (by simp) (by simp) more depth item.toList
    rw [first, items?]
    · simp [value, comma.skipGaps_cons, ih enough']
    · rintro _ same
      rw [he] at same
      obtain ⟨rfl, -⟩ := List.cons.inj same
      simp at mark

theorem length_le_itemLines (items : List String) : items.length ≤ (itemLines items).length := by
  induction items with
  | nil => exact Nat.le_refl 0
  | cons item items ih =>
    have text : itemLines (item :: items) =
        ([' ', ' ', ' ', ' '] ++ quote item.toList ++ [',', '\n']) ++ itemLines items := rfl
    rw [text, List.length_append, List.length_cons]
    simp only [List.length_append, List.length_cons, List.length_nil]
    omega

theorem value?_bracket {steps depth : Nat} {items : List Value}
    (h : items? steps depth (skipGaps s) = some (items, rest)) :
    value? (steps + 1) (depth + 1) ('[' :: s) = some (.array items, rest) := by
  rw [value?, h]
  rfl

/-- Texts between brackets are read as an array, however they stand there. -/
theorem writes_bracket (read : ∀ steps depth rest, w.length < steps →
    items? steps depth (skipGaps (w ++ ']' :: rest)) = some (items.map .text, rest)) :
    Writes ('[' :: (w ++ [']'])) (.array (items.map .text)) := by
  refine ⟨by rintro _ ⟨⟩; decide, List.cons_ne_nil _ _, fun steps rest enough => ?_⟩
  have long : w.length + 2 < steps := by simpa using enough
  obtain ⟨steps, rfl⟩ := Nat.exists_eq_succ_of_ne_zero (Nat.ne_of_gt (Nat.zero_lt_of_lt enough))
  have text : '[' :: (w ++ [']']) ++ '\n' :: rest = '[' :: (w ++ ']' :: '\n' :: rest) := by simp
  rw [text]
  exact value?_bracket (read steps 78 ('\n' :: rest) (by omega))

theorem writes_nothing : Writes ['[', ']'] (.array ([].map .text)) := by
  refine writes_bracket (w := []) fun steps depth rest enough => ?_
  have bracket : IsStart ']' := by decide
  rw [List.nil_append, bracket.skipGaps_cons, items?, List.map_nil]
  exact Nat.ne_of_gt enough

theorem writes_singleton (item : String) :
    Writes ('[' :: (quote item.toList ++ [']'])) (.array ([item].map .text)) := by
  refine writes_bracket fun steps depth rest enough => ?_
  obtain ⟨c, r, he, mark⟩ := exists_quote_eq_cons item.toList
  have bracket : IsStart ']' := by decide
  have long : 1 < steps := by
    rw [he, List.length_cons] at enough
    omega
  obtain ⟨more, rfl⟩ : ∃ more, steps = more + 2 := ⟨steps - 2, by omega⟩
  have value : value? (more + 1) depth (quote item.toList ++ ']' :: rest) =
      some (.text (String.ofList item.toList), ']' :: rest) :=
    value?_quote (by simp) (by simp) more depth item.toList
  have start : skipGaps (quote item.toList ++ ']' :: rest) = quote item.toList ++ ']' :: rest := by
    rw [he, List.cons_append, (isStart_of_quote mark).skipGaps_cons]
  rw [start, items?]
  · simp [value, bracket.skipGaps_cons]
  · rintro _ same
    rw [he] at same
    obtain ⟨rfl, -⟩ := List.cons.inj same
    simp at mark

theorem writes_itemLines (items : List String) :
    Writes ('[' :: ('\n' :: itemLines items ++ [']'])) (.array (items.map .text)) := by
  refine writes_bracket fun steps depth rest enough => ?_
  have long := length_le_itemLines items
  rw [List.length_cons] at enough
  exact items?_itemLines rest depth (by omega)

theorem writes_number {n : Nat} (short : n < Nat.pow 2 63) :
    Writes (Nat.toDigits 10 n) (.integer n) := by
  obtain ⟨c, ds, he, digit⟩ := exists_toDigits_eq_cons n
  have others : ∀ d ∈ [' ', '\t', '[', '\x7b', '"', '\''], c ≠ d := by
    rintro d mem rfl
    have no : [' ', '\t', '[', '\x7b', '"', '\''].any Text.isAsciiDigit = false := by decide
    exact List.any_eq_false.1 no c mem digit
  simp only [List.forall_mem_cons] at others
  obtain ⟨space, tab, bracket, brace, basic, literal, -⟩ := others
  refine ⟨?_, by simp [he], fun steps rest enough => ?_⟩
  · rw [he]
    rintro _ ⟨⟩
    simp [isSpace, space, tab]
  · obtain ⟨steps, rfl⟩ := Nat.exists_eq_succ_of_ne_zero (Nat.ne_of_gt (Nat.zero_lt_of_lt enough))
    have read := literal?_toDigits short rest
    have noQuote : (c == '"' || c == '\'') = false := by simp [basic, literal]
    rw [he, List.cons_append] at read ⊢
    rw [value?, List.head?_cons, Option.any_some, noQuote, if_neg Bool.false_ne_true, read]
    · rintro r ⟨⟩
      exact bracket rfl
    · rintro r ⟨⟩
      exact brace rfl

/-- A text is read as some statements, whatever follows it. -/
def Says (w : List Char) (said : List Statement) : Prop :=
  ∀ rest, statements? (w ++ rest) = (statements? rest).map (said ++ ·)

theorem says_nil : Says [] [] := by
  intro rest
  simp

theorem Says.append (h : Says w said) (h' : Says w' said') : Says (w ++ w') (said ++ said') := by
  intro rest
  rw [List.append_assoc, h, h', Option.map_map]
  simp [Function.comp_def]

theorem Says.statements?_eq (h : Says w said) : statements? w = some said := by
  have alone := h []
  rw [List.append_nil] at alone
  rw [alone, statements?]
  simp

theorem says_of_line? (found : Option Statement) (ne : w ≠ [])
    (h : ∀ rest, line? (w ++ rest) = some (found, rest)) : Says w found.toList := by
  intro rest
  have here : w ++ rest ≠ [] := by simp [ne]
  have shorter : rest.length < (w ++ rest).length := by
    rw [List.length_append]
    have := List.length_pos_of_ne_nil ne
    omega
  rw [statements?, if_neg here, h]
  simp only [if_pos shorter]

theorem says_newline : Says ['\n'] [] := by
  refine says_of_line? none (List.cons_ne_nil _ _) fun rest => ?_
  rw [List.singleton_append, line?, lineEnd?_newline]

theorem line?_of_statement? {statement : Statement} (start : ∀ c ∈ s.head?, IsStart c)
    (ne : s ≠ []) (h : statement? s = some (statement, '\n' :: rest)) :
    line? s = some (some statement, rest) := by
  obtain ⟨c, r, rfl⟩ := List.exists_cons_of_ne_nil ne
  have here := start c rfl
  rw [line?, here.lineEnd?_eq_none, skipSpaces_cons here.1, h]
  rfl

/-- The line of a header. -/
def headerLine (path : List String) : List Char := '[' :: (joinedKeys path ++ [']', '\n'])

theorem says_headerLine (bare : ∀ key ∈ keys, IsBareKey key) (ne : keys ≠ [])
    (few : keys.length < maxDepth) : Says (headerLine keys) [.table keys] := by
  refine says_of_line? (some (.table keys)) (List.cons_ne_nil _ _) fun rest => ?_
  have text : headerLine keys ++ rest = '[' :: (joinedKeys keys ++ (']' :: '\n' :: rest)) := by
    simp [headerLine]
  rw [text]
  refine line?_of_statement? (by rintro _ ⟨⟩; decide) (List.cons_ne_nil _ _) ?_
  have path : keyPath? (joinedKeys keys ++ (']' :: '\n' :: rest)) =
      some (keys, skipSpaces (']' :: '\n' :: rest)) :=
    keyPath?_joinedKeys bare ne few (by rintro _ ⟨⟩; decide)
      (by simp [skipSpaces_cons (c := ']') (by decide)])
  rw [skipSpaces_cons (by decide)] at path
  obtain ⟨c, r, he, isKey⟩ := exists_joinedKeys_eq_cons bare ne
  have noElement := (isStart_of_isKeyChar isKey).2.1
  rw [statement?, path]
  · rfl
  · rintro r same
    rw [he] at same
    exact noElement (List.cons.inj same).1

/-- The line of an assignment. -/
def assignmentLine (key : String) (w : List Char) : List Char :=
  key.toList ++ ([' ', '=', ' '] ++ (w ++ ['\n']))

theorem says_assignmentLine (bare : IsBareKey key) (written : Writes w value) :
    Says (assignmentLine key w) [.assignment [key] value] := by
  obtain ⟨c, r, he, isKey⟩ := bare.exists_cons
  obtain ⟨start, noHeader, -⟩ := isStart_of_isKeyChar isKey
  obtain ⟨d, v, hw⟩ := List.exists_cons_of_ne_nil written.ne_nil
  have noSpace : isSpace d = false := written.start d (by rw [hw]; rfl)
  have ne : assignmentLine key w ≠ [] := by simp [assignmentLine]
  refine says_of_line? (some (.assignment [key] value)) ne fun rest => ?_
  have text : assignmentLine key w ++ rest =
      joinedKeys [key] ++ (' ' :: '=' :: ' ' :: (w ++ '\n' :: rest)) := by
    simp [assignmentLine, joinedKeys]
  have single : joinedKeys [key] = c :: r := by simp [joinedKeys, he]
  have equals : skipSpaces (' ' :: '=' :: ' ' :: (w ++ '\n' :: rest)) =
      '=' :: ' ' :: (w ++ '\n' :: rest) := rfl
  have path : keyPath? (joinedKeys [key] ++ (' ' :: '=' :: ' ' :: (w ++ '\n' :: rest))) =
      some ([key], skipSpaces (' ' :: '=' :: ' ' :: (w ++ '\n' :: rest))) :=
    keyPath?_joinedKeys (by simpa using bare) (List.cons_ne_nil key []) (by simp [maxDepth])
      (by rintro _ ⟨⟩; decide) (by simp [equals])
  have valueStart : skipSpaces (' ' :: (w ++ '\n' :: rest)) = w ++ '\n' :: rest := by
    rw [hw, List.cons_append]
    exact skipSpaces_cons noSpace _
  rw [text]
  refine line?_of_statement? (by rw [single]; rintro _ ⟨⟩; exact start) (by simp [single]) ?_
  rw [equals] at path
  rw [statement?, path]
  · have read := written.read (2 * (w ++ '\n' :: rest).length + 2) rest
      (by rw [List.length_append]; omega)
    simp only [Option.bind_eq_bind, Option.bind_some, Text.afterChar?, if_true, valueStart, read,
      Option.pure_def]
  · rintro r' same
    rw [single] at same
    exact noHeader (List.cons.inj same).1
  · rintro r' same
    rw [single] at same
    exact noHeader (List.cons.inj same).1

end AngularAtlas.Toml
