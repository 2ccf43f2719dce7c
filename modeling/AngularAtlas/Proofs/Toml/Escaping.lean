import AngularAtlas.Proofs.Toml.Quoting

namespace AngularAtlas.Toml

variable {q : Quoting} {c : Char} {rest s : List Char} {run : Nat} {isMultiline : Bool}

theorem unit?_escape {d : Char} (basic : q.isLiteral = false)
    (onLine : isSpace d = false ∧ d ≠ '\n' ∧ d ≠ '\r')
    (escape : escape? (d :: rest) = some (c, s)) : unit? q ('\\' :: d :: rest) = some ([c], s) := by
  have noBreak : joinedLine? (d :: rest) = none := by
    have start : skipSpaces (d :: rest) = d :: rest := by simp [skipSpaces, onLine.1]
    rw [joinedLine?, start]
    simp [lineBreak?, onLine.2.1, onLine.2.2]
  rw [unit?, if_pos ⟨rfl, by simp [basic]⟩, noBreak, escape]
  simp

theorem hexDigit?_capitalHexDigit :
    ∀ n < 16, Json.hexDigit? (capitalHexDigit n) = some n := by
  decide

theorem escape?_control (h : c.toNat < 256) (rest : List Char) :
    escape? (['u', '0', '0', capitalHexDigit (c.toNat / 16), capitalHexDigit (c.toNat % 16)] ++
      rest) = some (c, rest) := by
  have high := hexDigit?_capitalHexDigit (c.toNat / 16) (by omega)
  have low := hexDigit?_capitalHexDigit (c.toNat % 16) (Nat.mod_lt _ (by decide))
  have zero : Json.hexDigit? '0' = some 0 := by decide
  have digits : ((['0', '0', capitalHexDigit (c.toNat / 16), capitalHexDigit (c.toNat % 16)] ++
      rest).take 4).mapM Json.hexDigit? = some [0, 0, c.toNat / 16, c.toNat % 16] := by
    simp [high, low, zero]
  have enough : guard (4 ≤ (['0', '0', capitalHexDigit (c.toNat / 16),
      capitalHexDigit (c.toNat % 16)] ++ rest).length) = some () := if_pos (by simp)
  have read : ∀ n, n = c.toNat →
      (if h : n.isValidChar then some (Char.ofNatAux n h, rest) else none) = some (c, rest) := by
    rintro n rfl
    have same := Char.ofNat_toNat c
    have valid : c.toNat.isValidChar := c.valid
    rw [Char.ofNat, dif_pos valid] at same
    rw [dif_pos valid, same]
  change codePoint? 4 (_ ++ rest) = _
  rw [codePoint?, enough, digits]
  exact read _ (by simpa using Nat.div_add_mod' c.toNat 16)

theorem toNat_lt_of_isControl (control : isControl c = true) : c.toNat < 256 := by
  simp only [isControl, Bool.and_eq_true, Bool.or_eq_true, decide_eq_true_eq,
    beq_iff_eq] at control
  obtain ⟨-, low | rfl⟩ := control
  · omega
  · decide

theorem unit?_escapeChar (basic : q.isLiteral = false) (rest : List Char) :
    unit? q (escapeChar q.isMultiline c ++ rest) = some ([c], rest) := by
  unfold escapeChar
  split
  case h_3 =>
    cases multi : q.isMultiline with
    | true => exact unit?_newline multi rest
    | false => exact unit?_escape basic (by decide) rfl
  case h_7 noBreak _ _ noBackslash =>
    split
    case isTrue control =>
      exact unit?_escape basic (by decide) (escape?_control (toNat_lt_of_isControl control) rest)
    case isFalse plain =>
      exact unit?_of_isPlain (.inr noBackslash) (by simpa [isPlain, plain] using noBreak) rest
  all_goals exact unit?_escape basic (by decide) rfl

/-- Whatever a character is, its escape does not start with a quote. -/
theorem head?_escapeChar (noMark : c ≠ '"') : (escapeChar isMultiline c).head? ≠ some '"' := by
  unfold escapeChar
  split
  case h_3 => cases isMultiline <;> decide
  case h_7 =>
    split
    case isTrue => simp
    case isFalse => simpa using noMark
  all_goals decide

/-- The characters of a text, each with what it is written as between double quotes. -/
def escapePieces (isMultiline : Bool) (run : Nat) : List Char → List Piece
  | [] => []
  | '"' :: r =>
    if isMultiline && run % 3 != 2 then ⟨['"'], '"'⟩ :: escapePieces isMultiline (run + 1) r
    else ⟨['\\', '"'], '"'⟩ :: escapePieces isMultiline (run + 1) r
  | c :: r => ⟨escapeChar isMultiline c, c⟩ :: escapePieces isMultiline 0 r

theorem writtenText_escapePieces (isMultiline : Bool) (run : Nat) (s : List Char) :
    writtenText (escapePieces isMultiline run s) = escapeText isMultiline run s := by
  fun_induction escapePieces isMultiline run s with
  | case1 => rfl
  | case2 run r raw ih => rw [escapeText, if_pos raw, ← ih]; rfl
  | case3 run r raw ih => rw [escapeText, if_neg raw, ← ih]; rfl
  | case4 run c r other ih => rw [escapeText, ← ih]; rfl; exact other

theorem char_escapePieces (isMultiline : Bool) (run : Nat) (s : List Char) :
    (escapePieces isMultiline run s).map (·.char) = s := by
  fun_induction escapePieces isMultiline run s with
  | case1 => rfl
  | case2 run r raw ih => rw [List.map_cons, ih]
  | case3 run r raw ih => rw [List.map_cons, ih]
  | case4 run c r other ih => rw [List.map_cons, ih]

theorem mark_of_not_isLiteral (basic : q.isLiteral = false) : q.mark = '"' := by
  rw [Quoting.mark, basic, if_neg Bool.false_ne_true]

theorem reads_escapePieces (basic : q.isLiteral = false) (run : Nat) (s : List Char) :
    ∀ p ∈ escapePieces q.isMultiline run s, p.Reads q := by
  have mark := mark_of_not_isLiteral basic
  fun_induction escapePieces q.isMultiline run s with
  | case1 => simp
  | case2 run r raw ih =>
    refine List.forall_mem_cons.2 ⟨⟨fun rest => ?_, fun _ => ?_⟩, ih⟩
    · exact unit?_of_isPlain (.inr (by decide)) (by decide) rest
    · rw [Quoting.markPiece, mark]
  | case3 run r raw ih =>
    refine List.forall_mem_cons.2 ⟨⟨fun rest => ?_, fun h => ?_⟩, ih⟩
    · exact unit?_escape basic (by decide) rfl
    · simp [mark] at h
  | case4 run c r other ih =>
    refine List.forall_mem_cons.2 ⟨⟨fun rest => unit?_escapeChar basic rest, fun h => ?_⟩, ih⟩
    rw [mark] at h
    exact absurd h (head?_escapeChar other)

/-- The quotes that stand for themselves come two by two at most: how many of them there are
depends on how many quotes are just before. -/
theorem leadingMarks_escapePieces_le (basic : q.isLiteral = false) (run : Nat) (s : List Char) :
    leadingMarks q (escapePieces q.isMultiline run s) ≤
      if q.isMultiline then 2 - run % 3 else 0 := by
  have mark := mark_of_not_isLiteral basic
  fun_induction escapePieces q.isMultiline run s with
  | case1 => simp [leadingMarks]
  | case2 run r raw ih =>
    obtain ⟨multi, early⟩ : q.isMultiline = true ∧ run % 3 ≠ 2 := by simpa using raw
    rw [if_pos multi] at ih ⊢
    have one : leadingMarks q (⟨['"'], '"'⟩ :: escapePieces q.isMultiline (run + 1) r) =
        leadingMarks q (escapePieces q.isMultiline (run + 1) r) + 1 := by
      simp [leadingMarks, Quoting.markPiece, mark]
    omega
  | case3 run r raw ih => simp [leadingMarks, Quoting.markPiece, mark]
  | case4 run c r other ih =>
    have differ : c ≠ '"' := other
    simp [leadingMarks, Quoting.markPiece, mark, differ]

theorem fewMarks_escapePieces (basic : q.isLiteral = false) (run : Nat) (s : List Char) :
    FewMarks q (escapePieces q.isMultiline run s) := by
  intro later suffix
  obtain ⟨run', s', rfl⟩ : ∃ run' s', later = escapePieces q.isMultiline run' s' := by
    fun_induction escapePieces q.isMultiline run s with
    | case1 => exact ⟨0, [], List.suffix_nil.1 suffix⟩
    | case2 run r raw ih =>
      rcases List.suffix_cons_iff.1 suffix with rfl | suffix
      · exact ⟨run, '"' :: r, by rw [escapePieces, if_pos raw]⟩
      · exact ih suffix
    | case3 run r raw ih =>
      rcases List.suffix_cons_iff.1 suffix with rfl | suffix
      · exact ⟨run, '"' :: r, by rw [escapePieces, if_neg raw]⟩
      · exact ih suffix
    | case4 run c r other ih =>
      rcases List.suffix_cons_iff.1 suffix with rfl | suffix
      · exact ⟨run, c :: r, by rw [escapePieces]; exact other⟩
      · exact ih suffix
  have few := leadingMarks_escapePieces_le basic run' s'
  rw [Quoting.maxRun]
  split
  · next multi => rw [if_pos multi] at few; omega
  · next multi => rwa [if_neg multi] at few

theorem contains_of_isSuffix {word later : List Char} (front : word <+: later)
    (suffix : later <:+ s) (nonempty : word ≠ []) : Text.contains word s = true := by
  induction s with
  | nil =>
    obtain rfl := List.suffix_nil.1 suffix
    exact absurd (List.prefix_nil.1 front) nonempty
  | cons c s ih =>
    rw [Text.contains, Bool.or_eq_true]
    rcases List.suffix_cons_iff.1 suffix with rfl | suffix
    · exact .inl (List.isPrefixOf_iff_prefix.2 front)
    · exact .inr (ih suffix)

theorem length_takeWhile_le_two (few : Text.contains [c, c, c] s = false)
    {later : List Char} (suffix : later <:+ s) : (later.takeWhile (· == c)).length ≤ 2 := by
  by_contra long
  have run : ∀ d ∈ later.takeWhile (· == c), d = c := fun d mem => by
    simpa using List.all_eq_true.1 (List.all_takeWhile (l := later)) d mem
  have three : [c, c, c] <+: later.takeWhile (· == c) := by
    have split : (later.takeWhile (· == c)).length =
        3 + ((later.takeWhile (· == c)).length - 3) := by omega
    rw [List.eq_replicate_of_mem run, split, List.replicate_add]
    exact List.prefix_append _ _
  have found := contains_of_isSuffix (three.trans (List.takeWhile_prefix _)) suffix
    (List.cons_ne_nil _ _)
  rw [found] at few
  cases few

theorem takeWhile_eq_nil_of_not_mem (absent : c ∉ s) {later : List Char} (suffix : later <:+ s) :
    later.takeWhile (· == c) = [] := by
  cases later with
  | nil => rfl
  | cons d later =>
    have differ : d ≠ c := fun h => absent (h ▸ suffix.subset (List.mem_cons_self ..))
    exact List.takeWhile_cons_of_neg (by simpa using differ)

/-- Single quotes are taken for a text that can stand between them as it is. -/
theorem quotingOf_literal (literal : (quotingOf s).isLiteral = true) :
    s.any isControl = false ∧ ('\n' ∈ s → (quotingOf s).isMultiline = true) ∧
      ∀ later, later <:+ s →
        (later.takeWhile (· == (quotingOf s).mark)).length ≤ (quotingOf s).maxRun := by
  unfold quotingOf at literal ⊢
  dsimp only at literal ⊢
  split at literal
  · cases literal
  split at literal
  · next noBasic oneLine =>
    rw [if_neg noBasic, if_pos oneLine]
    simp only [Bool.and_eq_true, Bool.not_eq_true', List.contains_eq_mem,
      decide_eq_false_iff_not] at oneLine
    obtain ⟨⟨clean, noBreak⟩, noQuote⟩ := oneLine
    refine ⟨clean, fun mem => absurd mem noBreak, fun later suffix => ?_⟩
    have none : later.takeWhile (· == '\'') = [] := takeWhile_eq_nil_of_not_mem noQuote suffix
    exact Nat.le_of_eq (congrArg List.length none)
  split at literal
  · cases literal
  split at literal
  · next noBasic noLine noBlock lines =>
    rw [if_neg noBasic, if_neg noLine, if_neg noBlock, if_pos lines]
    simp only [Bool.and_eq_true, Bool.not_eq_true'] at lines
    exact ⟨lines.1, fun _ => rfl, fun later suffix => length_takeWhile_le_two lines.2 suffix⟩
  · cases literal

/-- What stands between the quotes is made of pieces that are read one by one. -/
theorem exists_pieces (s : List Char) : ∃ pieces,
    (if (quotingOf s).isLiteral then s else escapeText (quotingOf s).isMultiline 0 s) =
        writtenText pieces ∧
      pieces.map (·.char) = s ∧ (∀ p ∈ pieces, p.Reads (quotingOf s)) ∧
      FewMarks (quotingOf s) pieces := by
  cases literal : (quotingOf s).isLiteral with
  | true =>
    obtain ⟨clean, breaks, few⟩ := quotingOf_literal literal
    exact ⟨rawPieces s, (writtenText_rawPieces s).symm, char_rawPieces s,
      reads_rawPieces literal clean breaks, fewMarks_rawPieces few⟩
  | false =>
    exact ⟨escapePieces (quotingOf s).isMultiline 0 s, (writtenText_escapePieces _ _ _).symm,
      char_escapePieces _ _ _, reads_escapePieces literal 0 s, fewMarks_escapePieces literal 0 s⟩

theorem unit?_of_lineBreak? (multi : q.isMultiline = true) (h : lineBreak? s = some rest) :
    unit? q s = some (['\n'], rest) := by
  unfold lineBreak? at h
  split at h
  · cases h
    exact unit?_newline multi rest
  · cases h
    rw [unit?, if_neg (by simp), if_neg (by decide), if_pos multi]
    rfl
  · cases h

/-- A text that has no line break is not written with one at its start. -/
theorem lineBreak?_writtenText {pieces : List Piece} (reads : ∀ p ∈ pieces, p.Reads q)
    (multi : q.isMultiline = true) (noBreak : '\n' ∉ pieces.map (·.char)) (rest : List Char) :
    lineBreak? (writtenText pieces ++ (q.delimiter ++ rest)) = none := by
  cases pieces with
  | nil =>
    rcases q with ⟨_ | _, _ | _⟩ <;> rfl
  | cons p pieces =>
    by_contra found
    obtain ⟨r, found⟩ := Option.ne_none_iff_exists'.1 found
    have first : writtenText (p :: pieces) ++ (q.delimiter ++ rest) =
        p.written ++ (writtenText pieces ++ (q.delimiter ++ rest)) :=
      List.append_assoc _ _ _
    have unit := unit?_of_lineBreak? multi found
    rw [first, (List.forall_mem_cons.1 reads).1.unit] at unit
    have same : p.char = '\n' := by simpa using (Prod.mk.inj (Option.some.inj unit)).1
    exact noBreak (by simp [same])

theorem opening?_delimiter (multi : q.isMultiline = true) (s : List Char) :
    opening? (q.delimiter ++ s) = some (q, (lineBreak? s).getD s) := by
  obtain ⟨_ | _, _⟩ := q <;> obtain rfl := multi <;> rfl

theorem opening?_single (single : q.isMultiline = false)
    (few : (s.takeWhile (· == q.mark)).length ≤ 1) :
    opening? (q.delimiter ++ s) = some (q, s) := by
  obtain ⟨literal, _⟩ := q
  obtain rfl := single
  cases literal with
  | true =>
    change opening? ('\'' :: s) = some (⟨true, false⟩, s)
    unfold opening?
    split
    case h_3 three => cases three; simp [Quoting.mark] at few
    case h_4 => simp_all
    all_goals simp_all
  | false =>
    change opening? ('"' :: s) = some (⟨false, false⟩, s)
    unfold opening?
    split
    case h_1 three => cases three; simp [Quoting.mark] at few
    all_goals simp_all

/-- A text in its quotes is read back, also with more text behind it, which must not start with a
quote. -/
theorem quoted?_quote (s : List Char) (basic : rest.head? ≠ some '"')
    (literal : rest.head? ≠ some '\'') : quoted? (quote s ++ rest) = some (s, rest) := by
  obtain ⟨pieces, body, chars, reads, few⟩ := exists_pieces s
  have after : rest.head? ≠ some (quotingOf s).mark := by
    rw [Quoting.mark]
    split
    · exact literal
    · exact basic
  have read := body?_writtenText reads few after
  rw [chars] at read
  have text : quote s ++ rest = (quotingOf s).delimiter ++
      ((if (quotingOf s).isMultiline && s.contains '\n' then ['\n'] else []) ++
        (writtenText pieces ++ ((quotingOf s).delimiter ++ rest))) := by
    simp only [quote, body, List.append_assoc]
  rw [text, quoted?]
  cases multi : (quotingOf s).isMultiline with
  | true =>
    rw [opening?_delimiter multi]
    cases lead : s.contains '\n' with
    | true => exact read
    | false =>
      have noBreak : '\n' ∉ pieces.map (·.char) := by simpa [chars] using lead
      change body? _ ((lineBreak? _).getD _) = _
      rw [if_neg (by simp), List.nil_append, lineBreak?_writtenText reads multi noBreak]
      exact read
  | false =>
    have run := length_takeWhile_mark reads after
    have leading := few pieces List.suffix_rfl
    have one : (quotingOf s).delimiter.length = 1 := by simp [delimiter_eq, multi]
    rw [Quoting.maxRun, multi, if_neg Bool.false_ne_true] at leading
    rw [if_neg (by simp), List.nil_append, opening?_single multi]
    · exact read
    · rw [run]
      split <;> omega

end AngularAtlas.Toml
