import AngularAtlas.Proofs.Source.Elements
import AngularAtlas.Proofs.Source.Parameter
import AngularAtlas.Proofs.Text.Search
import AngularAtlas.Source.Injection

namespace AngularAtlas.Source

open Text

variable {name token : Token} {tokens array : List Token} {s t r gap : List Char} {c : Char}
  {p : Parameter} {commas : Bool} {depth : Int}

/-- How many more brackets are opened in a text than closed, angle brackets among them. -/
def angleSurplus (s : List Char) : Int := surplus s + s.count '<' - s.count '>'

theorem colonSplits_eq_nil (hs : ':' ∉ s) : colonSplits depth s = [] := by
  induction s generalizing depth with
  | nil => rfl
  | cons c s ih =>
    obtain ⟨other, hs⟩ := not_or.1 (mt List.mem_cons.2 hs)
    rw [colonSplits, if_neg fun h => other h.1.symm, ih hs]
    rfl

theorem angleStep_eq_bracketStep (hc : c ∉ [':', '<', '>']) :
    angleStep c = bracketStep c ∧ c ≠ ':' := by
  simp only [List.mem_cons, List.not_mem_nil, or_false, not_or] at hc
  simp [angleStep, hc]

theorem angleSurplus_cons (c : Char) (s : List Char) :
    angleSurplus (c :: s) = angleStep c + angleSurplus s := by
  rw [angleSurplus, angleSurplus, surplus_cons, angleStep]
  by_cases opens : c = '<'
  · subst opens
    have plain : bracketStep '<' = 0 := rfl
    rw [if_pos rfl, plain, List.count_cons_self, List.count_cons_of_ne (by decide)]
    omega
  · by_cases closes : c = '>'
    · subst closes
      have plain : bracketStep '>' = 0 := rfl
      rw [if_neg opens, if_pos rfl, plain, List.count_cons_of_ne opens, List.count_cons_self]
      omega
    · rw [if_neg opens, if_neg closes, List.count_cons_of_ne opens, List.count_cons_of_ne closes]
      omega

theorem colonSplits_append (depth : Int) (s t : List Char) :
    colonSplits depth (s ++ t) =
      (colonSplits depth s).map (fun split => (split.1, split.2 ++ t)) ++
        (colonSplits (depth + angleSurplus s) t).map fun split => (s ++ split.1, split.2) := by
  induction s generalizing depth with
  | nil => simp [colonSplits, angleSurplus, surplus_nil]
  | cons c s ih =>
    rw [List.cons_append, colonSplits, colonSplits, ih, angleSurplus_cons, Int.add_assoc]
    split <;> simp [Function.comp_def]

theorem Nested.angleSurplus_eq (hs : Nested commas s) (hc : s.count '<' = s.count '>') :
    angleSurplus s = 0 := by
  rw [angleSurplus, hs.surplus_eq, hc]
  omega

theorem not_mem_name_array (hn : IsDottedName name) (ha : array ∈ [[], closedArray])
    {chars : List Char}
    (names : chars.all (fun c => !isNameChar c && c != '.') = true)
    (brackets : ['[', ']'].all (!chars.contains ·) = true) :
    ∀ c ∈ (name :: array).flatten, c ∉ chars := by
  intro c hc
  rw [List.flatten_cons, List.mem_append] at hc
  refine hc.elim (hn.not_mem names c) fun hc => ?_
  obtain rfl | rfl : array = [] ∨ array = closedArray := by simpa using ha
  · cases hc
  · exact not_mem_of_all brackets c hc

theorem dropArraySuffix_append (s : List Char) :
    dropArraySuffix (s ++ ['[', ']']) = dropArraySuffix s := by
  simp [dropArraySuffix, dropArraySuffix.go]

theorem dropArraySuffix_eq_self (hs : ']' ∉ s) : dropArraySuffix s = s := by
  rw [dropArraySuffix]
  cases h : s.reverse with
  | nil => rw [List.reverse_eq_nil_iff.1 h]; rfl
  | cons c r =>
    have other : c ≠ ']' := by
      rintro rfl
      exact hs (List.mem_reverse.1 (h ▸ List.mem_cons_self))
    rw [dropArraySuffix.go]
    · rw [← h, List.reverse_reverse]
    · exact fun t he => other (List.cons.inj he).1

theorem exists_dropArraySuffix (hn : IsDottedName name) (ha : array ∈ [[], closedArray])
    (hs : Spaced (name :: array) s) :
    ∃ gap, dropArraySuffix (trim s) = name ++ gap ∧ Text.IsBlank gap := by
  have solid := hn.isDotted.isSolid
  have bracket : ∀ c ∈ name, c ∉ [']'] := hn.not_mem (by decide)
  have plain : ∀ {gap}, Text.IsBlank gap → ']' ∉ name ++ gap := by
    intro gap hg mem
    rcases List.mem_append.1 mem with mem | mem
    · exact bracket _ mem List.mem_cons_self
    · exact absurd (hg _ mem) (by decide)
  obtain rfl | rfl : array = [] ∨ array = closedArray := by simpa using ha
  · refine ⟨[], ?_, isBlank_nil⟩
    rw [hs.trim_eq (.word solid), List.append_nil]
    exact dropArraySuffix_eq_self (by simpa using plain isBlank_nil)
  · obtain ⟨front, rest, rfl, hf, hr⟩ := hs.exists_cons
    obtain ⟨gap, back, rfl, hg, hb⟩ := hr.exists_singleton
    refine ⟨gap, ?_, hg⟩
    rw [trim, skipBlanks_append hf, (IsPhrase.word solid).skipBlanks_append, ← List.append_assoc,
      ← List.append_assoc, trimEnd_append_of_isBlank hb, isSolid_brackets.trimEnd_append,
      dropArraySuffix_append, dropArraySuffix_eq_self (plain hg)]

/-- Behind a name and an array's brackets the type may go on with arguments or with a union. -/
theorem typeName?_append (hn : IsDottedName name) (ha : array ∈ [[], closedArray])
    (hs : Spaced (name :: array) s) (hr : ∀ c ∈ r.head?, c ∈ ['<', '|']) :
    typeName? (s ++ r) = some name := by
  have chars : ∀ c ∈ s, c ∉ ['=', '|', '<'] := by
    intro c hc
    rcases hs.isBlank_or_mem hc with hb | hc
    · exact not_mem_of_test hb (by decide)
    · exact not_mem_name_array hn ha (by decide) (by decide) c hc
  have cut : ∀ c ∈ s, c ≠ '=' ∧ c ≠ '|' ∧ c ≠ '<' := by simpa using chars
  have kept : (((s ++ r).takeWhile (· != '=')).takeWhile (· != '|')).takeWhile (· != '<') = s := by
    rw [List.takeWhile_append_of_pos fun c hc => bne_iff_ne.2 (cut c hc).1,
      List.takeWhile_append_of_pos fun c hc => bne_iff_ne.2 (cut c hc).2.1,
      List.takeWhile_append_of_pos fun c hc => bne_iff_ne.2 (cut c hc).2.2]
    cases r with
    | nil => simp
    | cons c r =>
      have : c = '<' ∨ c = '|' := by simpa using hr c rfl
      rcases this with rfl | rfl <;> simp
  obtain ⟨gap, he, hg⟩ := exists_dropArraySuffix hn ha hs
  have trimmed : trim (name ++ gap) = name :=
    (Spaced.cons isBlank_nil (.nil hg)).trim_eq (.word hn.isDotted.isSolid)
  simp only [typeName?, stripGenerics, kept, he, trimmed]
  rw [if_pos ⟨hn.isDotted.ne_nil, hn.all_isIdentifier⟩]

/-- A token is written as a name that may have dots behind its first character. -/
def IsPlainToken (token : Token) : Prop :=
  ∃ c r, token = c :: r ∧ isNameStart c = true ∧ ∀ d ∈ r, (isNameChar d || d == '.') = true

/-- The search for `@Inject` finds nothing in a text, whatever stands behind it. -/
def NoToken (s : List Char) : Prop :=
  ∀ t, findFirst? injectDecorator? (s ++ t) = findFirst? injectDecorator? t

theorem findFirstFrom?_injectDecorator? (before : Option Char) (s : List Char) :
    findFirstFrom? injectDecorator? before s = findFirst? injectDecorator? s := by
  cases s <;> rfl

theorem NoToken.append (hs : NoToken s) (ht : NoToken t) : NoToken (s ++ t) := by
  intro r
  rw [List.append_assoc, hs, ht]

theorem injectDecorator?_of_ne (hc : c ≠ '@') (before : Option Char) (s : List Char) :
    injectDecorator? before (c :: s) = none := by
  have start : "@Inject".toList.isPrefixOf? (c :: s) = none :=
    if_neg fun same => hc (eq_of_beq same).symm
  rw [injectDecorator?, start]
  rfl

theorem noToken_of_not_mem (hs : '@' ∉ s) : NoToken s := by
  intro t
  have fails : FailsAt injectDecorator? s :=
    fun c hc before r => injectDecorator?_of_ne (fun same => hs (same ▸ hc)) before r
  rw [findFirst?, fails.findFirstFrom?_append, findFirstFrom?_injectDecorator?]

theorem dropWhile_append_bracket {front : List Char} (hf : '(' ∉ front) (s : List Char) :
    (front ++ '(' :: s).dropWhile (· != '(') = '(' :: s := by
  have other : ∀ c ∈ front, (c != '(') = true := by
    intro c hc
    refine bne_iff_ne.2 ?_
    rintro rfl
    exact hf hc
  exact dropWhile_append_of_stop other fun c hc => by simp [← Option.some.inj hc]

/-- A decorator without an argument has no token. -/
theorem injectDecorator?_bare {inner : List Char} (hn : '(' ∉ name) (hg : Text.IsBlank gap)
    (hi : Text.IsBlank inner) (before : Option Char) (t : List Char) :
    injectDecorator? before ('@' :: (name ++ (gap ++ '(' :: (inner ++ ')' :: t)))) = none := by
  have apart : ∀ {gap : List Char}, Text.IsBlank gap → '(' ∉ gap :=
    fun hg mem => absurd (hg _ mem) (by decide)
  refine Option.eq_none_iff_forall_ne_some.2 fun found h => ?_
  simp only [injectDecorator?, Option.bind_eq_bind, Option.bind_eq_some_iff] at h
  obtain ⟨s₁, h₁, s₂, h₂, h⟩ := h
  have front : '(' ∉ '@' :: (name ++ gap) := by simp [hn, apart hg]
  have read : '(' ∉ "@Inject".toList ++ s₁.takeWhile isBlank := by
    have blanks : Text.IsBlank (s₁.takeWhile isBlank) := List.all_eq_true.1 List.all_takeWhile
    simpa using apart blanks
  have text : '@' :: (name ++ gap) ++ '(' :: (inner ++ ')' :: t) =
      "@Inject".toList ++ s₁.takeWhile isBlank ++ '(' :: s₂ := by
    rw [← eq_cons_of_afterChar? h₂, List.append_assoc, skipBlanks, List.takeWhile_append_dropWhile,
      isPrefixOf?_append h₁]
    simp
  have behind := congrArg (List.dropWhile (· != '(')) text
  rw [dropWhile_append_bracket front, dropWhile_append_bracket read] at behind
  obtain rfl := (List.cons.inj behind).2
  rw [skipBlanks_append hi, skipBlanks_of_not_blank (c := ')') (by decide)] at h
  cases h

theorem noToken_bareDecorator (hn : IsDottedName name) (hs : Spaced (bareDecorator name) s) :
    NoToken s := by
  obtain ⟨front, r, rfl, hf, hr⟩ := hs.exists_cons
  obtain ⟨gap, r, rfl, hg, hr⟩ := hr.exists_cons
  obtain ⟨inner, back, rfl, hi, hb⟩ := hr.exists_singleton
  have blanks : ∀ {gap : List Char}, Text.IsBlank gap → '@' ∉ gap :=
    fun hg mem => absurd (hg _ mem) (by decide)
  have names : ∀ c ∈ name, c ∉ ['@', '('] := hn.not_mem (by decide)
  have bracket : '(' ∉ name := fun mem => names _ mem (by decide)
  refine (noToken_of_not_mem (blanks hf)).append fun t => ?_
  have rest : '@' ∉ name ++ (gap ++ '(' :: (inner ++ ')' :: back)) := by
    have outside : '@' ∉ name := fun mem => names _ mem (by decide)
    simp [outside, blanks hg, blanks hi, blanks hb]
  have none := injectDecorator?_bare bracket hg hi none (back ++ t)
  have passed := noToken_of_not_mem rest t
  simp only [List.append_assoc, List.cons_append, List.nil_append] at passed ⊢
  rw [findFirst?, findFirstFrom?, none, findFirstFrom?_injectDecorator?]
  exact passed

theorem noToken_flatMap {names : List Token} (hn : ∀ name ∈ names, IsDottedName name)
    (hs : Spaced (names.flatMap bareDecorator) s) : NoToken s := by
  induction names generalizing s with
  | nil =>
    cases hs with
    | nil hb => exact noToken_of_not_mem fun mem => absurd (hb _ mem) (by decide)
  | cons name names ih =>
    obtain ⟨first, later⟩ := List.forall_mem_cons.1 hn
    obtain ⟨a, b, rfl, ha, hb⟩ := hs.exists_append
    exact (noToken_bareDecorator first ha).append (ih later hb)

theorem IsDottedName.isPlainToken (hn : IsDottedName name) : IsPlainToken name := by
  have start : ∃ c r, name = c :: r ∧ isNameStart c = true := by
    have first : ∀ {name : Token}, isIdentifier name = true →
        ∃ c r, name = c :: r ∧ isNameStart c = true := by
      intro name hn
      cases name with
      | nil => cases hn
      | cons c r => exact ⟨c, r, rfl, (Bool.and_eq_true_iff.1 hn).1⟩
    cases hn with
    | name hn => exact first hn
    | dot hn _ =>
      obtain ⟨c, r, rfl, hc⟩ := first hn
      exact ⟨c, _, rfl, hc⟩
  obtain ⟨c, r, rfl, hc⟩ := start
  refine ⟨c, r, rfl, hc, fun d hd => ?_⟩
  simpa using hn.isDotted.chars d (List.mem_cons_of_mem _ hd)

theorem exists_of_injectDecorator? {before : Option Char}
    (h : injectDecorator? before s = some (token, r)) : IsPlainToken token ∧
      ∃ inside, s = "@Inject".toList ++ (inside ++ ')' :: r) ∧ Spaced [['('], token] inside := by
  simp only [injectDecorator?, Option.bind_eq_bind, Option.bind_eq_some_iff] at h
  obtain ⟨s₁, h₁, s₂, h₂, h⟩ := h
  obtain ⟨gap, hg, opened⟩ := exists_append_skipBlanks s₁
  obtain ⟨gap', hg', name⟩ := exists_append_skipBlanks s₂
  split at h
  case h_1 => cases h
  case h_2 c run first =>
    obtain ⟨_, start, s₃, h₃, he⟩ := by simpa only [Option.bind_eq_some_iff] using h
    obtain ⟨rfl, rfl⟩ := Prod.mk.inj (Option.some.inj he)
    obtain ⟨last, hl, closed⟩ :=
      exists_append_skipBlanks (run.dropWhile fun d => isNameChar d || d == '.')
    refine ⟨⟨c, _, rfl, (Option.guard_eq_some' _).1 start, List.all_eq_true.1 List.all_takeWhile⟩,
      gap ++ (['('] ++ (gap' ++ (_ ++ last))), ?_, .cons hg (.cons hg' (.nil hl))⟩
    have split : run =
        run.takeWhile (fun d => isNameChar d || d == '.') ++ (last ++ ')' :: s₃) := by
      rw [← eq_cons_of_afterChar? h₃, ← closed, List.takeWhile_append_dropWhile]
    rw [← isPrefixOf?_append h₁, opened, eq_cons_of_afterChar? h₂, name, first]
    simpa using split

/-- A token ends in front of its closing bracket and the blanks there. -/
theorem stops_at_bracket {last : List Char} (hl : Text.IsBlank last) (r : List Char) :
    ∀ d ∈ (last ++ ')' :: r).head?, (isNameChar d || d == '.') = false := by
  intro d hd
  cases last with
  | nil =>
    obtain rfl : ')' = d := Option.some.inj hd
    decide
  | cons d' last =>
    obtain rfl : d' = d := Option.some.inj hd
    have blank := hl d' List.mem_cons_self
    have dot : d' ≠ '.' := by
      rintro rfl
      exact absurd blank (by decide)
    simp [isNameChar_eq_false_of_isBlank blank, dot]

theorem injectDecorator?_of_spaced {inside : List Char} (plain : IsPlainToken token)
    (hs : Spaced [['('], token] inside) (before : Option Char) (r : List Char) :
    injectDecorator? before ("@Inject".toList ++ (inside ++ ')' :: r)) = some (token, r) := by
  obtain ⟨c, run, rfl, hc, hr⟩ := plain
  obtain ⟨gap, inside, rfl, hg, hs⟩ := hs.exists_cons
  obtain ⟨gap', last, rfl, hg', hs⟩ := hs.exists_cons
  have hl : Text.IsBlank last := by
    cases hs with
    | nil hl => exact hl
  have solid : isBlank c = false := isBlank_eq_false_of_isNameChar (isNameChar_of_isNameStart hc)
  have taken : (run ++ (last ++ ')' :: r)).takeWhile (fun d => isNameChar d || d == '.') = run :=
    takeWhile_append_of_stop hr (stops_at_bracket hl r)
  have left : skipBlanks ((run ++ (last ++ ')' :: r)).dropWhile
      fun d => isNameChar d || d == '.') = ')' :: r := by
    rw [dropWhile_append_of_stop hr (stops_at_bracket hl r), skipBlanks_append hl,
      skipBlanks_of_not_blank (by decide)]
  rw [injectDecorator?, isPrefixOf?_append_self]
  simp only [List.append_assoc, List.cons_append, List.nil_append, Option.bind_eq_bind,
    Option.bind_some, skipBlanks_append hg, skipBlanks_append hg', skipBlanks_of_not_blank solid,
    skipBlanks_of_not_blank (c := '(') (by decide), afterChar?, if_pos, taken, left, hc,
    guard_true]
  rfl

theorem injectDecorator?_eq_some_iff {before : Option Char} :
    injectDecorator? before s = some (token, r) ↔ IsPlainToken token ∧
      ∃ inside, s = "@Inject".toList ++ (inside ++ ')' :: r) ∧ Spaced [['('], token] inside := by
  refine ⟨exists_of_injectDecorator?, ?_⟩
  rintro ⟨plain, inside, rfl, hs⟩
  exact injectDecorator?_of_spaced plain hs before r

theorem map_findFirst?_lead (hp : p.IsProper) (hs : Spaced (p.lead ++ tokens) s)
    (ht : '@' ∉ tokens.flatten) (hr : '@' ∉ r) :
    (findFirst? injectDecorator? (s ++ r)).map (·.1) = p.token := by
  obtain ⟨before, after⟩ := List.forall_mem_append.1 hp.decorators
  simp only [Parameter.lead, List.append_assoc] at hs
  obtain ⟨s₁, s, rfl, h₁, hs⟩ := hs.exists_append
  obtain ⟨s₂, s, rfl, h₂, hs⟩ := hs.exists_append
  rw [List.append_assoc, List.append_assoc, noToken_flatMap before h₁]
  cases token : p.token with
  | none =>
    rw [token] at h₂
    obtain ⟨s₃, s₄, rfl, h₃, h₄⟩ := hs.exists_append
    have words : '@' ∉ s₄ ++ r := by
      intro mem
      rcases List.mem_append.1 mem with mem | mem
      · rcases h₄.isBlank_or_mem mem with blank | mem
        · exact absurd blank (by decide)
        · rw [List.flatten_append, List.mem_append] at mem
          exact mem.elim (fun mem => hp.not_mem_words _ mem (by decide)) ht
      · exact hr mem
    have nowhere := noToken_of_not_mem words []
    rw [List.append_nil] at nowhere
    have blank := noToken_flatMap (List.forall_mem_nil _) h₂
    rw [blank, List.append_assoc, noToken_flatMap after h₃, nowhere]
    rfl
  | some t =>
    rw [token] at h₂
    obtain ⟨gap, s₂, rfl, hg, h₂⟩ := h₂.exists_cons
    have h₂ : Spaced ([['('], t] ++ [')'] :: []) s₂ := h₂
    obtain ⟨inside, back, rfl, hi, -⟩ := h₂.exists_append_cons
    have found : injectDecorator? none ("@Inject".toList ++ (inside ++ ')' :: (back ++ (s ++ r)))) =
        some (t, back ++ (s ++ r)) :=
      injectDecorator?_of_spaced (hp.token t token).isPlainToken hi none _
    have blank := noToken_of_not_mem fun mem => absurd (hg '@' mem) (by decide)
    have here := findFirstFrom?_of_eq_some (List.append_ne_nil_of_left_ne_nil (by decide) _) found
    simp only [List.append_assoc, List.cons_append, List.nil_append]
    rw [blank, findFirst?, here]
    rfl

theorem parameterDependency?_eq (s : List Char) :
    parameterDependency? s = ((findFirst? injectDecorator? s).map (·.1)).or
      ((colonSplits 0 s).getLast?.bind fun split => typeName? split.2) := by
  rw [parameterDependency?]
  cases findFirst? injectDecorator? s <;> rfl

/-- A piece without a colon and without a decorator tells nothing. -/
theorem parameterDependency?_eq_none (colon : ':' ∉ s) (at_sign : '@' ∉ s) :
    parameterDependency? s = none := by
  have nowhere := noToken_of_not_mem at_sign []
  rw [List.append_nil] at nowhere
  rw [parameterDependency?_eq, colonSplits_eq_nil colon, nowhere]
  rfl

/-- What may stand behind the name of a type: arguments, a union or the brackets of an array. -/
structure IsTail (s : List Char) : Prop where
  head : ∀ c ∈ s.head?, c ∈ ['<', '|', '[']
  colon : ':' ∉ s
  at_sign : '@' ∉ s

theorem isTail_nil : IsTail [] := ⟨fun _ h => (nomatch h), List.not_mem_nil, List.not_mem_nil⟩

theorem IsTail.head?_collapse (hs : IsTail s) : (collapse s).head? = s.head? := by
  cases s with
  | nil => rfl
  | cons c s =>
    have solid : isBlank c = false := eq_false_of_mem (hs.head c rfl) (by decide)
    obtain ⟨gap, he, -, -⟩ := exists_collapse_cons solid s
    rw [he]
    rfl

theorem IsTail.collapse (hs : IsTail s) : IsTail (collapse s) where
  head := hs.head?_collapse ▸ hs.head
  colon := not_mem_collapse (by decide) hs.colon
  at_sign := not_mem_collapse (by decide) hs.at_sign

theorem IsTail.exists_splitAtCommas (hs : IsTail s) :
    ∃ first later, splitAtCommas 0 s = first :: later ∧ first.head? = s.head? ∧
      ∀ piece ∈ first :: later, ':' ∉ piece ∧ '@' ∉ piece := by
  obtain ⟨first, later, he⟩ := List.exists_cons_of_ne_nil (splitAtCommas_ne_nil 0 s)
  refine ⟨first, later, he, ?_, fun piece mem =>
    ⟨not_mem_of_mem_splitAtCommas (by decide) hs.colon (he ▸ mem),
      not_mem_of_mem_splitAtCommas (by decide) hs.at_sign (he ▸ mem)⟩⟩
  cases s with
  | nil =>
    obtain rfl : [] = first := (List.cons.inj he).1
    rfl
  | cons c s =>
    have comma : c ≠ ',' := by
      rintro rfl
      exact absurd (hs.head ',' rfl) (by decide)
    obtain ⟨piece, rest, hr⟩ := List.exists_cons_of_ne_nil
      (splitAtCommas_ne_nil (0 + bracketStep c) s)
    rw [splitAtCommas, if_neg fun h => comma h.1, hr] at he
    obtain rfl : c :: piece = first := (List.cons.inj he).1
    rfl

variable {a : DeclaredType}

/-- What stands behind the name of a type starts with a mark. -/
theorem exists_append_mark (ha : a.IsProper) (hs : Spaced a.written s) {later : List Token}
    {mark : Char} (written : a.written = tokens ++ [mark] :: later) (hm : mark ∈ ['<', '|', '[']) :
    ∃ front tail, s = front ++ mark :: tail ∧ Spaced tokens front ∧ IsTail (mark :: tail) := by
  have chars : ∀ c ∈ s, c ∉ outerMarks := fun c hc =>
    (hs.isBlank_or_mem hc).elim (fun hb => not_mem_of_test hb (by decide)) (ha.not_mem c)
  rw [written] at hs
  obtain ⟨front, tail, he, hf, -⟩ := hs.exists_append_cons
  have behind : ∀ c ∈ mark :: tail, c ∉ outerMarks := fun c hc =>
    chars c (he ▸ List.mem_append_right _ hc)
  exact ⟨front, tail, he, hf, fun c hc => Option.some.inj hc ▸ hm,
    fun mem => behind _ mem (by decide), fun mem => behind _ mem (by decide)⟩

/-- A type is its name, perhaps with the brackets of an array, and what stands behind. -/
theorem exists_append_isTail (ha : a.IsProper) (hs : Spaced a.written s) :
    ∃ array ∈ [[], closedArray], ∃ front tail, s = front ++ tail ∧
      Spaced (a.name :: array) front ∧ IsTail tail ∧ (a.IsClosed → tail.head? ≠ some '[') := by
  obtain ⟨-, bare | ⟨more, generic⟩⟩ := ha.type.eq_or_exists
  · obtain array | opened : a.array ∈ [[], closedArray] ∨ a.array = openArray := by
      have := ha.array
      simp_all only [List.mem_cons, List.not_mem_nil, or_false]
      tauto
    · refine ⟨a.array, array, ?_⟩
      obtain plain | ⟨word, joined⟩ : a.union = [] ∨ ∃ word, a.union = [['|'], word] := by
        have := ha.union
        simp only [List.mem_cons, List.not_mem_nil, or_false] at this
        exact this.imp_right fun h => h.elim (fun h => ⟨_, h⟩) fun h => ⟨_, h⟩
      · refine ⟨s, [], (List.append_nil _).symm, ?_, isTail_nil, fun _ h => nomatch h⟩
        simpa [DeclaredType.written, bare, plain] using hs
      · have written : a.written = (a.name :: a.array) ++ ['|'] :: [word] := by
          simp [DeclaredType.written, bare, joined]
        obtain ⟨front, tail, he, hf, ht⟩ := exists_append_mark ha hs written (by decide)
        exact ⟨front, _, he, hf, ht, fun _ => by simp⟩
    · have written : a.written = [a.name] ++ ['['] :: ([']'] :: a.union) := by
        simp [DeclaredType.written, bare, opened, openArray, bracketed]
      obtain ⟨front, tail, he, hf, ht⟩ := exists_append_mark ha hs written (by decide)
      exact ⟨[], List.mem_cons_self, front, _, he, hf, ht,
        fun closed => absurd opened (closed bare)⟩
  · have written : a.written = [a.name] ++ ['<'] :: (more ++ (a.array ++ a.union)) := by
      simp [DeclaredType.written, generic]
    obtain ⟨front, tail, he, hf, ht⟩ := exists_append_mark ha hs written (by decide)
    exact ⟨[], List.mem_cons_self, front, _, he, hf, ht, fun _ => by simp⟩

theorem parameterDependency?_lead (hp : p.IsProper) (untyped : p.declared = none)
    (hs : Spaced p.lead s) : parameterDependency? s = p.dependency? := by
  have whole : Spaced (p.lead ++ []) s := by simpa using hs
  have found := map_findFirst?_lead hp whole List.not_mem_nil List.not_mem_nil
  rw [List.append_nil] at found
  have colon : ':' ∉ s := fun mem => (hs.isBlank_or_mem mem).elim (fun hb => absurd hb (by decide))
    fun mem => hp.not_mem_lead _ mem (by decide)
  rw [parameterDependency?_eq, found, colonSplits_eq_nil colon, Parameter.dependency?, untyped]
  rfl

theorem parameterDependency?_append (hp : p.IsProper) (typed : p.declared = some a)
    (ha : array ∈ [[], closedArray]) (hs : Spaced (p.lead ++ [':'] :: a.name :: array) s)
    (hr : IsTail r) (closed : p.token = none → r.head? ≠ some '[') :
    parameterDependency? (s ++ r) = p.dependency? := by
  have hn := (hp.declared a typed).type.eq_or_exists.1
  have plain : ∀ c ∈ (a.name :: array).flatten, c ∉ outerMarks :=
    not_mem_name_array hn ha (by decide) (by decide)
  have unmarked : '@' ∉ ([':'] :: a.name :: array).flatten := fun mem =>
    (List.mem_cons.1 mem).elim (by decide) fun mem => plain _ mem (by decide)
  have found := map_findFirst?_lead hp hs unmarked hr.at_sign
  obtain ⟨front, back, rfl, hf, hb⟩ := hs.exists_append_cons
  have nested : Nested false front := by
    have lead := (hp.isItem_lead_append (.inl rfl)).nested
    rw [List.append_nil] at lead
    exact nested_of_spaced hf lead
  have quiet : ∀ c ∈ front, c ∉ [':', '<', '>'] := fun c hc =>
    (hf.isBlank_or_mem hc).elim (fun hb => not_mem_of_test hb (by decide)) (hp.not_mem_lead c)
  have later : ':' ∉ back ++ r := by
    intro mem
    rcases List.mem_append.1 mem with mem | mem
    · exact (hb.isBlank_or_mem mem).elim (fun hb => absurd hb (by decide))
        fun mem => plain _ mem (by decide)
    · exact hr.colon mem
  have split : colonSplits 0 (front ++ ([':'] ++ back) ++ r) = [(front, back ++ r)] := by
    have level : angleSurplus front = 0 := by
      refine nested.angleSurplus_eq ?_
      rw [List.count_eq_zero.2 fun mem => quiet _ mem (by decide),
        List.count_eq_zero.2 fun mem => quiet _ mem (by decide)]
    rw [List.append_assoc, colonSplits_append, level,
      colonSplits_eq_nil fun mem => quiet _ mem (by decide)]
    simp [colonSplits, colonSplits_eq_nil later]
  rw [parameterDependency?_eq, found, split, List.getLast?_singleton, Option.bind_some,
    Parameter.dependency?, typed]
  cases token : p.token with
  | some t => rfl
  | none =>
    have head : ∀ c ∈ r.head?, c ∈ ['<', '|'] := by
      intro c hc
      have other : c ≠ '[' := fun same => closed token (same ▸ hc)
      simpa [other] using hr.head c hc
    rw [typeName?_append hn ha hb head]
    rfl

/-- It does not matter that empty pieces are left out, for they tell nothing. -/
theorem filterMap_elements_eq (s : List Char) :
    (elements s).filterMap parameterDependency? =
      (splitAtCommas 0 s).filterMap (parameterDependency? ∘ collapse) := by
  rw [elements, List.filterMap_filter, List.filterMap_map]
  refine congrArg (List.filterMap · _) (funext fun piece => ?_)
  by_cases empty : collapse piece = []
  · simp only [Function.comp_apply, empty]
    rfl
  · simp [empty]

theorem isItem_name_array (hn : IsDottedName name) (ha : array ∈ [[], closedArray]) :
    IsItem (name :: array) := by
  obtain rfl | rfl : array = [] ∨ array = closedArray := by simpa using ha
  · exact hn.isItem
  · exact hn.isItem.append isItem_closedArray

/-- The pieces of a parameter tell what it asks for. -/
theorem filterMap_elements (hp : p.IsProper) (closed : p.IsClosed) (hs : Spaced p.written s) :
    (elements s).filterMap parameterDependency? = p.dependency?.toList := by
  cases declared : p.declared with
  | none =>
    have lead := hp.isItem_lead_append (.inl rfl)
    have tokens : p.written = p.lead := by
      rw [Parameter.written, declared]
      exact List.append_nil _
    rw [tokens] at hs
    rw [List.append_nil] at lead
    rw [elements_of_isItem lead hs, List.filterMap_cons,
      parameterDependency?_lead hp declared (hs.collapse lead.phrases)]
    cases p.dependency? <;> rfl
  | some a =>
    have ha := hp.declared a declared
    have tokens : p.written = p.lead ++ [':'] :: a.written := by
      rw [Parameter.written, declared]
      rfl
    rw [tokens] at hs
    obtain ⟨front, s, rfl, hf, hs⟩ := hs.exists_append_cons
    obtain ⟨array, harray, name, tail, rfl, hname, isTail, bracket⟩ := exists_append_isTail ha hs
    have start : Spaced (p.lead ++ [':'] :: a.name :: array) (front ++ ([':'] ++ name)) :=
      hf.append (.cons isBlank_nil hname)
    have item : IsItem (p.lead ++ [':'] :: a.name :: array) := by
      have colon : IsItem [[':']] := isItem_of_all (by decide) (by decide)
      exact hp.isItem_lead_append
        (.inr (colon.append (isItem_name_array ha.type.eq_or_exists.1 harray)))
    -- the first piece goes on with the tail up to its first comma
    obtain ⟨first, later, cut, head, quiet⟩ := isTail.exists_splitAtCommas
    obtain ⟨here, others⟩ := List.forall_mem_cons.1 quiet
    have pieces : splitAtCommas 0 (front ++ ([':'] ++ (name ++ tail))) =
        (front ++ ([':'] ++ name) ++ first) :: later := by
      have whole := (nested_of_spaced start item.nested).splitAtCommas_append (Int.le_refl 0)
        (absurd · Bool.false_ne_true) tail
      rw [cut] at whole
      simpa using whole
    obtain ⟨r, collapsed, hr⟩ := start.exists_collapse_append item.phrases first
    have first_isTail : IsTail first := ⟨head ▸ isTail.head, here.1, here.2⟩
    have unopened : p.token = none → (collapse first).head? ≠ some '[' := by
      intro token
      rw [first_isTail.head?_collapse, head]
      exact bracket (closed token a declared)
    have nothing : later.filterMap (parameterDependency? ∘ collapse) = [] := by
      refine List.filterMap_eq_nil_iff.2 fun piece mem => ?_
      exact parameterDependency?_eq_none (not_mem_collapse (by decide) (others piece mem).1)
        (not_mem_collapse (by decide) (others piece mem).2)
    rw [filterMap_elements_eq, pieces, List.filterMap_cons, Function.comp_apply, collapsed,
      parameterDependency?_append hp declared harray hr first_isTail.collapse unopened, nothing]
    cases p.dependency? <;> rfl

end AngularAtlas.Source
