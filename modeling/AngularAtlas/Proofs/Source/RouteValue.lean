import AngularAtlas.Proofs.Source.Literal
import AngularAtlas.Proofs.Text.Comment
import AngularAtlas.Proofs.Text.Search
import AngularAtlas.Source.Route

namespace AngularAtlas.Source

open Text

/-- The characters of the texts in a route table. -/
def isTableChar (c : Char) : Bool := isWord c || ['-', '.', ':', '*', '/'].contains c

/-- A text that can stand between quotes in a route table; no comment starts in it. -/
structure IsTableText (s : List Char) : Prop extends IsPlain s where
  chars : ∀ c ∈ s, isTableChar c = true

/-- A text between two quotes of one kind. -/
inductive Quoted (s : String) : List Token → Prop
  | intro {q : Char} : isQuote q = true → IsTableText s.toList →
      Quoted s [q :: (s.toList ++ [q])]

/-- The name of a class. -/
inductive Named (s : String) : List Token → Prop
  | intro : isIdentifier s.toList = true → Named s [s.toList]

/-- The tokens of `() => import(quoted).then(module => module.member)`. -/
def lazyImport (quoted : List Token) (module member : Token) : List Token :=
  bracketed '(' ')' [] ++ [['=', '>']] ++ "import".toList :: (bracketed '(' ')' quoted ++
    ['.'] :: "then".toList :: bracketed '(' ')' [module, ['=', '>'], module, ['.'], member])

/-- An expression that loads a table from where a text says. -/
inductive LazyImport (s : String) : List Token → Prop
  | intro {quoted : List Token} {module member : Token} : s.toList ≠ [] → Quoted s quoted →
      isIdentifier module = true → isIdentifier member = true →
      LazyImport s (lazyImport quoted module member)

variable {s : String} {tokens quoted : List Token} {module member : Token} {t : List Char}
  {c q : Char}

theorem isBlank_eq_false_of_isTableChar (hc : isTableChar c = true) : isBlank c = false := by
  rcases Bool.or_eq_true_iff.1 hc with hc | hc
  · exact isBlank_eq_false_of_isNameChar (isNameChar_of_isWord hc)
  · exact eq_false_of_mem (List.contains_iff_mem.1 hc) (by decide)

theorem isQuote_cases (hq : isQuote q = true) : q ∈ ['\'', '"', '\x60'] := by
  simpa [isQuote, or_assoc] using hq

theorem isBlank_eq_false_of_isQuote (hq : isQuote q = true) : isBlank q = false :=
  eq_false_of_mem (isQuote_cases hq) (by decide)

theorem isQuote_eq_false_of_isTableChar (hc : isTableChar c = true) : isQuote c = false := by
  have ne : c ∉ ['\'', '"', '\x60'] := not_mem_of_test hc (by decide)
  exact Bool.eq_false_iff.2 fun h => ne (isQuote_cases h)

theorem Quoted.exists_eq (hq : Quoted s tokens) :
    ∃ q, isQuote q = true ∧ IsTableText s.toList ∧ tokens = [q :: (s.toList ++ [q])] := by
  cases hq with
  | @intro q hq hs => exact ⟨q, hq, hs, rfl⟩

theorem isSolid_quoted (hq : isQuote q = true) (ht : IsTableText t) :
    IsSolid (q :: (t ++ [q])) where
  ne_nil := List.cons_ne_nil _ _
  not_blank c hc := by
    rcases List.mem_cons.1 hc with rfl | hc
    · exact isBlank_eq_false_of_isQuote hq
    · rcases List.mem_append.1 hc with hc | hc
      · exact isBlank_eq_false_of_isTableChar (ht.chars c hc)
      · exact List.mem_singleton.1 hc ▸ isBlank_eq_false_of_isQuote hq

theorem Quoted.isItem (hq : Quoted s tokens) : IsItem tokens := by
  obtain ⟨q, quote, ht, rfl⟩ := hq.exists_eq
  refine isItem_singleton (isSolid_quoted quote ht) fun c hc => ?_
  rcases List.mem_cons.1 hc with rfl | hc
  · exact not_mem_of_test quote (by decide)
  · rcases List.mem_append.1 hc with hc | hc
    · exact not_mem_of_test (ht.chars c hc) (by decide)
    · exact List.mem_singleton.1 hc ▸ not_mem_of_test quote (by decide)

theorem Quoted.ofList_unquote (hq : Quoted s tokens) (ht : Spaced tokens t) :
    String.ofList (unquote t) = s := by
  obtain ⟨q, quote, hs, rfl⟩ := hq.exists_eq
  rw [unquote_of_isQuote quote (isSolid_quoted quote hs) ht, String.ofList_toList]

theorem Named.isItem (hn : Named s tokens) : IsItem tokens := by
  cases hn with
  | intro hn => exact isItem_of_isIdentifier hn

theorem Named.ofList_trim (hn : Named s tokens) (ht : Spaced tokens t) :
    String.ofList (trim t) = s := by
  cases hn with
  | intro hn => rw [ht.trim_eq (.word (isSolid_of_isIdentifier hn)), String.ofList_toList]

theorem LazyImport.isItem (hl : LazyImport s tokens) : IsItem tokens := by
  cases hl with
  | @intro quoted module member _ hq hm hb =>
    have arrow : IsItem [['=', '>']] := isItem_of_all (by decide) (by decide)
    have word : IsItem ["import".toList] := isItem_of_isIdentifier (by decide)
    have dot : IsItem [['.']] := isItem_of_all (by decide) (by decide)
    have call : IsItem ["then".toList] := isItem_of_isIdentifier (by decide)
    have target : IsItem (bracketed '(' ')' quoted) :=
      isItem_bracketed isPair_round hq.isItem.isBody
    have path : IsItem ([module] ++ ([['=', '>']] ++ ([module] ++ ([['.']] ++ [member])))) :=
      (isItem_of_isIdentifier hm).append (arrow.append ((isItem_of_isIdentifier hm).append
        (dot.append (isItem_of_isIdentifier hb))))
    have empty : IsItem (bracketed '(' ')' []) := isItem_bracketed isPair_round isBody_nil
    have function : IsItem (bracketed '(' ')' [module, ['=', '>'], module, ['.'], member]) :=
      isItem_bracketed isPair_round path.isBody
    exact (empty.append (arrow.append (word.append target))).append
      (dot.append (call.append function))

theorem importCall?_append (hs : s.toList ≠ []) (hq : Quoted s quoted)
    (ht : Spaced (bracketed '(' ')' quoted ++ tokens) t) (before : Option Char) :
    ∃ rest, importCall? before ("import".toList ++ t) = some (s.toList, rest) := by
  obtain ⟨q, quote, htext, rfl⟩ := hq.exists_eq
  obtain ⟨t₁, he₁, ht⟩ := ht.exists_skipBlanks (.word (isSolid_singleton rfl))
  obtain ⟨t₂, he₂, ht⟩ := ht.exists_skipBlanks (.word (isSolid_quoted quote htext))
  obtain ⟨rest, he₃, -⟩ := ht.exists_skipBlanks (.word (isSolid_singleton rfl))
  have text : ∀ c ∈ s.toList, (!isQuote c) = true := fun c hc => by
    simp [isQuote_eq_false_of_isTableChar (htext.chars c hc)]
  refine ⟨rest, ?_⟩
  have he₂ : skipBlanks t₁ = q :: (s.toList ++ q :: t₂) := by simpa using he₂
  rw [importCall?, isPrefixOf?_append_self, Option.bind_eq_bind, Option.bind_some, he₁]
  simp only [List.singleton_append, afterChar?, if_true, Option.bind_eq_bind, Option.bind_some, he₂]
  simp [quote, List.takeWhile_append_of_pos text, List.dropWhile_append_of_pos text, hs, he₃]

theorem importCall?_eq_none (hc : c ≠ 'i') (before : Option Char) (r : List Char) :
    importCall? before (c :: r) = none := by
  have : "import".toList.isPrefixOf? (c :: r) = none :=
    if_neg fun h => hc (eq_of_beq h).symm
  rw [importCall?, this]
  rfl

theorem LazyImport.findFirst?_importCall? (hl : LazyImport s tokens) (ht : Spaced tokens t) :
    ∃ rest, findFirst? importCall? t = some (s.toList, rest) := by
  cases hl with
  | @intro quoted module member hs hq hm hb =>
    obtain ⟨a, b, rfl, ha, hb⟩ := ht.exists_append_cons
    have fails : FailsAt importCall? a := by
      refine fun c hc => importCall?_eq_none ?_
      rcases ha.isBlank_or_mem hc with h | h
      · rintro rfl
        cases h
      · rintro rfl
        revert h
        decide
    have he := fails.findFirstFrom?_append none ("import".toList ++ b)
    obtain ⟨rest, hr⟩ := importCall?_append hs hq hb (a.getLast?.or none)
    refine ⟨rest, ?_⟩
    rw [findFirst?, he]
    have : "import".toList ++ b = 'i' :: ("mport".toList ++ b) := rfl
    rw [this] at hr ⊢
    rw [findFirstFrom?, hr]

end AngularAtlas.Source
