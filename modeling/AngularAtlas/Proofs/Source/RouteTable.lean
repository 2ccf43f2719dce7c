import AngularAtlas.Proofs.Source.Preorder
import AngularAtlas.Proofs.Source.RouteLiteral
import AngularAtlas.Proofs.Source.TableStart

namespace AngularAtlas.Source

open Text

/-- What stands in front of the routes of a table. -/
def tableHeader : List Token :=
  ["const".toList, "routes".toList, [':'], "Routes".toList, ['='], ['[']]

/-- A text that declares a constant with some routes. -/
inductive WrittenTable (routes : List Route) (text : List Char) : Prop
  | intro {literals : List (List Token)} {comma : Bool} :
      List.Forall₂ RouteLiteral routes literals →
      Spaced (tableHeader ++ (separated comma literals ++ [[']'], [';']])) text →
      WrittenTable routes text

variable {s text : List Char} {route : Route} {routes : List Route} {tokens : List Token}
  {literals : List (List Token)} {property : Property} {properties own : List Property}
  {comma : Bool} {name : Token} {t : String}

theorem quiet_of_isIdentifier (hn : isIdentifier name = true) : Quiet name :=
  quiet_of_forall fun _ hc => not_mem_of_test (isNameChar_of_mem_isIdentifier hn hc) (by decide)

theorem IsTableText.of_infix {u : List Char} (hs : IsTableText s) (hu : u <:+: s) :
    IsTableText u :=
  ⟨hs.toIsPlain.of_infix hu, fun c hc => hs.chars c (hu.subset hc)⟩

theorem IsTableText.not_mem (hs : IsTableText s) {c : Char} (hc : c ∈ s) : c ≠ '[' :=
  fun h => absurd (hs.chars c hc) (by rw [h]; decide)

/-- Behind a slash in a quoted text stands its next character, or the quote. -/
theorem IsTableText.quiet_append {q : Char} (hq : isQuote q = true) :
    ∀ {s : List Char}, IsTableText s → Quiet (s ++ [q])
  | [], _ => .char (not_mem_of_test hq (by decide)) .nil
  | c :: s, hs => by
    by_cases hc : c = '/'
    · subst hc
      cases s with
      | nil =>
        exact .slash (not_mem_of_test hq (by decide)) (isBlank_eq_false_of_isQuote hq) .nil
      | cons d s =>
        have later : IsTableText s := hs.of_infix ⟨['/', d], [], by simp⟩
        have blank : isBlank d = false := isBlank_eq_false_of_isTableChar (hs.chars d (by simp))
        refine .slash ?_ blank (later.quiet_append hq)
        simp only [List.mem_cons, List.not_mem_nil, or_false, not_or]
        refine ⟨?_, ?_, hs.not_mem (by simp)⟩
        · rintro rfl
          exact hs.noLine ⟨[], s, rfl⟩
        · rintro rfl
          exact hs.noBlock ⟨[], s, rfl⟩
    · have later : IsTableText s := hs.of_infix (List.suffix_cons c s).isInfix
      refine .char ?_ (later.quiet_append hq)
      simpa [hc] using hs.not_mem List.mem_cons_self

theorem Quoted.quiet (hq : Quoted t tokens) : Quiet tokens.flatten := by
  obtain ⟨q, quote, ht, rfl⟩ := hq.exists_eq
  rw [List.flatten_singleton]
  exact .char (not_mem_of_test quote (by decide)) (ht.quiet_append quote)

theorem Named.quiet (hn : Named t tokens) : Quiet tokens.flatten := by
  cases hn with
  | intro hn =>
    rw [List.flatten_singleton]
    exact quiet_of_isIdentifier hn

theorem LazyImport.quiet (hl : LazyImport t tokens) : Quiet tokens.flatten := by
  cases hl with
  | @intro quoted module member _ hq hm hb =>
    have front : Quiet (bracketed '(' ')' [] ++ [['=', '>']]).flatten := quiet_of_all (by decide)
    have word : Quiet "import".toList := quiet_of_isIdentifier (by decide)
    have target := quiet_bracketed hq.quiet '(' ')' (by decide) (by decide)
    have call : Quiet (['.'] ++ "then".toList) := quiet_of_all (by decide)
    have arrow : Quiet ['=', '>'] := quiet_of_all (by decide)
    have dot : Quiet ['.'] := quiet_of_all (by decide)
    have name := quiet_of_isIdentifier hm
    have path : Quiet [module, ['=', '>'], module, ['.'], member].flatten := by
      simpa using name.append (arrow.append (name.append (dot.append (quiet_of_isIdentifier hb))))
    have function := quiet_bracketed path '(' ')' (by decide) (by decide)
    have whole := front.append (word.append (target.append (call.append function)))
    simpa only [lazyImport, List.flatten_append, List.flatten_cons, List.append_assoc] using whole

theorem quiet_written (hn : isIdentifier name = true) (hv : Quiet tokens.flatten) :
    Quiet (Property.written ⟨name, tokens⟩).flatten := by
  rw [Property.written, List.flatten_cons, List.flatten_cons]
  exact (quiet_of_isIdentifier hn).append (.char (by decide) hv)

theorem OwnProperties.quiet (ho : OwnProperties route own) :
    ∀ property ∈ own, Quiet property.written.flatten :=
  ho.forall_mem (fun _ hk _ _ hv => quiet_written (isIdentifier_of_mem_ownKeys hk) hv.quiet)
    (fun _ hk _ _ hv => quiet_written (isIdentifier_of_mem_ownKeys hk) hv.quiet)
    (fun _ hk _ _ hv => quiet_written (isIdentifier_of_mem_ownKeys hk) hv.quiet)

theorem quiet_written_arrayTokens (hn : isIdentifier name = true)
    (hl : ∀ literal ∈ literals, Quiet literal.flatten) :
    Quiet (Property.written ⟨name, arrayTokens comma literals⟩).flatten := by
  have items : Quiet (separated comma literals).flatten := quiet_separated hl
  have last : Quiet [']'] := quiet_of_all (by decide)
  have whole := (quiet_of_isIdentifier hn).append (.bracket (items.append last))
  simpa [Property.written, arrayTokens, bracketed] using whole

theorem quiet_objectTokens (hp : ∀ property ∈ properties, Quiet property.written.flatten) :
    Quiet (objectTokens comma properties).flatten := by
  refine quiet_bracketed (quiet_separated fun item h => ?_) '{' '}' (by decide) (by decide)
  obtain ⟨property, hm, rfl⟩ := List.mem_map.1 h
  exact hp property hm

theorem RouteLiteral.quiet (hr : RouteLiteral route tokens) : Quiet tokens.flatten := by
  induction route using Route.induction generalizing tokens with
  | step route ih =>
    cases hr with
    | leaf ho _ hp => exact quiet_objectTokens fun p h => ho.quiet p (hp.subset h)
    | parent ho hl hp =>
      refine quiet_objectTokens fun p h => ?_
      rcases List.mem_cons.1 (hp.subset h) with rfl | h
      · refine quiet_written_arrayTokens (by decide) fun literal hm => ?_
        obtain ⟨child, hc, hr⟩ := exists_of_mem_forall₂ hl hm
        exact ih child hc hr
      · exact ho.quiet p h

theorem exists_eq_append_last (hs : Spaced ["const".toList, "routes".toList, [':']] s) :
    ∃ front last, s = front ++ [last] ∧ isWord last = false := by
  have : Spaced (["const".toList, "routes".toList] ++ [[':']]) s := hs
  obtain ⟨a, gap, rfl, -, hb⟩ := this.exists_append_cons
  cases hb with
  | nil hg =>
    rcases List.eq_nil_or_concat gap with rfl | ⟨gap, last, rfl⟩
    · exact ⟨a, ':', rfl, by decide⟩
    · refine ⟨a ++ ':' :: gap, last, by simp, ?_⟩
      have := isNameChar_eq_false_of_isBlank (hg last (by simp))
      exact (Bool.or_eq_false_iff.1 this).1

theorem tableStart?_append {before : Option Char} (hw : before.any isWord = false)
    (hs : Spaced (['='] :: ['['] :: tokens) s) :
    ∃ rest, tableStart? before ("Routes".toList ++ s) = some ('[' :: rest, rest) ∧
      rest <:+ s ∧ Spaced tokens rest := by
  obtain ⟨t, he, ht⟩ := hs.exists_skipBlanks (.word (isSolid_singleton rfl))
  obtain ⟨rest, he', hr⟩ := ht.exists_skipBlanks (.word (isSolid_singleton rfl))
  refine ⟨rest, ?_, ?_, hr⟩
  · have boundary : isBoundary before ("Routes".toList ++ s) = true := by
      rw [isBoundary, hw]
      rfl
    have constant : afterRoutesConstant? before ("Routes".toList ++ s) = some t := by
      simp only [afterRoutesConstant?, boundary, isPrefixOf?_append_self, he, guard_true,
        Option.bind_eq_bind, Option.bind_some, List.singleton_append, afterChar?, if_true]
      rfl
    simp only [tableStart?, constant, Option.some_or, he', Option.bind_eq_bind, Option.bind_some,
      List.singleton_append, afterChar?, if_true]
    rfl
  · have inner : rest <:+ t := (List.suffix_cons _ _).trans (he' ▸ skipBlanks_suffix t)
    exact inner.trans ((List.suffix_cons _ _).trans (he ▸ skipBlanks_suffix s))

theorem exists_routeTables_eq (hs : Spaced (tableHeader ++ tokens) s)
    (hq : Quiet tokens.flatten) :
    ∃ rest, routeTables s = ['[' :: rest] ∧ Spaced tokens rest := by
  have : Spaced (["const".toList, "routes".toList, [':']] ++
      "Routes".toList :: (['='] :: ['['] :: tokens)) s := hs
  obtain ⟨a, b, rfl, ha, hb⟩ := this.exists_append_cons
  have other : 'R' ∉ a := fun h => (ha.isBlank_or_mem h).elim (by decide) (by decide)
  obtain ⟨front, last, rfl, hw⟩ := exists_eq_append_last ha
  rw [List.mem_append, List.mem_singleton, not_or] at other
  have word : (some last).any isWord = false := hw
  obtain ⟨rest, hstart, hsuffix, hr⟩ := tableStart?_append word hb
  refine ⟨rest, ?_, hr⟩
  have fails : FailsAt tableStart? front :=
    fun c hc => tableStart?_eq_none_of_ne fun h => other.1 (h ▸ hc)
  have start : "Routes".toList ++ b = 'R' :: ("outes".toList ++ b) := rfl
  rw [start] at hstart
  obtain ⟨_, he⟩ := exists_findAllFrom_eq_cons hstart (hsuffix.trans (List.suffix_append _ _))
  rw [routeTables, findAll, List.append_assoc, List.singleton_append,
    findAllFrom_append fails (tableStart?_eq_none_of_ne (Ne.symm other.2)), start, he,
    findAllFrom_eq_nil fun before t ht => tableStart?_eq_none ?_ before]
  have chain : (rest.filter (!isBlank ·)).IsChain NoTable := by
    rw [hr.filter_eq]
    exact hq.filter.isChain
  exact chain.infix (ht.isInfix.filter _)

theorem isPlain_of_spaced (hs : Spaced (tableHeader ++ tokens) s) (hq : Quiet tokens.flatten) :
    IsPlain s := by
  refine isPlain_of_isChain ?_
  rw [hs.filter_eq, List.flatten_append, List.filter_append]
  exact hq.filter.isChain_append (by decide)

theorem WrittenTable.parseRoutes_eq (hw : WrittenTable routes text) :
    parseRoutes text = routes := by
  cases hw with
  | @intro literals comma hl hs =>
    have items := forall_isItem_of_forall₂ hl
    have body : IsBody (separated comma literals) := isBody_separated items
    have quiet : Quiet (separated comma literals ++ [[']'], [';']]).flatten := by
      rw [List.flatten_append]
      refine (quiet_separated fun literal hm => ?_).append (quiet_of_all (by decide))
      obtain ⟨_, _, hr⟩ := exists_of_mem_forall₂ hl hm
      exact hr.quiet
    obtain ⟨rest, ht, hr⟩ := exists_routeTables_eq hs quiet
    obtain ⟨inside, later, rfl, hi, -⟩ := hr.exists_append_cons
    have nested := nested_of_spaced hi body.nested
    rw [parseRoutes, removeComments_of_isPlain (isPlain_of_spaced hs quiet), ht,
      List.flatMap_singleton, List.singleton_append, nested.balanced? isPair_square]
    exact routesIn_eq_of_forall₂ hl hi

/-- The text of a table is read as the routes that it was written for, and flattening them lists
the whole forest in preorder. -/
theorem parseRoutes_of_writtenTable (hw : WrittenTable routes text) :
    parseRoutes text = routes ∧
      ∃ addresses, InPreorder routes addresses ((parseRoutes text).flatMap Route.flatten) := by
  rw [hw.parseRoutes_eq]
  exact ⟨rfl, exists_inPreorder_flatten routes⟩

/-- A table with a redirection, and a shop whose goods are loaded when they are needed. -/
def shopRoutes : List Route :=
  [{ path := some "", redirectTo := some "/shop", pathMatch := some "full" },
    { path := some "shop"
      component := some "Shop"
      children := [{ path := some ":id", loadChildren := some "./goods" }, {}] }]

/-- Three kinds of quotes, properties out of order, and commas at the end of two lists. -/
def shopTokens : List Token :=
  let redirection := objectTokens true
    [⟨"redirectTo".toList, ['"' :: ("/shop".toList ++ ['"'])]⟩,
      ⟨"path".toList, ['\'' :: ("".toList ++ ['\''])]⟩,
      ⟨"pathMatch".toList, ['\x60' :: ("full".toList ++ ['\x60'])]⟩]
  let goods := objectTokens false
    [⟨"loadChildren".toList,
        lazyImport ['\'' :: ("./goods".toList ++ ['\''])] "m".toList "Goods".toList⟩,
      ⟨"path".toList, ['"' :: (":id".toList ++ ['"'])]⟩]
  let shop := objectTokens false
    [⟨"path".toList, ['\'' :: ("shop".toList ++ ['\''])]⟩,
      childrenProperty false [goods, objectTokens false []],
      ⟨"component".toList, ["Shop".toList]⟩]
  tableHeader ++ (separated true [redirection, shop] ++ [[']'], [';']])

def shopText : List Char := shopTokens.flatMap fun token => token ++ [' ']

theorem writtenTable_shopRoutes : WrittenTable shopRoutes shopText := by
  have text : ∀ s ∈ ["", "/shop", "full", "shop", ":id", "./goods"], IsTableText s.toList := by
    intro s hs
    simp only [List.mem_cons, List.not_mem_nil, or_false] at hs
    rcases hs with rfl | rfl | rfl | rfl | rfl | rfl <;>
      exact ⟨⟨by decide +kernel, by decide +kernel⟩, List.all_eq_true.1 (by decide +kernel)⟩
  refine .intro (.cons ?_ (.cons ?_ .nil)) (spaced_flatMap shopTokens)
  · exact .leaf (.intro (.present (.intro rfl (text _ (by simp)))) .absent
      (.present (.intro rfl (text _ (by simp)))) (.present (.intro rfl (text _ (by simp)))) .absent
      rfl) rfl (.swap ..)
  · refine .parent (.intro (.present (.intro rfl (text _ (by simp))))
      (.present (.intro (by decide))) .absent .absent .absent rfl) (.cons ?_ (.cons ?_ .nil))
      (.swap ..)
    · exact .leaf (.intro (.present (.intro rfl (text _ (by simp)))) .absent .absent .absent
        (.present (.intro (by decide) (.intro rfl (text _ (by simp))) (by decide) (by decide))) rfl)
        rfl (.swap ..)
    · exact .leaf (.intro .absent .absent .absent .absent .absent rfl) rfl .nil

theorem parseRoutes_of_writtenTable_shopRoutes :
    WrittenTable shopRoutes shopText ∧ parseRoutes shopText = shopRoutes ∧
      ∃ addresses,
        InPreorder shopRoutes addresses ((parseRoutes shopText).flatMap Route.flatten) :=
  ⟨writtenTable_shopRoutes, parseRoutes_of_writtenTable writtenTable_shopRoutes⟩

end AngularAtlas.Source
