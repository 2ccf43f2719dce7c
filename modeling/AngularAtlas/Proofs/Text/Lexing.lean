import AngularAtlas.Proofs.Text.CommentLines
import AngularAtlas.Proofs.Text.Word

/-!
Comments as a lexer reads them, from left to right. Main statement: what is left of a text is its
code without the spaces and tabs before line comments, as long as nothing that looks like the start
of a block comment reaches out of a line comment.
-/

namespace AngularAtlas.Text

/-- What a lexer reads in a text without quotes: characters of the code and comments. -/
inductive Lexeme where
  | code (c : Char)
  | block (inside : List Char)
  | line (inside : List Char)
deriving DecidableEq

namespace Lexeme

def text : Lexeme → List Char
  | code c => [c]
  | block inside => '/' :: '*' :: (inside ++ ['*', '/'])
  | line inside => '/' :: '/' :: inside

end Lexeme

def written (lexemes : List Lexeme) : List Char := lexemes.flatMap Lexeme.text

/-- A text is read as some lexemes. Slashes stand in comments only; a block comment ends at the next
`*/`, and a line comment at the next line feed or with the text. -/
inductive Lexed : List Lexeme → Prop
  | nil : Lexed []
  | code {c : Char} {later : List Lexeme} : c ≠ '/' → Lexed later → Lexed (.code c :: later)
  | block {inside : List Char} {later : List Lexeme} : ¬ ['*', '/'] <:+: inside → Lexed later →
      Lexed (.block inside :: later)
  | line {inside : List Char} {later : List Lexeme} : '\n' ∉ inside →
      (∀ next ∈ later.head?, next = .code '\n') → Lexed later → Lexed (.line inside :: later)

/-- Only spaces, tabs and block comments stand before the next line comment. -/
def leadsToLine : List Lexeme → Bool
  | [] => false
  | .code c :: later => (c == ' ' || c == '\t') && leadsToLine later
  | .block _ :: later => leadsToLine later
  | .line _ :: _ => true

/-- The code, without the spaces and tabs before line comments. -/
def codeOf : List Lexeme → List Char
  | [] => []
  | .code c :: later => if leadsToLine (.code c :: later) then codeOf later else c :: codeOf later
  | .block _ :: later | .line _ :: later => codeOf later

/-- The blocks that seem to open in the text of a line comment close in it too, or do not close in
what follows either. -/
inductive KeepsBlocks (later : List Char) : List Char → Prop
  | nil : KeepsBlocks later []
  | char {c : Char} {s : List Char} : (c = '/' → s.head? ≠ some '*') → KeepsBlocks later s →
      KeepsBlocks later (c :: s)
  | closed {body s : List Char} : ¬ ['*', '/'] <:+: body → KeepsBlocks later s →
      KeepsBlocks later ('/' :: '*' :: (body ++ '*' :: '/' :: s))
  | unclosed {body : List Char} : ¬ ['*', '/'] <:+: body ++ later →
      KeepsBlocks later ('/' :: '*' :: body)

/-- No block reaches out of a line comment, and none takes a slash of its start away. -/
structure StaysInLine (inside later : List Char) : Prop where
  keepsBlocks : KeepsBlocks later inside
  star : inside.head? = some '*' → ¬ ['*', '/'] <:+: inside.tail ++ later

/-- No block reaches out of any line comment. -/
def Contained : List Lexeme → Prop
  | [] => True
  | .line inside :: later => StaysInLine inside (written later) ∧ Contained later
  | .code _ :: later | .block _ :: later => Contained later

/-- What is left without block comments, also without those that line comments seem to have. -/
inductive Blockless : List Lexeme → List Char → Prop
  | nil : Blockless [] []
  | code {c : Char} {later : List Lexeme} {s : List Char} : c ≠ '/' → Blockless later s →
      Blockless (.code c :: later) (c :: s)
  | block {inside : List Char} {later : List Lexeme} {s : List Char} : Blockless later s →
      Blockless (.block inside :: later) s
  | line {inside left : List Char} {later : List Lexeme} {s : List Char} : '\n' ∉ left →
      (∀ c ∈ s.head?, c = '\n') → Blockless later s →
      Blockless (.line inside :: later) ('/' :: '/' :: (left ++ s))

variable {s later inside body : List Char} {c : Char} {lexemes : List Lexeme}

theorem infix_of_afterBlockEnd? {rest : List Char} (h : afterBlockEnd? s = some rest) :
    ['*', '/'] <:+: s := by
  induction s with
  | nil => cases h
  | cons c s ih =>
    rw [afterBlockEnd?] at h
    split at h
    case isTrue closes =>
      obtain ⟨rfl, hs⟩ := closes
      obtain ⟨s', rfl⟩ := List.head?_eq_some_iff.1 hs
      exact ⟨[], s', rfl⟩
    case isFalse => exact (ih h).trans (List.suffix_cons c s).isInfix

theorem afterBlockEnd?_of_unclosed (hb : ¬ ['*', '/'] <:+: body) : afterBlockEnd? body = none :=
  Option.eq_none_iff_forall_ne_some.2 fun _ found => hb (infix_of_afterBlockEnd? found)

/-- Where no block comment closes, none is taken out. -/
theorem removeBlockComments_of_unclosed (hs : ¬ ['*', '/'] <:+: s) : removeBlockComments s = s := by
  refine removeBlockComments_eq_self fun t ht => ?_
  unfold afterBlockComment?
  split
  case h_1 r =>
    have behind : r <:+: s := (List.suffix_append ['/', '*'] r).isInfix.trans ht.isInfix
    exact afterBlockEnd?_of_unclosed fun h => hs (h.trans behind)
  case h_2 => rfl

theorem removeBlockComments_unclosed (hb : ¬ ['*', '/'] <:+: body) :
    removeBlockComments ('/' :: '*' :: body) = '/' :: '*' :: body := by
  have start : afterBlockComment? ('/' :: '*' :: body) = none := afterBlockEnd?_of_unclosed hb
  rw [removeBlockComments_of_eq_none start,
    removeBlockComments_cons fun h => absurd h (by decide), removeBlockComments_of_unclosed hb]

/-- What is left of a line comment stays on its line. -/
theorem KeepsBlocks.exists_removeBlockComments_append (h : KeepsBlocks later inside)
    (newline : '\n' ∉ inside) (ends : ∀ c ∈ later.head?, c = '\n') :
    ∃ left, '\n' ∉ left ∧
      removeBlockComments (inside ++ later) = left ++ removeBlockComments later := by
  induction h with
  | nil => exact ⟨[], List.not_mem_nil, rfl⟩
  | @char c s hc _ ih =>
    rw [List.mem_cons, not_or] at newline
    obtain ⟨left, hl, he⟩ := ih newline.2
    refine ⟨c :: left, by simp [hl, newline.1], ?_⟩
    rw [List.cons_append, removeBlockComments_cons, he, List.cons_append]
    intro slash star
    -- behind the comment comes a line feed, and no star
    cases s with
    | nil => exact absurd (ends _ star) (by decide)
    | cons d s => exact hc slash star
  | @closed body s hb _ ih =>
    have last : '\n' ∉ s := fun mem => newline (by simp [mem])
    obtain ⟨left, hl, he⟩ := ih last
    refine ⟨left, hl, ?_⟩
    simp only [List.cons_append, List.append_assoc]
    rw [removeBlockComments_block hb, he]
  | @unclosed body hb =>
    have behind : ¬ ['*', '/'] <:+: later := fun h => hb (List.infix_append_of_infix_right h)
    refine ⟨'/' :: '*' :: body, newline, ?_⟩
    rw [removeBlockComments_of_unclosed behind, List.cons_append, List.cons_append,
      removeBlockComments_unclosed hb]

theorem StaysInLine.exists_removeBlockComments_line (h : StaysInLine inside later)
    (newline : '\n' ∉ inside) (ends : ∀ c ∈ later.head?, c = '\n') :
    ∃ left, '\n' ∉ left ∧ removeBlockComments ('/' :: '/' :: (inside ++ later)) =
      '/' :: '/' :: (left ++ removeBlockComments later) := by
  rw [removeBlockComments_cons (by simp)]
  by_cases star : inside.head? = some '*'
  · obtain ⟨body, rfl⟩ := List.head?_eq_some_iff.1 star
    have unclosed : ¬ ['*', '/'] <:+: body ++ later := h.star star
    have behind : ¬ ['*', '/'] <:+: later := fun h => unclosed (List.infix_append_of_infix_right h)
    refine ⟨'*' :: body, newline, ?_⟩
    rw [removeBlockComments_of_unclosed behind, List.cons_append,
      removeBlockComments_unclosed unclosed]
  · obtain ⟨left, hl, he⟩ := h.keepsBlocks.exists_removeBlockComments_append newline ends
    refine ⟨left, hl, ?_⟩
    rw [removeBlockComments_cons, he]
    intro _ first
    cases inside with
    | nil => exact absurd (ends _ first) (by decide)
    | cons c inside => exact star first

theorem written_cons (l : Lexeme) (lexemes : List Lexeme) :
    written (l :: lexemes) = l.text ++ written lexemes := List.flatMap_cons

theorem head?_written (ends : ∀ next ∈ lexemes.head?, next = .code '\n') :
    ∀ c ∈ (written lexemes).head?, c = '\n' := by
  cases lexemes with
  | nil => exact fun _ h => nomatch h
  | cons l lexemes =>
    obtain rfl := ends l rfl
    exact fun c hc => (Option.some.inj hc).symm

theorem Blockless.head? (h : Blockless lexemes s)
    (ends : ∀ next ∈ lexemes.head?, next = .code '\n') : ∀ c ∈ s.head?, c = '\n' := by
  cases h with
  | nil => exact fun _ h => nomatch h
  | code =>
    obtain rfl := Lexeme.code.inj (ends _ rfl)
    exact fun c hc => (Option.some.inj hc).symm
  | block => exact nomatch ends _ rfl
  | line => exact nomatch ends _ rfl

theorem blockless_removeBlockComments (h : Lexed lexemes) (contained : Contained lexemes) :
    Blockless lexemes (removeBlockComments (written lexemes)) := by
  induction h with
  | nil => exact removeBlockComments_of_unopened (s := []) (by decide) ▸ .nil
  | code hc _ ih =>
    rw [written_cons, Lexeme.text, List.singleton_append,
      removeBlockComments_cons fun h => absurd h hc]
    exact .code hc (ih contained)
  | block hb _ ih =>
    rw [written_cons, Lexeme.text]
    simp only [List.cons_append, List.append_assoc, List.nil_append]
    rw [removeBlockComments_block hb]
    exact .block (ih contained)
  | @line inside later hn ends _ ih =>
    have blockless := ih contained.2
    obtain ⟨left, hl, he⟩ := contained.1.exists_removeBlockComments_line hn (head?_written ends)
    rw [written_cons, Lexeme.text, List.cons_append, List.cons_append, he]
    exact .line hl (blockless.head? ends) blockless

theorem Blockless.startsLineComment_eq (h : Blockless lexemes s) :
    startsLineComment s = leadsToLine lexemes := by
  induction h with
  | nil => rfl
  | code hc _ ih => rw [startsLineComment_cons_of_ne hc, ih, leadsToLine]
  | block _ ih => exact ih
  | line => rfl

theorem Blockless.removeLineComments_eq (h : Blockless lexemes s) :
    removeLineComments s = codeOf lexemes := by
  induction h with
  | nil => decide
  | code hc hs ih =>
    rw [removeLineComments_cons hc, ih, codeOf, (Blockless.code hc hs).startsLineComment_eq]
  | block _ ih => exact ih
  | @line inside left later s hl ends _ ih =>
    have newline : '\n' ∉ '/' :: '/' :: left := by simpa using hl
    have line := removeLineComments_append newline ends
    rw [cutLineComment_of_starts (by rfl), List.nil_append] at line
    rw [codeOf, ← ih, ← line]
    rfl

/-- What is left of a text is its code without the spaces and tabs before line comments, unless a
line comment opens a block that is closed behind it. -/
theorem removeComments_written (h : Lexed lexemes) (contained : Contained lexemes) :
    removeComments (written lexemes) = codeOf lexemes :=
  (blockless_removeBlockComments h contained).removeLineComments_eq

def codes (s : String) : List Lexeme := s.toList.map .code

theorem lexed_codes {s : String} (hs : '/' ∉ s.toList) (h : Lexed lexemes) :
    Lexed (codes s ++ lexemes) := by
  rw [codes]
  generalize s.toList = chars at hs
  induction chars with
  | nil => exact h
  | cons c chars ih =>
    rw [List.mem_cons, not_or] at hs
    exact .code (Ne.symm hs.1) (ih hs.2)

theorem contained_codes {s : String} (h : Contained lexemes) : Contained (codes s ++ lexemes) := by
  rw [codes]
  generalize s.toList = chars
  induction chars with
  | nil => exact h
  | cons c chars ih => exact ih

theorem KeepsBlocks.append (hs : '/' ∉ s) (h : KeepsBlocks later inside) :
    KeepsBlocks later (s ++ inside) := by
  induction s with
  | nil => exact h
  | cons c s ih =>
    rw [List.mem_cons, not_or] at hs
    exact .char (fun slash => absurd slash.symm hs.1) (ih hs.2)

/-- Comments of both kinds with the marks of the other kind in them. -/
def noisyLexemes : List Lexeme :=
  codes "a " ++ .block " // b ".toList :: (codes " \t" ++
    .line (" c ".toList ++ '/' :: '*' :: (" d ".toList ++ '*' :: '/' :: " e".toList)) ::
      (codes "\n\tf" ++ .block ['*'] :: (codes " " ++
        [.line (" g ".toList ++ '/' :: '*' :: " h".toList)])))

theorem removeComments_written_noisyLexemes : Lexed noisyLexemes ∧ Contained noisyLexemes ∧
    removeComments (written noisyLexemes) = "a\n\tf".toList := by
  have lexed : Lexed noisyLexemes :=
    lexed_codes (by decide) (.block (by decide +kernel) (lexed_codes (by decide)
      (.line (by decide) (by decide) (lexed_codes (by decide) (.block (by decide)
        (lexed_codes (by decide) (.line (by decide) (fun _ h => nomatch h) .nil)))))))
  have closed : ∀ later, KeepsBlocks later (" c ".toList ++ '/' :: '*' ::
      (" d ".toList ++ '*' :: '/' :: " e".toList)) := fun later =>
    .append (by decide) (.closed (by decide) (.char (by decide) (.char (by decide) .nil)))
  have unclosed : KeepsBlocks [] (" g ".toList ++ '/' :: '*' :: " h".toList) :=
    .append (by decide) (.unclosed (by decide))
  have contained : Contained noisyLexemes :=
    contained_codes (contained_codes ⟨⟨closed _, by decide⟩,
      contained_codes (contained_codes ⟨⟨unclosed, by decide⟩, trivial⟩)⟩)
  refine ⟨lexed, contained, (removeComments_written lexed contained).trans ?_⟩
  decide +kernel

/-- What one would expect of comments in a text without quotes: whatever they hold, the code outside
them is left. -/
def CodeIsLeft : Prop :=
  ∀ lexemes : List Lexeme, Lexed lexemes → (∀ c ∈ written lexemes, c ∉ ['\'', '"', '\x60']) →
    removeComments (written lexemes) = codeOf lexemes

/-- A line comment that mentions a pattern of file names, with a block comment on the next line. -/
def globLexemes : List Lexeme :=
  codes "a " ++ .line " src/*.ts".toList :: (codes "\nb " ++ [.block " c ".toList])

theorem lexed_globLexemes : Lexed globLexemes :=
  lexed_codes (by decide) (.line (by decide) (by decide) (lexed_codes (by decide)
    (.block (by decide) .nil)))

theorem not_codeIsLeft : ¬ CodeIsLeft := by
  intro left
  have found : removeComments (written globLexemes) = ['a'] := by decide +kernel
  have expected := left globLexemes lexed_globLexemes (not_mem_of_all (by decide +kernel))
  rw [found] at expected
  exact absurd expected (by decide +kernel)

end AngularAtlas.Text
