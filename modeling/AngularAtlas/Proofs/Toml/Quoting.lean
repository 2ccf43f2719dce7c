import AngularAtlas.Proofs.Text.Word
import AngularAtlas.Toml.Quoted
import Mathlib.Data.List.Basic
import Mathlib.Data.Option.Basic

namespace AngularAtlas.Toml

/-- A character, and how it is written between quotes. -/
structure Piece where
  written : List Char
  char : Char
deriving Repr, DecidableEq

def Quoting.markPiece (q : Quoting) : Piece := ⟨[q.mark], q.mark⟩

/-- How many quotes can stand in a row within a text in quotes. -/
def Quoting.maxRun (q : Quoting) : Nat := if q.isMultiline then 2 else 0

/-- A piece is read as its character, and only a quote that stands for itself starts with one. -/
structure Piece.Reads (q : Quoting) (p : Piece) : Prop where
  unit : ∀ rest, unit? q (p.written ++ rest) = some ([p.char], rest)
  mark : p.written.head? = some q.mark → p = q.markPiece

variable {q : Quoting} {p : Piece} {pieces : List Piece} {rest s : List Char} {run : Nat}

/-- The text that some pieces make. -/
def writtenText (pieces : List Piece) : List Char := pieces.flatMap (·.written)

/-- The number of quotes that start a list of pieces. -/
def leadingMarks (q : Quoting) (pieces : List Piece) : Nat :=
  (pieces.takeWhile (· == q.markPiece)).length

/-- No more quotes stand in a row than can. -/
def FewMarks (q : Quoting) (pieces : List Piece) : Prop :=
  ∀ later, later <:+ pieces → leadingMarks q later ≤ q.maxRun

theorem Piece.Reads.exists_cons (reads : p.Reads q) : ∃ c r, p.written = c :: r := by
  refine List.exists_cons_of_ne_nil fun empty => ?_
  have nothing := reads.unit []
  rw [empty] at nothing
  cases nothing

theorem takeWhile_mark_of_reads (reads : p.Reads q) (ne : p ≠ q.markPiece) (rest : List Char) :
    (p.written ++ rest).takeWhile (· == q.mark) = [] := by
  obtain ⟨c, r, he⟩ := reads.exists_cons
  have differ : c ≠ q.mark := by
    rintro rfl
    exact ne (reads.mark (by rw [he]; rfl))
  rw [he, List.cons_append, List.takeWhile_cons_of_neg (by simpa using differ)]

theorem delimiter_eq (q : Quoting) :
    q.delimiter = List.replicate (if q.isMultiline then 3 else 1) q.mark := rfl

theorem takeWhile_delimiter (after : rest.head? ≠ some q.mark) :
    (q.delimiter ++ rest).takeWhile (· == q.mark) = q.delimiter := by
  refine Text.takeWhile_append_of_stop (fun c mem => ?_) fun c head => ?_
  · rw [List.eq_of_mem_replicate mem]
    exact beq_self_eq_true _
  · have differ : c ≠ q.mark := by
      rintro rfl
      exact after head
    exact beq_false_of_ne differ

/-- How many quotes are met at once: those that start the pieces, and when there is nothing else
those at the end too. -/
theorem length_takeWhile_mark (reads : ∀ p ∈ pieces, p.Reads q)
    (after : rest.head? ≠ some q.mark) :
    ((writtenText pieces ++ (q.delimiter ++ rest)).takeWhile (· == q.mark)).length =
      leadingMarks q pieces +
        if pieces.all (· == q.markPiece) then q.delimiter.length else 0 := by
  induction pieces with
  | nil =>
    rw [writtenText, List.flatMap_nil, List.nil_append, takeWhile_delimiter after]
    simp [leadingMarks]
  | cons p pieces ih =>
    obtain ⟨here, later⟩ := List.forall_mem_cons.1 reads
    by_cases isMark : p = q.markPiece
    · subst isMark
      have next := ih later
      have first : writtenText (q.markPiece :: pieces) = q.mark :: writtenText pieces := rfl
      rw [first, List.cons_append, List.takeWhile_cons]
      simp only [beq_self_eq_true, if_true, List.length_cons, next]
      simp [leadingMarks]
      omega
    · have first : writtenText (p :: pieces) = p.written ++ writtenText pieces := rfl
      rw [first, List.append_assoc, takeWhile_mark_of_reads here isMark]
      simp [leadingMarks, isMark]

/-- Pieces that are quotes only, of which there are few. -/
theorem ending?_of_all (reads : ∀ p ∈ pieces, p.Reads q) (few : FewMarks q pieces)
    (after : rest.head? ≠ some q.mark) (all : pieces.all (· == q.markPiece) = true) :
    ending? q (writtenText pieces ++ (q.delimiter ++ rest)) = some (pieces.map (·.char), rest) := by
  have run := length_takeWhile_mark reads after
  have few := few pieces List.suffix_rfl
  obtain ⟨n, rfl⟩ : ∃ n, pieces = List.replicate n q.markPiece :=
    ⟨pieces.length, List.eq_replicate_iff.2 ⟨rfl, by simpa using all⟩⟩
  have leading : leadingMarks q (List.replicate n q.markPiece) = n := by simp [leadingMarks]
  have text : writtenText (List.replicate n q.markPiece) = List.replicate n q.mark := by
    simp [writtenText, Quoting.markPiece, List.flatMap_replicate]
  have chars : (List.replicate n q.markPiece).map (·.char) = List.replicate n q.mark :=
    List.map_replicate
  rw [all, if_pos rfl, leading, text] at run
  rw [leading, Quoting.maxRun] at few
  rw [chars, text]
  cases multi : q.isMultiline with
  | true =>
    rw [multi, if_pos rfl] at few
    have size : q.delimiter.length = 3 := by simp [delimiter_eq, multi]
    rw [size] at run
    have long : 3 ≤ n + 3 := Nat.le_add_left 3 n
    have extra : min (n + 3 - 3) 2 = n := by omega
    have past : (List.replicate n q.mark ++ (q.delimiter ++ rest)).drop (n + 3) = rest := by
      rw [← List.append_assoc, List.drop_left' (by simp [size])]
    simp only [ending?, run, multi, if_true, if_pos long, extra, past]
  | false =>
    rw [multi, if_neg Bool.false_ne_true] at few
    obtain rfl : n = 0 := by omega
    have size : q.delimiter.length = 1 := by simp [delimiter_eq, multi]
    have past : (q.delimiter ++ rest).drop 1 = rest := List.drop_left' size
    rw [List.replicate_zero, List.nil_append] at run ⊢
    simp only [ending?, run, multi, size, Bool.false_eq_true, if_false, past]
    rfl

theorem ending?_of_not_all (reads : ∀ p ∈ pieces, p.Reads q) (few : FewMarks q pieces)
    (after : rest.head? ≠ some q.mark) (other : pieces.all (· == q.markPiece) = false) :
    ending? q (writtenText pieces ++ (q.delimiter ++ rest)) = none := by
  have run := length_takeWhile_mark reads after
  have few := few pieces List.suffix_rfl
  rw [other, if_neg Bool.false_ne_true, Nat.add_zero] at run
  rw [Quoting.maxRun] at few
  cases multi : q.isMultiline with
  | true =>
    rw [multi, if_pos rfl] at few
    have short : ¬ 3 ≤ leadingMarks q pieces := by omega
    simp only [ending?, run, multi, if_true, if_neg short]
  | false =>
    rw [multi, if_neg Bool.false_ne_true] at few
    have short : ¬ 1 ≤ leadingMarks q pieces := by omega
    simp only [ending?, run, multi, Bool.false_eq_true, if_false, if_neg short]

/-- Pieces are read up to the quotes behind them. -/
theorem body?_writtenText (reads : ∀ p ∈ pieces, p.Reads q) (few : FewMarks q pieces)
    (after : rest.head? ≠ some q.mark) :
    body? q (writtenText pieces ++ (q.delimiter ++ rest)) = some (pieces.map (·.char), rest) := by
  induction pieces with
  | nil => rw [body?, ending?_of_all reads few after rfl]
  | cons p pieces ih =>
    cases all : (p :: pieces).all (· == q.markPiece) with
    | true => rw [body?, ending?_of_all reads few after all]
    | false =>
      obtain ⟨here, later⟩ := List.forall_mem_cons.1 reads
      have next := ih later fun suffix h => few suffix (h.trans (List.suffix_cons _ _))
      obtain ⟨c, r, written⟩ := here.exists_cons
      have first : writtenText (p :: pieces) ++ (q.delimiter ++ rest) =
          p.written ++ (writtenText pieces ++ (q.delimiter ++ rest)) :=
        List.append_assoc _ _ _
      have shorter : (writtenText pieces ++ (q.delimiter ++ rest)).length <
          (p.written ++ (writtenText pieces ++ (q.delimiter ++ rest))).length := by
        simp only [written, List.cons_append, List.length_cons, List.length_append]
        omega
      rw [body?, ending?_of_not_all reads few after all, first, here.unit]
      simp only [if_pos shorter, next, Option.map_some, List.map_cons, List.singleton_append]

def rawPieces (s : List Char) : List Piece := s.map fun c => ⟨[c], c⟩

theorem writtenText_rawPieces (s : List Char) : writtenText (rawPieces s) = s := by
  simp [writtenText, rawPieces, List.flatMap_map]

theorem char_rawPieces (s : List Char) : (rawPieces s).map (·.char) = s := by
  simp [rawPieces, Function.comp_def]

theorem unit?_of_isPlain {c : Char} (hq : q.isLiteral = true ∨ c ≠ '\\') (plain : isPlain c = true)
    (rest : List Char) : unit? q (c :: rest) = some ([c], rest) := by
  have noEscape : ¬ (c = '\\' ∧ (!q.isLiteral) = true) := by
    rcases hq with hq | hq
    · simp [hq]
    · simp [hq]
  rw [unit?, if_neg noEscape, if_pos plain]

theorem unit?_newline (multi : q.isMultiline = true) (rest : List Char) :
    unit? q ('\n' :: rest) = some (['\n'], rest) := by
  have plain : ¬ isPlain '\n' = true := by decide
  rw [unit?, if_neg (by simp), if_neg plain, if_pos multi]
  rfl

/-- A text with no control characters stands for itself between single quotes, on one line if it
has no line break. -/
theorem reads_rawPieces (literal : q.isLiteral = true) (clean : s.any isControl = false)
    (breaks : '\n' ∈ s → q.isMultiline = true) : ∀ p ∈ rawPieces s, p.Reads q := by
  intro p mem
  obtain ⟨c, hc, rfl⟩ := List.mem_map.1 mem
  constructor
  · intro rest
    by_cases isBreak : c = '\n'
    · subst isBreak
      exact unit?_newline (breaks hc) rest
    · have noControl : isControl c = false := by simpa using List.any_eq_false.1 clean c hc
      exact unit?_of_isPlain (.inl literal) (by simp [isPlain, noControl, isBreak]) rest
  · intro same
    obtain rfl : c = q.mark := by simpa using same
    rfl

theorem leadingMarks_rawPieces (s : List Char) :
    leadingMarks q (rawPieces s) = (s.takeWhile (· == q.mark)).length := by
  induction s with
  | nil => rfl
  | cons c s ih =>
    have first : rawPieces (c :: s) = ⟨[c], c⟩ :: rawPieces s := rfl
    by_cases isMark : c = q.mark
    · subst isMark
      rw [first]
      simpa [leadingMarks, Quoting.markPiece] using ih
    · rw [first]
      simp [leadingMarks, Quoting.markPiece, isMark]

theorem fewMarks_rawPieces (few : ∀ later, later <:+ s →
    (later.takeWhile (· == q.mark)).length ≤ q.maxRun) : FewMarks q (rawPieces s) := by
  intro later suffix
  obtain ⟨chars, isSuffix, rfl⟩ := (List.suffix_map_iff ..).1 suffix
  rw [← rawPieces, leadingMarks_rawPieces]
  exact few chars isSuffix

end AngularAtlas.Toml
