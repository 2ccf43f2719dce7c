import AngularAtlas.Export.Report
import AngularAtlas.Proofs.Source.ModuleTexts

namespace AngularAtlas.Report

open Text
open Source (NgModule ParsedFile OnlySpaces)

/-- Characters at which a text is cut into lines: the line feed, and any of the other blanks except
for the space. -/
structure BreaksLines (breaks : Char → Bool) : Prop where
  lineFeed : breaks '\n' = true
  blank : ∀ c, breaks c = true → isBlank c = true ∧ c ≠ ' '

/-- A line has a bar at its start, between its cells and at its end, and no others. Blanks around a
cell do not belong to it, and no bar stands behind a backslash, which would make it a part of the
cell. -/
structure IsRow (cells : List (List Char)) (line : List Char) : Prop where
  bars : line.count '|' = cells.length + 1
  cut : ∃ pieces, line.splitOn '|' = [] :: (pieces ++ [[]]) ∧ pieces.map trim = cells.map trim ∧
    ∀ piece ∈ pieces, piece.getLast? ≠ some '\\'

/-- A cell of the line below a header. -/
def IsRule (cell : List Char) : Prop := cell ≠ [] ∧ ∀ c ∈ cell, c ∈ ['-', ':']

/-- Some lines are a table with the given rows: a header, a rule below it, and the rows, all with
the same number of cells. -/
inductive IsTable (columns : Nat) (rows : List (List (List Char))) : List (List Char) → Prop
  | intro {names rules : List (List Char)} {header rule : List Char} {body : List (List Char)} :
      IsRow names header → names.length = columns → IsRow rules rule → rules.length = columns →
      (∀ cell ∈ rules, IsRule cell) → List.Forall₂ IsRow rows body →
      (∀ row ∈ rows, row.length = columns) → IsTable columns rows (header :: rule :: body)

/-- The name of a module and the sizes of its arrays. -/
def summaryCells (m : NgModule) : List (List Char) :=
  m.name.toList :: (moduleLists m).map fun p => (toString p.2.length).toList

/-- The labels of the arrays of a module, each with what the array is written like in a cell. -/
def arrayCells (m : NgModule) : List (List (List Char)) :=
  (moduleLists m).map fun p => [p.1.toList, (listCell p.2).toList]

/-- Some lines are the section of a module: its name and its file, and a table of its six arrays. -/
inductive IsSection (m : NgModule) : List (List Char) → Prop
  | intro {table : List (List Char)} : IsTable 2 (arrayCells m) table → table.length = 2 + 6 →
      IsSection m (("## " ++ m.name).toList :: [] :: ("Filename: " ++ m.file).toList :: [] ::
        (table ++ [[]]))

variable {breaks test : Char → Bool} {s sep cell : List Char} {items : List (List Char)}
  {names cells : List String} {name : String} {c stop : Char} {m : NgModule} {p : Project} {n : Nat}

theorem splitOnP_flatMap (hs : test stop = true)
    (hi : ∀ item ∈ items, ∀ c ∈ item, test c = false) :
    (items.flatMap fun item => item ++ [stop]).splitOnP test = items ++ [[]] := by
  induction items with
  | nil => rfl
  | cons item items ih =>
    obtain ⟨first, later⟩ := List.forall_mem_cons.1 hi
    rw [List.flatMap_cons, List.append_assoc, List.singleton_append,
      List.splitOnP_append_cons_of_forall_mem first stop hs, ih later, List.cons_append]

theorem countP_flatMap (hs : test stop = true)
    (hi : ∀ item ∈ items, ∀ c ∈ item, test c = false) :
    (items.flatMap fun item => item ++ [stop]).countP test = items.length := by
  induction items with
  | nil => rfl
  | cons item items ih =>
    obtain ⟨first, later⟩ := List.forall_mem_cons.1 hi
    have none : item.countP test = 0 := List.countP_eq_zero.2 fun c hc => by simp [first c hc]
    rw [List.flatMap_cons, List.countP_append, List.countP_append, ih later, none,
      List.countP_singleton, if_pos hs, List.length_cons]
    omega

/-- Some pieces with a bar in front of them and one behind each. -/
def barred (pieces : List (List Char)) : List Char :=
  '|' :: pieces.flatMap fun piece => piece ++ ['|']

def padded (cell : List Char) : List Char := ' ' :: (cell ++ [' '])

theorem trim_padded (cell : List Char) : trim (padded cell) = trim cell := by
  have front : skipBlanks (padded cell) = skipBlanks (cell ++ [' ']) :=
    skipBlanks_append isBlank_space (cell ++ [' '])
  rw [trim, front, skipBlanks, List.dropWhile_append, trim, skipBlanks]
  split
  case isTrue empty =>
    rw [List.isEmpty_iff.1 empty]
    rfl
  case isFalse => exact trimEnd_append_of_isBlank isBlank_space _

theorem isRow_barred {pieces : List (List Char)} (bars : ∀ piece ∈ pieces, '|' ∉ piece)
    (ends : ∀ piece ∈ pieces, piece.getLast? ≠ some '\\')
    (same : pieces.map trim = items.map trim) : IsRow items (barred pieces) := by
  have other : ∀ piece ∈ pieces, ∀ c ∈ piece, (c == '|') = false := by
    intro piece mem c hc
    refine beq_eq_false_iff_ne.2 fun bar => bars piece mem (bar ▸ hc)
  have number : pieces.length = items.length := by simpa using congrArg List.length same
  refine ⟨?_, pieces, ?_, same, ends⟩
  · have count := @countP_flatMap (· == '|') pieces '|' (beq_self_eq_true '|') other
    rw [barred, List.count_cons_self, List.count, count, number]
  · have first : (barred pieces).splitOn '|' =
        [] :: (pieces.flatMap fun piece => piece ++ ['|']).splitOn '|' :=
      List.splitOn_append_cons_self_of_not_mem List.not_mem_nil _
    rw [first]
    exact congrArg _ (splitOnP_flatMap (beq_self_eq_true '|') other)

theorem barred_cons (piece : List Char) (pieces : List (List Char)) :
    barred (piece :: pieces) = '|' :: (piece ++ barred pieces) := by
  simp [barred]

theorem bar_intercalate (cell : List Char) (cells : List (List Char)) :
    "| ".toList ++ (" | ".toList.intercalate (cell :: cells) ++ " |".toList) =
      barred ((cell :: cells).map padded) := by
  induction cells generalizing cell with
  | nil => simp [barred, padded]
  | cons next cells ih =>
    rw [List.map_cons, barred_cons, ← ih next, List.intercalate_cons_cons]
    simp [padded]

theorem toList_row (ne : cells ≠ []) :
    (row cells).toList = barred ((cells.map String.toList).map padded) ++ ['\n'] := by
  obtain ⟨cell, cells, rfl⟩ := List.exists_cons_of_ne_nil ne
  rw [List.map_cons, ← bar_intercalate, row]
  simp

/-- A row is cut into its cells again, unless a bar stands in one. -/
theorem isRow_padded (bars : ∀ item ∈ items, '|' ∉ item) :
    IsRow items (barred (items.map padded)) := by
  refine isRow_barred (List.forall_mem_map.2 fun item mem => ?_)
    (List.forall_mem_map.2 fun item _ => ?_) ?_
  · simpa [padded] using bars item mem
  · simp [padded, List.getLast?_cons]
  · rw [List.map_map]
    exact List.map_congr_left fun item _ => trim_padded item

theorem forall_mem_intercalate {Q : Char → Prop} (hs : ∀ c ∈ sep, Q c)
    (hi : ∀ item ∈ items, ∀ c ∈ item, Q c) : ∀ c ∈ sep.intercalate items, Q c := by
  induction items with
  | nil => simp
  | cons item items ih =>
    obtain ⟨first, later⟩ := List.forall_mem_cons.1 hi
    cases items with
    | nil => simpa using first
    | cons next items =>
      rw [List.intercalate_cons_cons, List.forall_mem_append, List.forall_mem_append]
      exact ⟨⟨first, hs⟩, ih later⟩

theorem mem_sortByBasename : name ∈ sortByBasename names ↔ name ∈ names := by
  simp [sortByBasename]

/-- What holds of the characters of some texts other than bars, and of what stands for a bar and
between two of the texts, holds of the cell of all of them. -/
theorem forall_mem_listCell {Q : Char → Prop} (mark : ∀ c ∈ "&#124;".toList, Q c)
    (sep : ∀ c ∈ ",<br>".toList, Q c) (hn : ∀ name ∈ names, ∀ c ∈ name.toList, c ≠ '|' → Q c) :
    ∀ c ∈ (listCell names).toList, Q c := by
  have escaped : ∀ name ∈ names, ∀ c ∈ (escapeCell name).toList, Q c := by
    intro name mem c hc
    rw [escapeCell, String.toList_ofList, List.mem_flatMap] at hc
    obtain ⟨d, hd, hc⟩ := hc
    split at hc
    case isTrue => exact mark c hc
    case isFalse bar =>
      obtain rfl := List.mem_singleton.1 hc
      exact hn name mem c hd bar
  rw [listCell, String.toList_intercalate]
  refine forall_mem_intercalate sep (List.forall_mem_map.2 (List.forall_mem_map.2 ?_))
  exact fun name mem => escaped name (mem_sortByBasename.1 mem)

theorem isWord_of_mem_toString (hc : c ∈ (toString n).toList) : isWord c = true := by
  rw [Nat.toString_eq_repr, Nat.toList_repr] at hc
  have digit : isAsciiDigit c = true := Nat.isDigit_of_mem_toDigits (by decide) (by decide) hc
  have last : c ≤ '9' := by
    rw [isAsciiDigit, Bool.and_eq_true, decide_eq_true_eq, decide_eq_true_eq] at digit
    exact digit.2
  have small : c.toNat ≤ 57 := UInt32.le_iff_toNat_le.1 last
  rw [isWord, if_pos (by omega), digit, Bool.or_true, Bool.true_or]

namespace BreaksLines

variable (hb : BreaksLines breaks)
include hb

theorem eq_false_of_onlySpaces (hs : OnlySpaces s) : ∀ c ∈ s, breaks c = false := by
  intro c hc
  cases h : breaks c with
  | false => rfl
  | true => exact absurd (hs c hc (hb.blank c h).1) (hb.blank c h).2

theorem eq_false_of_isWord (hs : ∀ c ∈ s, isWord c = true) : ∀ c ∈ s, breaks c = false := by
  refine hb.eq_false_of_onlySpaces fun c hc blank => ?_
  rw [isBlank_eq_false_of_isNameChar (isNameChar_of_isWord (hs c hc))] at blank
  cases blank

theorem eq_false_of_all (hs : s.all (fun c => !isBlank c || c == ' ') = true) :
    ∀ c ∈ s, breaks c = false := by
  refine hb.eq_false_of_onlySpaces fun c hc blank => ?_
  simpa [blank] using List.all_eq_true.1 hs c hc

end BreaksLines

def tableLines (header rule : List Char) (rows : List (List (List Char))) : List (List Char) :=
  header :: rule :: rows.map fun cells => barred (cells.map padded)

def arrayTable (m : NgModule) : List (List Char) :=
  tableLines "| Section | Classes, service, modules |".toList "| ---- |:-----------|".toList
    (arrayCells m)

def summaryTable (p : Project) : List (List Char) :=
  tableLines
    "| Module | Declarations | Imports | Exports | Bootstrap | Providers | Entry points |".toList
    "| ---| --- | --- | --- | --- | --- | --- |".toList (p.modules.map summaryCells)

def sectionLines (m : NgModule) : List (List Char) :=
  ("## " ++ m.name).toList :: [] :: ("Filename: " ++ m.file).toList :: [] :: (arrayTable m ++ [[]])

/-- The headings above the summary table. -/
def headings : List (List Char) := ["# Modules".toList, [], "## Modules in workspace".toList, []]

/-- The text of some lines, each with a line feed at its end. -/
def ended (lines : List (List Char)) : List Char := lines.flatMap fun line => line ++ ['\n']

theorem ended_cons (line : List Char) (lines : List (List Char)) :
    ended (line :: lines) = line ++ '\n' :: ended lines := by
  simp [ended]

theorem ended_append (lines more : List (List Char)) :
    ended (lines ++ more) = ended lines ++ ended more := List.flatMap_append

theorem toList_moduleRow (m : NgModule) :
    (moduleRow m).toList = barred ((summaryCells m).map padded) ++ ['\n'] := by
  have counts : m.counts = (moduleLists m).map fun p => p.2.length := rfl
  rw [moduleRow, toList_row (List.cons_ne_nil _ _), counts, summaryCells, List.map_cons,
    List.map_map, List.map_map]
  rfl

theorem toList_moduleSection (m : NgModule) :
    (moduleSection m).toList = ended (sectionLines m) := by
  have rows : (String.join ((moduleLists m).map fun p => row [p.1, listCell p.2])).toList =
      ended ((arrayCells m).map fun cells => barred (cells.map padded)) := by
    rw [String.toList_join, arrayCells, ended, List.map_map, List.flatMap_map, List.flatMap_map]
    refine List.flatMap_congr fun p _ => ?_
    exact toList_row (List.cons_ne_nil _ _)
  have text : moduleSection m = "## " ++ m.name ++ "\n\nFilename: " ++ m.file ++ "\n\n" ++
      "| Section | Classes, service, modules |\n| ---- |:-----------|\n" ++
      String.join ((moduleLists m).map fun p => row [p.1, listCell p.2]) ++ "\n" := rfl
  rw [text, String.toList_append, String.toList_append, rows]
  simp [sectionLines, arrayTable, tableLines, ended]

theorem toList_modules (p : Project) : (modules p).toList =
    ended (headings ++ (summaryTable p ++ [] :: (p.modules.map sectionLines).flatten)) := by
  have rows : (String.join (p.modules.map moduleRow)).toList =
      ended ((p.modules.map summaryCells).map fun cells => barred (cells.map padded)) := by
    rw [String.toList_join, ended, List.map_map, List.flatMap_map, List.flatMap_map]
    exact List.flatMap_congr fun m _ => toList_moduleRow m
  have sections : (String.join (p.modules.map moduleSection)).toList =
      ended (p.modules.map sectionLines).flatten := by
    rw [String.toList_join, ended, List.flatMap_map, List.flatten_eq_flatMap, List.flatMap_map,
      List.flatMap_assoc]
    exact List.flatMap_congr fun m _ => toList_moduleSection m
  have title : "# Modules\n\n## Modules in workspace\n\n".toList = ended headings := rfl
  unfold modules
  rw [String.toList_append, String.toList_append, String.toList_append, String.toList_append,
    String.toList_append, rows, sections, title, ended_append, summaryTable, tableLines,
    List.cons_append, List.cons_append, ended_cons, ended_cons, ended_append, ended_cons]
  simp

theorem isTable_tableLines {columns : Nat} {header rule : List Char}
    {titles marks : List (List Char)} {rows : List (List (List Char))} (hh : IsRow titles header)
    (titled : titles.length = columns) (hr : IsRow marks rule) (ruled : marks.length = columns)
    (rules : ∀ cell ∈ marks, IsRule cell) (bars : ∀ row ∈ rows, ∀ cell ∈ row, '|' ∉ cell)
    (even : ∀ row ∈ rows, row.length = columns) :
    IsTable columns rows (tableLines header rule rows) := by
  refine .intro hh titled hr ruled rules ?_ even
  rw [List.forall₂_map_right_iff, List.forall₂_same]
  exact fun row mem => isRow_padded (bars row mem)

theorem isRule_of_all (ne : cell ≠ []) (h : cell.all (['-', ':'].contains ·) = true) :
    IsRule cell := ⟨ne, by simpa using h⟩

/-- The labels of the arrays. -/
def arrayLabels : List String :=
  ["Declarations", "Imports", "Exports", "Bootstrap", "Providers", "Entry components"]

theorem label_mem {array : String × List String} (mem : array ∈ moduleLists m) :
    array.1 ∈ arrayLabels := by
  have labels : (moduleLists m).map (·.1) = arrayLabels := rfl
  exact labels ▸ List.mem_map_of_mem mem

theorem items_mem {array : String × List String} (mem : array ∈ moduleLists m) :
    array.2 ∈ m.arrays := by
  have arrays : (moduleLists m).map (·.2) = m.arrays := rfl
  exact arrays ▸ List.mem_map_of_mem mem

theorem isTable_arrayTable (m : NgModule) : IsTable 2 (arrayCells m) (arrayTable m) := by
  have header : IsRow ["Section".toList, "Classes, service, modules".toList]
      "| Section | Classes, service, modules |".toList := isRow_padded (by decide)
  have rule : IsRow ["----".toList, ":-----------".toList] "| ---- |:-----------|".toList :=
    @isRow_barred _ [" ---- ".toList, ":-----------".toList] (by decide) (by decide) (by decide)
  have labels : arrayLabels.all (fun label => !label.toList.contains '|') = true := by decide
  refine isTable_tableLines header rfl rule rfl ?_ (List.forall_mem_map.2 fun p mem => ?_) ?_
  · rw [List.forall_mem_cons, List.forall_mem_singleton]
    exact ⟨isRule_of_all (by decide) (by decide), isRule_of_all (by decide) (by decide)⟩
  · rw [List.forall_mem_cons, List.forall_mem_singleton]
    have cell : ∀ c ∈ (listCell p.2).toList, c ≠ '|' :=
      forall_mem_listCell (by simp) (by simp) fun _ _ c _ other => other
    exact ⟨by simpa using List.all_eq_true.1 labels p.1 (label_mem mem), fun bar => cell _ bar rfl⟩
  · exact List.forall_mem_map.2 fun p _ => rfl

/-- The cells of the summary are words. -/
theorem isWord_of_mem_summaryCells (plain : m.IsPlain) :
    ∀ cell ∈ summaryCells m, ∀ c ∈ cell, isWord c = true := by
  rw [summaryCells, List.forall_mem_cons]
  exact ⟨plain.name, List.forall_mem_map.2 fun p _ c => isWord_of_mem_toString⟩

theorem isTable_summaryTable (plain : ∀ m ∈ p.modules, m.IsPlain) :
    IsTable 7 (p.modules.map summaryCells) (summaryTable p) := by
  have header := @isRow_padded (["Module", "Declarations", "Imports", "Exports", "Bootstrap",
    "Providers", "Entry points"].map String.toList) (by decide)
  have rule : IsRow (List.replicate 7 "---".toList)
      "| ---| --- | --- | --- | --- | --- | --- |".toList :=
    @isRow_barred _ (" ---".toList :: List.replicate 6 " --- ".toList) (by decide) (by decide)
      (by decide)
  refine isTable_tableLines header rfl rule rfl ?_ (List.forall_mem_map.2 fun m mem => ?_) ?_
  · intro cell mem
    rw [List.eq_of_mem_replicate mem]
    exact isRule_of_all (by decide) (by decide)
  · intro cell listed bar
    have word := isWord_of_mem_summaryCells (plain m mem) cell listed '|' bar
    exact absurd word (by decide)
  · exact List.forall_mem_map.2 fun m _ => rfl

theorem forall_mem_barred {Q : Char → Prop} {pieces : List (List Char)} (bar : Q '|')
    (h : ∀ piece ∈ pieces, ∀ c ∈ piece, Q c) : ∀ c ∈ barred pieces, Q c := by
  rw [barred, List.forall_mem_cons]
  refine ⟨bar, fun c hc => ?_⟩
  obtain ⟨piece, mem, hc⟩ := List.mem_flatMap.1 hc
  rcases List.mem_append.1 hc with hc | hc
  · exact h piece mem c hc
  · exact List.mem_singleton.1 hc ▸ bar

namespace BreaksLines

variable (hb : BreaksLines breaks)
include hb

theorem unbroken_tableLines {header rule : List Char} {rows : List (List (List Char))}
    (hh : ∀ c ∈ header, breaks c = false) (hr : ∀ c ∈ rule, breaks c = false)
    (cells : ∀ row ∈ rows, ∀ cell ∈ row, ∀ c ∈ cell, breaks c = false) :
    ∀ line ∈ tableLines header rule rows, ∀ c ∈ line, breaks c = false := by
  have space : ∀ c ∈ [' ', '|'], breaks c = false := hb.eq_false_of_all (by decide)
  rw [tableLines, List.forall_mem_cons, List.forall_mem_cons]
  refine ⟨hh, hr, List.forall_mem_map.2 fun row mem => ?_⟩
  refine forall_mem_barred (space _ (by simp)) (List.forall_mem_map.2 fun cell listed => ?_)
  rw [padded, List.forall_mem_cons, List.forall_mem_append, List.forall_mem_singleton]
  exact ⟨space _ (by simp), cells row mem cell listed, space _ (by simp)⟩

theorem unbroken_arrayTable (plain : m.IsPlain) :
    ∀ line ∈ arrayTable m, ∀ c ∈ line, breaks c = false := by
  have labels : arrayLabels.all
      (fun label => label.toList.all fun c => !isBlank c || c == ' ') = true := by decide
  refine hb.unbroken_tableLines (hb.eq_false_of_all (by decide)) (hb.eq_false_of_all (by decide)) ?_
  refine List.forall_mem_map.2 fun p mem => ?_
  rw [List.forall_mem_cons, List.forall_mem_singleton]
  refine ⟨hb.eq_false_of_all (List.all_eq_true.1 labels p.1 (label_mem mem)),
    forall_mem_listCell (hb.eq_false_of_all (by decide)) (hb.eq_false_of_all (by decide)) ?_⟩
  exact fun name listed c hc _ =>
    hb.eq_false_of_onlySpaces (plain.items p.2 (items_mem mem) name listed) c hc

theorem unbroken_summaryTable (plain : ∀ m ∈ p.modules, m.IsPlain) :
    ∀ line ∈ summaryTable p, ∀ c ∈ line, breaks c = false := by
  refine hb.unbroken_tableLines (hb.eq_false_of_all (by decide)) (hb.eq_false_of_all (by decide)) ?_
  refine List.forall_mem_map.2 fun m mem cell listed => ?_
  exact hb.eq_false_of_isWord (isWord_of_mem_summaryCells (plain m mem) cell listed)

theorem unbroken_sectionLines (plain : m.IsPlain) (hf : ∀ c ∈ m.file.toList, breaks c = false) :
    ∀ line ∈ sectionLines m, ∀ c ∈ line, breaks c = false := by
  have nothing : ∀ c ∈ ([] : List Char), breaks c = false := nofun
  simp only [sectionLines, String.toList_append, List.forall_mem_cons,
    List.forall_mem_append]
  exact ⟨⟨hb.eq_false_of_all (by decide), hb.eq_false_of_isWord plain.name⟩, nothing,
    ⟨hb.eq_false_of_all (by decide), hf⟩, nothing, hb.unbroken_arrayTable plain, nothing, nofun⟩

end BreaksLines

/-- The report on modules that were read from files with names of one line: a table with a row for
each module, namely its name and the sizes of its arrays, and a section for each module, with a
table of its six arrays. No element of an array breaks a row or adds a cell, whichever blanks other
than the space are taken for line breaks. -/
theorem lines_modules (hb : BreaksLines breaks)
    (h : ∀ m ∈ p.modules, ∃ file content, (∀ c ∈ file.toList, breaks c = false) ∧
      m ∈ (ParsedFile.ofText file content).modules) :
    ∃ table sections, (modules p).toList.splitOnP breaks =
        headings ++ (table ++ [] :: (sections.flatten ++ [[]])) ∧
      IsTable 7 (p.modules.map summaryCells) table ∧
      List.Forall₂ IsSection p.modules sections := by
  have plain : ∀ m ∈ p.modules, m.IsPlain ∧ ∀ c ∈ m.file.toList, breaks c = false := by
    intro m mem
    obtain ⟨file, content, hf, listed⟩ := h m mem
    obtain ⟨texts, rfl⟩ := Source.isPlain_of_mem_modules listed
    exact ⟨texts, hf⟩
  have unbroken : ∀ line ∈ headings ++
      (summaryTable p ++ [] :: (p.modules.map sectionLines).flatten), ∀ c ∈ line,
      breaks c = false := by
    have title : headings.all (fun line => line.all fun c => !isBlank c || c == ' ') = true := by
      decide
    rw [List.forall_mem_append, List.forall_mem_append, List.forall_mem_cons]
    refine ⟨fun line mem => hb.eq_false_of_all (List.all_eq_true.1 title line mem),
      hb.unbroken_summaryTable fun m mem => (plain m mem).1, nofun, fun line mem => ?_⟩
    obtain ⟨lines, listed, mem⟩ := List.mem_flatten.1 mem
    obtain ⟨m, read, rfl⟩ := List.mem_map.1 listed
    exact hb.unbroken_sectionLines (plain m read).1 (plain m read).2 line mem
  refine ⟨summaryTable p, p.modules.map sectionLines, ?_,
    isTable_summaryTable fun m mem => (plain m mem).1, ?_⟩
  · rw [toList_modules, ended, splitOnP_flatMap hb.lineFeed unbroken]
    simp
  · rw [List.forall₂_map_right_iff, List.forall₂_same]
    exact fun m _ => .intro (isTable_arrayTable m) rfl

/-- A module with bars and with line breaks of several kinds in its arrays. -/
def barredText : List Char :=
  ("@NgModule(\x7b imports: [A |\n B, 'C\u2028D'], providers: [\x7b provide: '|',\r\n " ++
    "useValue: \"\\\" \x7d] \x7d) export class BarModule \x7b\x7d").toList

def barredProject : Project where
  modules := (ParsedFile.ofText "app.ts" barredText).modules

theorem lines_modules_barredProject :
    BreaksLines (fun c => isBlank c && c != ' ') ∧
      (∀ m ∈ barredProject.modules, ∃ file content,
        (∀ c ∈ file.toList, (isBlank c && c != ' ') = false) ∧
          m ∈ (ParsedFile.ofText file content).modules) ∧
      barredProject.modules.map (fun m => (m.name, m.imports, m.providers)) =
        [("BarModule", ["A | B", "'C D'"], ["| provided by \\"])] ∧
      ∃ table sections, (modules barredProject).toList.splitOnP (fun c => isBlank c && c != ' ') =
          headings ++ (table ++ [] :: (sections.flatten ++ [[]])) ∧
        IsTable 7 (barredProject.modules.map summaryCells) table ∧
        List.Forall₂ IsSection barredProject.modules sections := by
  have breaks : BreaksLines (fun c => isBlank c && c != ' ') :=
    ⟨by decide, fun c h => by simpa using h⟩
  have read : ∀ m ∈ barredProject.modules, ∃ file content,
      (∀ c ∈ file.toList, (isBlank c && c != ' ') = false) ∧
        m ∈ (ParsedFile.ofText file content).modules := by
    intro m mem
    simp only [barredProject] at mem
    exact ⟨"app.ts", barredText, by simp [isBlank], mem⟩
  exact ⟨breaks, read, by decide +kernel, lines_modules breaks read⟩

end AngularAtlas.Report
