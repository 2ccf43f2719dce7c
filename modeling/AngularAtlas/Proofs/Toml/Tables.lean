import AngularAtlas.Proofs.Toml.Statements
import AngularAtlas.Table
import AngularAtlas.Toml.Document

namespace AngularAtlas.Toml

variable {path : List String} {put : Entries → Entries} {entries : Entries} {name : String}
  {value : Value} {said more : List Statement} {d d' d'' : Draft}

theorem within_append (change : Entries → Option Entries) (path more : List String)
    (entries : Entries) :
    within change (path ++ more) entries = within (within change more) path entries := by
  induction path generalizing entries with
  | nil => rfl
  | cons key path ih =>
    rw [List.cons_append, within, within]
    simp only [ih]

/-- The table under a path of headers is put into the other entries, and is what is changed under
this path. -/
def Focus (path : List String) (put : Entries → Entries) : Prop :=
  ∀ change entries, within change path (put entries) = (change entries).map put

theorem focus_root : Focus [] id := by
  intro change entries
  rw [Option.map_id]
  rfl

/-- A name that is not there is not replaced. -/
theorem map_replace_of_lookup (new : entries.lookup name = none) (value : Value) :
    (entries.map fun entry =>
      if entry.1 = name then (entry.1, value) else (entry.1, entry.2)) = entries := by
  rw [List.lookup_eq_none_iff] at new
  conv_rhs => rw [← List.map_id entries]
  refine List.map_congr_left fun entry mem => if_neg ?_
  rintro rfl
  simpa using new entry mem

theorem Focus.child (focus : Focus path put) (new : entries.lookup name = none) :
    Focus (path ++ [name]) fun sub => put (entries ++ [(name, .table .header sub)]) := by
  intro change sub
  have found : (entries ++ [(name, Value.table .header sub)]).lookup name =
      some (.table .header sub) := by
    rw [List.lookup_append, new]
    simp
  rw [within_append, focus, within, found]
  cases changed : change sub with
  | none => simp [within, changed]
  | some sub' => simp [within, changed, map_replace_of_lookup new]

/-- Statements turn a draft into another one. -/
def Runs (said : List Statement) (d d' : Draft) : Prop := said.foldlM Draft.add d = some d'

theorem Runs.append (h : Runs said d d') (h' : Runs more d' d'') : Runs (said ++ more) d d'' := by
  rw [Runs, List.foldlM_append, h]
  exact h'

theorem Focus.runs_assignment (focus : Focus path put) (new : entries.lookup name = none)
    (value : Value) :
    Runs [.assignment [name] value] ⟨put entries, path⟩
      ⟨put (entries ++ [(name, value)]), path⟩ := by
  have added : assign value [name] entries = some (entries ++ [(name, value)]) := by
    simp [assign, new]
  simp [Runs, Draft.add, focus _ entries, added]

theorem Focus.runs_table (focus : Focus path put) (new : entries.lookup name = none)
    (header : List String) :
    Runs [.table (path ++ [name])] ⟨put entries, header⟩
      ⟨put (entries ++ [(name, .table .header [])]), path ++ [name]⟩ := by
  have started : startTable name entries = some (entries ++ [(name, .table .header [])]) := by
    simp [startTable, new]
  simp [Runs, Draft.add, focus _ entries, started]

theorem ofStatements?_of_runs {entries : Entries} {header : List String}
    (h : Runs said ⟨[], []⟩ ⟨entries, header⟩) : ofStatements? said = some entries := by
  have same : said.foldlM Draft.add {} = some ⟨entries, header⟩ := h
  rw [ofStatements?, same]
  rfl

/-- Texts with blank lines between them are read one by one. -/
theorem says_intercalate {texts : List String} {each : List (List Statement)}
    (h : List.Forall₂ (fun text said => Says text.toList said) texts each) :
    Says ("\n".intercalate texts).toList each.flatten := by
  induction h with
  | nil => exact says_nil
  | @cons text said texts each here later ih =>
    cases later with
    | nil => simpa using here
    | @cons next said' texts each _ _ =>
      have lines := here.append (says_newline.append ih)
      simpa [String.intercalate_cons_cons] using lines

/-- No statement starts with a byte order mark. -/
theorem statements?_mark (r : List Char) : statements? ('\ufeff' :: r) = none := by
  have start : IsStart '\ufeff' := by decide
  have noKey : dottedKeys? ('\ufeff' :: r) = none := by
    have plain : isKeyChar '\ufeff' = false := by decide
    rw [dottedKeys?, skipSpaces_cons start.1]
    simp [key?, plain]
  have noStatement : statement? ('\ufeff' :: r) = none := by
    simp [statement?, keyPath?, noKey]
  have noLine : line? ('\ufeff' :: r) = none := by
    rw [line?, start.lineEnd?_eq_none, skipSpaces_cons start.1]
    simp [noStatement]
  rw [statements?, if_neg (List.cons_ne_nil _ _), noLine]

theorem document?_of_statements? {text : String} (read : statements? text.toList = some said) :
    document? text = ofStatements? said := by
  rw [document?]
  split
  · next mark =>
    rw [mark, statements?_mark] at read
    cases read
  · rw [read]
    rfl

end AngularAtlas.Toml
