import AngularAtlas.Proofs.CommandLine.Origins

namespace AngularAtlas.CommandLine

open Run

variable {env : Environment} {options : CommonOptions} {t : FileTree} {task : Task}

/-- The command that asks for the value under a dotted name. -/
def getInvocation (options : CommonOptions) (key : String) (asJson : Bool) : Invocation :=
  ⟨.settings (.get key asJson), options⟩

def getOutcome (env : Environment) (options : CommonOptions) (key : String) (asJson : Bool)
    (t : FileTree) : Outcome :=
  (Request.run (getInvocation options key asJson)).outcome env t

theorem run_getInvocation (env : Environment) (options : CommonOptions) (key : String)
    (asJson : Bool) : (getInvocation options key asJson).run env =
      getSetting env options key asJson := rfl

/-- The line or lines that show a value. -/
def shownLines (asJson : Bool) (value : Json) : String :=
  (if asJson then value.pretty else shownValue value) ++ "\n"

def unknownKey (key : String) : Failure := ⟨"Unknown configuration key: " ++ key, []⟩

/-- What a dotted name leads to in the settings in effect is shown, or that it leads nowhere. -/
theorem getOutcome_eq (starts : Starts env options t task) (key : String) (asJson : Bool) :
    getOutcome env options key asJson t =
      match task.settings.json.sorted.lookup? key with
      | some value => ⟨0, ⟨t, shownLines asJson value, ""⟩⟩
      | none => ⟨failureCode, ⟨t, "", (unknownKey key).report⟩⟩ := by
  obtain ⟨located, loaded⟩ := starts.steps
  cases found : task.settings.json.sorted.lookup? key with
  | none =>
    have ran : ((getInvocation options key asJson).run env).run ⟨t, "", ""⟩ =
        (.error (unknownKey key), ⟨t, "", ""⟩) := by
      rw [run_getInvocation, getSetting, run_bind_of_ok located, run_bind_of_ok loaded, found]
      rfl
    rw [getOutcome, outcome_of_error ran, String.empty_append]
  | some value =>
    have ran : ((getInvocation options key asJson).run env).run ⟨t, "", ""⟩ =
        (.ok (), ⟨t, shownLines asJson value, ""⟩) := by
      rw [run_getInvocation, getSetting, run_bind_of_ok located, run_bind_of_ok loaded, found]
      cases asJson with
      | true =>
        change (print (value.pretty ++ "\n")).run _ = _
        rw [run_print, String.empty_append, shownLines, if_pos rfl]
      | false =>
        change (print (shownValue value ++ "\n")).run _ = _
        rw [run_print, String.empty_append, shownLines, if_neg Bool.false_ne_true]
    exact outcome_of_ok ran

/-- The listing of an object with plain names has each of its leaves once, under the dotted name
that leads to it, and no other dotted name leads to a leaf. Asking for a setting follows its dotted
name in the same way. -/
theorem listsLeaves_getOutcome {v : Json} (proper : v.Proper) (object : ¬ v.IsLeaf) :
    v.ListsLeaves v.leaves ∧
      ∀ (env : Environment) (options : CommonOptions) (t : FileTree) (task : Task) (key : String)
        (asJson : Bool), Starts env options t task →
        getOutcome env options key asJson t =
          match task.settings.json.sorted.lookup? key with
          | some value => ⟨0, ⟨t, shownLines asJson value, ""⟩⟩
          | none => ⟨failureCode, ⟨t, "", (unknownKey key).report⟩⟩ :=
  ⟨proper.listsLeaves object, fun _ _ _ _ key asJson starts => getOutcome_eq starts key asJson⟩

/-- An object with fields at different depths, one of them empty. -/
def nestedObject : Json :=
  .object [("graph", .object [("colors", .object [("root", .text "red")]), ("shapes", .object [])]),
    ("level", .null)]

theorem proper_nestedObject : nestedObject.Proper := by
  have red : (Json.text "red").Proper := .leaf trivial
  have null : Json.null.Proper := .leaf trivial
  simp [nestedObject, Json.proper_object_iff, Json.IsPlainName, red, null]

theorem listsLeaves_getOutcome_nestedObject :
    nestedObject.Proper ∧ ¬ nestedObject.IsLeaf ∧
      nestedObject.ListsLeaves [("graph.colors.root", .text "red"), ("level", .null)] ∧
      getOutcome homeEnvironment workspaceOptions "logging.level" false UserSettings.quietTree =
        ⟨0, ⟨UserSettings.quietTree, "debug\n", ""⟩⟩ := by
  obtain ⟨lists, gets⟩ := listsLeaves_getOutcome proper_nestedObject id
  have level : (Settings.json ((Settings.combine quietFiles).override
      workspaceOptions.overrides)).sorted.lookup? "logging.level" = some (.text "debug") := rfl
  refine ⟨proper_nestedObject, id, lists, ?_⟩
  rw [gets _ _ _ _ _ _ starts_quietTree, level]
  rfl

end AngularAtlas.CommandLine
