import AngularAtlas.Proofs.Settings.Merge

namespace AngularAtlas.Settings

variable {s : Settings} {o : Overrides}

/-- The level of logging is one of those known, in upper or lower case. -/
def HasKnownLevel (s : Settings) : Prop :=
  String.ofList (Text.lower (s.text .logLevel).toList) ∈ logLevels

def IsPath (entry : String) : Prop := ∃ c ∈ entry.toList, c = '/' ∨ c = '\\'

structure Valid (s : Settings) : Prop where
  label : s.maxLabelLength ≠ some 0
  direction : s.text .direction ∈ directions
  level : s.HasKnownLevel
  excludes : ∀ entry ∈ s.excludes, ¬ IsPath entry

theorem find?_path_eq_none_iff :
    (s.excludes.find? fun entry => entry.toList.any fun c => c == '/' || c == '\\') = none ↔
      ∀ entry ∈ s.excludes, ¬ IsPath entry := by
  simp [IsPath]

theorem validate_eq_ok_iff : s.validate = .ok () ↔ s.Valid := by
  simp only [validate, bind, Except.bind, throw, throwThe, MonadExceptOf.throw, pure, Except.pure]
  split
  case isTrue zero => exact ⟨nofun, fun valid => absurd zero valid.label⟩
  case isFalse label =>
    split
    case isTrue unknown =>
      refine ⟨nofun, fun valid => ?_⟩
      simp [valid.direction] at unknown
    case isFalse known =>
      have direction : s.text .direction ∈ directions := by simpa using known
      split
      case isTrue unknown =>
        refine ⟨nofun, fun valid => ?_⟩
        simp [show _ ∈ logLevels from valid.level] at unknown
      case isFalse known =>
        have level : s.HasKnownLevel := by simpa [HasKnownLevel] using known
        split
        next entry found =>
          refine ⟨nofun, fun valid => ?_⟩
          rw [find?_path_eq_none_iff.2 valid.excludes] at found
          cases found
        next found =>
          exact ⟨fun _ => ⟨label, direction, level, find?_path_eq_none_iff.1 found⟩, fun _ => rfl⟩

theorem finish_eq_ok_iff {s' : Settings} :
    s.finish o = .ok s' ↔ s' = s.override o ∧ (s.override o).Valid := by
  rw [finish, ← validate_eq_ok_iff]
  cases valid : (s.override o).validate with
  | error => simp
  | ok => simp [eq_comm]

theorem text_override (s : Settings) (o : Overrides) (key : TextKey) :
    (s.override o).text key = if key = .logLevel then o.logLevel.getD (s.text key)
      else s.text key := by
  cases level : o.logLevel <;> by_cases same : key = .logLevel <;>
    simp [override, level, setText, same]

/-- What the command line does not replace is usable before if it is usable in effect. -/
theorem valid_iff_of_valid_override (valid : (s.override o).Valid) :
    s.Valid ↔ s.maxLabelLength ≠ some 0 ∧ s.HasKnownLevel := by
  refine ⟨fun h => ⟨h.label, h.level⟩, fun h => ⟨h.1, ?_, h.2, fun entry mem => ?_⟩⟩
  · have direction := valid.direction
    rwa [text_override, if_neg (by decide)] at direction
  · refine valid.excludes entry ?_
    rw [excludes_override]
    exact mem_extend.2 (.inl mem)

end AngularAtlas.Settings
