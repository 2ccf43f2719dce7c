namespace AngularAtlas

variable {α β ε δ : Type} {result : Except ε α} {a : α} {l : List α}

theorem ok_bind (a : α) (next : α → Except ε β) : (Except.ok a >>= next) = next a := rfl

theorem exists_of_bind_eq_ok {next : α → Except ε β} {b : β} (h : (result >>= next) = .ok b) :
    ∃ a, result = .ok a ∧ next a = .ok b := by
  cases result with
  | ok a => exact ⟨a, rfl, h⟩
  | error => cases h

theorem bind_eq_error_iff {next : α → Except ε β} {e : ε} : (result >>= next) = .error e ↔
    result = .error e ∨ ∃ a, result = .ok a ∧ next a = .error e := by
  cases result with
  | ok a =>
    rw [ok_bind]
    exact ⟨fun h => .inr ⟨a, rfl, h⟩, fun
      | .inr ⟨_, same, h⟩ => Except.ok.inj same ▸ h⟩
  | error other =>
    constructor
    · intro h
      obtain rfl := Except.error.inj h
      exact .inl rfl
    · rintro (h | ⟨_, ⟨⟩, -⟩)
      obtain rfl := Except.error.inj h
      rfl

/-- A step that never fails has a result. -/
theorem exists_eq_ok_iff : (∃ a, result = .ok a) ↔ ∀ e, result ≠ .error e := by
  cases result <;> simp

theorem eq_ok_of_mapError {f : ε → δ} (h : result.mapError f = .ok a) : result = .ok a := by
  cases result with
  | ok b =>
    obtain rfl := Except.ok.inj h
    rfl
  | error => cases h

theorem mapM_eq_ok {step : α → Except ε β} {f : α → β} (h : ∀ a ∈ l, step a = .ok (f a)) :
    l.mapM step = .ok (l.map f) := by
  induction l with
  | nil => rfl
  | cons a l ih =>
    obtain ⟨first, later⟩ := List.forall_mem_cons.1 h
    rw [List.mapM_cons, first, ih later]
    rfl

/-- The first step that fails is the one that tells what is wrong. -/
theorem mapM_eq_error_iff {step : α → Except ε β} {e : ε} : l.mapM step = .error e ↔
    ∃ front a back, l = front ++ a :: back ∧ step a = .error e ∧
      ∀ b ∈ front, ∃ c, step b = .ok c := by
  induction l with
  | nil => exact ⟨nofun, fun ⟨_, _, _, he, _⟩ => by simp at he⟩
  | cons b l ih =>
    rw [List.mapM_cons, bind_eq_error_iff]
    constructor
    · rintro (failed | ⟨c, passed, later⟩)
      · exact ⟨[], b, l, rfl, failed, nofun⟩
      · obtain later | ⟨_, -, ⟨⟩⟩ := bind_eq_error_iff.1 later
        obtain ⟨front, a, back, rfl, failed, before⟩ := ih.1 later
        exact ⟨b :: front, a, back, rfl, failed, List.forall_mem_cons.2 ⟨⟨c, passed⟩, before⟩⟩
    · rintro ⟨_ | ⟨_, front⟩, a, back, he, failed, before⟩
      · obtain ⟨rfl, rfl⟩ := List.cons.inj he
        exact .inl failed
      · obtain ⟨rfl, rfl⟩ := List.cons.inj he
        obtain ⟨⟨c, passed⟩, before⟩ := List.forall_mem_cons.1 before
        refine .inr ⟨c, passed, bind_eq_error_iff.2 (.inl ?_)⟩
        exact ih.2 ⟨front, a, back, rfl, failed, before⟩

theorem exists_mapM_eq_error_iff {step : α → Except ε β} :
    (∃ e, l.mapM step = .error e) ↔ ∃ a ∈ l, ∃ e, step a = .error e := by
  constructor
  · rintro ⟨e, h⟩
    obtain ⟨front, a, back, rfl, failed, -⟩ := mapM_eq_error_iff.1 h
    exact ⟨a, by simp, e, failed⟩
  · rintro ⟨a, mem, e, failed⟩
    induction l with
    | nil => cases mem
    | cons b l ih =>
      rw [List.mapM_cons]
      cases first : step b with
      | error other => exact ⟨other, rfl⟩
      | ok c =>
        rcases List.mem_cons.1 mem with rfl | mem
        · exact nomatch first.symm.trans failed
        · obtain ⟨other, later⟩ := ih mem
          exact ⟨other, by rw [later]; rfl⟩

theorem filterMapM_eq_ok {step : α → Except ε (Option β)} {f : α → Option β}
    (h : ∀ a ∈ l, step a = .ok (f a)) : l.filterMapM step = .ok (l.filterMap f) := by
  induction l with
  | nil => rfl
  | cons a l ih =>
    obtain ⟨first, later⟩ := List.forall_mem_cons.1 h
    rw [List.filterMapM_cons, first, ok_bind, List.filterMap_cons, ih later]
    cases f a <;> rfl

theorem foldlM_eq_ok {step : β → α → Except ε β} {f : β → α → β}
    (h : ∀ b a, step b a = .ok (f b a)) (l : List α) (b : β) :
    l.foldlM step b = .ok (l.foldl f b) := by
  induction l generalizing b with
  | nil => rfl
  | cons a l ih => rw [List.foldlM_cons, h, ok_bind, ih, List.foldl_cons]

theorem run_lift_bind (a : α) (next : α → ExceptT ε (Except δ) β) :
    (liftM (Except.ok a : Except δ α) >>= next).run = (next a).run := rfl

/-- Steps that fail in their own way only go on as if there were no other way to fail. -/
theorem run_bind_eq_ok {x : ExceptT ε (Except δ) α} {next : α → ExceptT ε (Except δ) β}
    {f : α → Except ε β} (first : x.run = .ok result)
    (later : ∀ a, result = .ok a → (next a).run = .ok (f a)) :
    (x >>= next).run = .ok (result >>= f) := by
  rw [ExceptT.run_bind, first, ok_bind]
  cases result with
  | error e => rfl
  | ok a => exact later a rfl

end AngularAtlas
