import AngularAtlas.CommandLine.Program
import AngularAtlas.Proofs.Results

namespace AngularAtlas.CommandLine

namespace Run

variable {α β ε : Type} {x : Run α} {next : α → Run β} {a : α} {f : Failure}
  {session after : Session}

theorem run_bind_of_ok (h : x.run session = (.ok a, after)) :
    (x >>= next).run session = (next a).run after := by
  change (ExceptT.bindCont next (x.run session).1).run (x.run session).2 = _
  rw [h]
  rfl

theorem run_bind_of_error (h : x.run session = (.error f, after)) :
    (x >>= next).run session = (.error f, after) := by
  change (ExceptT.bindCont next (x.run session).1).run (x.run session).2 = _
  rw [h]
  rfl

theorem exists_of_run_bind {b : β} (h : (x >>= next).run session = (.ok b, after)) :
    ∃ a middle, x.run session = (.ok a, middle) ∧ (next a).run middle = (.ok b, after) := by
  cases first : x.run session with
  | mk result middle =>
    cases result with
    | ok a => exact ⟨a, middle, rfl, (run_bind_of_ok first).symm.trans h⟩
    | error f =>
      rw [run_bind_of_error first] at h
      cases h

@[simp] theorem run_tree (session : Session) : tree.run session = (.ok session.tree, session) := rfl

@[simp] theorem run_print (text : String) (session : Session) :
    (print text).run session = (.ok (), { session with output := session.output ++ text }) := rfl

theorem run_orFail (failure : ε → Failure) (result : Except ε α) (session : Session) :
    (orFail failure result).run session = (result.mapError failure, session) := by
  cases result <;> rfl

end Run

section Outcomes

variable {env : Environment} {t : FileTree} {i : Invocation} {after : Session} {f : Failure}

theorem outcome_of_ok (ran : (i.run env).run ⟨t, "", ""⟩ = (.ok (), after)) :
    (Request.run i).outcome env t = ⟨0, after⟩ := by
  simp only [Request.outcome, ran]

theorem outcome_of_error (ran : (i.run env).run ⟨t, "", ""⟩ = (.error f, after)) :
    (Request.run i).outcome env t =
      ⟨failureCode, { after with messages := after.messages ++ f.report }⟩ := by
  simp only [Request.outcome, ran]

theorem exists_of_exitCode (succeeded : ((Request.run i).outcome env t).exitCode = 0) :
    ∃ after, (i.run env).run ⟨t, "", ""⟩ = (.ok (), after) := by
  cases ran : (i.run env).run ⟨t, "", ""⟩ with
  | mk result after =>
    cases result with
    | ok => exact ⟨after, rfl⟩
    | error f =>
      rw [outcome_of_error ran] at succeeded
      cases succeeded

end Outcomes

end AngularAtlas.CommandLine
