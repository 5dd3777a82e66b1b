import FiveStage.Proofs.Session.Step

namespace FiveStage.Session

section Saved

-- Saving and deleting change nothing of a session but the saved program that
-- its text belongs to.
variable {σ : Type u} [Store σ] (session : Session) (store : σ)

theorem exists_saveNew (title : String) :
    ∃ id, (session.saveNew store title).2.1 = { session with programId := id } := by
  unfold saveNew
  split
  · exact ⟨_, rfl⟩
  · exact ⟨session.programId, rfl⟩

theorem exists_save (title : String) :
    ∃ id, (session.save store title).2.1 = { session with programId := id } := by
  unfold save
  split
  · exact exists_saveNew session store title
  · dsimp only
    split
    · exact ⟨session.programId, rfl⟩
    · exact exists_saveNew { session with programId := none } _ title
    · exact ⟨session.programId, rfl⟩

theorem exists_deleteSaved (id : Nat) :
    ∃ kept, (session.deleteSaved store id).2.1 = { session with programId := kept } := by
  unfold deleteSaved
  split
  · exact ⟨session.programId, rfl⟩
  · exact ⟨_, rfl⟩

end Saved

-- What is kept by each of the changes that requests are made of.
structure Invariant (P : Session → Prop) : Prop where
  load : ∀ {session} (text : String), P session → P (session.load text)
  reset : ∀ {session}, P session → P session.reset
  step : ∀ {session next}, P session → session.step = .ok next → P next
  undo : ∀ {session next}, P session → session.undo? = some next → P next
  programId : ∀ {session} (id : Option Nat), P session → P { session with programId := id }

namespace Invariant

variable {P : Session → Prop} {session : Session}

theorem run (hP : Invariant P) (h : P session) (budget : Nat) :
    P (Session.run budget session).2 :=
  run_induction (fun h _ hstep => hP.step h hstep) h budget

variable {σ : Type u} [Store σ]

theorem openSaved (hP : Invariant P) (h : P session) {store : σ} {id : Nat} {next : Session}
    (hopen : session.openSaved store id = .ok next) : P next := by
  obtain ⟨program, -, rfl⟩ := openSaved_eq_ok.mp hopen
  exact hP.programId (some id) (hP.load program.source h)

theorem perform (hP : Invariant P) (h : P session) (request : Request σ) :
    P (session.perform request) := by
  cases request with
  | load text => exact hP.load text h
  | reset => exact hP.reset h
  | step =>
    rw [Session.perform]
    cases hstep : session.step with
    | ok next =>
      rw [tryStep_of_step hstep]
      exact hP.step h hstep
    | error fault =>
      rw [tryStep_of_step_error hstep]
      exact h
  | run budget => exact hP.run h budget
  | undo =>
    rw [Session.perform]
    cases hundo : session.undo? with
    | some next => exact hP.undo h hundo
    | none => exact h
  | save store title =>
    obtain ⟨id, hsaved⟩ := exists_save session store title
    rw [Session.perform, hsaved]
    exact hP.programId id h
  | openSaved store id =>
    rw [Session.perform]
    cases hopen : session.openSaved store id with
    | ok next =>
      rw [settled_eq_ok.mp hopen]
      exact hP.openSaved h hopen
    | error fault =>
      rw [tryOpen_of_openSaved_error hopen]
      exact h
  | deleteSaved store id =>
    obtain ⟨kept, hdeleted⟩ := exists_deleteSaved session store id
    rw [Session.perform, hdeleted]
    exact hP.programId kept h

-- It holds after any number of requests if it holds before them.
theorem performAll (hP : Invariant P) (h : P session) (requests : List (Request σ)) :
    P (session.performAll requests) := by
  induction requests generalizing session with
  | nil => exact h
  | cons request requests ih => exact ih (hP.perform h request)

end Invariant

end FiveStage.Session
