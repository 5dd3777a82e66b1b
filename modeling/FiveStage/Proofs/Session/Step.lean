import FiveStage.Session.Request

namespace FiveStage.Session

variable {session next : Session} {attempt : Except SessionFault Unit × Session}
  {fault : SessionFault}

theorem settled_eq_ok : settled attempt = .ok next ↔ attempt = (.ok (), next) := by
  obtain ⟨outcome, left⟩ := attempt
  cases outcome <;> simp [settled]

theorem settled_eq_error : settled attempt = .error fault ↔ attempt.1 = .error fault := by
  obtain ⟨outcome, left⟩ := attempt
  cases outcome <;> simp [settled]

section Step

-- All that a step can do: a clean program comes to the next machine.
theorem step_eq_ok :
    session.step = .ok next ↔ session.program.isClean ∧ ∃ machine,
      session.machine.cycle session.program.instructions = .ok machine ∧
        next = session.advanced machine := by
  rw [step, settled_eq_ok]
  unfold tryStep
  cases session.program.isClean with
  | false => simp
  | true =>
    cases session.machine.cycle session.program.instructions with
    | ok machine => simp [eq_comm]
    | error reason => simp

-- All that a step can fail for.
theorem step_eq_error :
    session.step = .error fault ↔
      (session.program.isClean = false ∧
        fault = .programHasErrors session.program.diagnostics.length) ∨
      ∃ reason, session.program.isClean ∧
        session.machine.cycle session.program.instructions = .error reason ∧
          fault = .decode reason := by
  rw [step, settled_eq_error]
  unfold tryStep
  cases session.program.isClean with
  | false => simp [eq_comm]
  | true =>
    cases session.machine.cycle session.program.instructions with
    | ok machine => simp
    | error reason => simp [eq_comm]

theorem tryStep_of_step (h : session.step = .ok next) : session.tryStep = (.ok (), next) :=
  settled_eq_ok.mp h

-- A step that fails leaves everything as it was.
theorem tryStep_of_step_error (h : session.step = .error fault) :
    session.tryStep = (.error fault, session) := by
  unfold tryStep
  obtain ⟨herrors, rfl⟩ | ⟨reason, hclean, hcycle, rfl⟩ := step_eq_error.mp h
  · simp [herrors]
  · simp [hclean, hcycle]

end Step

section Run

variable {budget : Nat}

theorem run_of_isHalted (budget : Nat) (h : session.isHalted) :
    run budget session = (.ok .halted, session) := by
  cases budget <;> simp [run, h]

theorem run_of_step (h : session.isHalted = false) (hstep : session.step = .ok next) :
    run (budget + 1) session = run budget next := by
  simp [run, h, tryStep_of_step hstep]

theorem run_of_step_error (h : session.isHalted = false) (hstep : session.step = .error fault) :
    run (budget + 1) session = (.error fault, session) := by
  simp [run, h, tryStep_of_step_error hstep]

-- What is kept by the steps that a run takes is kept by the run. It takes none
-- from a halt, and a step that fails leaves what was there before.
theorem run_induction {P : Session → Prop}
    (hP : ∀ {session next}, P session → session.isHalted = false → session.step = .ok next → P next)
    (h : P session) (budget : Nat) : P (run budget session).2 := by
  induction budget generalizing session with
  | zero => exact h
  | succ budget ih =>
    cases hhalted : session.isHalted with
    | true =>
      rw [run_of_isHalted _ hhalted]
      exact h
    | false =>
      cases hstep : session.step with
      | ok next =>
        rw [run_of_step hhalted hstep]
        exact ih (hP h hhalted hstep)
      | error fault =>
        rw [run_of_step_error hhalted hstep]
        exact h

end Run

section Open

variable {σ : Type u} [Store σ] {store : σ} {id : Nat}

theorem openSaved_eq_ok : session.openSaved store id = .ok next ↔ ∃ program,
    Store.get store id = .ok program ∧
      next = { session.load program.source with programId := some id } := by
  rw [openSaved, settled_eq_ok]
  unfold tryOpen
  cases Store.get store id <;> simp [eq_comm]

theorem openSaved_eq_error :
    session.openSaved store id = .error fault ↔
      ∃ reason, Store.get store id = .error reason ∧ fault = .store reason := by
  rw [openSaved, settled_eq_error]
  unfold tryOpen
  cases Store.get store id <;> simp [eq_comm]

-- A failure to open leaves everything as it was.
theorem tryOpen_of_openSaved_error (h : session.openSaved store id = .error fault) :
    session.tryOpen store id = (.error fault, session) := by
  obtain ⟨reason, hget, rfl⟩ := openSaved_eq_error.mp h
  rw [tryOpen, hget]

end Open

end FiveStage.Session
