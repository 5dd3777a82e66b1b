import FiveStage.Proofs.Session.Replay
import FiveStage.Store.Shelf

namespace FiveStage.Session

-- A program with diagnostics has not been run.
def Unrun (session : Session) : Prop :=
  session.program.isClean = false → session.machine.clock = 0

namespace Unrun

variable {config : Config} {session next : Session}

theorem load (session : Session) (text : String) : (session.load text).Unrun := fun _ => rfl

theorem reset (session : Session) : session.reset.Unrun := fun _ => rfl

-- Only a clean program makes a step, and it stays the same program.
theorem step (hstep : session.step = .ok next) : next.Unrun := by
  obtain ⟨hclean, machine, -, rfl⟩ := step_eq_ok.mp hstep
  intro herrors
  rw [advanced, hclean] at herrors
  contradiction

-- At clock zero nothing has been recorded yet.
theorem undo? (h : session.Unrun) (hfaithful : session.Faithful config)
    (hundo : session.undo? = some next) : next.Unrun := by
  intro herrors
  obtain ⟨⟨entry, history⟩, hpop, hnext⟩ := Option.map_eq_some_iff.mp hundo
  subst hnext
  have hclock : session.machine.clock = 0 := h herrors
  have hlist := History.pop?_eq_some hpop
  have hage := (hfaithful.recorded 0 entry (by rw [hlist]; rfl)).1
  rw [hclock] at hage
  contradiction

theorem invariant (config : Config) :
    Invariant fun session => session.Faithful config ∧ session.Unrun where
  load text h := ⟨h.1.load text, load _ text⟩
  reset h := ⟨h.1.reset, reset _⟩
  step h hstep := ⟨h.1.step hstep, step hstep⟩
  undo h hundo := ⟨h.1.undo? hundo, h.2.undo? h.1 hundo⟩
  programId id h := ⟨h.1.of_programId id, h.2⟩

theorem performAll {σ : Type u} [Store σ] (config : Config) (requests : List (Request σ)) :
    let session := (start config).performAll requests
    session.Faithful config ∧ session.Unrun :=
  (invariant config).performAll ⟨Faithful.start config, fun _ => rfl⟩ requests

end Unrun

section Refusal

variable {config : Config} {session : Session}

theorem Faithful.machine_eq_reset (h : session.Faithful config)
    (hclock : session.machine.clock = 0) : session.machine = config.resetMachine := by
  have hreplayed := h.replayed
  rw [hclock] at hreplayed
  exact (congrArg Prod.fst (Except.ok.inj hreplayed)).symm

theorem step_of_not_isClean (h : session.program.isClean = false) :
    session.step = .error (.programHasErrors session.program.diagnostics.length) :=
  step_eq_error.mpr (.inl ⟨h, rfl⟩)

-- A run asks first whether anything is left to do.
theorem run_of_not_isClean (h : session.program.isClean = false) {budget : Nat}
    (hbudget : 0 < budget) :
    run budget session =
      (if session.isHalted then .ok .halted
        else .error (.programHasErrors session.program.diagnostics.length), session) := by
  obtain ⟨rest, rfl⟩ := Nat.exists_eq_succ_of_ne_zero (Nat.ne_of_gt hbudget)
  cases hhalted : session.isHalted with
  | true => rw [run_of_isHalted _ hhalted, if_pos rfl]
  | false => rw [run_of_step_error hhalted (step_of_not_isClean h), if_neg Bool.false_ne_true]

theorem isHalted_resetMachine (config : Config) (program : List Instruction) :
    config.resetMachine.isHalted program =
      decide (program.length ≤ config.cpu.startPc.toNat / 4) := by
  rfl

end Refusal

-- A program with diagnostics is never run: the machine stands at its start,
-- and steps and runs are refused and change nothing. A run is not even refused
-- when the instructions that did assemble end before the start address.
theorem performAll_refuses {σ : Type u} [Store σ] (config : Config)
    (requests : List (Request σ)) :
    let session := (start config).performAll requests
    let refusal := SessionFault.programHasErrors session.program.diagnostics.length
    session.program.diagnostics ≠ [] →
      session.machine = config.resetMachine ∧
      session.step = .error refusal ∧ session.perform (.step : Request σ) = session ∧
      ∀ budget > 0, run budget session =
        (if session.program.instructions.length ≤ config.cpu.startPc.toNat / 4 then .ok .halted
          else .error refusal, session) := by
  intro session refusal hdiagnostics
  obtain ⟨hfaithful, hunrun⟩ := Unrun.performAll config requests
  have herrors : session.program.isClean = false := List.isEmpty_eq_false_iff.mpr hdiagnostics
  have hmachine : session.machine = config.resetMachine :=
    hfaithful.machine_eq_reset (hunrun herrors)
  have hstep : session.step = .error refusal := step_of_not_isClean herrors
  refine ⟨hmachine, hstep, ?_, fun budget hbudget => ?_⟩
  · rw [perform, tryStep_of_step_error hstep]
  · rw [run_of_not_isClean herrors hbudget, isHalted, hmachine, isHalted_resetMachine]
    simp only [decide_eq_true_eq]
    rfl

-- A run that comes between leaves nothing to undo.
private def broken : List (Request DatedShelf) :=
  [.load "MOV R0, #1\nNOPE R0", .step, .run 5, .undo]

theorem performAll_refuses_broken :
    let session := (start {}).performAll broken
    session.program.instructions.length = 1 ∧ session.machine.clock = 0 ∧
      session.step = .error (.programHasErrors 1) ∧
      run 3 session = (.error (.programHasErrors 1), session) := by
  intro session
  have hcount : session.program.diagnostics.length = 1 := by decide +kernel
  have hlength : session.program.instructions.length = 1 := by decide +kernel
  have hdiagnostics : session.program.diagnostics ≠ [] := by
    intro hempty
    rw [hempty] at hcount
    contradiction
  obtain ⟨hmachine, hstep, -, hrun⟩ := performAll_refuses {} broken hdiagnostics
  have hrefused := hrun 3 (by decide)
  rw [if_neg (by rw [hlength]; decide)] at hrefused
  rw [hcount] at hstep hrefused
  exact ⟨hlength, by rw [hmachine]; rfl, hstep, hrefused⟩

-- Nothing of this text assembles, so a run of it is over before it is refused.
theorem not_performAll_refuses_every_run :
    ¬ ∀ (config : Config) (requests : List (Request DatedShelf)) (budget : Nat),
      let session := (start config).performAll requests
      let refusal := SessionFault.programHasErrors session.program.diagnostics.length
      session.program.diagnostics ≠ [] → 0 < budget →
        session.step = .error refusal ∧ session.perform (.step : Request DatedShelf) = session ∧
        run budget session = (.error refusal, session) := by
  intro hrefuses
  obtain ⟨-, -, hrun⟩ := hrefuses {} [.load "NOPE"] 1 (by decide +kernel) (by decide)
  have hhalted : (run 1 ((start {}).performAll ([.load "NOPE"] : List (Request DatedShelf)))).1 =
      .ok .halted := by decide +kernel
  rw [hrun] at hhalted
  contradiction

end FiveStage.Session
