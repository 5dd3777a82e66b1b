import FiveStage.Proofs.Machine.Residence
import FiveStage.Proofs.Session.Replay
import FiveStage.Store.Shelf

namespace FiveStage.Session

namespace Faithful

variable {config : Config} {session next : Session}

theorem coherent (h : session.Faithful config) :
    Machine.Coherent session.program.instructions session.machine :=
  have hreset : Machine.Coherent session.program.instructions config.resetMachine := .idle rfl
  hreset.cycles (replay_eq_ok h.replayed).1

theorem exists_decode (h : session.Faithful config) {inst : Instruction}
    (hmem : inst ∈ session.program.instructions) : ∃ decoded, inst.decode = .ok decoded := by
  obtain ⟨firstId, hprogram⟩ := h.program_eq
  rw [hprogram] at hmem
  exact Assembly.exists_decode_of_mem_instructions hmem

-- The instruction that would fault is one of the program, and those decode.
theorem step_ne_decode (h : session.Faithful config) (fault : DecodeFault) :
    session.step ≠ .error (.decode fault) := by
  intro hstep
  obtain ⟨-, hfault⟩ | ⟨reason, -, hcycle, -⟩ := step_eq_error.mp hstep
  · contradiction
  · obtain ⟨inst, hmem, -, hfault⟩ := h.coherent.exists_mem_of_cycle_eq_error hcycle
    obtain ⟨decoded, hdecode⟩ := h.exists_decode hmem
    rw [hdecode] at hfault
    contradiction

theorem run_ne_decode (h : session.Faithful config) (budget : Nat) (fault : DecodeFault) :
    (Session.run budget session).1 ≠ .error (.decode fault) := by
  induction budget generalizing session with
  | zero =>
    intro hrun
    contradiction
  | succ budget ih =>
    intro hrun
    cases hhalted : session.isHalted with
    | true =>
      rw [run_of_isHalted _ hhalted] at hrun
      contradiction
    | false =>
      cases hstep : session.step with
      | ok next =>
        rw [run_of_step hhalted hstep] at hrun
        exact ih (h.step hstep) hrun
      | error other =>
        rw [run_of_step_error hhalted hstep] at hrun
        cases hrun
        exact h.step_ne_decode fault hstep

end Faithful

-- No session comes upon an instruction that cannot be decoded.
theorem performAll_decodes {σ : Type u} [Store σ] (config : Config)
    (requests : List (Request σ)) :
    let session := (start config).performAll requests
    (∀ fault, session.step ≠ .error (.decode fault)) ∧
      (∀ budget fault, (run budget session).1 ≠ .error (.decode fault)) ∧
      ∀ inst, session.machine.pipeline.fetch.instruction = some inst →
        ∃ decoded, inst.decode = .ok decoded := by
  intro session
  have hfaithful : session.Faithful config := (Faithful.start config).performAll requests
  refine ⟨hfaithful.step_ne_decode, hfaithful.run_ne_decode, fun inst hfetch => ?_⟩
  exact hfaithful.exists_decode (hfaithful.coherent.mem_of_fetch hfetch)

-- An open that fails leaves the loop where it is.
private def looping : List (Request DatedShelf) :=
  [.load "again: MOV R0, #1\n  B again\n", .run 6, .openSaved {} 1, .step, .undo, .step]

theorem performAll_decodes_looping : ∃ inst decoded,
    ((start {}).performAll looping).machine.pipeline.fetch.instruction = some inst ∧
      inst.opcode = .b ∧ inst.decode = .ok decoded := by
  have hfetch : ((start {}).performAll looping).machine.pipeline.fetch.instruction.map
      Instruction.opcode = some .b := by decide +kernel
  obtain ⟨inst, hinst, hopcode⟩ := Option.map_eq_some_iff.mp hfetch
  obtain ⟨-, -, hdecodes⟩ := performAll_decodes {} looping
  obtain ⟨decoded, hdecode⟩ := hdecodes inst hinst
  exact ⟨inst, decoded, hinst, hopcode, hdecode⟩

end FiveStage.Session
