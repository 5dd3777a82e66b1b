import FiveStage.Proofs.Assembly.Reformatting
import FiveStage.Session.Request
import FiveStage.Store.Shelf

namespace FiveStage.Session

-- Sessions that go on alike: their programs and machines differ at most in
-- what instructions are shown by.
structure Alike (session twin : Session) : Prop where
  instructions : session.program.instructions.map Instruction.plain =
    twin.program.instructions.map Instruction.plain
  isClean : session.program.isClean = twin.program.isClean
  machine : session.machine.plain = twin.machine.plain
  statistics : session.statistics = twin.statistics

theorem tryStep_left (session : Session) :
    session.tryStep.2 =
      if session.program.isClean then
        ((session.machine.cycle session.program.instructions).toOption.map session.advanced).getD
          session
      else session := by
  unfold tryStep
  split
  · cases session.machine.cycle session.program.instructions <;> rfl
  · rfl

namespace Alike

variable {session twin : Session} {σ : Type u} [Store σ]

theorem observe (h : session.Alike twin) :
    session.statistics.observe session.machine = twin.statistics.observe twin.machine := by
  rw [← Statistics.observe_plain, h.statistics, h.machine, Statistics.observe_plain]

theorem cycle (h : session.Alike twin) :
    (session.machine.cycle session.program.instructions).toOption.map Machine.plain =
      (twin.machine.cycle twin.program.instructions).toOption.map Machine.plain := by
  rw [← Machine.cycle_plain, h.machine, h.instructions, Machine.cycle_plain]

-- A step is carried out by both or by neither.
theorem perform_step (h : session.Alike twin) :
    (session.perform (.step : Request σ)).Alike (twin.perform (.step : Request σ)) := by
  have hcycle := h.cycle
  rw [perform, perform, tryStep_left, tryStep_left, h.isClean]
  split
  · cases hnext : (session.machine.cycle session.program.instructions).toOption with
    | none =>
      rw [hnext, Option.map_none, eq_comm, Option.map_eq_none_iff] at hcycle
      rw [hcycle]
      exact h
    | some next =>
      rw [hnext, Option.map_some, eq_comm, Option.map_eq_some_iff] at hcycle
      obtain ⟨follower, hfollower, hplain⟩ := hcycle
      rw [hfollower]
      exact ⟨h.instructions, h.isClean, hplain.symm, h.observe⟩
  · exact h

theorem performAll_steps (σ : Type u) [Store σ] (h : session.Alike twin) (n : Nat) :
    (session.performAll (List.replicate n (.step : Request σ))).Alike
      (twin.performAll (List.replicate n (.step : Request σ))) := by
  induction n generalizing session twin with
  | zero => exact h
  | succ n ih => exact ih (perform_step h)

end Alike

section Load

variable {first second : String} {session twin : Session}

theorem program_load_alike
    (h : SourceLine.contents (SourceLine.ofText first) =
      SourceLine.contents (SourceLine.ofText second))
    (hconfig : session.config = twin.config) :
    (session.load first).program.instructions.map Instruction.plain =
        (twin.load second).program.instructions.map Instruction.plain ∧
      (session.load first).program.diagnostics.map (·.defect.shape) =
        (twin.load second).program.diagnostics.map (·.defect.shape) := by
  have hfirst : (session.load first).program =
      Assembly.ofText twin.config.redefinition session.nextInstruction first := by
    rw [← hconfig]
    rfl
  rw [hfirst]
  exact Assembly.ofText_alike h twin.config.redefinition _ _

theorem load_alike
    (h : SourceLine.contents (SourceLine.ofText first) =
      SourceLine.contents (SourceLine.ofText second))
    (hconfig : session.config = twin.config) :
    (session.load first).Alike (twin.load second) := by
  obtain ⟨hinstructions, hdefects⟩ := program_load_alike h hconfig
  have hcount := congrArg List.length hdefects
  rw [List.length_map, List.length_map] at hcount
  have hreset : (session.load first).machine = (twin.load second).machine :=
    congrArg Config.resetMachine hconfig
  constructor
  · exact hinstructions
  · rw [Assembly.isClean, Assembly.isClean, Bool.eq_iff_iff, List.isEmpty_iff_length_eq_zero,
      List.isEmpty_iff_length_eq_zero, hcount]
  · rw [hreset]
  · rfl

end Load

-- How a program is written does not change what it computes: not its comments
-- and blank lines, the separators between its tokens, nor the case of its
-- mnemonics.
theorem load_reformatted (σ : Type u) [Store σ] {first second : String}
    (h : SourceLine.contents (SourceLine.ofText first) =
      SourceLine.contents (SourceLine.ofText second))
    {session twin : Session} (hconfig : session.config = twin.config) :
    (session.load first).program.instructions.map Instruction.plain =
        (twin.load second).program.instructions.map Instruction.plain ∧
      (session.load first).program.diagnostics.map (·.defect.shape) =
        (twin.load second).program.diagnostics.map (·.defect.shape) ∧
      ∀ n, let stepped := (session.load first).performAll (List.replicate n (.step : Request σ))
        let follower := (twin.load second).performAll (List.replicate n (.step : Request σ))
        stepped.machine.plain = follower.machine.plain ∧
          stepped.statistics = follower.statistics := by
  obtain ⟨hinstructions, hdefects⟩ := program_load_alike h hconfig
  refine ⟨hinstructions, hdefects, fun n => ?_⟩
  have hsteps := (load_alike h hconfig).performAll_steps σ n
  exact ⟨hsteps.machine, hsteps.statistics⟩

-- A loop, and the same with an empty label, a comment and a blank line.
private def terse : String :=
  "MOV R0, #1\nn: SUB R0, R0, #1\nBEQ n"

private def wordy : String :=
  ": mov R0 #1\n\n n :Sub R0 ,, R0, #1 @ again: n\r\n  beq,n"

theorem load_reformatted_wordy :
    SourceLine.contents (SourceLine.ofText terse) =
        SourceLine.contents (SourceLine.ofText wordy) ∧
      let steps := List.replicate 8 (.step : Request DatedShelf)
      let stepped := ((start {}).load terse).performAll steps
      let follower := ((start {}).load wordy).performAll steps
      stepped.machine.clock = 8 ∧ stepped.machine ≠ follower.machine ∧
        stepped.machine.plain = follower.machine.plain := by
  have hcontents : SourceLine.contents (SourceLine.ofText terse) =
      SourceLine.contents (SourceLine.ofText wordy) := by decide +kernel
  have hconfig : (start {}).config = (start {}).config := rfl
  obtain ⟨-, -, hsteps⟩ := load_reformatted DatedShelf hcontents hconfig
  obtain ⟨hmachine, -⟩ := hsteps 8
  exact ⟨hcontents, by decide +kernel, by decide +kernel, hmachine⟩

end FiveStage.Session
