import FiveStage.Machine.Cycle
import FiveStage.Proofs.Machine.Cycle
import FiveStage.Statistics.Basic

namespace FiveStage

-- An instruction without what is only there to be shown: its id, its text and
-- the line that it comes from.
def Instruction.plain (inst : Instruction) : Instruction :=
  { inst with id := 0, text := "", line := 0 }

def Latch.plain (latch : Latch) : Latch :=
  { latch with instruction := latch.instruction.map Instruction.plain }

def Pipeline.plain (pipeline : Pipeline) : Pipeline where
  fetch := pipeline.fetch.plain
  decode := pipeline.decode.plain
  execute := pipeline.execute.plain
  memory := pipeline.memory.plain
  writeBack := pipeline.writeBack.plain

def Machine.plain (machine : Machine) : Machine :=
  { machine with pipeline := machine.pipeline.plain }

namespace Instruction

variable {α : Type} (inst : Instruction)

@[simp] theorem opcode_plain : inst.plain.opcode = inst.opcode := rfl

@[simp] theorem operands_plain : inst.plain.operands = inst.operands := rfl

theorem readOperand_plain (position : Nat) (read : String → Except Defect α) :
    (inst.plain.readOperand position read).toOption =
      (inst.readOperand position read).toOption := by
  unfold readOperand
  rw [operands_plain]
  cases inst.operands[position]? with
  | none => rfl
  | some token => cases hread : read token <;> simp [hread, Except.toOption]

-- The operands decide what is decoded. The line only shows in a fault.
theorem decode_plain : inst.plain.decode.toOption = inst.decode.toOption := by
  unfold decode
  rw [opcode_plain]
  cases inst.opcode.family <;> simp only [toOption_bind, readOperand_plain]

end Instruction

namespace Latch

variable (latch : Latch)

@[simp] theorem isIdle_plain : latch.plain.isIdle = latch.isIdle := by
  simp [plain, isIdle]

@[simp] theorem decoded_plain : latch.plain.decoded = latch.decoded := rfl

@[simp] theorem signals_plain : latch.plain.signals = latch.signals := rfl

@[simp] theorem result_plain : latch.plain.result = latch.result := rfl

@[simp] theorem address_plain : latch.plain.address = latch.address := rfl

end Latch

namespace Pipeline

variable (pipeline : Pipeline)

theorem latch_plain (stage : Stage) :
    pipeline.plain.latch stage = (pipeline.latch stage).plain := by
  cases stage <;> rfl

theorem resident?_plain :
    pipeline.plain.resident? =
      pipeline.resident?.map fun (stage, latch) => (stage, latch.plain) := by
  simp only [resident?, latch_plain, Latch.isIdle_plain, Option.map_map]
  rfl

end Pipeline

namespace Machine

variable (program : List Instruction) (machine : Machine) (latch : Latch)

theorem fetch_plain :
    (machine.fetch program).plain = machine.plain.fetch (program.map Instruction.plain) := by
  have hslot : machine.plain.nextSlot = machine.nextSlot := rfl
  unfold fetch
  rw [hslot, List.getElem?_map]
  cases program[machine.nextSlot]? with
  | none => rfl
  | some inst => rfl

theorem decode_plain :
    (machine.plain.decode latch.plain).toOption =
      (machine.decode latch).toOption.map plain := by
  unfold decode
  obtain ⟨instruction, decoded, signals, result, address⟩ := latch
  cases instruction with
  | none => rfl
  | some inst =>
    have hdecode := inst.decode_plain
    simp only [Latch.plain, Option.map_some, toOption_bind, hdecode]
    cases inst.decode.toOption with
    | none => rfl
    | some decoded => rfl

theorem execute_plain : (machine.execute latch).plain = machine.plain.execute latch.plain := by
  obtain ⟨instruction, decoded, signals, result, address⟩ := latch
  cases instruction <;> rfl

theorem branchTarget?_plain (flags : Flags) :
    branchTarget? flags latch.plain = branchTarget? flags latch := by
  obtain ⟨instruction, decoded, signals, result, address⟩ := latch
  cases instruction <;> rfl

theorem resolveBranch_plain :
    (machine.resolveBranch latch).plain = machine.plain.resolveBranch latch.plain := by
  unfold resolveBranch
  rw [branchTarget?_plain]
  rfl

theorem accessMemory_plain :
    (machine.accessMemory latch).plain = machine.plain.accessMemory latch.plain := by
  unfold accessMemory
  rw [Latch.address_plain, Latch.signals_plain, Latch.decoded_plain]
  cases latch.address with
  | none => rfl
  | some address =>
    dsimp only
    split
    · rfl
    · split <;> rfl

theorem writeBack_plain :
    (machine.writeBack latch).plain = machine.plain.writeBack latch.plain := by
  unfold writeBack
  rw [Latch.signals_plain, Latch.decoded_plain, Latch.result_plain]
  split
  · split <;> rfl
  · rfl

-- No stage looks at what an instruction is shown by.
theorem cycle_plain :
    (machine.plain.cycle (program.map Instruction.plain)).toOption =
      (machine.cycle program).toOption.map plain := by
  let cleared : Machine := { machine with pipeline := .idle }
  have hresident := machine.pipeline.resident?_plain
  cases hfound : machine.pipeline.resident? with
  | none =>
    rw [hfound, Option.map_none] at hresident
    rw [cycle_of_none hfound, cycle_of_none hresident]
    exact congrArg (some ·.tick) (cleared.fetch_plain program).symm
  | some found =>
    obtain ⟨stage, latch⟩ := found
    rw [hfound, Option.map_some] at hresident
    cases stage with
    | fetch =>
      rw [cycle_of_fetch hfound, cycle_of_fetch hresident, toOption_map, toOption_map]
      have hdecode := congrArg (Option.map tick) (cleared.decode_plain latch)
      rw [Option.map_map] at hdecode ⊢
      exact hdecode
    | decode =>
      rw [cycle_of_decode hfound, cycle_of_decode hresident]
      exact congrArg (some ·.tick) (cleared.execute_plain latch).symm
    | execute =>
      rw [cycle_of_execute hfound, cycle_of_execute hresident]
      exact congrArg (some ·.tick) (cleared.resolveBranch_plain latch).symm
    | memory =>
      rw [cycle_of_memory hfound, cycle_of_memory hresident]
      exact congrArg (some ·.tick) (cleared.accessMemory_plain latch).symm
    | writeBack =>
      rw [cycle_of_writeBack hfound, cycle_of_writeBack hresident]
      exact congrArg (some ·.tick) (cleared.writeBack_plain latch).symm

end Machine

namespace Statistics

theorem observe_plain (statistics : Statistics) (machine : Machine) :
    statistics.observe machine.plain = statistics.observe machine := by
  have hresident := machine.pipeline.resident?_plain
  have hpipeline : machine.plain.pipeline = machine.pipeline.plain := rfl
  have hflags : machine.plain.flags = machine.flags := rfl
  unfold observe
  rw [hpipeline, hresident, hflags]
  cases machine.pipeline.resident? with
  | none => rfl
  | some found =>
    obtain ⟨stage, instruction, decoded, signals, result, address⟩ := found
    cases stage <;> cases instruction <;> rfl

end Statistics

end FiveStage
