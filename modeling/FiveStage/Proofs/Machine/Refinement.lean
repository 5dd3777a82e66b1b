import FiveStage.Machine.Sequential
import FiveStage.Proofs.Instruction.Decoding
import FiveStage.Proofs.Machine.Cycle

namespace FiveStage

-- The comparison of two words, said of the words and not of their difference.
theorem Flags.compare_eq (flags : Flags) (a b : Int32) :
    flags.compare a b = { flags with n := (a - b).toBitVec.msb, z := a = b } := by
  have hn : decide (a - b < 0) = (a - b).toBitVec.msb := by
    rw [← BitVec.slt_zero_eq_msb]
    exact Bool.decide_coe _
  have hz : a - b = 0 ↔ a = b := by rw [Int32.sub_eq_iff_eq_add, Int32.zero_add]
  simp only [compare, hn, hz]

namespace Architecture

section Outcome

-- Each stage brings about one part of the outcome of an instruction, so each
-- part is stated in the terms of its stage.
variable {op : Opcode} {decoded : OperandFields} (moved : Architecture)

-- What an instruction makes of the state that has moved on to the next one.
def outcome (op : Opcode) (decoded : OperandFields) (moved : Architecture) : Architecture :=
  moved.perform (effect op decoded moved.registers moved.memory moved.flags)

-- The word that an instruction has for its destination.
def committed (op : Opcode) (decoded : OperandFields) (moved : Architecture) : Int32 :=
  if op.signals.memRead then moved.memory.read (second moved.registers decoded).toUInt32
  else op.signals.aluOperation.apply (source moved.registers decoded.source1)
    (second moved.registers decoded)

theorem perform_setDestination (value : Int32) :
    moved.perform (setDestination decoded value) =
      { moved with
        registers := match decoded.destination with
          | some destination =>
            if destination = .pc then moved.registers
            else moved.registers.write destination value
          | none => moved.registers } := by
  unfold setDestination
  cases decoded.destination with
  | none => rfl
  | some destination => cases destination <;> rfl

theorem outcome_of_isBranch (h : op.isBranch) :
    outcome op decoded moved =
      { moved with
        pc := if op.takes moved.flags then (decoded.immediate.map Int32.toUInt32).getD moved.pc
          else moved.pc } := by
  cases op <;> try contradiction
  case b => cases himm : decoded.immediate <;> simp [outcome, effect, perform, Opcode.takes, himm]
  case beq | bne =>
    cases hz : moved.flags.z <;> cases himm : decoded.immediate <;>
      simp [outcome, effect, perform, Opcode.takes, himm, hz]

theorem outcome_flags :
    (outcome op decoded moved).flags =
      if op = .cmp then
        moved.flags.compare (source moved.registers decoded.source1)
          (second moved.registers decoded)
      else moved.flags := by
  cases op
  case add | sub | mov | ldr => simp only [outcome, effect, perform_setDestination]; rfl
  case b | beq | bne => rw [outcome_of_isBranch moved rfl]; rfl
  case str => rfl
  case cmp => exact (Flags.compare_eq ..).symm

theorem outcome_pc :
    (outcome op decoded moved).pc =
      if op.takes moved.flags then (decoded.immediate.map Int32.toUInt32).getD moved.pc
      else moved.pc := by
  cases op
  case add | sub | mov | ldr => simp only [outcome, effect, perform_setDestination]; rfl
  case b | beq | bne => rw [outcome_of_isBranch moved rfl]
  case str | cmp => rfl

theorem outcome_memory :
    (outcome op decoded moved).memory =
      if op = .str then
        moved.memory.write (second moved.registers decoded).toUInt32
          (source moved.registers decoded.source1)
      else moved.memory := by
  cases op
  case add | sub | mov | ldr => simp only [outcome, effect, perform_setDestination]; rfl
  case b | beq | bne => rw [outcome_of_isBranch moved rfl]; rfl
  case str | cmp => rfl

def commit (op : Opcode) (decoded : OperandFields) (value : Int32)
    (registers : RegisterFile) : RegisterFile :=
  match op.signals.regWrite, decoded.destination with
  | true, some destination =>
    if destination = .pc then registers else registers.write destination value
  | _, _ => registers

theorem outcome_registers :
    (outcome op decoded moved).registers =
      commit op decoded (committed op decoded moved) moved.registers := by
  cases op
  case add | sub | mov | ldr =>
    simp only [outcome, effect, perform_setDestination, commit]
    cases decoded.destination <;> rfl
  case b | beq | bne => rw [outcome_of_isBranch moved rfl]; rfl
  case str | cmp => rfl

-- Write-back comes after the register file has shown a branch target. The
-- order does not matter, because write-back leaves the program counter alone.
theorem commit_write_pc (value shown : Int32) (registers : RegisterFile) :
    (commit op decoded value (registers.write .pc shown)).write .pc shown =
      (commit op decoded value registers).write .pc shown := by
  unfold commit
  cases op.signals.regWrite <;> cases decoded.destination
  case true.some destination =>
    by_cases hpc : destination = .pc
    · simp only [hpc, ↓reduceIte, RegisterFile.write_write_self]
    · simp only [hpc, ↓reduceIte, RegisterFile.write_comm _ _ _ hpc,
        RegisterFile.write_write_self]
  all_goals simp only [RegisterFile.write_write_self]

end Outcome

section Stages

variable {program : List Instruction} {inst : Instruction} {decoded : OperandFields}
variable (moved : Architecture) (clock : Nat)

-- A machine in a state, with one stage filled.
def holding (state : Architecture) (stage : Stage) (latch : Latch) (clock : Nat) : Machine :=
  { state with pipeline := .holding stage latch, clock }

def executedLatch (inst : Instruction) (decoded : OperandFields) (moved : Architecture) : Latch :=
  { Latch.ofDecoded inst decoded with
    result := some (inst.opcode.signals.aluOperation.apply
      (source moved.registers decoded.source1) (second moved.registers decoded))
    address := if inst.opcode.signals.usesMemory
      then some (second moved.registers decoded).toUInt32 else none }

def finishedLatch (inst : Instruction) (decoded : OperandFields) (moved : Architecture) : Latch :=
  { executedLatch inst decoded moved with result := some (committed inst.opcode decoded moved) }

theorem secondOperand_eq_second (registers : RegisterFile) (source : AluSource)
    (h : decoded.Laid inst.opcode.family) :
    Machine.secondOperand registers decoded source = second registers decoded := by
  generalize inst.opcode.family = family at h
  cases h with
  | arithmetic _ _ operand | moveCompare _ operand => cases operand <;> cases source <;> rfl
  | loadStore | branch => cases source <;> rfl

-- Only loads and stores have an address, and theirs is the second operand.
theorem address_eq_second (registers : RegisterFile) (h : decoded.Laid inst.opcode.family)
    (hmemory : inst.opcode.signals.usesMemory) :
    decoded.source2.map (fun r => (registers.read r).toUInt32) =
      some (second registers decoded).toUInt32 := by
  rw [Opcode.family_of_usesMemory hmemory] at h
  cases h with
  | loadStore register address => rfl

theorem execute_ofDecoded (h : decoded.Laid inst.opcode.family) :
    Machine.execute { moved with pipeline := .idle, clock } (.ofDecoded inst decoded) =
      { moved with flags := (outcome inst.opcode decoded moved).flags }.holding .execute
        (executedLatch inst decoded moved) clock := by
  have hsecond := secondOperand_eq_second moved.registers inst.opcode.signals.aluSource h
  unfold executedLatch
  by_cases hmemory : inst.opcode.signals.usesMemory
  · have haddress := address_eq_second moved.registers h hmemory
    simp [Machine.execute, Latch.ofDecoded, outcome_flags, source, holding, hsecond, hmemory,
      haddress]
    rfl
  · simp [Machine.execute, Latch.ofDecoded, outcome_flags, source, holding, hsecond, hmemory]
    rfl

-- The comparison is over when a branch looks at the flags, but no branch compares.
theorem takes_outcome_flags :
    inst.opcode.takes (outcome inst.opcode decoded moved).flags =
      inst.opcode.takes moved.flags := by
  rw [outcome_flags]
  split
  · next hop => rw [hop]; rfl
  · rfl

variable (program inst decoded)

theorem branch_executedLatch :
    (Machine.branchTarget? (outcome inst.opcode decoded moved).flags
        (executedLatch inst decoded moved)).getD moved.pc =
      (outcome inst.opcode decoded moved).pc := by
  have hinst : (executedLatch inst decoded moved).instruction = some inst := rfl
  rw [Machine.branchTarget?_eq hinst rfl rfl, takes_outcome_flags, outcome_pc]
  split <;> rfl

-- A store takes its value only now, from registers that have shown the
-- program counter once more since its address was computed.
theorem accessMemory_executedLatch (registers : RegisterFile) (pc : UInt32) (flags : Flags)
    (h : inst.opcode = .str → registers = moved.registers) :
    Machine.accessMemory
        { moved with registers, pc, flags, pipeline := .idle, clock }
        (executedLatch inst decoded moved) =
      holding { registers, pc, flags, memory := (outcome inst.opcode decoded moved).memory }
        .writeBack (finishedLatch inst decoded moved) clock := by
  rw [outcome_memory]
  unfold finishedLatch committed executedLatch Latch.ofDecoded
  cases hop : inst.opcode
  case str => simp [Machine.accessMemory, Opcode.signals, ControlSignals.usesMemory, holding,
    Pipeline.holding, source, h hop]
  all_goals simp [Machine.accessMemory, Opcode.signals, ControlSignals.usesMemory, holding,
    Pipeline.holding]

theorem writeBack_finishedLatch (state : Architecture) :
    Machine.writeBack { state with pipeline := .idle, clock } (finishedLatch inst decoded moved) =
      { state with
        registers := commit inst.opcode decoded (committed inst.opcode decoded moved)
          state.registers
        pipeline := .idle, clock } := by
  unfold finishedLatch executedLatch Latch.ofDecoded commit
  cases hwrite : inst.opcode.signals.regWrite <;> cases hdest : decoded.destination
  case true.some destination =>
    by_cases hpc : destination = .pc <;> simp [Machine.writeBack, hwrite, hdest, hpc]
  all_goals simp [Machine.writeBack, hwrite, hdest]

theorem cycles_ofDecoded (h : decoded.Laid inst.opcode.family)
    (hshown : moved.registers.write .pc moved.pc.toInt32 = moved.registers) :
    Machine.cycles program 4 (moved.holding .decode (.ofDecoded inst decoded) clock) =
      .ok { (outcome inst.opcode decoded moved).showPc with
        pipeline := .idle, clock := clock + 4 } := by
  have hflags := execute_ofDecoded moved clock h
  have hpc := branch_executedLatch inst decoded moved
  have hmemory := accessMemory_executedLatch inst decoded moved (clock + 2)
  have hregisters : (outcome inst.opcode decoded moved).registers =
      commit inst.opcode decoded (committed inst.opcode decoded moved) moved.registers :=
    outcome_registers moved
  have hstore : inst.opcode = .str → (outcome inst.opcode decoded moved).pc = moved.pc := by
    intro hop
    rw [outcome_pc, hop]
    rfl
  generalize outcome inst.opcode decoded moved = out at *
  have hexecute : (moved.holding .decode (.ofDecoded inst decoded) clock).cycle program =
      .ok ({ moved with flags := out.flags }.holding .execute
        (executedLatch inst decoded moved) (clock + 1)) := by
    rw [Machine.cycle_of_decode (Pipeline.resident?_holding _ rfl)]
    simp only [holding] at hflags ⊢
    simp only [hflags, Machine.tick, hshown]
  have hresolve : ({ moved with flags := out.flags }.holding .execute
        (executedLatch inst decoded moved) (clock + 1)).cycle program =
      .ok ({ out with
        registers := moved.registers.write .pc out.pc.toInt32, memory := moved.memory }.holding
        .memory (executedLatch inst decoded moved) (clock + 2)) := by
    rw [Machine.cycle_of_execute (Pipeline.resident?_holding _ rfl)]
    simp only [Machine.resolveBranch, Machine.tick, holding, hpc]
    rfl
  have haccess : ({ out with
        registers := moved.registers.write .pc out.pc.toInt32, memory := moved.memory }.holding
        .memory (executedLatch inst decoded moved) (clock + 2)).cycle program =
      .ok ({ out with registers := moved.registers.write .pc out.pc.toInt32 }.holding
        .writeBack (finishedLatch inst decoded moved) (clock + 3)) := by
    rw [Machine.cycle_of_memory (Pipeline.resident?_holding _ rfl)]
    have := hmemory (moved.registers.write .pc out.pc.toInt32) out.pc out.flags
      (fun hop => by rw [hstore hop, hshown])
    simp only [holding] at this ⊢
    simp only [this, Machine.tick, RegisterFile.write_write_self]
  have hcommit : ({ out with registers := moved.registers.write .pc out.pc.toInt32 }.holding
        .writeBack (finishedLatch inst decoded moved) (clock + 3)).cycle program =
      .ok { out.showPc with pipeline := .idle, clock := clock + 4 } := by
    rw [Machine.cycle_of_writeBack (Pipeline.resident?_holding _ rfl)]
    have := writeBack_finishedLatch inst decoded moved (clock + 3)
      { out with registers := moved.registers.write .pc out.pc.toInt32 }
    simp only [holding] at this ⊢
    simp only [this, Machine.tick, commit_write_pc, ← hregisters, showPc]
  rw [Machine.cycles_succ hexecute, Machine.cycles_succ hresolve, Machine.cycles_succ haccess,
    Machine.cycles_succ hcommit, Machine.cycles_zero]

end Stages

-- Where the effect of an instruction starts from: the program counter has moved
-- on and the register file shows it.
def advanced (state : Architecture) : Architecture :=
  showPc { state with pc := state.pc + 4 }

theorem step?_eq_some {program : List Instruction} {state next : Architecture}
    (h : step? program state = some next) :
    ∃ inst decoded, program[state.pc.toNat / 4]? = some inst ∧ inst.decode = .ok decoded ∧
      next = (outcome inst.opcode decoded state.advanced).showPc := by
  simp only [step?, Option.bind_eq_bind, Option.bind_eq_some_iff] at h
  obtain ⟨inst, hinst, decoded, hdecoded, hnext⟩ := h
  exact ⟨inst, decoded, hinst, toOption_eq_some.mp hdecoded, (Option.some.inj hnext).symm⟩

theorem cycles_two {program : List Instruction} {machine : Machine} {inst : Instruction}
    {decoded : OperandFields} (hidle : machine.pipeline = .idle)
    (hinst : program[machine.nextSlot]? = some inst) (hdecode : inst.decode = .ok decoded) :
    machine.cycles program 2 =
      .ok (machine.architecture.advanced.holding .decode (.ofDecoded inst decoded)
        (machine.clock + 2)) := by
  have hfetch : machine.cycle program =
      .ok (machine.architecture.advanced.holding .fetch (.ofInstruction inst)
        (machine.clock + 1)) := by
    rw [Machine.cycle_of_none (by rw [hidle, Pipeline.resident?_idle])]
    simp only [Machine.nextSlot] at hinst
    simp only [Machine.fetch, Machine.nextSlot, hinst]
    rfl
  have hdecoded : (machine.architecture.advanced.holding .fetch (.ofInstruction inst)
        (machine.clock + 1)).cycle program =
      .ok (machine.architecture.advanced.holding .decode (.ofDecoded inst decoded)
        (machine.clock + 2)) := by
    rw [Machine.cycle_of_fetch (Pipeline.resident?_holding _ rfl)]
    rw [Machine.decode_ofInstruction, hdecode]
    simp only [holding, advanced, showPc, Except.map, Machine.tick, RegisterFile.write_write_self]
    rfl
  rw [Machine.cycles_succ hfetch, Machine.cycles_succ hdecoded, Machine.cycles_zero]

end Architecture

namespace Machine

open Architecture

theorem cycles_six_of_step? {program : List Instruction} {machine : Machine}
    {next : Architecture} (hidle : machine.pipeline = .idle)
    (h : step? program machine.architecture = some next) :
    machine.cycles program 6 =
      .ok { next with pipeline := .idle, clock := machine.clock + 6 } := by
  obtain ⟨inst, decoded, hinst, hdecode, rfl⟩ := step?_eq_some h
  have hshown := RegisterFile.write_write_self machine.registers .pc
    (machine.pc + 4).toInt32 (machine.pc + 4).toInt32
  have hfront := cycles_two hidle hinst hdecode
  have hback := cycles_ofDecoded program inst decoded machine.architecture.advanced
    (machine.clock + 2) (Instruction.laid_of_decode hdecode) hshown
  rw [cycles_add program 2 4, hfront]
  exact hback

-- The pipeline carries out a program as its instructions are meant: as long
-- as each of them can be carried out, six cycles go by for each.
theorem cycles_six_mul_of_steps? (program : List Instruction) (machine : Machine)
    (hidle : machine.pipeline = .idle) (k : Nat) {final : Architecture}
    (h : steps? program k machine.architecture = some final) :
    machine.cycles program (6 * k) =
      .ok { final with pipeline := .idle, clock := machine.clock + 6 * k } := by
  induction k generalizing machine with
  | zero =>
    obtain rfl := Option.some.inj h
    rw [← hidle]
    rfl
  | succ k ih =>
    obtain ⟨next, hstep, hrest⟩ := Option.bind_eq_some_iff.mp h
    have hfirst := cycles_six_of_step? hidle hstep
    have hothers := ih { next with pipeline := .idle, clock := machine.clock + 6 } rfl hrest
    rw [Nat.mul_succ, Nat.add_comm, cycles_add program 6 (6 * k), hfirst]
    simp only [Except.bind, hothers, Nat.add_assoc, Nat.add_comm 6]

-- A loop in which the program counter is stored and cannot be written, and a
-- load takes its address from the register that it fills.
private def selfReferring : List Instruction := [
  .build 1 .str ["PC", "[R0]"] "STR PC, [R0]" 1,
  .build 2 .ldr ["R0", "[R0]"] "LDR R0, [R0]" 2,
  .build 3 .add ["PC", "R0", "PC"] "ADD PC, R0, PC" 3,
  .build 4 .cmp ["R0", "#4"] "CMP R0, #4" 4,
  .build 5 .beq ["#0"] "BEQ #0" 5]

theorem cycles_six_mul_of_selfReferring :
    (reset 0 1024).pipeline = .idle ∧
      ∃ final, steps? selfReferring 7 (reset 0 1024).architecture = some final ∧
        final.pc = 8 ∧ final.registers.read .r0 = 4 ∧
        (reset 0 1024).cycles selfReferring (6 * 7) =
          .ok { final with pipeline := .idle, clock := 0 + 6 * 7 } := by
  have hsteps : (steps? selfReferring 7 (reset 0 1024).architecture).map
      (fun final => (final.pc, final.registers.read .r0)) = some (8, 4) := by decide +kernel
  obtain ⟨final, hfinal, hends⟩ := Option.map_eq_some_iff.mp hsteps
  obtain ⟨hpc, hread⟩ := Prod.mk.inj hends
  refine ⟨rfl, final, hfinal, hpc, hread, ?_⟩
  exact cycles_six_mul_of_steps? selfReferring (reset 0 1024) rfl 7 hfinal

end Machine

end FiveStage
