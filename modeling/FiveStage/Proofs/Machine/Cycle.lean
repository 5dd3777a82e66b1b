import FiveStage.Machine.Run
import FiveStage.Proofs.Except

namespace FiveStage

def Latch.ofDecoded (inst : Instruction) (decoded : OperandFields) : Latch :=
  { instruction := some inst, decoded := some decoded, signals := some inst.opcode.signals }

namespace Pipeline

def holding (stage : Stage) (latch : Latch) : Pipeline :=
  idle.place stage latch

@[simp] theorem resident?_idle : idle.resident? = none := rfl

theorem resident?_holding (stage : Stage) {latch : Latch} {inst : Instruction}
    (h : latch.instruction = some inst) :
    (holding stage latch).resident? = some (stage, latch) := by
  obtain ⟨_, decoded, signals, result, address⟩ := latch
  subst h
  cases stage <;> rfl

end Pipeline

namespace RegisterFile

theorem write_write_self (file : RegisterFile) (r : Register) (a b : Int32) :
    (file.write r a).write r b = file.write r b := by
  refine ext_read fun other => ?_
  by_cases h : other = r
  · subst h; simp
  · simp [read_write_of_ne _ _ h]

theorem write_comm (file : RegisterFile) {r other : Register} (a b : Int32) (h : other ≠ r) :
    (file.write r a).write other b = (file.write other b).write r a := by
  refine ext_read fun s => ?_
  by_cases hr : s = r
  · subst hr; simp [read_write_of_ne _ _ (Ne.symm h)]
  by_cases ho : s = other
  · subst ho; simp [read_write_of_ne _ _ h]
  simp [read_write_of_ne _ _ hr, read_write_of_ne _ _ ho]

end RegisterFile

theorem Opcode.branch_of_takes {op : Opcode} {flags : Flags} (h : op.takes flags) :
    op.signals.branch := by
  cases op <;> simp_all [takes, signals]

namespace Machine

-- What ends every cycle: the program counter shows in the register file and
-- the clock moves on.
def tick (machine : Machine) : Machine :=
  { machine with
    registers := machine.registers.write .pc machine.pc.toInt32
    clock := machine.clock + 1 }

section Cycle

-- One equation for each stage that can be the one to work.
variable {program : List Instruction} {machine : Machine} {latch : Latch}

theorem cycle_of_none (h : machine.pipeline.resident? = none) :
    machine.cycle program = .ok ({ machine with pipeline := .idle }.fetch program).tick := by
  simp only [cycle, h]
  rfl

theorem cycle_of_fetch (h : machine.pipeline.resident? = some (.fetch, latch)) :
    machine.cycle program = ({ machine with pipeline := .idle }.decode latch).map tick := by
  simp only [cycle, h]
  rfl

theorem cycle_of_decode (h : machine.pipeline.resident? = some (.decode, latch)) :
    machine.cycle program = .ok ({ machine with pipeline := .idle }.execute latch).tick := by
  simp only [cycle, h]
  rfl

theorem cycle_of_execute (h : machine.pipeline.resident? = some (.execute, latch)) :
    machine.cycle program = .ok ({ machine with pipeline := .idle }.resolveBranch latch).tick := by
  simp only [cycle, h]
  rfl

theorem cycle_of_memory (h : machine.pipeline.resident? = some (.memory, latch)) :
    machine.cycle program = .ok ({ machine with pipeline := .idle }.accessMemory latch).tick := by
  simp only [cycle, h]
  rfl

theorem cycle_of_writeBack (h : machine.pipeline.resident? = some (.writeBack, latch)) :
    machine.cycle program = .ok ({ machine with pipeline := .idle }.writeBack latch).tick := by
  simp only [cycle, h]
  rfl

-- What a cycle works on, before it ends.
inductive Works (program : List Instruction) (machine : Machine) : Machine → Prop
  | idle (h : machine.pipeline.resident? = none) :
      Works program machine ({ machine with pipeline := .idle }.fetch program)
  | fetched {latch : Latch} {worked : Machine}
      (h : machine.pipeline.resident? = some (.fetch, latch))
      (hdecode : { machine with pipeline := .idle }.decode latch = .ok worked) :
      Works program machine worked
  | decoded {latch : Latch} (h : machine.pipeline.resident? = some (.decode, latch)) :
      Works program machine ({ machine with pipeline := .idle }.execute latch)
  | executed {latch : Latch} (h : machine.pipeline.resident? = some (.execute, latch)) :
      Works program machine ({ machine with pipeline := .idle }.resolveBranch latch)
  | accessed {latch : Latch} (h : machine.pipeline.resident? = some (.memory, latch)) :
      Works program machine ({ machine with pipeline := .idle }.accessMemory latch)
  | finished {latch : Latch} (h : machine.pipeline.resident? = some (.writeBack, latch)) :
      Works program machine ({ machine with pipeline := .idle }.writeBack latch)

theorem exists_works_of_cycle {next : Machine} (h : machine.cycle program = .ok next) :
    ∃ worked, Works program machine worked ∧ worked.tick = next := by
  cases hresident : machine.pipeline.resident? with
  | none =>
    rw [cycle_of_none hresident] at h
    exact ⟨_, .idle hresident, Except.ok.inj h⟩
  | some found =>
    obtain ⟨stage, latch⟩ := found
    cases stage with
    | fetch =>
      rw [cycle_of_fetch hresident] at h
      obtain ⟨worked, hdecode, htick⟩ := map_eq_ok.mp h
      exact ⟨worked, .fetched hresident hdecode, htick⟩
    | decode =>
      rw [cycle_of_decode hresident] at h
      exact ⟨_, .decoded hresident, Except.ok.inj h⟩
    | execute =>
      rw [cycle_of_execute hresident] at h
      exact ⟨_, .executed hresident, Except.ok.inj h⟩
    | memory =>
      rw [cycle_of_memory hresident] at h
      exact ⟨_, .accessed hresident, Except.ok.inj h⟩
    | writeBack =>
      rw [cycle_of_writeBack hresident] at h
      exact ⟨_, .finished hresident, Except.ok.inj h⟩

-- Decoding is all that can fail.
theorem exists_decode_of_cycle {fault : DecodeFault} (h : machine.cycle program = .error fault) :
    ∃ latch, machine.pipeline.resident? = some (.fetch, latch) ∧
      { machine with pipeline := .idle }.decode latch = .error fault := by
  cases hresident : machine.pipeline.resident? with
  | none =>
    rw [cycle_of_none hresident] at h
    contradiction
  | some found =>
    obtain ⟨stage, latch⟩ := found
    cases stage with
    | fetch =>
      rw [cycle_of_fetch hresident] at h
      exact ⟨latch, rfl, map_eq_error.mp h⟩
    | decode =>
      rw [cycle_of_decode hresident] at h
      contradiction
    | execute =>
      rw [cycle_of_execute hresident] at h
      contradiction
    | memory =>
      rw [cycle_of_memory hresident] at h
      contradiction
    | writeBack =>
      rw [cycle_of_writeBack hresident] at h
      contradiction

end Cycle

theorem decode_ofInstruction (machine : Machine) (inst : Instruction) :
    machine.decode (.ofInstruction inst) = inst.decode.map fun decoded =>
      { machine with pipeline := machine.pipeline.place .decode (.ofDecoded inst decoded) } := by
  simp only [decode, Latch.ofInstruction]
  cases inst.decode <;> rfl

section Stages

-- Each stage has its own part of the machine besides the pipeline. The other
-- parts come out as they went in.
variable (program : List Instruction) (machine : Machine) (latch : Latch)

theorem fetch_eq :
    machine.fetch program =
      { machine with
        pc := (machine.fetch program).pc
        pipeline := (machine.fetch program).pipeline } := by
  unfold fetch
  split <;> rfl

theorem writeBack_eq :
    machine.writeBack latch =
      { machine with registers := (machine.writeBack latch).registers } := by
  unfold writeBack
  split
  · split <;> rfl
  · rfl

variable {machine latch}

theorem eq_of_decode {next : Machine} (h : machine.decode latch = .ok next) :
    next = { machine with pipeline := next.pipeline } := by
  unfold decode at h
  cases hinst : latch.instruction with
  | none =>
    rw [hinst] at h
    cases h
    rfl
  | some inst =>
    rw [hinst] at h
    obtain ⟨decoded, -, hnext⟩ := bind_eq_ok.mp h
    cases hnext
    rfl

end Stages

section Clock

-- Only the end of a cycle moves the clock.
variable {program : List Instruction} {machine worked next : Machine}

theorem clock_of_works (h : Works program machine worked) : worked.clock = machine.clock := by
  cases h with
  | idle => rw [fetch_eq]
  | fetched _ hdecode => rw [eq_of_decode hdecode]
  | decoded | executed | accessed => rfl
  | finished => rw [writeBack_eq]

theorem clock_cycle (h : machine.cycle program = .ok next) : next.clock = machine.clock + 1 := by
  obtain ⟨worked, hworked, rfl⟩ := exists_works_of_cycle h
  rw [tick, clock_of_works hworked]

end Clock

theorem cycles_succ {program : List Instruction} {machine next : Machine} {n : Nat}
    (h : machine.cycle program = .ok next) :
    cycles program (n + 1) machine = cycles program n next := by
  simp only [cycles, h]
  rfl

-- What holds of a machine and is kept by every cycle holds from then on.
theorem cycles_preserves {P : Machine → Prop} {program : List Instruction}
    (hP : ∀ {machine next}, P machine → machine.cycle program = .ok next → P next)
    {machine final : Machine} {n : Nat} (h : P machine)
    (hcycles : machine.cycles program n = .ok final) : P final := by
  induction n generalizing machine with
  | zero =>
    cases hcycles
    exact h
  | succ n ih =>
    obtain ⟨next, hnext, hrest⟩ := bind_eq_ok.mp hcycles
    exact ih (hP h hnext) hrest

theorem clock_cycles {program : List Instruction} {machine final : Machine} {n : Nat}
    (h : machine.cycles program n = .ok final) : final.clock = machine.clock + n := by
  induction n generalizing machine with
  | zero =>
    cases h
    rfl
  | succ n ih =>
    obtain ⟨next, hnext, hrest⟩ := bind_eq_ok.mp h
    rw [ih hrest, clock_cycle hnext]
    omega

-- Of a latch that carries an instruction's own decoding, the branch signal
-- tells nothing that the condition does not.
theorem branchTarget?_eq {latch : Latch} {inst : Instruction} {decoded : OperandFields}
    (hinst : latch.instruction = some inst) (hdecoded : latch.decoded = some decoded)
    (hsignals : latch.signals = some inst.opcode.signals) (flags : Flags) :
    branchTarget? flags latch =
      if inst.opcode.takes flags then decoded.immediate.map Int32.toUInt32 else none := by
  simp only [branchTarget?, hinst, hdecoded, hsignals, Option.bind_eq_bind, Option.bind_some]
  by_cases htakes : inst.opcode.takes flags
  · simp only [htakes, Opcode.branch_of_takes htakes, Bool.and_self, ↓reduceIte]
    cases decoded.immediate <;> rfl
  · simp only [htakes, Bool.and_false, Bool.false_eq_true, ↓reduceIte]

end Machine

end FiveStage
