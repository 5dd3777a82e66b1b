import FiveStage.Machine.Basic

namespace FiveStage.Machine

-- The work of each stage on the machine under construction. The latch is what
-- the stage before holds; the result is placed in the stage itself, except
-- that write-back places nothing.

-- Reads the next instruction, if there is one, and moves on by a word.
def fetch (program : List Instruction) (machine : Machine) : Machine :=
  match program[machine.nextSlot]? with
  | none => machine
  | some inst =>
    { machine with
      pipeline := machine.pipeline.place .fetch (.ofInstruction inst)
      pc := machine.pc + 4 }

-- Derives the control signals and the operand fields. The only stage that
-- can fail.
def decode (machine : Machine) (latch : Latch) : Except DecodeFault Machine := do
  match latch.instruction with
  | none => return machine
  | some inst =>
    let decoded ← inst.decode
    let filled := { latch with decoded := some decoded, signals := some inst.opcode.signals }
    return { machine with pipeline := machine.pipeline.place .decode filled }

-- The second ALU operand: the preferred source if it is there, else the other
-- one, else zero.
def secondOperand (registers : RegisterFile) (decoded : OperandFields) (source : AluSource) :
    Int32 :=
  let register := decoded.source2.map registers.read
  match source with
  | .register => (register.or decoded.immediate).getD 0
  | .immediate => (decoded.immediate.or register).getD 0

-- Computes the ALU result and the data address; a comparison sets the flags.
def execute (machine : Machine) (latch : Latch) : Machine :=
  let decoded := latch.decoded.getD {}
  let signals := latch.signals.getD {}
  let a := (decoded.source1.map machine.registers.read).getD 0
  let b := secondOperand machine.registers decoded signals.aluSource
  let compares := latch.instruction.any fun inst => inst.opcode = .cmp
  let address := if signals.usesMemory
    then decoded.source2.map fun r => (machine.registers.read r).toUInt32
    else none
  let filled := { latch with result := some (signals.aluOperation.apply a b), address := address }
  { machine with
    flags := if compares then machine.flags.compare a b else machine.flags
    pipeline := machine.pipeline.place .execute filled }

-- The address that a latched branch transfers control to, if it does.
def branchTarget? (flags : Flags) (latch : Latch) : Option UInt32 := do
  let inst ← latch.instruction
  let signals ← latch.signals
  if signals.branch && inst.opcode.takes flags then
    let decoded ← latch.decoded
    let target ← decoded.immediate
    return target.toUInt32
  else none

-- Redirects the program counter for a branch that is taken.
def resolveBranch (machine : Machine) (latch : Latch) : Machine :=
  { machine with
    pc := (branchTarget? machine.flags latch).getD machine.pc
    pipeline := machine.pipeline.place .memory latch }

-- Loads into the latch, or stores the first source register.
def accessMemory (machine : Machine) (latch : Latch) : Machine :=
  let signals := latch.signals.getD {}
  let (memory, passed) := match latch.address with
    | none => (machine.memory, latch)
    | some address =>
      if signals.memRead then
        (machine.memory, { latch with result := some (machine.memory.read address) })
      else if signals.memWrite then
        let value := ((latch.decoded.bind (·.source1)).map machine.registers.read).getD 0
        (machine.memory.write address value, latch)
      else (machine.memory, latch)
  { machine with memory := memory, pipeline := machine.pipeline.place .writeBack passed }

-- Commits the result. The program counter is no destination.
def writeBack (machine : Machine) (latch : Latch) : Machine :=
  match latch.signals, latch.decoded.bind (·.destination), latch.result with
  | some signals, some destination, some value =>
    if signals.regWrite && destination ≠ .pc then
      { machine with registers := machine.registers.write destination value }
    else machine
  | _, _, _ => machine

-- One cycle. The instruction closest to the end of the pipeline moves on by a
-- stage and everything else in flight is dropped; the next instruction is
-- fetched when nothing is in flight.
def cycle (program : List Instruction) (machine : Machine) : Except DecodeFault Machine := do
  let cleared := { machine with pipeline := .idle }
  let worked ← match machine.pipeline.resident? with
    | some (.writeBack, latch) => pure (cleared.writeBack latch)
    | some (.memory, latch) => pure (cleared.accessMemory latch)
    | some (.execute, latch) => pure (cleared.resolveBranch latch)
    | some (.decode, latch) => pure (cleared.execute latch)
    | some (.fetch, latch) => cleared.decode latch
    | none => pure (cleared.fetch program)
  return { worked with
    registers := worked.registers.write .pc worked.pc.toInt32
    clock := worked.clock + 1 }

end FiveStage.Machine
