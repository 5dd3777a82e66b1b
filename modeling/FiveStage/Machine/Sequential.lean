import FiveStage.Machine.Basic

namespace FiveStage

-- What a program can see of the machine. The meaning of the instruction set
-- is given here without a pipeline, one whole instruction at a time.
structure Architecture where
  pc : UInt32
  registers : RegisterFile
  memory : Memory
  flags : Flags
  deriving DecidableEq

def Machine.architecture (machine : Machine) : Architecture :=
  { machine with }

namespace Architecture

-- What an instruction does apart from moving on to the next one.
inductive Effect
  | none
  | setRegister (destination : Register) (value : Int32)
  | store (address : UInt32) (value : Int32)
  | compare (a b : Int32)
  | jump (target : UInt32)

-- A register, or zero where there is none.
def source (registers : RegisterFile) (r : Option Register) : Int32 :=
  (r.map registers.read).getD 0

-- The second operand, be it a register or a literal.
def second (registers : RegisterFile) (decoded : OperandFields) : Int32 :=
  match decoded.source2, decoded.immediate with
  | some r, _ => registers.read r
  | none, some value => value
  | none, none => 0

def setDestination (decoded : OperandFields) (value : Int32) : Effect :=
  match decoded.destination with
  | some destination => .setRegister destination value
  | none => .none

-- The effect of an instruction with these operands. The registers show the
-- address of the instruction after it as the program counter.
def effect (op : Opcode) (decoded : OperandFields) (registers : RegisterFile) (memory : Memory)
    (flags : Flags) : Effect :=
  let first := source registers decoded.source1
  let second := second registers decoded
  let jump := match decoded.immediate with
    | some target => Effect.jump target.toUInt32
    | none => .none
  match op with
  | .add => setDestination decoded (first + second)
  | .sub => setDestination decoded (first - second)
  | .mov => setDestination decoded second
  | .ldr => setDestination decoded (memory.read second.toUInt32)
  | .str => .store second.toUInt32 first
  | .cmp => .compare first second
  | .b => jump
  | .beq => if flags.z then jump else .none
  | .bne => if flags.z then .none else jump

-- Carries out an effect. The program counter is no destination. A comparison
-- says whether two words are equal, and which sign bit their difference has;
-- carry and overflow stay as they are.
def perform (state : Architecture) : Effect → Architecture
  | .none => state
  | .setRegister .pc _ => state
  | .setRegister destination value =>
    { state with registers := state.registers.write destination value }
  | .store address value => { state with memory := state.memory.write address value }
  | .compare a b =>
    { state with flags := { state.flags with n := (a - b).toBitVec.msb, z := a = b } }
  | .jump target => { state with pc := target }

-- Shows the program counter in the register file.
def showPc (state : Architecture) : Architecture :=
  { state with registers := state.registers.write .pc state.pc.toInt32 }

-- Carries out the instruction at the program counter. There is no step past
-- the end of the program, nor from an instruction that cannot be decoded.
def step? (program : List Instruction) (state : Architecture) : Option Architecture := do
  let inst ← program[state.pc.toNat / 4]?
  let decoded ← inst.decode.toOption
  let moved := showPc { state with pc := state.pc + 4 }
  let done := effect inst.opcode decoded moved.registers moved.memory moved.flags
  return showPc (moved.perform done)

-- Carries out so many instructions, if each of them can be.
def steps? (program : List Instruction) : Nat → Architecture → Option Architecture
  | 0, state => some state
  | n + 1, state => do steps? program n (← step? program state)

end Architecture

end FiveStage
