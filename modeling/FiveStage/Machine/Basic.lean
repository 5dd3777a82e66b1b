import FiveStage.Machine.Flags
import FiveStage.Machine.Memory
import FiveStage.Machine.Pipeline
import FiveStage.RegisterFile

namespace FiveStage

-- The machine between two cycles.
structure Machine where
  -- the byte address of the next fetch
  pc : UInt32
  registers : RegisterFile
  memory : Memory
  flags : Flags
  pipeline : Pipeline
  -- the cycles since reset
  clock : Nat
  deriving DecidableEq

namespace Machine

-- The machine after reset. The program counter shows in the register file.
def reset (startPc : UInt32) (initialSp : Int32) : Machine where
  pc := startPc
  registers := (RegisterFile.initial initialSp).write .pc startPc.toInt32
  memory := .empty
  flags := {}
  pipeline := .idle
  clock := 0

-- The index of the instruction that the next fetch reads.
def nextSlot (machine : Machine) : Nat :=
  machine.pc.toNat / 4

-- Nothing is in flight and nothing is left to fetch.
def isHalted (program : List Instruction) (machine : Machine) : Bool :=
  machine.pipeline.isIdle && program.length ≤ machine.nextSlot

-- The clock, program counter and flags, the registers, and the words of memory.
def render (machine : Machine) : String :=
  "clock=" ++ toString machine.clock ++ " pc=" ++ Numeral.address machine.pc.toNat ++
    " flags=" ++ machine.flags.render ++ "\n" ++
  machine.registers.render ++ "\n" ++
  String.join (machine.memory.toList.map fun (address, value) =>
    "  [" ++ Numeral.address address.toNat ++ "] = " ++ toString value ++ "\n")

end Machine

end FiveStage
