import FiveStage.Opcode

namespace FiveStage

-- The condition flags: negative, zero, carry, overflow.
structure Flags where
  n : Bool := false
  z : Bool := false
  c : Bool := false
  v : Bool := false
  deriving DecidableEq

namespace Flags

-- Flags after comparing two words. Nothing computes carry and overflow.
def compare (flags : Flags) (a b : Int32) : Flags :=
  { flags with n := a - b < 0, z := a - b = 0 }

private def letter (set : Bool) (c : Char) : Char :=
  if set then c else '-'

-- A letter for each flag that is set and a dash for the others.
def render (flags : Flags) : String :=
  String.ofList [letter flags.n 'N', letter flags.z 'Z', letter flags.c 'C', letter flags.v 'V']

end Flags

-- Whether an instruction transfers control.
def Opcode.takes (op : Opcode) (flags : Flags) : Bool :=
  match op with
  | b => true
  | beq => flags.z
  | bne => !flags.z
  | add | sub | mov | ldr | str | cmp => false

end FiveStage
