import FiveStage.Instruction.Encoding

namespace FiveStage

-- An assembled instruction. Operands that named labels hold literal addresses.
structure Instruction where
  id : Nat
  -- the source text without comment and label
  text : String
  opcode : Opcode
  operands : List String
  -- the word shown for it
  bits : String
  -- the source line, counted from 1
  line : Nat
  deriving DecidableEq

def Instruction.build (id : Nat) (opcode : Opcode) (operands : List String) (text : String)
    (line : Nat) : Instruction where
  id := id
  text := text
  opcode := opcode
  operands := operands
  bits := String.ofList (Encoding.bits opcode operands)
  line := line

end FiveStage
