import FiveStage.Opcode

namespace FiveStage

inductive AluOperation
  | add | sub | mov
  deriving DecidableEq

-- Words wrap around.
def AluOperation.apply : AluOperation → Int32 → Int32 → Int32
  | add, a, b => a + b
  | sub, a, b => a - b
  | mov, _, b => b

-- Where the second ALU operand comes from by preference.
inductive AluSource
  | register | immediate
  deriving DecidableEq

-- What the stages after decode do for an instruction.
structure ControlSignals where
  regWrite : Bool := false
  memRead : Bool := false
  memWrite : Bool := false
  branch : Bool := false
  aluOperation : AluOperation := .add
  aluSource : AluSource := .register
  memToReg : Bool := false
  deriving DecidableEq

def ControlSignals.usesMemory (signals : ControlSignals) : Bool :=
  signals.memRead || signals.memWrite

-- Memory and branch instructions leave the ALU at its resting operation.
def Opcode.signals : Opcode → ControlSignals
  | add => { regWrite := true }
  | sub => { regWrite := true, aluOperation := .sub }
  | mov => { regWrite := true, aluOperation := .mov, aluSource := .immediate }
  | cmp => { aluOperation := .sub }
  | ldr => { regWrite := true, memRead := true, memToReg := true }
  | str => { memWrite := true }
  | b | beq | bne => { branch := true }

end FiveStage
