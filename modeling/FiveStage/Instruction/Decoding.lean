import FiveStage.Instruction.Basic

namespace FiveStage

-- The operand fields of an instruction. An absent field does not apply to it.
structure OperandFields where
  source1 : Option Register := none
  -- for loads and stores the address register
  source2 : Option Register := none
  -- for stores the register that holds the value
  destination : Option Register := none
  immediate : Option Int32 := none
  deriving DecidableEq

def OperandFields.withSecond (decoded : OperandFields) : Operand → OperandFields
  | .register r => { decoded with source2 := some r }
  | .immediate value => { decoded with immediate := some value }

-- Why an instruction cannot be decoded.
inductive DecodeFault
  | invalidOperand (line : Nat) (opcode : Opcode) (operand : String) (reason : Defect)
  | missingOperand (line : Nat) (opcode : Opcode) (position : Nat)
  deriving DecidableEq

def DecodeFault.message : DecodeFault → String
  | invalidOperand line opcode operand reason =>
    "line " ++ toString line ++ ": invalid operand `" ++ operand ++ "` for " ++ opcode.mnemonic ++
      ": " ++ reason.message
  | missingOperand line opcode position =>
    "line " ++ toString line ++ ": " ++ opcode.mnemonic ++ " is missing operand " ++
      toString position

namespace Instruction

-- Reads the operand token at a position.
def readOperand (inst : Instruction) (position : Nat) (read : String → Except Defect α) :
    Except DecodeFault α :=
  match inst.operands[position]? with
  | none => .error (.missingOperand inst.line inst.opcode position)
  | some token =>
    match read token with
    | .ok value => .ok value
    | .error reason => .error (.invalidOperand inst.line inst.opcode token reason)

-- Maps operand positions onto operand fields, by the layout of the opcode.
-- Operands are read from left to right and the first bad one is reported.
def decode (inst : Instruction) : Except DecodeFault OperandFields := do
  match inst.opcode.family with
  | .arithmetic =>
    let destination ← inst.readOperand 0 Token.register
    let source ← inst.readOperand 1 Token.register
    let second ← inst.readOperand 2 Token.registerOrImmediate
    return OperandFields.withSecond
      { destination := some destination, source1 := some source } second
  | .moveCompare =>
    let register ← inst.readOperand 0 Token.register
    let second ← inst.readOperand 1 Token.registerOrImmediate
    return OperandFields.withSecond
      { destination := some register, source1 := some register } second
  | .loadStore =>
    let register ← inst.readOperand 0 Token.register
    let address ← inst.readOperand 1 fun token => Token.register (Token.withoutBrackets token)
    return { destination := some register, source1 := some register, source2 := some address }
  | .branch =>
    let target ← inst.readOperand 0 Token.branchTarget
    return { immediate := some target }

end Instruction

end FiveStage
