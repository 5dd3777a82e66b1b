import FiveStage.Opcode

namespace FiveStage

-- Why a source line does not assemble.
inductive Defect
  | unknownOpcode (mnemonic : String)
  | operandCount (opcode : Opcode) (expected found : Nat)
  | invalidRegister (token : String)
  | invalidImmediate (token : String)
  | invalidAddress (token : String)
  | undefinedLabel (label : String)
  | duplicateLabel (label : String) (firstLine : Nat)
  | misalignedTarget (target : Int)
  deriving DecidableEq

private def quoted (text : String) : String :=
  "`" ++ text ++ "`"

def Defect.message : Defect → String
  | unknownOpcode mnemonic => "Unknown opcode: " ++ quoted mnemonic
  | operandCount opcode expected found =>
    opcode.mnemonic ++ " expects " ++ toString expected ++ " operand(s), found " ++ toString found
  | invalidRegister token => "Invalid register: " ++ quoted token
  | invalidImmediate token => "Invalid immediate: " ++ quoted token
  | invalidAddress token =>
    "Invalid address operand: " ++ quoted token ++ " (expected " ++ quoted "[Rn]" ++ ")"
  | undefinedLabel label => "Undefined label: " ++ quoted label
  | duplicateLabel label firstLine =>
    "Re-defined label: " ++ quoted label ++ " (first defined on line " ++ toString firstLine ++ ")"
  | misalignedTarget target =>
    "Branch target " ++ toString target ++ " is not a word-aligned instruction address"

end FiveStage
