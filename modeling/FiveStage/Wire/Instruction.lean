import FiveStage.Instruction.Control
import FiveStage.Instruction.Decoding
import FiveStage.Json.Record

namespace FiveStage

def Register.toJson (r : Register) : Json := .string r.name

def Register.ofJson? : Json → Option Register := Json.enum? Register.ofName?

def Opcode.toJson (op : Opcode) : Json := .string op.mnemonic

def Opcode.ofJson? : Json → Option Opcode := Json.enum? Opcode.ofMnemonic?

def Operand.toJson : Operand → Json
  | .register r => .object [("register", r.toJson)]
  | .immediate value => .object [("immediate", .ofSignedWord value)]

def Operand.ofJson? : Json → Option Operand
  | .object [(name, value)] =>
    if name.text = "register" then (Register.ofJson? value).map .register
    else if name.text = "immediate" then value.signedWord?.map .immediate
    else none
  | _ => none

namespace Instruction

def toJson (inst : Instruction) : Json :=
  .object [
    ("id", .ofNat inst.id),
    ("raw", .string inst.text),
    ("opcode", inst.opcode.toJson),
    ("operands", .array (inst.operands.map .string)),
    ("binary", .string inst.bits),
    ("line", .ofNat inst.line)]

def ofJson? (document : Json) : Option Instruction := do
  let record ← Json.Record.ofJson? ["id", "raw", "opcode", "operands", "binary", "line"] document
  let id ← record.required "id" Json.nat?
  let text ← record.required "raw" Json.string?
  let opcode ← record.required "opcode" Opcode.ofJson?
  let operands ← record.required "operands" fun value => do (← value.array?).mapM Json.string?
  let bits ← record.required "binary" Json.string?
  let line ← record.required "line" Json.nat?
  return { id, text, opcode, operands, bits, line }

end Instruction

namespace AluOperation

def name : AluOperation → String
  | add => "ADD"
  | sub => "SUB"
  | mov => "MOV"

def ofName? (name : String) : Option AluOperation :=
  [add, sub, mov].find? fun operation => operation.name == name

def toJson (operation : AluOperation) : Json := .string operation.name

def ofJson? : Json → Option AluOperation := Json.enum? ofName?

end AluOperation

namespace AluSource

def name : AluSource → String
  | register => "reg"
  | immediate => "imm"

def ofName? (name : String) : Option AluSource :=
  [register, immediate].find? fun source => source.name == name

def toJson (source : AluSource) : Json := .string source.name

def ofJson? : Json → Option AluSource := Json.enum? ofName?

end AluSource

namespace ControlSignals

def toJson (signals : ControlSignals) : Json :=
  .object [
    ("regWrite", .bool signals.regWrite),
    ("memRead", .bool signals.memRead),
    ("memWrite", .bool signals.memWrite),
    ("branch", .bool signals.branch),
    ("aluOp", signals.aluOperation.toJson),
    ("aluSrc", signals.aluSource.toJson),
    ("memToReg", .bool signals.memToReg)]

def ofJson? (document : Json) : Option ControlSignals := do
  let record ← Json.Record.ofJson?
    ["regWrite", "memRead", "memWrite", "branch", "aluOp", "aluSrc", "memToReg"] document
  let regWrite ← record.required "regWrite" Json.bool?
  let memRead ← record.required "memRead" Json.bool?
  let memWrite ← record.required "memWrite" Json.bool?
  let branch ← record.required "branch" Json.bool?
  let aluOperation ← record.required "aluOp" AluOperation.ofJson?
  let aluSource ← record.required "aluSrc" AluSource.ofJson?
  let memToReg ← record.required "memToReg" Json.bool?
  return { regWrite, memRead, memWrite, branch, aluOperation, aluSource, memToReg }

end ControlSignals

namespace OperandFields

-- Fields that do not apply are left out.
def toJson (decoded : OperandFields) : Json :=
  .object (
    Json.optionalMember "src1Reg" Register.toJson decoded.source1 ++
    Json.optionalMember "src2Reg" Register.toJson decoded.source2 ++
    Json.optionalMember "destReg" Register.toJson decoded.destination ++
    Json.optionalMember "immValue" Json.ofSignedWord decoded.immediate)

def ofJson? (document : Json) : Option OperandFields := do
  let record ← Json.Record.ofJson? ["src1Reg", "src2Reg", "destReg", "immValue"] document
  let register (name : String) := record.orElse name none (Json.Record.nullable Register.ofJson?)
  let source1 ← register "src1Reg"
  let source2 ← register "src2Reg"
  let destination ← register "destReg"
  let immediate ← record.orElse "immValue" none (Json.Record.nullable Json.signedWord?)
  return { source1, source2, destination, immediate }

end OperandFields

end FiveStage
