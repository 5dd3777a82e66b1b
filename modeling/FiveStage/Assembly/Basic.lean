import FiveStage.Assembly.LabelTable
import FiveStage.Instruction.Basic
import FiveStage.Text.Uppercase

namespace FiveStage

-- What assembling a program gives: its instructions, and what is wrong with
-- the lines that gave none. Both are in the order of the source.
structure Assembly where
  instructions : List Instruction := []
  diagnostics : List Diagnostic := []
  deriving DecidableEq

namespace Opcode

-- Checks the operands of an instruction: first their number, then each of them
-- from left to right.
def validate (op : Opcode) (operands : List String) : Except Defect Unit := do
  match op.family, operands with
  | .arithmetic, [destination, source, second] =>
    discard (Token.register destination)
    discard (Token.register source)
    discard (Token.registerOrImmediate second)
  | .moveCompare, [register, second] =>
    discard (Token.register register)
    discard (Token.registerOrImmediate second)
  | .loadStore, [register, address] =>
    discard (Token.register register)
    discard (Token.address address)
  | .branch, [target] =>
    discard (Token.branchTarget target)
  | _, _ => throw (.operandCount op op.operandCount operands.length)

end Opcode

namespace Assembly

-- Whether the program may run.
def isClean (assembly : Assembly) : Bool :=
  assembly.diagnostics.isEmpty

-- The instruction of a line. A body of nothing but commas has no mnemonic and
-- is reported whole.
def assembleLine (labels : LabelTable) (id : Nat) (line : SourceLine) :
    Except Defect Instruction := do
  match line.tokens with
  | [] => throw (.unknownOpcode line.body)
  | first :: rest =>
    let mnemonic := String.ofList (Text.uppercase first.toList)
    match Opcode.ofMnemonic? mnemonic with
    | none => throw (.unknownOpcode mnemonic)
    | some opcode =>
      let operands := rest.map labels.resolve
      opcode.validate operands
      return Instruction.build id opcode operands line.body line.number

-- Assembles lines one after another. Instructions are numbered from `firstId`
-- and a line that fails takes no number.
def assembleLines (labels : LabelTable) (firstId : Nat) : List SourceLine → Assembly
  | [] => {}
  | line :: rest =>
    if line.hasInstruction then
      match assembleLine labels firstId line with
      | .ok inst =>
        let tail := assembleLines labels (firstId + 1) rest
        { tail with instructions := inst :: tail.instructions }
      | .error defect =>
        let tail := assembleLines labels firstId rest
        { tail with diagnostics := Diagnostic.on line defect :: tail.diagnostics }
    else assembleLines labels firstId rest

-- Assembles a program. A line's duplicate label is reported before what else
-- is wrong with it.
def ofText (policy : Redefinition) (firstId : Nat) (text : String) : Assembly :=
  let lines := SourceLine.ofText text
  let (labels, duplicates) := LabelTable.ofLines policy lines
  let assembled := assembleLines labels firstId lines
  { assembled with diagnostics := Diagnostic.merge duplicates assembled.diagnostics }

end Assembly

end FiveStage
