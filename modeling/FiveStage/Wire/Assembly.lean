import FiveStage.Assembly.Basic
import FiveStage.Wire.Instruction

namespace FiveStage

namespace Defect

def kind : Defect → String
  | unknownOpcode _ => "unknownOpcode"
  | operandCount _ _ _ => "operandCount"
  | invalidRegister _ => "invalidRegister"
  | invalidImmediate _ => "invalidImmediate"
  | invalidAddress _ => "invalidAddress"
  | undefinedLabel _ => "undefinedLabel"
  | duplicateLabel _ _ => "duplicateLabel"
  | misalignedTarget _ => "misalignedTarget"

def members : Defect → List (Json.Name × Json)
  | unknownOpcode mnemonic => [("mnemonic", .string mnemonic)]
  | operandCount opcode expected found =>
    [("opcode", opcode.toJson), ("expected", .ofNat expected), ("found", .ofNat found)]
  | invalidRegister token => [("token", .string token)]
  | invalidImmediate token => [("token", .string token)]
  | invalidAddress token => [("token", .string token)]
  | undefinedLabel label => [("label", .string label)]
  | duplicateLabel label firstLine =>
    [("label", .string label), ("first_line", .ofNat firstLine)]
  | misalignedTarget target => [("target", .int target)]

-- A defect is written as its kind and the fields of that kind.
def toJson (defect : Defect) : Json :=
  .object (("kind", .string defect.kind) :: defect.members)

-- Inside a defect an opcode may also come with an empty object.
def opcodeOfJson? : Json → Option Opcode
  | .object [(name, .object [])] => Opcode.ofMnemonic? name.text
  | document => Opcode.ofJson? document

def target? : Json → Option Int
  | .int n => if Int64.minValue.toInt ≤ n ∧ n ≤ Int64.maxValue.toInt then some n else none
  | _ => none

-- Reads the fields of a kind. No field may be missing.
def ofFields? (kind : String) (fields : Json) : Option Defect :=
  let named (names : List String) := Json.Record.ofJson? names fields
  match kind with
  | "unknownOpcode" => do
    let record ← named ["mnemonic"]
    unknownOpcode <$> record.required "mnemonic" Json.string?
  | "operandCount" => do
    let record ← named ["opcode", "expected", "found"]
    let opcode ← record.required "opcode" opcodeOfJson?
    let expected ← record.required "expected" Json.nat?
    let found ← record.required "found" Json.nat?
    return operandCount opcode expected found
  | "invalidRegister" => do
    let record ← named ["token"]
    invalidRegister <$> record.required "token" Json.string?
  | "invalidImmediate" => do
    let record ← named ["token"]
    invalidImmediate <$> record.required "token" Json.string?
  | "invalidAddress" => do
    let record ← named ["token"]
    invalidAddress <$> record.required "token" Json.string?
  | "undefinedLabel" => do
    let record ← named ["label"]
    undefinedLabel <$> record.required "label" Json.string?
  | "duplicateLabel" => do
    let record ← named ["label", "first_line"]
    let label ← record.required "label" Json.string?
    let firstLine ← record.required "first_line" Json.nat?
    return duplicateLabel label firstLine
  | "misalignedTarget" => do
    let record ← named ["target"]
    misalignedTarget <$> record.required "target" target?
  | _ => none

-- How deep arrays and objects may nest in a document that has to be held whole.
def deepest : Nat := 127

-- Reads a defect that stands inside `depth` arrays and objects of a document.
-- The kind may come anywhere among the fields, or in front of them in an
-- array; what is no field of the kind is held along, so it may not nest
-- without limit.
def ofJson? (depth : Nat) (document : Json) : Option Defect := do
  guard (document.fits (deepest - depth))
  match document with
  | .object members =>
    match members.partition fun member => member.1.text == "kind" with
    | ([(_, .string kind)], fields) => ofFields? kind (.object fields)
    | _ => none
  | .array (.string kind :: fields) => ofFields? kind (.array fields)
  | _ => none

end Defect

namespace Diagnostic

def toJson (diagnostic : Diagnostic) : Json :=
  .object [
    ("line", .ofNat diagnostic.line),
    ("message", .string diagnostic.message),
    ("content", .string diagnostic.content),
    ("kind", diagnostic.defect.toJson)]

def ofJson? (depth : Nat) (document : Json) : Option Diagnostic := do
  let record ← Json.Record.ofJson? ["line", "message", "content", "kind"] document
  let line ← record.required "line" Json.nat?
  let message ← record.required "message" Json.string?
  let content ← record.required "content" Json.string?
  let defect ← record.required "kind" (Defect.ofJson? (depth + 1))
  return { line, message, content, defect }

end Diagnostic

namespace Assembly

def toJson (assembly : Assembly) : Json :=
  .object [
    ("instructions", .array (assembly.instructions.map Instruction.toJson)),
    ("errors", .array (assembly.diagnostics.map Diagnostic.toJson))]

def ofJson? (document : Json) : Option Assembly := do
  let record ← Json.Record.ofJson? ["instructions", "errors"] document
  let instructions ← record.required "instructions" fun value => do
    (← value.array?).mapM Instruction.ofJson?
  let diagnostics ← record.required "errors" fun value => do
    (← value.array?).mapM (Diagnostic.ofJson? 2)
  return { instructions, diagnostics }

end Assembly

end FiveStage
