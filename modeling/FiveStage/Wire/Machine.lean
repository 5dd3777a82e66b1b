import FiveStage.Machine.Basic
import FiveStage.Wire.Instruction

namespace FiveStage

namespace RegisterFile

def toJson (file : RegisterFile) : Json :=
  .object (file.toList.map fun (r, value) => (r.name, .ofSignedWord value))

-- Registers that are not named hold zero; of a name that comes twice the later
-- value counts.
def ofJson? : Json → Option RegisterFile
  | .object members => do
    let entries ← members.mapM fun (name, value) => do
      return (← Register.ofName? name.text, ← value.signedWord?)
    return ofList entries
  | _ => none

end RegisterFile

namespace Memory

def toJson (memory : Memory) : Json :=
  .object (memory.toList.map fun (address, value) =>
    (toString address.toNat, .ofSignedWord value))

-- An address is written in decimal digits, without leading zeros and without
-- escapes.
def addressOfName? (name : Json.Name) : Option UInt32 := do
  let digits := name.text.toList
  guard (!name.escaped && digits.all Char.isDigit)
  guard (digits = ['0'] || digits.head? ≠ some '0')
  let n ← Numeral.ofDigits? 10 digits
  if n < UInt32.size then some (UInt32.ofNat n) else none

-- Of an address that comes twice the later value counts.
def ofJson? : Json → Option Memory
  | .object members => do
    let words ← members.mapM fun (name, value) => do
      return (← addressOfName? name, ← value.signedWord?)
    return ofList words
  | _ => none

end Memory

namespace Flags

def toJson (flags : Flags) : Json :=
  .object [("N", .bool flags.n), ("Z", .bool flags.z), ("C", .bool flags.c), ("V", .bool flags.v)]

def ofJson? (document : Json) : Option Flags := do
  let record ← Json.Record.ofJson? ["N", "Z", "C", "V"] document
  let n ← record.required "N" Json.bool?
  let z ← record.required "Z" Json.bool?
  let c ← record.required "C" Json.bool?
  let v ← record.required "V" Json.bool?
  return { n, z, c, v }

end Flags

def Stage.toJson (stage : Stage) : Json := .string stage.name

def Stage.ofJson? : Json → Option Stage := Json.enum? Stage.ofName?

namespace Latch

-- The instruction is written even when there is none; other absent fields are
-- left out.
def toJson (latch : Latch) : Json :=
  let instruction := (latch.instruction.map Instruction.toJson).getD .null
  .object (
    [(("instruction" : Json.Name), instruction)] ++
    Json.optionalMember "decoded" OperandFields.toJson latch.decoded ++
    Json.optionalMember "controlSignals" ControlSignals.toJson latch.signals ++
    Json.optionalMember "executionResult" Json.ofSignedWord latch.result ++
    Json.optionalMember "memoryAddress" Json.ofWord latch.address)

def ofJson? (document : Json) : Option Latch := do
  let record ← Json.Record.ofJson?
    ["instruction", "decoded", "controlSignals", "executionResult", "memoryAddress"] document
  let instruction ← record.optional "instruction" Instruction.ofJson?
  let decoded ← record.orElse "decoded" none (Json.Record.nullable OperandFields.ofJson?)
  let signals ← record.orElse "controlSignals" none (Json.Record.nullable ControlSignals.ofJson?)
  let result ← record.orElse "executionResult" none (Json.Record.nullable Json.signedWord?)
  let address ← record.orElse "memoryAddress" none (Json.Record.nullable Json.word?)
  return { instruction, decoded, signals, result, address }

end Latch

namespace Pipeline

def toJson (pipeline : Pipeline) : Json :=
  .object (Stage.all.map fun stage => (stage.name, (pipeline.latch stage).toJson))

def ofJson? (document : Json) : Option Pipeline := do
  let record ← Json.Record.ofJson? (Stage.all.map Stage.name) document
  let latch (stage : Stage) := record.required stage.name Latch.ofJson?
  let fetch ← latch .fetch
  let decode ← latch .decode
  let execute ← latch .execute
  let memory ← latch .memory
  let writeBack ← latch .writeBack
  return { fetch, decode, execute, memory, writeBack }

end Pipeline

namespace Machine

def toJson (machine : Machine) : Json :=
  .object [
    ("pc", .ofWord machine.pc),
    ("registers", machine.registers.toJson),
    ("memory", machine.memory.toJson),
    ("flags", machine.flags.toJson),
    ("pipeline", machine.pipeline.toJson),
    ("clock", .ofNat machine.clock)]

def ofJson? (document : Json) : Option Machine := do
  let record ← Json.Record.ofJson?
    ["pc", "registers", "memory", "flags", "pipeline", "clock"] document
  let pc ← record.required "pc" Json.word?
  let registers ← record.required "registers" RegisterFile.ofJson?
  let memory ← record.required "memory" Memory.ofJson?
  let flags ← record.required "flags" Flags.ofJson?
  let pipeline ← record.required "pipeline" Pipeline.ofJson?
  let clock ← record.required "clock" Json.nat?
  return { pc, registers, memory, flags, pipeline, clock }

end Machine

end FiveStage
