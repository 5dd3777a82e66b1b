import FiveStage.Config
import FiveStage.Json.Reader
import FiveStage.Json.Record

namespace FiveStage.Config

def longWord? (document : Json) : Option UInt64 :=
  document.nat?.map UInt64.ofNat

def ofLongWord (w : UInt64) : Json := .ofNat w.toNat

def General.toJson (general : General) : Json :=
  .object [
    ("trace_instructions", .bool general.traceInstructions),
    ("max_cycles", ofLongWord general.maxCycles)]

def General.ofJson? (document : Json) : Option General := do
  let record ← Json.Record.ofJson? ["trace_instructions", "max_cycles"] document
  let traceInstructions ← record.orElse "trace_instructions" default Json.bool?
  let maxCycles ← record.orElse "max_cycles" defaultMaxCycles longWord?
  return { traceInstructions, maxCycles }

def Cpu.toJson (cpu : Cpu) : Json :=
  .object [("start_pc", .ofWord cpu.startPc), ("initial_sp", .ofSignedWord cpu.initialSp)]

def Cpu.ofJson? (document : Json) : Option Cpu := do
  let record ← Json.Record.ofJson? ["start_pc", "initial_sp"] document
  let startPc ← record.orElse "start_pc" defaultStartPc Json.word?
  let initialSp ← record.orElse "initial_sp" defaultInitialSp Json.signedWord?
  return { startPc, initialSp }

def Assembler.toJson (assembler : Assembler) : Json :=
  .object [("allow_label_redefinition", .bool assembler.allowLabelRedefinition)]

def Assembler.ofJson? (document : Json) : Option Assembler := do
  let record ← Json.Record.ofJson? ["allow_label_redefinition"] document
  let allowLabelRedefinition ← record.orElse "allow_label_redefinition" default Json.bool?
  return { allowLabelRedefinition }

def Session.toJson (session : Config.Session) : Json :=
  .object [
    ("history_limit", ofLongWord session.historyLimit),
    ("play_interval_ms", ofLongWord session.playInterval)]

def Session.ofJson? (document : Json) : Option Config.Session := do
  let record ← Json.Record.ofJson? ["history_limit", "play_interval_ms"] document
  let historyLimit ← record.orElse "history_limit" defaultHistoryLimit longWord?
  let playInterval ← record.orElse "play_interval_ms" defaultPlayInterval longWord?
  return { historyLimit, playInterval }

def toJson (config : Config) : Json :=
  .object [
    ("general", config.general.toJson),
    ("cpu", config.cpu.toJson),
    ("assembler", config.assembler.toJson),
    ("session", config.session.toJson)]

-- A section that is not given is the default one.
def ofJson? (document : Json) : Option Config := do
  let record ← Json.Record.ofJson? ["general", "cpu", "assembler", "session"] document
  let general ← record.orElse "general" {} General.ofJson?
  let cpu ← record.orElse "cpu" {} Cpu.ofJson?
  let assembler ← record.orElse "assembler" {} Assembler.ofJson?
  let session ← record.orElse "session" {} Session.ofJson?
  return { general, cpu, assembler, session }

-- Reads a configuration from a JSON text.
def ofText (text : String) : Except ConfigFault Config :=
  match (Json.parse? text).bind ofJson? with
  | some config => .ok config
  | none => .error .malformed

-- Reads a configuration from what a file holds. There is nothing to read if
-- the file could not be opened.
def ofFile (path : String) (content : Option ByteArray) : Except ConfigFault Config :=
  match content.bind String.fromUTF8? with
  | some text => ofText text
  | none => .error (.unreadable path)

end FiveStage.Config
