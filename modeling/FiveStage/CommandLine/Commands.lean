import FiveStage.CommandLine.Arguments
import FiveStage.CommandLine.Host
import FiveStage.Session.Snapshot
import FiveStage.Statistics.Report
import FiveStage.Wire.Config

namespace FiveStage

-- The instructions of a program with their addresses.
def Assembly.listing (assembly : Assembly) : List (Nat × Instruction) :=
  assembly.instructions.mapIdx fun i inst => (4 * i, inst)

namespace CommandLine

def listingLine (address : Nat) (inst : Instruction) : String :=
  Numeral.address address ++ "  " ++ inst.bits ++ "  " ++ inst.text ++ "\n"

def listingText (assembly : Assembly) : String :=
  String.join (assembly.listing.map fun (address, inst) => listingLine address inst)

-- What is wrong with a file, with the lines concerned.
def diagnosticsText (path : String) (diagnostics : List Diagnostic) : String :=
  String.join (diagnostics.map fun diagnostic =>
    path ++ ":" ++ toString diagnostic.line ++ ": " ++ diagnostic.message ++ "\n" ++
      "    " ++ String.ofList (Text.trim diagnostic.content.toList) ++ "\n")

private def columns (clock pc stage text : String) : String :=
  Numeral.padLeft 6 ' ' clock ++ "  " ++ Numeral.padLeft 6 ' ' pc ++ "  " ++
    Numeral.padRight 5 ' ' stage ++ " " ++ text ++ "\n"

def occupancyHeader : String := columns "clock" "pc" "stage" "instruction"

-- The stage that is occupied and the instruction in it.
def occupancyLine (machine : Machine) : String :=
  let (stage, text) := match machine.pipeline.resident? with
    | none => ("-", "")
    | some (stage, latch) => (stage.short, (latch.instruction.map (·.text)).getD "")
  columns (toString machine.clock) (Numeral.address machine.pc.toNat) stage text

-- The state in which a run ended. Registers that hold zero are left out,
-- except the stack pointer.
def finalText (machine : Machine) : String :=
  let shown := machine.registers.toList.filter fun (r, value) => value ≠ 0 || r = .sp
  "[*] Finished at clock " ++ toString machine.clock ++
    " (pc=" ++ Numeral.address machine.pc.toNat ++ ")\n" ++
  "flags " ++ machine.flags.render ++ "\n" ++
  String.join (shown.map fun (r, value) =>
    "  " ++ Numeral.padRight 3 ' ' r.name ++ " = " ++ toString value ++ "\n") ++
  String.join (machine.memory.toList.map fun (address, value) =>
    "  [" ++ Numeral.address address.toNat ++ "] = " ++ toString value ++ "\n")

variable {m : Type → Type u} [Monad m] [Host m]

-- Ends a command with an error.
def fail (message : String) : m UInt32 := do
  Host.printError ("Error: " ++ message ++ "\n")
  return 1

-- Runs the rest of a command on a source file.
def withSource (path : String) (rest : String → m UInt32) : m UInt32 := do
  match ← readText path with
  | .error reason => fail ("cannot read " ++ path ++ ": " ++ reason)
  | .ok text => rest text

-- Runs the rest of a command on a session with a source file loaded, unless
-- there are diagnostics.
def withSession (config : Config) (path : String) (rest : Session → m UInt32) : m UInt32 :=
  withSource path fun text => do
    let session := (Session.start config).load text
    if session.program.isClean then rest session
    else
      Host.printError (diagnosticsText path session.program.diagnostics)
      return 1

def check (config : Config) (path : String) (listing : Bool) : m UInt32 :=
  withSource path fun text => do
    let program := Assembly.ofText config.redefinition 1 text
    if listing then Host.print (listingText program)
    Host.printError (diagnosticsText path program.diagnostics)
    if program.isClean then
      Host.print (path ++ ": " ++ toString program.instructions.length ++
        " instruction(s), no errors\n")
      return 0
    else
      Host.printError (path ++ ": " ++ toString program.diagnostics.length ++ " error(s)\n")
      return 1

-- Steps so many times and shows the pipeline after each.
def stepTimes (pause : Option Nat) : Nat → Session → m UInt32
  | 0, _ => return 0
  | n + 1, session => do
    match session.step with
    | .error fault => fail fault.message
    | .ok next =>
      Host.print (occupancyLine next.machine)
      if let some milliseconds := pause then Host.pause milliseconds
      stepTimes pause n next

def step (config : Config) (path : String) (cycles : Nat) (play : Bool) : m UInt32 :=
  withSession config path fun session => do
    Host.print occupancyHeader
    let pause := if play then some config.session.playInterval.toNat else none
    stepTimes pause cycles session

-- Shows how a run ended.
def showFinal (session : Session) (json : Bool) : m UInt32 := do
  if json then
    Host.print (session.machine.toJson.pretty ++ "\n")
  else
    Host.print (finalText session.machine)
    Host.print (session.statistics.report [])
  return 0

def run (config : Config) (path : String) (maxCycles : Option Nat) (json : Bool)
    (exportTo : Option String) : m UInt32 :=
  withSession config path fun session => do
    let budget := maxCycles.getD config.general.maxCycles.toNat
    match session.run budget with
    | (.error fault, _) => fail fault.message
    | (.ok reason, session) =>
      if reason = .outOfCycles then
        Host.printError ("[!] Stopped after " ++ toString budget ++ " cycles without halting\n")
      match exportTo with
      | none => showFinal session json
      | some out =>
        match ← Host.writeFile out session.exportText with
        | .ok () => showFinal session json
        | .error fault => fail ("cannot write " ++ out ++ ": " ++ fault.message)

def perform (config : Config) : Command → m UInt32
  | .check path listing => check config path listing
  | .step path cycles play => step config path cycles play
  | .run path maxCycles json exportTo => run config path maxCycles json exportTo

-- Loads the configuration and performs the command. Gives the exit code.
def Invocation.perform (invocation : Invocation) : m UInt32 := do
  match invocation.config with
  | none => CommandLine.perform {} invocation.command
  | some path =>
    let content ← Host.readFile path
    match Config.ofFile path content.toOption with
    | .error fault => fail fault.message
    | .ok config => CommandLine.perform config invocation.command

end CommandLine

end FiveStage
