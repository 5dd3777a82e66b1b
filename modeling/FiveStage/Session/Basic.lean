import FiveStage.Assembly.Basic
import FiveStage.Config
import FiveStage.Machine.Cycle
import FiveStage.Session.History
import FiveStage.Statistics.Basic
import FiveStage.Store.Basic

namespace FiveStage

-- Work on one program: its text and assembly, the machine that runs it, and
-- what the machine was before.
structure Session where
  config : Config
  source : String
  program : Assembly
  machine : Machine
  history : History (Machine × Statistics)
  statistics : Statistics
  -- the saved program that the text belongs to
  programId : Option Nat
  -- the id for the next instruction that is assembled
  nextInstruction : Nat
  deriving DecidableEq

-- Why a session refuses to do something.
inductive SessionFault
  | programHasErrors (count : Nat)
  | decode (fault : DecodeFault)
  | store (fault : StoreFault)
  deriving DecidableEq

def SessionFault.message : SessionFault → String
  | programHasErrors count =>
    "Program has " ++ toString count ++ " assembly error(s); fix them before stepping"
  | decode fault => fault.message
  | store fault => fault.message

inductive RunEnd
  | halted | outOfCycles
  deriving DecidableEq

namespace Session

-- A session with an empty program.
def start (config : Config) : Session where
  config := config
  source := ""
  program := {}
  machine := config.resetMachine
  history := .empty config.session.historyLimit.toNat
  statistics := {}
  programId := none
  nextInstruction := 1

-- Puts the machine back to its start and forgets what has happened.
def reset (session : Session) : Session :=
  { session with
    machine := session.config.resetMachine
    history := .empty session.config.session.historyLimit.toNat
    statistics := {} }

-- Takes on a program text.
def load (session : Session) (text : String) : Session :=
  let program := Assembly.ofText session.config.redefinition session.nextInstruction text
  { session with
    source := text
    program := program
    nextInstruction := session.nextInstruction + program.instructions.length }.reset

def isHalted (session : Session) : Bool :=
  session.machine.isHalted session.program.instructions

-- The session when its machine has come to the next one.
def advanced (session : Session) (machine : Machine) : Session :=
  { session with
    machine := machine
    history := session.history.push (session.machine, session.statistics)
    statistics := session.statistics.observe session.machine }

-- What a session was turned into, unless that failed.
def settled : Except SessionFault Unit × Session → Except SessionFault Session
  | (.ok (), session) => .ok session
  | (.error fault, _) => .error fault

-- Runs one cycle, and gives the session as it is then, failed or not. A program
-- with diagnostics does not run.
def tryStep (session : Session) : Except SessionFault Unit × Session :=
  if session.program.isClean then
    match session.machine.cycle session.program.instructions with
    | .ok machine => (.ok (), session.advanced machine)
    | .error fault => (.error (.decode fault), session)
  else (.error (.programHasErrors session.program.diagnostics.length), session)

-- The session after one more cycle.
def step (session : Session) : Except SessionFault Session :=
  settled session.tryStep

-- Runs until nothing is left to do or so many cycles have passed. Also gives
-- the session as it is then, which after a failure is what the step that failed
-- has left.
def run : Nat → Session → Except SessionFault RunEnd × Session
  | 0, session => (.ok (if session.isHalted then .halted else .outOfCycles), session)
  | budget + 1, session =>
    if session.isHalted then (.ok .halted, session)
    else match session.tryStep with
      | (.ok (), next) => run budget next
      | (.error fault, left) => (.error fault, left)

-- Goes back to before the last step, if that is still known.
def undo? (session : Session) : Option Session :=
  session.history.pop?.map fun ((machine, statistics), history) =>
    { session with machine, statistics, history }

section Store

variable {σ : Type u} [Store σ]

-- Saves the text as a new program.
def saveNew (session : Session) (store : σ) (title : String) :
    Except SessionFault Nat × Session × σ :=
  match Store.save store title session.source with
  | (.ok id, store) => (.ok id, { session with programId := some id }, store)
  | (.error fault, store) => (.error (.store fault), session, store)

-- Saves the text: over the program it belongs to, or as a new one if it
-- belongs to none or to one that is gone.
def save (session : Session) (store : σ) (title : String) :
    Except SessionFault Nat × Session × σ :=
  match session.programId with
  | none => session.saveNew store title
  | some id =>
    let edit : ProgramEdit := { title := some title, source := some session.source }
    match Store.update store id edit with
    | (.ok (), store) => (.ok id, session, store)
    | (.error (.notFound _), store) => saveNew { session with programId := none } store title
    | (.error fault, store) => (.error (.store fault), session, store)

-- Deletes a saved program. Text that belonged to it then belongs to none.
def deleteSaved (session : Session) (store : σ) (id : Nat) :
    Except SessionFault Unit × Session × σ :=
  match Store.delete store id with
  | (.error fault, store) => (.error (.store fault), session, store)
  | (.ok (), store) =>
    let kept := session.programId.filter (· ≠ id)
    (.ok (), { session with programId := kept }, store)

-- Takes on the text of a saved program, and gives the session as it is then,
-- failed or not.
def tryOpen (session : Session) (store : σ) (id : Nat) : Except SessionFault Unit × Session :=
  match Store.get store id with
  | .error fault => (.error (.store fault), session)
  | .ok program => (.ok (), { session.load program.source with programId := some id })

-- The session with the text of a saved program.
def openSaved (session : Session) (store : σ) (id : Nat) : Except SessionFault Session :=
  settled (session.tryOpen store id)

end Store

end Session

end FiveStage
