import FiveStage.Session.Basic
import FiveStage.Json.Reader
import FiveStage.Json.Writer
import FiveStage.Wire.Machine

namespace FiveStage

-- A recorded state of the machine, with its clock.
structure Snapshot where
  step : Nat
  state : Machine
  deriving DecidableEq

namespace Snapshot

def ofMachine (machine : Machine) : Snapshot := ⟨machine.clock, machine⟩

def toJson (snapshot : Snapshot) : Json :=
  .object [("step", .ofNat snapshot.step), ("state", snapshot.state.toJson)]

def ofJson? (document : Json) : Option Snapshot := do
  let record ← Json.Record.ofJson? ["step", "state"] document
  let step ← record.required "step" Json.nat?
  let state ← record.required "state" Machine.ofJson?
  return { step, state }

-- Reads an exported list back.
def listOfJson? (document : Json) : Option (List Snapshot) := do
  (← document.array?).mapM ofJson?

end Snapshot

-- The recorded states, oldest first, and the current one.
def Session.snapshots (session : Session) : List Snapshot :=
  let past := session.history.toList.map fun entry => entry.1
  (past.reverse ++ [session.machine]).map Snapshot.ofMachine

def Session.exportJson (session : Session) : Json :=
  .array (session.snapshots.map Snapshot.toJson)

-- The recorded run as a text.
def Session.exportText (session : Session) : String :=
  session.exportJson.pretty

end FiveStage
