import FiveStage.Store.Shelf

namespace FiveStage

namespace Store

-- What can be asked of a store.
inductive Call
  | save (title source : String)
  | list
  | get (id : Nat)
  | update (id : Nat) (edit : ProgramEdit)
  | delete (id : Nat)
  deriving DecidableEq

inductive Answer
  | saved (id : Nat)
  | listed (programs : List Program)
  | found (program : Program)
  | done
  | refused (fault : StoreFault)
  deriving DecidableEq

def Answer.of (given : α → Answer) : Except StoreFault α → Answer
  | .ok a => given a
  | .error fault => .refused fault

-- The answer to a call, and the store afterwards.
def answer [Store σ] (store : σ) : Call → Answer × σ
  | .save title source =>
    let (outcome, store) := Store.save store title source
    (.of .saved outcome, store)
  | .list => (.of .listed (Store.list store), store)
  | .get id => (.of .found (Store.get store id), store)
  | .update id edit =>
    let (outcome, store) := Store.update store id edit
    (.of (fun () => .done) outcome, store)
  | .delete id =>
    let (outcome, store) := Store.delete store id
    (.of (fun () => .done) outcome, store)

end Store

-- A call that was made at some time, and what it was answered.
structure LedgerEntry where
  now : Nat
  call : Store.Call
  answer : Store.Answer
  deriving DecidableEq

namespace LedgerEntry

-- The id that was given out.
def saved? : LedgerEntry → Option Nat
  | ⟨_, .save _ _, .saved id⟩ => some id
  | _ => none

-- The id of a program that was taken away.
def deleted? : LedgerEntry → Option Nat
  | ⟨_, .delete id, .done⟩ => some id
  | _ => none

-- What was set of the program with an id. A save sets all there is to set.
def edit? (id : Nat) : LedgerEntry → Option ProgramEdit
  | ⟨_, .save title source, .saved given⟩ =>
    if given = id then some { title := some title, source := some source } else none
  | ⟨_, .update changed edit, .done⟩ => if changed = id then some edit else none
  | _ => none

def title? (id : Nat) (entry : LedgerEntry) : Option String :=
  (entry.edit? id).bind (·.title)

def source? (id : Nat) (entry : LedgerEntry) : Option String :=
  (entry.edit? id).bind (·.source)

def createdAt? (id : Nat) (entry : LedgerEntry) : Option Nat :=
  if entry.saved? = some id then some entry.now else none

def updatedAt? (id : Nat) (entry : LedgerEntry) : Option Nat :=
  (entry.edit? id).map fun _ => entry.now

end LedgerEntry

-- A shelf that was new once, and the calls made to it since.
structure Ledger where
  store : DatedShelf := { shelf := .empty }
  -- the last one first
  entries : List LedgerEntry := []
  deriving DecidableEq

namespace Ledger

-- Makes a call when the clock shows some time.
def enter (ledger : Ledger) (now : Nat) (call : Store.Call) : Ledger :=
  let (answer, store) := Store.answer { ledger.store with now } call
  { store := store, entries := ⟨now, call, answer⟩ :: ledger.entries }

def ofCalls (calls : List (Nat × Store.Call)) : Ledger :=
  calls.foldl (fun ledger call => ledger.enter call.1 call.2) {}

-- The ids that were given out, the last one first.
def saved (ledger : Ledger) : List Nat :=
  ledger.entries.filterMap LedgerEntry.saved?

def deleted (ledger : Ledger) : List Nat :=
  ledger.entries.filterMap LedgerEntry.deleted?

-- The ids whose programs have not been taken away.
def live (ledger : Ledger) : List Nat :=
  ledger.saved.filter (· ∉ ledger.deleted)

end Ledger

end FiveStage
