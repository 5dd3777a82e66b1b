import FiveStage.Session.Request
import FiveStage.Store.Shelf

namespace FiveStage

-- The same request to other stores.
def Session.Request.map {σ : Type u} {τ : Type v} (f : σ → τ) : Request σ → Request τ
  | .load text => .load text
  | .reset => .reset
  | .step => .step
  | .run budget => .run budget
  | .undo => .undo
  | .save store title => .save (f store) title
  | .openSaved store id => .openSaved (f store) id
  | .deleteSaved store id => .deleteSaved (f store) id

-- A session and the shelf that it shares with others.
structure Sharing where
  session : Session
  store : DatedShelf

namespace Sharing

-- Whatever happens next: the session is asked for something, somebody else
-- goes to the shelf, or the clock beside it is set.
inductive Turn
  | own (request : Session.Request Unit)
  | save (title source : String)
  | update (id : Nat) (edit : ProgramEdit)
  | delete (id : Nat)
  | clock (now : Nat)

-- A new session beside a shelf that may be in use already.
def start (config : Config) (store : DatedShelf) : Sharing where
  session := .start config
  store := store

-- The store after a request to the session.
def storeAfter (sharing : Sharing) : Session.Request Unit → DatedShelf
  | .save () title => (sharing.session.save sharing.store title).2.2
  | .deleteSaved () id => (sharing.session.deleteSaved sharing.store id).2.2
  | .load _ | .reset | .step | .run _ | .undo | .openSaved () _ => sharing.store

def turn (sharing : Sharing) : Turn → Sharing
  | .own request =>
    { session := sharing.session.perform (request.map fun () => sharing.store)
      store := sharing.storeAfter request }
  | .save title source => { sharing with store := (Store.save sharing.store title source).2 }
  | .update id edit => { sharing with store := (Store.update sharing.store id edit).2 }
  | .delete id => { sharing with store := (Store.delete sharing.store id).2 }
  | .clock now => { sharing with store := { sharing.store with now } }

def turns (sharing : Sharing) (taken : List Turn) : Sharing :=
  taken.foldl turn sharing

end Sharing

end FiveStage
