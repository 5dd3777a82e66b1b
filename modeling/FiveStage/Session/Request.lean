import FiveStage.Session.Basic

namespace FiveStage

-- What can be asked of a session. A request that goes to a store meets it in
-- whatever state it has come to since.
inductive Session.Request (σ : Type u)
  | load (text : String)
  | reset
  | step
  | run (budget : Nat)
  | undo
  | save (store : σ) (title : String)
  | openSaved (store : σ) (id : Nat)
  | deleteSaved (store : σ) (id : Nat)

namespace Session

variable {σ : Type u} [Store σ]

-- The session after a request, carried out or refused.
def perform (session : Session) : Request σ → Session
  | .load text => session.load text
  | .reset => session.reset
  | .step => session.tryStep.2
  | .run budget => (run budget session).2
  | .undo => session.undo?.getD session
  | .save store title => (session.save store title).2.1
  | .openSaved store id => (session.tryOpen store id).2
  | .deleteSaved store id => (session.deleteSaved store id).2.1

def performAll (session : Session) (requests : List (Request σ)) : Session :=
  requests.foldl perform session

end Session

end FiveStage
