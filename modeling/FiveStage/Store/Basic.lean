namespace FiveStage

-- A saved assembly program. Times are in whole seconds.
structure Program where
  id : Nat
  title : String
  source : String
  createdAt : Nat
  updatedAt : Nat
  deriving DecidableEq

-- A change to a saved program. What is absent stays as it is.
structure ProgramEdit where
  title : Option String := none
  source : Option String := none
  deriving DecidableEq

inductive StoreFault
  | notFound (id : Nat)
  | backend (reason : String)
  deriving DecidableEq

def StoreFault.message : StoreFault → String
  | notFound id => "Program prog-" ++ toString id ++ " not found"
  | backend reason => "Storage backend error: " ++ reason

-- A place that keeps programs. Every method may fail, and those that write
-- give the store afterwards, failed or not.
class Store (σ : Type u) where
  save (store : σ) (title source : String) : Except StoreFault Nat × σ
  list (store : σ) : Except StoreFault (List Program)
  get (store : σ) (id : Nat) : Except StoreFault Program
  update (store : σ) (id : Nat) (edit : ProgramEdit) : Except StoreFault Unit × σ
  delete (store : σ) (id : Nat) : Except StoreFault Unit × σ

end FiveStage
