import FiveStage.Store.Basic

namespace FiveStage

inductive StoreMethod
  | save | list | get | update | delete
  deriving DecidableEq

namespace StoreMethod

def all : List StoreMethod := [save, list, get, update, delete]

def name : StoreMethod → String
  | save => "save"
  | list => "list"
  | get => "get"
  | update => "update"
  | delete => "delete"

def ofName? (name : String) : Option StoreMethod :=
  all.find? fun method => method.name == name

end StoreMethod

-- A store whose medium can be made to fail in some of its methods. A method
-- that fails does nothing else.
structure FailingStore (σ : Type u) where
  store : σ
  -- the reason given, and the methods concerned
  failure : Option (String × List StoreMethod) := none

namespace FailingStore

def fault? (failing : FailingStore σ) (method : StoreMethod) : Option StoreFault :=
  match failing.failure with
  | none => none
  | some (reason, concerned) =>
    if method ∈ concerned then some (.backend reason) else none

private def write (failing : FailingStore σ) (method : StoreMethod)
    (run : σ → Except StoreFault α × σ) : Except StoreFault α × FailingStore σ :=
  match failing.fault? method with
  | some fault => (.error fault, failing)
  | none =>
    let (outcome, store) := run failing.store
    (outcome, { failing with store })

private def read (failing : FailingStore σ) (method : StoreMethod)
    (run : σ → Except StoreFault α) : Except StoreFault α :=
  match failing.fault? method with
  | some fault => .error fault
  | none => run failing.store

instance [Store σ] : Store (FailingStore σ) where
  save failing title source :=
    failing.write .save fun store => Store.save store title source
  list failing := failing.read .list Store.list
  get failing id := failing.read .get fun store => Store.get store id
  update failing id edit := failing.write .update fun store => Store.update store id edit
  delete failing id := failing.write .delete fun store => Store.delete store id

end FailingStore

end FiveStage
