namespace FiveStage

-- The architectural registers, in register-file order.
inductive Register
  | r0 | r1 | r2 | r3 | r4 | r5 | r6 | r7 | pc | lr | sp
  deriving DecidableEq

namespace Register

def all : List Register := [r0, r1, r2, r3, r4, r5, r6, r7, pc, lr, sp]

theorem mem_all (r : Register) : r ∈ all := by
  cases r <;> decide

def name : Register → String
  | r0 => "R0"
  | r1 => "R1"
  | r2 => "R2"
  | r3 => "R3"
  | r4 => "R4"
  | r5 => "R5"
  | r6 => "R6"
  | r7 => "R7"
  | pc => "PC"
  | lr => "LR"
  | sp => "SP"

def index : Register → Fin 11
  | r0 => 0
  | r1 => 1
  | r2 => 2
  | r3 => 3
  | r4 => 4
  | r5 => 5
  | r6 => 6
  | r7 => 7
  | pc => 8
  | lr => 9
  | sp => 10

theorem index_injective {a b : Register} (h : a.index = b.index) : a = b := by
  cases a <;> cases b <;> first | rfl | exact absurd h (by decide)

-- Names are exact: letter case counts.
def ofName? (name : String) : Option Register :=
  all.find? fun r => r.name == name

@[simp] theorem ofName?_name (r : Register) : ofName? r.name = some r := by
  cases r <;> decide

theorem name_of_ofName? {name : String} {r : Register} (h : ofName? name = some r) :
    r.name = name := by
  simpa using List.find?_some h

end Register

end FiveStage
