import FiveStage.Machine.Cycle

namespace FiveStage.Machine

-- The machine after so many cycles, or the fault that stops it before.
def cycles (program : List Instruction) : Nat → Machine → Except DecodeFault Machine
  | 0, machine => .ok machine
  | n + 1, machine => do cycles program n (← machine.cycle program)

theorem cycles_zero (program : List Instruction) (machine : Machine) :
    cycles program 0 machine = .ok machine := rfl

-- Cycles add up.
theorem cycles_add (program : List Instruction) (m n : Nat) (machine : Machine) :
    cycles program (m + n) machine = (cycles program m machine).bind (cycles program n) := by
  induction m generalizing machine with
  | zero => rw [Nat.zero_add]; rfl
  | succ m ih =>
    rw [Nat.succ_add]
    simp only [cycles, bind, Except.bind]
    cases machine.cycle program with
    | error fault => rfl
    | ok next => exact ih next

end FiveStage.Machine
