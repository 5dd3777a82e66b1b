import FiveStage.Machine.Basic

namespace FiveStage

-- What has happened in a run.
structure Statistics where
  cycles : Nat := 0
  retired : Nat := 0
  -- the retired instructions by kind
  alu : Nat := 0
  compares : Nat := 0
  loads : Nat := 0
  stores : Nat := 0
  branches : Nat := 0
  -- the resolved branches by outcome
  taken : Nat := 0
  notTaken : Nat := 0
  deriving DecidableEq

namespace Statistics

def retire (stats : Statistics) (op : Opcode) : Statistics :=
  let stats := { stats with retired := stats.retired + 1 }
  match op with
  | .add | .sub | .mov => { stats with alu := stats.alu + 1 }
  | .cmp => { stats with compares := stats.compares + 1 }
  | .ldr => { stats with loads := stats.loads + 1 }
  | .str => { stats with stores := stats.stores + 1 }
  | .b | .beq | .bne => { stats with branches := stats.branches + 1 }

def resolveBranch (stats : Statistics) (taken : Bool) : Statistics :=
  if taken then { stats with taken := stats.taken + 1 }
  else { stats with notTaken := stats.notTaken + 1 }

-- Counts the cycle that starts from a machine: an instruction retires in
-- write-back, and a branch resolves in execute.
def observe (stats : Statistics) (machine : Machine) : Statistics :=
  let stats := { stats with cycles := stats.cycles + 1 }
  match machine.pipeline.resident? with
  | some (.writeBack, { instruction := some inst, .. }) => stats.retire inst.opcode
  | some (.execute, { instruction := some inst, .. }) =>
    if inst.opcode.isBranch then stats.resolveBranch (inst.opcode.takes machine.flags)
    else stats
  | _ => stats

end Statistics

end FiveStage
