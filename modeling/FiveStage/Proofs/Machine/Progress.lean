import FiveStage.Proofs.Machine.Halting

namespace FiveStage

namespace Opcode

inductive Kind
  | alu | compare | load | store | branch
  deriving DecidableEq

def kind : Opcode → Kind
  | add | sub | mov => .alu
  | cmp => .compare
  | ldr => .load
  | str => .store
  | b | beq | bne => .branch

theorem kind_eq_branch_iff (op : Opcode) : op.kind = .branch ↔ op.isBranch := by
  cases op <;> decide

theorem isBranch_of_takes {op : Opcode} {flags : Flags} (h : op.takes flags) : op.isBranch := by
  cases op <;> first | rfl | contradiction

end Opcode

theorem OperandFields.Laid.immediate_isSome {op : Opcode} {decoded : OperandFields}
    (h : decoded.Laid op.family) (hbranch : op.isBranch) : decoded.immediate.isSome := by
  rw [of_decide_eq_true hbranch] at h
  cases h
  rfl

-- A branch that is taken always has somewhere to go.
theorem Latch.Carries.branchTarget?_isSome {inst : Instruction} {stage : Stage} {latch : Latch}
    (h : latch.Carries inst stage) (hstage : stage ≠ .fetch) (flags : Flags) :
    (Machine.branchTarget? flags latch).isSome = inst.opcode.takes flags := by
  obtain ⟨hsignals, decoded, hdecode, hdecoded⟩ := h.decoded_eq hstage
  rw [Machine.branchTarget?_eq h.instruction_eq hdecoded hsignals]
  cases htakes : inst.opcode.takes flags with
  | false => rfl
  | true =>
    have hlaid := Instruction.laid_of_decode hdecode
    simpa using hlaid.immediate_isSome (Opcode.isBranch_of_takes htakes)

namespace Pipeline

-- How far the instruction in flight has come.
def phase (pipeline : Pipeline) : Nat :=
  match pipeline.resident? with
  | none => 0
  | some (stage, _) => stage.depth

theorem phase_of_none {pipeline : Pipeline} (h : pipeline.resident? = none) :
    pipeline.phase = 0 := by
  rw [phase, h]

theorem phase_of_some {pipeline : Pipeline} {stage : Stage} {latch : Latch}
    (h : pipeline.resident? = some (stage, latch)) : pipeline.phase = stage.depth := by
  rw [phase, h]

end Pipeline

namespace Machine

section Events

variable (machine : Machine)

def holds (stage : Stage) (kind : Opcode.Kind) : Bool :=
  (machine.pipeline.latch stage).instruction.any fun inst => inst.opcode.kind = kind

def retires : Bool :=
  !(machine.pipeline.latch .writeBack).isIdle

-- Where the branch in execute sends the program counter, if it does.
def redirect? : Option UInt32 :=
  branchTarget? machine.flags (machine.pipeline.latch .execute)

-- Whether a branch is in execute and does not send it anywhere.
def fallsThrough : Bool :=
  machine.holds .execute .branch && machine.redirect?.isNone

-- Whether a branch has left execute and has yet to retire.
def awaitsBranch : Bool :=
  machine.holds .memory .branch || machine.holds .writeBack .branch

end Events

variable {program : List Instruction} {machine next : Machine}

section Phase

theorem retires_of_none (h : machine.pipeline.resident? = none) : machine.retires = false := by
  have hidle := machine.pipeline.foremost_resident?
  rw [h] at hidle
  rw [retires, hidle .writeBack]
  rfl

-- Nothing lies further along than write-back.
theorem retires_of_some {stage : Stage} {latch : Latch}
    (h : machine.pipeline.resident? = some (stage, latch)) :
    machine.retires = decide (stage = .writeBack) := by
  have hforemost := machine.pipeline.foremost_resident?
  rw [h] at hforemost
  by_cases hlast : stage = .writeBack
  · rw [retires, decide_eq_true hlast, ← hlast, hforemost.1]
    rfl
  · have hahead : stage.depth < Stage.writeBack.depth := by
      cases stage <;> first | contradiction | decide
    rw [retires, decide_eq_false hlast, hforemost.2 .writeBack hahead]
    rfl

-- Each cycle brings an instruction one stage on, takes it out of the pipeline,
-- or finds nothing to do.
theorem phase_of_cycle (hcycle : machine.cycle program = .ok next) :
    next.pipeline.phase + 6 * machine.retires.toNat + (machine.isHalted program).toNat =
      machine.pipeline.phase + 1 := by
  cases passes_of_cycle hcycle with
  | halted hresident hslot hnext | fetched hresident hslot hnext =>
    rw [isHalted_eq, hresident, hslot, retires_of_none hresident, Pipeline.phase_of_none hresident,
      hnext]
    rfl
  | @passed stage following latch passed inst hresident hinst hfollowing hpassed hnext =>
    have hretires : machine.retires = false := by
      rw [retires_of_some hresident]
      cases stage <;> first | rfl | contradiction
    have hentered : next.pipeline.resident? = some (following, passed) := by
      rw [hnext, Pipeline.resident?_holding following hpassed]
    rw [isHalted_eq, hresident, hretires, Pipeline.phase_of_some hresident,
      Pipeline.phase_of_some hentered, Stage.depth_of_next? hfollowing]
    rfl
  | finished hresident hinst hnext =>
    rw [isHalted_eq, hresident, retires_of_some hresident, Pipeline.phase_of_some hresident, hnext]
    rfl

end Phase

section Branches

theorem holds_of_idle (h : machine.pipeline = .idle) (stage : Stage) (kind : Opcode.Kind) :
    machine.holds stage kind = false := by
  rw [holds, h, Pipeline.latch_idle]
  rfl

theorem holds_of_holding {stage : Stage} {latch : Latch} {inst : Instruction}
    (h : machine.pipeline = .holding stage latch) (hinst : latch.instruction = some inst)
    (other : Stage) (kind : Opcode.Kind) :
    machine.holds other kind = (decide (stage = other) && decide (inst.opcode.kind = kind)) := by
  rw [holds, h, Pipeline.instruction_holding, hinst]
  by_cases hother : stage = other <;> simp [hother]

-- A branch is awaited from when it leaves execute until it retires.
theorem Coherent.awaitsBranch_of_cycle (h : Coherent program machine)
    (hcycle : machine.cycle program = .ok next) :
    next.awaitsBranch.toNat + (machine.holds .writeBack .branch).toNat =
      machine.awaitsBranch.toNat + (machine.holds .execute .branch).toNat := by
  cases h with
  | idle hpipeline =>
    have hresident : machine.pipeline.resident? = none := by
      rw [hpipeline, Pipeline.resident?_idle]
    have hnext := pipeline_of_none hcycle hresident
    cases hslot : program[machine.nextSlot]? with
    | none =>
      rw [hslot] at hnext
      simp [awaitsBranch, holds_of_idle hpipeline, holds_of_idle hnext]
    | some inst =>
      rw [hslot] at hnext
      simp [awaitsBranch, holds_of_idle hpipeline, holds_of_holding hnext rfl]
  | @resident stage latch inst hpipeline hlatch hmem =>
    have hinst := hlatch.instruction_eq
    have hnext := pipeline_of_some hcycle (Coherent.resident?_eq hpipeline hlatch) hinst
    cases stage with
    | fetch | decode | execute | memory =>
      obtain ⟨passed, hpassed, hnext⟩ := hnext
      simp [awaitsBranch, holds_of_holding hpipeline hinst, holds_of_holding hnext hpassed]
    | writeBack =>
      simp [awaitsBranch, holds_of_holding hpipeline hinst, holds_of_idle hnext]

theorem holds_of_redirect? {target : UInt32} (h : machine.redirect? = some target) :
    machine.holds .execute .branch := by
  simp only [redirect?, branchTarget?, Option.bind_eq_bind, Option.bind_eq_some_iff] at h
  obtain ⟨inst, hinst, signals, -, h⟩ := h
  split at h
  · next htakes =>
    have hbranch := Opcode.isBranch_of_takes (Bool.and_eq_true_iff.mp htakes).2
    rw [holds, hinst, Option.any_some]
    exact decide_eq_true ((Opcode.kind_eq_branch_iff _).mpr hbranch)
  · contradiction

theorem redirect?_isSome_of_not_holds (h : machine.holds .execute .branch = false) :
    machine.redirect?.isSome = false := by
  cases hredirect : machine.redirect? with
  | none => rfl
  | some target =>
    rw [holds_of_redirect? hredirect] at h
    contradiction

theorem holds_writeBack_of_not_retires (h : machine.retires = false) (kind : Opcode.Kind) :
    machine.holds .writeBack kind = false := by
  have hnone : (machine.pipeline.latch .writeBack).instruction = none := by
    simpa [retires, Latch.isIdle] using h
  rw [holds, hnone]
  rfl

theorem redirect?_isSome_of_holding {latch : Latch} {inst : Instruction}
    (h : machine.pipeline = .holding .execute latch) (hlatch : latch.Carries inst .execute) :
    machine.redirect?.isSome = inst.opcode.takes machine.flags := by
  rw [redirect?, h, Pipeline.latch_holding_self, hlatch.branchTarget?_isSome Stage.noConfusion]

theorem retires_eq_add (machine : Machine) :
    machine.retires.toNat =
      (machine.holds .writeBack .alu).toNat + (machine.holds .writeBack .compare).toNat +
        (machine.holds .writeBack .load).toNat + (machine.holds .writeBack .store).toNat +
        (machine.holds .writeBack .branch).toNat := by
  cases hinst : (machine.pipeline.latch .writeBack).instruction with
  | none => simp [retires, holds, Latch.isIdle, hinst]
  | some inst =>
    cases hkind : inst.opcode.kind <;> simp [retires, holds, Latch.isIdle, hinst, hkind]

theorem holds_execute_eq_add (machine : Machine) :
    (machine.holds .execute .branch).toNat =
      machine.redirect?.isSome.toNat + machine.fallsThrough.toNat := by
  rw [fallsThrough]
  cases hbranch : machine.holds .execute .branch with
  | false =>
    rw [redirect?_isSome_of_not_holds hbranch]
    rfl
  | true => cases hredirect : machine.redirect? <;> simp

-- The program counter goes where the branch in execute sends it, and stays
-- where it is if the branch falls through.
theorem Coherent.pc_of_branch (h : Coherent program machine)
    (hcycle : machine.cycle program = .ok next) (hbranch : machine.holds .execute .branch) :
    next.pc = machine.redirect?.getD machine.pc := by
  cases h with
  | idle hpipeline =>
    rw [holds_of_idle hpipeline] at hbranch
    contradiction
  | @resident stage latch inst hpipeline hlatch hmem =>
    have hresident := Coherent.resident?_eq hpipeline hlatch
    rw [holds_of_holding hpipeline hlatch.instruction_eq, Bool.and_eq_true] at hbranch
    obtain rfl := of_decide_eq_true hbranch.1
    rw [cycle_of_execute hresident] at hcycle
    cases hcycle
    rw [redirect?, Pipeline.latch_of_resident? hresident]
    rfl

end Branches

end Machine

end FiveStage
