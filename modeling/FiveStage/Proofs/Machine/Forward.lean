import FiveStage.Proofs.Machine.Alignment
import FiveStage.Proofs.Machine.Refinement

namespace FiveStage

namespace Instruction

-- The address that a branch names.
def target? (inst : Instruction) : Option UInt32 :=
  if inst.opcode.isBranch then
    (inst.decode.toOption.bind (·.immediate)).map Int32.toUInt32
  else none

theorem target?_of_decode {inst : Instruction} {decoded : OperandFields} {target : Int32}
    (h : inst.decode = .ok decoded) (hbranch : inst.opcode.isBranch)
    (htarget : decoded.immediate = some target) : inst.target? = some target.toUInt32 := by
  rw [target?, if_pos hbranch, toOption_eq_some.mpr h, Option.bind_some, htarget, Option.map_some]

end Instruction

-- Every branch leads further on than where it stands itself, out of the
-- program or not.
def Forward (program : List Instruction) : Prop :=
  ∀ slot inst, program[slot]? = some inst → ∀ target ∈ inst.target?, 4 * slot < target.toNat

instance : DecidablePred Forward := fun program =>
  decidable_of_iff (∀ entry ∈ program.zipIdx,
      entry.1.target?.all fun target => 4 * entry.2 < target.toNat) <| by
    simp only [Prod.forall, List.mem_zipIdx_iff_getElem?, Option.all_eq_true, decide_eq_true_eq]
    exact forall_comm

namespace Machine

open Architecture

variable {program : List Instruction} {machine : Machine}

-- An instruction takes six cycles from its fetch until it has retired.
theorem exists_cycles_six {inst : Instruction} {decoded : OperandFields}
    (hidle : machine.pipeline = .idle) (hinst : program[machine.nextSlot]? = some inst)
    (hdecode : inst.decode = .ok decoded) :
    ∃ next, machine.cycles program 6 = .ok next ∧ next.pipeline = .idle ∧
      next.pc = if inst.opcode.takes machine.flags
        then (decoded.immediate.map Int32.toUInt32).getD (machine.pc + 4) else machine.pc + 4 := by
  have hstep : step? program machine.architecture =
      some (outcome inst.opcode decoded machine.architecture.advanced).showPc := by
    rw [nextSlot] at hinst
    simp only [step?, architecture, hinst, toOption_eq_some.mpr hdecode, Option.bind_eq_bind,
      Option.bind_some]
    rfl
  exact ⟨_, cycles_six_of_step? hidle hstep, rfl, outcome_pc machine.architecture.advanced⟩

-- The address behind an instruction of a program that ends below the top of
-- the addresses.
theorem toNat_pc_add_four (hlength : program.length < 2 ^ 30)
    (hslot : machine.nextSlot < program.length) :
    (machine.pc + 4).toNat = machine.pc.toNat + 4 := by
  have hword : (machine.pc + 4).toNat = (machine.pc.toNat + 4) % 2 ^ 32 := UInt32.toNat_add ..
  rw [nextSlot] at hslot
  omega

section Forward

variable (hdecodes : ∀ inst ∈ program, ∃ decoded, inst.decode = .ok decoded)
  (hlength : program.length < 2 ^ 30)

include hdecodes hlength

theorem exists_later_slot (hforward : Forward program) (hidle : machine.pipeline = .idle)
    (hslot : machine.nextSlot < program.length) :
    ∃ next, machine.cycles program 6 = .ok next ∧ next.pipeline = .idle ∧
      machine.nextSlot < next.nextSlot := by
  have hinst := List.getElem?_eq_getElem hslot
  obtain ⟨decoded, hdecode⟩ := hdecodes _ (List.mem_of_getElem? hinst)
  obtain ⟨next, hcycles, hnext, hpc⟩ := exists_cycles_six hidle hinst hdecode
  refine ⟨next, hcycles, hnext, ?_⟩
  have hnextSlot : next.nextSlot = next.pc.toNat / 4 := rfl
  rw [hnextSlot, hpc]
  split
  · next htakes =>
    have hbranch := Opcode.isBranch_of_takes htakes
    obtain ⟨target, htarget⟩ := Option.isSome_iff_exists.mp
      ((Instruction.laid_of_decode hdecode).immediate_isSome hbranch)
    have hlater := hforward _ _ hinst _ (Instruction.target?_of_decode hdecode hbranch htarget)
    have haligned := (Instruction.aligned_of_decode hdecode hbranch htarget).1
    rw [htarget, Option.map_some, Option.getD_some]
    omega
  · rw [toNat_pc_add_four hlength hslot, nextSlot]
    omega

-- The induction is on the slots that are left. Each instruction takes at least
-- one of them away, for good.
theorem exists_isHalted_of_forward (hforward : Forward program)
    (hidle : machine.pipeline = .idle) :
    ∃ k ≤ program.length - machine.nextSlot, ∃ final,
      machine.cycles program (6 * k) = .ok final ∧ final.isHalted program := by
  generalize hleft : program.length - machine.nextSlot = left
  induction left using Nat.strongRecOn generalizing machine with
  | ind left ih =>
    by_cases hslot : machine.nextSlot < program.length
    · obtain ⟨next, hcycles, hnext, hlater⟩ :=
        exists_later_slot hdecodes hlength hforward hidle hslot
      obtain ⟨k, hk, final, hrest, hhalted⟩ :=
        ih (program.length - next.nextSlot) (by omega) hnext rfl
      refine ⟨k + 1, by omega, final, ?_, hhalted⟩
      rw [Nat.mul_succ, Nat.add_comm, cycles_add, hcycles]
      exact hrest
    · have hnone : program[machine.nextSlot]? = none :=
        List.getElem?_eq_none (Nat.not_lt.mp hslot)
      have hresident : machine.pipeline.resident? = none := by
        rw [hidle, Pipeline.resident?_idle]
      exact ⟨0, Nat.zero_le _, machine, rfl, isHalted_iff_resident?.mpr ⟨hresident, hnone⟩⟩

-- Without branches the slots are gone through one by one.
theorem exists_cycles_straight (hstraight : ∀ inst ∈ program, inst.opcode.isBranch = false)
    (hidle : machine.pipeline = .idle) {r : Nat} (hr : machine.nextSlot + r ≤ program.length) :
    ∃ final, machine.cycles program (6 * r) = .ok final ∧ final.pipeline = .idle ∧
      final.pc.toNat = machine.pc.toNat + 4 * r := by
  induction r with
  | zero => exact ⟨machine, rfl, hidle, rfl⟩
  | succ r ih =>
    obtain ⟨before, hbefore, hempty, hpc⟩ := ih (by omega)
    have hslot : before.nextSlot < program.length := by
      rw [nextSlot] at hr ⊢
      omega
    have hinst := List.getElem?_eq_getElem hslot
    have hmem := List.mem_of_getElem? hinst
    obtain ⟨decoded, hdecode⟩ := hdecodes _ hmem
    obtain ⟨final, hcycles, hfinal, hmoved⟩ := exists_cycles_six hempty hinst hdecode
    have hfalls : ¬program[before.nextSlot].opcode.takes before.flags := by
      intro htakes
      have hbranch := Opcode.isBranch_of_takes htakes
      rw [hstraight _ hmem] at hbranch
      contradiction
    refine ⟨final, ?_, hfinal, ?_⟩
    · rw [Nat.mul_succ, cycles_add, hbefore]
      exact hcycles
    · rw [hmoved, if_neg hfalls, toNat_pc_add_four hlength hslot, hpc]
      omega

theorem toNat_pc_of_straight {final : Machine} {r : Nat}
    (hstraight : ∀ inst ∈ program, inst.opcode.isBranch = false)
    (hidle : machine.pipeline = .idle) (hr : machine.nextSlot + r ≤ program.length)
    (hcycles : machine.cycles program (6 * r) = .ok final) :
    final.pc.toNat = machine.pc.toNat + 4 * r := by
  obtain ⟨reached, hreached, -, hpc⟩ := exists_cycles_straight hdecodes hlength hstraight hidle hr
  rw [hcycles] at hreached
  cases hreached
  exact hpc

end Forward

end Machine

end FiveStage
