import FiveStage.Proofs.Machine.Progress
import Mathlib.Algebra.Group.Nat.Defs

namespace FiveStage

-- What is checked of a signed target holds of the address it is taken for.
theorem Token.aligned_of_branchTarget {token : String} {target : Int32}
    (h : branchTarget token = .ok target) :
    4 ∣ target.toUInt32.toNat ∧ target.toUInt32.toNat < 2 ^ 31 := by
  obtain ⟨value, -, hrest⟩ := bind_eq_ok.mp h
  split at hrest
  · contradiction
  · next hchecks =>
    cases hrest
    rw [not_or, Int32.not_lt] at hchecks
    obtain ⟨hsign, hword⟩ := hchecks
    have haddress : target.toUInt32.toNat = target.toInt.toNat := Int32.toNat_toUInt32_of_le hsign
    have hnonneg : 0 ≤ target.toInt := Int32.le_iff_toInt_le.mp hsign
    have hupper := target.toInt_lt
    rw [haddress]
    omega

theorem Instruction.aligned_of_decode {inst : Instruction} {decoded : OperandFields}
    {target : Int32} (h : inst.decode = .ok decoded) (hbranch : inst.opcode.isBranch)
    (htarget : decoded.immediate = some target) :
    4 ∣ target.toUInt32.toNat ∧ target.toUInt32.toNat < 2 ^ 31 := by
  have hfamily : inst.opcode.family = .branch := of_decide_eq_true hbranch
  unfold decode at h
  simp only [hfamily, bind_eq_ok, readOperand_eq_ok] at h
  obtain ⟨value, ⟨token, -, hread⟩, hdecoded⟩ := h
  cases hdecoded
  cases htarget
  exact Token.aligned_of_branchTarget hread

namespace Machine

variable {program : List Instruction} {machine next : Machine}

theorem Coherent.resident?_of_instruction {stage : Stage} {inst : Instruction}
    (h : Coherent program machine)
    (hinst : (machine.pipeline.latch stage).instruction = some inst) :
    ∃ latch, machine.pipeline.resident? = some (stage, latch) ∧ latch.Carries inst stage := by
  cases h with
  | idle hpipeline =>
    rw [hpipeline, Pipeline.latch_idle] at hinst
    contradiction
  | @resident holder latch carried hpipeline hlatch hmem =>
    rw [hpipeline] at hinst
    obtain rfl := Pipeline.eq_of_instruction_holding hinst
    rw [Pipeline.latch_holding_self, hlatch.instruction_eq] at hinst
    cases hinst
    exact ⟨latch, resident?_eq hpipeline hlatch, hlatch⟩

-- The one way for the program counter to move by anything but a word.
theorem Coherent.aligned_of_takes {latch : Latch} {inst : Instruction}
    {decoded : OperandFields} {target : Int32} (h : Coherent program machine)
    (hresident : machine.pipeline.resident? = some (.execute, latch))
    (hinst : latch.instruction = some inst) (hdecoded : latch.decoded = some decoded)
    (htakes : inst.opcode.takes machine.flags) (htarget : decoded.immediate = some target) :
    4 ∣ target.toUInt32.toNat ∧ target.toUInt32.toNat < 2 ^ 31 := by
  obtain ⟨carried, -, hcarries⟩ := h.exists_mem_of_resident? hresident
  obtain rfl : carried = inst := Option.some.inj (hcarries.instruction_eq.symm.trans hinst)
  obtain ⟨-, fields, hdecode, hfields⟩ := hcarries.decoded_eq Stage.noConfusion
  obtain rfl : fields = decoded := Option.some.inj (hfields.symm.trans hdecoded)
  exact Instruction.aligned_of_decode hdecode (Opcode.isBranch_of_takes htakes) htarget

-- A word further, or to a target: both keep to word boundaries, even where
-- the address wraps around.
theorem Coherent.aligned_of_moves {target : UInt32} (h : Coherent program machine)
    (haligned : 4 ∣ machine.pc.toNat) (hmoves : Moves program machine target) :
    4 ∣ target.toNat := by
  cases hmoves with
  | fetch hresident hslot =>
    have hword : (machine.pc + 4).toNat = (machine.pc.toNat + 4) % 2 ^ 32 := UInt32.toNat_add ..
    omega
  | branch hresident hinst hsignals hbranch htakes hdecoded htarget =>
    exact (h.aligned_of_takes hresident hinst hdecoded htakes htarget).1

theorem Coherent.aligned_of_cycle (h : Coherent program machine)
    (haligned : 4 ∣ machine.pc.toNat) (hcycle : machine.cycle program = .ok next) :
    4 ∣ next.pc.toNat := by
  obtain ⟨worked, hworked, rfl⟩ := exists_works_of_cycle hcycle
  cases pc_of_works hworked with
  | inl hsame =>
    rw [tick, hsame]
    exact haligned
  | inr hmoves => exact h.aligned_of_moves haligned hmoves

theorem Coherent.aligned_of_cycles {n : Nat} {final : Machine} (h : Coherent program machine)
    (haligned : 4 ∣ machine.pc.toNat) (hcycles : machine.cycles program n = .ok final) :
    4 ∣ final.pc.toNat :=
  (cycles_preserves (P := fun machine => Coherent program machine ∧ 4 ∣ machine.pc.toNat)
    (fun h hcycle => ⟨h.1.cycle hcycle, h.1.aligned_of_cycle h.2 hcycle⟩)
    ⟨h, haligned⟩ hcycles).2

-- Whatever the instructions, the register file shows the program counter, which
-- stays on a word boundary if it starts on one. A branch takes it to a word
-- boundary wherever it starts, and into the lower half of the addresses.
theorem pc_of_cycles {startPc : UInt32} {initialSp : Int32} {n : Nat}
    (h : (reset startPc initialSp).cycles program n = .ok machine) :
    machine.registers.read .pc = machine.pc.toInt32 ∧
      (4 ∣ startPc.toNat → 4 ∣ machine.pc.toNat) ∧
      ∀ inst, machine.pipeline.execute.instruction = some inst →
        inst.opcode.takes machine.flags →
        ∃ next, machine.cycle program = .ok next ∧ machine.redirect? = some next.pc ∧
          4 ∣ next.pc.toNat ∧ next.pc.toNat < 2 ^ 31 := by
  have hstart : Coherent program (reset startPc initialSp) := .idle rfl
  have hcoherent : Coherent program machine := hstart.cycles h
  refine ⟨((Arisen.reset startPc initialSp).cycles h).shown,
    fun haligned => hstart.aligned_of_cycles haligned h, fun inst hinst htakes => ?_⟩
  have hlatched : (machine.pipeline.latch .execute).instruction = some inst := hinst
  obtain ⟨latch, hresident, hlatch⟩ := hcoherent.resident?_of_instruction hlatched
  obtain ⟨hsignals, decoded, hdecode, hdecoded⟩ := hlatch.decoded_eq Stage.noConfusion
  obtain ⟨target, htarget⟩ := Option.isSome_iff_exists.mp
    ((Instruction.laid_of_decode hdecode).immediate_isSome (Opcode.isBranch_of_takes htakes))
  obtain ⟨next, hcycle, hpc⟩ :=
    hcoherent.exists_cycle_of_takes hresident hlatch.instruction_eq hdecode htakes htarget
  refine ⟨next, hcycle, ?_, ?_⟩
  · rw [redirect?, Pipeline.latch_of_resident? hresident,
      branchTarget?_eq hlatch.instruction_eq hdecoded hsignals, if_pos htakes, htarget, hpc]
    rfl
  · rw [hpc]
    exact hcoherent.aligned_of_takes hresident hlatch.instruction_eq hdecoded htakes htarget

-- An addition to the program counter that comes to nothing, and a branch with
-- an operand too many, which no assembler lets through.
private def leaping : List Instruction := [
  .build 1 .add ["PC", "PC", "#2"] "ADD PC, PC, #2" 1,
  .build 2 .b ["#400", "R0"] "B #400, R0" 2]

theorem pc_of_leaping : ∃ machine next,
    (reset 0 1024).cycles leaping 9 = .ok machine ∧ machine.registers.read .pc = 8 ∧
      4 ∣ machine.pc.toNat ∧ machine.cycle leaping = .ok next ∧
      machine.redirect? = some next.pc ∧ 4 ∣ next.pc.toNat ∧ next.pc.toNat < 2 ^ 31 := by
  have hreached : ((reset 0 1024).cycles leaping 9).toOption.bind (fun machine =>
      machine.pipeline.execute.instruction.map fun inst =>
        (machine.pc, inst.opcode.takes machine.flags)) = some (8, true) := by
    decide +kernel
  obtain ⟨machine, hmachine, hends⟩ := Option.bind_eq_some_iff.mp hreached
  obtain ⟨inst, hinst, hpair⟩ := Option.map_eq_some_iff.mp hends
  obtain ⟨hpc, htakes⟩ := Prod.mk.inj hpair
  have hcycles := toOption_eq_some.mp hmachine
  obtain ⟨hshown, haligned, hbranch⟩ := pc_of_cycles hcycles
  obtain ⟨next, hcycle, hredirect, hnext⟩ := hbranch inst hinst htakes
  rw [hpc] at hshown
  exact ⟨machine, next, hcycles, hshown, haligned (by decide), hcycle, hredirect, hnext⟩

end Machine

end FiveStage
