import FiveStage.Proofs.Machine.Foremost

namespace FiveStage

theorem RegisterFile.write_read (file : RegisterFile) (r : Register) :
    file.write r (file.read r) = file := by
  refine ext_read fun other => ?_
  by_cases h : other = r
  · rw [h, read_write_self]
  · rw [read_write_of_ne _ _ h]

theorem Stage.mem_all (stage : Stage) : stage ∈ all := by
  cases stage <;> decide

theorem Pipeline.isIdle_iff_resident?_eq_none (pipeline : Pipeline) :
    pipeline.isIdle ↔ pipeline.resident? = none := by
  rw [isIdle, resident?, List.all_eq_true, Option.map_eq_none_iff, List.find?_eq_none]
  constructor
  · intro hidle stage _
    simp [hidle stage stage.mem_all]
  · intro hidle stage _
    simpa using hidle stage stage.mem_priority

namespace Machine

theorem isHalted_iff_resident? {program : List Instruction} {machine : Machine} :
    machine.isHalted program ↔
      machine.pipeline.resident? = none ∧ program[machine.nextSlot]? = none := by
  rw [isHalted, Bool.and_eq_true, Pipeline.isIdle_iff_resident?_eq_none, decide_eq_true_eq,
    List.getElem?_eq_none_iff]

theorem isHalted_eq (program : List Instruction) (machine : Machine) :
    machine.isHalted program =
      (machine.pipeline.resident?.isNone && program[machine.nextSlot]?.isNone) := by
  rw [Bool.eq_iff_iff, isHalted_iff_resident?, Bool.and_eq_true, Option.isNone_iff_eq_none,
    Option.isNone_iff_eq_none]

-- A machine as some reset or some cycle leaves it.
inductive Arisen : Machine → Prop
  | reset (startPc : UInt32) (initialSp : Int32) : Arisen (reset startPc initialSp)
  | cycle {program : List Instruction} {before machine : Machine}
      (h : before.cycle program = .ok machine) : Arisen machine

section Arisen

variable {program : List Instruction} {machine : Machine}

theorem Arisen.shown (h : machine.Arisen) : machine.registers.read .pc = machine.pc.toInt32 := by
  cases h with
  | reset => exact RegisterFile.read_write_self ..
  | cycle hcycle => exact (frame_of_cycle hcycle).shown

-- Its stages hold nothing that is left over from before.
theorem Arisen.pipeline_eq_idle (h : machine.Arisen)
    (hresident : machine.pipeline.resident? = none) : machine.pipeline = .idle := by
  cases h with
  | reset => rfl
  | cycle hcycle =>
    refine (pipeline_of_cycle hcycle).resolve_right fun ⟨stage, latch, inst, hpipeline, hinst⟩ => ?_
    rw [hpipeline, Pipeline.resident?_holding stage hinst] at hresident
    contradiction

theorem Arisen.cycles {n : Nat} {final : Machine} (h : machine.Arisen)
    (hcycles : machine.cycles program n = .ok final) : final.Arisen :=
  cycles_preserves (fun _ hcycle => .cycle hcycle) h hcycles

end Arisen

section Halting

variable {program : List Instruction} {machine next : Machine}

theorem Arisen.cycle_of_isHalted (h : machine.Arisen) (hhalted : machine.isHalted program) :
    machine.cycle program = .ok { machine with clock := machine.clock + 1 } := by
  obtain ⟨hresident, hslot⟩ := isHalted_iff_resident?.mp hhalted
  have hshown : machine.registers.write .pc machine.pc.toInt32 = machine.registers := by
    rw [← h.shown, RegisterFile.write_read]
  rw [cycle_of_none hresident]
  simp only [nextSlot] at hslot
  simp only [fetch, nextSlot, hslot, tick, hshown, ← h.pipeline_eq_idle hresident]

-- A cycle that leaves the pipeline as it was has found nothing to do: an
-- instruction in flight would have left its stage, and one that was fetched
-- would have entered the first.
theorem isHalted_of_pipeline_eq (hcycle : machine.cycle program = .ok next)
    (hpipeline : next.pipeline = machine.pipeline) : machine.isHalted program := by
  cases passes_of_cycle hcycle with
  | halted hresident hslot => exact isHalted_iff_resident?.mpr ⟨hresident, hslot⟩
  | fetched hresident hslot hnext =>
    rw [← hpipeline, hnext, Pipeline.resident?_holding _ rfl] at hresident
    contradiction
  | passed hresident hinst hfollowing hpassed hnext =>
    rw [← hpipeline, hnext, Pipeline.resident?_holding _ hpassed] at hresident
    cases hresident
    exact absurd hfollowing (Stage.next?_ne_self _)
  | finished hresident hinst hnext =>
    rw [← hpipeline, hnext] at hresident
    contradiction

theorem Arisen.cycles_of_isHalted (h : machine.Arisen) (hhalted : machine.isHalted program)
    (n : Nat) :
    machine.cycles program n = .ok { machine with clock := machine.clock + n } := by
  induction n with
  | zero => rfl
  | succ n ih =>
    have hlast : Machine.Arisen { machine with clock := machine.clock + n } := h.cycles ih
    rw [cycles_add program n 1, ih]
    exact (cycles_succ (hlast.cycle_of_isHalted hhalted)).trans (cycles_zero ..)

-- A machine is halted just when nothing but the clock moves on in a cycle, and
-- then nothing else ever does.
theorem Arisen.isHalted_iff (h : machine.Arisen) :
    (machine.isHalted program ↔
      machine.cycle program = .ok { machine with clock := machine.clock + 1 }) ∧
      (machine.isHalted program → ∀ n,
        machine.cycles program n = .ok { machine with clock := machine.clock + n }) := by
  refine ⟨⟨h.cycle_of_isHalted, fun hcycle => ?_⟩, h.cycles_of_isHalted⟩
  exact isHalted_of_pipeline_eq hcycle rfl

end Halting

-- A branch out of the program, off the word boundary.
private def leaving : List Instruction := [.build 1 .b ["#400"] "B #400" 1]

theorem isHalted_of_leaving : ∃ machine, (reset 2 1024).cycles leaving 6 = .ok machine ∧
    machine.Arisen ∧ machine.pc = 400 ∧
    machine.cycles leaving 1000 = .ok { machine with clock := 1006 } := by
  have hreached : ((reset 2 1024).cycles leaving 6).toOption.map
      (fun machine => (machine.pc, machine.clock, machine.isHalted leaving)) =
        some (400, 6, true) := by
    decide +kernel
  obtain ⟨machine, hmachine, hends⟩ := Option.map_eq_some_iff.mp hreached
  simp only [Prod.mk.injEq] at hends
  obtain ⟨hpc, hclock, hhalted⟩ := hends
  have hcycles := toOption_eq_some.mp hmachine
  have harisen : machine.Arisen := (Arisen.reset 2 1024).cycles hcycles
  have hstays := harisen.isHalted_iff.2 hhalted 1000
  rw [hclock] at hstays
  exact ⟨machine, hcycles, harisen, hpc, hstays⟩

end Machine

end FiveStage
