import FiveStage.Proofs.Machine.Forward
import FiveStage.Proofs.Session.Tally
import FiveStage.Store.Shelf

namespace FiveStage.Session

section Steps

variable {session next : Session}

-- A run stops where its machine is first halted, if its budget takes it as
-- far as some halt.
theorem exists_run_of_cycles {n budget : Nat} {machine : Machine}
    (hclean : session.program.isClean)
    (hcycles : session.machine.cycles session.program.instructions n = .ok machine)
    (hhalted : machine.isHalted session.program.instructions) (hbudget : n ≤ budget) :
    ∃ k ≤ n, ∃ final, run budget session = (.ok .halted, final) ∧ final.isHalted ∧
      final.program = session.program ∧
      session.machine.cycles session.program.instructions k = .ok final.machine := by
  induction n generalizing session budget with
  | zero =>
    cases hcycles
    exact ⟨0, Nat.le_refl _, session, run_of_isHalted budget hhalted, hhalted, rfl, rfl⟩
  | succ n ih =>
    by_cases hstopped : session.isHalted
    · exact ⟨0, Nat.zero_le _, session, run_of_isHalted budget hstopped, hstopped, rfl, rfl⟩
    · obtain ⟨next, hcycle, hrest⟩ := bind_eq_ok.mp hcycles
      obtain ⟨rest, rfl⟩ := Nat.exists_eq_add_of_le' hbudget
      have hstep : session.step = .ok (session.advanced next) :=
        step_eq_ok.mpr ⟨hclean, next, hcycle, rfl⟩
      have hadvanced : (session.advanced next).program.isClean := hclean
      obtain ⟨k, hk, final, hrun, hfinal, hprogram, hreached⟩ :=
        ih hadvanced hrest hhalted (Nat.le_add_left n rest)
      refine ⟨k + 1, Nat.succ_le_succ hk, final, ?_, hfinal, hprogram, ?_⟩
      · rw [← Nat.add_assoc, run_of_step (Bool.eq_false_iff.mpr hstopped) hstep]
        exact hrun
      · exact (Machine.cycles_succ hcycle).trans hreached

end Steps

section Busy

variable {config : Config} {session next : Session}

-- Every cycle so far has been spent on an instruction.
def Busy (session : Session) : Prop :=
  session.machine.clock = 6 * session.statistics.retired + session.machine.pipeline.phase

theorem Busy.step (h : session.Busy) (hfaithful : session.Faithful config)
    (hrunning : session.isHalted = false) (hstep : session.step = .ok next) : next.Busy := by
  obtain ⟨-, machine, hcycle, rfl⟩ := step_eq_ok.mp hstep
  have hadds : Statistics.Adds session.machine session.statistics
      (session.statistics.observe session.machine) := Statistics.adds_observe hfaithful.coherent
  have hretired := hadds.retired_eq
  have hphase := Machine.phase_of_cycle hcycle
  have hclock := Machine.clock_cycle hcycle
  rw [isHalted] at hrunning
  rw [hrunning, Bool.toNat_false] at hphase
  simp only [Busy, advanced] at h ⊢
  omega

theorem Busy.run (h : session.Busy) (hfaithful : session.Faithful config) (budget : Nat) :
    (Session.run budget session).2.Busy :=
  (run_induction (P := fun session => session.Busy ∧ session.Faithful config)
    (fun h hrunning hstep => ⟨h.1.step h.2 hrunning hstep, h.2.step hstep⟩)
    ⟨h, hfaithful⟩ budget).1

theorem Busy.clock_of_isHalted (h : session.Busy) (hhalted : session.isHalted) :
    session.machine.clock = 6 * session.statistics.retired := by
  have hphase := Pipeline.phase_of_none (Machine.isHalted_iff_resident?.mp hhalted).1
  rw [Busy, hphase] at h
  exact h

theorem Faithful.busy_of_reset (h : session.Faithful config)
    (hreset : session.machine = config.resetMachine) : session.Busy := by
  have hreplayed := h.replayed
  rw [hreset] at hreplayed
  have hstatistics : {} = session.statistics := (Prod.mk.inj (Except.ok.inj hreplayed)).2
  rw [Busy, hreset, ← hstatistics]
  rfl

end Busy

-- A program in which no branch leads back is through after six cycles for each
-- instruction at most, and a run from reset with that budget stops by itself.
-- It has taken six cycles for each instruction that has retired, and those are
-- all of them if there is no branch to pass any over.
theorem performAll_halts_on_time {σ : Type u} [Store σ] (config : Config)
    (requests : List (Request σ)) :
    let session := (start config).performAll requests
    let program := session.program.instructions
    session.machine = config.resetMachine → session.program.isClean →
    program.length < 2 ^ 30 → Forward program →
      ∀ budget ≥ 6 * program.length, ∃ final, run budget session = (.ok .halted, final) ∧
        final.machine.clock = 6 * final.statistics.retired ∧
        final.machine.clock ≤ 6 * program.length ∧
        ((∀ inst ∈ program, inst.opcode.isBranch = false) → config.cpu.startPc = 0 →
          final.statistics.retired = program.length ∧
            final.machine.pc.toNat = 4 * program.length) := by
  intro session program hreset hclean hlength hforward budget hbudget
  have hfaithful : session.Faithful config := (Faithful.start config).performAll requests
  have hdecodes : ∀ inst ∈ program, ∃ decoded, inst.decode = .ok decoded :=
    fun inst hmem => hfaithful.exists_decode hmem
  have hidle : session.machine.pipeline = .idle := by
    rw [hreset]
    rfl
  obtain ⟨slots, hslots, machine, hcycles, hhalted⟩ :=
    Machine.exists_isHalted_of_forward hdecodes hlength hforward hidle
  have hcost : 6 * slots ≤ 6 * program.length := by omega
  obtain ⟨k, hk, final, hrun, hfinal, hprogram, hreached⟩ :=
    exists_run_of_cycles hclean hcycles hhalted (Nat.le_trans hcost hbudget)
  have hbusy := (hfaithful.busy_of_reset hreset).run hfaithful budget
  rw [hrun] at hbusy
  have hclock : final.machine.clock = 6 * final.statistics.retired :=
    hbusy.clock_of_isHalted hfinal
  have hspent : final.machine.clock = k := by
    rw [Machine.clock_cycles hreached, hreset]
    exact Nat.zero_add k
  refine ⟨final, hrun, hclock, by omega, fun hstraight hstart => ?_⟩
  have hzero : session.machine.pc.toNat = 0 := by
    rw [hreset]
    exact congrArg UInt32.toNat hstart
  have hfirst : session.machine.nextSlot = 0 := by rw [Machine.nextSlot, hzero]
  have hroom : session.machine.nextSlot + final.statistics.retired ≤ program.length := by omega
  rw [← hspent, hclock] at hreached
  have hpc := Machine.toNat_pc_of_straight hdecodes hlength hstraight hidle hroom hreached
  rw [hzero, Nat.zero_add] at hpc
  have hend : program.length ≤ final.machine.nextSlot := by
    have hnone := (Machine.isHalted_iff_resident?.mp hfinal).2
    rw [hprogram] at hnone
    exact List.getElem?_eq_none_iff.mp hnone
  rw [Machine.nextSlot, hpc] at hend
  have hretired : final.statistics.retired = program.length := by omega
  exact ⟨hretired, by rw [hpc, hretired]⟩

-- A branch over an instruction, in a program that is entered off the word
-- boundary.
private def offWord : Config := { cpu := { startPc := 2 } }

private def passing : List (Request DatedShelf) :=
  [.load "CMP R0, #0\nBEQ out\nMOV R1, #1\nout: MOV R2, #2", .run 4, .reset]

private def straight : List (Request DatedShelf) :=
  [.load "MOV R0, #1\nMOV R1, #2"]

theorem performAll_halts_on_time_passing :
    (∃ final, run 12 ((start {}).performAll straight) = (.ok .halted, final) ∧
      final.statistics.retired = 2 ∧ final.machine.pc.toNat = 8) ∧
    let session := (start offWord).performAll passing
    session.machine = offWord.resetMachine ∧ session.program.isClean ∧
      session.program.instructions.length = 4 ∧ Forward session.program.instructions ∧
      ∃ final, run 24 session = (.ok .halted, final) ∧ final.machine.pc = 16 ∧
        final.machine.clock = 18 ∧ final.statistics.retired = 3 := by
  constructor
  · have hprogram : ((start {}).performAll straight).program.isClean ∧
        ((start {}).performAll straight).program.instructions.length = 2 ∧
        Forward ((start {}).performAll straight).program.instructions ∧
        ∀ inst ∈ ((start {}).performAll straight).program.instructions,
          inst.opcode.isBranch = false := by decide +kernel
    obtain ⟨hclean, hlength, hforward, hstraight⟩ := hprogram
    obtain ⟨final, hrun, -, -, hends⟩ := performAll_halts_on_time {} straight rfl hclean
      (by rw [hlength]; decide) hforward 12 (by omega)
    obtain ⟨hretired, hpc⟩ := hends hstraight rfl
    rw [hlength] at hretired hpc
    exact ⟨final, hrun, hretired, hpc⟩
  · intro session
    have hreset : session.machine = offWord.resetMachine := rfl
    have hprogram : session.program.isClean ∧ session.program.instructions.length = 4 ∧
        Forward session.program.instructions := by decide +kernel
    obtain ⟨hclean, hlength, hforward⟩ := hprogram
    have hends : (run 24 session).2.machine.pc = 16 ∧ (run 24 session).2.machine.clock = 18 := by
      decide +kernel
    have hbudget : 24 ≥ 6 * session.program.instructions.length := by omega
    obtain ⟨final, hrun, hclock, -, -⟩ := performAll_halts_on_time offWord passing hreset hclean
      (by rw [hlength]; decide) hforward 24 hbudget
    have hfinal : (run 24 session).2 = final := congrArg Prod.snd hrun
    rw [hfinal] at hends
    obtain ⟨hpc, hspent⟩ := hends
    exact ⟨hreset, hclean, hlength, hforward, final, hrun, hpc, hspent, by omega⟩

end FiveStage.Session
