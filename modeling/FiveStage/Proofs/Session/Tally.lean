import FiveStage.Proofs.Machine.Progress
import FiveStage.Proofs.Session.Safety

namespace FiveStage

namespace Statistics

-- The retired instructions of a kind.
def ofKind (stats : Statistics) : Opcode.Kind → Nat
  | .alu => stats.alu
  | .compare => stats.compares
  | .load => stats.loads
  | .store => stats.stores
  | .branch => stats.branches

section Counters

variable (stats : Statistics) (op : Opcode) (kind : Opcode.Kind) (taken : Bool)

@[simp] theorem retired_retire : (stats.retire op).retired = stats.retired + 1 := by
  cases op <;> rfl

@[simp] theorem ofKind_retire :
    (stats.retire op).ofKind kind = stats.ofKind kind + (decide (op.kind = kind)).toNat := by
  cases op <;> cases kind <;> rfl

@[simp] theorem taken_retire : (stats.retire op).taken = stats.taken := by
  cases op <;> rfl

@[simp] theorem notTaken_retire : (stats.retire op).notTaken = stats.notTaken := by
  cases op <;> rfl

@[simp] theorem retired_resolveBranch :
    (stats.resolveBranch taken).retired = stats.retired := by
  cases taken <;> rfl

@[simp] theorem ofKind_resolveBranch :
    (stats.resolveBranch taken).ofKind kind = stats.ofKind kind := by
  cases taken <;> cases kind <;> rfl

@[simp] theorem taken_resolveBranch :
    (stats.resolveBranch taken).taken = stats.taken + taken.toNat := by
  cases taken <;> rfl

@[simp] theorem notTaken_resolveBranch :
    (stats.resolveBranch taken).notTaken = stats.notTaken + (!taken).toNat := by
  cases taken <;> rfl

end Counters

section Observation

open Machine

variable {program : List Instruction} {machine next : Machine} {stats : Statistics}

-- What a cycle that starts from a machine adds to the counters.
structure Adds (machine : Machine) (stats after : Statistics) : Prop where
  retired_eq : after.retired = stats.retired + machine.retires.toNat
  ofKind_eq : ∀ kind, after.ofKind kind =
    stats.ofKind kind + (machine.holds .writeBack kind).toNat
  taken_eq : after.taken = stats.taken + machine.redirect?.isSome.toNat
  notTaken_eq : after.notTaken = stats.notTaken + machine.fallsThrough.toNat

def countCycle (stats : Statistics) : Statistics :=
  { stats with cycles := stats.cycles + 1 }

theorem Adds.pass (hretires : machine.retires = false)
    (hexecute : machine.holds .execute .branch = false) : Adds machine stats stats.countCycle where
  retired_eq := by
    rw [hretires]
    rfl
  ofKind_eq kind := by
    rw [holds_writeBack_of_not_retires hretires]
    rfl
  taken_eq := by
    rw [redirect?_isSome_of_not_holds hexecute]
    rfl
  notTaken_eq := by
    rw [fallsThrough, hexecute]
    rfl

theorem Adds.resolve (hretires : machine.retires = false)
    (hexecute : machine.holds .execute .branch) :
    Adds machine stats (stats.countCycle.resolveBranch machine.redirect?.isSome) where
  retired_eq := by
    rw [hretires, retired_resolveBranch]
    rfl
  ofKind_eq kind := by
    rw [holds_writeBack_of_not_retires hretires, ofKind_resolveBranch]
    rfl
  taken_eq := taken_resolveBranch ..
  notTaken_eq := by
    rw [fallsThrough, hexecute, notTaken_resolveBranch]
    cases machine.redirect? <;> rfl

theorem Adds.retire {inst : Instruction} (hexecute : machine.holds .execute .branch = false)
    (hinst : (machine.pipeline.latch .writeBack).instruction = some inst) :
    Adds machine stats (stats.countCycle.retire inst.opcode) where
  retired_eq := by
    rw [retires, Latch.isIdle, hinst, retired_retire]
    rfl
  ofKind_eq kind := by
    rw [holds, hinst, ofKind_retire]
    rfl
  taken_eq := by
    rw [redirect?_isSome_of_not_holds hexecute, taken_retire]
    rfl
  notTaken_eq := by
    rw [fallsThrough, hexecute, notTaken_retire]
    rfl

-- The counters are kept from outside: what they take for an outcome is what
-- the cycle will bring about.
theorem adds_observe (h : Coherent program machine) :
    Adds machine stats (stats.observe machine) := by
  cases h with
  | idle hpipeline =>
    have hresident : machine.pipeline.resident? = none := by
      rw [hpipeline, Pipeline.resident?_idle]
    have hobserve : stats.observe machine = stats.countCycle := by
      rw [observe, hresident]
      rfl
    rw [hobserve]
    exact .pass (retires_of_none hresident) (holds_of_idle hpipeline ..)
  | @resident stage latch inst hpipeline hlatch hmem =>
    obtain ⟨instruction, decoded, signals, result, address⟩ := latch
    obtain rfl : instruction = some inst := hlatch.instruction_eq
    have hresident := Coherent.resident?_eq hpipeline hlatch
    have hretires := retires_of_some hresident
    have hholds := holds_of_holding hpipeline rfl
    cases stage with
    | fetch | decode | memory =>
      have hobserve : stats.observe machine = stats.countCycle := by
        rw [observe, hresident]
        rfl
      rw [hobserve]
      exact .pass hretires (hholds ..)
    | execute =>
      have hbranch : machine.holds .execute .branch = inst.opcode.isBranch := by
        rw [hholds, Bool.eq_iff_iff]
        simpa using Opcode.kind_eq_branch_iff _
      have hobserve : stats.observe machine = if inst.opcode.isBranch
          then stats.countCycle.resolveBranch machine.redirect?.isSome else stats.countCycle := by
        rw [observe, hresident, redirect?_isSome_of_holding hpipeline hlatch]
        rfl
      rw [hobserve]
      split
      · next htrue => exact .resolve hretires (hbranch.trans htrue)
      · next hfalse => exact .pass hretires (hbranch.trans (Bool.eq_false_iff.mpr hfalse))
    | writeBack =>
      have hobserve : stats.observe machine = stats.countCycle.retire inst.opcode := by
        rw [observe, hresident]
        rfl
      rw [hobserve]
      refine .retire (hholds ..) ?_
      rw [Pipeline.latch_of_resident? hresident]

end Observation

section Tallies

open Machine

-- What the counters say after a run: `visited` are the machines that its
-- cycles started from, and `machine` is where it has come to.
structure Tallies (program : List Instruction) (visited : List Machine) (machine : Machine)
    (stats : Statistics) : Prop where
  retired_eq : stats.retired = visited.countP fun before => before.retires
  ofKind_eq : ∀ kind, stats.ofKind kind =
    visited.countP fun before => before.holds .writeBack kind
  retired_eq_add : stats.retired =
    stats.alu + stats.compares + stats.loads + stats.stores + stats.branches
  taken_eq : stats.taken = visited.countP fun before => before.redirect?.isSome
  notTaken_eq : stats.notTaken = visited.countP fun before => before.fallsThrough
  resolved_eq : stats.taken + stats.notTaken = stats.branches + machine.awaitsBranch.toNat
  cycles_eq : stats.cycles = 6 * stats.retired + machine.pipeline.phase +
    visited.countP fun before => before.isHalted program
  redirected : ∀ before ∈ visited, ∀ target, before.redirect? = some target →
    ∃ next, before.cycle program = .ok next ∧ next.pc = target
  fellThrough : ∀ before ∈ visited, before.fallsThrough →
    ∃ next, before.cycle program = .ok next ∧ next.pc = before.pc

variable {program : List Instruction} {visited : List Machine} {machine next : Machine}
  {stats : Statistics}

theorem Tallies.start (program : List Instruction) (h : machine.pipeline = .idle) :
    Tallies program [] machine {} where
  retired_eq := rfl
  ofKind_eq kind := by cases kind <;> rfl
  retired_eq_add := rfl
  taken_eq := rfl
  notTaken_eq := rfl
  resolved_eq := by
    rw [awaitsBranch, holds_of_idle h, holds_of_idle h]
    rfl
  cycles_eq := by
    rw [h]
    rfl
  redirected _ hbefore := absurd hbefore List.not_mem_nil
  fellThrough _ hbefore := absurd hbefore List.not_mem_nil

theorem countP_concat (p : Machine → Bool) (visited : List Machine) (machine : Machine) :
    (visited ++ [machine]).countP p = visited.countP p + (p machine).toNat := by
  rw [List.countP_append, List.countP_singleton]
  cases p machine <;> rfl

theorem Tallies.cycle (h : Tallies program visited machine stats)
    (hcoherent : Coherent program machine) (hcycle : machine.cycle program = .ok next) :
    Tallies program (visited ++ [machine]) next (stats.observe machine) := by
  have hadds : Adds machine stats (stats.observe machine) := adds_observe hcoherent
  have halu := hadds.ofKind_eq .alu
  have hcompare := hadds.ofKind_eq .compare
  have hload := hadds.ofKind_eq .load
  have hstore := hadds.ofKind_eq .store
  have hbranch := hadds.ofKind_eq .branch
  simp only [ofKind] at halu hcompare hload hstore hbranch
  refine {
    retired_eq := by rw [countP_concat, hadds.retired_eq, h.retired_eq]
    ofKind_eq := fun kind => by rw [countP_concat, hadds.ofKind_eq, h.ofKind_eq]
    retired_eq_add := ?kinds
    taken_eq := by rw [countP_concat, hadds.taken_eq, h.taken_eq]
    notTaken_eq := by rw [countP_concat, hadds.notTaken_eq, h.notTaken_eq]
    resolved_eq := ?resolved
    cycles_eq := ?cycles
    redirected := ?redirected
    fellThrough := ?fellThrough }
  case kinds =>
    have hkinds := machine.retires_eq_add
    rw [hadds.retired_eq, h.retired_eq_add]
    omega
  case resolved =>
    have houtcomes := machine.holds_execute_eq_add
    have hawaits := hcoherent.awaitsBranch_of_cycle hcycle
    have hresolved := h.resolved_eq
    rw [hadds.taken_eq, hadds.notTaken_eq]
    omega
  case cycles =>
    have hphase := phase_of_cycle hcycle
    rw [stats.cycles_observe, countP_concat, hadds.retired_eq, h.cycles_eq]
    omega
  case redirected =>
    intro before hbefore target htarget
    cases List.mem_append.mp hbefore with
    | inl hvisited => exact h.redirected before hvisited target htarget
    | inr hlast =>
      obtain rfl := List.mem_singleton.mp hlast
      refine ⟨next, hcycle, ?_⟩
      rw [hcoherent.pc_of_branch hcycle (holds_of_redirect? htarget), htarget]
      rfl
  case fellThrough =>
    intro before hbefore hfalls
    cases List.mem_append.mp hbefore with
    | inl hvisited => exact h.fellThrough before hvisited hfalls
    | inr hlast =>
      obtain rfl := List.mem_singleton.mp hlast
      obtain ⟨hexecute, hnone⟩ := Bool.and_eq_true_iff.mp hfalls
      refine ⟨next, hcycle, ?_⟩
      rw [hcoherent.pc_of_branch hcycle hexecute, Option.isNone_iff_eq_none.mp hnone]
      rfl

end Tallies

-- The induction is on the cycles of the replay. That what is counted is what
-- happens rests on the machine being coherent before each of them.
theorem exists_tallies_of_replay {program : List Instruction} {start machine : Machine}
    {stats : Statistics} {n : Nat} (hstart : start.pipeline = .idle)
    (h : replay program start n = .ok (machine, stats)) :
    ∃ visited : List Machine,
      visited.map Except.ok = (List.range n).map (fun i => start.cycles program i) ∧
        stats.Tallies program visited machine := by
  induction n generalizing machine stats with
  | zero =>
    cases h
    exact ⟨[], rfl, .start program hstart⟩
  | succ n ih =>
    obtain ⟨⟨before, counted⟩, hbefore, hrest⟩ := bind_eq_ok.mp h
    obtain ⟨next, hcycle, hpair⟩ := bind_eq_ok.mp hrest
    cases hpair
    obtain ⟨visited, hvisited, htallies⟩ := ih hbefore
    have hreached := (replay_eq_ok hbefore).1
    have hcoherent : Machine.Coherent program before :=
      Machine.Coherent.cycles (.idle hstart) hreached
    refine ⟨visited ++ [before], ?_, htallies.cycle hcoherent hcycle⟩
    rw [List.map_append, List.range_succ, List.map_append, hvisited, List.map_singleton,
      List.map_singleton, hreached]

end Statistics

namespace Session

-- Whatever is asked of a session, its counters tell what has happened on the
-- way from reset to where its machine stands: each of them is the number of
-- cycles in which the machine did what it counts.
theorem performAll_tallies {σ : Type u} [Store σ] (config : Config)
    (requests : List (Request σ)) :
    let session := (start config).performAll requests
    let program := session.program.instructions
    let clock := session.machine.clock
    config.resetMachine.cycles program clock = .ok session.machine ∧
      ∃ visited : List Machine,
        visited.map Except.ok =
          (List.range clock).map (fun i => config.resetMachine.cycles program i) ∧
        session.statistics.Tallies program visited session.machine := by
  intro session program clock
  have hfaithful : session.Faithful config := (Faithful.start config).performAll requests
  have hreplayed := hfaithful.replayed
  exact ⟨(replay_eq_ok hreplayed).1, Statistics.exists_tallies_of_replay rfl hreplayed⟩

-- Twice round a loop: the branch is taken once, and falls through at the end.
example :
    let requests : List (Request DatedShelf) :=
      [.load "MOV R0, #2\nagain: SUB R0, R0, #1\n CMP R0, #0\n BNE again", .run 100]
    let session := (start {}).performAll requests
    session.machine.clock = 42 ∧ session.statistics.retired = 7 ∧
      session.statistics.taken = 1 ∧ session.statistics.notTaken = 1 := by decide +kernel

end Session

end FiveStage
