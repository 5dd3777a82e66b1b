import FiveStage.Proofs.Machine.Frame
import FiveStage.Proofs.Machine.Residence

namespace FiveStage

-- Where an instruction goes on to. From write-back it leaves the pipeline.
def Stage.next? : Stage → Option Stage
  | fetch => some decode
  | decode => some execute
  | execute => some memory
  | memory => some writeBack
  | writeBack => none

theorem Opcode.usesMemory_iff (op : Opcode) : op.signals.usesMemory ↔ op ∈ [.ldr, .str] := by
  cases op <;> decide

theorem OperandFields.Laid.second_unique {family : Opcode.Family} {decoded : OperandFields}
    (h : decoded.Laid family) : decoded.source2.isSome ≠ decoded.immediate.isSome := by
  cases h with
  | arithmetic _ _ second | moveCompare _ second => cases second <;> simp [withSecond]
  | loadStore | branch => simp

namespace Pipeline

theorem latch_idle (stage : Stage) : idle.latch stage = .idle := by
  cases stage <;> rfl

theorem latch_holding_of_ne {stage other : Stage} (latch : Latch) (h : other ≠ stage) :
    (holding stage latch).latch other = .idle := by
  rw [holding, latch_place_of_ne _ _ h, latch_idle]

theorem latch_holding_self (stage : Stage) (latch : Latch) :
    (holding stage latch).latch stage = latch :=
  latch_place_self ..

theorem eq_of_instruction_holding {stage other : Stage} {latch : Latch} {inst : Instruction}
    (h : ((holding stage latch).latch other).instruction = some inst) : other = stage := by
  refine Decidable.byContradiction fun hne => ?_
  rw [latch_holding_of_ne latch hne] at h
  contradiction

theorem occupied_holding_le (stage : Stage) (latch : Latch) :
    (holding stage latch).occupied ≤ 1 := by
  have hstage (other : Stage) (hbusy : !((holding stage latch).latch other).isIdle) :
      decide (other = stage) := by
    obtain ⟨inst, hinst⟩ := Option.isSome_iff_exists.mp (by simpa [Latch.isIdle] using hbusy)
    exact decide_eq_true (eq_of_instruction_holding hinst)
  calc
    (holding stage latch).occupied ≤ Stage.all.countP (· = stage) :=
      List.countP_mono_left fun other _ => hstage other
    _ = 1 := by cases stage <;> rfl

theorem exists_instruction_of_resident? {pipeline : Pipeline} {stage : Stage} {latch : Latch}
    (h : pipeline.resident? = some (stage, latch)) : ∃ inst, latch.instruction = some inst := by
  obtain ⟨found, hfound, hpair⟩ := Option.map_eq_some_iff.mp h
  cases hpair
  have hbusy := List.find?_some hfound
  exact Option.isSome_iff_exists.mp (by simpa [Latch.isIdle] using hbusy)

end Pipeline

namespace Machine

section Pipeline

variable {program : List Instruction} {machine next : Machine}

theorem pipeline_of_none (h : machine.cycle program = .ok next)
    (hresident : machine.pipeline.resident? = none) :
    next.pipeline =
      match program[machine.nextSlot]? with
      | none => .idle
      | some inst => .holding .fetch (.ofInstruction inst) := by
  rw [cycle_of_none hresident] at h
  cases h
  unfold fetch
  simp only [nextSlot]
  cases program[machine.pc.toNat / 4]? <;> rfl

theorem instruction_accessMemory (machine : Machine) (latch : Latch) :
    (machine.accessMemory latch).pipeline.writeBack.instruction = latch.instruction := by
  simp only [accessMemory, Pipeline.place]
  split
  · rfl
  · split
    · rfl
    · split <;> rfl

-- Whatever becomes of its latch, an instruction goes on by one stage and is
-- alone there.
theorem pipeline_of_some {stage : Stage} {latch : Latch} {inst : Instruction}
    (h : machine.cycle program = .ok next)
    (hresident : machine.pipeline.resident? = some (stage, latch))
    (hinst : latch.instruction = some inst) :
    match stage.next? with
    | none => next.pipeline = .idle
    | some following => ∃ passed : Latch, passed.instruction = some inst ∧
        next.pipeline = .holding following passed := by
  cases stage with
  | fetch =>
    rw [cycle_of_fetch hresident] at h
    obtain ⟨worked, hdecode, rfl⟩ := map_eq_ok.mp h
    rw [decode, hinst] at hdecode
    obtain ⟨decoded, -, hworked⟩ := bind_eq_ok.mp hdecode
    cases hworked
    exact ⟨_, rfl, rfl⟩
  | decode =>
    rw [cycle_of_decode hresident] at h
    cases h
    refine ⟨_, ?_, rfl⟩
    exact hinst
  | execute =>
    rw [cycle_of_execute hresident] at h
    cases h
    exact ⟨_, hinst, rfl⟩
  | memory =>
    rw [cycle_of_memory hresident] at h
    cases h
    have hpassed := instruction_accessMemory { machine with pipeline := .idle } latch
    exact ⟨_, hpassed.trans hinst, rfl⟩
  | writeBack =>
    rw [cycle_of_writeBack hresident] at h
    cases h
    rw [writeBack_eq]
    rfl

theorem Moves.stage_eq {target : UInt32} (h : Moves program machine target) {stage : Stage}
    {latch : Latch} (hresident : machine.pipeline.resident? = some (stage, latch)) :
    stage = .execute := by
  cases h with
  | fetch hnone =>
    rw [hresident] at hnone
    contradiction
  | branch hexecute =>
    rw [hresident] at hexecute
    cases hexecute
    rfl

theorem pc_of_some {stage : Stage} {latch : Latch} (h : machine.cycle program = .ok next)
    (hresident : machine.pipeline.resident? = some (stage, latch)) (hstage : stage ≠ .execute) :
    next.pc = machine.pc := by
  obtain ⟨worked, hworked, rfl⟩ := exists_works_of_cycle h
  exact (pc_of_works hworked).resolve_right fun hmoves => hstage (hmoves.stage_eq hresident)

end Pipeline

-- Up to execute, the program counter stands right behind the instruction in
-- the pipeline: a branch takes effect only when it leaves that stage.
def Placed (program : List Instruction) (machine : Machine) : Prop :=
  ∀ stage ∈ [Stage.fetch, .decode, .execute], ∀ latch inst,
    machine.pipeline.resident? = some (stage, latch) → latch.instruction = some inst →
      program[(machine.pc - 4).toNat / 4]? = some inst

namespace Placed

variable {program : List Instruction} {machine next : Machine}

theorem of_idle (h : machine.pipeline = .idle) : Placed program machine := by
  intro stage _ latch inst hresident
  rw [h] at hresident
  contradiction

theorem cycle (h : Placed program machine) (hcycle : machine.cycle program = .ok next) :
    Placed program next := by
  intro following hfront passed inst hpassed hinst
  cases hresident : machine.pipeline.resident? with
  | none =>
    have hpipeline := pipeline_of_none hcycle hresident
    cases hslot : program[machine.nextSlot]? with
    | none =>
      rw [hpipeline, hslot] at hpassed
      contradiction
    | some fetched =>
      have hlt := (List.getElem?_eq_some_iff.mp hslot).1
      rw [hpipeline, hslot, Pipeline.resident?_holding _ rfl] at hpassed
      cases hpassed
      cases hinst
      rw [pc_of_moves hcycle (.fetch hresident hlt), UInt32.add_sub_cancel]
      exact hslot
  | some found =>
    obtain ⟨stage, latch⟩ := found
    obtain ⟨held, hheld⟩ := Pipeline.exists_instruction_of_resident? hresident
    have hpipeline := pipeline_of_some hcycle hresident hheld
    cases hnext : stage.next? with
    | none =>
      rw [hnext] at hpipeline
      rw [hpipeline] at hpassed
      contradiction
    | some other =>
      rw [hnext] at hpipeline
      obtain ⟨moved, hmoved, hpipeline⟩ := hpipeline
      rw [hpipeline, Pipeline.resident?_holding _ hmoved] at hpassed
      cases hpassed
      cases hmoved.symm.trans hinst
      have hstage : stage ∈ [Stage.fetch, .decode, .execute] ∧ stage ≠ .execute := by
        cases stage <;> cases hnext <;> simp at hfront ⊢
      rw [pc_of_some hcycle hresident hstage.2]
      exact h stage hstage.1 latch _ hresident hheld

theorem cycles {n : Nat} {final : Machine} (h : Placed program machine)
    (hcycles : machine.cycles program n = .ok final) : Placed program final :=
  cycles_preserves cycle h hcycles

end Placed

end Machine

-- What a stage holds for an instruction between two cycles.
structure Latch.Filled (inst : Instruction) (stage : Stage) (latch : Latch) : Prop where
  fetched : stage = .fetch → latch = .ofInstruction inst
  decoded : stage ≠ .fetch → ∃ decoded, latch.decoded = some decoded ∧
    inst.decode = .ok decoded ∧ decoded.source2.isSome ≠ decoded.immediate.isSome
  signals : stage ≠ .fetch → latch.signals = some inst.opcode.signals
  result : latch.result.isSome ↔ stage ∈ [.execute, .memory, .writeBack]
  address : latch.address.isSome ↔
    stage ∈ [.execute, .memory, .writeBack] ∧ inst.opcode ∈ [.ldr, .str]

theorem Latch.Carries.filled {inst : Instruction} {stage : Stage} {latch : Latch}
    (h : latch.Carries inst stage) : latch.Filled inst stage := by
  cases h with
  | fetched =>
    refine ⟨fun _ => rfl, fun hstage => absurd rfl hstage, fun hstage => absurd rfl hstage, ?_, ?_⟩
    all_goals simp [ofInstruction]
  | decoded hdecode =>
    have hsecond := (Instruction.laid_of_decode hdecode).second_unique
    refine ⟨Stage.noConfusion, fun _ => ⟨_, rfl, hdecode, hsecond⟩, fun _ => rfl, ?_, ?_⟩
    all_goals simp [ofDecoded]
  | executed result address hstage hdecode haddress =>
    have hsecond := (Instruction.laid_of_decode hdecode).second_unique
    have hlate : stage ∈ [.execute, .memory, .writeBack] := by
      cases stage <;> simp at hstage ⊢
    refine ⟨fun hfetch => absurd hfetch hstage.1, fun _ => ⟨_, rfl, hdecode, hsecond⟩,
      fun _ => rfl, ?_, ?_⟩
    · simpa using hlate
    · rw [haddress, Opcode.usesMemory_iff]
      exact (and_iff_right hlate).symm

namespace Machine

-- What the stages hold between two cycles of a program.
structure Latched (program : List Instruction) (machine : Machine) : Prop where
  occupied_le : machine.pipeline.occupied ≤ 1
  idle : ∀ stage, (machine.pipeline.latch stage).isIdle → machine.pipeline.latch stage = .idle
  mem : ∀ stage inst, (machine.pipeline.latch stage).instruction = some inst → inst ∈ program
  placed : ∀ stage ∈ [Stage.fetch, .decode, .execute], ∀ inst,
    (machine.pipeline.latch stage).instruction = some inst →
      program[(machine.pc - 4).toNat / 4]? = some inst
  filled : ∀ stage inst, (machine.pipeline.latch stage).instruction = some inst →
    (machine.pipeline.latch stage).Filled inst stage

theorem Coherent.latched {program : List Instruction} {machine : Machine}
    (h : Coherent program machine) (hplaced : Placed program machine) :
    Latched program machine := by
  cases h with
  | idle hpipeline =>
    have hidle (stage : Stage) : machine.pipeline.latch stage = .idle := by
      rw [hpipeline, Pipeline.latch_idle]
    have hnone (stage : Stage) (inst : Instruction) :
        (machine.pipeline.latch stage).instruction ≠ some inst := by
      rw [hidle]
      exact nofun
    exact {
      occupied_le := by rw [hpipeline]; exact Nat.zero_le _
      idle := fun stage _ => hidle stage
      mem := fun stage inst hinst => absurd hinst (hnone stage inst)
      placed := fun stage _ inst hinst => absurd hinst (hnone stage inst)
      filled := fun stage inst hinst => absurd hinst (hnone stage inst) }
  | @resident stage latch inst hpipeline hlatch hmem =>
    have hresident := Coherent.resident?_eq hpipeline hlatch
    have hself : machine.pipeline.latch stage = latch := by
      rw [hpipeline, Pipeline.latch_holding_self]
    have honly {other : Stage} {found : Instruction}
        (hfound : (machine.pipeline.latch other).instruction = some found) :
        other = stage ∧ found = inst := by
      have hother : other = stage := by
        rw [hpipeline] at hfound
        exact Pipeline.eq_of_instruction_holding hfound
      rw [hother, hself, hlatch.instruction_eq] at hfound
      exact ⟨hother, (Option.some.inj hfound).symm⟩
    refine {
      occupied_le := by rw [hpipeline]; exact Pipeline.occupied_holding_le ..
      idle := fun other hidle => ?others
      mem := fun other found hfound => (honly hfound).2 ▸ hmem
      placed := fun other hfront found hfound => ?placed
      filled := fun other found hfound => ?filled }
    case others =>
      have hne : other ≠ stage := by
        rintro rfl
        rw [hself, Latch.isIdle, hlatch.instruction_eq] at hidle
        contradiction
      rw [hpipeline, Pipeline.latch_holding_of_ne latch hne]
    case placed =>
      obtain ⟨rfl, rfl⟩ := honly hfound
      exact hplaced other hfront latch found hresident hlatch.instruction_eq
    case filled =>
      obtain ⟨rfl, rfl⟩ := honly hfound
      rw [hself]
      exact hlatch.filled

theorem latched_of_cycles {program : List Instruction} {startPc : UInt32} {initialSp : Int32}
    {n : Nat} {machine : Machine} (h : (reset startPc initialSp).cycles program n = .ok machine) :
    Latched program machine := by
  have hcoherent : Coherent program (reset startPc initialSp) := .idle rfl
  have hplaced : Placed program (reset startPc initialSp) := .of_idle rfl
  exact (hcoherent.cycles h).latched (hplaced.cycles h)

-- Entered at its second instruction, off the word boundary.
private def storing : List Instruction := [
  .build 1 .mov ["R1", "#64"] "MOV R1, #64" 1,
  .build 2 .str ["R0", "[R1]"] "STR R0, [R1]" 2]

theorem latched_of_storing : ∃ machine, (reset 6 1024).cycles storing 3 = .ok machine ∧
    machine.pc = 10 ∧ machine.pipeline.execute.address = some 0 ∧ Latched storing machine := by
  have hreached : ((reset 6 1024).cycles storing 3).toOption.map
      (fun machine => (machine.pc, machine.pipeline.execute.address)) = some (10, some 0) := by
    decide +kernel
  obtain ⟨machine, hmachine, hends⟩ := Option.map_eq_some_iff.mp hreached
  obtain ⟨hpc, haddress⟩ := Prod.mk.inj hends
  have hcycles := toOption_eq_some.mp hmachine
  exact ⟨machine, hcycles, hpc, haddress, latched_of_cycles hcycles⟩

end Machine

end FiveStage
