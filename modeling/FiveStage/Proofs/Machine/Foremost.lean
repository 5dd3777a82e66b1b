import FiveStage.Proofs.Machine.Latches

namespace FiveStage

namespace Stage

-- How far along the pipeline a stage is.
def depth : Stage → Nat
  | fetch => 1
  | decode => 2
  | execute => 3
  | memory => 4
  | writeBack => 5

theorem mem_priority (stage : Stage) : stage ∈ priority := by
  cases stage <;> decide

theorem priority_descending : priority.Pairwise fun a b => b.depth < a.depth := by
  decide

theorem next?_ne_self (stage : Stage) : stage.next? ≠ some stage := by
  cases stage <;> decide

theorem depth_of_next? {stage following : Stage} (h : stage.next? = some following) :
    following.depth = stage.depth + 1 := by
  cases stage <;> cases h <;> rfl

end Stage

namespace Pipeline

-- The stage that gets to work: it is busy, and those further along are idle.
-- There is none when every stage is idle.
def Foremost (pipeline : Pipeline) : Option Stage → Prop
  | none => ∀ stage, (pipeline.latch stage).isIdle
  | some stage => (pipeline.latch stage).isIdle = false ∧
      ∀ other, stage.depth < other.depth → (pipeline.latch other).isIdle

-- The pipeline with every stage emptied but one.
def only (pipeline : Pipeline) : Option Stage → Pipeline
  | none => idle
  | some stage => holding stage (pipeline.latch stage)

-- The search for it goes from the end of the pipeline to its start, so what
-- it has passed over is what lies further along.
theorem foremost_resident? (pipeline : Pipeline) :
    pipeline.Foremost (pipeline.resident?.map Prod.fst) := by
  unfold resident?
  cases hfound : Stage.priority.find? fun stage => !(pipeline.latch stage).isIdle with
  | none =>
    intro stage
    simpa using List.find?_eq_none.mp hfound stage stage.mem_priority
  | some stage =>
    obtain ⟨hbusy, passed, rest, hpriority, hidle⟩ := List.find?_eq_some_iff_append.mp hfound
    refine ⟨by simpa using hbusy, fun other hdeeper => ?_⟩
    have hmem := other.mem_priority
    have hdescending := Stage.priority_descending
    rw [hpriority] at hmem hdescending
    have hrest := (List.pairwise_cons.mp (List.pairwise_append.mp hdescending).2.1).1
    cases List.mem_append.mp hmem with
    | inl hpassed => simpa using hidle other hpassed
    | inr hother =>
      cases List.mem_cons.mp hother with
      | inl hself => exact absurd hdeeper (hself ▸ Nat.lt_irrefl _)
      | inr hbehind => exact absurd hdeeper (Nat.lt_asymm (hrest other hbehind))

theorem latch_of_resident? {pipeline : Pipeline} {stage : Stage} {latch : Latch}
    (h : pipeline.resident? = some (stage, latch)) : pipeline.latch stage = latch := by
  obtain ⟨_, -, hpair⟩ := Option.map_eq_some_iff.mp h
  cases hpair
  rfl

theorem resident?_only (pipeline : Pipeline) :
    (pipeline.only (pipeline.resident?.map Prod.fst)).resident? = pipeline.resident? := by
  cases hresident : pipeline.resident? with
  | none => rfl
  | some found =>
    obtain ⟨stage, latch⟩ := found
    obtain ⟨inst, hinst⟩ := exists_instruction_of_resident? hresident
    rw [Option.map_some, only, latch_of_resident? hresident, resident?_holding stage hinst]

theorem instruction_holding (stage other : Stage) (latch : Latch) :
    ((holding stage latch).latch other).instruction =
      if stage = other then latch.instruction else none := by
  by_cases hother : stage = other
  · rw [if_pos hother, ← hother, latch_holding_self]
  · rw [if_neg hother, latch_holding_of_ne latch (Ne.symm hother)]
    rfl

end Pipeline

namespace Machine

variable {program : List Instruction} {machine next : Machine}

-- A cycle looks at the stage that gets to work and at no other.
theorem cycle_congr {pipeline : Pipeline} (h : pipeline.resident? = machine.pipeline.resident?) :
    { machine with pipeline }.cycle program = machine.cycle program := by
  simp only [cycle, h]

-- What a cycle makes of the pipeline.
inductive Passes (program : List Instruction) (machine next : Machine) : Prop
  | halted (hresident : machine.pipeline.resident? = none)
      (hslot : program[machine.nextSlot]? = none) (hnext : next.pipeline = .idle)
  | fetched {inst : Instruction} (hresident : machine.pipeline.resident? = none)
      (hslot : program[machine.nextSlot]? = some inst)
      (hnext : next.pipeline = .holding .fetch (.ofInstruction inst))
  | passed {stage following : Stage} {latch passed : Latch} {inst : Instruction}
      (hresident : machine.pipeline.resident? = some (stage, latch))
      (hinst : latch.instruction = some inst) (hfollowing : stage.next? = some following)
      (hpassed : passed.instruction = some inst) (hnext : next.pipeline = .holding following passed)
  | finished {latch : Latch} {inst : Instruction}
      (hresident : machine.pipeline.resident? = some (.writeBack, latch))
      (hinst : latch.instruction = some inst) (hnext : next.pipeline = .idle)

theorem passes_of_cycle (h : machine.cycle program = .ok next) : Passes program machine next := by
  cases hresident : machine.pipeline.resident? with
  | none =>
    have hnext := pipeline_of_none h hresident
    cases hslot : program[machine.nextSlot]? with
    | none =>
      rw [hslot] at hnext
      exact .halted hresident hslot hnext
    | some inst =>
      rw [hslot] at hnext
      exact .fetched hresident hslot hnext
  | some found =>
    obtain ⟨stage, latch⟩ := found
    obtain ⟨inst, hinst⟩ := Pipeline.exists_instruction_of_resident? hresident
    have hnext := pipeline_of_some h hresident hinst
    cases stage with
    | fetch | decode | execute | memory =>
      obtain ⟨passed, hpassed, hnext⟩ := hnext
      exact .passed hresident hinst rfl hpassed hnext
    | writeBack => exact .finished hresident hinst hnext

-- What a stage holds after a cycle, told from the stage that got to work.
def arriving (program : List Instruction) (machine : Machine) (foremost : Option Stage)
    (stage : Stage) : Option Instruction :=
  match foremost with
  | none => if stage = .fetch then program[machine.nextSlot]? else none
  | some worked => if worked.next? = some stage
    then (machine.pipeline.latch worked).instruction else none

theorem pipeline_of_cycle (h : machine.cycle program = .ok next) :
    next.pipeline = .idle ∨ ∃ stage latch inst,
      next.pipeline = .holding stage latch ∧ latch.instruction = some inst := by
  cases passes_of_cycle h with
  | halted _ _ hnext | finished _ _ hnext => exact .inl hnext
  | fetched _ _ hnext => exact .inr ⟨.fetch, _, _, hnext, rfl⟩
  | passed _ _ _ hpassed hnext => exact .inr ⟨_, _, _, hnext, hpassed⟩

theorem occupied_le_of_cycle (h : machine.cycle program = .ok next) :
    next.pipeline.occupied ≤ 1 := by
  cases pipeline_of_cycle h with
  | inl hidle =>
    rw [hidle]
    exact Nat.zero_le _
  | inr hholding =>
    obtain ⟨stage, latch, _, hpipeline, -⟩ := hholding
    rw [hpipeline]
    exact Pipeline.occupied_holding_le stage latch

theorem instruction_of_cycle (h : machine.cycle program = .ok next) (stage : Stage) :
    (next.pipeline.latch stage).instruction =
      machine.arriving program (machine.pipeline.resident?.map Prod.fst) stage := by
  cases passes_of_cycle h with
  | halted hresident hslot hnext =>
    rw [hnext, hresident, Option.map_none, arriving, hslot, ite_self, Pipeline.latch_idle]
    rfl
  | fetched hresident hslot hnext =>
    rw [hnext, hresident, Option.map_none, arriving, hslot, Pipeline.instruction_holding]
    simp only [eq_comm, Latch.ofInstruction]
  | passed hresident hinst hfollowing hpassed hnext =>
    rw [hnext, hresident, Option.map_some, arriving, Pipeline.instruction_holding, hpassed,
      hfollowing, Pipeline.latch_of_resident? hresident, hinst]
    simp only [Option.some.injEq]
  | finished hresident hinst hnext =>
    rw [hnext, hresident, Option.map_some, arriving, Pipeline.latch_idle]
    rfl

-- Whatever the stages hold, and however many of them are busy, a cycle is the
-- work of the foremost one, and all that is left in the pipeline afterwards is
-- its instruction, one stage on.
theorem foremost_moves_on (program : List Instruction) (machine : Machine) :
    ∃ foremost, machine.pipeline.Foremost foremost ∧
      { machine with pipeline := machine.pipeline.only foremost }.cycle program =
        machine.cycle program ∧
      ∀ next, machine.cycle program = .ok next →
        next.pipeline.occupied ≤ 1 ∧
        ∀ stage, (next.pipeline.latch stage).instruction =
          machine.arriving program foremost stage := by
  refine ⟨_, machine.pipeline.foremost_resident?, ?_, fun next hcycle => ⟨?_, ?_⟩⟩
  · exact cycle_congr machine.pipeline.resident?_only
  · exact occupied_le_of_cycle hcycle
  · exact instruction_of_cycle hcycle

end Machine

end FiveStage
