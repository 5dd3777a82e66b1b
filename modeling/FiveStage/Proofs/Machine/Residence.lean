import FiveStage.Proofs.Machine.Cycle
import FiveStage.Proofs.Instruction.Decoding

namespace FiveStage

-- What a stage may hold of an instruction: what has been computed for it on
-- the way there, and nothing else.
inductive Latch.Carries (inst : Instruction) : Stage → Latch → Prop
  | fetched : Carries inst .fetch (.ofInstruction inst)
  | decoded {decoded : OperandFields} (hdecode : inst.decode = .ok decoded) :
      Carries inst .decode (.ofDecoded inst decoded)
  | executed {stage : Stage} {decoded : OperandFields} (result : Int32)
      (address : Option UInt32) (hstage : stage ≠ .fetch ∧ stage ≠ .decode)
      (hdecode : inst.decode = .ok decoded)
      (haddress : address.isSome = inst.opcode.signals.usesMemory) :
      Carries inst stage
        { Latch.ofDecoded inst decoded with result := some result, address }

theorem Latch.Carries.instruction_eq {inst : Instruction} {stage : Stage} {latch : Latch}
    (h : latch.Carries inst stage) : latch.instruction = some inst := by
  cases h <;> rfl

theorem Latch.Carries.decoded_eq {inst : Instruction} {stage : Stage} {latch : Latch}
    (h : latch.Carries inst stage) (hstage : stage ≠ .fetch) :
    latch.signals = some inst.opcode.signals ∧
      ∃ decoded, inst.decode = .ok decoded ∧ latch.decoded = some decoded := by
  cases h with
  | fetched => contradiction
  | decoded hdecode | executed _ _ _ hdecode => exact ⟨rfl, _, hdecode, rfl⟩

namespace Machine

-- Nothing is in flight, or one instruction of the program is.
inductive Coherent (program : List Instruction) (machine : Machine) : Prop
  | idle (hpipeline : machine.pipeline = .idle)
  | resident (stage : Stage) {latch : Latch} {inst : Instruction}
      (hpipeline : machine.pipeline = .holding stage latch) (hlatch : latch.Carries inst stage)
      (hmem : inst ∈ program)

namespace Coherent

variable {program : List Instruction} {machine next : Machine}

theorem resident?_eq {stage : Stage} {latch : Latch} {inst : Instruction}
    (hpipeline : machine.pipeline = .holding stage latch) (hlatch : latch.Carries inst stage) :
    machine.pipeline.resident? = some (stage, latch) := by
  rw [hpipeline, Pipeline.resident?_holding stage hlatch.instruction_eq]

theorem exists_mem_of_resident? {stage : Stage} {latch : Latch} (h : Coherent program machine)
    (hresident : machine.pipeline.resident? = some (stage, latch)) :
    ∃ inst ∈ program, latch.Carries inst stage := by
  cases h with
  | idle hpipeline =>
    rw [hpipeline, Pipeline.resident?_idle] at hresident
    contradiction
  | resident stage hpipeline hlatch hmem =>
    rw [resident?_eq hpipeline hlatch] at hresident
    cases hresident
    exact ⟨_, hmem, hlatch⟩

theorem mem_of_fetch {inst : Instruction} (h : Coherent program machine)
    (hfetch : machine.pipeline.fetch.instruction = some inst) : inst ∈ program := by
  cases h with
  | idle hpipeline =>
    rw [hpipeline] at hfetch
    contradiction
  | resident stage hpipeline hlatch hmem =>
    rw [hpipeline] at hfetch
    cases stage with
    | fetch =>
      have hcarried : inst = _ := Option.some.inj (hfetch.symm.trans hlatch.instruction_eq)
      rw [hcarried]
      exact hmem
    | decode | execute | memory | writeBack => contradiction

theorem fetch_pipeline (hpipeline : machine.pipeline = .idle) :
    Coherent program (machine.fetch program).tick := by
  cases hfetch : program[machine.nextSlot]? with
  | none =>
    refine .idle ?_
    simpa only [tick, fetch, hfetch] using hpipeline
  | some inst =>
    refine .resident .fetch ?_ .fetched (List.mem_of_getElem? hfetch)
    simp only [tick, fetch, hfetch, hpipeline]
    rfl

theorem decode_pipeline {inst : Instruction} (hmem : inst ∈ program)
    (hpipeline : machine.pipeline = .idle)
    (h : (machine.decode (.ofInstruction inst)).map tick = .ok next) : Coherent program next := by
  rw [decode_ofInstruction, hpipeline] at h
  cases hdecode : inst.decode with
  | error fault =>
    rw [hdecode] at h
    contradiction
  | ok decoded =>
    rw [hdecode] at h
    cases h
    exact .resident .decode rfl (.decoded hdecode) hmem

theorem execute_pipeline {inst : Instruction} {decoded : OperandFields} (hmem : inst ∈ program)
    (hdecode : inst.decode = .ok decoded) (hpipeline : machine.pipeline = .idle) :
    Coherent program (machine.execute (.ofDecoded inst decoded)).tick := by
  have haddress : (if inst.opcode.signals.usesMemory
      then decoded.source2.map fun r => (machine.registers.read r).toUInt32
      else none).isSome = inst.opcode.signals.usesMemory := by
    cases hmemory : inst.opcode.signals.usesMemory with
    | false => rfl
    | true => simp [(Instruction.laid_of_decode hdecode).source2_isSome hmemory]
  let result := inst.opcode.signals.aluOperation.apply
    ((decoded.source1.map machine.registers.read).getD 0)
    (secondOperand machine.registers decoded inst.opcode.signals.aluSource)
  refine .resident .execute ?_
    (.executed result _ ⟨Stage.noConfusion, Stage.noConfusion⟩ hdecode haddress) hmem
  simp only [tick, execute, hpipeline]
  rfl

theorem accessMemory_pipeline {inst : Instruction} {decoded : OperandFields} (result : Int32)
    (address : Option UInt32) (hmem : inst ∈ program) (hdecode : inst.decode = .ok decoded)
    (haddress : address.isSome = inst.opcode.signals.usesMemory)
    (hpipeline : machine.pipeline = .idle) :
    Coherent program (machine.accessMemory
      { Latch.ofDecoded inst decoded with result := some result, address }).tick := by
  have passed (other : Int32) : (Latch.Carries inst .writeBack
      { Latch.ofDecoded inst decoded with result := some other, address }) :=
    .executed other address ⟨Stage.noConfusion, Stage.noConfusion⟩ hdecode haddress
  cases address with
  | none =>
    refine .resident .writeBack ?_ (passed result) hmem
    simp only [tick, accessMemory, hpipeline]
    rfl
  | some address =>
    by_cases hread : inst.opcode.signals.memRead
    · refine .resident .writeBack ?_ (passed (machine.memory.read address)) hmem
      simp only [tick, accessMemory, Latch.ofDecoded, Option.getD_some, hread, hpipeline]
      rfl
    · refine .resident .writeBack ?_ (passed result) hmem
      by_cases hwrite : inst.opcode.signals.memWrite
      all_goals
        simp only [tick, accessMemory, Latch.ofDecoded, Option.getD_some, hread, hwrite, hpipeline]
        rfl

theorem cycle (h : Coherent program machine) (hcycle : machine.cycle program = .ok next) :
    Coherent program next := by
  cases h with
  | idle hpipeline =>
    rw [cycle_of_none (by rw [hpipeline, Pipeline.resident?_idle])] at hcycle
    cases hcycle
    exact fetch_pipeline rfl
  | @resident stage latch inst hpipeline hlatch hmem =>
    have hresident := resident?_eq hpipeline hlatch
    cases hlatch with
    | fetched =>
      rw [cycle_of_fetch hresident] at hcycle
      exact decode_pipeline hmem rfl hcycle
    | decoded hdecode =>
      rw [cycle_of_decode hresident] at hcycle
      cases hcycle
      exact execute_pipeline hmem hdecode rfl
    | executed result address hstage hdecode haddress =>
      cases stage with
      | fetch | decode => simp at hstage
      | execute =>
        rw [cycle_of_execute hresident] at hcycle
        cases hcycle
        exact .resident .memory rfl
          (.executed result address ⟨Stage.noConfusion, Stage.noConfusion⟩ hdecode haddress) hmem
      | memory =>
        rw [cycle_of_memory hresident] at hcycle
        cases hcycle
        exact accessMemory_pipeline result address hmem hdecode haddress rfl
      | writeBack =>
        rw [cycle_of_writeBack hresident] at hcycle
        cases hcycle
        exact .idle (by rw [writeBack_eq]; rfl)

-- Only an instruction that cannot be decoded stops the machine.
theorem exists_mem_of_cycle_eq_error {fault : DecodeFault} (h : Coherent program machine)
    (hcycle : machine.cycle program = .error fault) :
    ∃ inst ∈ program, machine.pipeline.resident? = some (.fetch, .ofInstruction inst) ∧
      inst.decode = .error fault := by
  obtain ⟨latch, hresident, hfault⟩ := exists_decode_of_cycle hcycle
  obtain ⟨inst, hmem, hlatch⟩ := h.exists_mem_of_resident? hresident
  cases hlatch with
  | executed _ _ hstage => exact absurd rfl hstage.1
  | fetched =>
    rw [decode_ofInstruction] at hfault
    exact ⟨inst, hmem, hresident, map_eq_error.mp hfault⟩

theorem exists_cycle_of_takes {latch : Latch} {inst : Instruction} {decoded : OperandFields}
    {target : Int32} (h : Coherent program machine)
    (hresident : machine.pipeline.resident? = some (.execute, latch))
    (hlatch : latch.instruction = some inst) (hdecode : inst.decode = .ok decoded)
    (htakes : inst.opcode.takes machine.flags) (htarget : decoded.immediate = some target) :
    ∃ next, machine.cycle program = .ok next ∧ next.pc = target.toUInt32 := by
  obtain ⟨carried, -, hcarries⟩ := h.exists_mem_of_resident? hresident
  obtain rfl : carried = inst := Option.some.inj (hcarries.instruction_eq.symm.trans hlatch)
  obtain ⟨hsignals, fields, hfields, hdecoded⟩ := hcarries.decoded_eq Stage.noConfusion
  obtain rfl : fields = decoded := Except.ok.inj (hfields.symm.trans hdecode)
  refine ⟨_, cycle_of_execute hresident, ?_⟩
  simp only [tick, resolveBranch, branchTarget?_eq hlatch hdecoded hsignals, htakes, ↓reduceIte,
    htarget, Option.map_some, Option.getD_some]

theorem cycles {n : Nat} {final : Machine} (h : Coherent program machine)
    (hcycles : machine.cycles program n = .ok final) : Coherent program final :=
  cycles_preserves cycle h hcycles

end Coherent

end Machine

end FiveStage
