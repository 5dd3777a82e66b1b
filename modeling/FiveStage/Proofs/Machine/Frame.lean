import FiveStage.Proofs.Machine.Cycle

namespace FiveStage

theorem Memory.find?_write_of_ne (memory : Memory) {address other : UInt32} (value : Int32)
    (h : other ≠ address) : (memory.write address value).find? other = memory.find? other :=
  lookup_place_of_ne value memory.words h

namespace Machine

-- What a cycle can do beyond moving the clock and the latches. All of it is
-- said of the latch that gets to work, whatever that latch and the others hold.
section Events

variable (program : List Instruction) (machine : Machine)

inductive Compares : Prop
  | intro {latch : Latch} {inst : Instruction}
      (hresident : machine.pipeline.resident? = some (.decode, latch))
      (hinst : latch.instruction = some inst) (hopcode : inst.opcode = .cmp)

inductive Moves : UInt32 → Prop
  | fetch (hresident : machine.pipeline.resident? = none)
      (hslot : machine.nextSlot < program.length) : Moves (machine.pc + 4)
  | branch {latch : Latch} {inst : Instruction} {signals : ControlSignals}
      {decoded : OperandFields} {target : Int32}
      (hresident : machine.pipeline.resident? = some (.execute, latch))
      (hinst : latch.instruction = some inst)
      (hsignals : latch.signals = some signals) (hbranch : signals.branch)
      (htakes : inst.opcode.takes machine.flags)
      (hdecoded : latch.decoded = some decoded) (htarget : decoded.immediate = some target) :
      Moves target.toUInt32

inductive Stores (address : UInt32) : Int32 → Prop
  | intro {latch : Latch} {signals : ControlSignals}
      (hresident : machine.pipeline.resident? = some (.memory, latch))
      (haddress : latch.address = some address)
      (hsignals : latch.signals = some signals)
      (hwrite : signals.memWrite) (hread : signals.memRead = false) :
      Stores address (((latch.decoded.bind (·.source1)).map machine.registers.read).getD 0)

inductive Commits (r : Register) (value : Int32) : Prop
  | intro {latch : Latch} {signals : ControlSignals} {decoded : OperandFields}
      (hresident : machine.pipeline.resident? = some (.writeBack, latch))
      (hsignals : latch.signals = some signals) (hwrite : signals.regWrite)
      (hdecoded : latch.decoded = some decoded) (hdestination : decoded.destination = some r)
      (hresult : latch.result = some value)

variable {program machine} {worked next : Machine}

theorem Commits.register_eq {r other : Register} {a b : Int32} (h : machine.Commits r a)
    (hother : machine.Commits other b) : r = other := by
  obtain ⟨hresident, -, -, hdecoded, hdestination, -⟩ := h
  obtain ⟨hsame, -, -, hfields, hregister, -⟩ := hother
  rw [hresident] at hsame
  cases hsame
  rw [hdecoded] at hfields
  cases hfields
  rw [hdestination] at hregister
  exact Option.some.inj hregister

-- The flags, the program counter, the memory and the registers: each of them
-- changes in one stage only, and there only when the event occurs.
theorem flags_of_works (h : Works program machine worked) :
    worked.flags = machine.flags ∨
      machine.Compares ∧ ∃ a b, worked.flags = machine.flags.compare a b := by
  cases h with
  | idle =>
    left
    rw [fetch_eq]
  | fetched _ hdecode =>
    left
    rw [eq_of_decode hdecode]
  | @decoded latch hresident =>
    cases hcompares : latch.instruction.any fun inst => inst.opcode = .cmp with
    | false =>
      left
      simp only [execute, hcompares, Bool.false_eq_true, ↓reduceIte]
    | true =>
      right
      obtain ⟨inst, hinst, hopcode⟩ := (Option.any_eq_true ..).mp hcompares
      refine ⟨.intro hresident hinst (of_decide_eq_true hopcode), ?_, ?_, ?compared⟩
      case compared =>
        simp only [execute, hcompares, ↓reduceIte]
        rfl
  | executed | accessed => exact .inl rfl
  | finished =>
    left
    rw [writeBack_eq]

theorem moves_of_branchTarget? {latch : Latch} {target : UInt32}
    (hresident : machine.pipeline.resident? = some (.execute, latch))
    (h : branchTarget? machine.flags latch = some target) : Moves program machine target := by
  simp only [branchTarget?, Option.bind_eq_bind, Option.bind_eq_some_iff] at h
  obtain ⟨inst, hinst, signals, hsignals, h⟩ := h
  split at h
  · next htakes =>
    obtain ⟨hbranch, htakes⟩ := Bool.and_eq_true_iff.mp htakes
    simp only [Option.bind_eq_some_iff] at h
    obtain ⟨decoded, hdecoded, immediate, himmediate, htarget⟩ := h
    cases htarget
    exact .branch hresident hinst hsignals hbranch htakes hdecoded himmediate
  · contradiction

theorem pc_of_works (h : Works program machine worked) :
    worked.pc = machine.pc ∨ Moves program machine worked.pc := by
  cases h with
  | idle hresident =>
    cases hslot : program[machine.nextSlot]? with
    | none =>
      left
      simp only [fetch, nextSlot] at hslot ⊢
      rw [hslot]
    | some inst =>
      right
      have hlt := (List.getElem?_eq_some_iff.mp hslot).1
      simp only [fetch, nextSlot] at hslot ⊢
      rw [hslot]
      exact .fetch hresident hlt
  | fetched _ hdecode =>
    left
    rw [eq_of_decode hdecode]
  | @executed latch hresident =>
    cases htarget : branchTarget? machine.flags latch with
    | none =>
      left
      simp only [resolveBranch, htarget, Option.getD_none]
    | some target =>
      right
      simp only [resolveBranch, htarget, Option.getD_some]
      exact moves_of_branchTarget? hresident htarget
  | decoded | accessed => exact .inl rfl
  | finished =>
    left
    rw [writeBack_eq]

theorem memory_of_works (h : Works program machine worked) :
    worked.memory = machine.memory ∨
      ∃ address value, machine.Stores address value ∧
        worked.memory = machine.memory.write address value := by
  cases h with
  | idle =>
    left
    rw [fetch_eq]
  | fetched _ hdecode =>
    left
    rw [eq_of_decode hdecode]
  | decoded | executed => exact .inl rfl
  | @accessed latch hresident =>
    unfold accessMemory
    cases haddress : latch.address with
    | none => exact .inl rfl
    | some address =>
      cases hsignals : latch.signals with
      | none => exact .inl rfl
      | some signals =>
        by_cases hread : signals.memRead
        · left
          simp [hread]
        · by_cases hwrite : signals.memWrite
          · right
            have hread := Bool.eq_false_iff.mpr hread
            refine ⟨address, _, .intro hresident haddress hsignals hwrite hread, ?_⟩
            simp [hread, hwrite]
          · left
            simp [hread, hwrite]
  | finished =>
    left
    rw [writeBack_eq]

theorem registers_of_works (h : Works program machine worked) :
    worked.registers = machine.registers ∨
      ∃ r value, machine.Commits r value ∧
        worked.registers = machine.registers.write r value := by
  cases h with
  | idle =>
    left
    rw [fetch_eq]
  | fetched _ hdecode =>
    left
    rw [eq_of_decode hdecode]
  | decoded | executed | accessed => exact .inl rfl
  | @finished latch hresident =>
    unfold writeBack
    split
    · next signals r value hsignals hdestination hresult =>
      obtain ⟨decoded, hdecoded, hdestination⟩ := Option.bind_eq_some_iff.mp hdestination
      split
      · next hwrite =>
        right
        have hwrite := (Bool.and_eq_true_iff.mp hwrite).1
        exact ⟨r, value, .intro hresident hsignals hwrite hdecoded hdestination hresult, rfl⟩
      · exact .inl rfl
    · exact .inl rfl

-- An event that is due does take place.
theorem pc_of_moves {target : UInt32} (hcycle : machine.cycle program = .ok next)
    (hmoves : Moves program machine target) : next.pc = target := by
  cases hmoves with
  | fetch hresident hslot =>
    rw [cycle_of_none hresident] at hcycle
    cases hcycle
    have hinst := List.getElem?_eq_getElem hslot
    simp only [nextSlot] at hinst
    simp only [tick, fetch, nextSlot, hinst]
  | branch hresident hinst hsignals hbranch htakes hdecoded htarget =>
    rw [cycle_of_execute hresident] at hcycle
    cases hcycle
    simp [tick, resolveBranch, branchTarget?, hinst, hsignals, hbranch, htakes, hdecoded, htarget]

theorem find?_of_stores {address : UInt32} {value : Int32}
    (hcycle : machine.cycle program = .ok next) (hstores : machine.Stores address value) :
    next.memory.find? address = some value := by
  obtain ⟨hresident, haddress, hsignals, hwrite, hread⟩ := hstores
  rw [cycle_of_memory hresident] at hcycle
  cases hcycle
  simp only [tick, accessMemory, haddress, hsignals, hwrite, hread, Option.getD_some,
    Bool.false_eq_true, ↓reduceIte]
  exact Memory.lookup_place_self ..

theorem read_of_commits {r : Register} {value : Int32} (hcycle : machine.cycle program = .ok next)
    (hcommits : machine.Commits r value) (hr : r ≠ .pc) : next.registers.read r = value := by
  obtain ⟨hresident, hsignals, hwrite, hdecoded, hdestination, hresult⟩ := hcommits
  rw [cycle_of_writeBack hresident] at hcycle
  cases hcycle
  simp [tick, writeBack, hsignals, hwrite, hdecoded, hdestination, hresult, hr,
    RegisterFile.read_write_of_ne]

end Events

section Frame

-- How the machine after a cycle compares with the one before it. Carry and
-- overflow never change, and nothing else does without its event.
structure Frame (program : List Instruction) (machine next : Machine) : Prop where
  clock_eq : next.clock = machine.clock + 1
  shown : next.registers.read .pc = next.pc.toInt32
  carry_eq : next.flags.c = machine.flags.c
  overflow_eq : next.flags.v = machine.flags.v
  flags_eq : ¬machine.Compares → next.flags = machine.flags
  pc_eq : (∀ target, ¬Moves program machine target) → next.pc = machine.pc
  moved : ∀ {target}, Moves program machine target → next.pc = target
  find?_eq : ∀ address, (∀ value, ¬machine.Stores address value) →
    next.memory.find? address = machine.memory.find? address
  stored : ∀ {address value}, machine.Stores address value →
    next.memory.find? address = some value
  read_eq : ∀ r ≠ .pc, (∀ value, ¬machine.Commits r value) →
    next.registers.read r = machine.registers.read r
  committed : ∀ {r value}, r ≠ .pc → machine.Commits r value → next.registers.read r = value
  one_register : ∀ r ≠ .pc, ∀ other ≠ .pc,
    next.registers.read r ≠ machine.registers.read r →
    next.registers.read other ≠ machine.registers.read other → r = other

variable {program : List Instruction} {machine worked next : Machine}

theorem carry_overflow_of_works (h : Works program machine worked) :
    worked.flags.c = machine.flags.c ∧ worked.flags.v = machine.flags.v := by
  cases flags_of_works h with
  | inl hsame =>
    rw [hsame]
    exact ⟨rfl, rfl⟩
  | inr hcompared =>
    obtain ⟨-, a, b, hflags⟩ := hcompared
    rw [hflags]
    exact ⟨rfl, rfl⟩

theorem find?_of_works (h : Works program machine worked) {address : UInt32}
    (hstores : ∀ value, ¬machine.Stores address value) :
    worked.memory.find? address = machine.memory.find? address := by
  cases memory_of_works h with
  | inl hsame => rw [hsame]
  | inr hstored =>
    obtain ⟨written, value, hevent, hwrite⟩ := hstored
    have hne : address ≠ written := fun he => hstores value (he ▸ hevent)
    rw [hwrite, Memory.find?_write_of_ne _ _ hne]

theorem read_of_works (h : Works program machine worked) {r : Register} (hr : r ≠ .pc) :
    worked.tick.registers.read r = machine.registers.read r ∨ ∃ value, machine.Commits r value := by
  rw [tick, RegisterFile.read_write_of_ne _ _ hr]
  cases registers_of_works h with
  | inl hsame =>
    left
    rw [hsame]
  | inr hcommitted =>
    obtain ⟨destination, value, hevent, hwrite⟩ := hcommitted
    by_cases hdestination : r = destination
    · exact .inr ⟨value, hdestination ▸ hevent⟩
    · left
      rw [hwrite, RegisterFile.read_write_of_ne _ _ hdestination]

-- Nothing is asked of the machine: any of its latches may hold anything, in
-- any number of stages at a time.
theorem frame_of_cycle (h : machine.cycle program = .ok next) : Frame program machine next := by
  obtain ⟨worked, hworked, rfl⟩ := exists_works_of_cycle h
  obtain ⟨hcarry, hoverflow⟩ := carry_overflow_of_works hworked
  refine {
    clock_eq := clock_cycle h
    shown := RegisterFile.read_write_self ..
    carry_eq := hcarry
    overflow_eq := hoverflow
    flags_eq := fun hcompares => ?flags
    pc_eq := fun hmoves => ?pc
    moved := pc_of_moves h
    find?_eq := fun _ hstores => find?_of_works hworked hstores
    stored := find?_of_stores h
    read_eq := fun r hr hcommits => ?register
    committed := fun hr hcommits => read_of_commits h hcommits hr
    one_register := fun r hr other hother hread hchanged => ?one }
  case flags => exact (flags_of_works hworked).resolve_right fun hevent => hcompares hevent.1
  case pc => exact (pc_of_works hworked).resolve_right fun hevent => hmoves _ hevent
  case register =>
    exact (read_of_works hworked hr).resolve_right fun ⟨value, hevent⟩ => hcommits value hevent
  case one =>
    obtain ⟨_, hcommits⟩ := (read_of_works hworked hr).resolve_left hread
    obtain ⟨_, hothers⟩ := (read_of_works hworked hother).resolve_left hchanged
    exact hcommits.register_eq hothers

-- A branch in write-back with the signals of an addition, and a store right
-- behind it that will not come to anything.
private def crowded : Machine :=
  { reset 0 1024 with
    pipeline := {
      memory := {
        instruction := some (.build 2 .str ["R0", "[R1]"] "STR R0, [R1]" 2)
        signals := some Opcode.str.signals
        address := some 64 }
      writeBack := {
        instruction := some (.build 1 .b ["#8"] "B #8" 1)
        decoded := some { destination := some .r3, immediate := some 8 }
        signals := some Opcode.add.signals
        result := some 7 } } }

theorem frame_of_crowded : ∃ next, crowded.cycle [] = .ok next ∧ Frame [] crowded next ∧
    next.registers.read .r3 = 7 ∧ next.memory.find? 64 = none := by
  have hcycle : crowded.cycle [] =
      .ok ({ crowded with pipeline := .idle }.writeBack crowded.pipeline.writeBack).tick := rfl
  have hframe := frame_of_cycle hcycle
  have hcommits : crowded.Commits .r3 7 := .intro rfl rfl rfl rfl rfl rfl
  have hstores (value : Int32) : ¬crowded.Stores 64 value := by
    intro hstores
    cases hstores with
    | intro hresident => cases hresident
  exact ⟨_, hcycle, hframe, hframe.committed (by decide) hcommits, hframe.find?_eq 64 hstores⟩

end Frame

end Machine

end FiveStage
