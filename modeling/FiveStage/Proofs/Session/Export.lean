import FiveStage.Proofs.Machine.Alignment
import FiveStage.Proofs.Session.Safety
import FiveStage.Proofs.Session.Undo
import FiveStage.Proofs.Wire.Printable
import Mathlib.Data.List.Chain

namespace FiveStage

-- What is in flight anywhere is of the program.
theorem Machine.Coherent.mem_of_instruction {program : List Instruction} {machine : Machine}
    {stage : Stage} {inst : Instruction} (h : Coherent program machine)
    (hinst : (machine.pipeline.latch stage).instruction = some inst) : inst ∈ program := by
  obtain ⟨latch, hresident, hlatch⟩ := h.resident?_of_instruction hinst
  obtain ⟨other, hmem, hother⟩ := h.exists_mem_of_resident? hresident
  cases hlatch.instruction_eq.symm.trans hother.instruction_eq
  exact hmem

theorem SourceLine.number_le_length {text : String} {line : SourceLine} (h : line ∈ ofText text) :
    line.number ≤ (ofText text).length := by
  obtain ⟨i, hi, rfl⟩ := List.mem_mapIdx.mp h
  rw [number_ofRaw, ofText, List.length_mapIdx]
  exact hi

theorem Assembly.line_le_of_mem_ofText {policy : Redefinition} {firstId : Nat} {text : String}
    {inst : Instruction} (h : inst ∈ (ofText policy firstId text).instructions) :
    inst.line ≤ (SourceLine.ofText text).length := by
  obtain ⟨line, hmem, -, hnumber, -⟩ := exists_line_of_mem_instructions h
  rw [hnumber]
  exact SourceLine.number_le_length hmem

theorem Assembly.id_lt_of_mem_ofText {policy : Redefinition} {firstId : Nat} {text : String}
    {inst : Instruction} (h : inst ∈ (ofText policy firstId text).instructions) :
    inst.id < firstId + (ofText policy firstId text).instructions.length := by
  have hid := List.mem_map_of_mem (f := Instruction.id) h
  rw [ofText, ids_assembleLines, List.mem_range'_1] at hid
  exact hid.2

namespace Session

-- The numbers of a session fit in the 64 bits that lines, instructions and
-- cycles are counted in.
structure Bounded (session : Session) : Prop where
  lines_lt : (SourceLine.ofText session.source).length < UInt64.size
  nextInstruction_le : session.nextInstruction ≤ UInt64.size
  clock_lt : session.machine.clock < UInt64.size

-- No instruction has the id that the next one is to have, or one after it.
def Numbered (session : Session) : Prop :=
  ∀ inst ∈ session.program.instructions, inst.id < session.nextInstruction

theorem Numbered.invariant : Invariant Numbered where
  load text _ _ hinst := Assembly.id_lt_of_mem_ofText hinst
  reset h := h
  step h hstep := by
    rw [eq_of_step hstep]
    exact h
  undo h hundo := by
    obtain ⟨_, _, rfl⟩ := Option.map_eq_some_iff.mp hundo
    exact h
  programId _ h := h

-- The recorded machines and counts, oldest first, and the current ones.
def entries (session : Session) : List (Machine × Statistics) :=
  session.history.toList.reverse ++ [(session.machine, session.statistics)]

theorem snapshots_eq (session : Session) :
    session.snapshots = session.entries.map fun entry => Snapshot.ofMachine entry.1 := by
  simp [snapshots, entries, Function.comp_def]

namespace Faithful

variable {config : Config} {session : Session}

-- The entries are what a replay comes by, cycle by cycle.
theorem entries_eq (h : session.Faithful config) :
    session.entries.map Except.ok =
      (List.range (session.history.toList.length + 1)).map fun j =>
        replay session.program.instructions config.resetMachine
          (session.machine.clock - session.history.toList.length + j) := by
  have hle := (Nat.le_min.mp h.length_history_le).1
  rw [entries, List.map_append, h.history_eq, List.range_succ, List.map_append, List.map_singleton,
    List.map_singleton, Nat.sub_add_cancel hle, h.replayed]

theorem replay_getElem (h : session.Faithful config) {j : Nat} (hj : j < session.entries.length) :
    replay session.program.instructions config.resetMachine
      (session.machine.clock - session.history.toList.length + j) = .ok session.entries[j] := by
  have hget := List.getElem_of_eq h.entries_eq (i := j) (by rwa [List.length_map])
  rw [List.getElem_map, List.getElem_map, List.getElem_range] at hget
  exact hget.symm

theorem exists_replay_of_mem_entries (h : session.Faithful config)
    {entry : Machine × Statistics} (hmem : entry ∈ session.entries) :
    ∃ n ≤ session.machine.clock,
      replay session.program.instructions config.resetMachine n = .ok entry := by
  obtain ⟨j, hj, rfl⟩ := List.getElem_of_mem hmem
  have hle := (Nat.le_min.mp h.length_history_le).1
  refine ⟨_, ?_, h.replay_getElem hj⟩
  rw [entries, List.length_append, List.length_reverse, List.length_singleton] at hj
  omega

-- Each entry is a cycle after the one before it.
theorem isChain_entries (h : session.Faithful config) :
    session.entries.IsChain fun before after =>
      before.1.cycle session.program.instructions = .ok after.1 := by
  rw [List.isChain_iff_getElem]
  intro j hj
  obtain ⟨entry, hentry, hrest⟩ := bind_eq_ok.mp (h.replay_getElem hj)
  obtain ⟨machine, hcycle, hnext⟩ := bind_eq_ok.mp hrest
  cases (h.replay_getElem (Nat.lt_of_succ_lt hj)).symm.trans hentry
  rw [hcycle, ← Except.ok.inj hnext]

-- The machines of a bounded session are bounded.
theorem bounded_of_mem_entries (h : session.Faithful config) (hnumbered : session.Numbered)
    (hbounded : session.Bounded) {entry : Machine × Statistics} (hmem : entry ∈ session.entries) :
    entry.1.Bounded := by
  obtain ⟨n, hn, hreplay⟩ := h.exists_replay_of_mem_entries hmem
  have hreset : Machine.Coherent session.program.instructions config.resetMachine := .idle rfl
  have hcoherent := hreset.cycles (replay_eq_ok hreplay).1
  refine ⟨fun stage inst hinst => ?_, ?_⟩
  · have hprogram := hcoherent.mem_of_instruction hinst
    refine ⟨Nat.lt_of_lt_of_le (hnumbered inst hprogram) hbounded.nextInstruction_le, ?_⟩
    obtain ⟨firstId, htext⟩ := h.program_eq
    rw [htext] at hprogram
    exact Nat.lt_of_le_of_lt (Assembly.line_le_of_mem_ofText hprogram) hbounded.lines_lt
  · rw [clock_eq hreplay]
    exact Nat.lt_of_le_of_lt hn hbounded.clock_lt

end Faithful

-- Whatever has been asked of a session, what it exports is a run of its
-- program up to where it is, with a cycle between each state and the next, and
-- this is what its text is read back as.
theorem performAll_exports {σ : Type u} [Store σ] (config : Config) (requests : List (Request σ)) :
    let session := (start config).performAll requests
    let recorded := session.history.toList.map fun entry => entry.1
    (session.Bounded →
        (Json.parse? session.exportText).bind Snapshot.listOfJson? = some session.snapshots) ∧
      session.snapshots.map Snapshot.state = recorded.reverse ++ [session.machine] ∧
      session.snapshots.getLast?.map Snapshot.state = some session.machine ∧
      (∀ snapshot ∈ session.snapshots, snapshot.step = snapshot.state.clock) ∧
      session.snapshots.IsChain fun before after =>
        after.step = before.step + 1 ∧
          before.state.cycle session.program.instructions = .ok after.state := by
  intro session recorded
  have hfaithful : session.Faithful config := (Faithful.start config).performAll requests
  have hnumbered : session.Numbered :=
    Numbered.invariant.performAll (fun _ hinst => absurd hinst List.not_mem_nil) requests
  refine ⟨fun hbounded => ?read, ?states, ?last, ?steps, ?chain⟩
  case read =>
    refine Snapshot.listOfJson?_parse?_pretty fun snapshot hsnapshot => ?_
    rw [snapshots_eq] at hsnapshot
    obtain ⟨entry, hentry, rfl⟩ := List.mem_map.mp hsnapshot
    have hmachine := hfaithful.bounded_of_mem_entries hnumbered hbounded hentry
    exact ⟨hmachine.clock_lt, hmachine⟩
  case states => simp [snapshots, recorded, Function.comp_def, Snapshot.ofMachine]
  case last => simp [snapshots, Snapshot.ofMachine]
  case steps =>
    rw [snapshots_eq]
    intro snapshot hsnapshot
    obtain ⟨entry, -, rfl⟩ := List.mem_map.mp hsnapshot
    rfl
  case chain =>
    rw [snapshots_eq, List.isChain_map]
    exact hfaithful.isChain_entries.imp fun _ _ hcycle => ⟨Machine.clock_cycle hcycle, hcycle⟩

-- A history that has let go of entries, steps that were undone and made again,
-- and before all that a program that does not run.
private def forgetful : Config := { session := { historyLimit := 3 } }

private def rewound : List (Request DatedShelf) :=
  [.load "NOPE", .step, .load "MOV R0, #3\nagain: SUB R0, R0, #1\n CMP R0, #0\n BNE again",
    .run 9, .undo, .undo, .step, .undo, .run 2]

theorem performAll_exports_rewound :
    let session := (start forgetful).performAll rewound
    session.Bounded ∧
      (Json.parse? session.exportText).bind Snapshot.listOfJson? = some session.snapshots ∧
      session.snapshots.map Snapshot.step = [6, 7, 8, 9] := by
  intro session
  have hbounded : session.Bounded := ⟨by decide +kernel, by decide +kernel, by decide +kernel⟩
  obtain ⟨hread, -⟩ := performAll_exports forgetful rewound
  exact ⟨hbounded, hread hbounded, by decide +kernel⟩

end Session

end FiveStage
