import FiveStage.Proofs.Assembly.Lines
import FiveStage.Proofs.Machine.Cycle
import FiveStage.Proofs.Session.Invariant
import FiveStage.Store.Shelf

namespace FiveStage

-- The machine and the counts after so many cycles from a start.
def replay (program : List Instruction) (start : Machine) :
    Nat → Except DecodeFault (Machine × Statistics)
  | 0 => .ok (start, {})
  | n + 1 => do
    let (machine, statistics) ← replay program start n
    return (← machine.cycle program, statistics.observe machine)

section Replay

variable {program : List Instruction} {start : Machine}

theorem replay_succ_of_eq_ok {n : Nat} {machine next : Machine} {statistics : Statistics}
    (h : replay program start n = .ok (machine, statistics))
    (hcycle : machine.cycle program = .ok next) :
    replay program start (n + 1) = .ok (next, statistics.observe machine) := by
  exact bind_eq_ok.mpr ⟨_, h, bind_eq_ok.mpr ⟨next, hcycle, rfl⟩⟩

theorem Statistics.cycles_retire (statistics : Statistics) (op : Opcode) :
    (statistics.retire op).cycles = statistics.cycles := by
  cases op <;> rfl

theorem Statistics.cycles_resolveBranch (statistics : Statistics) (taken : Bool) :
    (statistics.resolveBranch taken).cycles = statistics.cycles := by
  cases taken <;> rfl

theorem Statistics.cycles_observe (statistics : Statistics) (machine : Machine) :
    (statistics.observe machine).cycles = statistics.cycles + 1 := by
  unfold observe
  split
  · rw [cycles_retire]
  · split
    · rw [cycles_resolveBranch]
    · rfl
  · rfl

theorem replay_eq_ok {n : Nat} {machine : Machine} {statistics : Statistics}
    (h : replay program start n = .ok (machine, statistics)) :
    start.cycles program n = .ok machine ∧ machine.clock = start.clock + n ∧
      statistics.cycles = n := by
  induction n generalizing machine statistics with
  | zero =>
    cases h
    exact ⟨rfl, rfl, rfl⟩
  | succ n ih =>
    obtain ⟨⟨before, counts⟩, hbefore, hrest⟩ := bind_eq_ok.mp h
    obtain ⟨next, hnext, hpair⟩ := bind_eq_ok.mp hrest
    cases hpair
    obtain ⟨hcycles, hclock, hcounts⟩ := ih hbefore
    refine ⟨?_, ?_, ?_⟩
    · rw [Machine.cycles_add program n 1, hcycles]
      exact (Machine.cycles_succ hnext).trans (Machine.cycles_zero program machine)
    · rw [Machine.clock_cycle hnext, hclock, Nat.add_assoc]
    · rw [Statistics.cycles_observe, hcounts]

end Replay

namespace Session

-- What holds of a session all along. The entries of its history are what a
-- replay comes by on the way to the machine, the newest one cycle before it.
structure Faithful (config : Config) (session : Session) : Prop where
  config_eq : session.config = config
  program_eq : ∃ firstId,
    session.program = .ofText config.redefinition firstId session.source
  replayed : replay session.program.instructions config.resetMachine session.machine.clock =
    .ok (session.machine, session.statistics)
  limit_eq : session.history.limit = config.session.historyLimit.toNat
  recorded : ∀ (age : Nat) (entry : Machine × Statistics),
    session.history.toList[age]? = some entry →
      age < session.machine.clock ∧
      replay session.program.instructions config.resetMachine (session.machine.clock - 1 - age) =
        .ok entry

namespace Faithful

variable {config : Config} {session next : Session}

theorem of_reset (hconfig : session.config = config)
    (hprogram : ∃ firstId, session.program = .ofText config.redefinition firstId session.source) :
    session.reset.Faithful config := by
  subst hconfig
  exact {
    config_eq := rfl
    program_eq := hprogram
    replayed := rfl
    limit_eq := rfl
    recorded := fun age entry hentry => by simp [Session.reset] at hentry }

theorem start (config : Config) : (start config).Faithful config :=
  (of_reset rfl ⟨1, rfl⟩ : (Session.start config).reset.Faithful config)

theorem reset (h : session.Faithful config) : session.reset.Faithful config :=
  of_reset h.config_eq h.program_eq

theorem load (h : session.Faithful config) (text : String) :
    (session.load text).Faithful config :=
  of_reset h.config_eq ⟨session.nextInstruction, by rw [← h.config_eq]⟩

theorem clock_eq {n : Nat} {entry : Machine × Statistics} {program : List Instruction}
    (h : replay program config.resetMachine n = .ok entry) : entry.1.clock = n := by
  have hclock := (replay_eq_ok h).2.1
  rw [hclock]
  exact Nat.zero_add n

theorem step (h : session.Faithful config) (hstep : session.step = .ok next) :
    next.Faithful config := by
  obtain ⟨-, machine, hcycle, rfl⟩ := step_eq_ok.mp hstep
  have hclock := Machine.clock_cycle hcycle
  refine ⟨h.config_eq, h.program_eq, ?_, ?_, fun age entry hentry => ?_⟩
  · rw [advanced, hclock]
    exact replay_succ_of_eq_ok h.replayed hcycle
  · rw [advanced, History.limit_push, h.limit_eq]
  · rw [advanced, History.toList_push, List.getElem?_take] at hentry
    split at hentry
    · dsimp only [advanced]
      rw [hclock]
      cases age with
      | zero =>
        cases hentry
        exact ⟨Nat.zero_lt_succ _, h.replayed⟩
      | succ age =>
        obtain ⟨hage, hreplayed⟩ := h.recorded age entry hentry
        refine ⟨by omega, ?_⟩
        rw [Nat.add_sub_cancel, Nat.add_comm age, ← Nat.sub_sub]
        exact hreplayed
    · contradiction

theorem undo? (h : session.Faithful config) (hundo : session.undo? = some next) :
    next.Faithful config := by
  obtain ⟨⟨⟨machine, statistics⟩, history⟩, hpop, hnext⟩ := Option.map_eq_some_iff.mp hundo
  subst hnext
  have hlist := History.pop?_eq_some hpop
  obtain ⟨hpositive, hreplayed⟩ := h.recorded 0 (machine, statistics) (by rw [hlist]; rfl)
  have hclock : machine.clock = session.machine.clock - 1 := clock_eq hreplayed
  refine ⟨h.config_eq, h.program_eq, ?_, ?_, fun age entry hentry => ?_⟩
  · rw [Nat.sub_zero, ← hclock] at hreplayed
    exact hreplayed
  · rw [History.limit_of_pop? hpop, h.limit_eq]
  · obtain ⟨hage, hentry⟩ := h.recorded (age + 1) entry (by rw [hlist]; exact hentry)
    dsimp only
    rw [hclock]
    have hsame : session.machine.clock - 1 - 1 - age = session.machine.clock - 1 - (age + 1) := by
      omega
    refine ⟨by omega, ?_⟩
    rw [hsame]
    exact hentry

-- The saved program that a text belongs to is of no account.
theorem of_programId (h : session.Faithful config) (id : Option Nat) :
    { session with programId := id }.Faithful config where
  config_eq := h.config_eq
  program_eq := h.program_eq
  replayed := h.replayed
  limit_eq := h.limit_eq
  recorded := h.recorded

theorem invariant (config : Config) : Invariant (Faithful config) where
  load text h := h.load text
  reset h := h.reset
  step h hstep := h.step hstep
  undo h hundo := h.undo? hundo
  programId id h := h.of_programId id

theorem performAll {σ : Type u} [Store σ] (h : session.Faithful config)
    (requests : List (Request σ)) : (session.performAll requests).Faithful config :=
  (invariant config).performAll h requests

theorem length_history_le (h : session.Faithful config) :
    session.history.toList.length ≤
      min session.machine.clock config.session.historyLimit.toNat := by
  apply Nat.le_min.mpr
  constructor
  · by_cases hempty : session.history.toList.length = 0
    · omega
    · have hlast := List.getElem?_eq_getElem
        (show session.history.toList.length - 1 < session.history.toList.length by omega)
      have hage := (h.recorded _ _ hlast).1
      omega
  · rw [History.length_toList, ← h.limit_eq]
    exact session.history.size_le_limit

-- The history from its oldest entry on.
theorem history_eq (h : session.Faithful config) :
    session.history.toList.reverse.map Except.ok =
      (List.range session.history.toList.length).map fun j =>
        replay session.program.instructions config.resetMachine
          (session.machine.clock - session.history.toList.length + j) := by
  have hle := (Nat.le_min.mp h.length_history_le).1
  refine List.ext_getElem (by simp) fun j hj _ => ?_
  rw [List.length_map, List.length_reverse] at hj
  have hage : session.history.toList.length - 1 - j < session.history.toList.length := by omega
  obtain ⟨-, hreplayed⟩ := h.recorded _ _ (List.getElem?_eq_getElem hage)
  rw [List.getElem_map, List.getElem_map, List.getElem_range, List.getElem_reverse, ← hreplayed]
  congr 1
  omega

end Faithful

-- Whatever is asked of a session, it is where a replay of its program comes
-- to from reset, and its history is the last part of the way there.
theorem performAll_replays {σ : Type u} [Store σ] (config : Config)
    (requests : List (Request σ)) :
    let session := (start config).performAll requests
    let program := session.program.instructions
    let clock := session.machine.clock
    let recorded := session.history.toList.length
    (∀ firstId, session.program.withoutIds =
        (Assembly.ofText config.redefinition firstId session.source).withoutIds) ∧
      config.resetMachine.cycles program clock = .ok session.machine ∧
      replay program config.resetMachine clock = .ok (session.machine, session.statistics) ∧
      session.statistics.cycles = clock ∧
      recorded ≤ min clock config.session.historyLimit.toNat ∧
      session.history.toList.reverse.map Except.ok =
        (List.range recorded).map fun j =>
          replay program config.resetMachine (clock - recorded + j) := by
  intro session program clock recorded
  have hfaithful : session.Faithful config := (Faithful.start config).performAll requests
  obtain ⟨hcycles, -, hcounted⟩ := replay_eq_ok hfaithful.replayed
  refine ⟨fun firstId => ?_, hcycles, hfaithful.replayed, hcounted,
    hfaithful.length_history_le, hfaithful.history_eq⟩
  obtain ⟨first, hprogram⟩ := hfaithful.program_eq
  rw [hprogram, Assembly.withoutIds_ofText]

-- An undo in the middle, and steps that push the oldest state out.
example :
    let requests : List (Request DatedShelf) :=
      [.load "MOV R0, #1\nADD R0, R0, #1", .run 8, .undo, .step, .step]
    let session := (start { session := { historyLimit := 3 } }).performAll requests
    session.machine.clock = 9 ∧ session.statistics.retired = 1 ∧
      session.history.toList.reverse.map (·.1.clock) = [6, 7, 8] := by decide +kernel

end Session

end FiveStage
