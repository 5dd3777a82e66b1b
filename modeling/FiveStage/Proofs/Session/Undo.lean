import FiveStage.Proofs.Session.Replay
import FiveStage.Store.Shelf

namespace FiveStage.Session

-- So many steps, each of them carried out.
def steps : Nat → Session → Except SessionFault Session
  | 0, session => .ok session
  | n + 1, session => do steps n (← session.step)

-- So many undos, each of them carried out.
def undos? : Nat → Session → Option Session
  | 0, session => some session
  | n + 1, session => do (← undos? n session).undo?

section Undo

variable {session next stepped : Session}

-- A step changes the machine and the counts, and records what they were.
theorem eq_of_step (h : session.step = .ok next) :
    next = { session with
      machine := next.machine
      statistics := next.statistics
      history := session.history.push (session.machine, session.statistics) } := by
  obtain ⟨-, machine, -, rfl⟩ := step_eq_ok.mp h
  rfl

theorem undo?_of_toList {machine : Machine} {statistics : Statistics}
    {rest : List (Machine × Statistics)}
    (h : session.history.toList = (machine, statistics) :: rest) :
    ∃ history, session.undo? = some { session with machine, statistics, history } ∧
      history.toList = rest := by
  cases hpop : session.history.pop? with
  | none =>
    rw [(History.pop?_eq_none_iff _).mp hpop] at h
    contradiction
  | some popped =>
    obtain ⟨entry, history⟩ := popped
    have hlist := History.pop?_eq_some hpop
    rw [h] at hlist
    cases hlist
    exact ⟨history, by rw [undo?, hpop]; rfl, rfl⟩

theorem undo?_of_toList_eq_nil (h : session.history.toList = []) : session.undo? = none := by
  rw [undo?, (History.pop?_eq_none_iff _).mpr h]
  rfl

-- The undos take back what the steps recorded, the last one first. What the
-- history had to let go of meanwhile is lost, and nothing else is.
theorem undos?_of_steps {k : Nat} (h : session.steps k = .ok stepped)
    (hk : k ≤ session.history.limit) :
    ∃ history, stepped.undos? k = some { session with history } ∧
      history.toList = session.history.toList.take (session.history.limit - k) := by
  induction k generalizing session with
  | zero =>
    rw [← Except.ok.inj h]
    have hlength : session.history.toList.length ≤ session.history.limit := by
      rw [History.length_toList]
      exact session.history.size_le_limit
    exact ⟨session.history, rfl, (List.take_of_length_le hlength).symm⟩
  | succ k ih =>
    obtain ⟨next, hstep, hrest⟩ := bind_eq_ok.mp h
    have hnext := eq_of_step hstep
    have hhistory : next.history = session.history.push (session.machine, session.statistics) := by
      rw [hnext]
    have hlimit : next.history.limit = session.history.limit := by
      rw [hhistory, History.limit_push]
    obtain ⟨recorded, hundos, hrecorded⟩ := ih hrest (by omega)
    let undone : Session := { next with history := recorded }
    have htop : undone.history.toList = (session.machine, session.statistics) ::
        session.history.toList.take (session.history.limit - (k + 1)) := by
      have hroom : session.history.limit - k = session.history.limit - (k + 1) + 1 := by omega
      rw [hrecorded, hlimit, hhistory, History.toList_push, List.take_take,
        Nat.min_eq_left (Nat.sub_le ..), hroom, List.take_succ_cons]
    obtain ⟨history, hundo, hkept⟩ := undo?_of_toList htop
    refine ⟨history, ?_, hkept⟩
    have hback : { undone with
        machine := session.machine, statistics := session.statistics, history } =
        { session with history } := by
      simp only [undone]
      rw [hnext]
    rw [undos?, hundos, ← hback, ← hundo]
    rfl

end Undo

-- Whatever has been asked of a session, as many undos as steps bring all of it
-- back, up to the history limit. Only the oldest entries of the history may be
-- gone. With nothing in the history an undo does nothing.
theorem performAll_undoes {σ : Type u} [Store σ] (config : Config)
    (requests : List (Request σ)) :
    let session := (start config).performAll requests
    let limit := config.session.historyLimit.toNat
    (∀ k ≤ limit, ∀ stepped, session.steps k = .ok stepped →
      ∃ history, stepped.undos? k = some { session with history } ∧
        history.toList = session.history.toList.take (limit - k) ∧
        history.toList.length = min session.history.toList.length (limit - k)) ∧
      (session.history.toList = [] →
        session.undo? = none ∧ session.perform (.undo : Request σ) = session) := by
  intro session limit
  have hfaithful : session.Faithful config := (Faithful.start config).performAll requests
  refine ⟨fun k hk stepped hsteps => ?_, fun hempty => ?_⟩
  · have hlimit : session.history.limit = limit := hfaithful.limit_eq
    obtain ⟨history, hundos, hkept⟩ := undos?_of_steps hsteps (by rw [hlimit]; exact hk)
    rw [hlimit] at hkept
    refine ⟨history, hundos, hkept, ?_⟩
    rw [hkept, List.length_take, Nat.min_comm]
  · have hundo : session.undo? = none := undo?_of_toList_eq_nil hempty
    refine ⟨hundo, ?_⟩
    rw [perform, hundo]
    rfl

-- A history of three entries, and a branch that has resolved and not retired.
private def shortSighted : Config := { session := { historyLimit := 3 } }

private def resolved : List (Request DatedShelf) :=
  [.load "again: MOV R0, #1\n B again", .run 10]

theorem performAll_undoes_resolved :
    let session := (start shortSighted).performAll resolved
    session.history.toList.length = 3 ∧ session.statistics.branches = 0 ∧
      ∃ stepped history, session.steps 2 = .ok stepped ∧ stepped.statistics.branches = 1 ∧
        stepped.undos? 2 = some { session with history } ∧ history.toList.length = 1 := by
  intro session
  have hrecorded : session.history.toList.length = 3 := by decide +kernel
  have hretired : (session.steps 2).toOption.map (fun stepped => stepped.statistics.branches) =
      some 1 := by decide +kernel
  obtain ⟨stepped, hstepped, hbranches⟩ := Option.map_eq_some_iff.mp hretired
  have hsteps := toOption_eq_some.mp hstepped
  obtain ⟨hundoes, -⟩ := performAll_undoes shortSighted resolved
  obtain ⟨history, hundos, -, hlength⟩ := hundoes 2 (by decide) stepped hsteps
  rw [hrecorded] at hlength
  exact ⟨hrecorded, by decide +kernel, stepped, history, hsteps, hbranches, hundos, hlength⟩

end FiveStage.Session
