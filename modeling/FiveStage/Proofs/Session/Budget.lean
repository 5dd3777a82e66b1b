import FiveStage.Proofs.Session.Atomicity
import FiveStage.Proofs.Session.Running
import Mathlib.Data.ENat.Lattice

namespace FiveStage.Session

-- Whether so many steps lead to a halt.
def HaltsAfter (session : Session) (n : ℕ) : Prop :=
  ∃ stepped, session.steps n = .ok stepped ∧ stepped.isHalted

-- How many steps it is to the first halt, if there is one.
noncomputable def haltingTime (session : Session) : ℕ∞ :=
  ⨅ n : {n // session.HaltsAfter n}, (n : ℕ)

section HaltingTime

variable {session next : Session} {n : ℕ}

theorem haltsAfter_zero : session.HaltsAfter 0 ↔ session.isHalted := by
  simp [HaltsAfter, steps]

theorem haltsAfter_succ (hstep : session.step = .ok next) :
    session.HaltsAfter (n + 1) ↔ next.HaltsAfter n := by
  simp only [HaltsAfter, steps, hstep, bind, Except.bind]

theorem haltingTime_eq (h : session.HaltsAfter n) (hfirst : ∀ k < n, ¬session.HaltsAfter k) :
    session.haltingTime = n := by
  apply le_antisymm
  · exact iInf_le (fun n : {n // session.HaltsAfter n} => ((n : ℕ) : ℕ∞)) ⟨n, h⟩
  · refine le_iInf fun ⟨k, hk⟩ => ?_
    exact Nat.cast_le.mpr (Nat.le_of_not_lt fun hlt => hfirst k hlt hk)

theorem lt_haltingTime (h : ∀ k ≤ n, ¬session.HaltsAfter k) : n < session.haltingTime := by
  have hle : ((n + 1 : ℕ) : ℕ∞) ≤ session.haltingTime := by
    refine le_iInf fun ⟨k, hk⟩ => ?_
    exact Nat.cast_le.mpr (Nat.lt_of_not_le fun hle => h k hle hk)
  exact lt_of_lt_of_le (Nat.cast_lt.mpr (Nat.lt_succ_self n)) hle

end HaltingTime

section Budget

variable {config : Config} {session next : Session}

theorem Faithful.exists_step (h : session.Faithful config) (hclean : session.program.isClean) :
    ∃ next, session.step = .ok next := by
  cases hstep : session.step with
  | ok next => exact ⟨next, rfl⟩
  | error fault =>
    have hdirty := ((h.step_eq_error fault).mp hstep).1
    rw [hclean] at hdirty
    contradiction

theorem isClean_of_step (hstep : session.step = .ok next) : next.program.isClean := by
  obtain ⟨hclean, machine, -, rfl⟩ := step_eq_ok.mp hstep
  exact hclean

-- A run makes steps up to the first halt, or as many as its budget allows.
theorem Faithful.exists_steps_of_run (h : session.Faithful config)
    (hclean : session.program.isClean) (budget : ℕ) :
    ∃ n ≤ budget, ∃ final, session.steps n = .ok final ∧ (∀ k < n, ¬session.HaltsAfter k) ∧
      (final.isHalted = false → n = budget) ∧
      run budget session = (.ok (if final.isHalted then .halted else .outOfCycles), final) := by
  induction budget generalizing session with
  | zero => exact ⟨0, Nat.le_refl 0, session, rfl, by simp, fun _ => rfl, rfl⟩
  | succ budget ih =>
    cases hhalted : session.isHalted with
    | true =>
      refine ⟨0, Nat.zero_le _, session, rfl, by simp, by simp [hhalted], ?_⟩
      rw [run_of_isHalted _ hhalted, if_pos hhalted]
    | false =>
      obtain ⟨next, hstep⟩ := h.exists_step hclean
      obtain ⟨n, hn, final, hsteps, hfirst, hspent, hrun⟩ :=
        ih (h.step hstep) (isClean_of_step hstep)
      refine ⟨n + 1, Nat.succ_le_succ hn, final, bind_eq_ok.mpr ⟨next, hstep, hsteps⟩,
        fun k hk => ?_, fun hrunning => by rw [hspent hrunning], ?_⟩
      · cases k with
        | zero =>
          rw [haltsAfter_zero, hhalted]
          exact Bool.false_ne_true
        | succ k =>
          rw [haltsAfter_succ hstep]
          exact hfirst k (Nat.lt_of_succ_lt_succ hk)
      · rw [run_of_step hhalted hstep, hrun]

-- What a first run leaves of the budget can be spent by a second one.
theorem Faithful.run_add (h : session.Faithful config) (hclean : session.program.isClean)
    (a b : ℕ) : run b (run a session).2 = run (a + b) session := by
  induction a generalizing session with
  | zero => rw [Nat.zero_add]; rfl
  | succ a ih =>
    cases hhalted : session.isHalted with
    | true => rw [run_of_isHalted _ hhalted, run_of_isHalted _ hhalted, run_of_isHalted _ hhalted]
    | false =>
      obtain ⟨next, hstep⟩ := h.exists_step hclean
      rw [Nat.succ_add, run_of_step hhalted hstep, run_of_step hhalted hstep]
      exact ih (h.step hstep) (isClean_of_step hstep)

end Budget

-- Whatever has been asked of a session, a run of a clean program makes as many
-- steps as it takes to the first halt and as its budget allows, whichever is
-- less, and says which. Two runs come to the same as one on both their budgets.
theorem performAll_runs {σ : Type u} [Store σ] (config : Config) (requests : List (Request σ)) :
    let session := (start config).performAll requests
    session.program.isClean →
      (∀ budget : ℕ, ∃ final,
        session.steps (min session.haltingTime budget).toNat = .ok final ∧
          run budget session =
            (.ok (if session.haltingTime ≤ budget then .halted else .outOfCycles), final)) ∧
        ∀ a b, run b (run a session).2 = run (a + b) session := by
  intro session hclean
  have hfaithful : session.Faithful config := (Faithful.start config).performAll requests
  refine ⟨fun budget => ?_, hfaithful.run_add hclean⟩
  obtain ⟨n, hn, final, hsteps, hfirst, hspent, hrun⟩ :=
    hfaithful.exists_steps_of_run hclean budget
  refine ⟨final, ?_⟩
  have hafter : session.HaltsAfter n ↔ final.isHalted := by
    simp [HaltsAfter, hsteps]
  cases hhalted : final.isHalted with
  | true =>
    have htime : session.haltingTime = n := haltingTime_eq (hafter.mpr hhalted) hfirst
    have hle : (n : ℕ∞) ≤ budget := Nat.cast_le.mpr hn
    rw [htime, min_eq_left hle, if_pos hle, hrun, hhalted]
    exact ⟨hsteps, rfl⟩
  | false =>
    obtain rfl := hspent hhalted
    have htime : n < session.haltingTime := by
      refine lt_haltingTime fun k hk => ?_
      cases Nat.lt_or_eq_of_le hk with
      | inl hlt => exact hfirst k hlt
      | inr heq => rw [heq, hafter, hhalted]; exact Bool.false_ne_true
    rw [min_eq_right htime.le, if_neg htime.not_ge, hrun, hhalted]
    exact ⟨hsteps, rfl⟩

-- Three cycles short of the end of its only instruction.
private def halfway : List (Request DatedShelf) :=
  [.load "MOV R0, #1", .run 2, .step]

theorem performAll_runs_halfway :
    let session := (start {}).performAll halfway
    session.program.isClean ∧ session.haltingTime = 3 ∧
      (run 2 session).1 = .ok .outOfCycles ∧ (run 3 session).1 = .ok .halted ∧
      run 1 (run 2 session).2 = run 3 session := by
  dsimp only
  have hclean : ((start {}).performAll halfway).program.isClean := by decide +kernel
  have hends : (run 2 ((start {}).performAll halfway)).1.toOption = some .outOfCycles ∧
      (run 3 ((start {}).performAll halfway)).1.toOption = some .halted := by decide +kernel
  have hruns := performAll_runs {} halfway hclean
  generalize (start {}).performAll halfway = session at *
  rw [toOption_eq_some, toOption_eq_some] at hends
  obtain ⟨hspent, hhalted⟩ := hends
  obtain ⟨hruns, hadd⟩ := hruns
  have hlt : ¬session.haltingTime ≤ (2 : ℕ) := by
    intro hle
    obtain ⟨final, -, hrun⟩ := hruns 2
    rw [hrun, if_pos hle] at hspent
    cases hspent
  have hle : session.haltingTime ≤ (3 : ℕ) := by
    by_contra hgt
    obtain ⟨final, -, hrun⟩ := hruns 3
    rw [hrun, if_neg hgt] at hhalted
    cases hhalted
  have htime := le_antisymm hle (Order.add_one_le_of_lt (not_le.mp hlt))
  exact ⟨hclean, htime, hspent, hhalted, hadd 2 1⟩

end FiveStage.Session
