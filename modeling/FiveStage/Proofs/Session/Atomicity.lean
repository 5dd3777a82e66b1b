import FiveStage.Proofs.Session.Refusal
import FiveStage.Proofs.Session.Safety
import FiveStage.Proofs.Session.Undo
import FiveStage.Store.Failing

namespace FiveStage.Session

section Failures

-- Where the operations of a session can fail.
variable {σ : Type u} [Store σ] {session : Session} {store : σ} {title : String} {id : Nat}
  {fault : SessionFault} {reason : StoreFault}

theorem deleteSaved_eq_error :
    (session.deleteSaved store id).1 = .error fault ↔
      ∃ reason, (Store.delete store id).1 = .error reason ∧ fault = .store reason := by
  unfold deleteSaved
  obtain ⟨outcome, after⟩ := Store.delete store id
  cases outcome <;> simp [eq_comm]

theorem deleteSaved_of_error (h : (session.deleteSaved store id).1 = .error fault) :
    (session.deleteSaved store id).2.1 = session := by
  obtain ⟨reason, hdelete, -⟩ := deleteSaved_eq_error.mp h
  unfold deleteSaved
  generalize Store.delete store id = answer at hdelete
  obtain ⟨outcome, after⟩ := answer
  cases hdelete
  rfl

theorem saveNew_eq_error :
    (session.saveNew store title).1 = .error fault ↔
      ∃ reason, (Store.save store title session.source).1 = .error reason ∧
        fault = .store reason := by
  unfold saveNew
  obtain ⟨outcome, after⟩ := Store.save store title session.source
  cases outcome <;> simp [eq_comm]

theorem saveNew_of_error (h : (session.saveNew store title).1 = .error fault) :
    (session.saveNew store title).2.1 = session := by
  obtain ⟨reason, hsave, -⟩ := saveNew_eq_error.mp h
  unfold saveNew
  generalize Store.save store title session.source = answer at hsave
  obtain ⟨outcome, after⟩ := answer
  cases hsave
  rfl

-- The text as a change to the program that it belongs to.
def rewriting (session : Session) (title : String) : ProgramEdit where
  title := some title
  source := some session.source

-- Whether the store no longer knows the program that the text belongs to.
def FindsGone (session : Session) (store : σ) (title : String) : Prop :=
  ∃ id other, session.programId = some id ∧
    (Store.update store id (session.rewriting title)).1 = .error (.notFound other)

-- The answers of the store that make a save fail, with what it leaves the text
-- belonging to.
inductive SaveFails (session : Session) (store : σ) (title : String) :
    StoreFault → Option Nat → Prop
  | unsaved {reason : StoreFault} (hid : session.programId = none)
      (hsave : (Store.save store title session.source).1 = .error reason) :
      SaveFails session store title reason none
  | notUpdated {id : Nat} {message : String} (hid : session.programId = some id)
      (hupdate : (Store.update store id (session.rewriting title)).1 = .error (.backend message)) :
      SaveFails session store title (.backend message) (some id)
  | gone {id other : Nat} {reason : StoreFault} (hid : session.programId = some id)
      (hupdate : (Store.update store id (session.rewriting title)).1 = .error (.notFound other))
      (hsave : (Store.save (Store.update store id (session.rewriting title)).2 title
        session.source).1 = .error reason) :
      SaveFails session store title reason none

theorem save_of_none (hid : session.programId = none) :
    session.save store title = session.saveNew store title := by
  rw [save, hid]

theorem save_of_some (hid : session.programId = some id) :
    session.save store title =
      match Store.update store id (session.rewriting title) with
      | (.ok (), store) => (.ok id, session, store)
      | (.error (.notFound _), store) => saveNew { session with programId := none } store title
      | (.error fault, store) => (.error (.store fault), session, store) := by
  rw [save, hid]
  rfl

theorem saveFails_of_save (h : (session.save store title).1 = .error fault) :
    ∃ reason kept, fault = .store reason ∧ session.SaveFails store title reason kept ∧
      (session.save store title).2.1 = { session with programId := kept } := by
  cases hid : session.programId with
  | none =>
    rw [save_of_none hid] at h ⊢
    obtain ⟨reason, hsave, hfault⟩ := saveNew_eq_error.mp h
    refine ⟨reason, none, hfault, .unsaved hid hsave, ?_⟩
    rw [saveNew_of_error h, ← hid]
  | some id =>
    rw [save_of_some hid] at h ⊢
    cases hanswer : Store.update store id (session.rewriting title) with
    | mk outcome after =>
      have hupdate := congrArg Prod.fst hanswer
      rw [hanswer] at h
      cases outcome with
      | ok => contradiction
      | error answered =>
        cases answered with
        | notFound other =>
          obtain ⟨reason, hsave, hfault⟩ := saveNew_eq_error.mp h
          refine ⟨reason, none, hfault, .gone hid hupdate ?_, saveNew_of_error h⟩
          rw [hanswer]
          exact hsave
        | backend message =>
          refine ⟨.backend message, some id, (Except.error.inj h).symm, .notUpdated hid hupdate, ?_⟩
          rw [← hid]

theorem save_of_saveFails {kept : Option Nat} (h : session.SaveFails store title reason kept) :
    (session.save store title).1 = .error (.store reason) := by
  cases h with
  | unsaved hid hsave =>
    rw [save_of_none hid]
    exact saveNew_eq_error.mpr ⟨reason, hsave, rfl⟩
  | @notUpdated id message hid hupdate =>
    rw [save_of_some hid]
    generalize Store.update store id (session.rewriting title) = answer at hupdate
    obtain ⟨outcome, after⟩ := answer
    cases hupdate
    rfl
  | @gone id other _ hid hupdate hsave =>
    rw [save_of_some hid]
    generalize Store.update store id (session.rewriting title) = answer at hupdate hsave
    obtain ⟨outcome, after⟩ := answer
    cases hupdate
    exact saveNew_eq_error.mpr ⟨reason, hsave, rfl⟩

-- Only a save that finds the program gone has done something by the time it fails.
theorem programId_of_saveFails {kept : Option Nat}
    (h : session.SaveFails store title reason kept) :
    (session.FindsGone store title → kept = none) ∧
      (¬session.FindsGone store title → kept = session.programId) := by
  cases h with
  | unsaved hid => exact ⟨fun _ => rfl, fun _ => hid.symm⟩
  | notUpdated hid hupdate =>
    refine ⟨fun ⟨id, other, hknown, hgone⟩ => ?_, fun _ => hid.symm⟩
    obtain rfl := Option.some.inj (hid.symm.trans hknown)
    rw [hupdate] at hgone
    cases hgone
  | gone hid hupdate => exact ⟨fun _ => rfl, fun hfound => absurd ⟨_, _, hid, hupdate⟩ hfound⟩

-- A run that fails has made the steps before the one that did.
theorem exists_steps_of_run {budget : Nat} (h : (run budget session).1 = .error fault) :
    ∃ n < budget, ∃ stepped, session.steps n = .ok stepped ∧ stepped.step = .error fault ∧
      (run budget session).2 = stepped := by
  induction budget generalizing session with
  | zero => contradiction
  | succ budget ih =>
    cases hhalted : session.isHalted with
    | true =>
      rw [run_of_isHalted _ hhalted] at h
      contradiction
    | false =>
      cases hstep : session.step with
      | ok next =>
        rw [run_of_step hhalted hstep] at h ⊢
        obtain ⟨n, hn, stepped, hsteps, hfails, hleft⟩ := ih h
        exact ⟨n + 1, Nat.succ_lt_succ hn, stepped, bind_eq_ok.mpr ⟨next, hstep, hsteps⟩, hfails,
          hleft⟩
      | error other =>
        rw [run_of_step_error hhalted hstep] at h ⊢
        cases h
        exact ⟨0, Nat.zero_lt_succ _, session, rfl, hstep, rfl⟩

end Failures

-- What each operation fails for, and what is left of the session then.
structure Atomic (σ : Type u) [Store σ] (session : Session) : Prop where
  step_fails : ∀ fault, session.step = .error fault ↔
    session.program.isClean = false ∧
      fault = .programHasErrors session.program.diagnostics.length
  step_kept : ∀ fault, session.step = .error fault →
    session.perform (.step : Request σ) = session
  open_fails : ∀ (store : σ) id fault, session.openSaved store id = .error fault ↔
    ∃ reason, Store.get store id = .error reason ∧ fault = .store reason
  open_kept : ∀ (store : σ) id fault, session.openSaved store id = .error fault →
    session.perform (.openSaved store id) = session
  delete_fails : ∀ (store : σ) id fault, (session.deleteSaved store id).1 = .error fault ↔
    ∃ reason, (Store.delete store id).1 = .error reason ∧ fault = .store reason
  delete_kept : ∀ (store : σ) id fault, (session.deleteSaved store id).1 = .error fault →
    session.perform (.deleteSaved store id) = session
  save_fails : ∀ (store : σ) title fault, (session.save store title).1 = .error fault ↔
    ∃ reason kept, fault = .store reason ∧ session.SaveFails store title reason kept
  save_kept : ∀ (store : σ) title fault, (session.save store title).1 = .error fault →
    ¬session.FindsGone store title → session.perform (.save store title) = session
  save_forgets : ∀ (store : σ) title fault, (session.save store title).1 = .error fault →
    session.FindsGone store title →
      session.perform (.save store title) = { session with programId := none }
  run_kept : ∀ budget fault, (run budget session).1 = .error fault →
    ∃ n < budget, ∃ stepped, session.steps n = .ok stepped ∧ stepped.step = .error fault ∧
      session.perform (.run budget : Request σ) = stepped

theorem Faithful.step_eq_error {config : Config} {session : Session} (h : session.Faithful config)
    (fault : SessionFault) :
    session.step = .error fault ↔ session.program.isClean = false ∧
      fault = .programHasErrors session.program.diagnostics.length := by
  constructor
  · intro hstep
    obtain hrefused | ⟨reason, -, -, rfl⟩ := Session.step_eq_error.mp hstep
    · exact hrefused
    · exact absurd hstep (h.step_ne_decode reason)
  · rintro ⟨herrors, rfl⟩
    exact step_of_not_isClean herrors

-- Whatever has been asked of a session before, and whatever the store answers,
-- what fails leaves the session alone. A save may notice that the program is
-- gone before it fails, and a run keeps the steps that it has made.
theorem performAll_atomic {σ : Type u} [Store σ] (config : Config)
    (requests : List (Request σ)) : ((start config).performAll requests).Atomic σ := by
  have hfaithful : ((start config).performAll requests).Faithful config :=
    (Faithful.start config).performAll requests
  generalize (start config).performAll requests = session at hfaithful
  refine {
    step_fails := hfaithful.step_eq_error
    step_kept := fun fault hstep => ?step
    open_fails := fun store id fault => openSaved_eq_error
    open_kept := fun store id fault hopen => ?opened
    delete_fails := fun store id fault => deleteSaved_eq_error
    delete_kept := fun store id fault hdelete => deleteSaved_of_error hdelete
    save_fails := fun store title fault => ⟨fun hsave => ?failing, fun hfails => ?fails⟩
    save_kept := fun store title fault hsave hfound => ?kept
    save_forgets := fun store title fault hsave hgone => ?forgotten
    run_kept := fun budget fault hrun => exists_steps_of_run hrun }
  case step => rw [perform, tryStep_of_step_error hstep]
  case opened => rw [perform, tryOpen_of_openSaved_error hopen]
  case failing =>
    obtain ⟨reason, kept, hfault, hfails, -⟩ := saveFails_of_save hsave
    exact ⟨reason, kept, hfault, hfails⟩
  case fails =>
    obtain ⟨reason, kept, rfl, hfails⟩ := hfails
    exact save_of_saveFails hfails
  case kept =>
    obtain ⟨reason, kept, -, hfails, hleft⟩ := saveFails_of_save hsave
    rw [perform, hleft, (programId_of_saveFails hfails).2 hfound]
  case forgotten =>
    obtain ⟨reason, kept, -, hfails, hleft⟩ := saveFails_of_save hsave
    rw [perform, hleft, (programId_of_saveFails hfails).1 hgone]

-- The program is gone and there is no room for another one.
private def full : FailingStore DatedShelf where
  store := { shelf := .empty }
  failure := some ("full", [.save])

private def stored : List (Request (FailingStore DatedShelf)) :=
  [.load "MOV R0, #1", .run 3, .save { store := { shelf := .empty } } "mine"]

theorem performAll_atomic_full :
    let session := (start {}).performAll stored
    session.programId = some 1 ∧ session.machine.clock = 3 ∧
      (session.save full "mine").1 = .error (.store (.backend "full")) ∧
      session.perform (.save full "mine") = { session with programId := none } := by
  intro session
  have hid : session.programId = some 1 := by decide +kernel
  have hatomic : session.Atomic (FailingStore DatedShelf) := performAll_atomic {} stored
  have hupdate : (Store.update full 1 (session.rewriting "mine")).1 = .error (.notFound 1) := rfl
  have hfails := (hatomic.save_fails full "mine" _).mpr
    ⟨.backend "full", none, rfl, .gone hid hupdate rfl⟩
  have hleft := hatomic.save_forgets full "mine" _ hfails ⟨1, 1, hid, hupdate⟩
  exact ⟨hid, by decide +kernel, hfails, hleft⟩

end FiveStage.Session
