import FiveStage.Proofs.Session.Undo
import FiveStage.Proofs.Store.Shelf
import FiveStage.Session.Sharing

namespace FiveStage

namespace Session

section Store

variable {session : Session} {store : DatedShelf} {title : String}

-- A save over the program that the text belongs to.
theorem save_of_held {id : Nat} {old : Program} (hid : session.programId = some id)
    (hold : store.shelf.find? id = some old) :
    session.save store title = (.ok id, session, { store with
      shelf := store.shelf.modify id { title := some title, source := some session.source }
        store.now }) := by
  unfold save
  simp only [hid, DatedShelf.update_eq, hold]

-- A save of a text that belongs to no program, or to one that is gone.
theorem save_of_not_held
    (h : ∀ id, session.programId = some id → store.shelf.find? id = none) :
    session.save store title =
      (.ok (store.shelf.lastId + 1), { session with programId := some (store.shelf.lastId + 1) },
        { store with shelf := (store.shelf.save store.now title session.source).2 }) := by
  unfold save
  cases hid : session.programId with
  | none => rfl
  | some id =>
    simp only [DatedShelf.update_eq, h id hid]
    rfl

theorem held_or_not_held (session : Session) (store : DatedShelf) :
    (∃ id old, session.programId = some id ∧ store.shelf.find? id = some old) ∨
      ∀ id, session.programId = some id → store.shelf.find? id = none := by
  cases hid : session.programId with
  | none => exact .inr fun id h => by contradiction
  | some id =>
    cases hfound : store.shelf.find? id with
    | none => exact .inr fun other h => Option.some.inj h ▸ hfound
    | some old => exact .inl ⟨id, old, rfl, hfound⟩

theorem deleteSaved_eq (session : Session) (store : DatedShelf) (id : Nat) :
    session.deleteSaved store id =
      match store.shelf.find? id with
      | some _ => (.ok (), { session with programId := session.programId.filter (· ≠ id) },
          { store with shelf := store.shelf.erase id })
      | none => (.error (.store (.notFound id)), session, store) := by
  unfold deleteSaved
  rw [DatedShelf.delete_eq]
  cases store.shelf.find? id <;> rfl

end Store

section ProgramId

-- Steps and undos leave alone which saved program the text belongs to.
variable (session : Session)

theorem programId_step : session.tryStep.2.programId = session.programId := by
  cases hstep : session.step with
  | error fault => rw [tryStep_of_step_error hstep]
  | ok next => rw [tryStep_of_step hstep, eq_of_step hstep]

theorem programId_run (budget : Nat) :
    (run budget session).2.programId = session.programId :=
  run_induction (P := fun left => left.programId = session.programId)
    (fun h _ hstep => by rw [eq_of_step hstep, h]) rfl budget

theorem programId_undo : (session.undo?.getD session).programId = session.programId := by
  cases hpop : session.history.pop? <;> simp [undo?, hpop]

end ProgramId

end Session

namespace Sharing

variable {config : Config} {sharing : Sharing}

-- Ids are never given back.
theorem lastId_le_turn (sharing : Sharing) (next : Turn) :
    sharing.store.shelf.lastId ≤ (sharing.turn next).store.shelf.lastId := by
  cases next with
  | own request =>
    cases request with
    | save store title =>
      cases sharing.session.held_or_not_held sharing.store with
      | inl hheld =>
        obtain ⟨id, old, hid, hold⟩ := hheld
        rw [turn, storeAfter, Session.save_of_held hid hold]
        exact Nat.le_refl _
      | inr hgone =>
        rw [turn, storeAfter, Session.save_of_not_held hgone]
        exact Nat.le_succ _
    | deleteSaved store id =>
      rw [turn, storeAfter, Session.deleteSaved_eq]
      cases sharing.store.shelf.find? id <;> exact Nat.le_refl _
    | load | reset | step | run | undo | openSaved => exact Nat.le_refl _
  | save title source => exact Nat.le_succ _
  | update id edit =>
    rw [turn, DatedShelf.update_eq]
    cases sharing.store.shelf.find? id <;> exact Nat.le_refl _
  | delete id =>
    rw [turn, DatedShelf.delete_eq]
    cases sharing.store.shelf.find? id <;> exact Nat.le_refl _
  | clock now => exact Nat.le_refl _

-- Whatever the session remembers has been given out.
structure Sound (config : Config) (sharing : Sharing) : Prop where
  faithful : sharing.session.Faithful config
  remembered : ∀ id, sharing.session.programId = some id → id ≤ sharing.store.shelf.lastId

namespace Sound

theorem start (config : Config) (store : DatedShelf) :
    (Sharing.start config store).Sound config where
  faithful := .start config
  remembered id h := by contradiction

-- After a request the session remembers what it did, or what it has just
-- found on the shelf or put there.
theorem remembered_own (h : sharing.Sound config) (request : Session.Request Unit) (id : Nat)
    (hid : (sharing.turn (.own request)).session.programId = some id) :
    id ≤ (sharing.turn (.own request)).store.shelf.lastId := by
  have hbefore := h.remembered id
  have hlater := sharing.lastId_le_turn (.own request)
  cases request with
  | load text => exact hbefore hid
  | reset => exact hbefore hid
  | step => exact hbefore (sharing.session.programId_step ▸ hid)
  | run budget => exact hbefore (sharing.session.programId_run budget ▸ hid)
  | undo => exact hbefore (sharing.session.programId_undo ▸ hid)
  | save store title =>
    cases sharing.session.held_or_not_held sharing.store with
    | inl hheld =>
      obtain ⟨known, old, hknown, hold⟩ := hheld
      have hsame : (sharing.turn (.own (.save store title))).session = sharing.session := by
        rw [Sharing.turn, Session.Request.map, Session.perform, Session.save_of_held hknown hold]
      rw [hsame] at hid
      exact Nat.le_trans (hbefore hid) hlater
    | inr hgone =>
      rw [Sharing.turn, Session.Request.map, Session.perform,
        Session.save_of_not_held hgone] at hid
      rw [Sharing.turn, storeAfter, Session.save_of_not_held hgone]
      exact Nat.le_of_eq (Option.some.inj hid).symm
  | openSaved store wanted =>
    rw [Sharing.turn, Session.Request.map, Session.perform] at hid
    cases hopen : sharing.session.openSaved sharing.store wanted with
    | error fault =>
      rw [Session.tryOpen_of_openSaved_error hopen] at hid
      exact hbefore hid
    | ok opened =>
      obtain ⟨program, hget, rfl⟩ := Session.openSaved_eq_ok.mp hopen
      rw [Session.settled_eq_ok.mp hopen] at hid
      have hfound := (DatedShelf.get_eq_ok_iff ..).mp hget
      have hwanted : wanted = id := Option.some.inj hid
      apply Nat.not_lt.mp
      intro hlarge
      rw [sharing.store.shelf.find?_eq_none_of_lastId_lt (hwanted ▸ hlarge)] at hfound
      contradiction
  | deleteSaved store gone =>
    have hkept : (sharing.turn (.own (.deleteSaved store gone))).session.programId = some id →
        sharing.session.programId = some id := by
      rw [Sharing.turn, Session.Request.map, Session.perform, Session.deleteSaved_eq]
      cases sharing.store.shelf.find? gone with
      | none => exact fun h => h
      | some program => exact fun h => (Option.filter_eq_some_iff.mp h).1
    exact Nat.le_trans (hbefore (hkept hid)) hlater

theorem turn (h : sharing.Sound config) (next : Turn) : (sharing.turn next).Sound config := by
  have hlater := sharing.lastId_le_turn next
  cases next with
  | own request =>
    exact ⟨(Session.Faithful.invariant config).perform h.faithful _, h.remembered_own request⟩
  | save | update | delete | clock =>
    exact ⟨h.faithful, fun id hid => Nat.le_trans (h.remembered id hid) hlater⟩

theorem turns (h : sharing.Sound config) (taken : List Turn) :
    (sharing.turns taken).Sound config := by
  induction taken generalizing sharing with
  | nil => exact h
  | cons next rest ih => exact ih (h.turn next)

end Sound

theorem lastId_le_turns (sharing : Sharing) (taken : List Turn) :
    sharing.store.shelf.lastId ≤ (sharing.turns taken).store.shelf.lastId := by
  induction taken generalizing sharing with
  | nil => exact Nat.le_refl _
  | cons next rest ih => exact Nat.le_trans (sharing.lastId_le_turn next) (ih _)

-- What the shelf holds once the session's text is saved under an id.
structure SavedAs (sharing : Sharing) (title : String) (id : Nat) (saved : DatedShelf)
    (program : Program) : Prop where
  found : Store.get saved id = .ok program
  title_eq : program.title = title
  source_eq : program.source = sharing.session.source
  others : ∀ other, other ≠ id → Store.get saved other = Store.get sharing.store other
  -- a program is added if the text belonged to none, or to one that is gone
  added : saved.shelf.size = sharing.store.shelf.size + 1 ↔
    ∀ known, sharing.session.programId = some known →
      Store.get sharing.store known = .error (.notFound known)
  -- else it is saved over the program that it belonged to
  kept : ∀ known old, sharing.session.programId = some known →
    Store.get sharing.store known = .ok old →
      id = known ∧ program.createdAt = old.createdAt ∧ saved.shelf.size = sharing.store.shelf.size

section SavedAs

variable (title : String)

theorem savedAs_of_held {id : Nat} {old : Program} (hid : sharing.session.programId = some id)
    (hold : sharing.store.shelf.find? id = some old) :
    ∃ saved program, sharing.session.save sharing.store title = (.ok id, sharing.session, saved) ∧
      sharing.SavedAs title id saved program := by
  let edit : ProgramEdit := { title := some title, source := some sharing.session.source }
  let saved : DatedShelf :=
    { sharing.store with shelf := sharing.store.shelf.modify id edit sharing.store.now }
  have hsize : saved.shelf.size = sharing.store.shelf.size := Shelf.size_modify ..
  refine ⟨saved, Shelf.edited old edit sharing.store.now, Session.save_of_held hid hold, ?_⟩
  constructor
  case found =>
    apply (DatedShelf.get_eq_ok_iff ..).mpr
    rw [Shelf.find?_modify, if_pos rfl, hold]
    rfl
  case title_eq => rfl
  case source_eq => rfl
  case others =>
    intro other hother
    apply DatedShelf.get_congr
    rw [Shelf.find?_modify, if_neg hother]
  case added =>
    constructor
    · intro hadded
      omega
    · intro hgone
      have hnone := (DatedShelf.get_eq_notFound_iff ..).mp (hgone id hid)
      rw [hold] at hnone
      contradiction
  case kept =>
    intro known other hknown hother
    obtain rfl : id = known := Option.some.inj (hid.symm.trans hknown)
    have hsame := (DatedShelf.get_eq_ok_iff ..).mp hother
    rw [hold] at hsame
    cases hsame
    exact ⟨rfl, rfl, hsize⟩

theorem savedAs_of_not_held
    (h : ∀ id, sharing.session.programId = some id → sharing.store.shelf.find? id = none) :
    ∃ saved program, sharing.session.save sharing.store title =
        (.ok (sharing.store.shelf.lastId + 1),
          { sharing.session with programId := some (sharing.store.shelf.lastId + 1) }, saved) ∧
      sharing.SavedAs title (sharing.store.shelf.lastId + 1) saved program := by
  let saved : DatedShelf :=
    { sharing.store with
      shelf := (sharing.store.shelf.save sharing.store.now title sharing.session.source).2 }
  refine ⟨saved, ⟨sharing.store.shelf.lastId + 1, title, sharing.session.source,
    sharing.store.now, sharing.store.now⟩, Session.save_of_not_held h, ?_⟩
  constructor
  case found =>
    apply (DatedShelf.get_eq_ok_iff ..).mpr
    rw [Shelf.find?_save, if_pos rfl]
  case title_eq => rfl
  case source_eq => rfl
  case others =>
    intro other hother
    apply DatedShelf.get_congr
    rw [Shelf.find?_save, if_neg hother]
  case added =>
    constructor
    · intro _ known hknown
      exact (DatedShelf.get_eq_notFound_iff ..).mpr (h known hknown)
    · intro _
      exact Shelf.size_save ..
  case kept =>
    intro known old hknown hold
    have hfound := (DatedShelf.get_eq_ok_iff ..).mp hold
    rw [h known hknown] at hfound
    contradiction

end SavedAs

theorem turns_append (sharing : Sharing) (earlier later : List Turn) :
    sharing.turns (earlier ++ later) = (sharing.turns earlier).turns later :=
  List.foldl_append

-- The id that would be given out next has been nowhere before.
theorem next_id_fresh (config : Config) (store : DatedShelf) {earlier taken : List Turn}
    (h : earlier <+: taken) :
    let id := ((start config store).turns taken).store.shelf.lastId + 1
    Store.get ((start config store).turns earlier).store id = .error (.notFound id) ∧
      ((start config store).turns earlier).session.programId ≠ some id := by
  intro id
  obtain ⟨later, rfl⟩ := h
  have hle := ((start config store).turns earlier).lastId_le_turns later
  rw [← turns_append] at hle
  constructor
  · apply (DatedShelf.get_eq_notFound_iff ..).mpr
    exact Shelf.find?_eq_none_of_lastId_lt _ (Nat.lt_succ_of_le hle)
  · intro hremembered
    have hgiven := ((Sound.start config store).turns earlier).remembered id hremembered
    omega

-- Whoever opens a saved text has what its session has, before any step.
theorem exists_openSaved {store : DatedShelf} {id : Nat} {program : Program}
    (h : sharing.session.Faithful config) (hget : Store.get store id = .ok program)
    (hsource : program.source = sharing.session.source) {reader : Session}
    (hreader : reader.config = config) :
    ∃ opened, reader.openSaved store id = .ok opened ∧
      opened.source = sharing.session.source ∧
      opened.program.withoutIds = sharing.session.program.withoutIds ∧
      opened.machine = config.resetMachine ∧ opened.history.toList = [] ∧
      opened.statistics = {} := by
  obtain ⟨firstId, hprogram⟩ := h.program_eq
  refine ⟨_, Session.openSaved_eq_ok.mpr ⟨program, hget, rfl⟩, hsource, ?_, ?_, ?_, rfl⟩
  · rw [hprogram, ← hsource, ← hreader]
    exact Assembly.withoutIds_ofText ..
  · exact congrArg Config.resetMachine hreader
  · simp [Session.load, Session.reset]

-- A save always succeeds and loses nothing, whatever the session and others
-- have done before. A new program gets an id that nobody has ever seen.
theorem save_after_turns (config : Config) (store : DatedShelf) (taken : List Turn)
    (title : String) :
    let sharing := (start config store).turns taken
    ∃ id saved program,
      sharing.session.save sharing.store title =
          (.ok id, { sharing.session with programId := some id }, saved) ∧
        sharing.SavedAs title id saved program ∧
        (saved.shelf.size = sharing.store.shelf.size + 1 → ∀ earlier, earlier <+: taken →
          Store.get ((start config store).turns earlier).store id = .error (.notFound id) ∧
            ((start config store).turns earlier).session.programId ≠ some id) ∧
        ∀ reader : Session, reader.config = config →
          ∃ opened, reader.openSaved saved id = .ok opened ∧
            opened.source = sharing.session.source ∧
            opened.program.withoutIds = sharing.session.program.withoutIds ∧
            opened.machine = config.resetMachine ∧ opened.history.toList = [] ∧
            opened.statistics = {} := by
  intro sharing
  have hsound : sharing.Sound config := (Sound.start config store).turns taken
  cases sharing.session.held_or_not_held sharing.store with
  | inl hheld =>
    obtain ⟨id, old, hid, hold⟩ := hheld
    obtain ⟨saved, program, hsave, hsaved⟩ := savedAs_of_held title hid hold
    have hsame : { sharing.session with programId := some id } = sharing.session := by rw [← hid]
    refine ⟨id, saved, program, ?_, hsaved, fun hadded => ?_, fun reader hreader => ?_⟩
    · rw [hsame]
      exact hsave
    · have hgone := hsaved.added.mp hadded id hid
      have hnone := (DatedShelf.get_eq_notFound_iff ..).mp hgone
      rw [hold] at hnone
      contradiction
    · exact exists_openSaved hsound.faithful hsaved.found hsaved.source_eq hreader
  | inr hgone =>
    obtain ⟨saved, program, hsave, hsaved⟩ := savedAs_of_not_held title hgone
    refine ⟨_, saved, program, hsave, hsaved, fun _ earlier hearlier => ?_,
      fun reader hreader => ?_⟩
    · exact next_id_fresh config store hearlier
    · exact exists_openSaved hsound.faithful hsaved.found hsaved.source_eq hreader

-- Text whose program somebody else has deleted does not end up in the one
-- that was saved since.
example :
    let sharing := (start {} {}).turns
      [.own (.load "MOV R0, #1"), .own (.save () "mine"), .delete 1, .save "theirs" ""]
    sharing.session.programId = some 1 ∧
      (sharing.session.save sharing.store "mine").1.toOption = some 3 := by decide +kernel

end Sharing

end FiveStage
