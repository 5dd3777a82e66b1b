import FiveStage.Proofs.Store.Shelf
import FiveStage.Store.Ledger

namespace FiveStage

namespace LedgerEntry

-- Whatever gives out an id sets something of the program that it belongs to.
theorem saved?_ne_of_edit? {entry : LedgerEntry} {id : Nat} (h : entry.edit? id = none) :
    entry.saved? ≠ some id := by
  intro hsaved
  unfold saved? at hsaved
  split at hsaved
  · next now title source given =>
    rw [Option.some.inj hsaved, edit?, if_pos rfl] at h
    contradiction
  · contradiction

end LedgerEntry

namespace Ledger

variable {ledger : Ledger} {program other : Program} {entry : LedgerEntry} {store : DatedShelf}

-- What the entries tell of a program: what was set last of each of its parts,
-- and when it was saved and set last.
structure Told (ledger : Ledger) (program : Program) : Prop where
  title_eq : ledger.entries.findSome? (·.title? program.id) = some program.title
  source_eq : ledger.entries.findSome? (·.source? program.id) = some program.source
  createdAt_eq : ledger.entries.findSome? (·.createdAt? program.id) = some program.createdAt
  updatedAt_eq : ledger.entries.findSome? (·.updatedAt? program.id) = some program.updatedAt

theorem Told.eq_of_id_eq (h : ledger.Told program) (hother : ledger.Told other)
    (hid : program.id = other.id) : program = other := by
  obtain ⟨htitle, hsource, hcreated, hupdated⟩ := h
  rw [hid] at htitle hsource hcreated hupdated
  have htitles := Option.some.inj (htitle.symm.trans hother.title_eq)
  have hsources := Option.some.inj (hsource.symm.trans hother.source_eq)
  have hcreations := Option.some.inj (hcreated.symm.trans hother.createdAt_eq)
  have hupdates := Option.some.inj (hupdated.symm.trans hother.updatedAt_eq)
  cases program
  cases other
  simp_all

theorem Told.of_silent (h : ledger.Told program) (hsilent : entry.edit? program.id = none) :
    Told ⟨store, entry :: ledger.entries⟩ program := by
  have hcreated : entry.createdAt? program.id = none :=
    if_neg (LedgerEntry.saved?_ne_of_edit? hsilent)
  constructor
  case createdAt_eq => rw [List.findSome?_cons, hcreated, h.createdAt_eq]
  case title_eq =>
    rw [List.findSome?_cons, LedgerEntry.title?, hsilent]
    exact h.title_eq
  case source_eq =>
    rw [List.findSome?_cons, LedgerEntry.source?, hsilent]
    exact h.source_eq
  case updatedAt_eq =>
    rw [List.findSome?_cons, LedgerEntry.updatedAt?, hsilent]
    exact h.updatedAt_eq

theorem Told.edited {edit : ProgramEdit} (h : ledger.Told program)
    (hedit : entry.edit? program.id = some edit) (hsaved : entry.saved? ≠ some program.id) :
    Told ⟨store, entry :: ledger.entries⟩ (Shelf.edited program edit entry.now) where
  title_eq := by
    rw [List.findSome?_cons, LedgerEntry.title?, Shelf.edited, hedit, Option.bind_some]
    cases edit.title with
    | none => exact h.title_eq
    | some title => rfl
  source_eq := by
    rw [List.findSome?_cons, LedgerEntry.source?, Shelf.edited, hedit, Option.bind_some]
    cases edit.source with
    | none => exact h.source_eq
    | some source => rfl
  createdAt_eq := by
    rw [List.findSome?_cons, LedgerEntry.createdAt?, Shelf.edited, if_neg hsaved]
    exact h.createdAt_eq
  updatedAt_eq := by
    rw [List.findSome?_cons, LedgerEntry.updatedAt?, Shelf.edited, hedit]
    rfl

theorem told_of_saved (now id : Nat) (title source : String) :
    Told ⟨store, ⟨now, .save title source, .saved id⟩ :: ledger.entries⟩
      ⟨id, title, source, now, now⟩ := by
  constructor <;>
    simp [LedgerEntry.title?, LedgerEntry.source?, LedgerEntry.createdAt?, LedgerEntry.updatedAt?,
      LedgerEntry.edit?, LedgerEntry.saved?]

theorem mem_live_iff {id : Nat} : id ∈ ledger.live ↔ id ∈ ledger.saved ∧ id ∉ ledger.deleted := by
  simp only [live, List.mem_filter, decide_eq_true_eq]

-- The shelf holds what the entries tell of, and has given out no higher ids
-- than it knows.
structure Agrees (ledger : Ledger) : Prop where
  told : ∀ {id program}, ledger.store.shelf.find? id = some program → ledger.Told program
  live_iff : ∀ id, id ∈ ledger.live ↔ ∃ program, ledger.store.shelf.find? id = some program
  saved_le : ∀ id ∈ ledger.saved, id ≤ ledger.store.shelf.lastId
  deleted_le : ∀ id ∈ ledger.deleted, id ≤ ledger.store.shelf.lastId
  descending : ledger.saved.Pairwise (· > ·)

theorem Agrees.empty : Agrees {} where
  told := fun hfound => by contradiction
  live_iff := by
    refine fun id => iff_of_false List.not_mem_nil ?_
    rintro ⟨program, hfound⟩
    contradiction
  saved_le := fun id hmem => absurd hmem List.not_mem_nil
  deleted_le := fun id hmem => absurd hmem List.not_mem_nil
  descending := .nil

theorem Agrees.save (h : ledger.Agrees) (now : Nat) (title source : String) :
    Agrees ⟨⟨(ledger.store.shelf.save now title source).2, now⟩,
      ⟨now, .save title source, .saved (ledger.store.shelf.lastId + 1)⟩ :: ledger.entries⟩ := by
  refine {
    told := fun {id program} hfound => ?told
    live_iff := fun id => ?live
    saved_le := fun id hmem => ?bound
    deleted_le := fun id hmem => Nat.le_succ_of_le (h.deleted_le id hmem)
    descending := List.pairwise_cons.mpr ⟨fun id hmem => ?fresh, h.descending⟩ }
  case told =>
    rw [Shelf.find?_save] at hfound
    split at hfound
    · next hid =>
      cases hfound
      rw [hid]
      exact told_of_saved ..
    · next hid =>
      have hsame := ledger.store.shelf.id_of_find? id hfound
      exact (h.told hfound).of_silent (if_neg (by omega))
  case live =>
    have hlast : ledger.store.shelf.lastId + 1 ∉ ledger.deleted := fun hmem => by
      have hle := h.deleted_le _ hmem
      omega
    rw [Shelf.find?_save, mem_live_iff]
    split
    · next hid =>
      rw [hid]
      exact iff_of_true ⟨List.mem_cons_self, hlast⟩ ⟨_, rfl⟩
    · next hid =>
      rw [← h.live_iff, mem_live_iff]
      exact and_congr_left' (List.mem_cons.trans (or_iff_right hid))
  case bound =>
    cases List.mem_cons.mp hmem with
    | inl hid => exact Nat.le_of_eq hid
    | inr hmem => exact Nat.le_succ_of_le (h.saved_le id hmem)
  case fresh => exact Nat.lt_succ_of_le (h.saved_le id hmem)

theorem Agrees.update {id : Nat} (h : ledger.Agrees) (now : Nat) (edit : ProgramEdit)
    (hfound : ledger.store.shelf.find? id = some program) :
    Agrees ⟨⟨ledger.store.shelf.modify id edit now, now⟩,
      ⟨now, .update id edit, .done⟩ :: ledger.entries⟩ := by
  refine {
    told := fun {other found} hother => ?told
    live_iff := fun other => ?live
    saved_le := h.saved_le
    deleted_le := h.deleted_le
    descending := h.descending }
  case told =>
    rw [Shelf.find?_modify] at hother
    split at hother
    · rw [hfound] at hother
      cases hother
      have hid := ledger.store.shelf.id_of_find? id hfound
      exact (h.told hfound).edited (if_pos hid.symm) nofun
    · next hid =>
      have hsame := ledger.store.shelf.id_of_find? other hother
      exact (h.told hother).of_silent (if_neg fun heq => hid (heq.trans hsame).symm)
  case live =>
    refine (h.live_iff other).trans ?_
    rw [Shelf.find?_modify]
    split
    · next hid =>
      rw [hid, hfound]
      exact iff_of_true ⟨_, rfl⟩ ⟨_, rfl⟩
    · exact Iff.rfl

theorem Agrees.delete {id : Nat} (h : ledger.Agrees) (now : Nat)
    (hfound : ledger.store.shelf.find? id = some program) :
    Agrees ⟨⟨ledger.store.shelf.erase id, now⟩,
      ⟨now, .delete id, .done⟩ :: ledger.entries⟩ := by
  refine {
    told := fun {other found} hother => ?told
    live_iff := fun other => ?live
    saved_le := h.saved_le
    deleted_le := fun other hmem => ?bound
    descending := h.descending }
  case told =>
    rw [Shelf.find?_erase] at hother
    split at hother
    · contradiction
    · exact (h.told hother).of_silent rfl
  case live =>
    rw [Shelf.find?_erase, mem_live_iff]
    split
    · next hid =>
      rw [hid]
      exact iff_of_false (fun hmem => hmem.2 List.mem_cons_self) nofun
    · next hid =>
      rw [← h.live_iff, mem_live_iff]
      exact and_congr_right' (not_congr (List.mem_cons.trans (or_iff_right hid)))
  case bound =>
    cases List.mem_cons.mp hmem with
    | inl hid =>
      refine Nat.le_of_not_lt fun hlt => ?_
      rw [hid] at hlt
      rw [ledger.store.shelf.find?_eq_none_of_lastId_lt hlt] at hfound
      contradiction
    | inr hmem => exact h.deleted_le other hmem

-- A call that asks for nothing to be written, or fails.
theorem Agrees.unchanged (h : ledger.Agrees) (now : Nat) (hsaved : entry.saved? = none)
    (hdeleted : entry.deleted? = none) (hsilent : ∀ id, entry.edit? id = none) :
    Agrees ⟨{ ledger.store with now }, entry :: ledger.entries⟩ := by
  have hsame : saved ⟨{ ledger.store with now }, entry :: ledger.entries⟩ = ledger.saved :=
    List.filterMap_cons_none hsaved
  have hgone : deleted ⟨{ ledger.store with now }, entry :: ledger.entries⟩ = ledger.deleted :=
    List.filterMap_cons_none hdeleted
  refine {
    told := fun hfound => (h.told hfound).of_silent (hsilent _)
    live_iff := fun id => ?live
    saved_le := fun id hmem => h.saved_le id (hsame ▸ hmem)
    deleted_le := fun id hmem => h.deleted_le id (hgone ▸ hmem)
    descending := hsame.symm ▸ h.descending }
  case live =>
    rw [mem_live_iff, hsame, hgone, ← mem_live_iff]
    exact h.live_iff id

theorem Agrees.enter (h : ledger.Agrees) (now : Nat) (call : Store.Call) :
    (ledger.enter now call).Agrees := by
  cases call with
  | save title source => exact h.save now title source
  | list => exact h.unchanged now rfl rfl fun _ => rfl
  | get id => exact h.unchanged now rfl rfl fun _ => rfl
  | update id edit =>
    rw [Ledger.enter, Store.answer, DatedShelf.update_eq]
    cases hfound : ledger.store.shelf.find? id with
    | none => exact h.unchanged now rfl rfl fun _ => rfl
    | some program => exact h.update now edit hfound
  | delete id =>
    rw [Ledger.enter, Store.answer, DatedShelf.delete_eq]
    cases hfound : ledger.store.shelf.find? id with
    | none => exact h.unchanged now rfl rfl fun _ => rfl
    | some program => exact h.delete now hfound

theorem Agrees.ofCalls (calls : List (Nat × Store.Call)) : (ofCalls calls).Agrees := by
  suffices ∀ {ledger : Ledger}, ledger.Agrees →
      (calls.foldl (fun ledger call => ledger.enter call.1 call.2) ledger).Agrees from
    this .empty
  intro ledger h
  induction calls generalizing ledger with
  | nil => exact h
  | cons call calls ih => exact ih (h.enter call.1 call.2)

-- What is known of a store from the calls made to it, and what the next call
-- does to it whenever it is made.
structure Kept (ledger : Ledger) : Prop where
  saved_descending : ledger.saved.Pairwise (· > ·)
  get_iff : ∀ id program, Store.get ledger.store id = .ok program ↔
    program.id = id ∧ id ∈ ledger.live ∧ ledger.Told program
  missing_iff : ∀ id fault, Store.get ledger.store id = .error fault ↔
    fault = .notFound id ∧ id ∉ ledger.live
  save_fresh : ∀ now title source, ∃ id after,
    Store.save { ledger.store with now } title source = (.ok id, after) ∧
      (∀ earlier ∈ ledger.saved, earlier < id) ∧
      Store.get ledger.store id = .error (.notFound id) ∧
      Store.get after id = .ok ⟨id, title, source, now, now⟩ ∧
      ∀ other ≠ id, Store.get after other = Store.get ledger.store other
  update_found : ∀ now id edit program, Store.get ledger.store id = .ok program → ∃ after,
    Store.update { ledger.store with now } id edit = (.ok (), after) ∧
      Store.get after id = .ok { program with
        title := edit.title.getD program.title
        source := edit.source.getD program.source
        updatedAt := now } ∧
      ∀ other ≠ id, Store.get after other = Store.get ledger.store other
  delete_found : ∀ now id program, Store.get ledger.store id = .ok program → ∃ after,
    Store.delete { ledger.store with now } id = (.ok (), after) ∧
      Store.get after id = .error (.notFound id) ∧
      ∀ other ≠ id, Store.get after other = Store.get ledger.store other
  update_missing : ∀ now id edit fault, Store.get ledger.store id = .error fault →
    Store.update { ledger.store with now } id edit = (.error fault, { ledger.store with now })
  delete_missing : ∀ now id fault, Store.get ledger.store id = .error fault →
    Store.delete { ledger.store with now } id = (.error fault, { ledger.store with now })
  list_sorted : ∃ programs, Store.list ledger.store = .ok programs ∧
    (∀ program, program ∈ programs ↔ Store.get ledger.store program.id = .ok program) ∧
    (programs.map Program.id).Perm ledger.live ∧
    programs.Pairwise fun a b =>
      b.updatedAt < a.updatedAt ∨ (a.updatedAt = b.updatedAt ∧ b.id < a.id)
  size_eq : ledger.store.shelf.size = ledger.live.length

theorem Agrees.get_iff (h : ledger.Agrees) (id : Nat) :
    Store.get ledger.store id = .ok program ↔
      program.id = id ∧ id ∈ ledger.live ∧ ledger.Told program := by
  rw [DatedShelf.get_eq_ok_iff]
  constructor
  · intro hfound
    exact ⟨ledger.store.shelf.id_of_find? id hfound, (h.live_iff id).mpr ⟨program, hfound⟩,
      h.told hfound⟩
  · rintro ⟨hid, hlive, htold⟩
    obtain ⟨found, hfound⟩ := (h.live_iff id).mp hlive
    have hsame := ledger.store.shelf.id_of_find? id hfound
    rw [htold.eq_of_id_eq (h.told hfound) (hid.trans hsame.symm)]
    exact hfound

theorem Agrees.missing_iff (h : ledger.Agrees) (id : Nat) (fault : StoreFault) :
    Store.get ledger.store id = .error fault ↔ fault = .notFound id ∧ id ∉ ledger.live := by
  rw [h.live_iff]
  simp only [Store.get, Shelf.get]
  cases ledger.store.shelf.find? id <;> simp [eq_comm]

-- The ids of the programs on the shelf are the live ones, each of them once.
theorem Agrees.perm_live (h : ledger.Agrees) :
    (ledger.store.shelf.programs.map Program.id).Perm ledger.live := by
  have hlive : ledger.live.Nodup := (h.descending.imp Nat.ne_of_gt).filter _
  refine (List.perm_ext_iff_of_nodup ledger.store.shelf.ids_nodup hlive).mpr fun id => ?_
  rw [h.live_iff, List.mem_map]
  constructor
  · rintro ⟨program, hmem, rfl⟩
    exact ⟨program, (ledger.store.shelf.mem_programs_iff).mp hmem⟩
  · rintro ⟨program, hfound⟩
    exact ⟨program, List.mem_of_find?_eq_some hfound, ledger.store.shelf.id_of_find? id hfound⟩

theorem Agrees.kept (h : ledger.Agrees) : ledger.Kept := by
  refine {
    saved_descending := h.descending
    get_iff := fun id program => h.get_iff id
    missing_iff := h.missing_iff
    save_fresh := fun now title source => ?save
    update_found := fun now id edit program hget => ?update
    delete_found := fun now id program hget => ?delete
    update_missing := fun now id edit fault hget => ?updateMissing
    delete_missing := fun now id fault hget => ?deleteMissing
    list_sorted := ⟨ledger.store.shelf.list, rfl, fun program => ?listed, ?once,
      ledger.store.shelf.list_descending⟩
    size_eq := ?size }
  case save =>
    have hnew := ledger.store.shelf.find?_eq_none_of_lastId_lt (Nat.lt_succ_self _)
    have hfind := ledger.store.shelf.find?_save now title source
    refine ⟨_, _, rfl, fun earlier hmem => Nat.lt_succ_of_le (h.saved_le earlier hmem),
      (DatedShelf.get_eq_notFound_iff ..).mpr hnew, (DatedShelf.get_eq_ok_iff ..).mpr ?_,
      fun other hother => DatedShelf.get_congr ?_⟩
    · exact (hfind _).trans (if_pos rfl)
    · exact (hfind other).trans (if_neg hother)
  case update =>
    have hfound := (DatedShelf.get_eq_ok_iff ..).mp hget
    have hfind := ledger.store.shelf.find?_modify now id edit
    refine ⟨_, by rw [DatedShelf.update_eq, hfound], (DatedShelf.get_eq_ok_iff ..).mpr ?_,
      fun other hother => DatedShelf.get_congr ?_⟩
    · rw [hfind, if_pos rfl, hfound]
      rfl
    · exact (hfind other).trans (if_neg hother)
  case delete =>
    have hfound := (DatedShelf.get_eq_ok_iff ..).mp hget
    have hfind := ledger.store.shelf.find?_erase id
    refine ⟨_, by rw [DatedShelf.delete_eq, hfound], (DatedShelf.get_eq_notFound_iff ..).mpr ?_,
      fun other hother => DatedShelf.get_congr ?_⟩
    · exact (hfind id).trans (if_pos rfl)
    · exact (hfind other).trans (if_neg hother)
  case updateMissing =>
    obtain ⟨rfl, -⟩ := (h.missing_iff id fault).mp hget
    rw [DatedShelf.update_eq, (DatedShelf.get_eq_notFound_iff ..).mp hget]
  case deleteMissing =>
    obtain ⟨rfl, -⟩ := (h.missing_iff id fault).mp hget
    rw [DatedShelf.delete_eq, (DatedShelf.get_eq_notFound_iff ..).mp hget]
  case listed =>
    rw [DatedShelf.get_eq_ok_iff, ledger.store.shelf.perm_list.mem_iff]
    exact ledger.store.shelf.mem_programs_iff
  case once => exact (ledger.store.shelf.perm_list.map Program.id).trans h.perm_live
  case size =>
    have hlength := h.perm_live.length_eq
    rwa [List.length_map] at hlength

-- Whatever has been asked of a new store, and whatever the clock showed, it
-- holds the programs that were saved and not deleted, as they were set last,
-- and no id is given out again.
theorem ofCalls_kept (calls : List (Nat × Store.Call)) : (ofCalls calls).Kept :=
  (Agrees.ofCalls calls).kept

-- The clock goes back, and the id of a program that was deleted stays out of use.
example :
    let calls := [(5, .save "a" ""), (3, .save "b" ""), (4, .delete 2), (2, .save "c" "")]
    (ofCalls calls).live = [3, 1] := by decide

end Ledger

end FiveStage
