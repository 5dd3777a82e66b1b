import FiveStage.Proofs.Store.Ledger
import Mathlib.Data.List.Permutation

namespace FiveStage

theorem rel_of_getElem? {α : Type} {R : α → α → Prop} {entries : List α} (h : entries.Pairwise R)
    {i j : Nat} {a b : α} (ha : entries[i]? = some a) (hb : entries[j]? = some b) (hlt : i < j) :
    R a b := by
  obtain ⟨hi, rfl⟩ := List.getElem?_eq_some_iff.mp ha
  obtain ⟨hj, rfl⟩ := List.getElem?_eq_some_iff.mp hb
  exact List.pairwise_iff_getElem.mp h i j hi hj hlt

namespace LedgerEntry

-- Whether something was changed as it was asked.
def isChange (entry : LedgerEntry) : Bool :=
  match entry.call, entry.answer with
  | .save .., .saved _ | .update .., .done | .delete _, .done => true
  | _, _ => false

theorem isSome_edit?_of_saved? {entry : LedgerEntry} {id : Nat} (h : entry.saved? = some id) :
    (entry.edit? id).isSome := by
  rw [Option.isSome_iff_ne_none]
  exact fun hnone => saved?_ne_of_edit? hnone h

-- A program is set by a save or by an update.
theorem call_of_edit? {entry : LedgerEntry} {id : Nat} {edit : ProgramEdit}
    (h : entry.edit? id = some edit) (hsaved : entry.saved? ≠ some id) :
    entry.call = .update id edit := by
  unfold edit? at h
  split at h
  · next now title source given =>
    split at h
    · next hgiven => exact absurd (congrArg some hgiven) hsaved
    · contradiction
  · next now changed changes =>
    split at h
    · next hchanged =>
      cases h
      rw [hchanged]
    · contradiction
  · contradiction

end LedgerEntry

namespace Ledger

variable {ledger : Ledger} {program other : Program}

-- How many entries there are after the last one that sets something of a program.
def age (ledger : Ledger) (id : Nat) : Nat :=
  ledger.entries.findIdx fun entry => (entry.edit? id).isSome

theorem map_now_ofCalls (calls : List (Nat × Store.Call)) :
    (ofCalls calls).entries.map LedgerEntry.now = (calls.map Prod.fst).reverse := by
  suffices ∀ ledger : Ledger,
      (calls.foldl (fun ledger call => ledger.enter call.1 call.2) ledger).entries.map
          LedgerEntry.now = (calls.map Prod.fst).reverse ++ ledger.entries.map LedgerEntry.now from
    (this {}).trans (List.append_nil _)
  induction calls with
  | nil => exact fun _ => rfl
  | cons call calls ih =>
    intro ledger
    rw [List.foldl_cons, ih, List.map_cons, List.reverse_cons, List.append_assoc]
    rfl

-- Under a clock that does not go back a later entry has no earlier date.
theorem dates_descending {calls : List (Nat × Store.Call)}
    (h : calls.Pairwise fun a b => a.1 ≤ b.1) :
    (ofCalls calls).entries.Pairwise fun later earlier => earlier.now ≤ later.now := by
  rw [← List.pairwise_map (f := LedgerEntry.now) (R := fun later earlier => earlier ≤ later),
    map_now_ofCalls, List.pairwise_reverse]
  exact List.pairwise_map.mpr h

-- What stands at the age of a program is the last entry that sets something of it.
theorem Told.exists_entry (h : ledger.Told program) :
    ∃ entry edit, ledger.entries[ledger.age program.id]? = some entry ∧
      entry.edit? program.id = some edit ∧ entry.now = program.updatedAt := by
  obtain ⟨after, entry, before, hentries, hentry, hafter⟩ :=
    List.findSome?_eq_some_iff.mp h.updatedAt_eq
  obtain ⟨edit, hedit, hnow⟩ := Option.map_eq_some_iff.mp hentry
  have hlater : after.findIdx (fun entry => (entry.edit? program.id).isSome) = after.length := by
    refine List.findIdx_eq_length.mpr fun other hother => ?_
    simpa [LedgerEntry.updatedAt?] using hafter other hother
  have hage : ledger.age program.id = after.length := by
    rw [age, hentries, List.findIdx_append, hlater, if_neg (Nat.lt_irrefl _)]
    simp [List.findIdx_cons, hedit]
  refine ⟨entry, edit, ?_, hedit, hnow⟩
  rw [hage, hentries]
  simp

theorem age_le {id position : Nat} {entry : LedgerEntry}
    (hentry : ledger.entries[position]? = some entry) (h : (entry.edit? id).isSome) :
    ledger.age id ≤ position := by
  obtain ⟨hlt, rfl⟩ := List.getElem?_eq_some_iff.mp hentry
  refine Nat.le_of_not_lt fun hearly => ?_
  rw [List.not_of_lt_findIdx hearly] at h
  contradiction

theorem updatedAt_le_of_age_le
    (hdates : ledger.entries.Pairwise fun later earlier => earlier.now ≤ later.now)
    (hprogram : ledger.Told program) (hother : ledger.Told other)
    (h : ledger.age other.id ≤ ledger.age program.id) : program.updatedAt ≤ other.updatedAt := by
  obtain ⟨entry, -, hentry, -, hnow⟩ := hprogram.exists_entry
  obtain ⟨later, -, hlater, -, hupdated⟩ := hother.exists_entry
  rw [← hnow, ← hupdated]
  cases Nat.eq_or_lt_of_le h with
  | inl he =>
    rw [he, hentry] at hlater
    exact Nat.le_of_eq (congrArg LedgerEntry.now (Option.some.inj hlater))
  | inr hlt => exact rel_of_getElem? hdates hlater hentry hlt

-- Ids ascend, so what sets a program after one with a higher id is an update.
theorem Agrees.exists_update (h : ledger.Agrees) (hsaved : program.id ∈ ledger.saved)
    (hother : ledger.Told other) (hid : other.id < program.id)
    (hage : ledger.age other.id ≤ ledger.age program.id) :
    ∃ entry edit, ledger.entries[ledger.age other.id]? = some entry ∧
      entry.call = .update other.id edit := by
  obtain ⟨entry, edit, hentry, hedit, -⟩ := hother.exists_entry
  refine ⟨entry, edit, hentry, LedgerEntry.call_of_edit? hedit fun hnew => ?_⟩
  obtain ⟨save, hmem, hsave⟩ := List.mem_filterMap.mp hsaved
  obtain ⟨position, hposition⟩ := List.getElem?_of_mem hmem
  have hle := age_le hposition (LedgerEntry.isSome_edit?_of_saved? hsave)
  cases Nat.eq_or_lt_of_le (Nat.le_trans hage hle) with
  | inl he =>
    rw [he, hposition] at hentry
    rw [Option.some.inj hentry, hnew] at hsave
    exact Nat.ne_of_lt hid (Option.some.inj hsave)
  | inr hlt =>
    have hdescending := List.pairwise_filterMap.mp h.descending
    have hgt := rel_of_getElem? hdescending hentry hposition hlt _ hnew _ hsave
    omega

-- Where the clock does not go back, the programs are listed with the one set
-- last in front, except that of two set at the same reading the one with the
-- higher id comes first, even if the other has been updated since.
theorem ofCalls_recent {calls : List (Nat × Store.Call)} (h : calls.Pairwise fun a b => a.1 ≤ b.1) :
    ∃ programs, Store.list (ofCalls calls).store = .ok programs ∧
      (programs.map Program.id).Perm (ofCalls calls).live ∧
      programs.Pairwise fun a b =>
        (ofCalls calls).age a.id < (ofCalls calls).age b.id ∨
          a.updatedAt = b.updatedAt ∧ b.id < a.id ∧
            ∃ entry edit, (ofCalls calls).entries[(ofCalls calls).age b.id]? = some entry ∧
              entry.call = .update b.id edit := by
  have hagrees := Agrees.ofCalls calls
  obtain ⟨programs, hlist, hmem, hlive, hsorted⟩ := hagrees.kept.list_sorted
  refine ⟨programs, hlist, hlive, hsorted.imp_of_mem fun {a b} ha hb hab => ?_⟩
  obtain ⟨-, halive, hatold⟩ := (hagrees.get_iff a.id).mp ((hmem a).mp ha)
  obtain ⟨-, -, hbtold⟩ := (hagrees.get_iff b.id).mp ((hmem b).mp hb)
  by_cases hage : (ofCalls calls).age a.id < (ofCalls calls).age b.id
  · exact .inl hage
  · have hle := Nat.le_of_not_lt hage
    have hdates := updatedAt_le_of_age_le (dates_descending h) hatold hbtold hle
    obtain ⟨heq, hid⟩ : a.updatedAt = b.updatedAt ∧ b.id < a.id := by omega
    exact .inr ⟨heq, hid, hagrees.exists_update (mem_live_iff.mp halive).1 hbtold hid hle⟩

private def refreshed : List (Nat × Store.Call) :=
  [(3, .save "a" ""), (3, .save "b" ""), (5, .save "c" ""), (7, .update 1 {}), (7, .delete 2)]

theorem ofCalls_recent_refreshed :
    Store.list (ofCalls refreshed).store = .ok [⟨1, "a", "", 3, 7⟩, ⟨3, "c", "", 5, 5⟩] ∧
      (ofCalls refreshed).age 1 < (ofCalls refreshed).age 3 := by
  obtain ⟨programs, hlist, -, hrecent⟩ := @ofCalls_recent refreshed (by decide)
  have hlisted : Store.list (ofCalls refreshed).store =
      .ok [⟨1, "a", "", 3, 7⟩, ⟨3, "c", "", 5, 5⟩] := by cbv
  refine ⟨hlisted, ?_⟩
  rw [hlisted] at hlist
  cases hlist
  obtain hage | ⟨hsame, -⟩ := List.pairwise_pair.mp hrecent
  · exact hage
  · contradiction

-- Two programs are saved within a second, and then the first one is updated.
private def hurried : List (Nat × Store.Call) :=
  [(0, .save "a" ""), (0, .save "b" ""), (0, .update 1 {})]

theorem not_ofCalls_recent_first :
    ¬∀ calls : List (Nat × Store.Call), calls.Pairwise (fun a b => a.1 ≤ b.1) →
      (∀ entry ∈ (ofCalls calls).entries, entry.isChange) →
      ∃ programs, Store.list (ofCalls calls).store = .ok programs ∧
        (programs.map Program.id).Perm (ofCalls calls).live ∧
        programs.Pairwise fun a b => (ofCalls calls).age a.id < (ofCalls calls).age b.id := by
  intro hfirst
  obtain ⟨programs, hlist, -, hrecent⟩ := hfirst hurried (by decide) (by decide)
  have hlisted : Store.list (ofCalls hurried).store =
      .ok [⟨2, "b", "", 0, 0⟩, ⟨1, "a", "", 0, 0⟩] := by cbv
  rw [hlisted] at hlist
  cases hlist
  have hage := List.pairwise_pair.mp hrecent
  contradiction

end Ledger

end FiveStage
