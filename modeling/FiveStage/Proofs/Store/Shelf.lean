import FiveStage.Store.Shelf
import Mathlib.Data.List.Nodup

namespace FiveStage

namespace Shelf

-- What is found on a shelf after a change, by the id that is looked for.
variable (shelf : Shelf) (now id : Nat) (edit : ProgramEdit)

theorem id_of_find? {program : Program} (h : shelf.find? id = some program) : program.id = id := by
  unfold find? at h
  simpa using List.find?_some h

theorem find?_eq_none_of_lastId_lt {id : Nat} (h : shelf.lastId < id) : shelf.find? id = none := by
  refine List.find?_eq_none.mpr fun program hmem hid => ?_
  have hle := shelf.id_le_lastId program hmem
  have hsame : program.id = id := of_decide_eq_true hid
  omega

theorem find?_save (title source : String) (other : Nat) :
    (shelf.save now title source).2.find? other =
      if other = shelf.lastId + 1 then some ⟨other, title, source, now, now⟩
      else shelf.find? other := by
  simp only [save, find?, List.find?_append, List.find?_singleton, decide_eq_true_eq]
  rw [← find?]
  by_cases hother : other = shelf.lastId + 1
  · have hfresh : shelf.find? other = none := shelf.find?_eq_none_of_lastId_lt (by omega)
    rw [hfresh, hother]
    simp
  · simp [hother, Ne.symm hother]

theorem find?_modify (other : Nat) :
    (shelf.modify id edit now).find? other =
      if other = id then (shelf.find? id).map (edited · edit now) else shelf.find? other := by
  have hid : ∀ program : Program,
      (if program.id = id then edited program edit now else program).id = program.id := by
    intro program
    split <;> rfl
  have hfind : (shelf.modify id edit now).find? other = (shelf.find? other).map fun program =>
      if program.id = id then edited program edit now else program := by
    simp only [modify, find?, List.find?_map, Function.comp_def, hid]
  rw [hfind]
  cases hfound : shelf.find? other with
  | none =>
    split
    · next hother => rw [← hother, hfound]; rfl
    · rfl
  | some program =>
    have hsame := shelf.id_of_find? other hfound
    by_cases hother : other = id
    · rw [if_pos hother, ← hother, hfound, Option.map_some, if_pos hsame]
      rfl
    · rw [if_neg hother, Option.map_some, if_neg (hsame ▸ hother)]

theorem find?_erase (other : Nat) :
    (shelf.erase id).find? other = if other = id then none else shelf.find? other := by
  simp only [erase, find?, List.find?_filter, decide_eq_true_eq]
  split
  · next hother =>
    rw [hother]
    simp
  · next hother =>
    congr 1
    funext program
    rw [decide_eq_decide]
    exact and_iff_right_of_imp fun hid => hid.symm ▸ hother

theorem ids_nodup : (shelf.programs.map Program.id).Nodup :=
  List.pairwise_map.mpr (shelf.ascending.imp Nat.ne_of_lt)

theorem mem_programs_iff {program : Program} :
    program ∈ shelf.programs ↔ shelf.find? program.id = some program := by
  refine ⟨fun hmem => ?_, List.mem_of_find?_eq_some⟩
  cases hfound : shelf.find? program.id with
  | none =>
    have hdiffers := List.find?_eq_none.mp hfound program hmem
    exact absurd (decide_eq_true rfl) hdiffers
  | some other =>
    have hid := shelf.id_of_find? program.id hfound
    exact congrArg some
      (List.inj_on_of_nodup_map shelf.ids_nodup (List.mem_of_find?_eq_some hfound) hmem hid)

theorem perm_list : shelf.list.Perm shelf.programs :=
  List.mergeSort_perm ..

-- No two programs have an id in common, so the order leaves nothing open.
theorem list_descending :
    shelf.list.Pairwise fun a b =>
      b.updatedAt < a.updatedAt ∨ (a.updatedAt = b.updatedAt ∧ b.id < a.id) := by
  have hids : (shelf.list.map Program.id).Nodup :=
    (shelf.perm_list.map Program.id).nodup_iff.mpr shelf.ids_nodup
  have hsorted : shelf.list.Pairwise fun a b =>
      b.updatedAt < a.updatedAt || (a.updatedAt = b.updatedAt && b.id ≤ a.id) := by
    apply List.pairwise_mergeSort
    · intro a b c
      simp only [Bool.or_eq_true, Bool.and_eq_true, decide_eq_true_eq]
      omega
    · intro a b
      simp only [Bool.or_eq_true, Bool.and_eq_true, decide_eq_true_eq]
      omega
  refine hsorted.imp₂ (fun a b h hne => ?_) (List.pairwise_map.mp hids)
  simp only [Bool.or_eq_true, Bool.and_eq_true, decide_eq_true_eq] at h
  omega

theorem size_save (title source : String) :
    (shelf.save now title source).2.size = shelf.size + 1 := by
  simp [save, size]

theorem size_modify : (shelf.modify id edit now).size = shelf.size := by
  simp [modify, size]

end Shelf

namespace DatedShelf

variable (store : DatedShelf) (id : Nat)

theorem get_eq_ok_iff {program : Program} :
    Store.get store id = .ok program ↔ store.shelf.find? id = some program := by
  simp only [Store.get, Shelf.get]
  cases store.shelf.find? id <;> simp

theorem get_eq_notFound_iff :
    Store.get store id = .error (.notFound id) ↔ store.shelf.find? id = none := by
  simp only [Store.get, Shelf.get]
  cases store.shelf.find? id <;> simp

theorem get_congr {store other : DatedShelf} {id : Nat}
    (h : store.shelf.find? id = other.shelf.find? id) :
    Store.get store id = Store.get other id := by
  simp only [Store.get, Shelf.get, h]

theorem update_eq (edit : ProgramEdit) :
    Store.update store id edit =
      match store.shelf.find? id with
      | some _ => (.ok (), { store with shelf := store.shelf.modify id edit store.now })
      | none => (.error (.notFound id), store) := by
  simp only [Store.update, Shelf.update]
  cases store.shelf.find? id <;> rfl

theorem delete_eq :
    Store.delete store id =
      match store.shelf.find? id with
      | some _ => (.ok (), { store with shelf := store.shelf.erase id })
      | none => (.error (.notFound id), store) := by
  simp only [Store.delete, Shelf.delete]
  cases store.shelf.find? id <;> rfl

end DatedShelf

end FiveStage
