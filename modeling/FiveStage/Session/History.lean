namespace FiveStage

-- The most recent of the entries that were pushed, at most `limit` of them.
-- Entries beyond that are let go of only now and then, so that pushing does
-- not walk through the whole history every time.
structure History (α : Type) where
  limit : Nat
  -- newest first; only the first `size` of them count
  recent : List α := []
  size : Nat := 0
  -- the length of `recent`
  stored : Nat := 0
  size_le_limit : size ≤ limit := by omega
  size_le_stored : size ≤ stored := by omega
  stored_eq : stored = recent.length := by rfl
  deriving DecidableEq

namespace History

variable {α : Type}

def empty (limit : Nat) : History α := { limit }

-- The entries that count, newest first.
def toList (history : History α) : List α :=
  history.recent.take history.size

-- Puts an entry in front and trims what is stored once half of it is beyond
-- the limit.
def push (history : History α) (entry : α) : History α :=
  let recent := entry :: history.recent
  let size := min (history.size + 1) history.limit
  have hsize : size ≤ recent.length := by
    have hstored := history.size_le_stored
    rw [history.stored_eq] at hstored
    simp only [size, recent, List.length_cons]
    omega
  if 2 * history.limit ≤ history.stored then
    { limit := history.limit
      recent := recent.take size
      size := size
      stored := size
      size_le_limit := Nat.min_le_right ..
      stored_eq := (List.length_take_of_le hsize).symm }
  else
    { limit := history.limit
      recent := recent
      size := size
      stored := history.stored + 1
      size_le_limit := Nat.min_le_right ..
      size_le_stored := by rw [history.stored_eq]; exact hsize
      stored_eq := by rw [history.stored_eq]; rfl }

-- Takes the newest entry off.
def pop? (history : History α) : Option (α × History α) :=
  match history with
  | ⟨limit, entry :: recent, size + 1, stored, hlimit, hstored, hlength⟩ =>
    some (entry, {
      limit := limit
      recent := recent
      size := size
      stored := stored - 1
      size_le_limit := by omega
      size_le_stored := by omega
      stored_eq := by rw [hlength, List.length_cons, Nat.add_sub_cancel] })
  | _ => none

@[simp] theorem toList_empty (limit : Nat) : (empty limit : History α).toList = [] := rfl

theorem length_toList (history : History α) : history.toList.length = history.size :=
  List.length_take_of_le (history.stored_eq ▸ history.size_le_stored)

-- A push keeps the newest entries up to the limit.
theorem toList_push (history : History α) (entry : α) :
    (history.push entry).toList = (entry :: history.toList).take history.limit := by
  have hall : (history.push entry).toList
      = (entry :: history.recent).take (min (history.size + 1) history.limit) := by
    simp only [push, toList]
    split
    · rw [List.take_take, Nat.min_self]
    · rfl
  rw [hall, toList]
  cases history.limit with
  | zero => simp
  | succ limit =>
    rw [Nat.succ_min_succ, List.take_succ_cons, List.take_succ_cons, List.take_take,
      Nat.min_comm]

@[simp] theorem limit_push (history : History α) (entry : α) :
    (history.push entry).limit = history.limit := by
  simp only [push]
  split <;> rfl

theorem limit_of_pop? {history rest : History α} {entry : α}
    (h : history.pop? = some (entry, rest)) : rest.limit = history.limit := by
  unfold pop? at h
  split at h
  · cases h
    rfl
  · contradiction

-- Popping gives the newest entry and leaves the others.
theorem pop?_eq_some {history rest : History α} {entry : α}
    (h : history.pop? = some (entry, rest)) : history.toList = entry :: rest.toList := by
  obtain ⟨limit, recent, size, stored, hlimit, hstored, hlength⟩ := history
  cases recent with
  | nil => simp [pop?] at h
  | cons first others =>
    cases size with
    | zero => simp [pop?] at h
    | succ n =>
      simp only [pop?, Option.some.injEq, Prod.mk.injEq] at h
      obtain ⟨rfl, rfl⟩ := h
      simp [toList]

-- Only an empty history cannot be popped.
theorem pop?_eq_none_iff (history : History α) : history.pop? = none ↔ history.toList = [] := by
  obtain ⟨limit, recent, size, stored, hlimit, hstored, hlength⟩ := history
  cases recent with
  | nil => simp [pop?, toList]
  | cons first others =>
    cases size with
    | zero => simp [pop?, toList]
    | succ n => simp [pop?, toList]

end History

end FiveStage
