import FiveStage.Store.Basic

namespace FiveStage

-- Programs kept in memory. Ids are given out in ascending order and never
-- again, so a program is never replaced.
structure Shelf where
  programs : List Program := []
  lastId : Nat := 0
  ascending : programs.Pairwise fun a b => a.id < b.id := by exact List.Pairwise.nil
  id_le_lastId : ∀ program ∈ programs, program.id ≤ lastId := by simp
  deriving DecidableEq

namespace Shelf

theorem ascending_nil : ([] : List Program).Pairwise fun a b => a.id < b.id := .nil

theorem id_le_of_mem_nil : ∀ program ∈ ([] : List Program), program.id ≤ 0 := by simp

-- Nothing has been saved yet.
def empty : Shelf where
  programs := []
  lastId := 0
  ascending := ascending_nil
  id_le_lastId := id_le_of_mem_nil

def find? (shelf : Shelf) (id : Nat) : Option Program :=
  shelf.programs.find? fun program => program.id = id

def size (shelf : Shelf) : Nat :=
  shelf.programs.length

def isEmpty (shelf : Shelf) : Bool :=
  shelf.programs.isEmpty

theorem append_ascending (shelf : Shelf) {program : Program} (h : program.id = shelf.lastId + 1) :
    (shelf.programs ++ [program]).Pairwise fun a b => a.id < b.id := by
  refine List.pairwise_append.mpr ⟨shelf.ascending, List.pairwise_singleton .., ?_⟩
  intro a ha b hb
  have hle := shelf.id_le_lastId a ha
  rw [List.mem_singleton.mp hb]
  omega

def save (shelf : Shelf) (now : Nat) (title source : String) : Nat × Shelf :=
  let id := shelf.lastId + 1
  (id, {
    programs := shelf.programs ++ [{ id, title, source, createdAt := now, updatedAt := now }]
    lastId := id
    ascending := shelf.append_ascending rfl
    id_le_lastId := by
      intro program h
      cases List.mem_append.mp h with
      | inl h => exact Nat.le_succ_of_le (shelf.id_le_lastId program h)
      | inr h => exact Nat.le_of_eq (congrArg Program.id (List.mem_singleton.mp h)) })

-- The most recently updated program first, and of those updated at one time
-- the one with the highest id.
def list (shelf : Shelf) : List Program :=
  shelf.programs.mergeSort fun a b =>
    b.updatedAt < a.updatedAt || (a.updatedAt = b.updatedAt && b.id ≤ a.id)

def get (shelf : Shelf) (id : Nat) : Except StoreFault Program :=
  match shelf.find? id with
  | some program => .ok program
  | none => .error (.notFound id)

-- The program after a change.
def edited (program : Program) (edit : ProgramEdit) (now : Nat) : Program :=
  { program with
    title := edit.title.getD program.title
    source := edit.source.getD program.source
    updatedAt := now }

-- Changes the program with an id, if there is one.
def modify (shelf : Shelf) (id : Nat) (edit : ProgramEdit) (now : Nat) : Shelf where
  programs := shelf.programs.map fun program =>
    if program.id = id then edited program edit now else program
  lastId := shelf.lastId
  ascending := by
    refine List.pairwise_map.mpr (shelf.ascending.imp fun {a b} h => ?_)
    split <;> split <;> exact h
  id_le_lastId := by
    intro program h
    obtain ⟨before, hmem, rfl⟩ := List.mem_map.mp h
    have hle := shelf.id_le_lastId before hmem
    split <;> exact hle

-- Takes the program with an id away, if there is one.
def erase (shelf : Shelf) (id : Nat) : Shelf where
  programs := shelf.programs.filter fun program => program.id ≠ id
  lastId := shelf.lastId
  ascending := shelf.ascending.filter _
  id_le_lastId := fun program h => shelf.id_le_lastId program (List.mem_filter.mp h).1

def update (shelf : Shelf) (now id : Nat) (edit : ProgramEdit) : Except StoreFault Unit × Shelf :=
  match shelf.find? id with
  | some _ => (.ok (), shelf.modify id edit now)
  | none => (.error (.notFound id), shelf)

def delete (shelf : Shelf) (id : Nat) : Except StoreFault Unit × Shelf :=
  match shelf.find? id with
  | some _ => (.ok (), shelf.erase id)
  | none => (.error (.notFound id), shelf)

end Shelf

-- A shelf together with the time on the clock beside it.
structure DatedShelf where
  shelf : Shelf := {}
  now : Nat := 0
  deriving DecidableEq

namespace DatedShelf

instance : Store DatedShelf where
  save dated title source :=
    let (id, shelf) := dated.shelf.save dated.now title source
    (.ok id, { dated with shelf })
  list dated := .ok dated.shelf.list
  get dated id := dated.shelf.get id
  update dated id edit :=
    let (outcome, shelf) := dated.shelf.update dated.now id edit
    (outcome, { dated with shelf })
  delete dated id :=
    let (outcome, shelf) := dated.shelf.delete id
    (outcome, { dated with shelf })

end DatedShelf

end FiveStage
