namespace FiveStage

-- Data memory: the words that were written, by ascending address. Addresses
-- are bytes and need not be aligned.
structure Memory where
  words : List (UInt32 × Int32) := []
  ascending : words.Pairwise fun a b => a.1 < b.1 := by exact List.Pairwise.nil
  deriving DecidableEq

namespace Memory

def empty : Memory := {}

-- Puts a word into its place among ascending addresses.
def place (address : UInt32) (value : Int32) :
    List (UInt32 × Int32) → List (UInt32 × Int32)
  | [] => [(address, value)]
  | entry :: rest =>
    if address < entry.1 then (address, value) :: entry :: rest
    else if address = entry.1 then (address, value) :: rest
    else entry :: place address value rest

theorem mem_place {address : UInt32} {value : Int32} {words : List (UInt32 × Int32)}
    {entry : UInt32 × Int32} (h : entry ∈ place address value words) :
    entry = (address, value) ∨ entry ∈ words := by
  induction words with
  | nil => simpa [place] using h
  | cons head rest ih =>
    simp only [place] at h
    split at h
    · simpa using h
    · split at h
      · cases List.mem_cons.mp h with
        | inl he => exact .inl he
        | inr ht => exact .inr (List.mem_cons_of_mem _ ht)
      · cases List.mem_cons.mp h with
        | inl he => exact .inr (he ▸ List.mem_cons_self)
        | inr ht =>
          cases ih ht with
          | inl he => exact .inl he
          | inr hm => exact .inr (List.mem_cons_of_mem _ hm)

theorem place_ascending {address : UInt32} {value : Int32} {words : List (UInt32 × Int32)}
    (h : words.Pairwise fun a b => a.1 < b.1) :
    (place address value words).Pairwise fun a b => a.1 < b.1 := by
  induction words with
  | nil => simp [place]
  | cons head rest ih =>
    obtain ⟨hhead, hrest⟩ := List.pairwise_cons.mp h
    simp only [place]
    split
    · rename_i hlt
      refine List.pairwise_cons.mpr ⟨fun entry he => ?_, h⟩
      cases List.mem_cons.mp he with
      | inl hh => simpa [hh] using hlt
      | inr ht => exact UInt32.lt_trans hlt (hhead entry ht)
    · split
      · rename_i he
        exact List.pairwise_cons.mpr ⟨fun entry hm => he ▸ hhead entry hm, hrest⟩
      · rename_i hnlt hne
        refine List.pairwise_cons.mpr ⟨fun entry hm => ?_, ih hrest⟩
        cases mem_place hm with
        | inl hp =>
          rw [hp]
          exact UInt32.lt_of_le_of_ne (UInt32.not_lt.mp hnlt) (Ne.symm hne)
        | inr hm => exact hhead entry hm

-- What was last written at an address, if anything was.
def find? (memory : Memory) (address : UInt32) : Option Int32 :=
  memory.words.lookup address

-- Addresses that were never written hold zero.
def read (memory : Memory) (address : UInt32) : Int32 :=
  (memory.find? address).getD 0

def write (memory : Memory) (address : UInt32) (value : Int32) : Memory where
  words := place address value memory.words
  ascending := place_ascending memory.ascending

theorem lookup_place_self (address : UInt32) (value : Int32) (words : List (UInt32 × Int32)) :
    (place address value words).lookup address = some value := by
  induction words with
  | nil => simp [place]
  | cons head rest ih =>
    obtain ⟨key, held⟩ := head
    simp only [place]
    split
    · simp
    · split
      · simp
      · rename_i hne
        have : (address == key) = false := by simpa using hne
        simp [List.lookup_cons, this, ih]

theorem lookup_place_of_ne {address other : UInt32} (value : Int32)
    (words : List (UInt32 × Int32)) (h : other ≠ address) :
    (place address value words).lookup other = words.lookup other := by
  have hne : (other == address) = false := by simpa using h
  induction words with
  | nil => simp [place, List.lookup_cons, hne]
  | cons head rest ih =>
    obtain ⟨key, held⟩ := head
    simp only [place]
    split
    · simp [List.lookup_cons, hne]
    · split
      · rename_i he
        subst he
        simp [List.lookup_cons, hne]
      · simp [List.lookup_cons, ih]

-- Later pairs win.
def ofList (words : List (UInt32 × Int32)) : Memory :=
  words.foldl (fun memory (address, value) => memory.write address value) empty

def toList (memory : Memory) : List (UInt32 × Int32) :=
  memory.words

def size (memory : Memory) : Nat :=
  memory.words.length

def isEmpty (memory : Memory) : Bool :=
  memory.words.isEmpty

end Memory

end FiveStage
