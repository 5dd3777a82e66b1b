import FiveStage.Assembly.Diagnostic

namespace FiveStage

structure LabelDefinition where
  -- the byte address of the next instruction slot
  offset : UInt32
  line : Nat
  deriving DecidableEq

-- The labels of a program with their definitions, in no particular order.
structure LabelTable where
  entries : List (String × LabelDefinition) := []
  distinct : (entries.map Prod.fst).Nodup := by exact List.nodup_nil

-- Whether a label that is already defined may be defined again. The later
-- definition is then the one that counts.
inductive Redefinition
  | refused | allowed
  deriving DecidableEq

namespace LabelTable

def find? (table : LabelTable) (name : String) : Option LabelDefinition :=
  table.entries.lookup name

-- The entries with another one, which replaces an entry of the same name.
def insertEntry (name : String) (definition : LabelDefinition)
    (entries : List (String × LabelDefinition)) : List (String × LabelDefinition) :=
  (name, definition) :: entries.filter fun entry => entry.1 ≠ name

theorem insertEntry_distinct (name : String) (definition : LabelDefinition)
    {entries : List (String × LabelDefinition)} (h : (entries.map Prod.fst).Nodup) :
    ((insertEntry name definition entries).map Prod.fst).Nodup := by
  rw [insertEntry, List.map_cons, List.nodup_cons]
  constructor
  · intro hmem
    obtain ⟨entry, hentry, hname⟩ := List.mem_map.mp hmem
    exact absurd hname (by simpa using (List.mem_filter.mp hentry).2)
  · exact h.sublist (List.filter_sublist.map Prod.fst)

def insert (table : LabelTable) (name : String) (definition : LabelDefinition) : LabelTable where
  entries := insertEntry name definition table.entries
  distinct := insertEntry_distinct name definition table.distinct

theorem find?_insert_self (table : LabelTable) (name : String) (definition : LabelDefinition) :
    (table.insert name definition).find? name = some definition := by
  simp [insert, insertEntry, find?]

theorem find?_insert_of_ne (table : LabelTable) {name other : String}
    (definition : LabelDefinition) (h : other ≠ name) :
    (table.insert name definition).find? other = table.find? other := by
  have hne : (other == name) = false := by simpa using h
  simp only [insert, insertEntry, find?, List.lookup_cons, hne]
  induction table.entries with
  | nil => rfl
  | cons entry rest ih =>
    obtain ⟨key, value⟩ := entry
    by_cases hk : key = name
    · subst hk
      simpa [List.lookup_cons, hne] using ih
    · have hf : (decide ((key, value).1 ≠ name)) = true := by simpa using hk
      rw [List.filter_cons, if_pos hf, List.lookup_cons, List.lookup_cons, ih]

-- What the label pass has seen of a program so far.
structure Pass where
  table : LabelTable := {}
  -- newest first
  diagnostics : List Diagnostic := []
  -- the number of instruction slots
  slots : Nat := 0

def define (policy : Redefinition) (line : SourceLine) (pass : Pass) : Pass :=
  match line.definedLabel? with
  | none => pass
  | some name =>
    let definition : LabelDefinition := ⟨UInt32.ofNat (4 * pass.slots), line.number⟩
    match pass.table.find? name, policy with
    | none, _ | some _, .allowed => { pass with table := pass.table.insert name definition }
    | some first, .refused =>
      let diagnostic := Diagnostic.on line (.duplicateLabel name first.line)
      { pass with diagnostics := diagnostic :: pass.diagnostics }

def Pass.step (policy : Redefinition) (pass : Pass) (line : SourceLine) : Pass :=
  let pass := define policy line pass
  if line.hasInstruction then { pass with slots := pass.slots + 1 } else pass

-- The labels of a program, and a diagnostic for every refused definition.
def ofLines (policy : Redefinition) (lines : List SourceLine) : LabelTable × List Diagnostic :=
  let pass := lines.foldl (Pass.step policy) {}
  (pass.table, pass.diagnostics.reverse)

def offset? (table : LabelTable) (name : String) : Option UInt32 :=
  (table.find? name).map (·.offset)

-- The literal that a token stands for: a label's offset, and any other token
-- as it is.
def resolve (table : LabelTable) (token : String) : String :=
  match table.offset? token with
  | some offset => "#" ++ toString offset.toNat
  | none => token

def size (table : LabelTable) : Nat :=
  table.entries.length

def isEmpty (table : LabelTable) : Bool :=
  table.entries.isEmpty

-- The labels by name, in code point order.
def toList (table : LabelTable) : List (String × LabelDefinition) :=
  table.entries.mergeSort fun a b => a.1 ≤ b.1

end LabelTable

end FiveStage
