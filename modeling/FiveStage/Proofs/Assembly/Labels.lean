import FiveStage.Assembly.LabelTable
import Mathlib.Algebra.Group.Nat.Defs
import Mathlib.Data.List.Induction
import Mathlib.Data.List.Nodup

namespace FiveStage

-- What is found first stands in front of all else that could be found.
theorem eq_or_rel_of_find? {α : Type} {R : α → α → Prop} {p : α → Bool} {entries : List α}
    (h : entries.Pairwise R) {first : α} (hfirst : entries.find? p = some first) {other : α}
    (hother : other ∈ entries) (hp : p other) : other = first ∨ R first other := by
  obtain ⟨-, before, after, rfl, hbefore⟩ := List.find?_eq_some_iff_append.mp hfirst
  obtain ⟨-, hafter, -⟩ := List.pairwise_append.mp h
  cases List.mem_append.mp hother with
  | inl hmem =>
    have hnot := hbefore other hmem
    simp [hp] at hnot
  | inr hmem =>
    exact (List.mem_cons.mp hmem).imp_right ((List.pairwise_cons.mp hafter).1 other)

namespace SourceLine

@[simp] theorem number_ofRaw (number : Nat) (raw : String) :
    (ofRaw number raw).number = number := by
  unfold ofRaw
  dsimp only
  split <;> rfl

@[simp] theorem raw_ofRaw (number : Nat) (raw : String) : (ofRaw number raw).raw = raw := by
  unfold ofRaw
  dsimp only
  split <;> rfl

theorem ofText_ascending (text : String) :
    (ofText text).Pairwise fun a b => a.number < b.number := by
  rw [ofText, List.pairwise_iff_getElem]
  intro i j hi hj hlt
  simp only [List.getElem_mapIdx, number_ofRaw]
  omega

theorem numbers_nodup (text : String) : ((ofText text).map number).Nodup :=
  List.pairwise_map.mpr ((ofText_ascending text).imp Nat.ne_of_lt)

theorem eq_of_number_eq {text : String} {line other : SourceLine}
    (hline : line ∈ ofText text) (hother : other ∈ ofText text)
    (h : line.number = other.number) : line = other :=
  List.inj_on_of_nodup_map (numbers_nodup text) hline hother h

def slotsBefore (lines : List SourceLine) (number : Nat) : Nat :=
  lines.countP fun line => line.hasInstruction && line.number < number

theorem slotsBefore_le (lines : List SourceLine) (number : Nat) :
    slotsBefore lines number ≤ lines.countP hasInstruction :=
  List.countP_mono_left fun _ _ h => (Bool.and_eq_true .. ▸ h).1

-- The line whose definition of a label counts: the first one that defines it
-- if a label may not be defined again, and else the last.
def definition? (policy : Redefinition) (lines : List SourceLine) (name : String) :
    Option SourceLine :=
  match policy with
  | .refused => lines.find? fun line => line.definedLabel? = some name
  | .allowed => lines.reverse.find? fun line => line.definedLabel? = some name

section Append

variable {lines : List SourceLine} {last : SourceLine}

theorem slotsBefore_append_of_le {number : Nat} (h : number ≤ last.number) :
    slotsBefore (lines ++ [last]) number = slotsBefore lines number := by
  simp [slotsBefore, List.countP_append, Nat.not_lt.mpr h]

theorem slotsBefore_append_last (h : ∀ line ∈ lines, line.number < last.number) :
    slotsBefore (lines ++ [last]) last.number = lines.countP hasInstruction := by
  rw [slotsBefore_append_of_le (Nat.le_refl _), slotsBefore]
  refine List.countP_congr fun line hline => ?_
  simp [h line hline]

theorem definition?_append (policy : Redefinition) (name : String) :
    definition? policy (lines ++ [last]) name =
      if last.definedLabel? = some name then
        match policy with
        | .refused => (definition? policy lines name).or (some last)
        | .allowed => some last
      else definition? policy lines name := by
  cases policy with
  | refused =>
    simp only [definition?, List.find?_append, List.find?_singleton, decide_eq_true_eq]
    split <;> simp
  | allowed =>
    simp only [definition?, List.reverse_append, List.reverse_singleton, List.singleton_append,
      List.find?_cons]
    split <;> simp_all

theorem mem_of_definition? {policy : Redefinition} {name : String} {line : SourceLine}
    (h : definition? policy lines name = some line) : line ∈ lines := by
  cases policy with
  | refused => exact List.mem_of_find?_eq_some h
  | allowed => exact List.mem_reverse.mp (List.mem_of_find?_eq_some h)

end Append

-- The definition of a label that counts, among all the lines that define it:
-- no other one stands before it, or behind it if labels may be defined again.
structure IsDefinition (policy : Redefinition) (lines : List SourceLine) (name : String)
    (line : SourceLine) : Prop where
  mem : line ∈ lines
  label : line.definedLabel? = some name
  counts : ∀ other ∈ lines, other.definedLabel? = some name →
    match policy with
    | .refused => line.number ≤ other.number
    | .allowed => other.number ≤ line.number

theorem isDefinition_of_definition? {policy : Redefinition} {lines : List SourceLine}
    {name : String} {line : SourceLine} (h : lines.Pairwise fun a b => a.number < b.number)
    (hline : definition? policy lines name = some line) : IsDefinition policy lines name line := by
  refine ⟨mem_of_definition? hline, ?label, fun other hother hname => ?counts⟩
  case label =>
    cases policy <;>
    · have hname := List.find?_some hline
      exact of_decide_eq_true hname
  case counts =>
    cases policy with
    | refused =>
      cases eq_or_rel_of_find? h hline hother (decide_eq_true hname) with
      | inl he => exact Nat.le_of_eq (he ▸ rfl)
      | inr hlt => exact Nat.le_of_lt hlt
    | allowed =>
      have hmem := List.mem_reverse.mpr hother
      cases eq_or_rel_of_find? (List.pairwise_reverse.mpr h) hline hmem (decide_eq_true hname) with
      | inl he => exact Nat.le_of_eq (he ▸ rfl)
      | inr hlt => exact Nat.le_of_lt hlt

theorem definition?_eq_none_iff {policy : Redefinition} {lines : List SourceLine} {name : String} :
    definition? policy lines name = none ↔ ∀ line ∈ lines, line.definedLabel? ≠ some name := by
  cases policy <;> simp [definition?]

end SourceLine

namespace LabelTable

open SourceLine

theorem resolve_of_find? {table : LabelTable} {name : String} {entry : LabelDefinition}
    (h : table.find? name = some entry) :
    table.resolve name = "#" ++ toString entry.offset.toNat := by
  rw [resolve, offset?, h]
  rfl

theorem find?_define (policy : Redefinition) (line : SourceLine) (pass : Pass) (name : String) :
    (define policy line pass).table.find? name =
      if line.definedLabel? = some name then
        match policy with
        | .refused => (pass.table.find? name).or
            (some ⟨UInt32.ofNat (4 * pass.slots), line.number⟩)
        | .allowed => some ⟨UInt32.ofNat (4 * pass.slots), line.number⟩
      else pass.table.find? name := by
  unfold define
  cases hlabel : line.definedLabel? with
  | none => simp
  | some label =>
    by_cases hname : label = name
    · subst hname
      cases hfound : pass.table.find? label <;> cases policy <;>
        simp [hfound, find?_insert_self]
    · simp only [Option.some.injEq, hname, ↓reduceIte]
      cases pass.table.find? label <;> cases policy <;>
        simp [find?_insert_of_ne _ _ (Ne.symm hname)]

theorem slots_define (policy : Redefinition) (line : SourceLine) (pass : Pass) :
    (define policy line pass).slots = pass.slots := by
  unfold define
  split
  · rfl
  · dsimp only
    split <;> rfl

namespace Pass

theorem table_step (policy : Redefinition) (pass : Pass) (line : SourceLine) :
    (pass.step policy line).table = (define policy line pass).table := by
  unfold step
  dsimp only
  split <;> rfl

theorem slots_step (policy : Redefinition) (pass : Pass) (line : SourceLine) :
    (pass.step policy line).slots = pass.slots + if line.hasInstruction then 1 else 0 := by
  unfold step
  dsimp only
  split <;> simp [slots_define]

end Pass

-- Every line with an instruction takes a slot, whatever becomes of it later.
theorem slots_foldl_step (policy : Redefinition) (lines : List SourceLine) :
    (lines.foldl (Pass.step policy) {}).slots = lines.countP hasInstruction := by
  induction lines using List.reverseRecOn with
  | nil => rfl
  | append_singleton lines last ih =>
    rw [List.foldl_append, List.countP_append, List.foldl_cons, List.foldl_nil, Pass.slots_step, ih,
      List.countP_singleton]

-- The table knows a label by the definition that counts, and gives it the
-- address of the slot that is next there.
theorem find?_foldl_step (policy : Redefinition) {lines : List SourceLine}
    (h : lines.Pairwise fun a b => a.number < b.number) (name : String) :
    (lines.foldl (Pass.step policy) {}).table.find? name =
      (definition? policy lines name).map fun line =>
        ⟨UInt32.ofNat (4 * slotsBefore lines line.number), line.number⟩ := by
  induction lines using List.reverseRecOn with
  | nil => cases policy <;> rfl
  | append_singleton lines last ih =>
    obtain ⟨hlines, -, hlast⟩ := List.pairwise_append.mp h
    have hbefore : ∀ line ∈ lines, line.number < last.number := fun line hline =>
      hlast line hline last List.mem_cons_self
    have hstep : ((lines ++ [last]).foldl (Pass.step policy) {}).table =
        (define policy last (lines.foldl (Pass.step policy) {})).table := by
      rw [List.foldl_append, List.foldl_cons, List.foldl_nil, Pass.table_step]
    have hkeep : (definition? policy lines name).map (fun line =>
          (⟨UInt32.ofNat (4 * slotsBefore (lines ++ [last]) line.number), line.number⟩ :
            LabelDefinition)) =
        (definition? policy lines name).map fun line =>
          ⟨UInt32.ofNat (4 * slotsBefore lines line.number), line.number⟩ := by
      refine Option.map_congr fun line hline => ?_
      rw [slotsBefore_append_of_le (Nat.le_of_lt (hbefore line (mem_of_definition? hline)))]
    rw [hstep, find?_define, ih hlines, slots_foldl_step, definition?_append]
    split
    · cases policy with
      | refused =>
        rw [← hkeep]
        cases definition? .refused lines name with
        | none => simp only [Option.map_none, Option.none_or, Option.map_some,
            slotsBefore_append_last hbefore]
        | some line => rfl
      | allowed => simp only [Option.map_some, slotsBefore_append_last hbefore]
    · exact hkeep.symm

theorem find?_ofLines_ofText (policy : Redefinition) (text name : String) :
    (ofLines policy (ofText text)).1.find? name =
      (definition? policy (ofText text) name).map fun line =>
        ⟨UInt32.ofNat (4 * slotsBefore (ofText text) line.number), line.number⟩ :=
  find?_foldl_step policy (ofText_ascending text) name

section Offset

variable {policy : Redefinition} {text name : String} {entry : LabelDefinition}

-- A label's offset is the address of the slot where its definition stands. It
-- fits a word if there are not too many slots.
theorem toNat_offset (hslots : (ofText text).countP hasInstruction < 2 ^ 30)
    (h : (ofLines policy (ofText text)).1.find? name = some entry) :
    entry.offset.toNat = 4 * slotsBefore (ofText text) entry.line := by
  rw [find?_ofLines_ofText] at h
  obtain ⟨definition, -, rfl⟩ := Option.map_eq_some_iff.mp h
  have hle := slotsBefore_le (ofText text) definition.number
  exact UInt32.toNat_ofNat_of_lt (by rw [UInt32.size]; omega)

theorem toNat_offset_lt (hslots : (ofText text).countP hasInstruction < 2 ^ 29)
    (h : (ofLines policy (ofText text)).1.find? name = some entry) :
    entry.offset.toNat < 2 ^ 31 := by
  have hle := slotsBefore_le (ofText text) entry.line
  rw [toNat_offset (Nat.lt_trans hslots (by decide)) h]
  omega

end Offset

-- Labels are looked up before anything is read, whatever a token looks like.
theorem resolve_ofLines_ofText (policy : Redefinition) (text token : String) :
    (ofLines policy (ofText text)).1.resolve token =
      match definition? policy (ofText text) token with
      | some line =>
        "#" ++ toString (UInt32.ofNat (4 * slotsBefore (ofText text) line.number)).toNat
      | none => token := by
  rw [resolve, offset?, find?_ofLines_ofText]
  cases definition? policy (ofText text) token <;> rfl

end LabelTable

end FiveStage
