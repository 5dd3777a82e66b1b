import FiveStage.Proofs.Assembly.Labels

namespace FiveStage

namespace SourceLine

theorem definedLabel?_eq_some_iff {line : SourceLine} {name : String} :
    line.definedLabel? = some name ↔ name ≠ "" ∧ line.label = some name := by
  simp [definedLabel?, Option.filter_eq_some_iff, and_comm]

end SourceLine

namespace LabelTable

open SourceLine

def names (table : LabelTable) : List String :=
  table.entries.map Prod.fst

theorem mem_names_iff {table : LabelTable} {name : String} :
    name ∈ table.names ↔ ∃ entry, table.find? name = some entry := by
  rw [← Option.isSome_iff_exists, find?, List.lookup_isSome_iff, names, List.mem_map]
  simp only [beq_iff_eq, @eq_comm _ name]

theorem resolve_of_not_mem_names {table : LabelTable} {token : String}
    (h : token ∉ table.names) : table.resolve token = token := by
  have hnone : table.find? token = none := by
    rw [Option.eq_none_iff_forall_ne_some]
    exact fun entry hentry => h (mem_names_iff.mpr ⟨entry, hentry⟩)
  rw [resolve, offset?, hnone]
  rfl

-- The table knows the labels that the lines define and no others.
theorem mem_names_ofLines_ofText {policy : Redefinition} {text name : String} :
    name ∈ (ofLines policy (ofText text)).1.names ↔
      ∃ line ∈ ofText text, line.definedLabel? = some name := by
  rw [mem_names_iff, ← Option.ne_none_iff_exists', find?_ofLines_ofText, Ne, Option.map_eq_none_iff,
    definition?_eq_none_iff]
  simp

-- What a table of labels has to say of the lines of a program.
structure Tabulates (table : LabelTable) (policy : Redefinition) (lines : List SourceLine) :
    Prop where
  -- every label once, but for the empty one
  names_nodup : table.names.Nodup
  mem_names_iff : ∀ name, name ∈ table.names ↔ name ≠ "" ∧ ∃ line ∈ lines, line.label = some name
  -- the definition that counts, with the address of the slot that is next there
  defined : ∀ name ∈ table.names, ∃ definition entry,
    IsDefinition policy lines name definition ∧ table.find? name = some entry ∧
      entry.line = definition.number ∧
      entry.offset.toNat = 4 * slotsBefore lines definition.number ∧
      table.resolve name = "#" ++ toString (4 * slotsBefore lines definition.number)
  resolve_other : ∀ token ∉ table.names, table.resolve token = token

-- The label pass counts slots as it goes, and gives each label the number of
-- those in front of the line whose definition counts.
theorem ofLines_tabulates (policy : Redefinition) {text : String}
    (hslots : (ofText text).countP hasInstruction < 2 ^ 30) :
    (ofLines policy (ofText text)).1.Tabulates policy (ofText text) := by
  refine {
    names_nodup := (ofLines policy (ofText text)).1.distinct
    mem_names_iff := fun name => ?names
    defined := fun name hname => ?defined
    resolve_other := fun token => resolve_of_not_mem_names }
  case names =>
    simp only [mem_names_ofLines_ofText, definedLabel?_eq_some_iff]
    constructor
    · rintro ⟨line, hline, hne, hlabel⟩
      exact ⟨hne, line, hline, hlabel⟩
    · rintro ⟨hne, line, hline, hlabel⟩
      exact ⟨line, hline, hne, hlabel⟩
  case defined =>
    obtain ⟨entry, hfound⟩ := LabelTable.mem_names_iff.mp hname
    have hoffset := toNat_offset hslots hfound
    have hentry := hfound
    rw [find?_ofLines_ofText] at hentry
    obtain ⟨definition, hdefinition, rfl⟩ := Option.map_eq_some_iff.mp hentry
    refine ⟨definition, _, isDefinition_of_definition? (ofText_ascending text) hdefinition, hfound,
      rfl, hoffset, ?_⟩
    rw [resolve_of_find? hfound, hoffset]

-- Labels that are defined again, empty, or in front of a line that fails.
private def relabelled : String :=
  "a: MOV R0, #1\nb:\n : FROB\na: B a @ b:\nb"

theorem ofLines_tabulates_relabelled :
    (ofText relabelled).countP hasInstruction < 2 ^ 30 ∧
      (ofLines .refused (ofText relabelled)).1.find? "a" = some ⟨0, 1⟩ ∧
      (ofLines .allowed (ofText relabelled)).1.find? "a" = some ⟨8, 4⟩ ∧
      ∀ policy, (ofLines policy (ofText relabelled)).1.Tabulates policy (ofText relabelled) := by
  have hslots : (ofText relabelled).countP hasInstruction < 2 ^ 30 := by decide +kernel
  exact ⟨hslots, by decide +kernel, by decide +kernel,
    fun policy => ofLines_tabulates policy hslots⟩

end LabelTable

end FiveStage
