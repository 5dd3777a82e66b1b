import FiveStage.Proofs.Assembly.Labels
import FiveStage.Proofs.Token.Literal

namespace FiveStage

namespace LabelTable

open SourceLine

-- Slots are four bytes apart, also where their addresses wrap around.
theorem offset_aligned {policy : Redefinition} {lines : List SourceLine} {name : String}
    {entry : LabelDefinition} (h : (ofLines policy lines).1.find? name = some entry) :
    entry.offset.toNat % 4 = 0 := by
  have hslot (slots line : Nat) {entry : LabelDefinition}
      (he : ⟨UInt32.ofNat (4 * slots), line⟩ = entry) : entry.offset.toNat % 4 = 0 := by
    subst he
    rw [UInt32.toNat_ofNat']
    omega
  rw [ofLines] at h
  induction lines using List.reverseRecOn generalizing entry with
  | nil => contradiction
  | append_singleton lines last ih =>
    rw [List.foldl_append, List.foldl_cons, List.foldl_nil, Pass.table_step, find?_define] at h
    split at h
    · cases policy with
      | refused =>
        cases hfound : (lines.foldl (Pass.step .refused) {}).table.find? name with
        | none =>
          rw [hfound, Option.none_or] at h
          exact hslot _ _ (Option.some.inj h)
        | some first =>
          rw [hfound, Option.some_or] at h
          exact ih (hfound.trans h)
      | allowed => exact hslot _ _ (Option.some.inj h)
    · exact ih h

end LabelTable

namespace Token

section Written

variable {token : String} {v : Int}

-- What is written as a literal is not taken for a label.
theorem immediate_of_literal? (h : literal? (unmarked token) = some v) :
    immediate token =
      if fitsWord v then .ok (Int32.ofInt v) else .error (.invalidImmediate token) := by
  have hplain : ¬(token.toList.head? ≠ some '#' ∧ isLabelShaped token) := by
    rintro ⟨hhead, hlabel⟩
    rw [unmarked_of_head? hhead, literal?_of_isLabelShaped hlabel] at h
    contradiction
  rw [immediate_eq, if_neg hplain, h, Option.filter_some]
  cases fitsWord v <;> rfl

theorem toInt_ofInt_emod (v : Int) : (Int32.ofInt v).toInt % 2 ^ 32 = v % 2 ^ 32 := by
  rw [Int32.toInt_ofInt]
  exact Int.bmod_emod

end Written

-- A number is read as the word that shows it if there is one, however many
-- digits it is written with, and a label's offset is read back from what is
-- put in the label's place.
theorem immediate_of_written :
    (∀ token v, Signed Magnitude (unmarked token) v →
      if -2 ^ 31 ≤ v ∧ v < 2 ^ 32 then
        ∃ value, immediate token = .ok value ∧ value.toInt % 2 ^ 32 = v % 2 ^ 32
      else immediate token = .error (.invalidImmediate token)) ∧
      ∀ policy lines name entry,
        (LabelTable.ofLines policy lines).1.find? name = some entry →
        let token := (LabelTable.ofLines policy lines).1.resolve name
        immediate token = .ok entry.offset.toInt32 ∧
          (entry.offset.toNat < 2 ^ 31 →
            ∃ target, branchTarget token = .ok target ∧ target.toInt = entry.offset.toNat) := by
  constructor
  · intro token v hwritten
    have hread := immediate_of_literal? (literal?_eq_some_iff.mpr (.inl hwritten))
    split
    · next hfits =>
      rw [if_pos (fitsWord_iff.mpr hfits)] at hread
      exact ⟨_, hread, toInt_ofInt_emod v⟩
    · next hfits => rwa [if_neg fun hword => hfits (fitsWord_iff.mp hword)] at hread
  · intro policy lines name entry hentry token
    have htoken : token = "#" ++ toString entry.offset.toNat := LabelTable.resolve_of_find? hentry
    rw [htoken]
    refine ⟨immediate_marked entry.offset, fun hlt => ?_⟩
    exact ⟨_, branchTarget_marked hlt (LabelTable.offset_aligned hentry), toInt_toInt32 hlt⟩

private def ending : List SourceLine :=
  [.ofRaw 1 "MOV R0, #1", .ofRaw 2 "end:"]

-- The lowest number there is, one that is too high, and a label.
theorem immediate_of_written_lowest :
    (∃ value, immediate "-0X0080000000" = .ok value ∧ value.toInt % 2 ^ 32 = 2 ^ 31) ∧
      immediate "#04294967296" = .error (.invalidImmediate "#04294967296") ∧
      ∃ target, branchTarget ((LabelTable.ofLines .refused ending).1.resolve "end") = .ok target ∧
        target.toInt = 4 := by
  obtain ⟨hwritten, hlabels⟩ := immediate_of_written
  have hlowest : Signed Magnitude (unmarked "-0X0080000000") (-2 ^ 31) := by
    refine .negated (.hexadecimal (n := 2 ^ 31) (.inr rfl) ?_)
    exact (Numeral.ofDigits?_eq_some_iff (Nat.le_refl 16)).mp (by decide)
  have hhigh : Signed Magnitude (unmarked "#04294967296") (2 ^ 32) := by
    refine .plain (.decimal (n := 2 ^ 32) ?_)
    exact (Numeral.ofDigits?_eq_some_iff (by decide)).mp (by decide)
  have hentry : (LabelTable.ofLines .refused ending).1.find? "end" = some ⟨4, 2⟩ := by
    decide +kernel
  refine ⟨?_, ?_, (hlabels _ _ _ _ hentry).2 (by decide)⟩
  · have hread := hwritten _ _ hlowest
    rwa [if_pos (by decide)] at hread
  · have hread := hwritten _ _ hhigh
    rwa [if_neg (by decide)] at hread

end Token

end FiveStage
