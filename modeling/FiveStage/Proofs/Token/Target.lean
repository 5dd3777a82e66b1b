import FiveStage.Proofs.Except
import FiveStage.Proofs.Token.Denotation

namespace FiveStage

namespace Token

-- A number that fits a word shows as itself or, from the sign bit on, as a
-- negative number.
theorem toInt_ofInt_of_fitsWord {v : Int} (h : fitsWord v) :
    (Int32.ofInt v).toInt = if v < 2 ^ 31 then v else v - 2 ^ 32 := by
  obtain ⟨hlow, hhigh⟩ := fitsWord_iff.mp h
  have hmod := toInt_ofInt_emod v
  have hmin := (Int32.ofInt v).le_toInt
  have hmax := (Int32.ofInt v).toInt_lt
  split <;> omega

theorem toNat_toUInt32_of_nonneg {value : Int32} (h : 0 ≤ value.toInt) :
    (value.toUInt32.toNat : Int) = value.toInt := by
  have hsign : 0 ≤ value := Int32.le_iff_toInt_le.mpr h
  have hword : value.toUInt32.toNat = value.toInt.toNat := Int32.toNat_toUInt32_of_le hsign
  rw [hword, Int.toNat_of_nonneg h]

section Target

variable {token : String} {value : Int32}

theorem branchTarget_of_immediate (h : immediate token = .ok value) :
    branchTarget token =
      if 0 ≤ value.toInt ∧ 4 ∣ value.toInt then .ok value
      else .error (.misalignedTarget value.toInt) := by
  have hbad : (value < 0 ∨ value.toInt % 4 ≠ 0) ↔ ¬(0 ≤ value.toInt ∧ 4 ∣ value.toInt) := by
    rw [not_and_or, Int.not_le, Int.dvd_iff_emod_eq_zero, Int32.lt_iff_toInt_lt]
    rfl
  rw [branchTarget, h]
  simp only [bind, Except.bind, hbad]
  by_cases hgood : 0 ≤ value.toInt ∧ 4 ∣ value.toInt
  · rw [if_neg (not_not_intro hgood), if_pos hgood]
    rfl
  · rw [if_pos hgood, if_neg hgood]
    rfl

theorem branchTarget_eq_ok :
    branchTarget token = .ok value ↔
      immediate token = .ok value ∧ 0 ≤ value.toInt ∧ 4 ∣ value.toInt := by
  constructor
  · intro h
    obtain ⟨target, htarget, -⟩ := bind_eq_ok.mp h
    rw [branchTarget_of_immediate htarget] at h
    split at h
    · next hgood =>
      cases h
      exact ⟨htarget, hgood⟩
    · contradiction
  · rintro ⟨htarget, hgood⟩
    rw [branchTarget_of_immediate htarget, if_pos hgood]

end Target

-- A branch target that is accepted just when the number written is the
-- address of an instruction, and that is reported with this number otherwise.
def JudgedAsWritten (token : String) (v : Int) : Prop :=
  if 0 ≤ v ∧ 4 ∣ v then
    ∃ target, branchTarget token = .ok target ∧ (target.toUInt32.toNat : Int) = v
  else branchTarget token = .error (.misalignedTarget v)

-- Targets are judged as signed words. In the lower half of the address range
-- this makes no difference; in the upper half every target is refused, under a
-- negative number that is not the one written.
theorem judgedAsWritten_iff {token : String} {v : Int}
    (hwritten : Signed Magnitude (unmarked token) v) (hword : -2 ^ 31 ≤ v ∧ v < 2 ^ 32) :
    (JudgedAsWritten token v ↔ v < 2 ^ 31) ∧
      (2 ^ 31 ≤ v → branchTarget token = .error (.misalignedTarget (v - 2 ^ 32))) := by
  have hfits := fitsWord_iff.mpr hword
  have hread := immediate_of_literal? (literal?_eq_some_iff.mpr (.inl hwritten))
  rw [if_pos hfits] at hread
  have htarget := branchTarget_of_immediate hread
  have hvalue := toInt_ofInt_of_fitsWord hfits
  have hupper (hv : 2 ^ 31 ≤ v) :
      branchTarget token = .error (.misalignedTarget (v - 2 ^ 32)) := by
    rw [if_neg (Int.not_lt.mpr hv)] at hvalue
    rw [htarget, hvalue, if_neg (by omega)]
  refine ⟨⟨fun hjudged => ?_, fun hv => ?_⟩, hupper⟩
  · by_contra hv
    have hrefused := hupper (Int.not_lt.mp hv)
    unfold JudgedAsWritten at hjudged
    split at hjudged
    · obtain ⟨target, htaken, -⟩ := hjudged
      rw [hrefused] at htaken
      contradiction
    · rw [hrefused, Except.error.injEq, Defect.misalignedTarget.injEq] at hjudged
      omega
  · rw [if_pos hv] at hvalue
    unfold JudgedAsWritten
    rw [htarget, hvalue]
    split
    · next hgood =>
      have haddress := toNat_toUInt32_of_nonneg (hvalue ▸ hgood.1)
      exact ⟨_, rfl, haddress.trans hvalue⟩
    · rfl

private theorem written_hexadecimal (digits : String) (n : Nat)
    (h : Numeral.ofDigits? 16 digits.toList = some n) :
    Signed Magnitude (unmarked ("#0x" ++ digits)) n := by
  have hunmarked : unmarked ("#0x" ++ digits) = '0' :: 'x' :: digits.toList := by
    simp [unmarked]
  rw [hunmarked]
  exact .plain (.hexadecimal (.inl rfl) ((Numeral.ofDigits?_eq_some_iff (Nat.le_refl 16)).mp h))

-- The last address of the lower half and the last one of all.
theorem judgedAsWritten_iff_last :
    JudgedAsWritten "#0x7FFFFFFC" 0x7FFFFFFC ∧
      branchTarget "#0xFFFFFFFC" = .error (.misalignedTarget (-4)) := by
  have hlower := written_hexadecimal "7FFFFFFC" 0x7FFFFFFC (by decide)
  have hupper := written_hexadecimal "FFFFFFFC" 0xFFFFFFFC (by decide)
  exact ⟨(judgedAsWritten_iff hlower (by decide)).1.mpr (by decide),
    (judgedAsWritten_iff hupper (by decide)).2 (by decide)⟩

-- The first address of the upper half is not taken, though it is a multiple of
-- four and not negative.
theorem not_judgedAsWritten_upper_half :
    ¬∀ (token : String) (v : Int), Signed Magnitude (unmarked token) v →
      -2 ^ 31 ≤ v ∧ v < 2 ^ 32 → JudgedAsWritten token v := by
  intro hjudged
  have hwritten := written_hexadecimal "80000000" 0x80000000 (by decide)
  have hupper := hjudged "#0x80000000" 0x80000000 hwritten (by decide)
  rw [JudgedAsWritten, if_pos (by decide)] at hupper
  obtain ⟨target, htaken, -⟩ := hupper
  contradiction

end Token

end FiveStage
