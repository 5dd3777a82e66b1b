import FiveStage.Token
import Mathlib.Algebra.Group.Nat.Defs

namespace FiveStage

namespace Numeral

theorem digitValue?_of_isDigit {c : Char} (h : c.isDigit) :
    digitValue? 10 c = some (c.toNat - '0'.toNat) := by
  have hrange : '0' ≤ c ∧ c ≤ '9' := by
    simpa [Char.isDigit, Char.le_def] using h
  have hvalue : c.toNat - '0'.toNat < 10 := by
    have h9 : c.toNat ≤ '9'.toNat := hrange.2
    have : '9'.toNat = 57 := rfl
    have : '0'.toNat = 48 := rfl
    omega
  simp only [digitValue?, hrange, and_self, ↓reduceIte, Option.filter_some, decide_eq_true_eq,
    hvalue]

theorem isDigit_of_mem_toDigits {n : Nat} {c : Char} (h : c ∈ Nat.toDigits 10 n) : c.isDigit :=
  Nat.isDigit_of_mem_toDigits (by decide) (by decide) h

theorem foldlM_shiftIn? {digits : List Char} (h : ∀ c ∈ digits, c.isDigit) (value : Nat) :
    digits.foldlM (shiftIn? 10) value = some (Nat.ofDigitChars 10 digits value) := by
  induction digits generalizing value with
  | nil => rfl
  | cons c rest ih =>
    have hc := digitValue?_of_isDigit (h c List.mem_cons_self)
    rw [List.foldlM_cons, Nat.ofDigitChars_cons]
    simp only [shiftIn?, hc, Option.map_some]
    exact ih (fun d hd => h d (List.mem_cons_of_mem _ hd)) _

theorem ofDigits?_toDigits (n : Nat) : ofDigits? 10 (Nat.toDigits 10 n) = some n := by
  rw [ofDigits?, List.isEmpty_eq_false_iff.mpr Nat.toDigits_ne_nil, if_neg Bool.false_ne_true,
    foldlM_shiftIn? fun _ => isDigit_of_mem_toDigits, Nat.ofDigitChars_ten_toDigits]

-- A number other than zero is written without leading zeros.
theorem head?_toDigits_of_pos {n : Nat} (h : 0 < n) :
    (Nat.toDigits 10 n).head? ≠ some '0' := by
  have hdigit : ∀ d < 10, 0 < d → some (Nat.digitChar d) ≠ some '0' := by decide
  induction n using Nat.strongRecOn with
  | ind n ih =>
    rw [Nat.toDigits_eq_if (by decide)]
    split
    · next hlt => exact hdigit n hlt h
    · rw [List.head?_append, Option.or_of_isSome (List.isSome_head?.mpr Nat.toDigits_ne_nil)]
      exact ih (n / 10) (by omega) (by omega)

end Numeral

namespace Token

-- Decimal digits are no sign and do not start a hexadecimal number.
theorem unsigned?_of_isDigit {digits : List Char} (h : ∀ c ∈ digits, c.isDigit) :
    unsigned? digits = (Numeral.ofDigits? 10 digits).map Int.ofNat := by
  unfold unsigned?
  split
  · exact absurd (h '-' List.mem_cons_self) (by decide)
  · exact absurd (h '+' List.mem_cons_self) (by decide)
  · exact absurd (h 'x' (by simp)) (by decide)
  · exact absurd (h 'X' (by simp)) (by decide)
  · rfl

theorem literal?_of_isDigit {digits : List Char} (h : ∀ c ∈ digits, c.isDigit) :
    literal? digits = (Numeral.ofDigits? 10 digits).map Int.ofNat := by
  unfold literal?
  split
  · exact absurd (h '-' List.mem_cons_self) (by decide)
  · exact unsigned?_of_isDigit h

theorem ofInt_toNat (word : UInt32) : Int32.ofInt word.toNat = word.toInt32 := by
  rw [Int32.ofInt_eq_ofNat]
  exact Int32.toBitVec.inj (by simp)

theorem toInt_toInt32 {word : UInt32} (h : word.toNat < 2 ^ 31) :
    word.toInt32.toInt = word.toNat := by
  change word.toBitVec.toInt = _
  rw [BitVec.toInt_eq_toNat_of_lt (by rw [UInt32.toNat_toBitVec]; omega)]
  rfl

-- A word written in decimal behind the marker reads back as the same bits.
theorem immediate_marked (word : UInt32) :
    immediate ("#" ++ toString word.toNat) = .ok word.toInt32 := by
  have hlist : ("#" ++ toString word.toNat).toList = '#' :: Nat.toDigits 10 word.toNat := by
    simp [Nat.toList_repr]
  have hliteral : literal? (Nat.toDigits 10 word.toNat) = some (word.toNat : Int) := by
    rw [literal?_of_isDigit fun _ => Numeral.isDigit_of_mem_toDigits, Numeral.ofDigits?_toDigits]
    rfl
  have hfits : fitsWord word.toNat = true := by
    have hmin : Int32.minValue.toInt = -2147483648 := rfl
    have hmax := word.toNat_lt_size
    simp only [fitsWord, hmin, Bool.and_eq_true, decide_eq_true_eq]
    omega
  simp only [immediate, hlist, hliteral, Option.filter_some, hfits, ↓reduceIte, ofInt_toNat]

-- So does an instruction address in the position of a branch target.
theorem branchTarget_marked {word : UInt32} (h : word.toNat < 2 ^ 31)
    (haligned : word.toNat % 4 = 0) :
    branchTarget ("#" ++ toString word.toNat) = .ok word.toInt32 := by
  have htoInt := toInt_toInt32 h
  have hsign : ¬word.toInt32 < 0 := by
    rw [Int32.lt_iff_toInt_lt, htoInt]
    exact Int.not_lt.mpr (Int.natCast_nonneg _)
  have hword : ¬word.toInt32.toInt % 4 ≠ 0 := by
    rw [htoInt]
    omega
  rw [branchTarget, immediate_marked]
  simp only [bind, Except.bind, hsign, hword, or_self, ↓reduceIte]
  rfl

end Token

end FiveStage
