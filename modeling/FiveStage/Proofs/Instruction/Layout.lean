import FiveStage.Instruction.Encoding
import Mathlib.Data.Nat.Bitwise

namespace FiveStage.Encoding

-- The low `width` bits of a number, highest first.
def field (width n : Nat) : List Char :=
  (List.range width).map fun i => if n.testBit (width - 1 - i) then '1' else '0'

@[simp] theorem length_field (width n : Nat) : (field width n).length = width := by
  simp [field]

section Field

variable {c : Char} {width n : Nat}

theorem mem_field (h : c ∈ field width n) : c = '0' ∨ c = '1' := by
  obtain ⟨i, -, rfl⟩ := List.mem_map.mp h
  split
  · exact .inr rfl
  · exact .inl rfl

-- Two numbers in one word, of which the lower one stays below the upper one.
theorem field_append {low : Nat} (front high : Nat) (h : low < 2 ^ width) :
    field (front + width) (high <<< width ||| low) = field front high ++ field width low := by
  have hupper : ∀ i ∈ List.range front,
      (high <<< width ||| low).testBit (front + width - 1 - i) =
        high.testBit (front - 1 - i) := by
    intro i hi
    have hlt := List.mem_range.mp hi
    have hbit : front + width - 1 - i = width + (front - 1 - i) := by omega
    have hpow : low < 2 ^ (width + (front - 1 - i)) :=
      Nat.lt_of_lt_of_le h (Nat.pow_le_pow_right (by decide) (Nat.le_add_right ..))
    rw [hbit, Nat.testBit_or, Nat.testBit_shiftLeft, Nat.testBit_lt_two_pow hpow]
    simp
  have hlower : ∀ i ∈ List.range width,
      (high <<< width ||| low).testBit (front + width - 1 - (front + i)) =
        low.testBit (width - 1 - i) := by
    intro i hi
    have hlt := List.mem_range.mp hi
    have hbit : front + width - 1 - (front + i) = width - 1 - i := by omega
    have hbelow : ¬width ≤ width - 1 - i := by omega
    rw [hbit, Nat.testBit_or, Nat.testBit_shiftLeft]
    simp [hbelow]
  rw [field, List.range_add, List.map_append, List.map_map]
  refine congrArg₂ (· ++ ·) (List.map_congr_left fun i hi => ?_)
    (List.map_congr_left fun i hi => ?_)
  · rw [hupper i hi]
  · rw [Function.comp_apply, hlower i hi]

-- The last digit of a field, behind those of half the number.
theorem field_succ (width n : Nat) :
    field (width + 1) n = field width (n / 2) ++ [Nat.digitChar (n % 2)] := by
  have hlt : n % 2 < 2 ^ 1 := Nat.mod_lt n (by decide)
  have hsplit : (n / 2) <<< 1 ||| n % 2 = n := by
    rw [← Nat.shiftLeft_add_eq_or_of_lt hlt, Nat.shiftLeft_eq]
    omega
  have hlast : field 1 (n % 2) = [Nat.digitChar (n % 2)] := by
    rcases Nat.mod_two_eq_zero_or_one n with h | h <;> rw [h] <;> rfl
  rw [← hlast, ← field_append width (n / 2) hlt, hsplit]

-- A number whose digits are filled up with zeros is its field.
theorem leftpad_toDigits {width n : Nat} (h : n < 2 ^ (width + 1)) :
    (Nat.toDigits 2 n).leftpad (width + 1) '0' = field (width + 1) n := by
  induction width generalizing n with
  | zero =>
    have hcases : n = 0 ∨ n = 1 := by omega
    rcases hcases with rfl | rfl <;> rfl
  | succ width ih =>
    have hhalf : n / 2 < 2 ^ (width + 1) := by
      rw [Nat.pow_succ] at h
      omega
    rw [field_succ, ← ih hhalf, Nat.toDigits_eq_if (by decide : 1 < 2)]
    split
    · next hlt =>
      rw [Nat.div_eq_of_lt hlt, Nat.mod_eq_of_lt hlt, Nat.toDigits_zero]
      simp [List.leftpad, ← List.replicate_succ']
    · simp [List.leftpad]

end Field

-- The word of an instruction other than a branch, by its fields.
def dataWord (opcode marker destination source second : Nat) : List Char :=
  field 4 always.toNat ++ field 4 opcode ++ field 1 marker ++ field 4 destination ++
    field 4 source ++ field 15 second

def branchWord (opcode target : Nat) : List Char :=
  field 4 always.toNat ++ field 4 opcode ++ field 24 target

section Words

theorem digits_eq_field (word : UInt32) : digits word = field 32 word.toNat :=
  leftpad_toDigits word.toNat_lt

-- No bit is lost where a word has room for the number.
theorem toNat_shiftLeft {x places : UInt32} {width : Nat} (h : x.toNat < 2 ^ width)
    (hroom : width + places.toNat ≤ 32) (hplaces : places.toNat < 32) :
    (x <<< places).toNat = x.toNat <<< places.toNat := by
  have hlt : x.toNat <<< places.toNat < 2 ^ 32 :=
    Nat.lt_of_lt_of_le (Nat.shiftLeft_lt h) (Nat.pow_le_pow_right (by decide) hroom)
  rw [UInt32.toNat_shiftLeft, Nat.mod_eq_of_lt hplaces, Nat.mod_eq_of_lt hlt]

variable {opcode marker destination source second target : UInt32}

theorem digits_branch (hopcode : opcode.toNat < 2 ^ 4) (htarget : target.toNat < 2 ^ 24) :
    digits (always <<< 28 ||| opcode <<< 24 ||| target) =
      branchWord opcode.toNat target.toNat := by
  have hcondition : (always <<< 28).toNat = always.toNat <<< 28 := rfl
  have hshifted : (opcode <<< 24).toNat = opcode.toNat <<< 24 :=
    toNat_shiftLeft hopcode (by decide) (by decide)
  have hword : (always <<< 28 ||| opcode <<< 24 ||| target).toNat =
      (always.toNat <<< 4 ||| opcode.toNat) <<< 24 ||| target.toNat := by
    simp only [UInt32.toNat_or, hcondition, hshifted, Nat.shiftLeft_or_distrib,
      ← Nat.shiftLeft_add, Nat.reduceAdd]
  rw [digits_eq_field, hword, field_append 8 _ htarget, field_append 4 _ hopcode, branchWord]

theorem digits_data (hopcode : opcode.toNat < 2 ^ 4) (hmarker : marker.toNat < 2 ^ 1)
    (hdestination : destination.toNat < 2 ^ 4) (hsource : source.toNat < 2 ^ 4)
    (hsecond : second.toNat < 2 ^ 15) :
    digits (always <<< 28 ||| opcode <<< 24 ||| marker <<< 23 ||| destination <<< 19 |||
        source <<< 15 ||| second) =
      dataWord opcode.toNat marker.toNat destination.toNat source.toNat second.toNat := by
  have hcondition : (always <<< 28).toNat = always.toNat <<< 28 := rfl
  have hshifted : (opcode <<< 24).toNat = opcode.toNat <<< 24 ∧
      (marker <<< 23).toNat = marker.toNat <<< 23 ∧
      (destination <<< 19).toNat = destination.toNat <<< 19 ∧
      (source <<< 15).toNat = source.toNat <<< 15 :=
    ⟨toNat_shiftLeft hopcode (by decide) (by decide),
      toNat_shiftLeft hmarker (by decide) (by decide),
      toNat_shiftLeft hdestination (by decide) (by decide),
      toNat_shiftLeft hsource (by decide) (by decide)⟩
  have hword : (always <<< 28 ||| opcode <<< 24 ||| marker <<< 23 ||| destination <<< 19 |||
      source <<< 15 ||| second).toNat =
        ((((always.toNat <<< 4 ||| opcode.toNat) <<< 1 ||| marker.toNat) <<< 4 |||
          destination.toNat) <<< 4 ||| source.toNat) <<< 15 ||| second.toNat := by
    simp only [UInt32.toNat_or, hcondition, hshifted, Nat.shiftLeft_or_distrib,
      ← Nat.shiftLeft_add, Nat.reduceAdd]
  rw [digits_eq_field, hword, field_append 17 _ hsecond, field_append 13 _ hsource,
    field_append 9 _ hdestination, field_append 8 _ hmarker, field_append 4 _ hopcode, dataWord]

end Words

section Numbers

variable (token : Option String)

theorem registerIndex_lt (r : Register) : r.index.val < 2 ^ 4 :=
  Nat.lt_trans r.index.isLt (by decide)

theorem toNat_register (r : Register) : (UInt32.ofNat r.index.val).toNat = r.index.val := by
  have hindex : r.index.val < UInt32.size := Nat.lt_trans r.index.isLt (by decide)
  exact UInt32.toNat_ofNat_of_lt hindex

theorem toNat_index (op : Opcode) : (UInt32.ofNat op.index).toNat = op.index := by
  cases op <;> rfl

theorem index_lt (op : Opcode) : op.index < 2 ^ 4 := by
  cases op <;> decide

-- A mask of ones keeps the low bits.
theorem toNat_and_mask {value mask : UInt32} (width : Nat) (h : mask.toNat = 2 ^ width - 1) :
    (value &&& mask).toNat = value.toNat % 2 ^ width := by
  rw [UInt32.toNat_and, h, Nat.and_two_pow_sub_one_eq_mod]

theorem registerNumber_lt : (registerNumber token).toNat < 2 ^ 4 := by
  unfold registerNumber
  split
  · next r _ =>
    rw [toNat_register]
    exact registerIndex_lt r
  · decide

theorem secondOperand_lt :
    (secondOperand token).1.toNat < 2 ^ 1 ∧ (secondOperand token).2.toNat < 2 ^ 15 := by
  unfold secondOperand
  split
  · next r _ =>
    rw [toNat_register]
    exact ⟨Nat.zero_lt_succ 1, Nat.lt_trans (registerIndex_lt r) (by decide)⟩
  · rw [toNat_and_mask 15 rfl]
    exact ⟨Nat.one_lt_two, Nat.mod_lt _ (by decide)⟩
  · decide

theorem target_lt : (target token).toNat < 2 ^ 24 := by
  unfold target
  split
  · rw [toNat_and_mask 24 rfl]
    exact Nat.mod_lt _ (by decide)
  · decide

end Numbers

-- The fields of the word shown for an instruction.
def layout (op : Opcode) (operands : List String) : List Char :=
  match op.family with
  | .branch => branchWord op.index (target operands[0]?).toNat
  | .arithmetic =>
    dataWord op.index (secondOperand operands[2]?).1.toNat (registerNumber operands[0]?).toNat
      (registerNumber operands[1]?).toNat (secondOperand operands[2]?).2.toNat
  | .moveCompare =>
    dataWord op.index (secondOperand operands[1]?).1.toNat (registerNumber operands[0]?).toNat 0
      (secondOperand operands[1]?).2.toNat
  | .loadStore =>
    dataWord op.index 0 (registerNumber operands[0]?).toNat (registerNumber operands[1]?).toNat 0

-- The digits of the word are those of its fields side by side.
theorem bits_eq_layout (op : Opcode) (operands : List String) :
    bits op operands = layout op operands := by
  have hopcode : (UInt32.ofNat op.index).toNat < 2 ^ 4 := (toNat_index op).symm ▸ index_lt op
  unfold bits word layout
  cases op.family with
  | branch =>
    have hdigits := digits_branch hopcode (target_lt operands[0]?)
    rwa [toNat_index] at hdigits
  | arithmetic =>
    obtain ⟨hmarker, hsecond⟩ := secondOperand_lt operands[2]?
    have hdigits := digits_data hopcode hmarker (registerNumber_lt operands[0]?)
      (registerNumber_lt operands[1]?) hsecond
    rwa [toNat_index] at hdigits
  | moveCompare =>
    obtain ⟨hmarker, hsecond⟩ := secondOperand_lt operands[1]?
    have hdigits := @digits_data _ _ _ 0 _ hopcode hmarker (registerNumber_lt operands[0]?)
      (by decide) hsecond
    rw [toNat_index] at hdigits
    simpa using hdigits
  | loadStore =>
    have hdigits := @digits_data _ 0 _ _ 0 hopcode (by decide) (registerNumber_lt operands[0]?)
      (registerNumber_lt operands[1]?) (by decide)
    rw [toNat_index] at hdigits
    simpa using hdigits

end FiveStage.Encoding
