namespace FiveStage.Numeral

-- The quotient rounded to the nearest whole number, a half to the even one.
def roundQuotient (numerator denominator : Nat) : Nat :=
  let q := numerator / denominator
  let r := numerator % denominator
  if denominator < 2 * r ∨ (denominator = 2 * r ∧ q % 2 = 1) then q + 1 else q

-- The rounded quotient is off by half a unit at most.
theorem roundQuotient_near (n d : Nat) (hd : 0 < d) :
    2 * n ≤ 2 * (roundQuotient n d * d) + d ∧ 2 * (roundQuotient n d * d) ≤ 2 * n + d := by
  have hdiv := Nat.div_add_mod n d
  have hlt := Nat.mod_lt n hd
  rw [Nat.mul_comm] at hdiv
  simp only [roundQuotient]
  split
  · rw [Nat.add_mul]
    omega
  · omega

-- The nearest number with so many significant bits, a half to the even one.
def roundToBits (width n : Nat) : Nat :=
  let unit := 1 <<< (n.log2 + 1 - width)
  roundQuotient n unit * unit

-- Rounding hardly more than doubles a number, however few bits are kept.
theorem roundToBits_le (width n : Nat) : roundToBits width n ≤ 2 * n + 1 := by
  simp only [roundToBits, Nat.one_shiftLeft]
  have hpow := Nat.pow_le_pow_right (n := 2) (by decide) (Nat.sub_le (n.log2 + 1) width)
  have hlog : 2 ^ (n.log2 + 1) ≤ 2 * n + 2 := by
    rcases Nat.eq_zero_or_pos n with rfl | hpos
    · decide
    · have := Nat.log2_self_le (Nat.pos_iff_ne_zero.mp hpos)
      omega
  have hnear := (roundQuotient_near n _ (Nat.two_pow_pos (n.log2 + 1 - width))).2
  omega

end FiveStage.Numeral
