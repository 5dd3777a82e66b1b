import FiveStage.Json.Basic
import FiveStage.Numeral.Digits
import FiveStage.Numeral.Rounding

namespace FiveStage.Json

-- A number literal in its parts.
structure NumberLiteral where
  negative : Bool
  whole : List Char
  fraction : Option (List Char)
  exponent : Option (Bool × List Char)

namespace NumberLiteral

private def isDigits (digits : List Char) : Bool :=
  !digits.isEmpty && digits.all Char.isDigit

-- A sign and digits after an exponent mark.
private def exponent? (text : List Char) : Option (Bool × List Char) :=
  let (negative, digits) := match text with
    | '-' :: rest => (true, rest)
    | '+' :: rest => (false, rest)
    | _ => (false, text)
  if isDigits digits then some (negative, digits) else none

-- Reads a whole word as a number: no leading zeros, and a digit on either side
-- of the point.
def ofWord? (word : List Char) : Option NumberLiteral := do
  let (negative, unsigned) := match word with
    | '-' :: rest => (true, rest)
    | _ => (false, word)
  let whole := unsigned.takeWhile Char.isDigit
  guard (isDigits whole && (whole = ['0'] || whole.head? ≠ some '0'))
  let (fraction, rest) ← match unsigned.dropWhile Char.isDigit with
    | '.' :: rest =>
      let digits := rest.takeWhile Char.isDigit
      if digits.isEmpty then none else some (some digits, rest.dropWhile Char.isDigit)
    | rest => some (none, rest)
  let exponent ← match rest with
    | [] => some none
    | c :: rest => if c = 'e' ∨ c = 'E' then (exponent? rest).map some else none
  return { negative, whole, fraction, exponent }

-- Digits without a leading zero are a whole number.
theorem ofWord?_of_isDigit {digits : List Char} (hnonempty : digits ≠ [])
    (hdigits : ∀ c ∈ digits, c.isDigit) (hlead : digits = ['0'] ∨ digits.head? ≠ some '0')
    (negative : Bool) :
    ofWord? (if negative then '-' :: digits else digits) =
      some { negative, whole := digits, fraction := none, exponent := none } := by
  have htake : digits.takeWhile Char.isDigit = digits := by
    have happend : (digits ++ []).takeWhile Char.isDigit = digits ++ [] :=
      List.takeWhile_append_of_pos hdigits
    rwa [List.append_nil] at happend
  have hdrop : digits.dropWhile Char.isDigit = [] := by
    have happend : (digits ++ []).dropWhile Char.isDigit = [] :=
      List.dropWhile_append_of_pos hdigits
    rwa [List.append_nil] at happend
  have hwhole : (guard (isDigits digits && (digits = ['0'] || digits.head? ≠ some '0')) :
      Option Unit) = some () :=
    if_pos (by simpa [isDigits, hnonempty, hlead] using hdigits)
  have hsplit : (match (if negative then '-' :: digits else digits) with
      | '-' :: rest => (true, rest)
      | _ => (false, if negative then '-' :: digits else digits)) = (negative, digits) := by
    cases negative with
    | true => rfl
    | false =>
      rw [if_neg Bool.false_ne_true]
      split
      · exact absurd (hdigits '-' List.mem_cons_self) (by decide)
      · rfl
  unfold ofWord?
  rw [hsplit]
  dsimp only
  rw [htake, hdrop, hwhole]
  rfl

private def valueOf (digits : List Char) : Nat :=
  (Numeral.ofDigits? 10 digits).getD 0

-- Writes digits behind a number for as long as it stays below 2^64. Gives the
-- number, and the digits that are left.
def appendFitting (value : Nat) : List Char → Nat × List Char
  | [] => (value, [])
  | digit :: rest =>
    match (Numeral.shiftIn? 10 value digit).filter (· < UInt64.size) with
    | some next => appendFitting next rest
    | none => (value, digit :: rest)

-- All digits of a number below 2^64 fit.
theorem appendFitting_eq {digits : List Char} {value n : Nat}
    (h : digits.foldlM (Numeral.shiftIn? 10) value = some n) (hn : n < UInt64.size) :
    value ≤ n ∧ appendFitting value digits = (n, []) := by
  induction digits generalizing value with
  | nil =>
    obtain rfl : value = n := by simpa using h
    exact ⟨Nat.le_refl _, rfl⟩
  | cons digit rest ih =>
    rw [List.foldlM_cons, Option.bind_eq_bind, Option.bind_eq_some_iff] at h
    obtain ⟨next, hnext, hrest⟩ := h
    obtain ⟨hle, hfits⟩ := ih hrest
    have hvalue : value ≤ next := by
      obtain ⟨place, -, rfl⟩ := Option.map_eq_some_iff.mp hnext
      omega
    refine ⟨Nat.le_trans hvalue hle, ?_⟩
    have hlt : next < UInt64.size := Nat.lt_of_le_of_lt hle hn
    simp [appendFitting, hnext, Option.filter_some, hlt, hfits]

-- The leading digits as a number, and the power of ten that goes with them. A
-- digit left over in front of the point still counts as a place.
def scaled (literal : NumberLiteral) : Nat × Int :=
  let fraction := literal.fraction.getD []
  let (whole, places) := appendFitting 0 literal.whole
  let (significand, unused) := appendFitting whole fraction
  let exponent : Int := match literal.exponent with
    | none => 0
    | some (true, digits) => -(valueOf digits : Int)
    | some (false, digits) => valueOf digits
  (significand, exponent + places.length - (fraction.length - unused.length : Nat))

-- The smallest magnitude that rounds to infinity in binary64.
def overflow : Nat := Nat.pow 2 1024 - Nat.pow 2 970

-- The largest power of ten within the range of binary64.
def largestPower : Nat := 308

-- Whether the number can be held in binary64. What is held is the product of
-- the leading digits and the power of ten, with both factors rounded first, so
-- that near the limit the number of digits written makes a difference. A
-- negative power of ten divides, which never leads out of the range.
def isFinite (literal : NumberLiteral) : Bool :=
  let (significand, power) := literal.scaled
  if significand = 0 ∨ power < 0 then true
  else if largestPower < power then false
  else
    let factor := Nat.pow 10 power.toNat
    Numeral.roundToBits 53 significand * Numeral.roundToBits 53 factor < overflow

-- Whole numbers below 2^64 are far within the range.
theorem isFinite_of_lt {digits : List Char} {n : Nat}
    (h : digits.foldlM (Numeral.shiftIn? 10) 0 = some n) (hn : n < UInt64.size)
    (negative : Bool) :
    isFinite { negative, whole := digits, fraction := none, exponent := none } = true := by
  have hscaled : scaled { negative, whole := digits, fraction := none, exponent := none } =
      (n, 0) := by
    simp [scaled, (appendFitting_eq h hn).2, appendFitting]
  have hone : Numeral.roundToBits 53 1 = 1 := by decide
  have hrounded := Numeral.roundToBits_le 53 n
  have hlimit : 2 * UInt64.size ≤ overflow := by decide +kernel
  have hlt : Numeral.roundToBits 53 n < overflow := by omega
  simp [isFinite, hscaled, hone, hlt, largestPower]

-- Minus zero, like any number with a point or an exponent, is not an integer.
def toJson (literal : NumberLiteral) (word : List Char) : Json :=
  if !literal.isFinite then .unreadable
  else
    let n := valueOf literal.whole
    if literal.fraction.isSome || literal.exponent.isSome || (literal.negative && n == 0) then
      .decimal (String.ofList word)
    else .int (if literal.negative then -n else n)

-- Zero is not read as a whole number behind a minus sign.
theorem toJson_of_lt {digits word : List Char} {n : Nat}
    (hdigits : Numeral.ofDigits? 10 digits = some n) (hn : n < UInt64.size) {negative : Bool}
    (hzero : negative = true → n ≠ 0) :
    toJson { negative, whole := digits, fraction := none, exponent := none } word =
      .int (if negative then -n else n) := by
  have hfold : digits.foldlM (Numeral.shiftIn? 10) 0 = some n := by
    unfold Numeral.ofDigits? at hdigits
    split at hdigits
    · nomatch hdigits
    · exact hdigits
  have hvalue : valueOf digits = n := by simp [valueOf, hdigits]
  simpa [toJson, isFinite_of_lt hfold hn, hvalue] using hzero

end NumberLiteral

end FiveStage.Json
