import FiveStage.Proofs.Token.Decimal
import Mathlib.Algebra.Group.Int.Defs
import Mathlib.Data.List.Induction

namespace FiveStage

namespace Numeral

-- A character for a digit of a base. Letters may be of either case.
inductive IsDigit (base : Nat) : Char → Nat → Prop
  | lower {d : Nat} (h : d < base) : IsDigit base (Nat.digitChar d) d
  | upper {d : Nat} (h : d < base) : IsDigit base (Nat.digitChar d).toUpper d

-- A run of digits, at least one, and the number that it stands for.
inductive Run (base : Nat) : List Char → Nat → Prop
  | single {c : Char} {d : Nat} (h : IsDigit base c d) : Run base [c] d
  | concat {digits : List Char} {n d : Nat} {c : Char} (h : Run base digits n)
      (hc : IsDigit base c d) : Run base (digits ++ [c]) (base * n + d)

section Digits

variable {base n d : Nat} {c : Char} {digits : List Char}

theorem digitValue?_eq_filter (hbase : base ≤ 16) :
    digitValue? base c = (digitValue? 16 c).filter (· < base) := by
  simp only [digitValue?, Option.filter_filter]
  congr 1
  funext value
  rw [Bool.eq_iff_iff]
  simp only [Bool.and_eq_true, decide_eq_true_eq]
  omega

theorem toNat_lt_of_digitValue? (h : digitValue? base c = some d) : c.toNat < 128 := by
  obtain ⟨h, -⟩ := Option.filter_eq_some_iff.mp h
  have hle {last : Char} (hlast : last.toNat < 128) (hc : c ≤ last) : c.toNat < 128 :=
    Nat.lt_of_le_of_lt hc hlast
  split at h
  · next hc => exact hle (by decide) hc.2
  · split at h
    · next hc => exact hle (by decide) hc.2
    · split at h
      · next hc => exact hle (by decide) hc.2
      · contradiction

-- Digits are among the first 128 characters, which can be gone through.
theorem digitValue?_eq_some_iff (hbase : base ≤ 16) :
    digitValue? base c = some d ↔ IsDigit base c d := by
  rw [digitValue?_eq_filter hbase, Option.filter_eq_some_iff, decide_eq_true_eq]
  constructor
  · rintro ⟨h, hd⟩
    have hcode : Char.ofNat c.toNat = c := Char.ofNat_toNat c
    have hcases : ∀ code < 128, ∀ d ∈ digitValue? 16 (Char.ofNat code),
        Char.ofNat code = Nat.digitChar d ∨ Char.ofNat code = (Nat.digitChar d).toUpper := by
      decide +kernel
    obtain hc | hc := hcases c.toNat (toNat_lt_of_digitValue? h) d (by rw [hcode]; exact h)
    · rw [← hcode, hc]
      exact .lower hd
    · rw [← hcode, hc]
      exact .upper hd
  · have hvalues : ∀ d < 16, digitValue? 16 (Nat.digitChar d) = some d ∧
        digitValue? 16 (Nat.digitChar d).toUpper = some d := by
      decide +kernel
    intro h
    cases h with
    | lower hd => exact ⟨(hvalues d (by omega)).1, hd⟩
    | upper hd => exact ⟨(hvalues d (by omega)).2, hd⟩

theorem Run.ne_nil (h : Run base digits n) : digits ≠ [] := by
  cases h <;> simp

theorem Run.foldlM_eq (h : Run base digits n) (hbase : base ≤ 16) :
    digits.foldlM (shiftIn? base) 0 = some n := by
  induction h with
  | single h =>
    have hvalue := (digitValue?_eq_some_iff hbase).mpr h
    simp [shiftIn?, hvalue]
  | concat h hc ih =>
    have hvalue := (digitValue?_eq_some_iff hbase).mpr hc
    simp [ih, shiftIn?, hvalue]

theorem run_of_foldlM (hbase : base ≤ 16) (hne : digits ≠ [])
    (h : digits.foldlM (shiftIn? base) 0 = some n) : Run base digits n := by
  induction digits using List.reverseRecOn generalizing n with
  | nil => contradiction
  | append_singleton digits c ih =>
    rw [List.foldlM_append] at h
    obtain ⟨m, hm, hlast⟩ := Option.bind_eq_some_iff.mp h
    obtain ⟨d, hd, rfl⟩ : ∃ d, digitValue? base c = some d ∧ base * m + d = n := by
      simpa [shiftIn?] using hlast
    have hc := (digitValue?_eq_some_iff hbase).mp hd
    by_cases hfirst : digits = []
    · subst hfirst
      obtain rfl : 0 = m := Option.some.inj hm
      rw [Nat.mul_zero, Nat.zero_add]
      exact .single hc
    · exact .concat (ih hfirst hm) hc

theorem ofDigits?_eq_some_iff (hbase : base ≤ 16) :
    ofDigits? base digits = some n ↔ Run base digits n := by
  unfold ofDigits?
  constructor
  · intro h
    split at h
    · contradiction
    · next hne => exact run_of_foldlM hbase (by simpa using hne) h
  · intro h
    rw [if_neg (by simpa using h.ne_nil)]
    exact h.foldlM_eq hbase

-- What holds of every digit holds all along a run.
theorem Run.forall_mem {P : Char → Prop} (h : Run base digits n)
    (hP : ∀ c d, IsDigit base c d → P c) : ∀ c ∈ digits, P c := by
  induction h with
  | single h => simpa using hP _ _ h
  | concat h hc ih =>
    intro other hother
    cases List.mem_append.mp hother with
    | inl hbefore => exact ih other hbefore
    | inr hlast =>
      rw [List.mem_singleton.mp hlast]
      exact hP _ _ hc

theorem run_toDigits (hbase : 1 < base) (n : Nat) : Run base (Nat.toDigits base n) n := by
  induction n using Nat.strongRecOn with
  | ind n ih =>
    rw [Nat.toDigits_eq_if hbase]
    split
    · next hlt => exact .single (.lower hlt)
    · next hle =>
      have hrest := ih (n / base) (Nat.div_lt_self (by omega) hbase)
      have hlast := hrest.concat (.lower (Nat.mod_lt n (by omega)))
      rwa [Nat.div_add_mod] at hlast

theorem IsDigit.isDigit (h : IsDigit 10 c d) : c.isDigit := by
  have hdigits : ∀ d < 10, (Nat.digitChar d).isDigit ∧ (Nat.digitChar d).toUpper.isDigit := by
    decide
  cases h with
  | lower hd => exact (hdigits d hd).1
  | upper hd => exact (hdigits d hd).2

theorem IsDigit.ne_sign (h : IsDigit 16 c d) : c ≠ '-' ∧ c ≠ '+' := by
  have hvalue := (digitValue?_eq_some_iff (Nat.le_refl 16)).mpr h
  constructor <;>
  · rintro rfl
    contradiction

end Digits

end Numeral

namespace Token

-- A number as it is to be written behind any sign.
inductive Magnitude : List Char → Int → Prop
  | decimal {digits : List Char} {n : Nat} (h : Numeral.Run 10 digits n) : Magnitude digits n
  | hexadecimal {x : Char} {digits : List Char} {n : Nat} (hx : x = 'x' ∨ x = 'X')
      (h : Numeral.Run 16 digits n) : Magnitude ('0' :: x :: digits) n

-- Hexadecimal digits that bear a sign of their own, behind the radix.
inductive InnerSigned : List Char → Int → Prop
  | plus {x : Char} {digits : List Char} {n : Nat} (hx : x = 'x' ∨ x = 'X')
      (h : Numeral.Run 16 digits n) : InnerSigned ('0' :: x :: '+' :: digits) n
  | minus {x : Char} {digits : List Char} {n : Nat} (hx : x = 'x' ∨ x = 'X')
      (h : Numeral.Run 16 digits n) : InnerSigned ('0' :: x :: '-' :: digits) (-n)

-- An integer, negated by a minus sign in front.
inductive Signed (unsigned : List Char → Int → Prop) : List Char → Int → Prop
  | plain {text : List Char} {v : Int} (h : unsigned text v) : Signed unsigned text v
  | negated {text : List Char} {v : Int} (h : unsigned text v) : Signed unsigned ('-' :: text) (-v)

section Language

variable {text : List Char} {v : Int} {x : Char}

theorem takeSign_of_run {digits : List Char} {n : Nat} (h : Numeral.Run 16 digits n) :
    takeSign digits = (false, digits) := by
  have hsign := h.forall_mem fun c d hc => hc.ne_sign
  unfold takeSign
  split
  · exact absurd rfl (hsign '-' List.mem_cons_self).1
  · exact absurd rfl (hsign '+' List.mem_cons_self).2
  · rfl

theorem unsigned?_radix (hx : x = 'x' ∨ x = 'X') (hex : List Char) :
    unsigned? ('0' :: x :: hex) = Option.map
      (fun n : Nat => if (takeSign hex).1 then -(n : Int) else n)
      (Numeral.ofDigits? 16 (takeSign hex).2) := by
  have hsame : unsigned? ('0' :: x :: hex) = unsigned? ('0' :: 'x' :: hex) := by
    obtain rfl | rfl := hx <;> rfl
  rw [hsame]
  simp only [unsigned?]
  cases Numeral.ofDigits? 16 (takeSign hex).2 <;> rfl

-- What digits behind a radix are read as, with or without a sign.
theorem written_of_unsigned?_radix (hx : x = 'x' ∨ x = 'X') {hex : List Char}
    (h : unsigned? ('0' :: x :: hex) = some v) :
    Magnitude ('0' :: x :: hex) v ∨ InnerSigned ('0' :: x :: hex) v := by
  rw [unsigned?_radix hx] at h
  obtain ⟨n, hn, rfl⟩ := Option.map_eq_some_iff.mp h
  have hrun := (Numeral.ofDigits?_eq_some_iff (Nat.le_refl 16)).mp hn
  unfold takeSign at hrun ⊢
  split at hrun
  · exact .inr (.minus hx hrun)
  · exact .inr (.plus hx hrun)
  · exact .inl (.hexadecimal hx hrun)

theorem unsigned?_eq_some_iff :
    unsigned? text = some v ↔ Magnitude text v ∨ InnerSigned text v := by
  constructor
  · intro h
    by_cases hradix : ∃ x hex, (x = 'x' ∨ x = 'X') ∧ text = '0' :: x :: hex
    · obtain ⟨x, hex, hx, rfl⟩ := hradix
      exact written_of_unsigned?_radix hx h
    · left
      unfold unsigned? at h
      split at h
      · contradiction
      · contradiction
      · exact absurd ⟨'x', _, .inl rfl, rfl⟩ hradix
      · exact absurd ⟨'X', _, .inr rfl, rfl⟩ hradix
      · obtain ⟨n, hn, rfl⟩ := Option.map_eq_some_iff.mp h
        exact .decimal ((Numeral.ofDigits?_eq_some_iff (by decide)).mp hn)
  · rintro (h | h)
    · cases h with
      | decimal h =>
        rw [unsigned?_of_isDigit (h.forall_mem fun c d hc => hc.isDigit),
          (Numeral.ofDigits?_eq_some_iff (by decide)).mpr h]
        rfl
      | hexadecimal hx h =>
        rw [unsigned?_radix hx, takeSign_of_run h,
          (Numeral.ofDigits?_eq_some_iff (Nat.le_refl 16)).mpr h]
        rfl
    · cases h with
      | plus hx h =>
        have hn := (Numeral.ofDigits?_eq_some_iff (Nat.le_refl 16)).mpr h
        rw [unsigned?_radix hx, takeSign, hn]
        rfl
      | minus hx h =>
        have hn := (Numeral.ofDigits?_eq_some_iff (Nat.le_refl 16)).mpr h
        rw [unsigned?_radix hx, takeSign, hn]
        rfl

-- A minus sign may stand in front of what can be read without it.
theorem literal?_of_unsigned? (h : unsigned? text = some v) :
    literal? text = some v ∧ literal? ('-' :: text) = some (-v) := by
  refine ⟨?_, by simp only [literal?, h, Option.map_some]⟩
  unfold literal?
  split
  · contradiction
  · exact h

theorem literal?_eq_some_iff :
    literal? text = some v ↔ Signed Magnitude text v ∨ Signed InnerSigned text v := by
  constructor
  · intro h
    unfold literal? at h
    split at h
    · obtain ⟨w, hw, rfl⟩ := Option.map_eq_some_iff.mp h
      exact (unsigned?_eq_some_iff.mp hw).imp .negated .negated
    · exact (unsigned?_eq_some_iff.mp h).imp .plain .plain
  · rintro (h | h)
    · cases h with
      | plain h => exact (literal?_of_unsigned? (unsigned?_eq_some_iff.mpr (.inl h))).1
      | negated h => exact (literal?_of_unsigned? (unsigned?_eq_some_iff.mpr (.inl h))).2
    · cases h with
      | plain h => exact (literal?_of_unsigned? (unsigned?_eq_some_iff.mpr (.inr h))).1
      | negated h => exact (literal?_of_unsigned? (unsigned?_eq_some_iff.mpr (.inr h))).2

theorem Magnitude.ne_sign (h : Magnitude text v) : ∀ c ∈ text, c ≠ '-' ∧ c ≠ '+' := by
  cases h with
  | decimal h =>
    refine h.forall_mem fun c d hc => ?_
    have hdigit := hc.isDigit
    constructor <;>
    · rintro rfl
      contradiction
  | hexadecimal hx h =>
    have hdigits := h.forall_mem fun c d hc => hc.ne_sign
    obtain rfl | rfl := hx <;> simpa using hdigits

theorem InnerSigned.exists_sign (h : InnerSigned text v) : ∃ c ∈ text, c = '-' ∨ c = '+' := by
  cases h <;> simp

-- No text is both: the sign behind the radix has no place in a magnitude.
theorem Signed.not_innerSigned {w : Int} (h : Signed Magnitude text v) :
    ¬Signed InnerSigned text w := by
  have hapart {text : List Char} {v w : Int} (h : Magnitude text v) : ¬InnerSigned text w := by
    intro hinner
    obtain ⟨c, hmem, hsign⟩ := hinner.exists_sign
    exact hsign.elim (h.ne_sign c hmem).1 (h.ne_sign c hmem).2
  intro hinner
  cases h with
  | plain h =>
    cases hinner with
    | plain hinner => exact hapart h hinner
    | negated => exact (h.ne_sign '-' List.mem_cons_self).1 rfl
  | negated h =>
    cases hinner with
    | plain hinner => cases hinner
    | negated hinner => exact hapart h hinner

theorem Magnitude.isDigit_head {c : Char} (h : Magnitude (c :: text) v) : c.isDigit := by
  cases h with
  | decimal h => exact h.forall_mem (fun c d hc => hc.isDigit) c List.mem_cons_self
  | hexadecimal => rfl

theorem InnerSigned.isDigit_head {c : Char} (h : InnerSigned (c :: text) v) : c.isDigit := by
  cases h <;> rfl

-- A literal begins with a digit or a minus sign, and no label does.
theorem not_isLabelStart_of_literal? {c : Char} (h : literal? (c :: text) = some v) :
    isLabelStart c = false := by
  have hdigit (h : c.isDigit) : isLabelStart c = false := by
    have hcodes : ∀ code < 58, (Char.ofNat code).isDigit →
        isLabelStart (Char.ofNat code) = false := by
      decide
    have hcode : c.toNat ≤ 57 := by
      simp only [Char.isDigit, Bool.and_eq_true, decide_eq_true_eq] at h
      exact h.2
    have hc := hcodes c.toNat (by omega)
    rw [Char.ofNat_toNat] at hc
    exact hc h
  rcases literal?_eq_some_iff.mp h with h | h
  · cases h with
    | plain h => exact hdigit h.isDigit_head
    | negated => rfl
  · cases h with
    | plain h => exact hdigit h.isDigit_head
    | negated => rfl

theorem fitsWord_iff : fitsWord v ↔ -2 ^ 31 ≤ v ∧ v < 2 ^ 32 := by
  simp [fitsWord]

end Language

-- The text of a literal behind the marker, if there is one.
def unmarked (token : String) : List Char :=
  match token.toList with
  | '#' :: rest => rest
  | text => text

theorem unmarked_of_head? {token : String} (h : token.toList.head? ≠ some '#') :
    unmarked token = token.toList := by
  unfold unmarked
  split
  · next hlist => simp [hlist] at h
  · rfl

-- A bare label is reported as one, and anything else is read as a literal.
theorem immediate_eq (token : String) :
    immediate token =
      if token.toList.head? ≠ some '#' ∧ isLabelShaped token then .error (.undefinedLabel token)
      else match (literal? (unmarked token)).filter fitsWord with
        | some v => .ok (Int32.ofInt v)
        | none => .error (.invalidImmediate token) := by
  unfold immediate
  dsimp only
  split
  · next rest hlist =>
    have hmarked : ¬(token.toList.head? ≠ some '#' ∧ isLabelShaped token) := by simp [hlist]
    have hrest : unmarked token = rest := by simp [unmarked, hlist]
    rw [if_neg hmarked]
    exact hrest ▸ rfl
  · next hlist =>
    have hhead : token.toList.head? ≠ some '#' := by
      intro hhead
      obtain ⟨rest, hrest⟩ := List.head?_eq_some_iff.mp hhead
      exact hlist rest hrest
    by_cases hlabel : isLabelShaped token
    · rw [if_pos hlabel, if_pos ⟨hhead, hlabel⟩]
    · rw [if_neg hlabel, if_neg fun h => hlabel h.2]
      exact unmarked_of_head? hhead ▸ rfl

theorem literal?_of_isLabelShaped {token : String} (h : isLabelShaped token) :
    literal? token.toList = none := by
  unfold isLabelShaped at h
  split at h
  · contradiction
  · next c rest hlist =>
    obtain ⟨hstart, -⟩ := Bool.and_eq_true_iff.mp h
    rw [hlist, Option.eq_none_iff_forall_ne_some]
    intro v hliteral
    rw [not_isLabelStart_of_literal? hliteral] at hstart
    contradiction

theorem immediate_eq_ok {token : String} {value : Int32} :
    immediate token = .ok value ↔
      ∃ v, literal? (unmarked token) = some v ∧ fitsWord v ∧ value = Int32.ofInt v := by
  have hread : immediate token = .ok value ↔
      ∃ v, (literal? (unmarked token)).filter fitsWord = some v ∧ value = Int32.ofInt v := by
    rw [immediate_eq]
    split
    · next hlabel =>
      simp [unmarked_of_head? hlabel.1, literal?_of_isLabelShaped hlabel.2]
    · cases (literal? (unmarked token)).filter fitsWord with
      | none => simp
      | some v => simp [eq_comm]
  simp only [hread, Option.filter_eq_some_iff, and_assoc]

-- The literals that are accepted, with their values: those that keep to the
-- syntax, and hexadecimal ones with a sign between the radix and the digits,
-- which do not. No token is of both kinds.
theorem immediate_accepts (token : String) :
    (∀ value, immediate token = .ok value ↔
      ∃ v : Int,
        (Signed Magnitude (unmarked token) v ∨ Signed InnerSigned (unmarked token) v) ∧
        -2 ^ 31 ≤ v ∧ v < 2 ^ 32 ∧ value = Int32.ofInt v) ∧
      ¬((∃ v, Signed Magnitude (unmarked token) v) ∧
        ∃ v, Signed InnerSigned (unmarked token) v) := by
  refine ⟨fun value => ?_, fun ⟨⟨v, hv⟩, ⟨w, hw⟩⟩ => hv.not_innerSigned hw⟩
  simp only [immediate_eq_ok, literal?_eq_some_iff, fitsWord_iff, and_assoc]

-- A second sign is taken where there is to be none.
theorem not_immediate_accepts_syntax_only :
    ¬∀ (token : String) (value : Int32), immediate token = .ok value →
      ∃ v : Int, Signed Magnitude (unmarked token) v ∧ -2 ^ 31 ≤ v ∧ v < 2 ^ 32 := by
  intro haccepts
  have hinner : Signed InnerSigned (unmarked "#0x-5") (-5) :=
    .plain (.minus (.inl rfl) (.single (.lower (d := 5) (by decide))))
  obtain ⟨v, hv, -⟩ := haccepts "#0x-5" (-5) rfl
  exact hv.not_innerSigned hinner

end Token

end FiveStage
