import FiveStage.Json.Writer
import FiveStage.Proofs.Json.Reading
import FiveStage.Proofs.Token.Decimal

namespace FiveStage.Json

namespace Token

-- No character is half of a surrogate pair, so each spells itself.
theorem charsOfUnits?_toNat (chars : List Char) :
    charsOfUnits? (chars.map Char.toNat) = some chars := by
  have hwhole (c : Char) : (isHighSurrogate c.toNat || isLowSurrogate c.toNat) = false := by
    have hvalid : c.toNat < 0xd800 ∨ 0xdfff < c.toNat ∧ c.toNat < 0x110000 := c.valid
    simp only [isHighSurrogate, isLowSurrogate, Bool.or_eq_false_iff, Bool.and_eq_false_iff,
      decide_eq_false_iff_not]
    omega
  induction chars with
  | nil => rfl
  | cons c rest ih =>
    cases rest with
    | nil => simp [charsOfUnits?, hwhole c]
    | cons d rest =>
      have hc := hwhole c
      rw [Bool.or_eq_false_iff] at hc
      simp only [List.map_cons] at ih
      simp [charsOfUnits?, hc.1, hc.2, ih]

namespace Scan

section Pieces

variable {scan next : Scan}

theorem foldlM_cons_of_eq {c : Char} (h : step? scan c = some next) (rest : List Char) :
    (c :: rest).foldlM step? scan = rest.foldlM step? next := by
  rw [List.foldlM_cons, h]
  rfl

theorem foldlM_append_of_eq {first : List Char} (h : first.foldlM step? scan = some next)
    (rest : List Char) : (first ++ rest).foldlM step? scan = rest.foldlM step? next := by
  rw [List.foldlM_append, h]
  rfl

end Pieces

-- Hexadecimal digits name a code unit when the last of them is read.
theorem foldlM_unicode {digits : List Char} {value n : Nat} (hnonempty : digits ≠ [])
    (h : digits.foldlM (Numeral.shiftIn? 16) value = some n) (units : List Nat)
    (found : List Token) :
    digits.foldlM step? ⟨.unicode units digits.length value, found⟩ =
      some ⟨.text (n :: units) true, found⟩ := by
  induction digits generalizing value with
  | nil => exact absurd rfl hnonempty
  | cons digit rest ih =>
    rw [List.foldlM_cons, Option.bind_eq_bind, Option.bind_eq_some_iff] at h
    obtain ⟨next, hnext, hrest⟩ := h
    cases rest with
    | nil =>
      obtain rfl : next = n := by simpa using hrest
      simp [step?, hnext]
    | cons second rest =>
      have hstep : step? ⟨.unicode units (digit :: second :: rest).length value, found⟩ digit =
          some ⟨.unicode units (second :: rest).length next, found⟩ := by
        simp [step?, hnext]
      rw [foldlM_cons_of_eq hstep]
      exact ih (List.cons_ne_nil _ _) hrest

-- A character is read from its own form inside a quoted text.
theorem foldlM_escape (c : Char) (units : List Nat) (escaped : Bool) (found : List Token) :
    (escape c).toList.foldlM step? ⟨.text units escaped, found⟩ =
      some ⟨.text (c.toNat :: units) (needsEscape c || escaped), found⟩ := by
  unfold escape
  split
  case h_8 hquote hslash _ _ _ _ _ =>
    split
    · next hcontrol =>
      have hdigits : ∀ n < 0x20, (Numeral.hexDigits 4 n).toList.length = 4 ∧
          (Numeral.hexDigits 4 n).toList.foldlM (Numeral.shiftIn? 16) 0 = some n := by decide
      obtain ⟨hlength, hvalue⟩ := hdigits c.toNat hcontrol
      have hneeds : needsEscape c = true := by simp [needsEscape, hcontrol]
      have hprefix : "\\u".toList.foldlM step? ⟨.text units escaped, found⟩ =
          some ⟨.unicode units 4 0, found⟩ := rfl
      have hunicode := foldlM_unicode (List.ne_nil_of_length_pos (by omega)) hvalue units found
      rw [hlength] at hunicode
      rw [String.toList_append, foldlM_append_of_eq hprefix, hunicode, hneeds, Bool.true_or]
    · next hcontrol =>
      replace hquote : c ≠ '"' := hquote
      replace hslash : c ≠ '\\' := hslash
      have hneeds : needsEscape c = false := by simp [needsEscape, hquote, hslash, hcontrol]
      simp [Char.toString, step?, hquote, hslash, hcontrol, hneeds]
  all_goals rfl

theorem foldlM_escaped (chars : List Char) (units : List Nat) (escaped : Bool)
    (found : List Token) :
    (chars.flatMap fun c => (escape c).toList).foldlM step? ⟨.text units escaped, found⟩ =
      some ⟨.text ((chars.map Char.toNat).reverse ++ units) (escaped || chars.any needsEscape),
        found⟩ := by
  induction chars generalizing units escaped with
  | nil => simp
  | cons c rest ih =>
    rw [List.flatMap_cons, foldlM_append_of_eq (foldlM_escape c units escaped found), ih]
    simp [Bool.or_comm, Bool.or_left_comm]

theorem toList_quote (text : String) :
    (quote text).toList =
      '"' :: text.toList.flatMap (fun c => (escape c).toList) ++ ['"'] := by
  have hfold (chars : List Char) (out : String) :
      (chars.foldl (fun out c => out ++ escape c) out).toList =
        out.toList ++ chars.flatMap fun c => (escape c).toList := by
    induction chars generalizing out with
    | nil => simp
    | cons c rest ih => simp [ih]
  simp [quote, hfold]

-- A text is read from its quoted form.
theorem foldlM_quote (text : String) (found : List Token) :
    (quote text).toList.foldlM step? ⟨.between, found⟩ =
      some ⟨.between, .text (some text) (text.toList.any needsEscape) :: found⟩ := by
  have hopen : step? ⟨.between, found⟩ '"' = some ⟨.text [] false, found⟩ := rfl
  rw [toList_quote, List.cons_append, foldlM_cons_of_eq hopen,
    foldlM_append_of_eq (foldlM_escaped text.toList [] false found)]
  simp [step?, ← List.map_reverse, charsOfUnits?_toNat]

-- A word goes on for as long as there are digits and minus signs.
theorem foldlM_word {text : List Char} (h : ∀ c ∈ text, c.isDigit ∨ c = '-') (chars : List Char)
    (found : List Token) :
    text.foldlM step? ⟨.word chars, found⟩ = some ⟨.word (text.reverse ++ chars), found⟩ := by
  induction text generalizing chars with
  | nil => rfl
  | cons c rest ih =>
    rw [foldlM_cons_of_eq (step?_word_of_isDigit (h c List.mem_cons_self) chars found),
      ih fun d hd => h d (List.mem_cons_of_mem _ hd), List.reverse_cons, List.append_assoc,
      List.singleton_append]

end Scan

-- The decimal form of a whole number.
def signedDigits (n : Int) : List Char :=
  if n < 0 then '-' :: Nat.toDigits 10 n.natAbs else Nat.toDigits 10 n.natAbs

theorem toList_toString (n : Int) : (toString n).toList = signedDigits n := by
  cases n with
  | ofNat n => simp [signedDigits, toString, Int.repr, Nat.toList_repr]
  | negSucc n => simp [signedDigits, toString, Int.repr, Nat.toList_repr]

theorem isDigit_of_mem_signedDigits {n : Int} {c : Char} (h : c ∈ signedDigits n) :
    c.isDigit ∨ c = '-' := by
  unfold signedDigits at h
  split at h
  · rcases List.mem_cons.mp h with rfl | h
    · exact .inr rfl
    · exact .inl (Numeral.isDigit_of_mem_toDigits h)
  · exact .inl (Numeral.isDigit_of_mem_toDigits h)

theorem signedDigits_ne_nil (n : Int) : signedDigits n ≠ [] := by
  unfold signedDigits
  split
  · exact List.cons_ne_nil _ _
  · exact Nat.toDigits_ne_nil

-- The digits are one word, sign and all.
theorem foldlM_signedDigits (n : Int) (found : List Token) :
    (signedDigits n).foldlM Scan.step? ⟨.between, found⟩ =
      some ⟨.word (signedDigits n).reverse, found⟩ := by
  obtain ⟨c, rest, hdigits⟩ := List.exists_cons_of_ne_nil (signedDigits_ne_nil n)
  have hmem : ∀ d ∈ c :: rest, d.isDigit ∨ d = '-' :=
    fun d hd => isDigit_of_mem_signedDigits (hdigits ▸ hd)
  have hstart := Scan.step?_between_of_isDigit (hmem c List.mem_cons_self) found
  rw [hdigits, Scan.foldlM_cons_of_eq hstart,
    Scan.foldlM_word fun d hd => hmem d (List.mem_cons_of_mem _ hd), List.reverse_cons]

-- A whole number below 2^64 is read from its decimal form.
theorem ofWord?_signedDigits {n : Int} (h : n.natAbs < UInt64.size) :
    ofWord? (signedDigits n) = some (.scalar (.int n)) := by
  have hlead : Nat.toDigits 10 n.natAbs = ['0'] ∨ (Nat.toDigits 10 n.natAbs).head? ≠ some '0' := by
    rcases Nat.eq_zero_or_pos n.natAbs with hzero | hpos
    · exact .inl (by rw [hzero]; rfl)
    · exact .inr (Numeral.head?_toDigits_of_pos hpos)
  have hliteral := NumberLiteral.ofWord?_of_isDigit Nat.toDigits_ne_nil
    (fun _ => Numeral.isDigit_of_mem_toDigits) hlead (decide (n < 0))
  have hvalue : NumberLiteral.toJson ⟨decide (n < 0), Nat.toDigits 10 n.natAbs, none, none⟩
      (signedDigits n) = .int (if decide (n < 0) then -(n.natAbs : Int) else n.natAbs) :=
    NumberLiteral.toJson_of_lt (Numeral.ofDigits?_toDigits n.natAbs) h (by simp; omega)
  have hletter {c : Char} (hc : ¬(c.isDigit ∨ c = '-')) (rest : List Char) :
      signedDigits n ≠ c :: rest :=
    fun heq => hc (isDigit_of_mem_signedDigits (heq ▸ List.mem_cons_self))
  have hnumber : ofWord? (signedDigits n) =
      (NumberLiteral.ofWord? (signedDigits n)).map fun literal =>
        .scalar (literal.toJson (signedDigits n)) := by
    simp [ofWord?, hletter (c := 'n') (by decide), hletter (c := 't') (by decide),
      hletter (c := 'f') (by decide)]
  have hsigned : (if decide (n < 0) then -(n.natAbs : Int) else n.natAbs) = n := by
    simp only [decide_eq_true_eq]
    split <;> omega
  simp only [decide_eq_true_eq] at hliteral
  rw [hnumber, signedDigits, hliteral, Option.map_some, ← signedDigits, hvalue, hsigned]

end Token

end FiveStage.Json
