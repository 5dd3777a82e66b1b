import FiveStage.Proofs.Assembly.Operands
import FiveStage.Proofs.Instruction.Layout
import FiveStage.Proofs.Token.Target
import Mathlib.Algebra.Divisibility.Basic
import Mathlib.Algebra.Group.Int.Defs

namespace FiveStage

theorem Opcode.index_injective {op other : Opcode} (h : op.index = other.index) : op = other := by
  cases op <;> cases other <;> first | rfl | exact absurd h (by decide)

-- Brackets are no part of a register's name.
theorem Token.withoutBrackets_of_register {token : String} {r : Register}
    (h : register token = .ok r) : withoutBrackets token = token := by
  cases denotes_of_register h
  cases r <;> decide

namespace Encoding

-- A field reads as the low bits of the number it was made of.
theorem run_field (width n : Nat) :
    Numeral.Run 2 (field (width + 1) n) (n % 2 ^ (width + 1)) := by
  induction width generalizing n with
  | zero =>
    rw [field_succ]
    exact .single (.lower (Nat.mod_lt n (by decide)))
  | succ width ih =>
    have hpow : 2 ^ (width + 1 + 1) = 2 * 2 ^ (width + 1) := Nat.pow_succ'
    rw [field_succ, hpow, Nat.mod_mul, Nat.add_comm (n % 2)]
    exact .concat (ih (n / 2)) (.lower (Nat.mod_lt n (by decide)))

-- The number in the bits of a word from `high` down to `low`. The digit in
-- front is bit 31.
def bitsAt (shown : List Char) (high low : Nat) : Option Nat :=
  Numeral.ofDigits? 2 ((shown.drop (31 - high)).take (high + 1 - low))

theorem bitsAt_append (front rest : List Char) {n width high low : Nat}
    (hfront : front.length = 31 - high) (hwidth : high + 1 - low = width + 1)
    (h : n < 2 ^ (width + 1)) :
    bitsAt (front ++ (field (width + 1) n ++ rest)) high low = some n := by
  have hrun := run_field width n
  rw [Nat.mod_eq_of_lt h] at hrun
  rw [bitsAt, List.drop_left' hfront, hwidth, List.take_left' (length_field _ n)]
  exact (Numeral.ofDigits?_eq_some_iff (by decide)).mpr hrun

-- The bits that a word has for a value of which it keeps the low ones.
def lowBits (width : Nat) (value : Int32) : Nat :=
  (value.toInt % 2 ^ width).toNat

theorem lowBits_lt (width : Nat) (value : Int32) : lowBits width value < 2 ^ width := by
  have hpos : (0 : Int) < 2 ^ width := Int.pow_pos (by decide)
  have hlow := Int.emod_nonneg value.toInt (Int.ne_of_gt hpos)
  have hhigh := Int.emod_lt_of_pos value.toInt hpos
  rw [lowBits, Int.toNat_lt hlow]
  exact_mod_cast hhigh

theorem toNat_toUInt32_mod (value : Int32) {width : Nat} (h : width ≤ 32) :
    value.toUInt32.toNat % 2 ^ width = lowBits width value := by
  have hdvd : (2 ^ width : Int) ∣ 2 ^ 32 := pow_dvd_pow 2 h
  have hword : value.toInt % 2 ^ 32 = value.toUInt32.toNat % 2 ^ 32 := by
    change value.toBitVec.toInt % 2 ^ 32 = (value.toBitVec.toNat : Int) % 2 ^ 32
    rw [BitVec.toInt_eq_toNat_bmod]
    exact Int.bmod_emod
  rw [lowBits, ← Int.emod_emod_of_dvd _ hdvd, hword, Int.emod_emod_of_dvd _ hdvd]
  norm_cast

section Words

variable {opcode marker destination source second target : Nat}

theorem bitsAt_branchWord (htarget : target < 2 ^ 24) :
    bitsAt (branchWord opcode target) 23 0 = some target := by
  simpa only [branchWord, List.append_nil] using
    @bitsAt_append (field 4 always.toNat ++ field 4 opcode) [] target 23 23 0 (by simp) rfl htarget

theorem bitsAt_dataWord (hmarker : marker < 2 ^ 1) (hdestination : destination < 2 ^ 4)
    (hsource : source < 2 ^ 4) (hsecond : second < 2 ^ 15) :
    bitsAt (dataWord opcode marker destination source second) 23 23 = some marker ∧
      bitsAt (dataWord opcode marker destination source second) 22 19 = some destination ∧
      bitsAt (dataWord opcode marker destination source second) 18 15 = some source ∧
      bitsAt (dataWord opcode marker destination source second) 14 0 = some second := by
  let start := field 4 always.toNat ++ field 4 opcode
  refine ⟨?marker, ?destination, ?source, ?second⟩
  case marker =>
    simpa only [dataWord, start, List.append_assoc] using
      @bitsAt_append start (field 4 destination ++ (field 4 source ++ field 15 second)) marker
        0 23 23 (by simp [start]) rfl hmarker
  case destination =>
    simpa only [dataWord, start, List.append_assoc] using
      @bitsAt_append (start ++ field 1 marker) (field 4 source ++ field 15 second) destination
        3 22 19 (by simp [start]) rfl hdestination
  case source =>
    simpa only [dataWord, start, List.append_assoc] using
      @bitsAt_append (start ++ field 1 marker ++ field 4 destination) (field 15 second) source
        3 18 15 (by simp [start]) rfl hsource
  case second =>
    simpa only [dataWord, start, List.append_nil] using
      @bitsAt_append (start ++ field 1 marker ++ field 4 destination ++ field 4 source) [] second
        14 14 0 (by simp [start]) rfl hsecond

end Words

-- The condition and the opcode stand in front.
theorem exists_bits_eq_append (op : Opcode) (operands : List String) :
    ∃ rest, bits op operands = field 4 always.toNat ++ (field 4 op.index ++ rest) ∧
      rest.length = 24 ∧ ∀ c ∈ rest, c = '0' ∨ c = '1' := by
  have hbranch (target : Nat) : ∃ rest,
      branchWord op.index target = field 4 always.toNat ++ (field 4 op.index ++ rest) ∧
        rest.length = 24 ∧ ∀ c ∈ rest, c = '0' ∨ c = '1' :=
    ⟨field 24 target, by rw [branchWord, List.append_assoc], by simp, fun c => mem_field⟩
  have hdata (marker destination source second : Nat) : ∃ rest,
      dataWord op.index marker destination source second =
          field 4 always.toNat ++ (field 4 op.index ++ rest) ∧
        rest.length = 24 ∧ ∀ c ∈ rest, c = '0' ∨ c = '1' := by
    refine ⟨field 1 marker ++ (field 4 destination ++ (field 4 source ++ field 15 second)), ?_,
      by simp, fun c hc => ?_⟩
    · simp only [dataWord, List.append_assoc]
    · simp only [List.mem_append] at hc
      rcases hc with hc | hc | hc | hc <;> exact mem_field hc
  rw [bits_eq_layout, layout]
  cases op.family with
  | branch => exact hbranch _
  | arithmetic | moveCompare | loadStore => exact hdata ..

theorem bitsAt_opcode (op : Opcode) (operands : List String) :
    bitsAt (bits op operands) 27 24 = some op.index := by
  obtain ⟨rest, hbits, -⟩ := exists_bits_eq_append op operands
  rw [hbits]
  exact @bitsAt_append (field 4 always.toNat) rest op.index 3 27 24 (by simp) rfl (index_lt op)

theorem opcode_eq_of_bits_eq {op other : Opcode} {operands others : List String}
    (h : bits op operands = bits other others) : op = other := by
  have hindex := bitsAt_opcode op operands
  rw [h, bitsAt_opcode] at hindex
  exact (Opcode.index_injective (Option.some.inj hindex)).symm

section Tokens

variable {token : String}

theorem registerNumber_of_register {r : Register} (h : Token.register token = .ok r) :
    (registerNumber (some token)).toNat = r.index.val := by
  simp only [registerNumber, Option.map_some, Token.withoutBrackets_of_register h, h,
    toNat_register]

theorem registerNumber_of_address {r : Register} (h : Token.address token = .ok r) :
    (registerNumber (some token)).toNat = r.index.val := by
  simp only [registerNumber, Option.map_some, Token.register_withoutBrackets h, toNat_register]

-- The marker of a second operand and the number behind it.
def operandNumbers : Operand → Nat × Nat
  | .register r => (0, r.index.val)
  | .immediate value => (1, lowBits 15 value)

theorem secondOperand_of_registerOrImmediate {operand : Operand}
    (h : Token.registerOrImmediate token = .ok operand) :
    (secondOperand (some token)).1.toNat = (operandNumbers operand).1 ∧
      (secondOperand (some token)).2.toNat = (operandNumbers operand).2 := by
  simp only [secondOperand, Option.map_some, h]
  cases operand with
  | register r => exact ⟨rfl, toNat_register r⟩
  | immediate value =>
    refine ⟨rfl, ?_⟩
    rw [toNat_and_mask 15 rfl, toNat_toUInt32_mod value (by decide)]
    rfl

theorem target_of_branchTarget {value : Int32} (h : Token.branchTarget token = .ok value) :
    (Encoding.target (some token)).toNat = lowBits 24 value := by
  obtain ⟨himmediate, -⟩ := Token.branchTarget_eq_ok.mp h
  simp only [Encoding.target, Option.map_some, himmediate]
  rw [toNat_and_mask 24 rfl, toNat_toUInt32_mod value (by decide)]

end Tokens

-- What the low bits hold for a second operand: a literal goes before a register.
def secondBits (decoded : OperandFields) : Option Nat :=
  match decoded.immediate with
  | some value => some (lowBits 15 value)
  | none => decoded.source2.map (·.index.val)

-- The fields of the word of an instruction other than a branch. The two last
-- ones depend on the family.
structure ShowsData (shown : List Char) (decoded : OperandFields) (source second : Option Nat) :
    Prop where
  marker : bitsAt shown 23 23 = some 1 ↔ decoded.immediate.isSome
  destination : bitsAt shown 22 19 = decoded.destination.map (·.index.val)
  source : bitsAt shown 18 15 = source
  second : bitsAt shown 14 0 = second

-- A word that shows the operand fields of an instruction.
def Shows (shown : List Char) (decoded : OperandFields) : Opcode.Family → Prop
  | .branch => bitsAt shown 23 0 = decoded.immediate.map (lowBits 24)
  | .arithmetic =>
    ShowsData shown decoded (decoded.source1.map (·.index.val)) (secondBits decoded)
  | .moveCompare => ShowsData shown decoded (some 0) (secondBits decoded)
  | .loadStore => ShowsData shown decoded (decoded.source2.map (·.index.val)) (some 0)

section WithSecond

variable {decoded : OperandFields} (operand : Operand)

theorem operandNumbers_lt :
    (operandNumbers operand).1 < 2 ^ 1 ∧ (operandNumbers operand).2 < 2 ^ 15 := by
  cases operand with
  | register r => exact ⟨Nat.zero_lt_succ 1, Nat.lt_trans r.index.isLt (by decide)⟩
  | immediate value => exact ⟨Nat.one_lt_two, lowBits_lt 15 value⟩

theorem marker_withSecond (h : decoded.immediate = none) :
    (operandNumbers operand).1 = 1 ↔ (decoded.withSecond operand).immediate.isSome := by
  cases operand <;> simp [operandNumbers, OperandFields.withSecond, h]

theorem secondBits_withSecond (h : decoded.immediate = none) :
    secondBits (decoded.withSecond operand) = some (operandNumbers operand).2 := by
  cases operand <;> simp [secondBits, OperandFields.withSecond, h, operandNumbers]

-- The second operand goes into the marker and the low bits, whatever else
-- stands in the word.
theorem showsData_withSecond {destination : Register}
    (hdestination : decoded.destination = some destination) (himmediate : decoded.immediate = none)
    (opcode : Nat) {source : Nat} (hsource : source < 2 ^ 4) :
    ShowsData
      (dataWord opcode (operandNumbers operand).1 destination.index.val source
        (operandNumbers operand).2)
      (decoded.withSecond operand) (some source) (secondBits (decoded.withSecond operand)) := by
  obtain ⟨hmarkerRoom, hsecondRoom⟩ := operandNumbers_lt operand
  obtain ⟨hmarker, hfirst, hshown, hsecond⟩ :=
    @bitsAt_dataWord opcode _ _ _ _ hmarkerRoom (registerIndex_lt destination) hsource hsecondRoom
  refine ⟨?_, ?_, hshown, ?_⟩
  · rw [hmarker, Option.some.injEq]
    exact marker_withSecond operand himmediate
  · rw [hfirst, OperandFields.destination_withSecond, hdestination]
    rfl
  · rw [hsecond, secondBits_withSecond operand himmediate]

end WithSecond

-- The word is made from the tokens again, and shows what they were decoded to.
theorem shows_of_readFrom {op : Opcode} {operands : List String} {decoded : OperandFields}
    (h : decoded.ReadFrom op.family operands) : Shows (bits op operands) decoded op.family := by
  rw [bits_eq_layout, layout]
  generalize op.family = family at h ⊢
  cases h with
  | @arithmetic _ _ _ d s x hdestination hsource hsecond =>
    obtain ⟨hmarker, hlow⟩ := secondOperand_of_registerOrImmediate hsecond
    have hshows := @showsData_withSecond { destination := some d, source1 := some s } x _ rfl rfl
      op.index _ (registerIndex_lt s)
    simp only [List.getElem?_cons_zero, List.getElem?_cons_succ,
      registerNumber_of_register hdestination, registerNumber_of_register hsource, hmarker, hlow,
      Shows, OperandFields.source1_withSecond]
    exact hshows
  | @moveCompare _ _ r x hregister hsecond =>
    obtain ⟨hmarker, hlow⟩ := secondOperand_of_registerOrImmediate hsecond
    have hshows := @showsData_withSecond { destination := some r, source1 := some r } x _ rfl rfl
      op.index 0 (by decide)
    simp only [List.getElem?_cons_zero, List.getElem?_cons_succ,
      registerNumber_of_register hregister, hmarker, hlow, Shows]
    exact hshows
  | @loadStore _ _ r a hregister haddress =>
    obtain ⟨hmarker, hfirst, hsource, hsecond⟩ :=
      @bitsAt_dataWord op.index 0 _ _ 0 (by decide) (registerIndex_lt r) (registerIndex_lt a)
        (by decide)
    have hshows : ShowsData (dataWord op.index 0 r.index.val a.index.val 0)
        { destination := some r, source1 := some r, source2 := some a } (some a.index.val)
        (some 0) :=
      ⟨by simp [hmarker], hfirst, hsource, hsecond⟩
    simp only [List.getElem?_cons_zero, List.getElem?_cons_succ,
      registerNumber_of_register hregister, registerNumber_of_address haddress, Shows]
    exact hshows
  | @branch _ t htarget =>
    simp only [List.getElem?_cons_zero, target_of_branchTarget htarget, Shows, Option.map_some]
    exact bitsAt_branchWord (lowBits_lt 24 t)

-- Fields whose immediate, if there is one, the word holds whole.
def Fits (decoded : OperandFields) : Opcode.Family → Prop
  | .branch => ∀ value, decoded.immediate = some value → value.toInt < 2 ^ 24
  | _ => ∀ value, decoded.immediate = some value → 0 ≤ value.toInt ∧ value.toInt < 2 ^ 15

section Recover

variable {decoded other : OperandFields} {shown : List Char}

theorem eq_of_lowBits {width : Nat} {value twin : Int32}
    (hvalue : 0 ≤ value.toInt ∧ value.toInt < 2 ^ width)
    (htwin : 0 ≤ twin.toInt ∧ twin.toInt < 2 ^ width)
    (h : lowBits width value = lowBits width twin) : value = twin := by
  rw [lowBits, lowBits, Int.emod_eq_of_lt hvalue.1 hvalue.2,
    Int.emod_eq_of_lt htwin.1 htwin.2] at h
  exact Int32.toInt_inj.mp (by omega)

theorem eq_of_index {r twin : Register} (h : some r.index.val = some twin.index.val) : r = twin :=
  Register.index_injective (Fin.ext (Option.some.inj h))

-- The marker tells a register from a literal, so the low bits mean one of them.
theorem eq_of_showsData_withSecond {operand twin : Operand} {source another : Option Nat}
    (hdecoded : decoded.immediate = none) (hother : other.immediate = none)
    (hfits : Fits (decoded.withSecond operand) .arithmetic)
    (htwin : Fits (other.withSecond twin) .arithmetic)
    (hshows : ShowsData shown (decoded.withSecond operand) source
      (secondBits (decoded.withSecond operand)))
    (hsame : ShowsData shown (other.withSecond twin) another
      (secondBits (other.withSecond twin))) : operand = twin := by
  have hmarker := hshows.marker.symm.trans hsame.marker
  have hsecond := hshows.second.symm.trans hsame.second
  cases operand with
  | register r =>
    cases twin with
    | register =>
      simp only [secondBits, OperandFields.withSecond, hdecoded, hother, Option.map_some] at hsecond
      rw [eq_of_index hsecond]
    | immediate => simp [OperandFields.withSecond, hdecoded] at hmarker
  | immediate value =>
    cases twin with
    | register => simp [OperandFields.withSecond, hother] at hmarker
    | immediate other =>
      rw [eq_of_lowBits (hfits value rfl) (htwin other rfl) (Option.some.inj hsecond)]

-- Fields that are laid out alike and shown by one word are the same.
theorem eq_of_shows {family : Opcode.Family} {operands others : List String}
    (h : decoded.ReadFrom family operands) (hother : other.ReadFrom family others)
    (hfits : Fits decoded family) (htwin : Fits other family)
    (hshows : Shows shown decoded family) (hsame : Shows shown other family) :
    decoded = other := by
  cases h with
  | @arithmetic _ _ _ d s x =>
    cases hother with
    | @arithmetic _ _ _ destination source second =>
      have hdestination : d = destination :=
        eq_of_index (by simpa using hshows.destination.symm.trans hsame.destination)
      have hsource : s = source :=
        eq_of_index (by simpa using hshows.source.symm.trans hsame.source)
      have hsecond : x = second :=
        eq_of_showsData_withSecond rfl rfl hfits htwin hshows hsame
      rw [hdestination, hsource, hsecond]
  | @moveCompare _ _ r x =>
    cases hother with
    | @moveCompare _ _ register second =>
      have hregister : r = register :=
        eq_of_index (by simpa using hshows.destination.symm.trans hsame.destination)
      have hsecond : x = second :=
        eq_of_showsData_withSecond rfl rfl hfits htwin hshows hsame
      rw [hregister, hsecond]
  | @loadStore _ _ r a =>
    cases hother with
    | @loadStore _ _ register address =>
      have hregister : r = register := eq_of_index (hshows.destination.symm.trans hsame.destination)
      have haddress : a = address := eq_of_index (hshows.source.symm.trans hsame.source)
      rw [hregister, haddress]
  | @branch _ t htarget =>
    cases hother with
    | @branch _ target hread =>
      have hfirst := (Token.branchTarget_eq_ok.mp htarget).2.1
      have hsecond := (Token.branchTarget_eq_ok.mp hread).2.1
      rw [eq_of_lowBits ⟨hfirst, hfits t rfl⟩ ⟨hsecond, htwin target rfl⟩
        (Option.some.inj (hshows.symm.trans hsame))]

end Recover

-- Every word begins with the condition and the opcode. Operands that are
-- accepted are shown as they are decoded, so what the word has room for can be
-- told from it.
theorem bits_agree (inst : Instruction) :
    let shown := bits inst.opcode inst.operands
    (shown.length = 32 ∧ (∀ c ∈ shown, c = '0' ∨ c = '1') ∧ ['1', '1', '1', '0'] <+: shown ∧
        bitsAt shown 27 24 = some inst.opcode.index) ∧
      (inst.opcode.validate inst.operands = .ok () →
        ∃ decoded, inst.decode = .ok decoded ∧ Shows shown decoded inst.opcode.family ∧
          ∀ (other : Instruction) (read : OperandFields),
            other.opcode.validate other.operands = .ok () → other.decode = .ok read →
            bits other.opcode other.operands = shown →
            Fits decoded inst.opcode.family → Fits read other.opcode.family →
            inst.opcode = other.opcode ∧ decoded = read) := by
  intro shown
  refine ⟨⟨?length, ?digits, ?condition, bitsAt_opcode _ _⟩, fun hvalid => ?decoded⟩
  case length =>
    obtain ⟨rest, hbits, hlength, -⟩ := exists_bits_eq_append inst.opcode inst.operands
    simp [shown, hbits, hlength]
  case digits =>
    obtain ⟨rest, hbits, -, hdigits⟩ := exists_bits_eq_append inst.opcode inst.operands
    intro c hc
    simp only [shown, hbits, List.mem_append] at hc
    rcases hc with hc | hc | hc
    · exact mem_field hc
    · exact mem_field hc
    · exact hdigits c hc
  case condition =>
    obtain ⟨rest, hbits, -⟩ := exists_bits_eq_append inst.opcode inst.operands
    exact ⟨_, hbits.symm⟩
  case decoded =>
    obtain ⟨decoded, hread⟩ := Opcode.exists_readFrom_of_validate hvalid
    refine ⟨decoded, Instruction.decode_of_readFrom hread, shows_of_readFrom hread, ?_⟩
    intro other read hother hdecode hsame hfits htwin
    obtain ⟨found, hfound⟩ := Opcode.exists_readFrom_of_validate hother
    obtain rfl : found = read :=
      Except.ok.inj ((Instruction.decode_of_readFrom hfound).symm.trans hdecode)
    have hop := (opcode_eq_of_bits_eq hsame).symm
    have hshows := shows_of_readFrom hfound
    rw [hsame] at hshows
    rw [← hop] at hfound htwin hshows
    exact ⟨hop, eq_of_shows hread hfound hfits htwin (shows_of_readFrom hread) hshows⟩

-- The largest literal that a word has room for, written in two ways.
private def widest : Instruction := .build 1 .cmp ["SP", "#0x7FFF"] "CMP SP, #0x7FFF" 1

private def decimal : Instruction := .build 2 .cmp ["SP", "32767"] "CMP SP, 32767" 2

private def compared : OperandFields where
  destination := some .sp
  source1 := some .sp
  immediate := some 0x7FFF

theorem bits_agree_widest :
    widest.bits = "11100101110100000111111111111111" ∧ decimal.bits = widest.bits ∧
      ∃ decoded read, widest.decode = .ok decoded ∧ decimal.decode = .ok read ∧ decoded = read ∧
        bitsAt (bits .cmp ["SP", "#0x7FFF"]) 22 19 = decoded.destination.map (·.index.val) := by
  have hwidest : widest.decode = .ok compared := rfl
  have hdecimal : decimal.decode = .ok compared := rfl
  have hfits : Fits compared .moveCompare := by
    intro value hvalue
    cases hvalue
    decide
  obtain ⟨-, hvalid⟩ := bits_agree widest
  obtain ⟨decoded, hdecode, hshows, hsame⟩ := hvalid rfl
  obtain rfl : compared = decoded := Except.ok.inj (hwidest.symm.trans hdecode)
  obtain ⟨-, hread⟩ := hsame decimal compared rfl hdecimal (by decide) hfits hfits
  exact ⟨by decide, by decide, compared, compared, hdecode, hdecimal, hread, hshows.destination⟩

-- A literal for which there is no room is cut off.
example : bits .mov ["R0", "#0x8001"] = bits .mov ["R0", "#1"] := by decide

end Encoding

end FiveStage
