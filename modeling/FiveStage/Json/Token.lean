import FiveStage.Json.Number

namespace FiveStage.Json

inductive Token
  | beginArray | endArray | beginObject | endObject | colon | comma
  -- a quoted text, absent if it has half a surrogate pair, and whether it is
  -- written with escapes
  | text (value : Option String) (escaped : Bool)
  -- null, a truth value or a number
  | scalar (value : Json)

namespace Token

def isHighSurrogate (unit : Nat) : Bool := 0xD800 ≤ unit && unit < 0xDC00

def isLowSurrogate (unit : Nat) : Bool := 0xDC00 ≤ unit && unit < 0xE000

-- The characters that code units spell. An escape names a unit and any other
-- character is a unit of its own; two halves of a surrogate pair belong
-- together.
def charsOfUnits? : List Nat → Option (List Char)
  | [] => some []
  | [unit] =>
    if isHighSurrogate unit || isLowSurrogate unit then none else some [Char.ofNat unit]
  | high :: low :: rest =>
    if isHighSurrogate high && isLowSurrogate low then
      (charsOfUnits? rest).map
        (Char.ofNat (0x10000 + (high - 0xD800) * 0x400 + (low - 0xDC00)) :: ·)
    else if isHighSurrogate high || isLowSurrogate high then none
    else (charsOfUnits? (low :: rest)).map (Char.ofNat high :: ·)

-- A word is null, a truth value or a number.
def ofWord? (word : List Char) : Option Token :=
  if word = ['n', 'u', 'l', 'l'] then some (.scalar .null)
  else if word = ['t', 'r', 'u', 'e'] then some (.scalar (.bool true))
  else if word = ['f', 'a', 'l', 's', 'e'] then some (.scalar (.bool false))
  else (NumberLiteral.ofWord? word).map fun literal => .scalar (literal.toJson word)

-- Where the reader of tokens stands. Units and characters are newest first.
inductive Mode
  | between
  | word (chars : List Char)
  | text (units : List Nat) (escaped : Bool)
  | escape (units : List Nat)
  -- the digits of a `\u` escape that are still due, and the value so far
  | unicode (units : List Nat) (due value : Nat)

-- The mode, and the tokens found, newest first.
structure Scan where
  mode : Mode := .between
  tokens : List Token := []

namespace Scan

private def mark? : Char → Option Token
  | '[' => some .beginArray
  | ']' => some .endArray
  | '\x7b' => some .beginObject
  | '\x7d' => some .endObject
  | ':' => some .colon
  | ',' => some .comma
  | _ => none

private def isBlank (c : Char) : Bool :=
  c = ' ' || c = '\t' || c = '\n' || c = '\r'

private def plainEscape? : Char → Option Char
  | '"' => some '"'
  | '\\' => some '\\'
  | '/' => some '/'
  | 'b' => some '\x08'
  | 'f' => some '\x0c'
  | 'n' => some '\n'
  | 'r' => some '\r'
  | 't' => some '\t'
  | _ => none

-- A character that ends a word or stands between words.
private def delimit? (tokens : List Token) (c : Char) : Option Scan :=
  if isBlank c then some ⟨.between, tokens⟩
  else if c = '"' then some ⟨.text [] false, tokens⟩
  else (mark? c).map fun token => ⟨.between, token :: tokens⟩

private def isDelimiter (c : Char) : Bool :=
  isBlank c || c = '"' || (mark? c).isSome

def step? (scan : Scan) (c : Char) : Option Scan :=
  match scan.mode with
  | .between =>
    if isDelimiter c then delimit? scan.tokens c else some { scan with mode := .word [c] }
  | .word chars =>
    if isDelimiter c then
      (ofWord? chars.reverse).bind fun token => delimit? (token :: scan.tokens) c
    else some { scan with mode := .word (c :: chars) }
  | .text units escaped =>
    if c = '"' then
      let value := (charsOfUnits? units.reverse).map String.ofList
      some ⟨.between, .text value escaped :: scan.tokens⟩
    else if c = '\\' then some { scan with mode := .escape units }
    else if c.toNat < 0x20 then none
    else some { scan with mode := .text (c.toNat :: units) escaped }
  | .escape units =>
    if c = 'u' then some { scan with mode := .unicode units 4 0 }
    else (plainEscape? c).map fun plain => { scan with mode := .text (plain.toNat :: units) true }
  | .unicode units due value =>
    (Numeral.shiftIn? 16 value c).map fun value =>
      if due ≤ 1 then { scan with mode := .text (value :: units) true }
      else { scan with mode := .unicode units (due - 1) value }

private theorem isDelimiter_of_isDigit {c : Char} (h : c.isDigit ∨ c = '-') :
    isDelimiter c = false := by
  have hne (mark : Char) (hmark : ¬(mark.isDigit ∨ mark = '-')) : c ≠ mark :=
    fun heq => hmark (heq ▸ h)
  have hnone : mark? c = none := by
    unfold mark?
    split
    case h_7 => rfl
    all_goals exact absurd h (by decide)
  simp [isDelimiter, isBlank, hnone, hne ' ' (by decide), hne '\t' (by decide),
    hne '\n' (by decide), hne '\r' (by decide), hne '"' (by decide)]

-- Digits and a minus sign start a word and go on with it.
theorem step?_between_of_isDigit {c : Char} (h : c.isDigit ∨ c = '-') (tokens : List Token) :
    step? ⟨.between, tokens⟩ c = some ⟨.word [c], tokens⟩ := by
  simp [step?, isDelimiter_of_isDigit h]

theorem step?_word_of_isDigit {c : Char} (h : c.isDigit ∨ c = '-') (chars : List Char)
    (tokens : List Token) :
    step? ⟨.word chars, tokens⟩ c = some ⟨.word (c :: chars), tokens⟩ := by
  simp [step?, isDelimiter_of_isDigit h]

-- The tokens of a text that has been read to its end.
def finish? (scan : Scan) : Option (List Token) :=
  match scan.mode with
  | .between => some scan.tokens.reverse
  | .word chars => (ofWord? chars.reverse).map fun token => (token :: scan.tokens).reverse
  | .text _ _ | .escape _ | .unicode _ _ _ => none

end Scan

-- The tokens of a JSON text.
def ofText? (text : List Char) : Option (List Token) :=
  (text.foldlM Scan.step? {}).bind Scan.finish?

end Token

end FiveStage.Json
