import FiveStage.Proofs.Json.Scanning

namespace FiveStage.Json

-- A name as it is held when it is read.
def Name.IsExact (name : Name) : Prop :=
  name.escaped = name.text.toList.any needsEscape

-- A document that its own text gives back: all numbers are whole and fit in 64
-- bits, and names are held as they are read.
inductive Printable : Json → Prop
  | null : Printable .null
  | bool (b : Bool) : Printable (.bool b)
  | int {n : Int} (h : n.natAbs < UInt64.size) : Printable (.int n)
  | string (text : String) : Printable (.string text)
  | array {items : List Json} (h : ∀ item ∈ items, Printable item) : Printable (.array items)
  | object {members : List (Name × Json)} (hnames : ∀ member ∈ members, member.1.IsExact)
      (h : ∀ member ∈ members, Printable member.2) : Printable (.object members)

-- A text of whole tokens, newest first, behind which a new one can start.
def Between (text : String) (found : List Token) : Prop :=
  text.toList.foldlM Token.Scan.step? {} = some ⟨.between, found⟩

-- A text of whole tokens, newest first. The last of them may be a word that
-- goes on until something else ends it.
inductive Behind (text : String) : List Token → Prop
  | between {found : List Token} (h : Between text found) : Behind text found
  | word {chars : List Char} {found : List Token} {token : Token}
      (h : text.toList.foldlM Token.Scan.step? {} = some ⟨.word chars, found⟩)
      (htoken : Token.ofWord? chars.reverse = some token) : Behind text (token :: found)

-- A text that stands for no more than the given tokens and starts with what
-- ends a word.
structure Delimits (mark : String) (marks : List Token) : Prop where
  foldlM_eq (found : List Token) :
    mark.toList.foldlM Token.Scan.step? ⟨.between, found⟩ = some ⟨.between, marks ++ found⟩
  ends : ∃ c rest, mark.toList = c :: rest ∧ ∀ chars found,
    Token.Scan.step? ⟨.word chars, found⟩ c =
      (Token.ofWord? chars.reverse).bind fun token => Token.Scan.step? ⟨.between, token :: found⟩ c

section Reading

variable {text : String} {found : List Token}

theorem Behind.delimit {mark : String} {marks : List Token} (h : Behind text found)
    (hmark : Delimits mark marks) : Between (text ++ mark) (marks ++ found) := by
  rw [Between, String.toList_append]
  cases h with
  | between h => rw [Token.Scan.foldlM_append_of_eq h, hmark.foldlM_eq]
  | @word chars found token h htoken =>
    obtain ⟨c, rest, hlist, hends⟩ := hmark.ends
    have hword : mark.toList.foldlM Token.Scan.step? ⟨.word chars, found⟩ =
        mark.toList.foldlM Token.Scan.step? ⟨.between, token :: found⟩ := by
      rw [hlist, List.foldlM_cons, List.foldlM_cons, hends, htoken, Option.bind_some]
    rw [Token.Scan.foldlM_append_of_eq h, hword, hmark.foldlM_eq]

theorem Between.delimit {mark : String} {marks : List Token} (h : Between text found)
    (hmark : Delimits mark marks) : Between (text ++ mark) (marks ++ found) :=
  (Behind.between h).delimit hmark

theorem Between.quote (h : Between text found) (quoted : String) :
    Between (text ++ quote quoted)
      (.text (some quoted) (quoted.toList.any needsEscape) :: found) := by
  rw [Between, String.toList_append, Token.Scan.foldlM_append_of_eq h, Token.Scan.foldlM_quote]

-- All tokens have been read when the text ends.
theorem Behind.ofText?_eq (h : Behind text found) :
    Token.ofText? text.toList = some found.reverse := by
  cases h with
  | between h => rw [Token.ofText?, h]; rfl
  | word h htoken => simp [Token.ofText?, h, Token.Scan.finish?, htoken]

end Reading

theorem delimits_beginArray : Delimits "[" [.beginArray] :=
  ⟨fun _ => rfl, '[', [], rfl, fun _ _ => rfl⟩

theorem delimits_endArray : Delimits "]" [.endArray] :=
  ⟨fun _ => rfl, ']', [], rfl, fun _ _ => rfl⟩

theorem delimits_beginObject : Delimits "\x7b" [.beginObject] :=
  ⟨fun _ => rfl, '\x7b', [], rfl, fun _ _ => rfl⟩

theorem delimits_endObject : Delimits "\x7d" [.endObject] :=
  ⟨fun _ => rfl, '\x7d', [], rfl, fun _ _ => rfl⟩

theorem delimits_comma : Delimits "," [.comma] :=
  ⟨fun _ => rfl, ',', [], rfl, fun _ _ => rfl⟩

theorem delimits_colon : Delimits ": " [.colon] :=
  ⟨fun _ => rfl, ':', [' '], rfl, fun _ _ => rfl⟩

-- A new line with its indentation is blank.
theorem delimits_newLine (level : Nat) : Delimits (newLine level) [] where
  foldlM_eq found := by
    have hspaces (n : Nat) : (List.replicate n ' ').foldlM Token.Scan.step? ⟨.between, found⟩ =
        some ⟨.between, found⟩ := by
      induction n with
      | zero => rfl
      | succ n ih => exact ih
    have hline : "\n".toList.foldlM Token.Scan.step? ⟨.between, found⟩ =
        some ⟨.between, found⟩ := rfl
    rw [newLine, String.toList_append, Token.Scan.foldlM_append_of_eq hline,
      String.toList_ofList, hspaces, List.nil_append]
  ends := ⟨'\n', List.replicate (2 * level) ' ', by simp [newLine], fun _ _ => rfl⟩

-- A value that is not built from others is one token.
theorem Between.scalar {text word : String} {found : List Token} {token : Token}
    (h : Between text found)
    (hscan : word.toList.foldlM Token.Scan.step? ⟨.between, found⟩ =
      some ⟨.word word.toList.reverse, found⟩)
    (htoken : Token.ofWord? word.toList = some token) :
    Behind (text ++ word) (token :: found) := by
  rw [← word.toList.reverse_reverse] at htoken
  refine .word ?_ htoken
  rw [String.toList_append, Token.Scan.foldlM_append_of_eq h, hscan]

mutual

-- The text of a document, wherever it is appended, is read as the tokens of the
-- document.
theorem Between.appendPretty (document : Json) (hprintable : Printable document) (level : Nat)
    {text : String} {found : List Token} (h : Between text found) :
    Behind (appendPretty level text document) ((tokens document).reverse ++ found) := by
  match document, hprintable with
  | .null, _ => exact h.scalar rfl rfl
  | .bool true, _ => exact h.scalar rfl rfl
  | .bool false, _ => exact h.scalar rfl rfl
  | .int n, .int hn =>
    have hdigits : (scalarText (.int n)).toList = Token.signedDigits n := Token.toList_toString n
    exact h.scalar (by rw [hdigits, Token.foldlM_signedDigits])
      (by rw [hdigits, Token.ofWord?_signedDigits hn])
  | .string quoted, _ => exact .between (h.quote quoted)
  | .array [], _ =>
    have hclose := (h.delimit delimits_beginArray).delimit delimits_endArray
    refine .between ?_
    simpa [tokens, Json.appendPretty, String.append_assoc] using hclose
  | .array (first :: rest), .array hitems =>
    obtain ⟨hfirst, hrest⟩ := List.forall_mem_cons.mp hitems
    have hopen := (h.delimit delimits_beginArray).delimit (delimits_newLine (level + 1))
    have hread := Behind.appendPrettyItems rest hrest (level + 1)
      (Between.appendPretty first hfirst (level + 1) hopen)
    have hclose := (hread.delimit (delimits_newLine level)).delimit delimits_endArray
    refine .between ?_
    simpa [tokens, Json.appendPretty] using hclose
  | .object [], _ =>
    have hclose := (h.delimit delimits_beginObject).delimit delimits_endObject
    refine .between ?_
    simpa [tokens, Json.appendPretty, String.append_assoc] using hclose
  | .object ((name, value) :: rest), .object hnames hmembers =>
    obtain ⟨hname, hnames⟩ := List.forall_mem_cons.mp hnames
    obtain ⟨hvalue, hrest⟩ := List.forall_mem_cons.mp hmembers
    have hopen := (h.delimit delimits_beginObject).delimit (delimits_newLine (level + 1))
    have hcolon := (hopen.quote name.text).delimit delimits_colon
    have hread := Behind.appendPrettyMembers rest hnames hrest (level + 1)
      (Between.appendPretty value hvalue (level + 1) hcolon)
    have hclose := (hread.delimit (delimits_newLine level)).delimit delimits_endObject
    refine .between ?_
    simpa [tokens, Json.appendPretty, hname.symm] using hclose

theorem Behind.appendPrettyItems (items : List Json) (hprintable : ∀ item ∈ items, Printable item)
    (level : Nat) {text : String} {found : List Token} (h : Behind text found) :
    Behind (appendPrettyItems level text items) ((itemTokens items).reverse ++ found) := by
  match items with
  | [] => exact h
  | item :: rest =>
    obtain ⟨hitem, hrest⟩ := List.forall_mem_cons.mp hprintable
    have hcomma := (h.delimit delimits_comma).delimit (delimits_newLine level)
    have hread := Behind.appendPrettyItems rest hrest level
      (Between.appendPretty item hitem level hcomma)
    simpa [itemTokens, Json.appendPrettyItems] using hread

theorem Behind.appendPrettyMembers (members : List (Name × Json))
    (hnames : ∀ member ∈ members, member.1.IsExact)
    (hprintable : ∀ member ∈ members, Printable member.2)
    (level : Nat) {text : String} {found : List Token} (h : Behind text found) :
    Behind (appendPrettyMembers level text members) ((memberTokens members).reverse ++ found) := by
  match members with
  | [] => exact h
  | (name, value) :: rest =>
    obtain ⟨hname, hnames⟩ := List.forall_mem_cons.mp hnames
    obtain ⟨hvalue, hrest⟩ := List.forall_mem_cons.mp hprintable
    have hcomma := (h.delimit delimits_comma).delimit (delimits_newLine level)
    have hcolon := (hcomma.quote name.text).delimit delimits_colon
    have hread := Behind.appendPrettyMembers rest hnames hrest level
      (Between.appendPretty value hvalue level hcolon)
    simpa [memberTokens, Json.appendPrettyMembers, hname.symm] using hread

end

-- A printable document is read back from its text.
theorem parse?_pretty {document : Json} (h : Printable document) :
    parse? document.pretty = some document := by
  have hempty : Between "" [] := rfl
  have hread := Between.appendPretty document h 0 hempty
  rw [parse?, pretty, hread.ofText?_eq]
  simp [foldlM_tokens_complete]

end FiveStage.Json
