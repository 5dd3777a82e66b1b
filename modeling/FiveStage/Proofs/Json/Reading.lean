import FiveStage.Json.Reader

namespace FiveStage.Json

-- What is written with an escape in a quoted text.
def needsEscape (c : Char) : Bool :=
  c = '"' || c = '\\' || c.toNat < 0x20

theorem needsEscape_of_isDigit {c : Char} (h : c.isDigit) : needsEscape c = false := by
  have hrange : '0' ≤ c ∧ c ≤ '9' := by
    simpa [Char.isDigit, Char.le_def] using h
  have hcontrol : '0'.toNat ≤ c.toNat := hrange.1
  have hquote : c ≠ '"' := by
    rintro rfl
    exact absurd h (by decide)
  have hslash : c ≠ '\\' := by
    rintro rfl
    exact absurd h (by decide)
  have : '0'.toNat = 48 := rfl
  simp only [needsEscape, hquote, hslash, decide_false, Bool.false_or, decide_eq_false_iff_not]
  omega

mutual

-- The tokens that a document is written in.
def tokens : Json → List Token
  | .array [] => [.beginArray, .endArray]
  | .array (first :: rest) => .beginArray :: (tokens first ++ (itemTokens rest ++ [.endArray]))
  | .object [] => [.beginObject, .endObject]
  | .object ((name, value) :: rest) =>
    .beginObject :: .text (some name.text) name.escaped :: .colon ::
      (tokens value ++ (memberTokens rest ++ [.endObject]))
  | .string text => [.text (some text) (text.toList.any needsEscape)]
  | scalar => [.scalar scalar]

def itemTokens : List Json → List Token
  | [] => []
  | item :: rest => .comma :: (tokens item ++ itemTokens rest)

def memberTokens : List (Name × Json) → List Token
  | [] => []
  | (name, value) :: rest =>
    .comma :: .text (some name.text) name.escaped :: .colon :: (tokens value ++ memberTokens rest)

end

namespace Reader

-- The first item of an array is read as a value, as no value starts with the
-- end of an array.
theorem foldlM_firstItem (document : Json) (outer : List Frame) (rest : List Token) :
    (tokens document ++ rest).foldlM step? (.firstItem outer) =
      (tokens document ++ rest).foldlM step? (.value (.items [] :: outer)) := by
  match document with
  | .array [] | .array (_ :: _) | .object [] | .object (_ :: _) | .string _
  | .null | .bool _ | .int _ | .decimal _ | .unreadable => simp [tokens, step?]

mutual

-- A document is read back from its tokens whatever stands around it and comes
-- after it.
theorem foldlM_tokens (document : Json) (outer : List Frame) (rest : List Token) :
    (tokens document ++ rest).foldlM step? (.value outer) =
      rest.foldlM step? (put document outer) := by
  match document with
  | .array [] => rfl
  | .array (first :: items) =>
    have opened : (tokens (.array (first :: items)) ++ rest).foldlM step? (.value outer) =
        (tokens first ++ (itemTokens items ++ (.endArray :: rest))).foldlM step?
          (.firstItem outer) := by
      simp [tokens, step?, enter?]
    rw [opened, foldlM_firstItem, foldlM_tokens first]
    change (itemTokens items ++ (.endArray :: rest)).foldlM step? (.afterItem [first] outer) = _
    rw [foldlM_itemTokens items]
    simp [step?]
  | .object [] => rfl
  | .object ((name, held) :: members) =>
    have opened : (tokens (.object ((name, held) :: members)) ++ rest).foldlM step?
        (.value outer) =
          (tokens held ++ (memberTokens members ++ (.endObject :: rest))).foldlM step?
            (.value (.member (some []) (some name) :: outer)) := by
      simp [tokens, step?, enter?]
    rw [opened, foldlM_tokens held]
    change (memberTokens members ++ (.endObject :: rest)).foldlM step?
      (.afterMember (some [(name, held)]) outer) = _
    rw [foldlM_memberTokens members]
    simp [step?]
  | .string text => rfl
  | .null | .bool _ | .int _ | .decimal _ | .unreadable => rfl

theorem foldlM_itemTokens (items done : List Json) (outer : List Frame) (rest : List Token) :
    (itemTokens items ++ rest).foldlM step? (.afterItem done outer) =
      rest.foldlM step? (.afterItem (items.reverse ++ done) outer) := by
  match items with
  | [] => rfl
  | item :: items =>
    have next : (itemTokens (item :: items) ++ rest).foldlM step? (.afterItem done outer) =
        (tokens item ++ (itemTokens items ++ rest)).foldlM step?
          (.value (.items done :: outer)) := by
      simp [itemTokens, step?]
    rw [next, foldlM_tokens item]
    change (itemTokens items ++ rest).foldlM step? (.afterItem (item :: done) outer) = _
    rw [foldlM_itemTokens items]
    simp

theorem foldlM_memberTokens (members done : List (Name × Json)) (outer : List Frame)
    (rest : List Token) :
    (memberTokens members ++ rest).foldlM step? (.afterMember (some done) outer) =
      rest.foldlM step? (.afterMember (some (members.reverse ++ done)) outer) := by
  match members with
  | [] => rfl
  | (name, held) :: members =>
    have next : (memberTokens ((name, held) :: members) ++ rest).foldlM step?
        (.afterMember (some done) outer) =
          (tokens held ++ (memberTokens members ++ rest)).foldlM step?
            (.value (.member (some done) (some name) :: outer)) := by
      simp [memberTokens, step?]
    rw [next, foldlM_tokens held]
    change (memberTokens members ++ rest).foldlM step?
      (.afterMember (some ((name, held) :: done)) outer) = _
    rw [foldlM_memberTokens members]
    simp

end

end Reader

-- A document is what is read from its tokens.
theorem foldlM_tokens_complete (document : Json) :
    (tokens document).foldlM Reader.step? (.value []) = some (.complete document) := by
  simpa [Reader.put] using Reader.foldlM_tokens document [] []

end FiveStage.Json
