namespace FiveStage.Text

-- Splits at every separator. There is one piece more than there are
-- separators, and pieces may be empty.
def pieces (isSeparator : Char → Bool) (text : List Char) : List (List Char) :=
  text.foldr
    (fun c found =>
      if isSeparator c then [] :: found
      else match found with
        | [] => [[c]]
        | piece :: others => (c :: piece) :: others)
    [[]]

@[simp] theorem pieces_nil (isSeparator : Char → Bool) : pieces isSeparator [] = [[]] := rfl

-- Pieces are never missing altogether: text without a separator is one piece.
theorem pieces_ne_nil (isSeparator : Char → Bool) (text : List Char) :
    pieces isSeparator text ≠ [] := by
  cases text with
  | nil => simp
  | cons c rest =>
    simp only [pieces, List.foldr_cons]
    split
    · simp
    · split <;> simp

-- The maximal runs of characters that are no separators.
def runs (isSeparator : Char → Bool) (text : List Char) : List (List Char) :=
  (pieces isSeparator text).filter fun piece => !piece.isEmpty

-- The text before the first mark and, when there is a mark, the text after it.
def cut (mark : Char) : List Char → List Char × Option (List Char)
  | [] => ([], none)
  | c :: rest =>
    if c = mark then ([], some rest)
    else
      let (before, after) := cut mark rest
      (c :: before, after)

-- Removes one carriage return from the end.
def dropReturn (line : List Char) : List Char :=
  if line.getLast? = some '\r' then line.dropLast else line

-- The lines of a text. A line ends at a line feed, of which a carriage return
-- just before it is part; the text after the last line feed is a line unless
-- it is empty.
def lines (text : List Char) : List (List Char) :=
  let all := pieces (· = '\n') text
  let ended := all.dropLast.map dropReturn
  match all.getLast? with
  | none | some [] => ended
  | some last => ended ++ [last]

end FiveStage.Text
