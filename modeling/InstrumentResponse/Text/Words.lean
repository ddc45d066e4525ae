import InstrumentResponse.Text.Blank

/-!
# Words and pieces of a text

* `trim`: a text without the blanks around it.
* `words`: the longest runs without blanks.
* `pieces`: the parts between the occurrences of a separator, one more than there are separators.
* `linesOf`: the parts ended by line feeds; a carriage return before a line feed is dropped, and
  nothing follows a last line feed.
-/

namespace InstrumentResponse.Text

/-- The characters of a text without the blanks around them. -/
def trimChars (cs : List Char) : List Char :=
  ((cs.dropWhile isBlank).reverse.dropWhile isBlank).reverse

/-- A text without the blanks around it. -/
def trim (s : String) : String := String.ofList (trimChars s.toList)

/-- Adds an element to the first of some parts. -/
def consHead {α : Type} (c : α) : List (List α) → List (List α)
  | [] => [[c]]
  | w :: ws => (c :: w) :: ws

/-- The parts of a list between the elements that satisfy `p`. -/
def piecesOf {α : Type} (p : α → Bool) (cs : List α) : List (List α) :=
  cs.foldr (fun c ws => if p c then [] :: ws else consHead c ws) [[]]

theorem piecesOf_nil {α : Type} (p : α → Bool) : piecesOf p [] = [[]] := rfl

theorem piecesOf_cons {α : Type} (p : α → Bool) (c : α) (cs : List α) :
    piecesOf p (c :: cs) = if p c then [] :: piecesOf p cs else consHead c (piecesOf p cs) := rfl

/-- The parts of a text between the characters that satisfy `p`. -/
def piecesBy (p : Char → Bool) (s : String) : List String :=
  (piecesOf p s.toList).map String.ofList

/-- The parts of a text between the occurrences of `c`. -/
def pieces (c : Char) (s : String) : List String := piecesBy (· == c) s

/-- The longest runs without blanks. -/
def words (s : String) : List String :=
  ((piecesOf isBlank s.toList).filter (!·.isEmpty)).map String.ofList

/-- A part and what follows the first occurrence of `c`, if there is one. -/
def cutAt (c : Char) : List Char → List Char × Option (List Char)
  | [] => ([], none)
  | d :: ds =>
    if d == c then ([], some ds)
    else
      let (a, b) := cutAt c ds
      (d :: a, b)

/-- At most `n + 1` parts of a text: it is cut at the first `n` occurrences of `c`. -/
def firstPieces (c : Char) : Nat → List Char → List String
  | 0, cs => [String.ofList cs]
  | n + 1, cs =>
    match cutAt c cs with
    | (a, none) => [String.ofList a]
    | (a, some rest) => String.ofList a :: firstPieces c n rest

/-- A line without the carriage return that ends it. -/
def dropReturn (cs : List Char) : List Char :=
  if cs.getLast? = some '\r' then cs.dropLast else cs

/-- The lines of a text, the carriage return before a line feed dropped. -/
def linesOf (cs : List Char) : List (List Char) :=
  match (piecesOf (· == '\n') cs).reverse with
  | [] => []
  | last :: rest =>
    let ended := rest.reverse.map dropReturn
    if last.isEmpty then ended else ended ++ [last]

end InstrumentResponse.Text
