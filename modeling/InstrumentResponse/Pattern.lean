import InstrumentResponse.Text.Words

/-!
# Code patterns

Station, channel, network and location codes are selected by lists of patterns.  In a pattern `*`
stands for any run of characters and `?` for any one character, within a line; `??` alone stands for
a blank code.
-/

namespace InstrumentResponse

/-- A character of a pattern. -/
inductive PatternChar where
  | anyRun
  | anyOne
  | literal (c : Char)
deriving DecidableEq, Repr

/-- A pattern for codes. -/
inductive Pattern where
  /-- The empty code, and no other. -/
  | blank
  | glob (chars : List PatternChar)
deriving DecidableEq, Repr

namespace Pattern

def charOf (c : Char) : PatternChar :=
  if c = '*' then .anyRun else if c = '?' then .anyOne else .literal c

/-- The pattern that a text denotes. -/
def read (s : String) : Pattern :=
  if s = "" ∨ s = "??" then blank else glob (s.toList.map charOf)

/-- May a wildcard stand for a character? -/
def isWild (c : Char) : Bool := c != '\n'

/-- Does a whole code match? -/
def matchesChars : List PatternChar → List Char → Bool
  | [], cs => cs.isEmpty
  | .anyRun :: ps, [] => matchesChars ps []
  | .anyRun :: ps, c :: cs =>
    matchesChars ps (c :: cs) || (isWild c && matchesChars (.anyRun :: ps) cs)
  | .anyOne :: ps, c :: cs => isWild c && matchesChars ps cs
  | .literal d :: ps, c :: cs => c == d && matchesChars ps cs
  | .anyOne :: _, [] => false
  | .literal _ :: _, [] => false
termination_by ps cs => ps.length + cs.length

def accepts (p : Pattern) (code : String) : Bool :=
  match p with
  | blank => code.isEmpty
  | glob ps => matchesChars ps code.toList

/-- The pattern that accepts every code of one line. -/
def any : Pattern := glob [.anyRun]

/-- The patterns of a list, which are separated by commas and blanks; an empty list stands for the
blank code. -/
def readList (s : String) : List Pattern :=
  match (Text.piecesBy (fun c => c == ',' || Text.isBlank c) s).filter (!·.isEmpty) with
  | [] => [blank]
  | items => items.map read

/-- Does one of some patterns accept a code? -/
def anyAccepts (ps : List Pattern) (code : String) : Bool := ps.any (·.accepts code)

end Pattern

end InstrumentResponse
