import InstrumentResponse.Decimal.Layout

/-!
# What can be wrong with a record

A record line is refused for a `Cause`.  `ReadFault` also says where it was found, and covers
tables that are declared longer than they are, or longer than can be held.
-/

namespace InstrumentResponse.Record

open Decimal (natural padded whole)

/-- Why a record line is refused. -/
inductive Cause where
  | malformed
  | noSeparator
  | emptyValue
  | notNumber (text : String)
  | notInteger (text : String)
  | negativeCount (value : Int)
  /-- A row without its value at a position, counted from 1. -/
  | missingValue (position : Nat)
  | notDate (text : String)
  /-- Another record was due. -/
  | mismatch (blockette field : Nat)
  | endOfInput (blockette field : Nat)
  | transferType (code : Char)
  | coefficientsType (code : Char)
  | polynomialType (code : Char)
  | symmetryCode (code : Char)
  | rowFormat (values : Nat)
  | decimationFactor
  | decimationOffset
  | sequenceNumber (value : Int)
  | stageCount (again expected : Nat)
  | stageCut
  | strayFilter (blockette : Nat)
deriving DecidableEq, Repr

/-- A record by its blockette and field numbers. -/
def recordName (blockette field : Nat) : String :=
  "B" ++ padded 3 blockette ++ "F" ++ padded 2 field

/-- A text in single quotes. -/
def quoted (s : String) : String := "'" ++ s ++ "'"

def Cause.message : Cause → String
  | malformed => "malformed record prefix, expected BxxxFyy"
  | noSeparator => "missing ':' separator"
  | emptyValue => "empty value"
  | notNumber s => quoted s ++ " is not a number"
  | notInteger s => quoted s ++ " is not an integer"
  | negativeCount n => quoted (whole n) ++ " is not a valid count"
  | missingValue n => "missing value #" ++ natural n
  | notDate s => quoted s ++ " is not a valid date"
  | mismatch b f => "(record, field) mismatch, expected " ++ recordName b f
  | endOfInput b f => "unexpected end of input, expected " ++ recordName b f
  | transferType c => "unsupported transfer function type " ++ quoted (String.singleton c)
  | coefficientsType c =>
    "unsupported transfer function type " ++ quoted (String.singleton c) ++
      " for coefficients, expected 'D'"
  | polynomialType c =>
    "unsupported transfer function type " ++ quoted (String.singleton c) ++
      " for a polynomial, expected 'P'"
  | symmetryCode c => "unsupported FIR symmetry code " ++ quoted (String.singleton c)
  | rowFormat n => "unknown response list row format (" ++ natural n ++ " values)"
  | decimationFactor => "invalid decimation factor"
  | decimationOffset => "invalid decimation offset"
  | sequenceNumber n => "invalid stage sequence number " ++ whole n
  | stageCount again expected =>
    "response reference declares " ++ natural again ++ " stages, expected " ++ natural expected
  | stageCut => "unexpected end of stage in response reference"
  | strayFilter b => "unexpected filter type B" ++ padded 3 b ++ " in response reference"

/-- Why a channel cannot be read. -/
inductive ReadFault where
  /-- A line is refused; the line number counts all lines of the text. -/
  | line (number blockette field : Nat) (text : String) (cause : Cause)
  /-- A table is declared longer than can be held. -/
  | unreservable (what : String) (count : Nat)
  /-- A table ends after `found` rows. -/
  | truncated (what : String) (found count : Nat)
deriving DecidableEq, Repr

def ReadFault.message : ReadFault → String
  | line number blockette field text cause =>
    "parse error at line " ++ natural number ++ " (" ++ recordName blockette field ++ "): " ++
      cause.message ++ "; offending text: " ++ quoted text
  | unreservable what count => "cannot allocate " ++ natural count ++ " " ++ what
  | truncated what found count =>
    "cannot allocate " ++ natural count ++ " " ++ what ++ " (table truncated after " ++
      natural found ++ " rows)"

end InstrumentResponse.Record
