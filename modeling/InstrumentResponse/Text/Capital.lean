/-!
# Capital letters

Unit names are compared in capitals.  `capital` gives the full upper-case form of a character as
far as it holds ASCII letters: the lower-case letters of ASCII, and the few letters outside ASCII
whose upper-case form is made of ASCII letters or begins or ends with one.  All other characters
stand for themselves, since no unit symbol holds them in either case.
-/

namespace InstrumentResponse.Text

/-- Letters outside ASCII whose upper-case form holds ASCII letters. -/
def capitalTable : List (Char × String) :=
  [('ß', "SS"), ('ı', "I"), ('ŉ', "ʼN"), ('ſ', "S"), ('ǰ', "J\u030C"), ('ẖ', "H\u0331"),
   ('ẗ', "T\u0308"), ('ẘ', "W\u030A"), ('ẙ', "Y\u030A"), ('ẚ', "Aʾ"), ('ﬀ', "FF"), ('ﬁ', "FI"),
   ('ﬂ', "FL"), ('ﬃ', "FFI"), ('ﬄ', "FFL"), ('ﬅ', "ST"), ('ﬆ', "ST")]

/-- The upper-case form of a character. -/
def capital (c : Char) : List Char :=
  if 'a' ≤ c ∧ c ≤ 'z' then [Char.ofNat (c.toNat - 32)]
  else
    match capitalTable.find? (·.1 == c) with
    | some (_, s) => s.toList
    | none => [c]

/-- The upper-case form of a text. -/
def capitals (cs : List Char) : List Char := cs.flatMap capital

/-- The lower-case letter of an ASCII letter. -/
def lowerChar (c : Char) : Char := if 'A' ≤ c ∧ c ≤ 'Z' then Char.ofNat (c.toNat + 32) else c

/-- A text with its ASCII letters in lower case. -/
def lowerAscii (s : String) : String := String.ofList (s.toList.map lowerChar)

end InstrumentResponse.Text
