import InstrumentResponse.Channel
import InstrumentResponse.Decimal.Reading
import InstrumentResponse.Record.Fault
import InstrumentResponse.StageRange

/-!
# Faults and warnings

* `Fault`: why a channel has no response.
* `Warning`: what is worth knowing about a channel that has one.

Both keep the numbers that they are about; `message` writes them out for doubles, in a given style.
-/

namespace InstrumentResponse

open Decimal (natural padded Layout)

/-- How a stage breaks the rules of a chain. -/
inductive ChainFault (α : Type) where
  | genericTwice
  | recursiveTwice
  | secondDecimation
  | secondGain
  | secondFilter
  /-- A response list beside other stages. -/
  | listNotAlone
  | strayDecimation
  | undefinedUnits
  | decimationMissing (kind : String)
  | noGain
  | zeroGain
  /-- A filter lets nothing through at one of two frequencies. -/
  | nullResponse (kind : String) (gainFrequency reference : α)
  | noRow (index : Nat) (frequency : α)
deriving DecidableEq, Repr

/-- How a number lies outside the domain of a transfer function. -/
inductive DomainFault (α : Type) where
  | notPositive (x : α)
  | noOperatingPoint
deriving DecidableEq, Repr

/-- How knots, a grid or options do not make sense. -/
inductive ConfigFault (α : Type) where
  | knotCounts (ordinates abscissas : Nat)
  | fewKnots
  | knotOrder (index : Nat) (x before : α)
  | emptyGrid
  | boundsNotFinite (low high : α)
  | lowBoundNotPositive
deriving DecidableEq, Repr

/-- Why a channel has no response. -/
inductive Fault (α : Type) where
  | reading (fault : Record.ReadFault)
  | chain (stage : Nat) (fault : ChainFault α)
  /-- What one stage gives out is not what the next one takes in. -/
  | unitsMismatch (previous : Nat) (output : Quantity) (stage : Nat) (input : Quantity)
  | noStageMatched (range : StageRange)
  | domain (fault : DomainFault α)
  /-- No requested frequency lies in the range of a response list. -/
  | outsideList (requested : Nat) (low high : α)
  | noChannel
  | config (fault : ConfigFault α)
deriving DecidableEq, Repr

/-- What is worth knowing about a channel. -/
inductive Warning (α : Type) where
  | unknownUnit (name : String)
  | firNormalized (sum : α) (id : ChannelId)
  | genericIgnored (stage : Nat) (id : ChannelId)
  | gainAssumed (stage : Nat) (id : ChannelId)
  | sensitivityDiffers (computed documented percent : α) (id : ChannelId)
  | frequenciesClipped (count : Nat) (low high : α)
  | tabulatedOnly (id : ChannelId) (rows : Nat)
  | failed (id : ChannelId) (fault : Fault α)
deriving DecidableEq, Repr

/-! ## Texts -/

/-- How messages write numbers that have an exponent. -/
structure NumberStyle where
  /-- A number in full. -/
  exact : Float → String
  /-- A number rounded to seven digits. -/
  rounded : Float → String

/-- The fewest digits that read back, with an exponent. -/
def exactNumber : Layout := ⟨none, 'E', false, 1, "NaN", "inf"⟩

/-- Seven digits, with an exponent. -/
def roundedNumber : Layout := { exactNumber with significant := some 7 }

/-- The style of messages. -/
def NumberStyle.standard : NumberStyle := ⟨exactNumber.write, roundedNumber.write⟩

/-- Both kinds of numbers in one layout. -/
def NumberStyle.uniform (l : Layout) : NumberStyle :=
  ⟨l.write, fun x => l.write (Decimal.roundTo 7 x)⟩

def ChainFault.message (style : NumberStyle) : ChainFault Float → String
  | genericTwice => "multiple generic blockettes in one stage are not supported"
  | recursiveTwice => "multiple coefficient blockettes in IIR stages are not supported"
  | secondDecimation => "more than one decimation"
  | secondGain => "more than one gain"
  | secondFilter => "more than one filter type"
  | listNotAlone => "a response list cannot be mixed with other filter stages"
  | strayDecimation => "decimation with no associated filter"
  | undefinedUnits => "undefined units"
  | decimationMissing kind => "required decimation missing after " ++ kind ++ " filter"
  | noGain => "stage has no gain"
  | zeroGain => "zero stage gain"
  | nullResponse kind f g =>
    "null " ++ kind ++ " response at " ++ style.exact f ++ " Hz or " ++ style.exact g ++
      " Hz, cannot normalize the gain"
  | noRow index f =>
    "response list has no row " ++ natural index ++ " for " ++ Decimal.plain f ++ " Hz"

def DomainFault.message : DomainFault Float → String
  | notPositive x =>
    "cannot compute a polynomial response for a non-positive input (" ++ Decimal.plain x ++ ")"
  | noOperatingPoint => "a polynomial stage needs a positive operating point"

def ConfigFault.message : ConfigFault Float → String
  | knotCounts ys xs =>
    "spline needs as many ordinates as abscissas (" ++ natural ys ++ " vs " ++ natural xs ++ ")"
  | fewKnots => "spline needs at least 2 knots"
  | knotOrder i x before =>
    "spline knots must be strictly increasing (index " ++ natural i ++ ": " ++ Decimal.plain x ++
      " after " ++ Decimal.plain before ++ ")"
  | emptyGrid => "frequency grid needs at least one frequency"
  | boundsNotFinite low high =>
    "frequency bounds must be finite (got " ++ Decimal.plain low ++ " and " ++ Decimal.plain high ++
      ")"
  | lowBoundNotPositive => "cannot use a non-positive frequency with logarithmic spacing"

def Fault.message (style : NumberStyle) : Fault Float → String
  | reading f => f.message
  | chain stage f =>
    "invalid response structure at stage " ++ natural stage ++ ": " ++ f.message style
  | unitsMismatch previous output stage input =>
    "units mismatch between stages: stage " ++ natural previous ++ " outputs " ++ output.code ++
      " but stage " ++ natural stage ++ " expects " ++ input.code
  | noStageMatched range => "no stage matched the requested range " ++ range.text
  | domain f => "domain error: " ++ f.message
  | outsideList requested low high =>
    "no requested frequency in the range of the response list ([" ++ style.rounded low ++
      ", " ++ style.rounded high ++ "] Hz, " ++ natural requested ++ " requested)"
  | noChannel => "no channel found in input"
  | config f => "invalid configuration: " ++ f.message

def Warning.message (style : NumberStyle) : Warning Float → String
  | unknownUnit name => "units '" ++ name ++ "' are not supported"
  | firNormalized sum id =>
    "FIR normalized: sum[coef]=" ++ style.exact sum ++ "; " ++ id.text
  | genericIgnored stage id =>
    "generic response detected in stage " ++ natural stage ++ " of " ++ id.text ++
      "; content is ignored"
  | gainAssumed stage id =>
    "stage " ++ natural stage ++ " of " ++ id.text ++ " has no gain; using 1.0 at 1 Hz"
  | sensitivityDiffers computed documented percent id =>
    "computed sensitivity " ++ style.exact computed ++ " differs from the documented " ++
      style.exact documented ++ " by " ++ Decimal.fixed 1 percent ++ "% for " ++ id.text
  | frequenciesClipped count low high =>
    natural count ++ (if count = 1 then " frequency" else " frequencies") ++
      " clipped outside the response list range [" ++ style.exact low ++ ", " ++
      style.exact high ++ "] Hz"
  | tabulatedOnly id rows =>
    id.text ++ " is a response list; computed only at its " ++ natural rows ++
      " tabulated frequencies"
  | failed id fault => id.text ++ ": " ++ fault.message style

end InstrumentResponse
