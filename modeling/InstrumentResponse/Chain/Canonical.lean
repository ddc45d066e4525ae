import InstrumentResponse.Report

/-!
# Canonical elements

* `Fir.canonical`: an impulse response given by all its taps is scaled to sum 1, and stored by half
  if it reads the same from both ends.
* `Chain.merge`: a table or an impulse response that continues over neighbouring elements is joined
  into one.
-/

namespace InstrumentResponse

variable {α : Type} [Scalar α]

namespace Fir

/-- Two taps that count as equal. -/
def nearlyEqual (a b : α) : Bool :=
  decide (Scalar.abs (a - b) ≤ 1 / (1000000000 : Nat) * Scalar.larger (Scalar.abs a) (Scalar.abs b))

/-- The sum that taps have to be divided by: neither 0 nor within a fiftieth of 1. -/
def excess? (taps : List α) : Option α :=
  let sum := Scalar.sum taps
  if !taps.isEmpty && !(sum == 0) && decide (1 / 50 < Scalar.abs (sum - 1)) then some sum else none

/-- Taps divided by their sum, if that is needed. -/
def unitSum (taps : List α) : List α :=
  match excess? taps with
  | none => taps
  | some sum => taps.map (· / sum)

/-- The taps that are left out when the first half of `taps` is stored, from the last one on. -/
def secondHalf (taps : List α) : List α := (taps.drop ((taps.length + 1) / 2)).reverse

/-- Do some taps read the same from both ends? -/
def isSymmetric (taps : List α) : Bool :=
  (taps.zip (secondHalf taps)).all fun (a, b) => nearlyEqual b a

/-- The same filter stored by half, if its taps read the same from both ends. -/
def folded (fir : Fir α) : Fir α :=
  if isSymmetric fir.taps then
    let symmetry := if fir.taps.length % 2 = 0 then .even else .odd
    { fir with symmetry, taps := fir.taps.take ((fir.taps.length + 1) / 2) }
  else fir

/-- The canonical form of a filter of the channel `id`. -/
def canonical (id : ChannelId) (fir : Fir α) : Report α (Fir α) :=
  match fir.symmetry with
  | .asymmetric =>
    let warnings := (excess? fir.taps).elim [] fun sum => [Warning.firNormalized sum id]
    ⟨warnings, .ok (folded { fir with taps := unitSum fir.taps })⟩
  | _ => .done fir

end Fir

namespace Chain

omit [Scalar α] in
/-- Two neighbouring elements as one, none if the second one does not continue the first. -/
def join? : Element α → Element α → Except (ChainFault α) (Option (Element α))
  | .filter (.list a), .filter (.list b) => .ok (some (.filter (.list (a.append b))))
  | .filter (.fir a), .filter (.fir b) =>
    .ok (if a.symmetry = b.symmetry then some (.filter (.fir { a with taps := a.taps ++ b.taps }))
      else none)
  | .filter (.generic _), .filter (.generic _) => .error .genericTwice
  | .filter (.recursive _), .filter (.recursive _) => .error .recursiveTwice
  | _, _ => .ok none

omit [Scalar α] in
/-- An element and those after it, with continuations joined. -/
def mergeFrom (element : Element α) : List (Element α) → Except (ChainFault α) (List (Element α))
  | [] => .ok [element]
  | next :: rest => do
    match ← join? element next with
    | some joined => mergeFrom joined rest
    | none => return element :: (← mergeFrom next rest)

omit [Scalar α] in
/-- Elements with continuations joined. -/
def merge : List (Element α) → Except (ChainFault α) (List (Element α))
  | [] => .ok []
  | element :: rest => mergeFrom element rest

end Chain

end InstrumentResponse
