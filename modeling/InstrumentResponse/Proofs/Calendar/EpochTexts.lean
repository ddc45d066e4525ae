import InstrumentResponse.Instant
import InstrumentResponse.Proofs.Decimal.DigitTexts
import InstrumentResponse.Proofs.Scalar.Bits
import InstrumentResponse.Proofs.Text.Blanks

/-!
# Texts of epochs

Epochs are written as a year, a day of it and a time of that day to the second.

* `Clock.IsTime`, `Instant.OnCalendar`: times and instants that there are.
* `Clock.isTime_of_read?`, `Instant.onCalendar_of_read?`: whatever is read is one of them.
* `Clock.read?_text`, `Instant.read?_ordinalText`: what is written is read back, in every year of
  the calendar.
-/

namespace InstrumentResponse

/-- A time of a day. -/
structure Clock.IsTime (c : Clock) : Prop where
  hour : c.hour < 24
  minute : c.minute < 60
  second : c.second < 60
  microsecond : c.microsecond ≤ 999999

/-- An instant of the calendar: a day that its year has, and a time of it. -/
structure Instant.OnCalendar (t : Instant) : Prop where
  first : firstYear ≤ t.year
  last : t.year ≤ lastYear
  positive : 1 ≤ t.day
  day : t.day ≤ daysInYear t.year
  clock : t.clock.IsTime

/-! ## Reading -/

namespace Clock

theorem microseconds_le (fraction : Float) : microseconds fraction ≤ 999999 := by
  unfold microseconds
  split
  · exact Nat.min_le_right ..
  · exact Nat.le_refl _

/-- The whole part of less than sixty seconds. -/
theorem wholePart_lt {seconds : Float} (hLow : 0 ≤ seconds) (hHigh : seconds < 60) :
    Scalar.wholePart seconds < 60 := by
  have hSixty : Double.value 60 = 60 := by decide +kernel
  have hFinite : seconds.isFinite = true := Double.isFinite_of_between rfl rfl hLow hHigh
  have hNonneg : 0 ≤ Double.value seconds := (Double.le_iff_value_le rfl hFinite).mp hLow
  have hLess : Double.value seconds < 60 := by
    rw [← hSixty]
    exact (Double.lt_iff_value_lt hFinite rfl).mp hHigh
  show seconds.toUInt64.toNat < 60
  rw [Double.toNat_toUInt64 hFinite hNonneg (by linarith)]
  exact (Nat.floor_lt hNonneg).mpr hLess

theorem isTime_of_ofSeconds? {hour minute : Nat} {seconds : Float} {c : Clock}
    (h : ofSeconds? hour minute seconds = some c) : c.IsTime := by
  unfold ofSeconds? at h
  split at h
  · next hSeconds =>
    dsimp only at h
    split at h
    · next hClock =>
      cases h
      exact ⟨hClock.1, hClock.2, wholePart_lt hSeconds.1 hSeconds.2, microseconds_le _⟩
    · cases h
  · cases h

theorem isTime_of_read? {s : String} {c : Clock} (h : read? s = some c) : c.IsTime := by
  unfold read? at h
  split at h
  · obtain ⟨hour, -, h⟩ := Option.bind_eq_some_iff.mp h
    exact isTime_of_ofSeconds? h
  · obtain ⟨hour, -, h⟩ := Option.bind_eq_some_iff.mp h
    obtain ⟨minute, -, h⟩ := Option.bind_eq_some_iff.mp h
    exact isTime_of_ofSeconds? h
  · obtain ⟨hour, -, h⟩ := Option.bind_eq_some_iff.mp h
    obtain ⟨minute, -, h⟩ := Option.bind_eq_some_iff.mp h
    obtain ⟨seconds, -, h⟩ := Option.bind_eq_some_iff.mp h
    exact isTime_of_ofSeconds? h
  · cases h

theorem isTime_midnight : midnight.IsTime := ⟨by decide, by decide, by decide, by decide⟩

end Clock

namespace Instant

theorem onCalendar_of_ofDay? {year : Int} {day : Nat} {c : Clock} {t : Instant} (hc : c.IsTime)
    (h : ofDay? year day c = some t) : t.OnCalendar := by
  unfold ofDay? at h
  split at h
  · next hDay =>
    cases h
    exact ⟨hDay.1, hDay.2.1, hDay.2.2.1, hDay.2.2.2, hc⟩
  · cases h

/-- What is read is an instant of the calendar. -/
theorem onCalendar_of_read? {s : String} {t : Instant} (h : read? s = some t) : t.OnCalendar := by
  unfold read? at h
  split at h
  · obtain ⟨year, -, h⟩ := Option.bind_eq_some_iff.mp h
    obtain ⟨day, -, h⟩ := Option.bind_eq_some_iff.mp h
    exact onCalendar_of_ofDay? Clock.isTime_midnight h
  · dsimp only at h
    split at h
    · obtain ⟨c, hc, h⟩ := Option.bind_eq_some_iff.mp h
      obtain ⟨year, -, h⟩ := Option.bind_eq_some_iff.mp h
      obtain ⟨day, -, h⟩ := Option.bind_eq_some_iff.mp h
      cases hc
      exact onCalendar_of_ofDay? Clock.isTime_midnight h
    · obtain ⟨c, hc, h⟩ := Option.bind_eq_some_iff.mp h
      obtain ⟨year, -, h⟩ := Option.bind_eq_some_iff.mp h
      obtain ⟨day, -, h⟩ := Option.bind_eq_some_iff.mp h
      exact onCalendar_of_ofDay? (Clock.isTime_of_read? hc) h
  · cases h

end Instant

/-! ## Reading back -/

open Decimal (padded isDigitsOf_padded)

/-- The characters of three parts with a separator between them. -/
theorem forall_mem_joined {p : Char → Prop} {separator : Char} {a b c : List Char}
    (hSeparator : p separator) (ha : ∀ d ∈ a, p d) (hb : ∀ d ∈ b, p d) (hc : ∀ d ∈ c, p d) :
    ∀ d ∈ a ++ separator :: (b ++ separator :: c), p d := by
  intro d hd
  simp only [List.mem_append, List.mem_cons] at hd
  rcases hd with hd | rfl | hd | rfl | hd
  · exact ha d hd
  · exact hSeparator
  · exact hb d hd
  · exact hSeparator
  · exact hc d hd

namespace Clock

/-- Whole seconds are doubles, and leave no fraction. -/
theorem wholeSeconds : ∀ second < 60,
    (0 ≤ Decimal.Numeral.toDouble ⟨false, second, 0⟩ ∧
      Decimal.Numeral.toDouble ⟨false, second, 0⟩ < 60) ∧
    Scalar.wholePart (Decimal.Numeral.toDouble ⟨false, second, 0⟩) = second ∧
    microseconds (Decimal.Numeral.toDouble ⟨false, second, 0⟩ - Float.ofNat second) = 0 := by
  decide +kernel

theorem ofSeconds?_whole {hour minute second : Nat} (hHour : hour < 24) (hMinute : minute < 60)
    (hSecond : second < 60) :
    ofSeconds? hour minute (Decimal.Numeral.toDouble ⟨false, second, 0⟩) =
      some ⟨hour, minute, second, 0⟩ := by
  obtain ⟨hRange, hPart, hFraction⟩ := wholeSeconds second hSecond
  rw [ofSeconds?, if_pos hRange]
  dsimp only
  rw [if_pos ⟨hHour, hMinute⟩, hPart, hFraction]

theorem toList_text (c : Clock) : c.text.toList =
    (padded 2 c.hour).toList ++ ':' :: ((padded 2 c.minute).toList ++ ':' ::
      (padded 2 c.second).toList) := by
  simp [text]

theorem not_blank_text (c : Clock) : ∀ d ∈ c.text.toList, Text.isBlank d = false := by
  rw [toList_text]
  exact forall_mem_joined (by decide) (isDigitsOf_padded ..).not_blank
    (isDigitsOf_padded ..).not_blank (isDigitsOf_padded ..).not_blank

theorem read?_text {c : Clock} (hc : c.IsTime) (hWhole : c.microsecond = 0) :
    read? c.text = some c := by
  have hHour := isDigitsOf_padded 2 c.hour
  have hMinute := isDigitsOf_padded 2 c.minute
  have hSecond := isDigitsOf_padded 2 c.second
  have hNever : Decimal.isDigit ':' = false := by decide
  have hLess : c.hour ≤ Decimal.greatest32 ∧ c.minute ≤ Decimal.greatest32 := by
    have := hc.hour
    have := hc.minute
    simp only [Decimal.greatest32]
    omega
  rw [read?, Text.trimChars_of_forall (not_blank_text c), toList_text,
    Text.firstPieces_append_cons (hHour.not_mem hNever),
    Text.firstPieces_append_cons (hMinute.not_mem hNever), Text.firstPieces]
  simp only [String.ofList_toList, hHour.readNatural? hLess.1, hMinute.readNatural? hLess.2,
    hSecond.readDouble?, Option.bind_eq_bind, Option.bind_some,
    ofSeconds?_whole hc.hour hc.minute hc.second]
  rw [← hWhole]

end Clock

namespace Instant

/-- The sign of a year, if one is written. -/
def yearSign (year : Int) : List Char :=
  if year < 0 then ['-'] else if 9999 < year then ['+'] else []

theorem toList_yearText (year : Int) :
    (yearText year).toList = yearSign year ++ (padded 4 year.natAbs).toList := by
  unfold yearText yearSign
  split
  · rw [String.toList_append]
    rfl
  · split
    · rw [String.toList_append]
      rfl
    · rfl

theorem cutSign_yearText (year : Int) : Decimal.cutSign (yearText year).toList =
    (decide (year < 0), (padded 4 year.natAbs).toList) := by
  rw [toList_yearText, yearSign]
  split
  · next h => simp [Decimal.cutSign, h]
  · next h =>
    split
    · simp [Decimal.cutSign, h]
    · simp [(isDigitsOf_padded ..).cutSign, h]

theorem readSigned32?_yearText {year : Int} (hFirst : firstYear ≤ year) (hLast : year ≤ lastYear) :
    Decimal.readSigned32? (yearText year) = some year := by
  have hYear : (if decide (year < 0) = true then -(year.natAbs : Int) else year.natAbs) = year := by
    by_cases hBefore : year < 0
    · rw [decide_eq_true hBefore, if_pos rfl]
      omega
    · rw [decide_eq_false hBefore, if_neg (by decide)]
      omega
  have hDigits := isDigitsOf_padded 4 year.natAbs
  rw [Decimal.readSigned32?, hDigits.readInteger? (cutSign_yearText year) ?_ ?_, hYear]
  · rw [hYear]
    simp only [firstYear] at hFirst
    omega
  · rw [hYear]
    simp only [lastYear] at hLast
    omega

theorem mem_yearSign {d : Char} {year : Int} (h : d ∈ yearSign year) : d = '-' ∨ d = '+' := by
  unfold yearSign at h
  split at h
  · exact .inl (List.mem_singleton.mp h)
  · split at h
    · exact .inr (List.mem_singleton.mp h)
    · cases h

theorem not_blank_yearText (year : Int) : ∀ d ∈ (yearText year).toList, Text.isBlank d = false := by
  intro d hd
  rw [toList_yearText] at hd
  rcases List.mem_append.mp hd with hd | hd
  · rcases mem_yearSign hd with rfl | rfl <;> decide
  · exact (isDigitsOf_padded ..).not_blank d hd

theorem comma_not_mem_yearText (year : Int) : ',' ∉ (yearText year).toList := by
  intro hMem
  rw [toList_yearText] at hMem
  rcases List.mem_append.mp hMem with hMem | hMem
  · have hSign : ',' = '-' ∨ ',' = '+' := mem_yearSign hMem
    exact absurd hSign (by decide)
  · exact (isDigitsOf_padded ..).not_mem (by decide) hMem

theorem toList_ordinalText (t : Instant) : t.ordinalText.toList =
    (yearText t.year).toList ++ ',' :: ((padded 3 t.day).toList ++ ',' :: t.clock.text.toList) := by
  simp [ordinalText]

theorem not_blank_ordinalText (t : Instant) :
    ∀ d ∈ t.ordinalText.toList, Text.isBlank d = false := by
  rw [toList_ordinalText]
  exact forall_mem_joined (by decide) (not_blank_yearText t.year) (isDigitsOf_padded ..).not_blank
    t.clock.not_blank_text

/-- Whatever is written of an instant with whole seconds is read back. -/
theorem read?_ordinalText {t : Instant} (ht : t.OnCalendar) (hWhole : t.clock.microsecond = 0) :
    read? t.ordinalText = some t := by
  have hDay := isDigitsOf_padded 3 t.day
  have hLess : t.day ≤ Decimal.greatest32 := by
    have hMost : daysInYear t.year ≤ 366 := by
      unfold daysInYear
      split <;> omega
    have := ht.day
    simp only [Decimal.greatest32]
    omega
  have hSome : t.clock.text.isEmpty = false := by
    rw [String.isEmpty_eq_false_iff]
    intro hEmpty
    have hChars := t.clock.toList_text
    rw [hEmpty] at hChars
    simp at hChars
  rw [read?, Text.trimChars_of_forall (not_blank_ordinalText t), toList_ordinalText,
    Text.firstPieces_append_cons (comma_not_mem_yearText _),
    Text.firstPieces_append_cons (hDay.not_mem (by decide)), Text.firstPieces]
  simp only [String.ofList_toList, Text.trim_of_forall (not_blank_yearText _),
    Text.trim_of_forall hDay.not_blank, Text.trim_of_forall t.clock.not_blank_text, hSome,
    readSigned32?_yearText ht.first ht.last, hDay.readNatural? hLess, Option.bind_eq_bind,
    Option.bind_some, Clock.read?_text ht.clock hWhole, Bool.false_eq_true, if_false]
  exact if_pos ⟨ht.first, ht.last, ht.positive, ht.day⟩

/-- The text of an instant of the calendar with whole seconds is read as that instant, and whatever
is read is an instant of the calendar. -/
theorem epochTexts_read_back :
    (∀ t : Instant, t.OnCalendar → t.clock.microsecond = 0 → read? t.ordinalText = some t) ∧
    ∀ (s : String) (t : Instant), read? s = some t → t.OnCalendar :=
  ⟨fun _ ht hWhole => read?_ordinalText ht hWhole, fun _ _ h => onCalendar_of_read? h⟩

/-- The last second of a leap year long before year 0, and a text with a fraction that takes all that
is left of its second. -/
theorem epochTexts_read_back_leap :
    read? "-262140,366,23:59:59" = some ⟨-262140, 366, ⟨23, 59, 59, 0⟩⟩ ∧
    (⟨2000, 366, ⟨23, 59, 59, 999999⟩⟩ : Instant).OnCalendar := by
  obtain ⟨hWritten, hRead⟩ := epochTexts_read_back
  constructor
  · have hText : (⟨-262140, 366, ⟨23, 59, 59, 0⟩⟩ : Instant).ordinalText = "-262140,366,23:59:59" := by
      decide +kernel
    rw [← hText]
    refine hWritten _ ⟨by decide, by decide, by decide, by decide, ?_⟩ rfl
    exact ⟨by decide, by decide, by decide, by decide⟩
  · exact hRead "2000,366,23:59:59.99999999" _ (by decide +kernel)

end Instant

end InstrumentResponse
