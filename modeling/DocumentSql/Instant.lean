import DocumentSql.Text
/- Instants of the UTC calendar and their texts. -/

namespace DocumentSql

/-- Nanoseconds since the start of 1970. -/
structure Instant where
  nanoseconds : Int
deriving DecidableEq, Repr

namespace Instant

instance : Inhabited Instant := ⟨⟨0⟩⟩

def ofSeconds (seconds nanoseconds : Int) : Instant := ⟨seconds * 1000000000 + nanoseconds⟩

def compare (a b : Instant) : Ordering := Ord.compare a.nanoseconds b.nanoseconds

/-- Year, month and day of the Gregorian calendar, from the day count since 1970. Years are taken
to start in March, so that the leap day ends its year; 400 of them are one era. -/
def civil (day : Int) : Int × Nat × Nat :=
  let shifted := day + 719468
  let era := shifted.fdiv 146097
  let dayOfEra := (shifted.fmod 146097).toNat
  let yearOfEra :=
    (dayOfEra - dayOfEra / 1460 + dayOfEra / 36524 - dayOfEra / 146096) / 365
  let dayOfYear := dayOfEra - (365 * yearOfEra + yearOfEra / 4 - yearOfEra / 100)
  let fromMarch := (5 * dayOfYear + 2) / 153
  let dayOfMonth := dayOfYear - (153 * fromMarch + 2) / 5 + 1
  let month := if fromMarch < 10 then fromMarch + 3 else fromMarch - 9
  let year := era * 400 + yearOfEra + (if month ≤ 2 then 1 else 0)
  (year, month, dayOfMonth)

/-- Four digits; years outside of 0 to 9999 carry a sign. -/
def yearText (year : Int) : String :=
  if year < 0 then "-" ++ Text.zeroPadded 4 year.natAbs
  else if year ≤ 9999 then Text.zeroPadded 4 year.natAbs
  else "+" ++ Text.zeroPadded 4 year.natAbs

/-- Date and time of day to the second, from seconds since 1970. -/
def secondText (seconds : Int) : String :=
  let (year, month, day) := civil (seconds.fdiv 86400)
  let second := (seconds.fmod 86400).toNat
  yearText year ++ "-" ++ Text.zeroPadded 2 month ++ "-" ++ Text.zeroPadded 2 day ++ "T" ++
    Text.zeroPadded 2 (second / 3600) ++ ":" ++ Text.zeroPadded 2 (second / 60 % 60) ++ ":" ++
    Text.zeroPadded 2 (second % 60)

/-- To the millisecond, cut towards the past. -/
def text (t : Instant) : String :=
  let millis := t.nanoseconds.fdiv 1000000
  secondText (millis.fdiv 1000) ++ "." ++ Text.zeroPadded 3 (millis.fmod 1000).toNat ++ "Z"

/-- The start of 2000, from which a relational server counts. -/
def serverEpoch : Instant := .ofSeconds 946684800 0

/-- Microseconds from the server's epoch, cut towards it. -/
def serverMicroseconds (t : Instant) : Int :=
  (t.nanoseconds - serverEpoch.nanoseconds).tdiv 1000

def ofServerMicroseconds (micros : Int) : Instant :=
  ⟨serverEpoch.nanoseconds + micros * 1000⟩

def microsecondText (t : Instant) : String :=
  let micros := t.nanoseconds.fdiv 1000
  secondText (micros.fdiv 1000000) ++ "." ++
    Text.zeroPadded 6 (micros.fmod 1000000).toNat ++ "Z"

end Instant

end DocumentSql
