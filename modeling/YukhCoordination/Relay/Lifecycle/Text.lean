import Mathlib.Data.Int.Notation

/-!
# The texts of the lifecycle contract

The patterns of `internal/relay/lifecycle/validation.go` and the times it writes as
`2006-01-02T15:04:05.000Z`. A time is its number of milliseconds since the Unix epoch.

`parseTime` follows `time.Parse` where it is more liberal than the layout: the hour may have one
digit, the fraction may start with a comma, and its three characters may begin with a sign (a
negative fraction is out of range). `validTime` asks in addition that the text is the one `Format`
gives back.
-/

namespace YukhCoordination.Relay.Lifecycle

/-! ## Patterns -/

/-- `[a-z]` -/
def isLower (c : Char) : Bool := 'a' ≤ c && c ≤ 'z'

/-- `[A-Z]` -/
def isUpper (c : Char) : Bool := 'A' ≤ c && c ≤ 'Z'

/-- `[0-9]` -/
def isDigit (c : Char) : Bool := '0' ≤ c && c ≤ '9'

/-- `[0-9a-f]` -/
def isHex (c : Char) : Bool := isDigit c || ('a' ≤ c && c ≤ 'f')

/-- A text whose first character satisfies `first` and whose other characters, at most `limit`,
satisfy `rest`. -/
def matchesName (first rest : Char → Bool) (limit : Nat) (value : String) : Bool :=
  match value.toList with
  | [] => false
  | c :: cs => first c && cs.length ≤ limit && cs.all rest

/-- `identifierPattern`: `^[a-z0-9][a-z0-9._:-]{0,255}$`. -/
def validIdentifier (value : String) : Bool := matchesName (fun c => isLower c || isDigit c)
    (fun c => isLower c || isDigit c || c == '.' || c == '_' || c == ':' || c == '-') 255 value

/-- `referencePattern`: as `identifierPattern`, with capital letters, slashes and at most 512
characters. -/
def validReference (value : String) : Bool :=
  matchesName (fun c => isUpper c || isLower c || isDigit c)
    (fun c => isUpper c || isLower c || isDigit c || c == '.' || c == '_' || c == ':' || c == '/' ||
      c == '-') 511 value

/-- `digestPattern`: `^sha-256:[0-9a-f]{64}$`. -/
def validDigest (value : String) : Bool :=
  value.toList.take 8 == "sha-256:".toList && (value.toList.drop 8).length == 64 &&
    (value.toList.drop 8).all isHex

/-- `validUUIDv7`: a text that `uuid.Parse` reads, of version 7, and that is its own canonical
form, has lower-case hexadecimal digits in groups of 8, 4, 4, 4 and 12 with the version first in the
third group. -/
def validUUIDv7 (value : String) : Bool :=
  let group (start size : Nat) : List Char := (value.toList.drop start).take size
  let hyphen (index : Nat) : Bool := value.toList.drop index |>.head? |> (· == some '-')
  value.toList.length == 36 && (group 0 8).all isHex && hyphen 8 && (group 9 4).all isHex &&
    hyphen 13 && (group 14 4).all isHex && hyphen 18 && (group 19 4).all isHex && hyphen 23 &&
    (group 24 12).all isHex && (group 14 1) == ['7']

/-- Whether `base64.RawURLEncoding.DecodeString` reads 64 bytes: it skips line ends, and 64 bytes
are 86 characters of the alphabet. -/
def validSignatureText (value : String) : Bool :=
  let text := value.toList.filter fun c => c != '\r' && c != '\n'
  text.length == 86 && text.all fun c => isUpper c || isLower c || isDigit c || c == '-' || c == '_'

/-! ## Times -/

/-- The days from the Unix epoch to a date of the Gregorian calendar. -/
def daysFromCivil (year month day : Int) : Int :=
  -- Years start in March, so that the leap day is the last of its year.
  let y := if month ≤ 2 then year - 1 else year
  let era := y / 400
  let yearOfEra := y - era * 400
  let dayOfYear := (153 * (if month > 2 then month - 3 else month + 9) + 2) / 5 + day - 1
  let dayOfEra := yearOfEra * 365 + yearOfEra / 4 - yearOfEra / 100 + dayOfYear
  era * 146097 + dayOfEra - 719468

/-- The year, month and day that lie `days` days after the Unix epoch. -/
def civilFromDays (days : Int) : Int × Int × Int :=
  let z := days + 719468
  let era := z / 146097
  let dayOfEra := z - era * 146097
  let yearOfEra := (dayOfEra - dayOfEra / 1460 + dayOfEra / 36524 - dayOfEra / 146096) / 365
  let dayOfYear := dayOfEra - (365 * yearOfEra + yearOfEra / 4 - yearOfEra / 100)
  let m := (5 * dayOfYear + 2) / 153
  let day := dayOfYear - (153 * m + 2) / 5 + 1
  let month := if m < 10 then m + 3 else m - 9
  (yearOfEra + era * 400 + (if month ≤ 2 then 1 else 0), month, day)

/-- `daysIn`. -/
def daysIn (month year : Nat) : Nat :=
  if month = 2 then
    if year % 4 = 0 ∧ (year % 100 ≠ 0 ∨ year % 400 = 0) then 29 else 28
  else if month = 4 ∨ month = 6 ∨ month = 9 ∨ month = 11 then 30 else 31

/-- The value of a run of decimal digits, or nothing if a character is not a digit. -/
def digits (cs : List Char) : Option Nat := cs.foldl (fun acc c => acc.bind fun n =>
    if isDigit c then some (n * 10 + (c.toNat - '0'.toNat)) else none) (some 0)

/-- Exactly `count` digits at the front, and the rest. -/
def takeDigits (count : Nat) (cs : List Char) : Option (Nat × List Char) :=
  if cs.length < count then none else (digits (cs.take count)).map (·, cs.drop count)

/-- The literal text of a layout. -/
def skip (c : Char) : List Char → Option (List Char)
  | d :: cs => if d = c then some cs else none
  | [] => none

/-- `getnum(value, false)`: one digit, or two. -/
def takeHour (cs : List Char) : Option (Nat × List Char) :=
  match takeDigits 2 cs with
  | some parsed => some parsed
  | none => takeDigits 1 cs

/-- `parseNanoseconds` for three digits: a point or a comma, and an optionally signed number that is
not negative, in milliseconds. -/
def takeMillis (cs : List Char) : Option (Nat × List Char) :=
  match cs with
  | p :: a :: b :: c :: rest =>
    if p = '.' ∨ p = ',' then
      if a = '+' then (digits [b, c]).map (·, rest)
      else if a = '-' then
        (digits [b, c]).bind fun n => if n = 0 then some (0, rest) else none
      else (digits [a, b, c]).map (·, rest)
    else none
  | _ => none

/-- `time.Parse("2006-01-02T15:04:05.000Z", value)`. -/
def parseTime (value : String) : Option Int := do
  let (year, cs) ← takeDigits 4 value.toList
  let cs ← skip '-' cs
  let (month, cs) ← takeDigits 2 cs
  let cs ← skip '-' cs
  let (day, cs) ← takeDigits 2 cs
  let cs ← skip 'T' cs
  let (hour, cs) ← takeHour cs
  let cs ← skip ':' cs
  let (minute, cs) ← takeDigits 2 cs
  let cs ← skip ':' cs
  let (sec, cs) ← takeDigits 2 cs
  let (millis, cs) ← takeMillis cs
  let cs ← skip 'Z' cs
  if cs = [] ∧ 1 ≤ month ∧ month ≤ 12 ∧ 1 ≤ day ∧ day ≤ daysIn month year ∧ hour < 24 ∧
      minute < 60 ∧ sec < 60 then
    some (((daysFromCivil year month day * 24 + hour) * 60 + minute) * 60 * 1000 + sec * 1000 +
      millis)
  else none

/-- A number with leading zeros up to `width` digits. -/
def pad (width : Nat) (n : Int) : String :=
  let text := (toString n.natAbs).toList
  (if n < 0 then "-" else "") ++ String.ofList (List.replicate (width - text.length) '0' ++ text)

/-- `t.Format("2006-01-02T15:04:05.000Z")`. -/
def formatTime (t : Int) : String :=
  let (year, month, day) := civilFromDays (t / 86400000)
  let inDay := t % 86400000
  pad 4 year ++ "-" ++ pad 2 month ++ "-" ++ pad 2 day ++ "T" ++ pad 2 (inDay / 3600000) ++ ":" ++
    pad 2 (inDay / 60000 % 60) ++ ":" ++ pad 2 (inDay / 1000 % 60) ++ "." ++ pad 3 (inDay % 1000) ++
    "Z"

/-- `validTime`. -/
def validTime (value : String) : Bool :=
  match parseTime value with
  | some t => formatTime t == value
  | none => false

end YukhCoordination.Relay.Lifecycle
