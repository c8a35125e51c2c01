import Mathlib.Data.Int.Notation

/-!
# Values of the coordination ports

The types of `internal/coordination/store.go`, with `time.Time` as nanoseconds since the epoch.
Formatting and parsing round-trip by construction, so years outside 0 to 9999 are not covered.
-/

namespace YukhCoordination.Coordination

/-- The closed errors of the coordination ports. -/
inductive Error where
  | invalidArgument
  | unavailable
  | conflict
  | invariant
  deriving DecidableEq, Repr

/-- A digest as the ports carry it: any text; `validDigest` says which ones are well formed. -/
abbrev Digest := String

/-- `digestPattern`: exactly 64 lower-case hexadecimal characters. -/
def validDigest (candidate : Digest) : Bool :=
  candidate.length == 64 && candidate.toList.all fun c =>
    ('0' ≤ c && c ≤ '9') || ('a' ≤ c && c ≤ 'f')

/-- A digest to run the calls with. -/
def sampleDigest : Digest := "aaaaaaaaaaaaaaaaaaaaaaaaaaaaaaaaaaaaaaaaaaaaaaaaaaaaaaaaaaaaaaaa"

/-- A span of time in nanoseconds. -/
abbrev Duration := Int

/-- `time.Millisecond`. -/
def millisecond : Duration := 1000000

/-- `time.Second`. -/
def second : Duration := 1000000000

/-- An instant, and whether its `Location()` is `time.UTC`. -/
structure Time where
  unixNano : Int
  utc : Bool
  deriving DecidableEq, Repr

namespace Time

/-- `t.UTC()`. -/
def toUTC (t : Time) : Time := { t with utc := true }

/-- `t.Add(d)`. -/
def add (t : Time) (d : Duration) : Time := { t with unixNano := t.unixNano + d }

/-- `t.After(u)`. -/
def after (t u : Time) : Bool := u.unixNano < t.unixNano

/-- `t.Before(u)`. -/
def before (t u : Time) : Bool := t.unixNano < u.unixNano

/-- `t.Equal(u)`: the same instant, whatever the locations. -/
def equal (t u : Time) : Bool := t.unixNano == u.unixNano

/-- `t.Truncate(time.Millisecond)`. The zero time of the standard library is a whole number of
milliseconds from the Unix epoch. -/
def truncateMillisecond (t : Time) : Time :=
  { t with unixNano := t.unixNano - t.unixNano % millisecond }

/-- `UTC` keeps the instant. -/
@[simp] theorem toUTC_unixNano (t : Time) : t.toUTC.unixNano = t.unixNano := rfl

/-- `UTC` sets the location. -/
@[simp] theorem toUTC_utc (t : Time) : t.toUTC.utc := rfl

/-- `After` compares the instants. -/
@[simp] theorem after_iff {t u : Time} : t.after u ↔ u.unixNano < t.unixNano := by
  simp [after]

/-- `After` fails where the instant is not later. -/
@[simp] theorem after_eq_false_iff {t u : Time} : t.after u = false ↔ t.unixNano ≤ u.unixNano := by
  rw [Bool.eq_false_iff, ne_eq, after_iff]
  omega

/-- `Before` compares the instants. -/
@[simp] theorem before_iff {t u : Time} : t.before u ↔ t.unixNano < u.unixNano := by
  simp [before]

/-- `Before` fails where the instant is not earlier. -/
@[simp] theorem before_eq_false_iff {t u : Time} :
    t.before u = false ↔ u.unixNano ≤ t.unixNano := by
  rw [Bool.eq_false_iff, ne_eq, before_iff]
  omega

/-- `Equal` compares the instants, not the locations. -/
@[simp] theorem equal_iff {t u : Time} : t.equal u ↔ t.unixNano = u.unixNano := by
  simp [equal]

end Time

/-- The text of a time field. -/
inductive TimeText where
  | utc (unixNano : Int)
  | zoned (unixNano : Int) (offset : Int)
  | malformed (text : String)
  deriving DecidableEq, Repr

namespace TimeText

/-- `time.Parse(time.RFC3339Nano, text)`. -/
def parse : TimeText → Option Time
  | utc t => some ⟨t, true⟩
  | zoned t _ => some ⟨t, false⟩
  | malformed _ => none

/-- The number of digits `Format(time.RFC3339Nano)` prints of a fraction of `n` nanoseconds with at
most `digits` digits: trailing zeros are left out. -/
def fractionDigits : (digits : Nat) → (n : Nat) → Nat
  | 0, _ => 0
  | digits + 1, n => if n % 10 = 0 then fractionDigits digits (n / 10) else digits + 1

/-- The length of the text: `2006-01-02T15:04:05`, the fraction with its point unless it is zero,
and `Z` or a numeric offset. -/
def length : TimeText → Nat
  | utc t => 20 + fraction t
  | zoned t _ => 25 + fraction t
  | malformed text => text.utf8ByteSize
where
  fraction (t : Int) : Nat :=
    match fractionDigits 9 (t % second).toNat with
    | 0 => 0
    | digits + 1 => digits + 2

end TimeText

/-- `value.UTC().Format(time.RFC3339Nano)`. -/
def formatTime (value : Time) : TimeText := .utc value.unixNano

/-- A formatted time is read back in UTC. -/
@[simp] theorem parse_formatTime (value : Time) : (formatTime value).parse = some value.toUTC := rfl

/-- The outcome of consuming a nonce. -/
inductive NonceOutcome where
  | consumed
  | replayed
  deriving DecidableEq, Repr

/-- What a caller consumes a nonce with. -/
structure NonceValue where
  valueDigest : Digest
  expiresAt : Time
  epoch : Nat
  deriving DecidableEq, Repr

/-- What a caller acquires a lease with. -/
structure LeaseValue where
  holderDigest : Digest
  expiresAt : Time
  epoch : Nat
  deriving DecidableEq, Repr

end YukhCoordination.Coordination
