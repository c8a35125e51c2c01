import Mathlib.Data.List.Basic

/-!
# Base64 without padding

The URL-safe alphabet of RFC 4648, without padding characters. `decode` is strict: the bits of the
last character that belong to no byte are zero; `decodeLines` skips line ends before. Text that
`encode` writes is decoded to the bytes it was written for (`decode_encode`, `decodeLines_encode`).
-/

namespace Base64

/-- The characters of the values 0 to 63. -/
def alphabet : List Char :=
  "ABCDEFGHIJKLMNOPQRSTUVWXYZabcdefghijklmnopqrstuvwxyz0123456789-_".toList

/-- The character of a value. -/
def char (value : Nat) : Char := alphabet.getD value 'A'

/-- The value of a character. -/
def value (c : Char) : Option Nat := alphabet.idxOf? c

/-- The text of a byte string: four characters for three bytes. -/
def encode : List UInt8 → List Char
  | [] => []
  | [a] => [char (a.toNat / 4), char (a.toNat % 4 * 16)]
  | [a, b] =>
    [char (a.toNat / 4), char (a.toNat % 4 * 16 + b.toNat / 16), char (b.toNat % 16 * 4)]
  | a :: b :: c :: rest =>
    char (a.toNat / 4) :: char (a.toNat % 4 * 16 + b.toNat / 16) ::
      char (b.toNat % 16 * 4 + c.toNat / 64) :: char (c.toNat % 64) :: encode rest

/-- The byte string of a text. -/
def decode : List Char → Option (List UInt8)
  | [] => some []
  | [_] => none
  | [w, x] => do
    let w ← value w
    let x ← value x
    if x % 16 = 0 then some [.ofNat (w * 4 + x / 16)] else none
  | [w, x, y] => do
    let w ← value w
    let x ← value x
    let y ← value y
    if y % 4 = 0 then some [.ofNat (w * 4 + x / 16), .ofNat (x % 16 * 16 + y / 4)] else none
  | w :: x :: y :: z :: rest => do
    let w ← value w
    let x ← value x
    let y ← value y
    let z ← value z
    let bytes ← decode rest
    some (.ofNat (w * 4 + x / 16) :: .ofNat (x % 16 * 16 + y / 4) :: .ofNat (y % 4 * 64 + z) ::
      bytes)

/-- The byte string of a text in which line ends are skipped. -/
def decodeLines (text : List Char) : Option (List UInt8) :=
  decode (text.filter fun c => c != '\r' && c != '\n')

/-- The value of the character of a value. -/
@[simp] theorem value_char {n : Nat} (h : n < 64) : value (char n) = some n := by
  have hall : ∀ n < 64, value (char n) = some n := by decide
  exact hall n h

/-- Only the empty byte string has the empty text. -/
theorem encode_ne_nil {bytes : List UInt8} (h : bytes ≠ []) : encode bytes ≠ [] := by
  match bytes, h with
  | [_], _ => simp [encode]
  | [_, _], _ => simp [encode]
  | _ :: _ :: _ :: _, _ => simp [encode]

/-- The character of a value is one of the alphabet. -/
theorem char_mem (n : Nat) : char n ∈ alphabet := by
  unfold char
  rw [List.getD_eq_getElem?_getD]
  cases h : alphabet[n]? with
  | none => decide
  | some c => exact List.mem_of_getElem? h

/-- A text consists of characters of the alphabet. -/
theorem mem_alphabet_of_mem_encode {bytes : List UInt8} {c : Char} (h : c ∈ encode bytes) :
    c ∈ alphabet := by
  induction bytes using encode.induct with
  | case1 => cases h
  | case2 a =>
    simp only [encode, List.mem_cons, List.not_mem_nil, or_false] at h
    rcases h with rfl | rfl <;> exact char_mem _
  | case3 a b =>
    simp only [encode, List.mem_cons, List.not_mem_nil, or_false] at h
    rcases h with rfl | rfl | rfl <;> exact char_mem _
  | case4 a b c rest ih =>
    simp only [encode, List.mem_cons] at h
    rcases h with rfl | rfl | rfl | rfl | h
    · exact char_mem _
    · exact char_mem _
    · exact char_mem _
    · exact char_mem _
    · exact ih h

/-- A byte from the number it was split into. -/
theorem ofNat_eq {a : UInt8} {n : Nat} (h : n = a.toNat) : UInt8.ofNat n = a := by
  rw [h, UInt8.ofNat_toNat]

/-- A text is decoded to the bytes it was written for. -/
theorem decode_encode (bytes : List UInt8) : decode (encode bytes) = some bytes := by
  induction bytes using encode.induct with
  | case1 => rfl
  | case2 a =>
    have ha := a.toNat_lt
    have hw := value_char (show a.toNat / 4 < 64 by omega)
    have hx := value_char (show a.toNat % 4 * 16 < 64 by omega)
    simp only [encode, decode, hw, hx, Option.bind_eq_bind, Option.bind_some]
    rw [if_pos (by omega), ofNat_eq (a := a) (by omega)]
  | case3 a b =>
    have ha := a.toNat_lt
    have hb := b.toNat_lt
    have hw := value_char (show a.toNat / 4 < 64 by omega)
    have hx := value_char (show a.toNat % 4 * 16 + b.toNat / 16 < 64 by omega)
    have hy := value_char (show b.toNat % 16 * 4 < 64 by omega)
    simp only [encode, decode, hw, hx, hy, Option.bind_eq_bind, Option.bind_some]
    rw [if_pos (by omega), ofNat_eq (a := a) (by omega), ofNat_eq (a := b) (by omega)]
  | case4 a b c rest ih =>
    have ha := a.toNat_lt
    have hb := b.toNat_lt
    have hc := c.toNat_lt
    have hw := value_char (show a.toNat / 4 < 64 by omega)
    have hx := value_char (show a.toNat % 4 * 16 + b.toNat / 16 < 64 by omega)
    have hy := value_char (show b.toNat % 16 * 4 + c.toNat / 64 < 64 by omega)
    have hz := value_char (show c.toNat % 64 < 64 by omega)
    simp only [encode, decode, hw, hx, hy, hz, ih, Option.bind_eq_bind, Option.bind_some]
    rw [ofNat_eq (a := a) (by omega), ofNat_eq (a := b) (by omega), ofNat_eq (a := c) (by omega)]

/-- A text has no line ends to skip. -/
theorem decodeLines_encode (bytes : List UInt8) : decodeLines (encode bytes) = some bytes := by
  have hfilter : (encode bytes).filter (fun c => c != '\r' && c != '\n') = encode bytes := by
    refine List.filter_eq_self.2 fun c hc => ?_
    have hall : alphabet.all (fun c => c != '\r' && c != '\n') = true := rfl
    exact List.all_eq_true.1 hall c (mem_alphabet_of_mem_encode hc)
  rw [decodeLines, hfilter, decode_encode]

end Base64
