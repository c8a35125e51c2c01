import Mathlib.Data.List.Basic

/-!
# Lists of texts as byte strings

A simple encoding of a list of texts: a zero ends a text, a character of ASCII is one byte and any
other a one and its code point in three bytes. `decode` reads what `encode` writes
(`decode_encode`).
-/

namespace Texts

/-- The bytes of a character. -/
def encodeChar (c : Char) : List UInt8 :=
  if c.toNat < 128 then [.ofNat (c.toNat + 2)]
  else [1, .ofNat (c.toNat / 65536), .ofNat (c.toNat / 256 % 256), .ofNat (c.toNat % 256)]

/-- The bytes of a text. -/
def encodeText (text : String) : List UInt8 := text.toList.flatMap encodeChar ++ [0]

/-- The bytes of a list of texts. -/
def encode (texts : List String) : List UInt8 := texts.flatMap encodeText

/-- The texts of a byte string, with the characters of the text that is being read in reverse. -/
def decodeFrom (read : List Char) : List UInt8 → Option (List String)
  | [] => if read = [] then some [] else none
  | 0 :: bytes => (decodeFrom [] bytes).map (String.ofList read.reverse :: ·)
  | 1 :: a :: b :: c :: bytes =>
    decodeFrom (.ofNat (a.toNat * 65536 + b.toNat * 256 + c.toNat) :: read) bytes
  | a :: bytes => if a = 1 then none else decodeFrom (.ofNat (a.toNat - 2) :: read) bytes

/-- The texts of a byte string. -/
def decode (bytes : List UInt8) : Option (List String) := decodeFrom [] bytes

theorem decodeFrom_ascii {n : Nat} (h : n < 128) (read : List Char) (bytes : List UInt8) :
    decodeFrom read (.ofNat (n + 2) :: bytes) = decodeFrom (.ofNat n :: read) bytes := by
  have hn : (UInt8.ofNat (n + 2)).toNat = n + 2 :=
    UInt8.toNat_ofNat_of_lt (by simp only [UInt8.size]; omega)
  have hzero : UInt8.ofNat (n + 2) ≠ 0 := fun h => by simp [h] at hn
  have hone : UInt8.ofNat (n + 2) ≠ 1 := fun h => by simp [h] at hn
  rw [decodeFrom.eq_4 _ _ _ hzero fun _ _ _ _ h => absurd h hone, if_neg hone, hn,
    Nat.add_sub_cancel]

theorem decodeFrom_encodeChar (c : Char) (read : List Char) (bytes : List UInt8) :
    decodeFrom read (encodeChar c ++ bytes) = decodeFrom (c :: read) bytes := by
  have hc : c.toNat < 1114112 := by
    rcases c.valid with h | h
    · exact Nat.lt_trans h (by decide)
    · exact h.2
  unfold encodeChar
  split
  · next hascii =>
    rw [List.singleton_append, decodeFrom_ascii hascii, Char.ofNat_toNat]
  · have ha : (UInt8.ofNat (c.toNat / 65536)).toNat = c.toNat / 65536 :=
      UInt8.toNat_ofNat_of_lt (by simp only [UInt8.size]; omega)
    have hb : (UInt8.ofNat (c.toNat / 256 % 256)).toNat = c.toNat / 256 % 256 :=
      UInt8.toNat_ofNat_of_lt (by simp only [UInt8.size]; omega)
    have hlow : (UInt8.ofNat (c.toNat % 256)).toNat = c.toNat % 256 :=
      UInt8.toNat_ofNat_of_lt (by simp only [UInt8.size]; omega)
    simp only [List.cons_append, List.nil_append, decodeFrom, ha, hb, hlow]
    rw [show c.toNat / 65536 * 65536 + c.toNat / 256 % 256 * 256 + c.toNat % 256 = c.toNat by omega,
      Char.ofNat_toNat]

theorem decodeFrom_encodeText (text : String) (bytes : List UInt8) :
    decodeFrom [] (encodeText text ++ bytes) = (decode bytes).map (text :: ·) := by
  have hread (cs read : List Char) : decodeFrom read (cs.flatMap encodeChar ++ 0 :: bytes) =
      (decode bytes).map (String.ofList (read.reverse ++ cs) :: ·) := by
    induction cs generalizing read with
    | nil => simp [decodeFrom, decode]
    | cons c cs ih =>
      rw [List.flatMap_cons, List.append_assoc, decodeFrom_encodeChar, ih]
      simp
  rw [encodeText, List.append_assoc]
  exact (hread text.toList []).trans (by simp)

theorem decode_encode (texts : List String) : decode (encode texts) = some texts := by
  induction texts with
  | nil => rfl
  | cons text texts ih =>
    rw [encode, List.flatMap_cons, decode, decodeFrom_encodeText]
    exact congrArg (Option.map (text :: ·)) ih

end Texts
