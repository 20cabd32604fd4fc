import Jwtlet.Utf8Order

/-!
# Percent-encoding

Decoding replaces every `%` that two hexadecimal digits follow by the byte they
spell, leaves every other byte alone, and then reads the bytes as UTF-8.

Every string has an encoding that decodes to it and has no slash
(`decode_encode`, `slash_not_mem_encode`), so any string can travel as one
segment of a path.
-/

namespace Percent

open Rust

/-- The value of a hexadecimal digit, given by its ASCII code.  Letters count in both
cases; any other byte is no digit. -/
def hexValue (b : UInt8) : Option UInt8 :=
  if 48 ≤ b ∧ b ≤ 57 then some (b - 48)
  else if 65 ≤ b ∧ b ≤ 70 then some (b - 55)
  else if 97 ≤ b ∧ b ≤ 102 then some (b - 87)
  else none

/-- The byte that three bytes spell, if they are `%` and two digits.  Otherwise the `%` is
an ordinary byte and stays. -/
def escaped (a b c : UInt8) : Option UInt8 :=
  if a = 37 then
    (hexValue b).bind fun high => (hexValue c).map fun low => high * 16 + low
  else none

/-- Decode a list of bytes from its start.  A byte that was spelled is not looked at
again, so that `%2541` is decoded to `%41`. -/
def decodeBytes : List UInt8 → List UInt8
  | a :: b :: c :: rest =>
      match escaped a b c with
      | some byte => byte :: decodeBytes rest
      | none => a :: decodeBytes (b :: c :: rest)
  | [a, b] => [a, b]
  | [a] => [a]
  | [] => []

/-- Decode a string, `none` when the bytes are no UTF-8.  It is what a path extractor does
to each parameter. -/
def decode (s : String) : Option String :=
  String.fromUTF8? ⟨(decodeBytes (utf8Bytes s)).toArray⟩

/-- The hexadecimal digit of a number below 16, in upper case. -/
def hexDigit (n : UInt8) : Char := Char.ofNat (if n < 10 then 48 + n.toNat else 55 + n.toNat)

/-- A byte spelled by `%` and its two digits, also where it could stand for itself. -/
def encodeByte (b : UInt8) : List Char := ['%', hexDigit (b / 16), hexDigit (b % 16)]

/-- Encode every byte of a string.  A client may encode less than that; this encoding is
one that works for every string. -/
def encode (s : String) : String := String.ofList ((utf8Bytes s).flatMap encodeByte)

/-- A byte is spelled by its two digits, which are ASCII.  It is checked for each of the
256 bytes. -/
private theorem digits_of_byte (b : UInt8) :
    escaped 37 (UInt8.ofNat (hexDigit (b / 16)).toNat)
        (UInt8.ofNat (hexDigit (b % 16)).toNat) = some b ∧
      (encodeByte b).flatMap String.utf8EncodeChar =
        [37, UInt8.ofNat (hexDigit (b / 16)).toNat, UInt8.ofNat (hexDigit (b % 16)).toNat] ∧
      '/' ∉ encodeByte b := by
  have hall : ∀ n : Fin 256,
      escaped 37 (UInt8.ofNat (hexDigit (UInt8.ofFin n / 16)).toNat)
          (UInt8.ofNat (hexDigit (UInt8.ofFin n % 16)).toNat) = some (UInt8.ofFin n) ∧
        (encodeByte (UInt8.ofFin n)).flatMap String.utf8EncodeChar =
          [37, UInt8.ofNat (hexDigit (UInt8.ofFin n / 16)).toNat,
            UInt8.ofNat (hexDigit (UInt8.ofFin n % 16)).toNat] ∧
        '/' ∉ encodeByte (UInt8.ofFin n) := by
    decide +kernel
  exact hall b.toFin

/-- Decoding starts with the byte that was encoded first and goes on with what follows its
spelling. -/
theorem decodeBytes_encodeByte (b : UInt8) (rest : List UInt8) :
    decodeBytes ((encodeByte b).flatMap String.utf8EncodeChar ++ rest) = b :: decodeBytes rest := by
  obtain ⟨hspell, hbytes, -⟩ := digits_of_byte b
  rw [hbytes]
  simp only [List.cons_append, List.nil_append, decodeBytes, hspell]

/-- Decoding the spellings of a list of bytes gives the list back. -/
theorem decodeBytes_flatMap_encodeByte (bytes : List UInt8) :
    decodeBytes ((bytes.flatMap encodeByte).flatMap String.utf8EncodeChar) = bytes := by
  induction bytes with
  | nil => rfl
  | cons b bytes ih =>
      rw [List.flatMap_cons, List.flatMap_append, decodeBytes_encodeByte, ih]

theorem fromUTF8?_utf8Bytes (s : String) :
    String.fromUTF8? ⟨(utf8Bytes s).toArray⟩ = some s := by
  have hbytes : (⟨(utf8Bytes s).toArray⟩ : ByteArray) = s.toByteArray := by
    rw [utf8Bytes, Array.toArray_toList]
  rw [hbytes, String.fromUTF8?, dif_pos s.isValidUTF8]
  rfl

/-- **Round trip.** Decoding undoes encoding, for every string: with slashes, percent
signs, whitespace or characters beyond ASCII in it. -/
theorem decode_encode (s : String) : decode (encode s) = some s := by
  rw [decode, utf8Bytes_eq_flatMap (encode s), encode, String.toList_ofList,
    decodeBytes_flatMap_encodeByte, fromUTF8?_utf8Bytes]

/-- An encoding is one segment of a path: it has no slash, so a router does not cut it. -/
theorem slash_not_mem_encode (s : String) : '/' ∉ (encode s).toList := by
  rw [encode, String.toList_ofList, List.mem_flatMap]
  intro h
  obtain ⟨b, -, hb⟩ := h
  exact (digits_of_byte b).2.2 hb

/-- Decoding makes a list of bytes shorter but never empty, since three bytes become one.
-/
theorem decodeBytes_ne_nil {l : List UInt8} (h : l ≠ []) : decodeBytes l ≠ [] := by
  fun_cases decodeBytes l <;> simp_all

theorem utf8Bytes_ne_nil {s : String} (h : s ≠ "") : utf8Bytes s ≠ [] := by
  intro hbytes
  apply h
  have hround := fromUTF8?_utf8Bytes s
  rw [hbytes] at hround
  exact (Option.some.inj hround).symm

/-- Only the empty string decodes to the empty string.  So a parameter that is not empty
stays so. -/
theorem decode_ne_empty {s t : String} (h : decode s = some t) (hs : s ≠ "") : t ≠ "" := by
  intro hempty
  rw [decode, String.fromUTF8?] at h
  split at h
  · have hbytes := congrArg String.toByteArray (Option.some.inj h)
    rw [hempty] at hbytes
    have hlist := congrArg (fun b => b.data.toList) hbytes
    exact decodeBytes_ne_nil (utf8Bytes_ne_nil hs) hlist
  · cases h

/-- Only the empty string has an empty encoding.  So an identifier that is not empty gets
a segment that is not empty. -/
theorem encode_ne_empty {s : String} (h : s ≠ "") : encode s ≠ "" := by
  intro hempty
  have hround := decode_encode s
  rw [hempty] at hround
  exact h (Option.some.inj hround).symm

end Percent
