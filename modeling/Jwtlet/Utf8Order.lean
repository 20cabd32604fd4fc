import Jwtlet.RustCollections

/-!
# Strings in byte order

Rust compares strings by the bytes of their UTF-8 encodings, the standard
library here by code points.  The two orders are the same: the encodings of two
different characters differ at a byte that both have, and the smaller character
has the smaller byte there.
-/

namespace Rust

/-- The bytes of the UTF-8 encoding of a string, which `str::as_bytes` gives and which
Rust compares strings by. -/
def utf8Bytes (s : String) : List UInt8 := s.toByteArray.data.toList

/-- The encoding of a string is made of the encodings of its characters, one after the
other. -/
theorem utf8Bytes_eq_flatMap (s : String) :
    utf8Bytes s = s.toList.flatMap String.utf8EncodeChar := by
  have hencode : s.toByteArray = s.toList.utf8Encode := by
    rw [← String.toByteArray_ofList, String.ofList_toList]
  rw [utf8Bytes, hencode, List.utf8Encode, List.data_toByteArray]

private theorem byte_lt_iff {a b : Nat} (ha : a < 256) (hb : b < 256) :
    UInt8.ofNat a < UInt8.ofNat b ↔ a < b := by
  rw [UInt8.lt_iff_toNat_lt, UInt8.toNat_ofNat', UInt8.toNat_ofNat']
  omega

private theorem byte_eq_iff {a b : Nat} (ha : a < 256) (hb : b < 256) :
    UInt8.ofNat a = UInt8.ofNat b ↔ a = b := by
  rw [← UInt8.toNat_inj, UInt8.toNat_ofNat', UInt8.toNat_ofNat']
  omega

/-- Code points are ordered by their digits to base 64, the highest first.  These are the
payloads of the bytes of a four-byte encoding. -/
private theorem digits_lt_of_lt {a b : Nat} (hb : b < 0x110000) (h : a < b) :
    a / 262144 % 8 < b / 262144 % 8 ∨ a / 262144 % 8 = b / 262144 % 8 ∧
      (a / 4096 % 64 < b / 4096 % 64 ∨ a / 4096 % 64 = b / 4096 % 64 ∧
        (a / 64 % 64 < b / 64 % 64 ∨ a / 64 % 64 = b / 64 % 64 ∧ a % 64 < b % 64)) := by
  have hdigits : ∀ n : Nat, n < 0x110000 →
      n = n / 262144 % 8 * 262144 + n / 4096 % 64 * 4096 + n / 64 % 64 * 64 + n % 64 := by
    intro n hn
    omega
  have hbound : ∀ n : Nat, n % 64 < 64 := fun n => Nat.mod_lt n (by decide)
  have ha := hdigits a (by omega)
  have hb' := hdigits b hb
  have ha₂ := hbound (a / 4096)
  have ha₁ := hbound (a / 64)
  have ha₀ := hbound a
  have hb₂ := hbound (b / 4096)
  have hb₁ := hbound (b / 64)
  have hb₀ := hbound b
  -- With the digits as variables the rest is linear.
  generalize a / 262144 % 8 = a₃, a / 4096 % 64 = a₂, a / 64 % 64 = a₁, a % 64 = a₀ at *
  generalize b / 262144 % 8 = b₃, b / 4096 % 64 = b₂, b / 64 % 64 = b₁, b % 64 = b₀ at *
  omega

/-- The encoding of a smaller character is smaller, whatever follows either.  The cases
are the lengths of the two encodings: a longer one starts with a larger byte. -/
theorem utf8EncodeChar_append_lt {c d : Char} (h : c < d) (u v : List UInt8) :
    String.utf8EncodeChar c ++ u < String.utf8EncodeChar d ++ v := by
  have hlt : c.val.toNat < d.val.toNat := h
  have hmax : d.val.toNat < 0x110000 := by
    rcases d.valid with hd | hd <;> omega
  have hdigits := digits_lt_of_lt hmax hlt
  unfold String.utf8EncodeChar
  simp only
  generalize c.val.toNat = a, d.val.toNat = b at *
  -- One case for each pair of lengths of the two encodings.
  split_ifs <;>
    simp (disch := omega) only [List.cons_append, List.nil_append, List.cons_lt_cons_iff,
      byte_lt_iff, byte_eq_iff] <;>
    omega

/-- The order of characters lifts to lists of them: what decides is the first place where
the two lists differ. -/
private theorem flatMap_encode_lt {l r : List Char} (h : l < r) :
    l.flatMap String.utf8EncodeChar < r.flatMap String.utf8EncodeChar := by
  induction l generalizing r with
  | nil =>
      cases r with
      | nil => exact absurd h (List.lt_irrefl [])
      | cons d r =>
          rw [List.flatMap_cons, List.flatMap_nil]
          obtain ⟨b, bs, hb⟩ := List.exists_cons_of_ne_nil (@String.utf8EncodeChar_ne_nil d)
          rw [hb]
          exact List.nil_lt_cons _ _
  | cons c l ih =>
      cases r with
      | nil => exact absurd h (List.not_lt_nil _)
      | cons d r =>
          rw [List.flatMap_cons, List.flatMap_cons]
          rcases List.cons_lt_cons_iff.mp h with hcd | ⟨rfl, hlr⟩
          · exact utf8EncodeChar_append_lt hcd _ _
          · exact List.append_left_lt (ih hlr)

/-- **Code point order is byte order.** So the order of `String` here is that of Rust, and
a B-tree set of strings is iterated over in the order that the code has. -/
theorem lt_iff_utf8Bytes_lt {s t : String} : s < t ↔ utf8Bytes s < utf8Bytes t := by
  rw [utf8Bytes_eq_flatMap, utf8Bytes_eq_flatMap]
  constructor
  · intro h
    exact flatMap_encode_lt h
  · intro h
    by_contra hnot
    rcases eq_or_lt_of_le (String.not_lt.mp hnot) with rfl | hlt
    · exact List.lt_irrefl _ h
    · exact List.lt_asymm h (flatMap_encode_lt hlt)

/-- A set of strings is iterated over in ascending byte order, each element before every
larger one. -/
theorem ascending_toList (s : BTreeSet String) :
    s.toList.Pairwise fun a b => utf8Bytes a < utf8Bytes b := by
  refine Std.ExtTreeSet.ordered_toList.imp ?_
  intro a b hab
  rw [← lt_iff_utf8Bytes_lt]
  exact compareOfLessAndEq_eq_lt.mp hab

end Rust
