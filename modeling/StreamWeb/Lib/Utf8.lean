import Mathlib.Data.List.TakeWhile

/-!
# UTF-8 as lists of bytes

`encode` and the strict `decode` of a byte list, and which cuts of an encoded
string decode again: exactly those on a character boundary
(`decode_cut`, `boundary_of_decode`). A NUL byte is a character of its
own, so a cut in front of one is on a boundary.
-/

namespace Utf8

/-- The UTF-8 form of a string. -/
def encode (s : String) : List UInt8 := s.toUTF8.data.toList

/-- Strict decoding: `none` unless the bytes are the UTF-8 form of a string. -/
def decode (b : List UInt8) : Option String := String.fromUTF8? b.toByteArray

/-- A character boundary of `s` lies after its first `n` bytes. -/
def Boundary (s : String) (n : Nat) : Prop := ∃ t u, s = t ++ u ∧ (encode t).length = n

theorem encode_append (s t : String) : encode (s ++ t) = encode s ++ encode t := by
  simp [encode]

theorem encode_length (s : String) : (encode s).length = s.utf8ByteSize := rfl

theorem decode_eq_some {b : List UInt8} {t : String} : decode b = some t ↔ encode t = b := by
  unfold decode encode String.fromUTF8?
  constructor
  · intro h
    split at h
    · cases h
      simp [String.fromUTF8]
    · cases h
  · rintro rfl
    have same : t.toUTF8.data.toList.toByteArray = t.toByteArray := by
      apply ByteArray.ext
      simp
    simp only [same]
    rw [dif_pos t.isValidUTF8]
    rfl

theorem decode_encode (s : String) : decode (encode s) = some s := decode_eq_some.2 rfl

theorem encode_inj {s t : String} (h : encode s = encode t) : s = t := by
  have := decode_encode s
  rw [h, decode_encode t] at this
  exact (Option.some.inj this).symm

theorem boundary_iff_isValid {s : String} {n : Nat} :
    Boundary s n ↔ (⟨n⟩ : String.Pos.Raw).IsValid s := by
  rw [String.Pos.Raw.isValid_iff_exists_append]
  constructor
  · rintro ⟨t, u, rfl, size⟩
    exact ⟨t, u, rfl, String.Pos.Raw.ext size.symm⟩
  · rintro ⟨t, u, rfl, pos⟩
    exact ⟨t, u, rfl, (congrArg String.Pos.Raw.byteIdx pos).symm⟩

instance (s : String) (n : Nat) : Decidable (Boundary s n) :=
  decidable_of_iff _ boundary_iff_isValid.symm

theorem encode_ne_nil {s : String} (h : s ≠ "") : encode s ≠ [] := by
  intro empty
  exact h (encode_inj (empty.trans rfl))

/-- **The cuts that decode.** -/
theorem decode_cut {s : String} {b c : List UInt8} (cut : encode s = b ++ c)
    (h : Boundary s b.length) : ∃ t u, s = t ++ u ∧ encode t = b ∧ decode b = some t := by
  obtain ⟨t, u, rfl, size⟩ := h
  rw [encode_append] at cut
  have same : encode t = b := (List.append_inj cut size).1
  exact ⟨t, u, rfl, same, decode_eq_some.2 same⟩

theorem boundary_of_decode {s t : String} {b c : List UInt8} (cut : encode s = b ++ c)
    (h : decode b = some t) : Boundary s b.length := by
  have form := decode_eq_some.1 h
  rw [boundary_iff_isValid, String.Pos.Raw.isValid_iff_isValidUTF8_extract_zero]
  have le : b.length ≤ s.utf8ByteSize := by
    rw [← encode_length, cut, List.length_append]
    omega
  refine ⟨String.Pos.Raw.le_iff.2 le, ?_⟩
  have bytes : s.toByteArray.extract 0 b.length = t.toByteArray := by
    apply ByteArray.ext
    apply Array.toList_inj.1
    have prefix_eq : (encode s).take b.length = encode t := by simp [cut, form]
    simpa [encode, ByteArray.data_extract] using prefix_eq
  change (s.toByteArray.extract 0 b.length).IsValidUTF8
  rw [bytes]
  exact t.isValidUTF8

/-- A NUL byte is a character of its own. -/
theorem boundary_of_nul {s : String} {b c : List UInt8} (cut : encode s = b ++ 0 :: c) :
    Boundary s b.length := by
  have lt : b.length < s.utf8ByteSize := by
    rw [← encode_length, cut, List.length_append, List.length_cons]
    omega
  rw [boundary_iff_isValid, String.Pos.Raw.isValid_iff_isUTF8FirstByte]
  refine .inr ⟨String.Pos.Raw.lt_iff.2 lt, ?_⟩
  have read : (encode s)[b.length]? = some 0 := by simp [cut]
  obtain ⟨_, byte⟩ := List.getElem?_eq_some_iff.1 read
  have first : s.getUTF8Byte ⟨b.length⟩ (String.Pos.Raw.lt_iff.2 lt) = 0 := byte
  rw [first]
  decide

end Utf8
