import DesignGraph.Text.Percent
import Mathlib.Logic.Function.Basic

/-!
# Percent decoding

A percent-encoded text consists of characters that stand for themselves and of bytes in capital
hexadecimal digits, and a decoder gets back from it the text that was encoded.
-/

namespace DesignGraph.Text

theorem hexValue?_upperHexDigit {n : Nat} (small : n < 16) :
    hexValue? (upperHexDigit n) = some n := by
  have all : ∀ n < 16, hexValue? (upperHexDigit n) = some n := by decide
  exact all n small

namespace Percent

/-- The bytes that an encoded text stands for. A percent sign without two hexadecimal digits behind
it stands for itself, as every other character does. -/
def decodeBytes : List Char → List UInt8
  | [] => []
  | '%' :: high :: low :: rest =>
      match hexValue? high, hexValue? low with
      | some h, some l => UInt8.ofNat (h * 16 + l) :: decodeBytes rest
      | _, _ => String.utf8EncodeChar '%' ++ decodeBytes (high :: low :: rest)
  | c :: rest => String.utf8EncodeChar c ++ decodeBytes rest

/-- The text that an encoded text stands for, if its bytes are UTF-8. -/
def decode (s : String) : Option String := String.fromUTF8? (decodeBytes s.toList).toByteArray

def upperHexDigits : List Char := "0123456789ABCDEF".toList

/-- Characters that stand for themselves, and bytes in capital hexadecimal digits. -/
inductive IsEscaped : List Char → Prop
  | nil : IsEscaped []
  | plain {c : Char} {rest : List Char} (unreserved : isUnreserved c = true)
      (later : IsEscaped rest) : IsEscaped (c :: rest)
  | byte {high low : Char} {rest : List Char} (isHigh : high ∈ upperHexDigits)
      (isLow : low ∈ upperHexDigits) (later : IsEscaped rest) :
      IsEscaped ('%' :: high :: low :: rest)

variable {c : Char} {rest : List Char}

/-! ## The form -/

theorem upperHexDigit_mem {n : Nat} (small : n < 16) : upperHexDigit n ∈ upperHexDigits := by
  have all : ∀ n < 16, upperHexDigit n ∈ upperHexDigits := by decide
  exact all n small

theorem IsEscaped.encodeByte_append (b : UInt8) (later : IsEscaped rest) :
    IsEscaped (encodeByte b ++ rest) := by
  have bound : b.toNat < 256 := b.toNat_lt
  exact .byte (upperHexDigit_mem (by omega)) (upperHexDigit_mem (by omega)) later

theorem IsEscaped.flatMap_append (bytes : List UInt8) (later : IsEscaped rest) :
    IsEscaped (bytes.flatMap encodeByte ++ rest) := by
  induction bytes with
  | nil => exact later
  | cons b bytes ih =>
    rw [List.flatMap_cons, List.append_assoc]
    exact ih.encodeByte_append b

theorem IsEscaped.encodeChar_append (c : Char) (later : IsEscaped rest) :
    IsEscaped (encodeChar c ++ rest) := by
  unfold encodeChar
  cases unreserved : isUnreserved c with
  | true => exact .plain unreserved later
  | false => exact later.flatMap_append _

theorem isEscaped_encode (s : String) : IsEscaped (encode s).toList := by
  rw [encode, String.toList_ofList]
  induction s.toList with
  | nil => exact .nil
  | cons c rest ih =>
    rw [List.flatMap_cons]
    exact ih.encodeChar_append c

/-- No quote, backslash or line end occurs in an escaped text, nor any other character that is
reserved. -/
theorem IsEscaped.unreserved {cs : List Char} (escaped : IsEscaped cs) :
    ∀ c ∈ cs, isUnreserved c = true ∨ c = '%' := by
  have digits : ∀ digit ∈ upperHexDigits, isUnreserved digit = true :=
    List.all_eq_true.mp (by decide)
  induction escaped with
  | nil => simp
  | plain unreserved _ ih => exact List.forall_mem_cons.mpr ⟨.inl unreserved, ih⟩
  | byte isHigh isLow _ ih =>
    refine List.forall_mem_cons.mpr ⟨.inr rfl, List.forall_mem_cons.mpr ⟨?_, ?_⟩⟩
    · exact .inl (digits _ isHigh)
    · exact List.forall_mem_cons.mpr ⟨.inl (digits _ isLow), ih⟩

/-! ## The way back -/

theorem decodeBytes_encodeByte_append (b : UInt8) (rest : List Char) :
    decodeBytes (encodeByte b ++ rest) = b :: decodeBytes rest := by
  have bound : b.toNat < 256 := b.toNat_lt
  have whole : b.toNat / 16 * 16 + b.toNat % 16 = b.toNat := by omega
  simp only [encodeByte, List.cons_append, List.nil_append, decodeBytes,
    hexValue?_upperHexDigit (show b.toNat / 16 < 16 by omega),
    hexValue?_upperHexDigit (show b.toNat % 16 < 16 by omega), whole, UInt8.ofNat_toNat]

theorem decodeBytes_flatMap_append (bytes : List UInt8) (rest : List Char) :
    decodeBytes (bytes.flatMap encodeByte ++ rest) = bytes ++ decodeBytes rest := by
  induction bytes with
  | nil => rfl
  | cons b bytes ih =>
    rw [List.flatMap_cons, List.append_assoc, decodeBytes_encodeByte_append, ih, List.cons_append]

theorem decodeBytes_cons (other : c ≠ '%') (rest : List Char) :
    decodeBytes (c :: rest) = String.utf8EncodeChar c ++ decodeBytes rest := by
  rw [decodeBytes.eq_def]
  split
  · contradiction
  · simp_all
  · simp_all

private theorem toList_loop (bytes : ByteArray) (i : Nat) (done : List UInt8) :
    ByteArray.toList.loop bytes i done = done.reverse ++ bytes.data.toList.drop i := by
  fun_induction ByteArray.toList.loop bytes i done with
  | case1 i done inside ih =>
    have split : bytes.data.toList.drop i = bytes.get! i :: bytes.data.toList.drop (i + 1) := by
      have inside : i < bytes.data.size := inside
      rw [List.drop_eq_getElem_cons (by simpa using inside), Array.getElem_toList,
        ← getElem!_pos bytes.data i inside]
      rfl
    rw [ih, split, List.reverse_cons, List.append_assoc]
    rfl
  | case2 i done outside =>
    have outside : bytes.data.toList.length ≤ i := by
      rw [Array.length_toList]
      exact Nat.not_lt.mp outside
    rw [List.drop_eq_nil_of_le outside, List.append_nil]

/-- The bytes of a character are those of its UTF-8 form. -/
theorem toList_toUTF8_singleton (c : Char) :
    (String.singleton c).toUTF8.toList = String.utf8EncodeChar c := by
  rw [String.toUTF8_eq_toByteArray, String.toByteArray_singleton, List.utf8Encode_singleton,
    ByteArray.toList, toList_loop, List.toList_data_toByteArray]
  rfl

theorem decodeBytes_encodeChar_append (c : Char) (rest : List Char) :
    decodeBytes (encodeChar c ++ rest) = String.utf8EncodeChar c ++ decodeBytes rest := by
  unfold encodeChar
  cases unreserved : isUnreserved c with
  | true =>
    have other : c ≠ '%' := by
      rintro rfl
      exact absurd unreserved (by decide)
    exact decodeBytes_cons other rest
  | false =>
    simp only [Bool.false_eq_true, if_false]
    rw [decodeBytes_flatMap_append, toList_toUTF8_singleton]

theorem decodeBytes_encode (s : String) :
    decodeBytes (encode s).toList = s.toList.flatMap String.utf8EncodeChar := by
  rw [encode, String.toList_ofList]
  induction s.toList with
  | nil => rfl
  | cons c rest ih => rw [List.flatMap_cons, decodeBytes_encodeChar_append, ih, List.flatMap_cons]

/-- What was encoded is decoded. -/
theorem decode_encode (s : String) : decode (encode s) = some s := by
  have bytes : (decodeBytes (encode s).toList).toByteArray = s.toByteArray := by
    rw [decodeBytes_encode, ← String.utf8Encode_toList]
    rfl
  unfold decode String.fromUTF8?
  rw [dif_pos (bytes ▸ s.isValidUTF8)]
  simp only [Option.some.injEq, ← String.toByteArray_inj]
  exact bytes

theorem encode_injective : Function.Injective encode := by
  intro s t same
  have decoded : some s = some t := by rw [← decode_encode s, same, decode_encode]
  exact Option.some.inj decoded

/-! ## Texts that encoding leaves as they are -/

theorem length_flatMap_encodeByte (bytes : List UInt8) :
    (bytes.flatMap encodeByte).length = 3 * bytes.length := by
  induction bytes with
  | nil => rfl
  | cons b bytes ih =>
    rw [List.flatMap_cons, List.length_append, ih, List.length_cons]
    simp [encodeByte]
    omega

theorem encodeChar_of_unreserved (unreserved : isUnreserved c = true) : encodeChar c = [c] := by
  rw [encodeChar, if_pos unreserved]

/-- A character that is reserved grows. -/
theorem length_encodeChar (reserved : isUnreserved c = false) : 1 < (encodeChar c).length := by
  have some_byte := List.length_pos_iff.mpr (String.utf8EncodeChar_ne_nil (c := c))
  rw [encodeChar, reserved, if_neg Bool.false_ne_true, length_flatMap_encodeByte,
    toList_toUTF8_singleton]
  omega

theorem length_le_flatMap_encodeChar (cs : List Char) :
    cs.length ≤ (cs.flatMap encodeChar).length := by
  induction cs with
  | nil => exact Nat.le_refl _
  | cons c cs ih =>
    rw [List.flatMap_cons, List.length_append, List.length_cons]
    cases unreserved : isUnreserved c with
    | true =>
      rw [encodeChar_of_unreserved unreserved, List.length_singleton]
      omega
    | false =>
      have grows := length_encodeChar unreserved
      omega

theorem flatMap_encodeChar_eq_self_iff (cs : List Char) :
    cs.flatMap encodeChar = cs ↔ ∀ c ∈ cs, isUnreserved c = true := by
  induction cs with
  | nil => simp
  | cons c cs ih =>
    rw [List.flatMap_cons, List.forall_mem_cons, ← ih]
    cases unreserved : isUnreserved c with
    | true =>
      rw [encodeChar_of_unreserved unreserved]
      simp
    | false =>
      have grows := length_encodeChar unreserved
      have others := length_le_flatMap_encodeChar cs
      refine iff_of_false (fun same => ?_) fun both => absurd both.1 Bool.false_ne_true
      have lengths := congrArg List.length same
      rw [List.length_append, List.length_cons] at lengths
      omega

theorem encode_eq_self_iff {s : String} :
    encode s = s ↔ ∀ c ∈ s.toList, isUnreserved c = true := by
  rw [← flatMap_encodeChar_eq_self_iff, ← String.toList_inj, encode, String.toList_ofList]

end Percent

end DesignGraph.Text
