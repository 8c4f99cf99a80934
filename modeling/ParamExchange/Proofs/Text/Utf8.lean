/-
Texts and octets: a text is read back from its octets, and octets that are read as a text are the
octets of that text.
-/
import Mathlib.Tactic
import ParamExchange.Text.Utf8

namespace ParamExchange.Text.Utf8

theorem toByteArray_encode (s : String) : (encode s).toByteArray = s.toByteArray := by
  rw [← String.utf8Encode_toList]; rfl

theorem decode_encode (s : String) : decode (encode s) = .ok s := by
  have h : String.fromUTF8? s.toByteArray = some s := dif_pos s.isValidUTF8
  unfold decode
  rw [toByteArray_encode, h]

/-- A text that was read has the octets that it was read from. -/
theorem encode_of_decode {bs : List UInt8} {s : String} (h : decode bs = .ok s) : encode s = bs := by
  unfold decode at h
  split at h
  · rename_i t ht
    cases h
    unfold String.fromUTF8? at ht
    split at ht
    · simp only [Option.some.injEq] at ht
      have he : (encode s).toByteArray = bs.toByteArray := by
        rw [toByteArray_encode, ← ht, String.fromUTF8]
      simpa using congrArg (fun b => b.data.toList) he
    · cases ht
  · cases h

/-- A character takes up four octets at most. -/
theorem length_encode_le (s : String) : (encode s).length ≤ 4 * s.toList.length := by
  unfold encode
  induction s.toList with
  | nil => simp
  | cons c cs ih =>
    have hc : (String.utf8EncodeChar c).length ≤ 4 := by
      rw [String.length_utf8EncodeChar]
      exact c.utf8Size_le_four
    rw [List.flatMap_cons, List.length_append, List.length_cons]
    omega

end ParamExchange.Text.Utf8
