import KeyRegistry.Text.Utf8

/-!
# Text and its bytes

A text is read back from its UTF-8 form, whatever characters it has, and nothing
else is read as this text.
-/

namespace KeyRegistry
namespace Text

theorem drop_toList {bytes : ByteArray} {i : Nat} (h : i < bytes.size) :
    bytes.data.toList.drop i = bytes.get! i :: bytes.data.toList.drop (i + 1) := by
  have hlength : i < bytes.data.toList.length := by simpa using h
  have hbyte : bytes.get! i = bytes.data[i] := getElem!_pos bytes.data i h
  rw [List.drop_eq_getElem_cons hlength, hbyte, Array.getElem_toList]

theorem toList_loop (bytes : ByteArray) {remaining i : Nat} (read : List UInt8)
    (h : i + remaining = bytes.size) :
    ByteArray.toList.loop bytes i read = read.reverse ++ bytes.data.toList.drop i := by
  induction remaining generalizing i read with
  | zero =>
      have hend : ¬ i < bytes.size := by omega
      have hnil : bytes.data.toList.drop i = [] := by simpa using Nat.le_of_not_lt hend
      rw [ByteArray.toList.loop, if_neg hend, hnil, List.append_nil]
  | succ remaining ih =>
      have hi : i < bytes.size := by omega
      have hnext : i + 1 + remaining = bytes.size := by omega
      rw [ByteArray.toList.loop, if_pos hi, ih _ hnext, drop_toList hi, List.reverse_cons,
        List.append_assoc]
      rfl

theorem encode_eq (s : String) : encode s = s.toByteArray.data.toList := by
  rw [encode, String.toUTF8_eq_toByteArray, ByteArray.toList,
    toList_loop s.toByteArray [] (Nat.zero_add _)]
  rfl

theorem decode?_encode (s : String) : decode? (encode s) = some s := by
  have hbytes : ByteArray.mk (encode s).toArray = s.toByteArray := by
    rw [encode_eq]
  rw [decode?, hbytes, String.fromUTF8?, dif_pos s.isValidUTF8]
  rfl

theorem encode_ofList (cs : List Char) :
    encode (String.ofList cs) = cs.flatMap String.utf8EncodeChar := by
  rw [encode_eq, String.toByteArray_ofList, List.utf8Encode]
  simp

theorem firstChar?_append (c : Char) (bs : Bytes) :
    firstChar? (String.utf8EncodeChar c ++ bs) = some c := by
  have hlength : (String.utf8EncodeChar c).length ≤ 4 := by
    rw [String.length_utf8EncodeChar]
    exact c.utf8Size_le_four
  have hbytes : ByteArray.mk ((String.utf8EncodeChar c ++ bs).take 4).toArray =
      (String.utf8EncodeChar c).toByteArray ++
        ByteArray.mk (bs.take (4 - (String.utf8EncodeChar c).length)).toArray := by
    rw [List.take_append, List.take_of_length_le hlength]
    ext1
    simp
  rw [firstChar?, hbytes]
  exact ByteArray.utf8DecodeChar?_utf8EncodeChar_append

theorem encode_of_decode? {bs : Bytes} {s : String} (h : decode? bs = some s) :
    encode s = bs := by
  unfold decode? String.fromUTF8? at h
  split at h
  · cases h
    rw [encode_eq]
    rfl
  · cases h

end Text
end KeyRegistry
