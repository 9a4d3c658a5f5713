import KeyRegistry.Node.StorageEmulation
import KeyRegistry.Proofs.Abi.RoundTrip

/-!
# What the emulated contract stores and returns

The node reads the arguments of a call as they were encoded, and what it returns
is read back in turn.  Lengths are bounded by what one byte vector can hold.
-/

namespace KeyRegistry

/-- Bytes that one vector of a 64-bit machine can hold. -/
def Bytes.Holdable (bs : Bytes) : Prop :=
  bs.length < 9223372036854775808

instance (bs : Bytes) : Decidable bs.Holdable :=
  inferInstanceAs (Decidable (bs.length < 9223372036854775808))

namespace Node
namespace StorageEmulation

open Abi Bytes

/-! ## Strings -/

def textPart (s : String) : Bytes :=
  word (Text.encode s).length ++ Text.encode s ++
    List.replicate (padding (Text.encode s).length) 0

theorem length_textPart (s : String) :
    (textPart s).length ≤ (Text.encode s).length + 64 := by
  simp only [textPart, List.length_append, length_word, List.length_replicate, padding, wordSize]
  omega

theorem encode_text (s : String) :
    encode [.text] [.text s] = .ok (word 32 ++ [] ++ (textPart s ++ [])) :=
  rfl

theorem encode_texts (s t : String) :
    encode [.text, .text] [.text s, .text t] =
      .ok (word 64 ++ (word (64 + (textPart s).length) ++ []) ++
        (textPart s ++ (textPart t ++ []))) :=
  rfl

theorem decode_text {s : String} {data : Bytes} (h : encode [.text] [.text s] = .ok data)
    (hs : (Text.encode s).Holdable) : decode [.text] data = .ok [.text s] := by
  have hsize : data.length < UInt64.size := by
    have hpart := length_textPart s
    have hheld : (Text.encode s).length < 9223372036854775808 := hs
    rw [encode_text] at h
    cases h
    simp only [List.length_append, length_word, List.length_nil, wordSize, UInt64.size]
    omega
  exact decode_of_encode rfl h hsize

theorem dynamicAt_of_textPart {s : String} {data : Bytes} {offset position : Nat}
    (hhead : StandsAt data offset (word position)) (htail : StandsAt data position (textPart s))
    (hposition : position < UInt64.size) (hs : (Text.encode s).Holdable) :
    dynamicAt data offset = .ok (Text.encode s) := by
  have hlength : (Text.encode s).length < UInt64.size := by
    have hheld : (Text.encode s).length < 9223372036854775808 := hs
    rw [UInt64.size]
    omega
  rw [textPart, List.append_assoc] at htail
  exact dynamicAt_of_standsAt hhead htail hposition hlength

/-- Two strings are read back even where both are as long as a vector can be. -/
theorem decode_texts {s t : String} {data : Bytes}
    (h : encode [.text, .text] [.text s, .text t] = .ok data) (hs : (Text.encode s).Holdable)
    (ht : (Text.encode t).Holdable) :
    decode [.text, .text] data = .ok [.text s, .text t] := by
  have hdata : data =
      word 64 ++ (word (64 + (textPart s).length) ++ (textPart s ++ textPart t)) := by
    rw [encode_texts] at h
    cases h
    simp
  have hfirst : StandsAt data 0
      (word 64 ++ (word (64 + (textPart s).length) ++ (textPart s ++ textPart t))) :=
    ⟨[], [], by simp [hdata], rfl⟩
  have hsecond := hfirst.right
  have hparts := hsecond.right
  have hlast := hparts.right
  simp only [length_word, wordSize] at hsecond hparts hlast
  have hposition : 64 + (textPart s).length < UInt64.size := by
    have hpart := length_textPart s
    have hheld : (Text.encode s).length < 9223372036854775808 := hs
    rw [UInt64.size]
    omega
  have hone := dynamicAt_of_textPart hfirst.left hparts.left (by decide) hs
  have htwo := dynamicAt_of_textPart hsecond.left hlast hposition ht
  exact decodeFrom_cons (decodeOne_of_dynamicBytes rfl hone)
    (decodeFrom_cons (decodeOne_of_dynamicBytes rfl htwo) rfl)

/-! ## Single words -/

theorem decode_address {a : Address} {data : Bytes}
    (h : encode [.address] [.address a] = .ok data) :
    decode [.address] data = .ok [.address a] := by
  have hsize : data.length < UInt64.size := by
    cases h
    simp [a.length_eq, UInt64.size]
  exact decode_of_encode rfl h hsize

theorem decode_bool {b : Bool} {data : Bytes} (h : encode [.bool] [.bool b] = .ok data) :
    decode [.bool] data = .ok [.bool b] := by
  have hsize : data.length < UInt64.size := by
    cases h
    simp [length_word, wordSize, UInt64.size]
  exact decode_of_encode rfl h hsize

/-! ## Calls -/

variable {caller contract writer : Address} {selector data : Bytes}
  {memory : List (String × String)}

theorem store_invoke {id key : String} (hselector : selector.length = 4)
    (h : encode [.text, .text] [.text id, .text key] = .ok data)
    (hid : (Text.encode id).Holdable) (hkey : (Text.encode key).Holdable) :
    store (Call.invoke caller contract "storeKey" (selector ++ data)) memory =
      insert id key memory := by
  have hstrings : twoStrings? (Call.invoke caller contract "storeKey" (selector ++ data)) =
      some (id, key) := by
    rw [twoStrings?, Call.invoke, List.drop_left' hselector, decode_texts h hid hkey]
  have hmethod : (Call.invoke caller contract "storeKey" (selector ++ data)).method? =
      some "storeKey" := rfl
  rw [store, if_pos hmethod, hstrings]

theorem read_retrieveKey {id : String} (hselector : selector.length = 4)
    (h : encode [.text] [.text id] = .ok data) (hheld : (Text.encode id).Holdable) :
    read writer (Call.invoke caller contract "retrieveKey" (selector ++ data)) memory =
      encoded .text (.text (lookup id memory)) := by
  have hmethod : (Call.invoke caller contract "retrieveKey" (selector ++ data)).method? =
      some "retrieveKey" := rfl
  have harguments : decode [.text]
      ((Call.invoke caller contract "retrieveKey" (selector ++ data)).data.drop 4) =
        .ok [.text id] := by
    rw [Call.invoke, List.drop_left' hselector, decode_text h hheld]
  rw [read, if_pos hmethod, harguments]

theorem read_hasWritePrivilege {account : Address} (hselector : selector.length = 4)
    (h : encode [.address] [.address account] = .ok data) :
    read writer (Call.invoke caller contract "hasWritePrivilege" (selector ++ data)) memory =
      encoded .bool (.bool (account = writer)) := by
  have hmethod : (Call.invoke caller contract "hasWritePrivilege" (selector ++ data)).method? =
      some "hasWritePrivilege" := rfl
  have hother : (Call.invoke caller contract "hasWritePrivilege" (selector ++ data)).method? ≠
      some "retrieveKey" := by
    rw [hmethod]
    decide
  have harguments : decode [.address]
      ((Call.invoke caller contract "hasWritePrivilege" (selector ++ data)).data.drop 4) =
        .ok [.address account] := by
    rw [Call.invoke, List.drop_left' hselector, decode_address h]
  rw [read, if_neg hother, if_pos hmethod, harguments]

theorem decode_encoded_text {s : String} (hs : (Text.encode s).Holdable) :
    decode [.text] (encoded .text (.text s)) = .ok [.text s] :=
  decode_text (encode_text s) hs

theorem decode_encoded_bool (b : Bool) : decode [.bool] (encoded .bool (.bool b)) = .ok [.bool b] :=
  decode_bool rfl

/-! ## The memory -/

theorem lookup_insert (id other key : String) (memory : List (String × String)) :
    lookup id (insert other key memory) = if other = id then key else lookup id memory := by
  rw [lookup, StorageEmulation.insert]
  by_cases hsame : other = id
  · simp [hsame]
  · have hkept : (fun entry : String × String =>
        decide (decide (entry.1 ≠ other) = true ∧ decide (entry.1 = id) = true)) =
          fun entry => decide (entry.1 = id) := by
      funext entry
      by_cases hentry : entry.1 = id
      · simp [hentry, Ne.symm hsame]
      · simp [hentry]
    rw [List.find?_cons_of_neg (by simpa using hsame), List.find?_filter, hkept, if_neg hsame,
      lookup]

def insertAll (entries memory : List (String × String)) : List (String × String) :=
  entries.foldl (fun memory entry => insert entry.1 entry.2 memory) memory

/-- The last key under an identifier, or the empty string. -/
def lastKey (id : String) (entries : List (String × String)) : String :=
  (((entries.filter fun entry => entry.1 = id).getLast?).map Prod.snd).getD ""

theorem lookup_insertAll_or (id : String) (entries memory : List (String × String)) :
    lookup id (insertAll entries memory) =
      (((entries.filter fun entry => entry.1 = id).getLast?).map Prod.snd).getD
        (lookup id memory) := by
  induction entries generalizing memory with
  | nil => rfl
  | cons entry entries ih =>
      have hrest := ih (insert entry.1 entry.2 memory)
      rw [lookup_insert] at hrest
      rw [insertAll, List.foldl_cons]
      refine hrest.trans ?_
      by_cases hsame : entry.1 = id
      · simp [hsame, List.getLast?_cons]
      · simp [hsame]

theorem lookup_insertAll (id : String) (entries : List (String × String)) :
    lookup id (insertAll entries []) = lastKey id entries :=
  lookup_insertAll_or id entries []

theorem holdable_lastKey (id : String) {entries : List (String × String)}
    (h : forall entry, entry ∈ entries -> (Text.encode entry.2).Holdable) :
    (Text.encode (lastKey id entries)).Holdable := by
  rw [lastKey]
  cases hlast : (entries.filter fun entry => entry.1 = id).getLast? with
  | none =>
      have hempty : Text.encode "" = [] := Text.encode_eq ""
      change (Text.encode "").length < _
      rw [hempty]
      decide
  | some entry =>
      have hmem := List.mem_of_getLast? hlast
      exact h entry (List.mem_filter.mp hmem).1

end StorageEmulation
end Node
end KeyRegistry
