import KeyRegistry.Abi.Layout
import KeyRegistry.Proofs.Bytes
import KeyRegistry.Proofs.Except
import KeyRegistry.Proofs.Text.Utf8

/-!
# Reading back encoded values

The words of the head and the parts of the tail are found where the layout has
put them, whatever bytes stand around them.  A list of values is therefore read
back from every byte string in which its head and its tail stand.
-/

namespace KeyRegistry
namespace Abi

open Bytes

variable {data : Bytes} {offset : Nat}

/-! ## Words -/

theorem length_word (n : Nat) : (word n).length = wordSize := by
  simp [word, length_ofNatBE, wordSize]

theorem word_eq_of_lt {n : Nat} (h : n < UInt64.size) :
    word n = List.replicate 24 0 ++ ofNatBE 8 n := by
  have hfit : n < capacity 8 := h
  rw [word, ofNatBE_add_of_lt 8 hfit, ← List.append_assoc, List.replicate_append_replicate]

theorem slice_of_standsAt {part : Bytes} (h : StandsAt data offset part) :
    slice data offset part.length = .ok part := by
  rw [slice, slice?, if_pos h.le_length, h.take_drop]

theorem wordAt_of_standsAt {part : Bytes} (h : StandsAt data offset part)
    (hlength : part.length = wordSize) : wordAt data offset = .ok part := by
  rw [wordAt, ← hlength, slice_of_standsAt h]

theorem sizeAt_of_standsAt {n : Nat} (h : StandsAt data offset (word n))
    (hn : n < UInt64.size) : sizeAt data offset = .ok n := by
  have hfit : n < capacity 8 := hn
  have hzeros : ((word n).take 24).any (· ≠ 0) = false := by
    rw [word_eq_of_lt hn]
    rfl
  have hnumber : toNatBE ((word n).drop 24) = n := by
    rw [word_eq_of_lt hn]
    exact toNatBE_ofNatBE_of_lt hfit
  rw [sizeAt, bind_of_ok (wordAt_of_standsAt h (length_word n)), hzeros, hnumber]
  rfl

/-! ## Values -/

theorem address_of_standsAt {a : Address}
    (h : StandsAt data offset (List.replicate 12 0 ++ a.bytes)) :
    decodeOne data offset .address = .ok (.address a) := by
  have hlength : (List.replicate 12 0 ++ a.bytes).length = wordSize := by
    simp [a.length_eq, wordSize]
  have haddress : Address.ofBytes ((List.replicate 12 0 ++ a.bytes).drop 12) = .ok a := by
    rw [List.drop_left' (List.length_replicate ..), Address.ofBytes, dif_pos a.length_eq]
  rw [decodeOne, bind_of_ok (wordAt_of_standsAt h hlength), haddress]
  rfl

theorem bool_of_standsAt {b : Bool} (h : StandsAt data offset (word b.toNat)) :
    decodeOne data offset .bool = .ok (.bool b) := by
  rw [decodeOne, bind_of_ok (wordAt_of_standsAt h (length_word b.toNat))]
  cases b with
  | false => rfl
  | true => rfl

theorem uint_of_standsAt {bits : Nat} {n : BitVec 128} (h : StandsAt data offset (word n.toNat)) :
    decodeOne data offset (.uint bits) = .ok (.uint n) := by
  have hfit : n.toNat < capacity 16 := n.isLt
  have hzeros : ((word n.toNat).take 16).any (· ≠ 0) = false := by
    rw [word, List.take_left' (List.length_replicate ..)]
    rfl
  have hnumber : toNatBE ((word n.toNat).drop 16) = n.toNat := by
    rw [word, List.drop_left' (List.length_replicate ..)]
    exact toNatBE_ofNatBE_of_lt hfit
  rw [decodeOne, bind_of_ok (wordAt_of_standsAt h (length_word n.toNat)), hzeros, hnumber,
    BitVec.ofNat_toNat, BitVec.setWidth_eq]
  rfl

inductive HeadWord : ParamType -> Token -> Bytes -> Prop where
  | address (a : Address) : HeadWord .address (.address a) (List.replicate 12 0 ++ a.bytes)
  | bool (b : Bool) : HeadWord .bool (.bool b) (word b.toNat)
  | uint (bits : Nat) (n : BitVec 128) : HeadWord (.uint bits) (.uint n) (word n.toNat)

theorem headWord_of_encodeStatic {type : ParamType} {token : Token} {part : Bytes}
    (h : encodeStatic type token = .ok part) : HeadWord type token part := by
  cases type with
  | address =>
      cases token with
      | address a =>
          cases h
          exact HeadWord.address a
      | _ => cases h
  | bool =>
      cases token with
      | bool b =>
          cases h
          exact HeadWord.bool b
      | _ => cases h
  | uint bits =>
      cases token with
      | uint n =>
          rw [encodeStatic] at h
          split at h
          · cases h
          · cases h
            exact HeadWord.uint bits n
      | _ => cases h
  | text => cases token <;> cases h
  | bytes => cases token <;> cases h

theorem HeadWord.length_eq {type : ParamType} {token : Token} {part : Bytes}
    (h : HeadWord type token part) : part.length = wordSize := by
  cases h with
  | address a => simp [a.length_eq, wordSize]
  | bool b => exact length_word b.toNat
  | uint bits n => exact length_word n.toNat

theorem HeadWord.decodeOne_eq {type : ParamType} {token : Token} {part : Bytes}
    (h : HeadWord type token part) (hstands : StandsAt data offset part) :
    decodeOne data offset type = .ok token := by
  cases h with
  | address a => exact address_of_standsAt hstands
  | bool b => exact bool_of_standsAt hstands
  | uint bits n => exact uint_of_standsAt hstands

theorem dynamicAt_of_standsAt {bs padded : Bytes} {position : Nat}
    (hhead : StandsAt data offset (word position))
    (htail : StandsAt data position (word bs.length ++ (bs ++ padded)))
    (hposition : position < UInt64.size) (hlength : bs.length < UInt64.size) :
    dynamicAt data offset = .ok bs := by
  have hbytes : StandsAt data (position + wordSize) bs := by
    rw [← length_word bs.length]
    exact htail.right.left
  rw [dynamicAt, bind_of_ok (sizeAt_of_standsAt hhead hposition),
    bind_of_ok (sizeAt_of_standsAt htail.left hlength)]
  exact slice_of_standsAt hbytes

theorem decodeOne_of_dynamicBytes {type : ParamType} {token : Token} {bs : Bytes}
    (hbytes : dynamicBytes type token = .ok bs) (h : dynamicAt data offset = .ok bs) :
    decodeOne data offset type = .ok token := by
  cases type with
  | text =>
      cases token with
      | text s =>
          cases hbytes
          rw [decodeOne, bind_of_ok h, Text.decode?_encode]
          rfl
      | _ => cases hbytes
  | bytes =>
      cases token with
      | bytes bs =>
          cases hbytes
          rw [decodeOne, bind_of_ok h]
          rfl
      | _ => cases hbytes
  | address => cases hbytes
  | bool => cases hbytes
  | uint bits => cases hbytes

theorem encodeDynamic_eq_ok {type : ParamType} {token : Token} {part : Bytes}
    (h : encodeDynamic type token = .ok part) :
    ∃ bs, dynamicBytes type token = .ok bs ∧
      part = word bs.length ++ (bs ++ List.replicate (padding bs.length) 0) := by
  rw [encodeDynamic] at h
  rcases ok_of_bind h with ⟨bs, hbytes, hpart⟩
  cases hpart
  exact ⟨bs, hbytes, List.append_assoc ..⟩

/-! ## Layouts -/

theorem layout_dynamic_eq_ok {position : Nat} {type : ParamType} {types : List ParamType}
    {token : Token} {tokens : List Token} {head tail : Bytes} (hdynamic : type.isDynamic = true)
    (h : layout position (type :: types) (token :: tokens) = .ok (head, tail)) :
    ∃ part head' tail', encodeDynamic type token = .ok part ∧
      layout (position + part.length) types tokens = .ok (head', tail') ∧
      head = word position ++ head' ∧ tail = part ++ tail' := by
  rw [layout, if_pos hdynamic] at h
  rcases ok_of_bind h with ⟨part, hpart, hparts⟩
  rcases ok_of_bind hparts with ⟨⟨head', tail'⟩, hrest, heq⟩
  cases heq
  exact ⟨part, head', tail', hpart, hrest, rfl, rfl⟩

theorem layout_static_eq_ok {position : Nat} {type : ParamType} {types : List ParamType}
    {token : Token} {tokens : List Token} {head tail : Bytes} (hstatic : type.isDynamic = false)
    (h : layout position (type :: types) (token :: tokens) = .ok (head, tail)) :
    ∃ part head', encodeStatic type token = .ok part ∧
      layout position types tokens = .ok (head', tail) ∧ head = part ++ head' := by
  rw [layout, hstatic, if_neg Bool.false_ne_true] at h
  rcases ok_of_bind h with ⟨part, hpart, hparts⟩
  rcases ok_of_bind hparts with ⟨⟨head', tail'⟩, hrest, heq⟩
  cases heq
  exact ⟨part, head', hpart, hrest, rfl⟩

theorem decodeFrom_cons {offset : Nat} {type : ParamType} {types : List ParamType}
    {token : Token} {tokens : List Token} (hone : decodeOne data offset type = .ok token)
    (hrest : decodeFrom data (offset + wordSize) types = .ok tokens) :
    decodeFrom data offset (type :: types) = .ok (token :: tokens) := by
  rw [decodeFrom, bind_of_ok hone, bind_of_ok hrest]
  rfl

/-- Values are read back wherever their head stands, if their tail stands where the head says
and positions in it fit 64 bits. -/
theorem decodeFrom_of_layout {types : List ParamType} {tokens : List Token} {position : Nat}
    {head tail : Bytes} (hlength : types.length = tokens.length)
    (h : layout position types tokens = .ok (head, tail))
    (hhead : StandsAt data offset head) (htail : StandsAt data position tail)
    (hsize : position + tail.length < UInt64.size) :
    decodeFrom data offset types = .ok tokens := by
  induction types generalizing tokens position head tail offset with
  | nil =>
      cases tokens with
      | nil => rfl
      | cons token tokens => cases hlength
  | cons type types ih =>
      cases tokens with
      | nil => cases hlength
      | cons token tokens =>
          have hlength' : types.length = tokens.length := Nat.succ.inj hlength
          cases hdynamic : type.isDynamic with
          | true =>
              rcases layout_dynamic_eq_ok hdynamic h with ⟨part, head, tail, hpart, hrest, rfl, rfl⟩
              rcases encodeDynamic_eq_ok hpart with ⟨bs, hbytes, rfl⟩
              have hhead' := hhead.right
              rw [length_word] at hhead'
              rw [List.length_append] at hsize
              have hbs : dynamicAt data offset = .ok bs := by
                refine dynamicAt_of_standsAt hhead.left htail.left ?_ ?_
                · omega
                · simp only [List.length_append] at hsize
                  omega
              refine decodeFrom_cons (decodeOne_of_dynamicBytes hbytes hbs) ?_
              exact ih hlength' hrest hhead' htail.right (by omega)
          | false =>
              rcases layout_static_eq_ok hdynamic h with ⟨part, head, hpart, hrest, rfl⟩
              have hword := headWord_of_encodeStatic hpart
              have hhead' := hhead.right
              rw [hword.length_eq] at hhead'
              refine decodeFrom_cons (hword.decodeOne_eq hhead.left) ?_
              exact ih hlength' hrest hhead' htail hsize

theorem length_head_of_layout {types : List ParamType} {tokens : List Token} {position : Nat}
    {head tail : Bytes} (hlength : types.length = tokens.length)
    (h : layout position types tokens = .ok (head, tail)) :
    head.length = types.length * wordSize := by
  induction types generalizing tokens position head tail with
  | nil =>
      cases tokens with
      | nil =>
          cases h
          rfl
      | cons token tokens => cases hlength
  | cons type types ih =>
      cases tokens with
      | nil => cases hlength
      | cons token tokens =>
          have hlength' : types.length = tokens.length := Nat.succ.inj hlength
          cases hdynamic : type.isDynamic with
          | true =>
              rcases layout_dynamic_eq_ok hdynamic h with ⟨part, head, tail, _, hrest, rfl, rfl⟩
              rw [List.length_append, length_word, ih hlength' hrest, List.length_cons,
                Nat.succ_mul, Nat.add_comm]
          | false =>
              rcases layout_static_eq_ok hdynamic h with ⟨part, head, hpart, hrest, rfl⟩
              rw [List.length_append, (headWord_of_encodeStatic hpart).length_eq,
                ih hlength' hrest, List.length_cons, Nat.succ_mul, Nat.add_comm]

theorem decode_append_of_encode {types : List ParamType} {tokens : List Token} {data : Bytes}
    (hlength : types.length = tokens.length) (h : encode types tokens = .ok data)
    (hsize : data.length < UInt64.size) (suffix : Bytes) :
    decode types (data ++ suffix) = .ok tokens := by
  rw [encode] at h
  rcases ok_of_bind h with ⟨⟨head, tail⟩, hlayout, hdata⟩
  cases hdata
  have hhead := length_head_of_layout hlength hlayout
  have hstands : StandsAt (head ++ tail ++ suffix) 0 (head ++ tail) :=
    standsAt_start (head ++ tail) suffix
  have htail : StandsAt (head ++ tail ++ suffix) (types.length * wordSize) tail := by
    rw [← hhead, ← Nat.zero_add head.length]
    exact hstands.right
  rw [List.length_append, hhead] at hsize
  exact decodeFrom_of_layout hlength hlayout hstands.left htail hsize

theorem decode_of_encode {types : List ParamType} {tokens : List Token} {data : Bytes}
    (hlength : types.length = tokens.length) (h : encode types tokens = .ok data)
    (hsize : data.length < UInt64.size) : decode types data = .ok tokens := by
  rw [← List.append_nil data]
  exact decode_append_of_encode hlength h hsize []

/-- Encoded values are read back, whatever bytes follow them; so different values of the same
types have different encodings. -/
theorem decode_encode {types : List ParamType} {tokens : List Token} {data : Bytes}
    (hlength : types.length = tokens.length) (h : encode types tokens = .ok data)
    (hsize : data.length < UInt64.size) :
    (forall suffix, decode types (data ++ suffix) = .ok tokens) ∧
      forall other, types.length = other.length -> encode types other = .ok data ->
        other = tokens := by
  constructor
  · exact decode_append_of_encode hlength h hsize
  · intro other hother hencode
    have hread := decode_of_encode hlength h hsize
    rw [decode_of_encode hother hencode hsize] at hread
    exact Except.ok.inj hread

/-- Empty strings, strings of several words and strings that fill no whole word stand in one tail,
with words of static types between their positions. -/
theorem decode_encode_mixed :
    ∃ data,
      encode [.text, .uint 8, .bytes, .bool, .text]
        [.text "", .uint 255, .bytes (List.replicate 33 7), .bool true,
          .text "Schlüssel für 🔑 und noch mehr"] = .ok data ∧
      data.length < UInt64.size ∧
      (forall suffix,
        decode [.text, .uint 8, .bytes, .bool, .text] (data ++ suffix) =
          .ok [.text "", .uint 255, .bytes (List.replicate 33 7), .bool true,
            .text "Schlüssel für 🔑 und noch mehr"]) ∧
      forall other, 5 = other.length ->
        encode [.text, .uint 8, .bytes, .bool, .text] other = .ok data ->
        other = [.text "", .uint 255, .bytes (List.replicate 33 7), .bool true,
          .text "Schlüssel für 🔑 und noch mehr"] := by
  refine ⟨_, rfl, ?_, ?_⟩
  · decide +kernel
  · exact decode_encode rfl rfl (by decide +kernel)

end Abi
end KeyRegistry
