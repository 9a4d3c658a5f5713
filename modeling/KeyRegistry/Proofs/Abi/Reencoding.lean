import KeyRegistry.Proofs.Abi.RoundTrip
import Mathlib.Data.List.Forall2

/-!
# Encoding decoded values again

Values are encoded where each of them is one of its type, and nowhere else.
Decoded addresses, truth values, strings and byte strings are values of their
types whatever the data.  A decoded integer is the number of its head word, which
the decoder does not compare with the width of the type; so decoded values are
encoded again exactly where no integer among them exceeds its width.
-/

namespace KeyRegistry
namespace Abi

open Bytes

/-! ## Values of a type -/

inductive Holds : ParamType -> Token -> Prop where
  | address (a : Address) : Holds .address (.address a)
  | bool (b : Bool) : Holds .bool (.bool b)
  | uint {bits : Nat} {n : BitVec 128} :
      n.toNat < Nat.pow 2 bits -> Holds (.uint bits) (.uint n)
  | text (s : String) : Holds .text (.text s)
  | bytes (bs : Bytes) : Holds .bytes (.bytes bs)

theorem encodeStatic_succeeds_iff {type : ParamType} {token : Token}
    (hstatic : type.isDynamic = false) :
    (∃ part, encodeStatic type token = .ok part) ↔ Holds type token := by
  constructor
  · rintro ⟨part, hpart⟩
    cases headWord_of_encodeStatic hpart with
    | address a => exact Holds.address a
    | bool b => exact Holds.bool b
    | uint bits n =>
        apply Holds.uint
        rw [encodeStatic] at hpart
        split at hpart
        · cases hpart
        · rename_i hfits
          rw [Nat.one_shiftLeft] at hfits
          by_cases hnarrow : bits < 128
          · exact Nat.lt_of_not_le fun hle => hfits ⟨hnarrow, hle⟩
          · exact Nat.lt_of_lt_of_le n.isLt
              (Nat.pow_le_pow_right Nat.two_pos (Nat.le_of_not_lt hnarrow))
  · intro hholds
    cases hholds with
    | address a => exact ⟨_, rfl⟩
    | bool b => exact ⟨_, rfl⟩
    | @uint bits n hfits =>
        refine ⟨word n.toNat, ?_⟩
        rw [encodeStatic, if_neg]
        rintro ⟨_, hle⟩
        rw [Nat.one_shiftLeft] at hle
        exact Nat.not_le_of_lt hfits hle
    | text s => cases hstatic
    | bytes bs => cases hstatic

theorem encodeDynamic_succeeds_iff {type : ParamType} {token : Token}
    (hdynamic : type.isDynamic = true) :
    (∃ part, encodeDynamic type token = .ok part) ↔ Holds type token := by
  constructor
  · rintro ⟨part, hpart⟩
    rcases encodeDynamic_eq_ok hpart with ⟨bs, hbytes, _⟩
    cases type with
    | text =>
        cases token with
        | text s => exact Holds.text s
        | _ => cases hbytes
    | bytes =>
        cases token with
        | bytes bs => exact Holds.bytes bs
        | _ => cases hbytes
    | _ => cases hdynamic
  · intro hholds
    cases hholds with
    | text s => exact ⟨_, rfl⟩
    | bytes bs => exact ⟨_, rfl⟩
    | _ => cases hdynamic

theorem layout_succeeds_iff {types : List ParamType} {tokens : List Token} (position : Nat)
    (hlength : types.length = tokens.length) :
    (∃ parts, layout position types tokens = .ok parts) ↔ List.Forall₂ Holds types tokens := by
  induction types generalizing tokens position with
  | nil =>
      cases tokens with
      | nil => exact ⟨fun _ => List.Forall₂.nil, fun _ => ⟨_, rfl⟩⟩
      | cons token tokens => cases hlength
  | cons type types ih =>
      cases tokens with
      | nil => cases hlength
      | cons token tokens =>
          have hlength' : types.length = tokens.length := Nat.succ.inj hlength
          rw [List.forall₂_cons]
          cases hdynamic : type.isDynamic with
          | true =>
              rw [← encodeDynamic_succeeds_iff hdynamic]
              constructor
              · rintro ⟨⟨head, tail⟩, hlayout⟩
                rcases layout_dynamic_eq_ok hdynamic hlayout with ⟨part, _, _, hpart, hrest, _⟩
                exact ⟨⟨part, hpart⟩, (ih _ hlength').mp ⟨_, hrest⟩⟩
              · rintro ⟨⟨part, hpart⟩, htyped⟩
                rcases (ih (position + part.length) hlength').mpr htyped with
                  ⟨⟨head, tail⟩, hrest⟩
                refine ⟨(word position ++ head, part ++ tail), ?_⟩
                rw [layout, if_pos hdynamic, bind_of_ok hpart, bind_of_ok hrest]
                rfl
          | false =>
              rw [← encodeStatic_succeeds_iff hdynamic]
              constructor
              · rintro ⟨⟨head, tail⟩, hlayout⟩
                rcases layout_static_eq_ok hdynamic hlayout with ⟨part, _, hpart, hrest, _⟩
                exact ⟨⟨part, hpart⟩, (ih _ hlength').mp ⟨_, hrest⟩⟩
              · rintro ⟨⟨part, hpart⟩, htyped⟩
                rcases (ih position hlength').mpr htyped with
                  ⟨⟨head, tail⟩, hrest⟩
                refine ⟨(part ++ head, tail), ?_⟩
                rw [layout, hdynamic, if_neg Bool.false_ne_true, bind_of_ok hpart,
                  bind_of_ok hrest]
                rfl

theorem encode_succeeds_iff {types : List ParamType} {tokens : List Token}
    (hlength : types.length = tokens.length) :
    (∃ data, encode types tokens = .ok data) ↔ List.Forall₂ Holds types tokens := by
  rw [← layout_succeeds_iff (types.length * wordSize) hlength]
  constructor
  · rintro ⟨data, hencode⟩
    rcases ok_of_bind hencode with ⟨parts, hlayout, _⟩
    exact ⟨parts, hlayout⟩
  · rintro ⟨⟨head, tail⟩, hlayout⟩
    refine ⟨head ++ tail, ?_⟩
    rw [encode, bind_of_ok hlayout]
    rfl

/-! ## Decoded values -/

variable {data : Bytes} {offset : Nat}

def wordNumber (data : Bytes) (offset : Nat) : Nat :=
  toNatBE ((data.drop offset).take wordSize)

theorem wordAt_eq_ok {bs : Bytes} (h : wordAt data offset = .ok bs) :
    bs = (data.drop offset).take wordSize ∧ bs.length = wordSize := by
  unfold wordAt slice slice? at h
  split at h
  · rename_i part hpart
    split at hpart
    · rename_i hfits
      cases hpart
      cases h
      refine ⟨rfl, ?_⟩
      rw [List.length_take, List.length_drop]
      omega
    · cases hpart
  · cases h

theorem uint_of_decodeOne {bits : Nat} {token : Token}
    (h : decodeOne data offset (.uint bits) = .ok token) :
    ∃ n, token = .uint n ∧ n.toNat = wordNumber data offset := by
  rcases ok_of_bind h with ⟨bs, hword, hrest⟩
  rcases wordAt_eq_ok hword with ⟨hbs, hlength⟩
  split at hrest
  · cases hrest
  · rename_i hzeros
    cases hrest
    refine ⟨_, rfl, ?_⟩
    have hhigh : bs.take 16 = List.replicate 16 0 := by
      rw [List.eq_replicate_iff, List.length_take, hlength]
      refine ⟨rfl, ?_⟩
      intro b hb
      apply Classical.byContradiction
      intro hne
      exact hzeros (List.any_eq_true.mpr ⟨b, hb, decide_eq_true hne⟩)
    have hsplit : toNatBE bs = toNatBE (bs.drop 16) := by
      conv => lhs; rw [← List.take_append_drop 16 bs, hhigh]
      exact toNatBE_zeros_append 16 _
    have hfits : toNatBE (bs.drop 16) < capacity 16 := by
      have hlow : (bs.drop 16).length = 16 := by
        rw [List.length_drop, hlength]
        rfl
      have hbound := toNatBE_lt (bs.drop 16)
      rwa [hlow] at hbound
    rw [wordNumber, ← hbs, hsplit, BitVec.toNat_ofNat]
    exact Nat.mod_eq_of_lt hfits

/-- A decoded value is one of its type, unless it is an integer beyond its width. -/
theorem holds_iff_of_decodeOne {type : ParamType} {token : Token}
    (h : decodeOne data offset type = .ok token) :
    Holds type token ↔
      forall bits n, type = .uint bits -> token = .uint n -> n.toNat < Nat.pow 2 bits := by
  constructor
  · rintro hholds bits n rfl rfl
    cases hholds with
    | uint hfits => exact hfits
  · intro hwidth
    cases type with
    | address =>
        rcases ok_of_bind h with ⟨bs, _, hrest⟩
        split at hrest
        · cases hrest
          exact Holds.address _
        · cases hrest
    | bool =>
        rcases ok_of_bind h with ⟨bs, _, hrest⟩
        cases hrest
        exact Holds.bool _
    | uint bits =>
        rcases uint_of_decodeOne h with ⟨n, rfl, _⟩
        exact Holds.uint (hwidth bits n rfl rfl)
    | text =>
        rcases ok_of_bind h with ⟨bs, _, hrest⟩
        split at hrest
        · cases hrest
          exact Holds.text _
        · cases hrest
    | bytes =>
        rcases ok_of_bind h with ⟨bs, _, hrest⟩
        cases hrest
        exact Holds.bytes _

theorem decodeFrom_cons_eq_ok {type : ParamType} {types : List ParamType} {tokens : List Token}
    (h : decodeFrom data offset (type :: types) = .ok tokens) :
    ∃ token rest, tokens = token :: rest ∧ decodeOne data offset type = .ok token ∧
      decodeFrom data (offset + wordSize) types = .ok rest := by
  rcases ok_of_bind h with ⟨token, hone, hrest⟩
  rcases ok_of_bind hrest with ⟨rest, hmore, heq⟩
  cases heq
  exact ⟨token, rest, rfl, hone, hmore⟩

theorem length_of_decodeFrom {types : List ParamType} {tokens : List Token}
    (h : decodeFrom data offset types = .ok tokens) : types.length = tokens.length := by
  induction types generalizing offset tokens with
  | nil =>
      cases h
      rfl
  | cons type types ih =>
      rcases decodeFrom_cons_eq_ok h with ⟨token, rest, rfl, _, hrest⟩
      rw [List.length_cons, List.length_cons, ih hrest]

theorem decodeOne_of_decodeFrom {types : List ParamType} {tokens : List Token} {i : Nat}
    {type : ParamType} (h : decodeFrom data offset types = .ok tokens)
    (htype : types[i]? = some type) :
    ∃ token, tokens[i]? = some token ∧
      decodeOne data (offset + i * wordSize) type = .ok token := by
  induction types generalizing offset tokens i with
  | nil => cases htype
  | cons first types ih =>
      rcases decodeFrom_cons_eq_ok h with ⟨token, rest, rfl, hone, hrest⟩
      cases i with
      | zero =>
          cases htype
          refine ⟨token, rfl, ?_⟩
          rwa [Nat.zero_mul, Nat.add_zero]
      | succ i =>
          rcases ih hrest htype with ⟨token', htoken, hone'⟩
          refine ⟨token', htoken, ?_⟩
          rwa [Nat.succ_mul, Nat.add_comm (i * wordSize), ← Nat.add_assoc]

theorem decodeOne_of_decode {types : List ParamType} {tokens : List Token} {i : Nat}
    {type : ParamType} (h : decode types data = .ok tokens) (htype : types[i]? = some type) :
    ∃ token, tokens[i]? = some token ∧ decodeOne data (i * wordSize) type = .ok token := by
  rcases decodeOne_of_decodeFrom h htype with ⟨token, htoken, hone⟩
  rw [Nat.zero_add] at hone
  exact ⟨token, htoken, hone⟩

theorem holds_iff_of_decode {types : List ParamType} {tokens : List Token}
    (h : decode types data = .ok tokens) :
    List.Forall₂ Holds types tokens ↔ forall (i bits : Nat) (n : BitVec 128),
      types[i]? = some (.uint bits) -> tokens[i]? = some (.uint n) -> n.toNat < Nat.pow 2 bits := by
  rw [List.forall₂_iff_get]
  constructor
  · rintro ⟨_, hholds⟩ i bits n htype htoken
    rcases List.getElem?_eq_some_iff.mp htype with ⟨hi, hget⟩
    rcases List.getElem?_eq_some_iff.mp htoken with ⟨hi', hget'⟩
    have hpair := hholds i hi hi'
    rw [List.get_eq_getElem, List.get_eq_getElem, hget, hget'] at hpair
    cases hpair with
    | uint hfits => exact hfits
  · intro hwidth
    refine ⟨length_of_decodeFrom h, ?_⟩
    intro i hi hi'
    have htype : types[i]? = some types[i] := List.getElem?_eq_getElem hi
    rcases decodeOne_of_decode h htype with ⟨token, htoken, hdecoded⟩
    rcases List.getElem?_eq_some_iff.mp htoken with ⟨_, rfl⟩
    apply (holds_iff_of_decodeOne hdecoded).mpr
    intro bits n hbits hn
    apply hwidth i bits n
    · rw [htype, hbits]
    · rw [htoken, hn]

/-- Decoded integers are the numbers of their head words.  Decoded values are encoded exactly where
each integer among them is one that its type can hold, and the encoding of decoded values is decoded
to the same values. -/
theorem decoded_values_reencode {types : List ParamType} {tokens : List Token} {data : Bytes}
    (h : decode types data = .ok tokens) :
    (forall i bits, types[i]? = some (.uint bits) ->
      ∃ n, tokens[i]? = some (.uint n) ∧ n.toNat = wordNumber data (i * wordSize)) ∧
    ((∃ encoded, encode types tokens = .ok encoded) ↔
      forall (i bits : Nat) (n : BitVec 128),
        types[i]? = some (.uint bits) -> tokens[i]? = some (.uint n) ->
        n.toNat < Nat.pow 2 bits) ∧
    forall encoded, encode types tokens = .ok encoded -> encoded.length < UInt64.size ->
      decode types encoded = .ok tokens := by
  have hlength := length_of_decodeFrom h
  refine ⟨?_, ?_, fun encoded => decode_of_encode hlength⟩
  · intro i bits htype
    rcases decodeOne_of_decode h htype with ⟨token, htoken, hdecoded⟩
    rcases uint_of_decodeOne hdecoded with ⟨n, rfl, hn⟩
    exact ⟨n, htoken, hn⟩
  · rw [encode_succeeds_iff hlength]
    exact holds_iff_of_decode h

/-- A truth value that is not written as 0 or 1, an address with bytes before it and a string that is
not filled up to whole words are encoded differently, and read back as the same values. -/
theorem decoded_values_reencode_loose :
    let types : List ParamType := [.uint 8, .bool, .address, .text]
    let tokens : List Token :=
      [.uint 255, .bool true, .address (Address.repeated 0xff), .text "hi"]
    let data := word 255 ++ (word 2 ++ (List.replicate 32 0xff ++ (word 128 ++
      (word 2 ++ Text.encode "hi"))))
    decode types data = .ok tokens ∧
      ∃ encoded, encode types tokens = .ok encoded ∧ encoded ≠ data ∧
        decode types encoded = .ok tokens := by
  intro types tokens data
  have hdecode : decode types data = .ok tokens := by decide +kernel
  rcases decoded_values_reencode hdecode with ⟨_, _, hreads⟩
  refine ⟨hdecode, _, rfl, ?_, hreads _ rfl ?_⟩
  · decide +kernel
  · decide +kernel

/-- An integer beyond its width is decoded, and is not encoded again. -/
theorem decoded_beyond_width :
    decode [.uint 8] (word 256) = .ok [.uint 256] ∧
      encode [.uint 8] [.uint 256] = .error (.overflow "uint8") := by
  constructor
  · rfl
  · rfl

end Abi
end KeyRegistry
