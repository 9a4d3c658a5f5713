import KeyRegistry.Proofs.Abi.Decoding

/-!
# Decoding on machine words

Here the decoder keeps its positions and lengths in words of 64 bits.  A sum or a
product that needs more bits traps, and so does a region that is cut out of bytes in
which it does not lie; only the sums whose parts come from the data and the regions
of the data itself are checked, and refused.  The decoder on machine words never
traps, and gives what the decoder on natural numbers gives, whatever the positions
and lengths in the data are.
-/

namespace KeyRegistry
namespace Abi
namespace Machine

open Bytes

inductive Stop where
  | refused (cause : Error)
  | trapped
deriving DecidableEq, Repr

/-! ## Operations -/

def add (a b : UInt64) : Except Stop UInt64 :=
  if a.toNat + b.toNat < UInt64.size then .ok (a + b) else .error .trapped

def mul (a b : UInt64) : Except Stop UInt64 :=
  if a.toNat * b.toNat < UInt64.size then .ok (a * b) else .error .trapped

/-- A sum that is checked: data that asks for more than 64 bits is refused. -/
def checkedAdd (a b : UInt64) : Except Stop UInt64 :=
  if a.toNat + b.toNat < UInt64.size then .ok (a + b) else .error (.refused .truncated)

/-- The data from `start` up to `stop`, where it reaches as far. -/
def get (data : Bytes) (start stop : UInt64) : Except Stop Bytes :=
  if start ≤ stop ∧ stop.toNat ≤ data.length then
    .ok ((data.drop start.toNat).take (stop.toNat - start.toNat))
  else
    .error (.refused .truncated)

/-- The bytes from `start` up to `stop`, a region that traps where they do not reach as far. -/
def cut (bs : Bytes) (start stop : Nat) : Except Stop Bytes :=
  if start ≤ stop ∧ stop ≤ bs.length then
    .ok ((bs.drop start).take (stop - start))
  else
    .error .trapped

/-- The bytes of a buffer of a fixed width; another number of bytes traps. -/
def copy (width : Nat) (bs : Bytes) : Except Stop Bytes :=
  if bs.length = width then .ok bs else .error .trapped

/-- One byte; a place beyond the end traps. -/
def byteAt (bs : Bytes) (i : Nat) : Except Stop UInt8 :=
  match bs[i]? with
  | some b => .ok b
  | none => .error .trapped

/-! ## The decoder -/

def wordAt (data : Bytes) (offset : UInt64) : Except Stop Bytes := do
  let stop <- checkedAdd offset 32
  get data offset stop

def sizeAt (data : Bytes) (offset : UInt64) : Except Stop UInt64 := do
  let bs <- wordAt data offset
  let high <- cut bs 0 24
  if high.any (· ≠ 0) then
    throw (.refused .truncated)
  let low <- cut bs 24 bs.length
  let buffer <- copy 8 low
  return UInt64.ofNat (toNatBE buffer)

/-- The bytes stand one word after their length; this sum is not checked. -/
def dynamicAt (data : Bytes) (head : UInt64) : Except Stop Bytes := do
  let offset <- sizeAt data head
  let length <- sizeAt data offset
  let start <- add offset 32
  let stop <- checkedAdd start length
  get data start stop

def decodeOne (data : Bytes) (head : UInt64) : ParamType -> Except Stop Token
  | .address => do
      let bs <- wordAt data head
      let low <- cut bs 12 bs.length
      match Address.ofBytes low with
      | .ok a => return .address a
      | .error _ => throw (.refused .truncated)
  | .bool => do
      let bs <- wordAt data head
      let last <- byteAt bs 31
      return .bool (last ≠ 0)
  | .uint bits => do
      let bs <- wordAt data head
      let high <- cut bs 0 16
      if high.any (· ≠ 0) then
        throw (.refused (.overflow (ParamType.uint bits).name))
      let low <- cut bs 16 bs.length
      let buffer <- copy 16 low
      return .uint (BitVec.ofNat 128 (toNatBE buffer))
  | .text => do
      let bs <- dynamicAt data head
      match Text.decode? bs with
      | some s => return .text s
      | none => throw (.refused .invalidUtf8)
  | .bytes => do
      let bs <- dynamicAt data head
      return .bytes bs

/-- The values from position `i` on, whose successor is counted before its head is computed. -/
def decodeFrom (data : Bytes) : UInt64 -> List ParamType -> Except Stop (List Token)
  | _, [] => .ok []
  | i, type :: types => do
      let next <- add i 1
      let head <- mul i 32
      let token <- decodeOne data head type
      let tokens <- decodeFrom data next types
      return token :: tokens

def decode (types : List ParamType) (data : Bytes) : Except Stop (List Token) :=
  decodeFrom data 0 types

/-! ## Computations that match -/

variable {α β γ δ : Type}

/-- The machine ends as the computation on natural numbers does, with the value in the form that it
has on the machine. -/
def Matches (form : α -> β) (machine : Except Stop β) (plain : Except Error α) : Prop :=
  machine = (plain.map form).mapError Stop.refused

theorem matches_ok {form : α -> β} (a : α) : Matches form (.ok (form a)) (.ok a) := rfl

theorem matches_error {form : α -> β} (cause : Error) :
    Matches form (.error (.refused cause)) (.error cause) := rfl

theorem Matches.bind {form : α -> β} {form' : γ -> δ} {machine : Except Stop β}
    {plain : Except Error α} {machineNext : β -> Except Stop δ} {next : α -> Except Error γ}
    (h : Matches form machine plain)
    (hnext : forall a, plain = .ok a -> Matches form' (machineNext (form a)) (next a)) :
    Matches form' (machine >>= machineNext) (plain >>= next) := by
  cases plain with
  | error cause =>
      have hmachine : machine = .error (.refused cause) := h
      rw [bind_of_error hmachine, bind_of_error rfl]
      exact matches_error cause
  | ok a =>
      have hmachine : machine = .ok (form a) := h
      rw [bind_of_ok hmachine, bind_of_ok rfl]
      exact hnext a rfl

theorem Matches.eq_mapError {machine : Except Stop α} {plain : Except Error α}
    (h : Matches id machine plain) : machine = plain.mapError Stop.refused := by
  cases plain with
  | error cause => exact h
  | ok a => exact h

/-! ## Operations in range -/

variable {data bs : Bytes}

theorem toNat_add_of_lt {a b : UInt64} (h : a.toNat + b.toNat < UInt64.size) :
    (a + b).toNat = a.toNat + b.toNat := by
  rw [UInt64.toNat_add]
  exact Nat.mod_eq_of_lt h

theorem toNat_mul_of_lt {a b : UInt64} (h : a.toNat * b.toNat < UInt64.size) :
    (a * b).toNat = a.toNat * b.toNat := by
  rw [UInt64.toNat_mul]
  exact Nat.mod_eq_of_lt h

theorem cut_start {stop : Nat} (h : stop ≤ bs.length) : cut bs 0 stop = .ok (bs.take stop) := by
  rw [cut, if_pos ⟨Nat.zero_le stop, h⟩]
  rfl

theorem cut_suffix {start : Nat} (h : start ≤ bs.length) :
    cut bs start bs.length = .ok (bs.drop start) := by
  rw [cut, if_pos ⟨h, Nat.le_refl _⟩, ← List.length_drop, List.take_length]

theorem copy_of_length {width : Nat} (h : bs.length = width) : copy width bs = .ok bs := by
  rw [copy, if_pos h]

theorem byteAt_of_lt {i : Nat} (h : i < bs.length) : byteAt bs i = .ok (bs.getD i 0) := by
  unfold byteAt
  rw [List.getD_eq_getElem?_getD, List.getElem?_eq_getElem h]
  rfl

/-- A region of the data is refused alike where its end takes more than 64 bits and where it lies
beyond the data. -/
theorem region_matches (hdata : data.length < UInt64.size) (start length : UInt64) :
    Matches id (checkedAdd start length >>= get data start)
      (slice data start.toNat length.toNat) := by
  by_cases hle : start.toNat + length.toNat ≤ data.length
  · have hfits : start.toNat + length.toNat < UInt64.size := Nat.lt_of_le_of_lt hle hdata
    have hadd : checkedAdd start length = .ok (start + length) := by rw [checkedAdd, if_pos hfits]
    have hstop := toNat_add_of_lt hfits
    have hget : start ≤ start + length ∧ (start + length).toNat ≤ data.length := by
      rw [UInt64.le_iff_toNat_le, hstop]
      exact ⟨Nat.le_add_right _ _, hle⟩
    rw [bind_of_ok hadd, get, if_pos hget, hstop, Nat.add_sub_cancel_left, slice, slice?,
      if_pos hle]
    exact matches_ok _
  · rw [slice, slice?, if_neg hle]
    by_cases hfits : start.toNat + length.toNat < UInt64.size
    · have hadd : checkedAdd start length = .ok (start + length) := by
        rw [checkedAdd, if_pos hfits]
      have hget : ¬ (start ≤ start + length ∧ (start + length).toNat ≤ data.length) := by
        rintro ⟨_, hend⟩
        rw [toNat_add_of_lt hfits] at hend
        exact hle hend
      rw [bind_of_ok hadd, get, if_neg hget]
      exact matches_error _
    · rw [checkedAdd, if_neg hfits]
      exact matches_error _

/-! ## The decoder on machine words -/

theorem wordAt_matches (hdata : data.length < UInt64.size) (offset : UInt64) :
    Matches id (wordAt data offset) (Abi.wordAt data offset.toNat) :=
  region_matches hdata offset 32

theorem sizeAt_matches (hdata : data.length < UInt64.size) (offset : UInt64) :
    Matches UInt64.ofNat (sizeAt data offset) (Abi.sizeAt data offset.toNat) := by
  refine (wordAt_matches hdata offset).bind fun bs hbytes => ?_
  have hlength := (wordAt_eq_ok hbytes).2
  have hle : 24 ≤ bs.length := hlength ▸ (by decide)
  rw [id, bind_of_ok (cut_start hle)]
  by_cases hhigh : (bs.take 24).any (· ≠ 0) = true
  · rw [if_pos hhigh, if_pos hhigh]
    exact matches_error _
  · rw [if_neg hhigh, if_neg hhigh, bind_of_ok (cut_suffix hle),
      bind_of_ok (copy_of_length (length_sizeBytes hlength))]
    exact matches_ok _

theorem dynamicAt_matches (hdata : data.length < UInt64.size) (head : UInt64) :
    Matches id (dynamicAt data head) (Abi.dynamicAt data head.toNat) := by
  refine (sizeAt_matches hdata head).bind fun offset hoffset => ?_
  have hposition : (UInt64.ofNat offset).toNat = offset :=
    UInt64.toNat_ofNat_of_lt' (sizeAt_eq_ok_iff.mp hoffset).2.2
  have hsecond := sizeAt_matches hdata (UInt64.ofNat offset)
  rw [hposition] at hsecond
  refine hsecond.bind fun length hlength => ?_
  rcases sizeAt_eq_ok_iff.mp hlength with ⟨hle, _, hlt⟩
  have hsum : (UInt64.ofNat offset).toNat + (32 : UInt64).toNat < UInt64.size := by
    rw [hposition]
    exact Nat.lt_of_le_of_lt hle hdata
  have hstart : (UInt64.ofNat offset + 32).toNat = offset + wordSize := by
    rw [toNat_add_of_lt hsum, hposition]
    rfl
  have hadd : add (UInt64.ofNat offset) 32 = .ok (UInt64.ofNat offset + 32) := by
    rw [add, if_pos hsum]
  have hregion := region_matches hdata (UInt64.ofNat offset + 32) (UInt64.ofNat length)
  rw [hstart, UInt64.toNat_ofNat_of_lt' hlt] at hregion
  rw [bind_of_ok hadd]
  exact hregion

theorem decodeOne_matches (hdata : data.length < UInt64.size) (head : UInt64)
    (type : ParamType) :
    Matches id (decodeOne data head type) (Abi.decodeOne data head.toNat type) := by
  cases type with
  | address =>
      refine (wordAt_matches hdata head).bind fun bs hbytes => ?_
      have hle : 12 ≤ bs.length := (wordAt_eq_ok hbytes).2 ▸ (by decide)
      rw [id, bind_of_ok (cut_suffix hle)]
      cases Address.ofBytes (bs.drop 12) with
      | ok a => exact matches_ok _
      | error fault => exact matches_error _
  | bool =>
      refine (wordAt_matches hdata head).bind fun bs hbytes => ?_
      have hlt : 31 < bs.length := (wordAt_eq_ok hbytes).2 ▸ (by decide)
      rw [id, bind_of_ok (byteAt_of_lt hlt)]
      exact matches_ok _
  | uint bits =>
      refine (wordAt_matches hdata head).bind fun bs hbytes => ?_
      have hlength := (wordAt_eq_ok hbytes).2
      have hle : 16 ≤ bs.length := hlength ▸ (by decide)
      have hlow : (bs.drop 16).length = 16 := by
        rw [List.length_drop, hlength]
        rfl
      rw [id, bind_of_ok (cut_start hle)]
      by_cases hhigh : (bs.take 16).any (· ≠ 0) = true
      · rw [if_pos hhigh, if_pos hhigh]
        exact matches_error _
      · rw [if_neg hhigh, if_neg hhigh, bind_of_ok (cut_suffix hle),
          bind_of_ok (copy_of_length hlow)]
        exact matches_ok _
  | text =>
      refine (dynamicAt_matches hdata head).bind fun bs _ => ?_
      rw [id]
      cases Text.decode? bs with
      | some s => exact matches_ok _
      | none => exact matches_error _
  | bytes => exact (dynamicAt_matches hdata head).bind fun bs _ => matches_ok _

/-- The words before position `i` stand in the data, so that the next head can be computed. -/
theorem decodeFrom_matches {types : List ParamType} (hdata : data.length < UInt64.size) (i : UInt64)
    (hi : i.toNat * wordSize ≤ data.length) :
    Matches id (decodeFrom data i types) (Abi.decodeFrom data (i.toNat * wordSize) types) := by
  induction types generalizing i with
  | nil => exact matches_ok _
  | cons type types ih =>
      have hproduct : i.toNat * (32 : UInt64).toNat < UInt64.size := Nat.lt_of_le_of_lt hi hdata
      have hhead : (i * 32).toNat = i.toNat * wordSize := toNat_mul_of_lt hproduct
      have hsum : i.toNat + (1 : UInt64).toNat < UInt64.size := by
        have hsmall : i.toNat * 32 < UInt64.size := hproduct
        have hone : (1 : UInt64).toNat = 1 := rfl
        have hsize : UInt64.size = 18446744073709551616 := rfl
        omega
      have hnext : (i + 1).toNat = i.toNat + 1 := toNat_add_of_lt hsum
      have hadd : add i 1 = .ok (i + 1) := by rw [add, if_pos hsum]
      have hmul : mul i 32 = .ok (i * 32) := by rw [mul, if_pos hproduct]
      have hone := decodeOne_matches hdata (i * 32) type
      rw [hhead] at hone
      rw [decodeFrom, bind_of_ok hadd, bind_of_ok hmul, Abi.decodeFrom]
      refine hone.bind fun token hdecoded => ?_
      have hwithin := (readable_of_reads (decodeOne_eq_ok_iff.mp hdecoded)).head_le
      have hmore := ih (i + 1) (by rw [hnext, Nat.succ_mul]; exact hwithin)
      rw [hnext, Nat.succ_mul] at hmore
      exact hmore.bind fun tokens _ => matches_ok _

theorem decode_eq {types : List ParamType} (hdata : data.length < UInt64.size) :
    decode types data = (Abi.decode types data).mapError Stop.refused :=
  (decodeFrom_matches hdata 0 (Nat.zero_le _)).eq_mapError

end Machine

/-- On machine words the decoder never traps.  It returns the values that stand in the data where
there is one for each position, and else the error of the first position without one. -/
theorem untrusted_data_decoded {types : List ParamType} {data : Bytes}
    (h : data.length < UInt64.size) :
    Machine.decode types data ≠ .error .trapped ∧
    Machine.decode types data = (decode types data).mapError Machine.Stop.refused ∧
    ((∃ tokens, decode types data = .ok tokens) ↔
      forall (i : Nat) (type : ParamType), types[i]? = some type ->
        Readable data (i * wordSize) type) ∧
    (forall tokens, decode types data = .ok tokens ↔
      types.length = tokens.length ∧ forall (i : Nat) (type : ParamType) (token : Token),
        types[i]? = some type -> tokens[i]? = some token ->
        Reads data (i * wordSize) type token) ∧
    forall cause, decode types data = .error cause ↔
      ∃ i type, types[i]? = some type ∧ Refuses data (i * wordSize) type cause ∧
        forall (j : Nat) (earlier : ParamType), j < i -> types[j]? = some earlier ->
          Readable data (j * wordSize) earlier := by
  have hmachine := @Machine.decode_eq data types h
  have hstart (i : Nat) : 0 + i * wordSize = i * wordSize := Nat.zero_add _
  refine ⟨?_, hmachine, ?_, ?_, ?_⟩
  · rw [hmachine]
    cases decode types data with
    | ok tokens => nofun
    | error cause => nofun
  · have hsucceeds := @decodeFrom_succeeds_iff data 0 types
    simp only [hstart] at hsucceeds
    exact hsucceeds
  · intro tokens
    have hok := @decodeFrom_eq_ok_iff data 0 types tokens
    simp only [hstart] at hok
    exact hok
  · intro cause
    have herror := @decodeFrom_eq_error_iff data 0 cause types
    simp only [FirstRefused, hstart] at herror
    exact herror

/-- A length that is its own position, and then a position that no sum with a word's size fits. -/
theorem untrusted_data_decoded_huge :
    let types : List ParamType := [.bytes, .text, .uint 8]
    let data := word 0 ++ (word (UInt64.size - 1) ++ word 7)
    data.length < UInt64.size ∧
      Machine.decode types data = .error (.refused .truncated) ∧
      ∃ i type, types[i]? = some type ∧ Refuses data (i * wordSize) type .truncated ∧
        forall (j : Nat) (earlier : ParamType), j < i -> types[j]? = some earlier ->
          Readable data (j * wordSize) earlier := by
  intro types data
  have hsize : data.length < UInt64.size := by decide +kernel
  have hdecode : decode types data = .error .truncated := by decide +kernel
  rcases @untrusted_data_decoded types data hsize with ⟨_, hmachine, _, _, herror⟩
  refine ⟨hsize, ?_, (herror _).mp hdecode⟩
  rw [hmachine, hdecode]
  rfl

end Abi
end KeyRegistry
