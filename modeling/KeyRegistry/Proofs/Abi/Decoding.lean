import KeyRegistry.Proofs.Abi.Reencoding

/-!
# What data is decoded as

Which value stands at a position of the data, and why none does, is said here by
the data alone: a value of a static type is its head word, and a value of a dynamic
type stands where this word points.  The decoder reads exactly these values, and
refuses everything else with the error of the first position without one.
-/

namespace KeyRegistry
namespace Abi

open Bytes

variable {data : Bytes} {head offset length : Nat}

/-! ## Words -/

theorem wordAt_of_le (h : offset + wordSize ≤ data.length) :
    wordAt data offset = .ok ((data.drop offset).take wordSize) := by
  rw [wordAt, slice, slice?, if_pos h]

theorem wordAt_of_lt (h : data.length < offset + wordSize) :
    wordAt data offset = .error .truncated := by
  rw [wordAt, slice, slice?, if_neg (Nat.not_le_of_lt h)]

theorem length_wordBytes (h : offset + wordSize ≤ data.length) :
    ((data.drop offset).take wordSize).length = wordSize := by
  rw [List.length_take, List.length_drop]
  omega

theorem zeros_iff_lt_capacity (high low : Bytes) :
    high.any (· ≠ 0) = false ↔ toNatBE (high ++ low) < capacity low.length := by
  have hlow := toNatBE_lt low
  rw [Bool.eq_false_iff, ne_eq, any_ne_zero_iff, toNatBE_append]
  constructor
  · intro hzero
    rw [Nat.eq_zero_of_not_pos hzero, Nat.zero_mul, Nat.zero_add]
    exact hlow
  · intro hfits hpos
    have hscaled := Nat.mul_le_mul_right (capacity low.length) hpos
    rw [Nat.succ_mul, Nat.zero_mul, Nat.zero_add] at hscaled
    omega

theorem low_of_zeros {high : Bytes} (low : Bytes) (h : high.any (· ≠ 0) = false) :
    toNatBE (high ++ low) = toNatBE low := by
  have hzero : toNatBE high = 0 := by
    rw [Bool.eq_false_iff, ne_eq, any_ne_zero_iff] at h
    exact Nat.eq_zero_of_not_pos h
  rw [toNatBE_append, hzero, Nat.zero_mul, Nat.zero_add]

theorem length_sizeBytes {bs : Bytes} (h : bs.length = wordSize) : (bs.drop 24).length = 8 := by
  rw [List.length_drop, h]
  rfl

theorem sizeAt_of_lt_size (h : offset + wordSize ≤ data.length)
    (hsize : wordNumber data offset < UInt64.size) :
    sizeAt data offset = .ok (wordNumber data offset) := by
  let bs := (data.drop offset).take wordSize
  have hlow : (bs.drop 24).length = 8 := length_sizeBytes (length_wordBytes h)
  have hzeros : (bs.take 24).any (· ≠ 0) = false := by
    rw [zeros_iff_lt_capacity _ (bs.drop 24), List.take_append_drop, hlow]
    exact hsize
  have hnumber : toNatBE (bs.drop 24) = wordNumber data offset := by
    rw [← low_of_zeros _ hzeros, List.take_append_drop]
    rfl
  rw [sizeAt, bind_of_ok (wordAt_of_le h), if_neg (Bool.not_eq_true _ ▸ hzeros)]
  exact congrArg Except.ok hnumber

theorem sizeAt_of_size_le (h : offset + wordSize ≤ data.length)
    (hsize : UInt64.size ≤ wordNumber data offset) :
    sizeAt data offset = .error .truncated := by
  let bs := (data.drop offset).take wordSize
  have hlow : (bs.drop 24).length = 8 := length_sizeBytes (length_wordBytes h)
  have hhigh : (bs.take 24).any (· ≠ 0) = true := by
    rw [← Bool.not_eq_false, zeros_iff_lt_capacity _ (bs.drop 24), List.take_append_drop, hlow]
    exact Nat.not_lt_of_le hsize
  rw [sizeAt, bind_of_ok (wordAt_of_le h), if_pos hhigh]
  rfl

/-- A word is read as a size exactly where it stands in the data and 64 bits hold its number. -/
theorem sizeAt_eq_ok_iff {n : Nat} :
    sizeAt data offset = .ok n ↔
      offset + wordSize ≤ data.length ∧ wordNumber data offset = n ∧ n < UInt64.size := by
  constructor
  · intro h
    by_cases hle : offset + wordSize ≤ data.length
    · by_cases hsize : wordNumber data offset < UInt64.size
      · rw [sizeAt_of_lt_size hle hsize] at h
        cases h
        exact ⟨hle, rfl, hsize⟩
      · rw [sizeAt_of_size_le hle (Nat.le_of_not_lt hsize)] at h
        cases h
    · rw [sizeAt, wordAt_of_lt (Nat.lt_of_not_le hle)] at h
      cases h
  · rintro ⟨hle, rfl, hsize⟩
    exact sizeAt_of_lt_size hle hsize

theorem truncated_of_slice {cause : Error} (h : slice data offset length = .error cause) :
    cause = .truncated := by
  unfold slice at h
  split at h
  · cases h
  · cases h
    rfl

theorem truncated_of_sizeAt {cause : Error} (h : sizeAt data offset = .error cause) :
    cause = .truncated := by
  by_cases hle : offset + wordSize ≤ data.length
  · by_cases hsize : wordNumber data offset < UInt64.size
    · rw [sizeAt_of_lt_size hle hsize] at h
      cases h
    · rw [sizeAt_of_size_le hle (Nat.le_of_not_lt hsize)] at h
      cases h
      rfl
  · rw [sizeAt, wordAt_of_lt (Nat.lt_of_not_le hle)] at h
    cases h
    rfl

/-! ## Values of dynamic types -/

/-- The word at `head` is the position of a length that stands in the data, and as many bytes follow
this length. -/
structure Located (data : Bytes) (head offset length : Nat) : Prop where
  head_le : head + wordSize ≤ data.length
  offset_eq : wordNumber data head = offset
  offset_lt : offset < UInt64.size
  offset_le : offset + wordSize ≤ data.length
  length_eq : wordNumber data offset = length
  length_lt : length < UInt64.size
  length_le : offset + wordSize + length ≤ data.length

def contents (data : Bytes) (offset length : Nat) : Bytes :=
  (data.drop (offset + wordSize)).take length

theorem dynamicAt_eq_ok_iff {bs : Bytes} :
    dynamicAt data head = .ok bs ↔
      ∃ offset length, Located data head offset length ∧ bs = contents data offset length := by
  constructor
  · intro h
    rcases ok_of_bind h with ⟨offset, hoffset, hrest⟩
    rcases ok_of_bind hrest with ⟨length, hlength, hslice⟩
    rcases sizeAt_eq_ok_iff.mp hoffset with ⟨hhead, hposition, hposition_lt⟩
    rcases sizeAt_eq_ok_iff.mp hlength with ⟨hoffset_le, hnumber, hnumber_lt⟩
    by_cases hle : offset + wordSize + length ≤ data.length
    · rw [slice, slice?, if_pos hle] at hslice
      cases hslice
      exact ⟨offset, length,
        ⟨hhead, hposition, hposition_lt, hoffset_le, hnumber, hnumber_lt, hle⟩, rfl⟩
    · rw [slice, slice?, if_neg hle] at hslice
      cases hslice
  · rintro ⟨offset, length, h, rfl⟩
    have hoffset : sizeAt data head = .ok offset :=
      sizeAt_eq_ok_iff.mpr ⟨h.head_le, h.offset_eq, h.offset_lt⟩
    have hlength : sizeAt data offset = .ok length :=
      sizeAt_eq_ok_iff.mpr ⟨h.offset_le, h.length_eq, h.length_lt⟩
    rw [dynamicAt, bind_of_ok hoffset, bind_of_ok hlength, slice, slice?, if_pos h.length_le]
    rfl

theorem dynamicAt_of_located (h : Located data head offset length) :
    dynamicAt data head = .ok (contents data offset length) :=
  dynamicAt_eq_ok_iff.mpr ⟨offset, length, h, rfl⟩

theorem dynamicAt_of_unlocated (h : forall offset length, ¬ Located data head offset length) :
    dynamicAt data head = .error .truncated := by
  cases hdynamic : dynamicAt data head with
  | ok bs =>
      rcases dynamicAt_eq_ok_iff.mp hdynamic with ⟨offset, length, hlocated, _⟩
      exact absurd hlocated (h offset length)
  | error cause =>
      refine congrArg Except.error ?_
      rcases error_of_bind hdynamic with hoffset | ⟨offset, _, hrest⟩
      · exact truncated_of_sizeAt hoffset
      · rcases error_of_bind hrest with hlength | ⟨length, _, hslice⟩
        · exact truncated_of_sizeAt hlength
        · exact truncated_of_slice hslice

/-! ## Values -/

/-- The value of a type that stands in the data, where its head word stands at `head`. -/
inductive Reads (data : Bytes) (head : Nat) : ParamType -> Token -> Prop where
  | address {a : Address} :
      head + wordSize ≤ data.length -> a.bytes = (data.drop (head + 12)).take 20 ->
      Reads data head .address (.address a)
  | bool {b : UInt8} : data[head + 31]? = some b -> Reads data head .bool (.bool (b ≠ 0))
  | uint {bits : Nat} {n : BitVec 128} :
      head + wordSize ≤ data.length ->
      (data.drop head).take 16 = List.replicate 16 0 ->
      n.toNat = toNatBE ((data.drop (head + 16)).take 16) ->
      Reads data head (.uint bits) (.uint n)
  | text {s : String} {offset length : Nat} :
      Located data head offset length -> Text.encode s = contents data offset length ->
      Reads data head .text (.text s)
  | bytes {offset length : Nat} :
      Located data head offset length ->
      Reads data head .bytes (.bytes (contents data offset length))

/-- Why no value of a type stands in the data, where its head word would stand at `head`. -/
inductive Refuses (data : Bytes) (head : Nat) : ParamType -> Error -> Prop where
  | short {type : ParamType} :
      data.length < head + wordSize -> Refuses data head type .truncated
  | wide {bits : Nat} :
      head + wordSize ≤ data.length ->
      (data.drop head).take 16 ≠ List.replicate 16 0 ->
      Refuses data head (.uint bits) (.overflow (ParamType.uint bits).name)
  | unlocated {type : ParamType} :
      type.isDynamic = true -> (forall offset length, ¬ Located data head offset length) ->
      Refuses data head type .truncated
  | garbled {offset length : Nat} :
      Located data head offset length ->
      (forall s, Text.encode s ≠ contents data offset length) ->
      Refuses data head .text .invalidUtf8

variable {type : ParamType} {token : Token} {cause : Error}

theorem decodeOne_of_reads (h : Reads data head type token) :
    decodeOne data head type = .ok token := by
  cases h with
  | @address a hle hbytes =>
      have hlast : ((data.drop head).take wordSize).drop 12 = a.bytes := by
        rw [hbytes, List.drop_take, List.drop_drop]
        rfl
      rw [decodeOne, bind_of_ok (wordAt_of_le hle), hlast, Address.ofBytes, dif_pos a.length_eq]
      rfl
  | @bool b hbyte =>
      have hle : head + wordSize ≤ data.length := (List.getElem?_eq_some_iff.mp hbyte).1
      have hlast : ((data.drop head).take wordSize).getD (wordSize - 1) 0 = b := by
        rw [List.getD_eq_getElem?_getD, List.getElem?_take_of_lt (by decide), List.getElem?_drop]
        exact congrArg (Option.getD · 0) hbyte
      rw [decodeOne, bind_of_ok (wordAt_of_le hle), hlast]
      rfl
  | @uint bits n hle hzeros hnumber =>
      have hhigh : (((data.drop head).take wordSize).take 16).any (· ≠ 0) = false := by
        rw [List.take_take]
        exact hzeros ▸ rfl
      have hlow : toNatBE (((data.drop head).take wordSize).drop 16) = n.toNat := by
        rw [hnumber, List.drop_take, List.drop_drop]
        rfl
      rw [decodeOne, bind_of_ok (wordAt_of_le hle), hhigh, hlow, BitVec.ofNat_toNat,
        BitVec.setWidth_eq]
      rfl
  | @text s offset length hlocated hencode =>
      rw [decodeOne, bind_of_ok (dynamicAt_of_located hlocated), ← hencode, Text.decode?_encode]
      rfl
  | bytes hlocated =>
      rw [decodeOne, bind_of_ok (dynamicAt_of_located hlocated)]
      rfl

theorem decodeOne_of_short (h : data.length < head + wordSize) :
    decodeOne data head type = .error .truncated := by
  have hword := wordAt_of_lt h
  have hunlocated : dynamicAt data head = .error .truncated :=
    dynamicAt_of_unlocated fun _ _ hlocated => Nat.not_le_of_lt h hlocated.head_le
  cases type with
  | address => exact bind_of_error hword _
  | bool => exact bind_of_error hword _
  | uint bits => exact bind_of_error hword _
  | text => exact bind_of_error hunlocated _
  | bytes => exact bind_of_error hunlocated _

theorem decodeOne_of_refuses (h : Refuses data head type cause) :
    decodeOne data head type = .error cause := by
  cases h with
  | short hlt => exact decodeOne_of_short hlt
  | @wide bits hle hwide =>
      have hhigh : (((data.drop head).take wordSize).take 16).any (· ≠ 0) = true := by
        rw [List.take_take, ← Bool.not_eq_false]
        intro hzeros
        apply hwide
        rw [List.eq_replicate_iff, List.length_take, List.length_drop]
        refine ⟨by unfold wordSize at hle; omega, ?_⟩
        intro b hb
        simpa using List.any_eq_false.mp hzeros b hb
      rw [decodeOne, bind_of_ok (wordAt_of_le hle), hhigh]
      rfl
  | unlocated hdynamic hunlocated =>
      have hfails := dynamicAt_of_unlocated hunlocated
      cases type with
      | text => exact bind_of_error hfails _
      | bytes => exact bind_of_error hfails _
      | _ => cases hdynamic
  | @garbled offset length hlocated hgarbled =>
      have hnone : Text.decode? (contents data offset length) = none := by
        rw [Option.eq_none_iff_forall_ne_some]
        intro s hs
        exact hgarbled s (Text.encode_of_decode? hs)
      rw [decodeOne, bind_of_ok (dynamicAt_of_located hlocated), hnone]
      rfl

/-- Whether a value of a type stands in the data, where its head word would stand at `head`. -/
def Readable (data : Bytes) (head : Nat) : ParamType -> Prop
  | .address => head + wordSize ≤ data.length
  | .bool => head + wordSize ≤ data.length
  | .uint _ => head + wordSize ≤ data.length ∧ (data.drop head).take 16 = List.replicate 16 0
  | .text => ∃ offset length, Located data head offset length ∧
      ∃ s, Text.encode s = contents data offset length
  | .bytes => ∃ offset length, Located data head offset length

theorem Readable.head_le (h : Readable data head type) : head + wordSize ≤ data.length := by
  cases type with
  | address => exact h
  | bool => exact h
  | uint bits => exact h.1
  | text =>
      rcases h with ⟨offset, length, hlocated, _⟩
      exact hlocated.head_le
  | bytes =>
      rcases h with ⟨offset, length, hlocated⟩
      exact hlocated.head_le

theorem readable_of_reads (h : Reads data head type token) : Readable data head type := by
  cases h with
  | address hle _ => exact hle
  | bool hbyte => exact (List.getElem?_eq_some_iff.mp hbyte).1
  | uint hle hzeros _ => exact ⟨hle, hzeros⟩
  | text hlocated hencode => exact ⟨_, _, hlocated, _, hencode⟩
  | bytes hlocated => exact ⟨_, _, hlocated⟩

theorem exists_reads (h : Readable data head type) : ∃ token, Reads data head type token := by
  cases type with
  | address =>
      have hle : head + wordSize ≤ data.length := h
      have hlength : ((data.drop (head + 12)).take 20).length = 20 := by
        rw [List.length_take, List.length_drop]
        unfold wordSize at hle
        omega
      exact ⟨_, Reads.address (a := ⟨_, hlength⟩) hle rfl⟩
  | bool =>
      have hlt : head + 31 < data.length := h
      exact ⟨_, Reads.bool (List.getElem?_eq_getElem hlt)⟩
  | uint bits =>
      rcases h with ⟨hle, hzeros⟩
      let low := (data.drop (head + 16)).take 16
      have hfits : toNatBE low < capacity 16 := by
        have hlength : low.length = 16 := by
          rw [List.length_take, List.length_drop]
          unfold wordSize at hle
          omega
        have hbound := toNatBE_lt low
        rwa [hlength] at hbound
      refine ⟨_, Reads.uint (n := BitVec.ofNat 128 (toNatBE low)) hle hzeros ?_⟩
      rw [BitVec.toNat_ofNat]
      exact Nat.mod_eq_of_lt hfits
  | text =>
      rcases h with ⟨offset, length, hlocated, s, hencode⟩
      exact ⟨_, Reads.text hlocated hencode⟩
  | bytes =>
      rcases h with ⟨offset, length, hlocated⟩
      exact ⟨_, Reads.bytes hlocated⟩

theorem exists_refuses (h : ¬ Readable data head type) :
    ∃ cause, Refuses data head type cause := by
  by_cases hle : head + wordSize ≤ data.length
  · cases type with
    | address => exact absurd hle h
    | bool => exact absurd hle h
    | uint bits => exact ⟨_, Refuses.wide hle fun hzeros => h ⟨hle, hzeros⟩⟩
    | text =>
        by_cases hlocated : ∃ offset length, Located data head offset length
        · rcases hlocated with ⟨offset, length, hlocated⟩
          exact ⟨_, Refuses.garbled hlocated fun s hs => h ⟨offset, length, hlocated, s, hs⟩⟩
        · exact ⟨_, Refuses.unlocated rfl fun offset length hl => hlocated ⟨offset, length, hl⟩⟩
    | bytes => exact ⟨_, Refuses.unlocated rfl fun offset length hl => h ⟨offset, length, hl⟩⟩
  · exact ⟨_, Refuses.short (Nat.lt_of_not_le hle)⟩

theorem decodeOne_eq_ok_iff :
    decodeOne data head type = .ok token ↔ Reads data head type token := by
  constructor
  · intro h
    by_cases hreadable : Readable data head type
    · rcases exists_reads hreadable with ⟨other, hreads⟩
      rw [decodeOne_of_reads hreads] at h
      cases h
      exact hreads
    · rcases exists_refuses hreadable with ⟨cause, hrefuses⟩
      rw [decodeOne_of_refuses hrefuses] at h
      cases h
  · exact decodeOne_of_reads

theorem decodeOne_eq_error_iff :
    decodeOne data head type = .error cause ↔ Refuses data head type cause := by
  constructor
  · intro h
    by_cases hreadable : Readable data head type
    · rcases exists_reads hreadable with ⟨token, hreads⟩
      rw [decodeOne_of_reads hreads] at h
      cases h
    · rcases exists_refuses hreadable with ⟨other, hrefuses⟩
      rw [decodeOne_of_refuses hrefuses] at h
      cases h
      exact hrefuses
  · exact decodeOne_of_refuses

theorem not_readable_of_refuses (h : Refuses data head type cause) :
    ¬ Readable data head type := by
  intro hreadable
  rcases exists_reads hreadable with ⟨token, hreads⟩
  have hok := decodeOne_of_reads hreads
  rw [decodeOne_of_refuses h] at hok
  cases hok

/-! ## Lists of values -/

theorem head_succ (head i : Nat) : head + (i + 1) * wordSize = head + wordSize + i * wordSize := by
  rw [Nat.succ_mul, Nat.add_comm (i * wordSize), Nat.add_assoc]

theorem decodeFrom_eq_ok_iff {types : List ParamType} {tokens : List Token} :
    decodeFrom data head types = .ok tokens ↔
      types.length = tokens.length ∧ forall (i : Nat) (type : ParamType) (token : Token),
        types[i]? = some type -> tokens[i]? = some token ->
        Reads data (head + i * wordSize) type token := by
  constructor
  · intro h
    refine ⟨length_of_decodeFrom h, ?_⟩
    intro i type token htype htoken
    rcases decodeOne_of_decodeFrom h htype with ⟨other, hother, hdecoded⟩
    rw [hother] at htoken
    cases htoken
    exact decodeOne_eq_ok_iff.mp hdecoded
  · rintro ⟨hlength, hreads⟩
    induction types generalizing head tokens with
    | nil =>
        cases tokens with
        | nil => rfl
        | cons token tokens => cases hlength
    | cons type types ih =>
        cases tokens with
        | nil => cases hlength
        | cons token tokens =>
            have hfirst : Reads data head type token := by
              have hzero := hreads 0 type token rfl rfl
              rwa [Nat.zero_mul, Nat.add_zero] at hzero
            refine decodeFrom_cons (decodeOne_of_reads hfirst) (ih (Nat.succ.inj hlength) ?_)
            intro i type' token' htype htoken
            have hnext := hreads (i + 1) type' token' htype htoken
            rwa [head_succ] at hnext

theorem decodeOne_succeeds_iff :
    (∃ token, decodeOne data head type = .ok token) ↔ Readable data head type := by
  constructor
  · rintro ⟨token, h⟩
    exact readable_of_reads (decodeOne_eq_ok_iff.mp h)
  · intro h
    rcases exists_reads h with ⟨token, hreads⟩
    exact ⟨token, decodeOne_of_reads hreads⟩

variable {types : List ParamType}

def FirstRefused (data : Bytes) (head : Nat) (types : List ParamType) (cause : Error) : Prop :=
  ∃ i type, types[i]? = some type ∧ Refuses data (head + i * wordSize) type cause ∧
    forall (j : Nat) (earlier : ParamType), j < i -> types[j]? = some earlier ->
      Readable data (head + j * wordSize) earlier

theorem firstRefused_cons_iff :
    FirstRefused data head (type :: types) cause ↔
      Refuses data head type cause ∨
        Readable data head type ∧ FirstRefused data (head + wordSize) types cause := by
  have hzero : head + 0 * wordSize = head := by rw [Nat.zero_mul, Nat.add_zero]
  constructor
  · rintro ⟨i, other, htype, hrefuses, hearlier⟩
    cases i with
    | zero =>
        cases htype
        rw [hzero] at hrefuses
        exact .inl hrefuses
    | succ i =>
        have hreadable := hearlier 0 type (Nat.succ_pos i) rfl
        rw [hzero] at hreadable
        rw [head_succ] at hrefuses
        refine .inr ⟨hreadable, i, other, htype, hrefuses, ?_⟩
        intro j earlier hj hget
        rw [← head_succ]
        exact hearlier (j + 1) earlier (Nat.succ_lt_succ hj) hget
  · rintro (hrefuses | ⟨hreadable, i, other, htype, hrefuses, hearlier⟩)
    · rw [← hzero] at hrefuses
      exact ⟨0, type, rfl, hrefuses, fun j _ hj => absurd hj (Nat.not_lt_zero j)⟩
    · rw [← head_succ] at hrefuses
      refine ⟨i + 1, other, htype, hrefuses, ?_⟩
      intro j earlier hj hget
      cases j with
      | zero =>
          cases hget
          rw [hzero]
          exact hreadable
      | succ j =>
          rw [head_succ]
          exact hearlier j earlier (Nat.lt_of_succ_lt_succ hj) hget

theorem decodeFrom_eq_error_iff :
    decodeFrom data head types = .error cause ↔ FirstRefused data head types cause := by
  induction types generalizing head with
  | nil => exact ⟨nofun, fun ⟨_, _, htype, _⟩ => nomatch htype⟩
  | cons type types ih =>
      rw [firstRefused_cons_iff, ← decodeOne_eq_error_iff, ← decodeOne_succeeds_iff, decodeFrom]
      exact error_of_parts_iff fun _ => ih

theorem decodeFrom_succeeds_iff :
    (∃ tokens, decodeFrom data head types = .ok tokens) ↔
      forall (i : Nat) (type : ParamType), types[i]? = some type ->
        Readable data (head + i * wordSize) type := by
  constructor
  · rintro ⟨tokens, h⟩ i type htype
    rcases decodeOne_of_decodeFrom h htype with ⟨token, _, hdecoded⟩
    exact readable_of_reads (decodeOne_eq_ok_iff.mp hdecoded)
  · intro hreadable
    cases hdecode : decodeFrom data head types with
    | ok tokens => exact ⟨tokens, rfl⟩
    | error cause =>
        rcases decodeFrom_eq_error_iff.mp hdecode with ⟨i, type, htype, hrefuses, _⟩
        exact absurd (hreadable i type htype) (not_readable_of_refuses hrefuses)

end Abi
end KeyRegistry
