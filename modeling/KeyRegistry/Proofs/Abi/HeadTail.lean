import KeyRegistry.Proofs.Abi.Reencoding
import Mathlib.Algebra.Order.Floor.Div

/-!
# Heads and tails

The encoding of values is given here in closed form: one head word a value, and then
the parts of the dynamic values in their order.  The head word of a dynamic value is
the position of its part, which is the sum of the sizes of all heads and of the parts
before it.  A list of values is encoded where each value is one of its type, and else
refused for the first that is not.
-/

namespace KeyRegistry
namespace Abi

open Bytes

/-! ## Values that are not of their type -/

inductive SameKind : ParamType -> Token -> Prop where
  | address (a : Address) : SameKind .address (.address a)
  | bool (b : Bool) : SameKind .bool (.bool b)
  | uint (bits : Nat) (n : BitVec 128) : SameKind (.uint bits) (.uint n)
  | text (s : String) : SameKind .text (.text s)
  | bytes (bs : Bytes) : SameKind .bytes (.bytes bs)

inductive Misfits : ParamType -> Token -> Error -> Prop where
  | mismatch {type : ParamType} {token : Token} :
      ¬ SameKind type token -> Misfits type token (.typeMismatch type.name token.typeName)
  | overflow {bits : Nat} {n : BitVec 128} :
      Nat.pow 2 bits ≤ n.toNat ->
      Misfits (.uint bits) (.uint n) (.overflow (ParamType.uint bits).name)

variable {type : ParamType} {token : Token} {cause : Error}

theorem holds_of_sameKind (hkind : SameKind type token)
    (hwidth : forall bits n, type = .uint bits -> token = .uint n -> n.toNat < Nat.pow 2 bits) :
    Holds type token := by
  cases hkind with
  | address a => exact Holds.address a
  | bool b => exact Holds.bool b
  | uint bits n => exact Holds.uint (hwidth bits n rfl rfl)
  | text s => exact Holds.text s
  | bytes bs => exact Holds.bytes bs

theorem exists_misfits (h : ¬ Holds type token) : ∃ cause, Misfits type token cause := by
  by_cases hkind : SameKind type token
  · apply Classical.byContradiction
    intro hnone
    refine h (holds_of_sameKind hkind ?_)
    rintro bits n rfl rfl
    exact Nat.lt_of_not_le fun hle => hnone ⟨_, Misfits.overflow hle⟩
  · exact ⟨_, Misfits.mismatch hkind⟩

theorem encodeStatic_of_misfits (hstatic : type.isDynamic = false)
    (h : Misfits type token cause) : encodeStatic type token = .error cause := by
  cases h with
  | overflow hle =>
      rename_i bits n
      have hnarrow : bits < 128 := by
        apply Nat.lt_of_not_le
        intro hwide
        have hbound := Nat.pow_le_pow_right Nat.two_pos hwide
        exact Nat.not_lt_of_le (Nat.le_trans hbound hle) n.isLt
      rw [encodeStatic, if_pos]
      rw [Nat.one_shiftLeft]
      exact ⟨hnarrow, hle⟩
  | mismatch hkind =>
      cases type with
      | address =>
          cases token with
          | address a => exact absurd (SameKind.address a) hkind
          | _ => rfl
      | bool =>
          cases token with
          | bool b => exact absurd (SameKind.bool b) hkind
          | _ => rfl
      | uint bits =>
          cases token with
          | uint n => exact absurd (SameKind.uint bits n) hkind
          | _ => rfl
      | text => cases hstatic
      | bytes => cases hstatic

theorem encodeDynamic_of_misfits (hdynamic : type.isDynamic = true)
    (h : Misfits type token cause) : encodeDynamic type token = .error cause := by
  cases h with
  | overflow => cases hdynamic
  | mismatch hkind =>
      cases type with
      | text =>
          cases token with
          | text s => exact absurd (SameKind.text s) hkind
          | _ => rfl
      | bytes =>
          cases token with
          | bytes bs => exact absurd (SameKind.bytes bs) hkind
          | _ => rfl
      | _ => cases hdynamic

theorem eq_error_iff_misfits {part : Except Error Bytes}
    (hencodes : (∃ bs, part = .ok bs) ↔ Holds type token)
    (hrefuses : forall cause, Misfits type token cause -> part = .error cause) :
    part = .error cause ↔ Misfits type token cause := by
  constructor
  · intro h
    have hnot : ¬ Holds type token := by
      intro hholds
      rcases hencodes.mpr hholds with ⟨bs, hbs⟩
      cases h.symm.trans hbs
    rcases exists_misfits hnot with ⟨other, hother⟩
    cases h.symm.trans (hrefuses other hother)
    exact hother
  · exact hrefuses cause

theorem encodeStatic_eq_error_iff (hstatic : type.isDynamic = false) :
    encodeStatic type token = .error cause ↔ Misfits type token cause :=
  eq_error_iff_misfits (encodeStatic_succeeds_iff hstatic) fun _ =>
    encodeStatic_of_misfits hstatic

theorem encodeDynamic_eq_error_iff (hdynamic : type.isDynamic = true) :
    encodeDynamic type token = .error cause ↔ Misfits type token cause :=
  eq_error_iff_misfits (encodeDynamic_succeeds_iff hdynamic) fun _ =>
    encodeDynamic_of_misfits hdynamic

variable {types : List ParamType} {tokens : List Token}

/-- The first pair of a type and a value that is not one of it. -/
def FirstMisfit (types : List ParamType) (tokens : List Token) (cause : Error) : Prop :=
  ∃ i type token, types[i]? = some type ∧ tokens[i]? = some token ∧
    Misfits type token cause ∧
    forall (j : Nat) (earlier : ParamType) (value : Token), j < i ->
      types[j]? = some earlier -> tokens[j]? = some value -> Holds earlier value

theorem not_firstMisfit_nil : ¬ FirstMisfit [] [] cause := by
  rintro ⟨_, _, _, htype, _⟩
  cases htype

theorem firstMisfit_cons_iff :
    FirstMisfit (type :: types) (token :: tokens) cause ↔
      Misfits type token cause ∨ Holds type token ∧ FirstMisfit types tokens cause := by
  constructor
  · rintro ⟨i, other, value, htype, htoken, hmisfits, hearlier⟩
    cases i with
    | zero =>
        cases htype
        cases htoken
        exact .inl hmisfits
    | succ i =>
        refine .inr ⟨hearlier 0 type token (Nat.succ_pos i) rfl rfl, ?_⟩
        refine ⟨i, other, value, htype, htoken, hmisfits, ?_⟩
        intro j earlier before hj
        exact hearlier (j + 1) earlier before (Nat.succ_lt_succ hj)
  · rintro (hmisfits | ⟨hholds, i, other, value, htype, htoken, hmisfits, hearlier⟩)
    · exact ⟨0, type, token, rfl, rfl, hmisfits, fun j _ _ hj => absurd hj (Nat.not_lt_zero j)⟩
    · refine ⟨i + 1, other, value, htype, htoken, hmisfits, ?_⟩
      intro j earlier before hj hget hvalue
      cases j with
      | zero =>
          cases hget
          cases hvalue
          exact hholds
      | succ j => exact hearlier j earlier before (Nat.lt_of_succ_lt_succ hj) hget hvalue

theorem layout_eq_error_iff (position : Nat) (hlength : types.length = tokens.length) :
    layout position types tokens = .error cause ↔ FirstMisfit types tokens cause := by
  induction types generalizing tokens position with
  | nil =>
      cases tokens with
      | nil => exact ⟨nofun, fun h => absurd h not_firstMisfit_nil⟩
      | cons token tokens => cases hlength
  | cons type types ih =>
      cases tokens with
      | nil => cases hlength
      | cons token tokens =>
          have hlength' : types.length = tokens.length := Nat.succ.inj hlength
          rw [firstMisfit_cons_iff]
          cases hdynamic : type.isDynamic with
          | true =>
              rw [← encodeDynamic_eq_error_iff hdynamic, ← encodeDynamic_succeeds_iff hdynamic,
                layout, if_pos hdynamic]
              exact error_of_parts_iff fun part => ih (position + part.length) hlength'
          | false =>
              rw [← encodeStatic_eq_error_iff hdynamic, ← encodeStatic_succeeds_iff hdynamic,
                layout, hdynamic, if_neg Bool.false_ne_true]
              exact error_of_parts_iff fun part => ih position hlength'

theorem encode_eq_error_iff (hlength : types.length = tokens.length) :
    encode types tokens = .error cause ↔ FirstMisfit types tokens cause := by
  rw [← layout_eq_error_iff (types.length * wordSize) hlength]
  constructor
  · intro h
    rcases error_of_bind h with hlayout | ⟨parts, _, hpure⟩
    · exact hlayout
    · cases hpure
  · intro h
    exact bind_of_error h _

/-! ## The closed form -/

/-- The bytes of a value that stands in the tail. -/
def tailBytes? : Token -> Option Bytes
  | .text s => some (Text.encode s)
  | .bytes bs => some bs
  | _ => none

/-- The bytes of the tail that a value takes: a word for the length, and whole words for its
bytes. -/
def tailSize (token : Token) : Nat :=
  match tailBytes? token with
  | some bs => wordSize + wordSize * (bs.length ⌈/⌉ wordSize)
  | none => 0

def tailsSize : List Token -> Nat
  | [] => 0
  | token :: tokens => tailSize token + tailsSize tokens

/-- The part of the tail that holds a value: the length and the bytes, filled with zeros to whole
words. -/
def tailPart (token : Token) : Bytes :=
  match tailBytes? token with
  | some bs =>
      word bs.length ++
        (bs ++ List.replicate (wordSize * (bs.length ⌈/⌉ wordSize) - bs.length) 0)
  | none => []

/-- The head word of a value, whose part of the tail, where it has one, stands at `position`. -/
def headWord (position : Nat) : Token -> Bytes
  | .address a => List.replicate 12 0 ++ a.bytes
  | .bool b => word b.toNat
  | .uint n => word n.toNat
  | .text _ => word position
  | .bytes _ => word position

/-- Where the part of the value at `i` stands, when the tail begins at `start`. -/
def tailPosition (start : Nat) (tokens : List Token) (i : Nat) : Nat :=
  start + tailsSize (tokens.take i)

def headWords (start : Nat) (tokens : List Token) : List Bytes :=
  tokens.mapIdx fun i token => headWord (tailPosition start tokens i) token

/-- The head words of the values and then their parts of the tail. -/
def headTail (tokens : List Token) : Bytes :=
  (headWords (tokens.length * wordSize) tokens).flatten ++ (tokens.map tailPart).flatten

theorem headWords_cons (start : Nat) (token : Token) (tokens : List Token) :
    headWords start (token :: tokens) =
      headWord start token :: headWords (start + tailSize token) tokens := by
  rw [headWords, List.mapIdx_cons]
  refine congrArg (headWord start token :: List.mapIdx · tokens) ?_
  funext i value
  rw [tailPosition, tailPosition, List.take_succ_cons, tailsSize, Nat.add_assoc]

theorem padding_eq (length : Nat) :
    padding length = wordSize * (length ⌈/⌉ wordSize) - length := by
  rw [padding, Nat.ceilDiv_eq_add_pred_div, Nat.mul_comm]

theorem le_filled (length : Nat) : length ≤ wordSize * (length ⌈/⌉ wordSize) :=
  le_smul_ceilDiv (show 0 < wordSize by decide)

theorem length_tailPart (token : Token) : (tailPart token).length = tailSize token := by
  unfold tailPart tailSize
  cases tailBytes? token with
  | none => rfl
  | some bs =>
      have hle := le_filled bs.length
      simp only [List.length_append, length_word, List.length_replicate]
      omega

theorem HeadWord.eq_headWord {part : Bytes} (h : HeadWord type token part) (position : Nat) :
    part = headWord position token ∧ tailPart token = [] := by
  cases h with
  | address a => exact ⟨rfl, rfl⟩
  | bool b => exact ⟨rfl, rfl⟩
  | uint bits n => exact ⟨rfl, rfl⟩

theorem part_of_encodeDynamic {part : Bytes} (h : encodeDynamic type token = .ok part)
    (position : Nat) : headWord position token = word position ∧ part = tailPart token := by
  rcases encodeDynamic_eq_ok h with ⟨bs, hbytes, rfl⟩
  rw [padding_eq]
  cases type with
  | text =>
      cases token with
      | text s =>
          cases hbytes
          exact ⟨rfl, rfl⟩
      | _ => cases hbytes
  | bytes =>
      cases token with
      | bytes bs =>
          cases hbytes
          exact ⟨rfl, rfl⟩
      | _ => cases hbytes
  | address => cases hbytes
  | bool => cases hbytes
  | uint bits => cases hbytes

/-- The layout that is built value by value is the one of the closed form, where the next position
is the start with the sizes of the parts so far. -/
theorem layout_eq_of_ok {position : Nat} {head tail : Bytes}
    (hlength : types.length = tokens.length)
    (h : layout position types tokens = .ok (head, tail)) :
    head = (headWords position tokens).flatten ∧ tail = (tokens.map tailPart).flatten := by
  induction types generalizing tokens position head tail with
  | nil =>
      cases tokens with
      | nil =>
          cases h
          exact ⟨rfl, rfl⟩
      | cons token tokens => cases hlength
  | cons type types ih =>
      cases tokens with
      | nil => cases hlength
      | cons token tokens =>
          have hlength' : types.length = tokens.length := Nat.succ.inj hlength
          rw [headWords_cons, List.flatten_cons, List.map_cons, List.flatten_cons]
          cases hdynamic : type.isDynamic with
          | true =>
              rcases layout_dynamic_eq_ok hdynamic h with ⟨part, head, tail, hpart, hrest, rfl, rfl⟩
              rcases part_of_encodeDynamic hpart position with ⟨hword, rfl⟩
              rw [length_tailPart] at hrest
              rcases ih hlength' hrest with ⟨rfl, rfl⟩
              rw [hword]
              exact ⟨rfl, rfl⟩
          | false =>
              rcases layout_static_eq_ok hdynamic h with ⟨part, head, hpart, hrest, rfl⟩
              rcases (headWord_of_encodeStatic hpart).eq_headWord position with ⟨rfl, hnone⟩
              have hsize : tailSize token = 0 := by
                rw [← length_tailPart, hnone]
                rfl
              rcases ih hlength' hrest with ⟨rfl, rfl⟩
              rw [hnone, hsize]
              exact ⟨rfl, rfl⟩

theorem encode_eq_headTail {data : Bytes} (hlength : types.length = tokens.length)
    (h : encode types tokens = .ok data) : data = headTail tokens := by
  rcases ok_of_bind h with ⟨⟨head, tail⟩, hlayout, hdata⟩
  cases hdata
  rcases layout_eq_of_ok hlength hlayout with ⟨rfl, rfl⟩
  rw [hlength]
  rfl

/-! ## Places -/

theorem length_headWord (position : Nat) (token : Token) :
    (headWord position token).length = wordSize := by
  cases token with
  | address a => simp [headWord, a.length_eq, wordSize]
  | bool b => exact length_word _
  | uint n => exact length_word _
  | text s => exact length_word _
  | bytes bs => exact length_word _

theorem length_headWords (start : Nat) (tokens : List Token) :
    (headWords start tokens).flatten.length = tokens.length * wordSize := by
  induction tokens generalizing start with
  | nil => simp [headWords]
  | cons token tokens ih =>
      rw [headWords_cons, List.flatten_cons, List.length_append, length_headWord, ih,
        List.length_cons, Nat.succ_mul, Nat.add_comm]

theorem length_tailParts (tokens : List Token) :
    (tokens.map tailPart).flatten.length = tailsSize tokens := by
  induction tokens with
  | nil => rfl
  | cons token tokens ih =>
      rw [List.map_cons, List.flatten_cons, List.length_append, length_tailPart, ih, tailsSize]

theorem length_headTail (tokens : List Token) :
    (headTail tokens).length = tokens.length * wordSize + tailsSize tokens := by
  rw [headTail, List.length_append, length_headWords, length_tailParts]

theorem dvd_tailsSize (tokens : List Token) : wordSize ∣ tailsSize tokens := by
  induction tokens with
  | nil => exact Nat.dvd_zero wordSize
  | cons token tokens ih =>
      refine Nat.dvd_add ?_ ih
      unfold tailSize
      cases tailBytes? token with
      | none => exact Nat.dvd_zero wordSize
      | some bs => exact Nat.dvd_add (Nat.dvd_refl _) (Nat.dvd_mul_right _ _)

theorem headWord_standsAt {i : Nat} (start : Nat) (rest : Bytes) (htoken : tokens[i]? = some token) :
    StandsAt ((headWords start tokens).flatten ++ rest) (i * wordSize)
      (headWord (tailPosition start tokens i) token) := by
  induction tokens generalizing i start with
  | nil => cases htoken
  | cons first tokens ih =>
      rw [headWords_cons, List.flatten_cons, List.append_assoc]
      cases i with
      | zero =>
          cases htoken
          rw [Nat.zero_mul]
          exact standsAt_start _ _
      | succ i =>
          have hrest := (ih (start + tailSize first) htoken).prepend (headWord start first)
          rw [length_headWord, Nat.add_comm wordSize, ← Nat.succ_mul] at hrest
          rw [tailPosition, List.take_succ_cons, tailsSize, ← Nat.add_assoc]
          exact hrest

theorem tailPart_standsAt {i : Nat} (htoken : tokens[i]? = some token) :
    StandsAt (tokens.map tailPart).flatten (tailsSize (tokens.take i)) (tailPart token) := by
  induction tokens generalizing i with
  | nil => cases htoken
  | cons first tokens ih =>
      rw [List.map_cons, List.flatten_cons]
      cases i with
      | zero =>
          cases htoken
          exact standsAt_start _ _
      | succ i =>
          have hrest := (ih htoken).prepend (tailPart first)
          rw [length_tailPart] at hrest
          rw [List.take_succ_cons, tailsSize]
          exact hrest

theorem wordNumber_of_standsAt {data : Bytes} {offset n : Nat}
    (h : StandsAt data offset (word n)) (hn : n < Nat.pow 2 128) : wordNumber data offset = n := by
  have hfit : n < capacity 16 := hn
  have hword := h.take_drop
  rw [length_word] at hword
  rw [wordNumber, hword, word, toNatBE_zeros_append, toNatBE_ofNatBE_of_lt hfit]

theorem headWord_of_tailBytes {bs : Bytes} (h : tailBytes? token = some bs) (position : Nat) :
    headWord position token = word position := by
  cases token with
  | text s => rfl
  | bytes bs => rfl
  | _ => cases h

theorem words_of_headTail {i : Nat} {bs : Bytes} (hsize : (headTail tokens).length < Nat.pow 2 128)
    (htoken : tokens[i]? = some token) (hbytes : tailBytes? token = some bs) :
    wordNumber (headTail tokens) (i * wordSize) =
        tailPosition (tokens.length * wordSize) tokens i ∧
      wordNumber (headTail tokens) (tailPosition (tokens.length * wordSize) tokens i) =
        bs.length := by
  let position := tailPosition (tokens.length * wordSize) tokens i
  have hhead : StandsAt (headTail tokens) (i * wordSize) (word position) := by
    rw [← headWord_of_tailBytes hbytes position]
    exact headWord_standsAt _ _ htoken
  have htail : StandsAt (headTail tokens) position (tailPart token) := by
    have hplace := (tailPart_standsAt htoken).prepend
      (headWords (tokens.length * wordSize) tokens).flatten
    rwa [length_headWords] at hplace
  have hwithin := htail.le_length
  rw [length_tailPart, tailSize, hbytes] at hwithin
  have hfilled := le_filled bs.length
  simp only [tailPart, hbytes] at htail hwithin
  constructor
  · exact wordNumber_of_standsAt hhead (by omega)
  · exact wordNumber_of_standsAt htail.left (by omega)

/-- Values are encoded where each is one of its type, and else refused for the first that is not.
The encoding is one head word a value and then the parts of the dynamic values.  Its length is a
multiple of the size of a word; where 128 bits hold it, the words of a dynamic value are the
position of its part and its length. -/
theorem encode_head_tail (hlength : types.length = tokens.length) :
    ((∃ data, encode types tokens = .ok data) ↔ List.Forall₂ Holds types tokens) ∧
    (forall cause, encode types tokens = .error cause ↔ FirstMisfit types tokens cause) ∧
    forall data, encode types tokens = .ok data ->
      data = headTail tokens ∧
      data.length = tokens.length * wordSize + tailsSize tokens ∧
      wordSize ∣ data.length ∧
      (data.length < Nat.pow 2 128 -> forall (i : Nat) (token : Token) (bs : Bytes),
        tokens[i]? = some token -> tailBytes? token = some bs ->
        wordNumber data (i * wordSize) = tailPosition (tokens.length * wordSize) tokens i ∧
        wordNumber data (tailPosition (tokens.length * wordSize) tokens i) = bs.length) := by
  refine ⟨encode_succeeds_iff hlength, fun _ => encode_eq_error_iff hlength, ?_⟩
  intro data h
  cases encode_eq_headTail hlength h
  rw [length_headTail]
  refine ⟨rfl, rfl, ?_, ?_⟩
  · exact Nat.dvd_add (Nat.dvd_mul_left _ _) (dvd_tailsSize tokens)
  · intro hsize i token bs
    rw [← length_headTail] at hsize
    exact words_of_headTail hsize

/-- An empty string takes one word of the tail, and 33 bytes take three. -/
theorem encode_head_tail_mixed :
    let types : List ParamType := [.text, .uint 8, .bytes]
    let tokens : List Token := [.text "", .uint 255, .bytes (List.replicate 33 7)]
    types.length = tokens.length ∧
      ∃ data, encode types tokens = .ok data ∧ data = headTail tokens ∧ data.length = 224 ∧
        wordNumber data 64 = 128 ∧ wordNumber data 128 = 33 := by
  intro types tokens
  rcases @encode_head_tail types tokens rfl with ⟨hsucceeds, _, hlayout⟩
  have hholds : List.Forall₂ Holds types tokens :=
    .cons (.text "") (.cons (.uint (by decide)) (.cons (.bytes _) .nil))
  rcases hsucceeds.mpr hholds with ⟨data, hdata⟩
  rcases hlayout data hdata with ⟨heq, hlength, _, hwords⟩
  have hsize : data.length = 224 := by
    rw [hlength]
    decide +kernel
  rcases hwords (by rw [hsize]; decide) 2 _ _ rfl rfl with ⟨hposition, hnumber⟩
  have hplace : tailPosition (tokens.length * wordSize) tokens 2 = 128 := by decide +kernel
  rw [hplace] at hposition hnumber
  exact ⟨rfl, data, hdata, heq, hsize, hposition, hnumber⟩

end Abi
end KeyRegistry
