import KeyRegistry.Abi.Type

/-!
# The head and tail layout of arguments

Arguments are laid out in words of 32 bytes.  The head holds one word a type:
the value of a static type, or the position at which the value of a dynamic
type stands in the tail as its length and its bytes, padded with zeros to whole
words.
-/

namespace KeyRegistry
namespace Abi

def wordSize : Nat := 32

def word (n : Nat) : Bytes :=
  List.replicate 16 0 ++ Bytes.ofNatBE 16 n

def mismatch (type : ParamType) (token : Token) : Error :=
  .typeMismatch type.name token.typeName

def encodeStatic : ParamType -> Token -> Except Error Bytes
  | .address, .address a => .ok (List.replicate 12 0 ++ a.bytes)
  | .bool, .bool b => .ok (word b.toNat)
  | .uint bits, .uint n =>
      if bits < 128 ∧ 1 <<< bits ≤ n.toNat then
        .error (.overflow (ParamType.uint bits).name)
      else
        .ok (word n.toNat)
  | type, token => .error (mismatch type token)

def padding (length : Nat) : Nat :=
  (length + wordSize - 1) / wordSize * wordSize - length

def dynamicBytes : ParamType -> Token -> Except Error Bytes
  | .text, .text s => .ok (Text.encode s)
  | .bytes, .bytes bs => .ok bs
  | type, token => .error (mismatch type token)

def encodeDynamic (type : ParamType) (token : Token) : Except Error Bytes := do
  let bs <- dynamicBytes type token
  return word bs.length ++ bs ++ List.replicate (padding bs.length) 0

/-- The head and the tail of the pairs that are left, where `position` is the place at which the
next part of the tail will stand. -/
def layout (position : Nat) : List ParamType -> List Token -> Except Error (Bytes × Bytes)
  | type :: types, token :: tokens =>
      if type.isDynamic then do
        let part <- encodeDynamic type token
        let (head, tail) <- layout (position + part.length) types tokens
        return (word position ++ head, part ++ tail)
      else do
        let part <- encodeStatic type token
        let (head, tail) <- layout position types tokens
        return (part ++ head, tail)
  | _, _ => .ok ([], [])

def encode (types : List ParamType) (tokens : List Token) : Except Error Bytes := do
  let (head, tail) <- layout (types.length * wordSize) types tokens
  return head ++ tail

/-- The `length` bytes of `data` from `offset` on, when all of them are there. -/
def slice? (data : Bytes) (offset length : Nat) : Option Bytes :=
  if offset + length ≤ data.length then some ((data.drop offset).take length) else none

def slice (data : Bytes) (offset length : Nat) : Except Error Bytes :=
  match slice? data offset length with
  | some bs => .ok bs
  | none => .error .truncated

def wordAt (data : Bytes) (offset : Nat) : Except Error Bytes :=
  slice data offset wordSize

/-- The word at `offset` as a position or a length, which 64 bits must hold. -/
def sizeAt (data : Bytes) (offset : Nat) : Except Error Nat := do
  let bs <- wordAt data offset
  if (bs.take 24).any (· ≠ 0) then
    throw .truncated
  return Bytes.toNatBE (bs.drop 24)

def dynamicAt (data : Bytes) (head : Nat) : Except Error Bytes := do
  let offset <- sizeAt data head
  let length <- sizeAt data offset
  slice data (offset + wordSize) length

def decodeOne (data : Bytes) (head : Nat) : ParamType -> Except Error Token
  | .address => do
      let bs <- wordAt data head
      match Address.ofBytes (bs.drop 12) with
      | .ok a => return .address a
      | .error _ => throw .truncated
  | .bool => do
      let bs <- wordAt data head
      return .bool (bs.getD (wordSize - 1) 0 ≠ 0)
  | .uint bits => do
      let bs <- wordAt data head
      if (bs.take 16).any (· ≠ 0) then
        throw (.overflow (ParamType.uint bits).name)
      return .uint (BitVec.ofNat 128 (Bytes.toNatBE (bs.drop 16)))
  | .text => do
      let bs <- dynamicAt data head
      match Text.decode? bs with
      | some s => return .text s
      | none => throw .invalidUtf8
  | .bytes => do
      let bs <- dynamicAt data head
      return .bytes bs

def decodeFrom (data : Bytes) : Nat -> List ParamType -> Except Error (List Token)
  | _, [] => .ok []
  | head, type :: types => do
      let token <- decodeOne data head type
      let tokens <- decodeFrom data (head + wordSize) types
      return token :: tokens

/-- The values of `types` in data laid out for them; data after them is ignored. -/
def decode (types : List ParamType) (data : Bytes) : Except Error (List Token) :=
  decodeFrom data 0 types

end Abi
end KeyRegistry
