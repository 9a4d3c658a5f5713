import KeyRegistry.Keccak
import KeyRegistry.Quantity

/-!
# Hashes

A hash names a transaction or a block by 32 bytes, and is the digest by which a
call is recognised.  Its text is read with or without the mark `0x`.
-/

namespace KeyRegistry

structure Hash where
  bytes : Bytes
  length_eq : bytes.length = 32
deriving DecidableEq

namespace Hash

def zero : Hash :=
  ⟨List.replicate 32 0, by simp⟩

instance : Inhabited Hash := ⟨zero⟩

def isZero (h : Hash) : Bool :=
  h = zero

def ofBytes (bs : Bytes) : Except ValueError Hash :=
  if h : bs.length = 32 then .ok ⟨bs, h⟩ else .error (.hashLength bs.length)

def keccak (message : Bytes) : Hash :=
  ⟨Keccak.digest message, Keccak.length_digest message⟩

def keccakAll (pieces : List Bytes) : Hash :=
  keccak pieces.flatten

def hex (h : Hash) : String :=
  Hex.encode h.bytes

def toString (h : Hash) : String :=
  "0x" ++ h.hex

def parse (text : String) : Except ValueError Hash :=
  let cs := text.toList
  match Hex.decode ((Text.dropHexMark? cs).getD cs) with
  | .error fault => .error (.hex fault)
  | .ok bs => ofBytes bs

def order (a b : Hash) : Ordering :=
  Bytes.order a.bytes b.bytes

end Hash
end KeyRegistry
