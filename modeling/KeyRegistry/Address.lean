import KeyRegistry.Quantity

/-!
# Addresses

An address names an account or a contract by 20 bytes.  Its text is the mark
`0x` and 40 lower-case digits; texts in any letter case are read, and the mark
is required.
-/

namespace KeyRegistry

structure Address where
  bytes : Bytes
  length_eq : bytes.length = 20
deriving DecidableEq

namespace Address

def zero : Address :=
  ⟨List.replicate 20 0, by simp⟩

def repeated (b : UInt8) : Address :=
  ⟨List.replicate 20 b, by simp⟩

instance : Inhabited Address := ⟨zero⟩

def isZero (a : Address) : Bool :=
  a = zero

def ofBytes (bs : Bytes) : Except ValueError Address :=
  if h : bs.length = 20 then .ok ⟨bs, h⟩ else .error (.addressLength bs.length)

def hex (a : Address) : String :=
  Hex.encode a.bytes

def toString (a : Address) : String :=
  "0x" ++ a.hex

def toUpper (a : Address) : String :=
  "0x" ++ Hex.encodeUpper a.bytes

def parse (text : String) : Except ValueError Address :=
  match Text.dropHexMark? text.toList with
  | none => .error (.addressWithoutMark text)
  | some cs =>
      match Hex.decode cs with
      | .error fault => .error (.hex fault)
      | .ok bs => ofBytes bs

def order (a b : Address) : Ordering :=
  Bytes.order a.bytes b.bytes

/-- The first ten and the last eight characters of the text, with dots between. -/
def short (a : Address) : String :=
  let cs := a.toString.toList
  String.ofList (cs.take 10 ++ ['.', '.', '.'] ++ cs.drop 34)

end Address
end KeyRegistry
