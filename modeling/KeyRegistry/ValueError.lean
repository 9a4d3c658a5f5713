import KeyRegistry.Hex

/-!
# Faults of value texts

A text may fail to be a value by its mark, its length, its digits or its size.  The
fault says which.
-/

namespace KeyRegistry

/-- Why a text or a byte string is not an address, a hash, data or a quantity. -/
inductive ValueError where
  | addressWithoutMark (text : String)
  | addressLength (length : Nat)
  | hashLength (length : Nat)
  | hex (fault : Hex.Fault)
  | quantityWithoutDigits (text : String)
  | quantityDigit
  | quantityOverflow (text : String)
deriving DecidableEq, Repr

def ValueError.message : ValueError -> String
  | .addressWithoutMark text => "Invalid address format: " ++ text
  | .addressLength length => "Invalid address length: expected 20, got " ++ toString length
  | .hashLength length => "Invalid hash length: expected 32, got " ++ toString length
  | .hex fault => "Invalid hex: " ++ fault.message
  | .quantityWithoutDigits text => "Invalid quantity: " ++ text
  | .quantityDigit => "Invalid quantity: invalid digit found in string"
  | .quantityOverflow text => "Quantity overflow: " ++ text

end KeyRegistry
