import KeyRegistry.Binary64
import KeyRegistry.Numeral

/-!
# Amounts

An amount of wei is shown in ether with four decimals from one ether on, in
gigawei with two decimals from one gigawei on, and in wei below.  The division is
done in binary floating point.
-/

namespace KeyRegistry
namespace Wei

def inUnits (scale places : Nat) (wei : BitVec 128) : List Char :=
  let quotient := do
    let amount <- Binary64.ofNat wei.toNat
    let unit <- Binary64.powerOfTen scale
    amount.div unit
  (quotient.getD Binary64.zero).toFixed places

def format (wei : BitVec 128) : String :=
  if 1_000_000_000_000_000_000 ≤ wei.toNat then
    String.ofList (inUnits 18 4 wei) ++ " ETH"
  else if 1_000_000_000 ≤ wei.toNat then
    String.ofList (inUnits 9 2 wei) ++ " Gwei"
  else
    String.ofList (Numeral.decimalDigits wei.toNat) ++ " wei"

end Wei
end KeyRegistry
