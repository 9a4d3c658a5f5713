import KeyRegistry.Call

/-!
# Gas plans

A gas plan is the price and the limit derived for one specific call, which it
remembers by digest.
-/

namespace KeyRegistry

structure GasPlan where
  price : BitVec 128
  limit : UInt64
  callDigest : Hash
deriving DecidableEq

namespace GasPlan

def forCall (call : Call) (price : BitVec 128) (limit : UInt64) : GasPlan :=
  { price, limit, callDigest := call.digest }

def belongsTo (plan : GasPlan) (call : Call) : Bool :=
  plan.callDigest = call.digest

/-- The most that the plan can spend, at most the largest 128-bit number. -/
def maxFee (plan : GasPlan) : Nat :=
  min (plan.price.toNat * plan.limit.toNat) 0xffff_ffff_ffff_ffff_ffff_ffff_ffff_ffff

/-- `limit` increased by `percent` per cent, rounded up and at most the largest 64-bit number. -/
def limitWithMargin (limit : UInt64) (percent : UInt32) : UInt64 :=
  let extra := (limit.toNat * percent.toNat + 99) / 100
  UInt64.ofNat (min (limit.toNat + extra) (UInt64.size - 1))

end GasPlan
end KeyRegistry
