import KeyRegistry.Address
import KeyRegistry.Hash

/-!
# Receipts

A receipt is the node's record of the inclusion and the outcome of a
transaction.  Inclusion is not success: only status 1 is.
-/

namespace KeyRegistry

structure Receipt where
  transactionHash : Hash
  blockHash : Hash
  blockNumber : UInt64
  sender : Address
  recipient : Option Address
  contractAddress : Option Address
  gasUsed : UInt64
  status : Option UInt64
deriving DecidableEq

namespace Receipt

/-- Whether execution succeeded.  A receipt without a status is not a success. -/
def succeeded (r : Receipt) : Bool :=
  r.status = some 1

def isContractCreation (r : Receipt) : Bool :=
  r.recipient.isNone

end Receipt
end KeyRegistry
