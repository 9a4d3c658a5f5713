import KeyRegistry.Receipt

/-!
# Outcomes

The result of a completed interaction.
-/

namespace KeyRegistry
namespace Pipeline

inductive Outcome where
  | deployed (address : Address) (receipt : Receipt)
  | callResult (value : Bytes)
  | sent (receipt : Receipt) (success : Bool)
deriving DecidableEq

namespace Outcome

def receipt? : Outcome -> Option Receipt
  | .deployed _ receipt => some receipt
  | .callResult _ => none
  | .sent receipt _ => some receipt

def isSuccess : Outcome -> Bool
  | .sent _ success => success
  | _ => true

end Outcome
end Pipeline
end KeyRegistry
