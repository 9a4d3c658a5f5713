import KeyRegistry.Text.Utf8

/-!
# Artifact keys

A compiled contract is named by its source and its contract name with a colon
between.  A source path may hold colons itself, so the last one separates.
-/

namespace KeyRegistry
namespace Artifact

structure Key where
  source : String
  contract : String
deriving DecidableEq, Repr

namespace Key

def toString (key : Key) : String :=
  key.source ++ ":" ++ key.contract

def parse? (text : String) : Option Key :=
  match Text.cutLast? ':' text.toList with
  | some (source, contract) =>
      if source.isEmpty ∨ contract.isEmpty then
        none
      else
        some { source := String.ofList source, contract := String.ofList contract }
  | none => none

end Key
end Artifact
end KeyRegistry
