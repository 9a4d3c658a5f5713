import KeyRegistry.Proofs.Quantity
import KeyRegistry.Proofs.ValueTexts
import KeyRegistry.Rpc.Wire

/-!
# Records of transactions

The record of a transaction has one text for each part of the call and of its
plan, and each text is read back as its part.  So a record tells the parts, and
calls with the same record have the same parts.
-/

namespace KeyRegistry
namespace Rpc

/-- Under `name` stands a text that is read as the value, or nothing where there is no value. -/
def Shows {α : Type} (record : Json) (name : String) (parse : String -> Except ValueError α) :
    Option α -> Prop
  | some value => ∃ text, record.member? name = some (.text text) ∧ parse text = .ok value
  | none => record.member? name = none

theorem Shows.unique {α : Type} {record : Json} {name : String}
    {parse : String -> Except ValueError α} {value value' : Option α}
    (h : Shows record name parse value) (h' : Shows record name parse value') :
    value = value' := by
  cases value with
  | none =>
      cases value' with
      | none => rfl
      | some b =>
          rcases h' with ⟨text, htext, _⟩
          exact absurd (h.symm.trans htext) nofun
  | some a =>
      rcases h with ⟨text, htext, hparse⟩
      cases value' with
      | none => exact absurd (h'.symm.trans htext) nofun
      | some b =>
          rcases h' with ⟨text', htext', hparse'⟩
          cases htext.symm.trans htext'
          cases hparse.symm.trans hparse'
          rfl

/-! ## The parts of a record -/

section

variable (call : Call) (plan : Option GasPlan)

theorem shows_sender : Shows (transaction call plan) "from" Address.parse (some call.sender) :=
  ⟨_, rfl, Address.parse_toString call.sender⟩

theorem shows_recipient : Shows (transaction call plan) "to" Address.parse call.recipient? := by
  rcases call with ⟨sender, target, data, value⟩
  cases target with
  | creation => cases plan <;> rfl
  | method contract name => exact ⟨_, rfl, Address.parse_toString contract⟩

theorem shows_data : Shows (transaction call plan) "data" Data.parse (some call.data) := by
  rcases call with ⟨sender, target, data, value⟩
  cases target <;> exact ⟨_, rfl, Data.parse_format data⟩

theorem shows_value :
    Shows (transaction call plan) "value" Quantity.parse128 (some call.value) := by
  rcases call with ⟨sender, target, data, value⟩
  cases target <;> exact ⟨_, rfl, Quantity.exact128.read_back value⟩

theorem shows_limit :
    Shows (transaction call plan) "gas" Quantity.parse64 (plan.map GasPlan.limit) := by
  rcases call with ⟨sender, target, data, value⟩
  cases plan with
  | none => cases target <;> rfl
  | some plan => cases target <;> exact ⟨_, rfl, Quantity.exact64.read_back plan.limit⟩

theorem shows_price :
    Shows (transaction call plan) "gasPrice" Quantity.parse128 (plan.map GasPlan.price) := by
  rcases call with ⟨sender, target, data, value⟩
  cases plan with
  | none => cases target <;> rfl
  | some plan => cases target <;> exact ⟨_, rfl, Quantity.exact128.read_back plan.price⟩

/-- The names under which the record of a transaction has something, in order. -/
def recordNames : List String :=
  ["from"] ++ (if call.isDeploy then [] else ["to"]) ++ ["data", "value"] ++
    (if plan.isSome then ["gas", "gasPrice"] else [])

theorem names_transaction :
    ∃ members, transaction call plan = .record members ∧
      members.map Prod.fst = recordNames call plan := by
  rcases call with ⟨sender, target, data, value⟩
  cases target <;> cases plan <;> exact ⟨_, rfl, rfl⟩

/-- What the record of a transaction tells, and that it tells nothing else. -/
structure Carries (record : Json) : Prop where
  sender : Shows record "from" Address.parse (some call.sender)
  recipient : Shows record "to" Address.parse call.recipient?
  data : Shows record "data" Data.parse (some call.data)
  value : Shows record "value" Quantity.parse128 (some call.value)
  limit : Shows record "gas" Quantity.parse64 (plan.map GasPlan.limit)
  price : Shows record "gasPrice" Quantity.parse128 (plan.map GasPlan.price)
  names_eq : ∃ members, record = .record members ∧ members.map Prod.fst = recordNames call plan

/-- Every part of a call and of its plan is read back from the record of the transaction. -/
theorem transaction_carries : Carries call plan (transaction call plan) where
  sender := shows_sender call plan
  recipient := shows_recipient call plan
  data := shows_data call plan
  value := shows_value call plan
  limit := shows_limit call plan
  price := shows_price call plan
  names_eq := names_transaction call plan

end

end Rpc
end KeyRegistry
