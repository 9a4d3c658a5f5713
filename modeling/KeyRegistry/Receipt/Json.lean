import KeyRegistry.Receipt
import KeyRegistry.Json.Reader

/-!
# Receipts in JSON

Hashes and addresses are their texts and numbers are quantities.  The recipient,
the contract address and the status may be absent or null.
-/

namespace KeyRegistry
namespace Receipt

structure Draft where
  transactionHash : Option Hash := none
  blockHash : Option Hash := none
  blockNumber : Option UInt64 := none
  sender : Option Address := none
  recipient : Option (Option Address) := none
  contractAddress : Option (Option Address) := none
  gasUsed : Option UInt64 := none
  status : Option (Option UInt64) := none

open Json

def fields : List (Reader.Field Draft) := [
  Reader.field "transactionHash" Draft.transactionHash
    (fun h d => { d with transactionHash := some h }) (Reader.parsed Hash.parse),
  Reader.field "blockHash" Draft.blockHash
    (fun h d => { d with blockHash := some h }) (Reader.parsed Hash.parse),
  Reader.field "blockNumber" Draft.blockNumber
    (fun n d => { d with blockNumber := some n }) (Reader.parsed Quantity.parse64),
  Reader.field "from" Draft.sender
    (fun a d => { d with sender := some a }) (Reader.parsed Address.parse),
  Reader.field "to" Draft.recipient
    (fun a d => { d with recipient := some a }) (Reader.optional (Reader.parsed Address.parse)),
  Reader.field "contractAddress" Draft.contractAddress
    (fun a d => { d with contractAddress := some a })
    (Reader.optional (Reader.parsed Address.parse)),
  Reader.field "gasUsed" Draft.gasUsed
    (fun n d => { d with gasUsed := some n }) (Reader.parsed Quantity.parse64),
  Reader.field "status" Draft.status
    (fun n d => { d with status := some n }) (Reader.optional (Reader.parsed Quantity.parse64))]

def Draft.finish (d : Draft) : Except Fault Receipt := do
  let transactionHash <- Reader.required d.transactionHash
  let blockHash <- Reader.required d.blockHash
  let blockNumber <- Reader.required d.blockNumber
  let sender <- Reader.required d.sender
  let gasUsed <- Reader.required d.gasUsed
  return {
    transactionHash, blockHash, blockNumber, sender,
    recipient := d.recipient.getD none,
    contractAddress := d.contractAddress.getD none,
    gasUsed,
    status := d.status.getD none }

def reader : Reader Receipt := fun outline => do
  let draft <- Reader.record fields {} outline
  draft.finish

def toJson (r : Receipt) : Json :=
  let address := Json.ofOption fun (a : Address) => Json.text a.toString
  .record [
    ("transactionHash", .text r.transactionHash.toString),
    ("blockHash", .text r.blockHash.toString),
    ("blockNumber", .text (Quantity.format64 r.blockNumber)),
    ("from", .text r.sender.toString),
    ("to", address r.recipient),
    ("contractAddress", address r.contractAddress),
    ("gasUsed", .text (Quantity.format64 r.gasUsed)),
    ("status", Json.ofOption (fun n => .text (Quantity.format64 n)) r.status)]

end Receipt
end KeyRegistry
