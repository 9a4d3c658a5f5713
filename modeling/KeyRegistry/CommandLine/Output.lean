import KeyRegistry.Mining.Controller
import KeyRegistry.Receipt
import KeyRegistry.Wei

/-!
# What commands print

The lines that a command writes for its user, without colours.
-/

namespace KeyRegistry
namespace CommandLine

def successLine (text : String) : String := "✓ " ++ text
def warningLine (text : String) : String := "⚠ " ++ text
def infoLine (text : String) : String := "ℹ " ++ text

def versionLine : String := "certchain 0.1.0"

def usageLines : List String :=
  ["Store and retrieve certificate keys through a storage contract", "",
    "Usage: certchain [OPTIONS] <COMMAND>", "",
    "Commands:",
    "  deploy                 Deploy the storage contract and record its address",
    "  authorized [ACCOUNT]   Check whether an account may store keys",
    "  store <ID> <KEY>       Store a key under an ID",
    "  retrieve <ID>          Retrieve the key stored under an ID",
    "  mine [-t <THREADS>]    Mine only while transactions are pending",
    "  status                 Show node status", "",
    "Options:",
    "      --config <PATH>    Configuration file",
    "  -r, --rpc <URL>        HTTP RPC endpoint URL",
    "      --ws <URL>         WebSocket RPC endpoint URL",
    "      --log-level <TEXT> Log filter",
    "  -h, --help             Print help",
    "  -V, --version          Print version", "",
    "The account passphrase is taken from CERTCHAIN_PASSPHRASE, or from the configuration file."]

def rule : String :=
  String.ofList (List.replicate 50 '=')

def decimal (n : Nat) : String :=
  String.ofList (Numeral.decimalDigits n)

def statusWord : Option UInt64 -> String
  | some 1 => "Success"
  | some _ => "Reverted"
  | none => "Unknown"

def receiptLines (r : Receipt) : List String :=
  ["Transaction Receipt", rule,
    "Transaction Hash: " ++ r.transactionHash.toString,
    "Block Number:     " ++ decimal r.blockNumber.toNat,
    "From:             " ++ r.sender.toString] ++
  (r.recipient.map fun a => "To:               " ++ a.toString).toList ++
  (r.contractAddress.map fun a => "Contract:         " ++ a.toString).toList ++
  ["Status:           " ++ statusWord r.status,
    "Gas Used:         " ++ decimal r.gasUsed.toNat]

structure NodeStatus where
  rpcUrl : String
  blockNumber : UInt64
  gasPrice : BitVec 128
  mining : Bool
  pending : UInt64
  accounts : List Address

def accountLines : Nat -> List Address -> List String
  | _, [] => []
  | index, a :: accounts =>
      ("  [" ++ decimal index ++ "] " ++ a.toString) :: accountLines (index + 1) accounts

def NodeStatus.lines (s : NodeStatus) : List String :=
  ["Node Status", rule,
    "RPC:           " ++ s.rpcUrl,
    "Block Number:  " ++ decimal s.blockNumber.toNat,
    "Gas Price:     " ++ Wei.format s.gasPrice,
    "Mining:        " ++ (if s.mining then "yes" else "no"),
    "Pending Txs:   " ++ decimal s.pending.toNat,
    "Accounts:      " ++ decimal s.accounts.length] ++ accountLines 0 s.accounts

def miningLines (r : Mining.Report) : List String :=
  ["Mining Controller", rule,
    "Events:        " ++ decimal r.events,
    "Evaluations:   " ++ decimal r.evaluations] ++
  (if 0 < r.failedEvaluations then ["Failed:        " ++ decimal r.failedEvaluations] else []) ++
  ["Starts:        " ++ decimal r.starts,
    "Stops:         " ++ decimal r.stops]

end CommandLine
end KeyRegistry
