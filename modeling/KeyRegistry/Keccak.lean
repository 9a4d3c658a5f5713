import KeyRegistry.Bytes

/-!
# Keccak-256

The sponge over the permutation Keccak-f[1600] with a rate of 136 bytes, a
32-byte digest and the padding that sets the first and the last bit after the
message.  The state is its 25 lanes in row order: the lane of column `x` and
row `y` stands at `x + 5 * y`.
-/

namespace KeyRegistry
namespace Keccak

abbrev Lane := UInt64

abbrev State := List Lane

def rotate (w : Lane) (n : UInt64) : Lane :=
  if n = 0 then w else (w <<< n) ||| (w >>> (64 - n))

def rows : State -> List (List Lane)
  | a :: b :: c :: d :: e :: rest => [a, b, c, d, e] :: rows rest
  | _ => []

def xorAll (as bs : List Lane) : List Lane :=
  List.zipWith (· ^^^ ·) as bs

def turn : List Lane -> List Lane
  | [] => []
  | a :: as => as ++ [a]

def theta (state : State) : State :=
  let parity := (rows state).foldl xorAll (List.replicate 5 0)
  let left := turn (turn (turn (turn parity)))
  let right := (turn parity).map (rotate · 1)
  let effect := xorAll left right
  (rows state).flatMap (xorAll effect)

/-- Where the lane of each place comes from, and by how much it is rotated. -/
def moves : List (Nat × UInt64) := [
  (0, 0), (6, 44), (12, 43), (18, 21), (24, 14),
  (3, 28), (9, 20), (10, 3), (16, 45), (22, 61),
  (1, 1), (7, 6), (13, 25), (19, 8), (20, 18),
  (4, 27), (5, 36), (11, 10), (17, 15), (23, 56),
  (2, 62), (8, 55), (14, 39), (15, 41), (21, 2)]

def rhoPi (state : State) : State :=
  moves.map fun move => rotate (state.getD move.1 0) move.2

def chiRow (row : List Lane) : List Lane :=
  let next := turn row
  List.zipWith (fun a pair => a ^^^ (~~~pair.1 &&& pair.2)) row (next.zip (turn next))

def chi (state : State) : State :=
  (rows state).flatMap chiRow

def iota (constant : Lane) : State -> State
  | [] => []
  | a :: as => (a ^^^ constant) :: as

def roundConstants : List Lane := [
  0x0000000000000001, 0x0000000000008082, 0x800000000000808A, 0x8000000080008000,
  0x000000000000808B, 0x0000000080000001, 0x8000000080008081, 0x8000000000008009,
  0x000000000000008A, 0x0000000000000088, 0x0000000080008009, 0x000000008000000A,
  0x000000008000808B, 0x800000000000008B, 0x8000000000008089, 0x8000000000008003,
  0x8000000000008002, 0x8000000000000080, 0x000000000000800A, 0x800000008000000A,
  0x8000000080008081, 0x8000000000008080, 0x0000000080000001, 0x8000000080008008]

def permute (state : State) : State :=
  roundConstants.foldl (fun s constant => iota constant (chi (rhoPi (theta s)))) state

def rate : Nat := 136

def pad (message : Bytes) : Bytes :=
  let missing := rate - message.length % rate
  if missing = 1 then
    message ++ [0x81]
  else
    message ++ 0x01 :: List.replicate (missing - 2) 0x00 ++ [0x80]

def lanesOf : Nat -> Bytes -> List Lane
  | 0, _ => []
  | count + 1, bs => UInt64.ofNat (Bytes.toNatLE (bs.take 8)) :: lanesOf count (bs.drop 8)

def absorb : Nat -> State -> Bytes -> State
  | 0, state, _ => state
  | blocks + 1, state, bs =>
      let block := lanesOf 17 bs ++ List.replicate 8 0
      absorb blocks (permute (xorAll state block)) (bs.drop rate)

def digest (message : Bytes) : Bytes :=
  let padded := pad message
  let final := absorb (padded.length / rate) (List.replicate 25 0) padded
  (((List.range 4).map fun i => final.getD i 0).map fun w => Bytes.ofNatLE 8 w.toNat).flatten

theorem length_digest (message : Bytes) : (digest message).length = 32 := by
  simp [digest, List.range, List.range.loop, Bytes.length_ofNatLE]

end Keccak
end KeyRegistry
