import Strata.ByteField
import Strata.Bytes

/-!
# The Reed–Solomon code

A block is spread over data shards of equal length.  At every position the
bytes of the data shards are the values of a polynomial, of degree below their
number, at the points 0, 1, 2 and so on; a parity shard holds the values of
the same polynomials at one more point.  As many shards as there are data
shards, whichever they are, determine the polynomials, so a missing data shard
is read off them again.

The value of a polynomial at a point is a weighted sum of its values at other
points, with weights that depend on the points alone.
-/

namespace Strata

/-- The numbers of shards, and the weights that make the parity shards. -/
structure ReedSolomon where
  data : Nat
  parity : Nat
  /-- For each parity shard the weights of the data shards. -/
  parityWeights : List (List UInt8)
  deriving Repr

namespace ReedSolomon

/-- Why the code cannot be applied. -/
inductive Fault where
  | tooManyShards
  | emptyShard
  | incorrectShardSize
  | tooFewShardsPresent
  deriving DecidableEq, Repr

/-- The name of a fault. -/
def Fault.name :
    Fault → String
  | .tooManyShards => "TooManyShards"
  | .emptyShard => "EmptyShard"
  | .incorrectShardSize => "IncorrectShardSize"
  | .tooFewShardsPresent => "TooFewShardsPresent"

/-- What stands for `x ^ 8` in the field of the code. -/
def reduction :
    UInt8 :=
  0x1d

/-- The product of two bytes in the field of the code. -/
def times
    (left right : UInt8) :
    UInt8 :=
  ByteField.product reduction left right

/-- The product of the differences of `origin` and every other point. -/
def differences
    (origin : UInt8)
    (others : List UInt8) :
    UInt8 :=
  (others.map (origin ^^^ ·)).foldl times 1

/-- The weight of the value at `point` in the value at `target`, where
`points` are all points with a known value. -/
def weight
    (points : List UInt8)
    (target point : UInt8) :
    UInt8 :=
  let others := points.filter (· != point)
  times (differences target others)
    (ByteField.inverse reduction (differences point others))

/-- The weights of the values at `points` in the value at `target`. -/
def weights
    (points : List UInt8)
    (target : UInt8) :
    List UInt8 :=
  points.map (weight points target)

/-- The point of a shard. -/
def pointOf
    (shard : Nat) :
    UInt8 :=
  shard.toUInt8

/-- The code with the given numbers of shards. -/
def ofShape
    (data parity : Nat) :
    Except Fault ReedSolomon :=
  if 256 < data + parity then
    .error .tooManyShards
  else
    let points := (List.range data).map pointOf
    let targets := (List.range parity).map fun shard =>
      pointOf (data + shard)
    .ok { data, parity, parityWeights := targets.map (weights points) }

/-- The number of shards. -/
def total
    (code : ReedSolomon) :
    Nat :=
  code.data + code.parity

/-- The shards added up with their weights. -/
def combine
    (length : Nat)
    (weights : List UInt8)
    (shards : List Bytes) :
    Bytes :=
  (weights.zip shards).foldl
    (fun sum (weight, shard) => Bytes.xor sum (shard.map (times weight)))
    (Bytes.zeros length)

/-- The data shards followed by the parity shards made from them. -/
def encode
    (code : ReedSolomon)
    (shards : List Bytes) :
    Except Fault (List Bytes) :=
  let length := (shards.headD []).length
  if length = 0 then
    .error .emptyShard
  else
    .ok (shards ++
      code.parityWeights.map fun weights => combine length weights shards)

/-- The shards that are there, each with its number. -/
def present
    (shards : List (Option Bytes)) :
    List (Nat × Bytes) :=
  shards.zipIdx.filterMap fun (shard?, index) =>
    shard?.map fun shard => (index, shard)

/-- What is wrong with the lengths of the shards that are there, looked at in
order. -/
def lengthFault? :
    List Bytes → Option Fault
  | [] => none
  | first :: rest =>
    if first.length = 0 then
      some .emptyShard
    else
      rest.findSome? fun shard =>
        if shard.length = 0 then
          some .emptyShard
        else if shard.length ≠ first.length then
          some .incorrectShardSize
        else
          none

/-- The data shard with the given number: the one that is there, or else the
one that the known shards determine. -/
def dataShard
    (known : List (Nat × Bytes))
    (shards : List (Option Bytes))
    (index : Nat) :
    Bytes :=
  match shards[index]? with
  | some (some shard) => shard
  | _ =>
    let points := known.map fun entry => pointOf entry.1
    let values := known.map (·.2)
    combine (values.headD []).length (weights points (pointOf index)) values

/-- The data shards, where those that are missing are rebuilt from the first
shards that are there. -/
def reconstruct
    (code : ReedSolomon)
    (shards : List (Option Bytes)) :
    Except Fault (List Bytes) :=
  let there := present shards
  match lengthFault? (there.map (·.2)) with
  | some fault => .error fault
  | none =>
    if there.length < code.data then
      .error .tooFewShardsPresent
    else
      .ok ((List.range code.data).map
        (dataShard (there.take code.data) shards))

end ReedSolomon

end Strata
