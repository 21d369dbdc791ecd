import Strata.Crypto.Aead
import Strata.Crypto.Aes

/-!
# Galois counter mode

The key stream is the encryption of a counter that starts from the nonce.  The
tag is a polynomial in the encrypted bytes and their length over the field of
128 bits, evaluated at the encryption of zero, under the first block of the
key stream.  No associated data is authenticated.
-/

namespace Strata.Gcm

/-- An element of the field, the bit of lowest degree at the top. -/
structure Element where
  high : UInt64
  low : UInt64
  deriving DecidableEq, Repr, Inhabited

namespace Element

/-- The sum of two elements. -/
@[inline]
def add
    (left right : Element) :
    Element :=
  ⟨left.high ^^^ right.high, left.low ^^^ right.low⟩

/--
Adds to `sum` the product of `factor` and the bits of a word that stand above
its lowest `64 - bits` places, and goes on with the factor moved up by as many
degrees.
-/
def addProduct
    (bits : Nat)
    (word : UInt64)
    (sumHigh sumLow factorHigh factorLow : UInt64) :
    Element × Element :=
  match bits with
  | 0 => (⟨sumHigh, sumLow⟩, ⟨factorHigh, factorLow⟩)
  | bits + 1 =>
    let chosen : UInt64 := -(word >>> 63)
    let carry : UInt64 := (-(factorLow &&& 1)) &&& 0xe100000000000000
    addProduct bits (word <<< 1)
      (sumHigh ^^^ (factorHigh &&& chosen))
      (sumLow ^^^ (factorLow &&& chosen))
      ((factorHigh >>> 1) ^^^ carry)
      ((factorLow >>> 1) ||| (factorHigh <<< 63))

/-- The product of two elements. -/
def multiply
    (left right : Element) :
    Element :=
  let upper := addProduct 64 left.high 0 0 right.high right.low
  (addProduct 64 left.low upper.1.high upper.1.low
    upper.2.high upper.2.low).1

/-- The element of four columns. -/
def ofColumns
    (columns : Aes.Columns) :
    Element :=
  { high := (columns.first.toUInt64 <<< 32) ||| columns.second.toUInt64
    low := (columns.third.toUInt64 <<< 32) ||| columns.fourth.toUInt64 }

/-- The four columns of an element. -/
def toColumns
    (element : Element) :
    Aes.Columns :=
  { first := (element.high >>> 32).toUInt32
    second := element.high.toUInt32
    third := (element.low >>> 32).toUInt32
    fourth := element.low.toUInt32 }

end Element

/-- The polynomial over the pieces of sixteen bytes of a string, the last one
filled up with zeros, evaluated at `point` on top of `sum`. -/
def absorb
    (point sum : Element)
    (bytes : Bytes) :
    Element :=
  if _ : bytes = [] then
    sum
  else
    let piece := Element.ofColumns (Aes.Columns.ofBytes (bytes.take 16))
    absorb point ((sum.add piece).multiply point) (bytes.drop 16)
termination_by bytes.length
decreasing_by
  have : bytes.length ≠ 0 := fun none =>
    ‹¬bytes = []› (List.length_eq_zero_iff.mp none)
  simp only [List.length_drop]
  omega

/-- The counter block of a nonce. -/
def counterBlock
    (nonce : Bytes)
    (counter : UInt32) :
    Aes.Columns :=
  { Aes.Columns.ofBytes nonce with fourth := counter }

/-- The key stream from a counter on, as many blocks as asked for. -/
def streamBlocks
    (schedule : Aes.Schedule)
    (nonce : Bytes)
    (blocks : Nat) :
    Bytes :=
  (List.range blocks).flatMap fun index =>
    (Aes.encrypt schedule
      (counterBlock nonce (index.toUInt32 + 2))).toBytes

theorem length_streamBlocks
    (schedule : Aes.Schedule)
    (nonce : Bytes)
    (blocks : Nat) :
    (streamBlocks schedule nonce blocks).length = blocks * 16 := by
  induction blocks with
  | zero => rfl
  | succ blocks ih =>
    simp only [streamBlocks] at ih ⊢
    rw [List.range_succ, List.flatMap_append, List.length_append, ih]
    simp
    omega

/-- The key stream of a nonce, cut to a length. -/
def stream
    (schedule : Aes.Schedule)
    (nonce : Bytes)
    (length : Nat) :
    Bytes :=
  (streamBlocks schedule nonce ((length + 15) / 16)).take length

theorem length_stream
    (schedule : Aes.Schedule)
    (nonce : Bytes)
    (length : Nat) :
    (stream schedule nonce length).length = length := by
  rw [stream, List.length_take, length_streamBlocks]
  omega

/-- The tag of encrypted bytes under a nonce. -/
def tag
    (schedule : Aes.Schedule)
    (point : Element)
    (nonce encrypted : Bytes) :
    Bytes :=
  let sum := absorb point ⟨0, 0⟩ encrypted
  let lengths : Element := ⟨0, (8 * encrypted.length).toUInt64⟩
  let hash := (sum.add lengths).multiply point
  let mask := Element.ofColumns
    (Aes.encrypt schedule (counterBlock nonce 1))
  (hash.add mask).toColumns.toBytes

/-- The cipher of a key of thirty-two bytes. -/
def aead
    (key : Bytes) :
    Aead :=
  let schedule := Aes.Schedule.ofKey key
  let point := Element.ofColumns (Aes.encrypt schedule ⟨0, 0, 0, 0⟩)
  { stream := stream schedule
    tag := tag schedule point
    length_stream := length_stream schedule
    length_tag := fun _ _ => rfl }

end Strata.Gcm
