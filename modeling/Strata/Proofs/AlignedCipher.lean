import Strata.Proofs.AlignStage
import Strata.Proofs.CipherStage

/-!
# The aligning stage over the cipher stage

Together the two stages hide the frames: a file of any contents is read,
written and cut like a byte string, in every scheme and for whatever nonces
are drawn, and the file below is always the row of frames of that string.
Only a write that starts a block past the end of the file is left out, and so
are requests on blocks whose frames would be at a place that is no word: such
a frame is looked for at another place.
-/

namespace Strata

/-- The aligning stage over the cipher stage over files in memory. -/
def alignedCipher
    (framer : Framer)
    (recorder : Nat) :
    Layer (Session Memory) :=
  (Memory.layer.onSession.framed framer Session.drawNonce
    (Session.meter recorder)).aligned framer.size

/-- The file at a path is the row of frames of a byte string, all of them at
places that are words, and it is read and written without limits. -/
def Session.Stores
    (framer : Framer)
    (path : Path)
    (bytes : Bytes)
    (session : Session Memory) :
    Prop :=
  framer.Addresses bytes.length ∧
    ∃ stored, framer.Stores bytes stored ∧ session.storage.Holds path stored

/-- The cipher that leaves every byte as it is and gives all strings the same
tag. -/
def Aead.uniform
    (byte : UInt8) :
    Aead where
  stream _ length := Bytes.zeros length
  tag _ _ := List.replicate 16 byte
  length_stream _ _ := Bytes.length_zeros _
  length_tag _ _ := List.length_replicate

namespace alignedCipher

variable
  (framer : Framer)
  (recorder : Nat)
  {path : Path}

theorem blockFile :
    Layer.BlockFile
      (Memory.layer.onSession.framed framer Session.drawNonce
        (Session.meter recorder))
      path framer.size Memory.fileShape framer.Addresses
      (Layer.HoldsFramed framer (Memory.Holds path))
      (Layer.HoldsTorn framer (Memory.Holds path)) :=
  Layer.framed_blockFile framer recorder
    (Memory.layer_flatFile path).onSession rfl

theorem stores_iff_holdsFramed
    {bytes : Bytes}
    {session : Session Memory} :
    session.Stores framer path bytes ↔
      Layer.HoldsFramed framer (Memory.Holds path) bytes session := by
  unfold Session.Stores Layer.HoldsFramed
  simp only [Framer.stores_iff_framed]

/-- A request that stays within the addresses and reaches what is stored acts
like it does on the byte string. -/
theorem perform_answers
    (request : FileRequest)
    {bytes : Bytes}
    {session : Session Memory}
    (stores : session.Stores framer path bytes)
    (within : request.Within framer.size framer.Addresses)
    (reaches : request.Reaches framer.size bytes) :
    ((alignedCipher framer recorder).perform path request).Answers session
      (request.onBytes Memory.fileShape bytes).1
      (Session.Stores framer path
        (request.onBytes Memory.fileShape bytes).2) := by
  have answers := Layer.aligned_perform (blockFile framer recorder) request
    ((stores_iff_holdsFramed framer).mp stores) within reaches
  exact answers.weaken fun reached held =>
    (stores_iff_holdsFramed framer).mpr held

/-- A file that was just made stores the empty string. -/
theorem create_stores
    (mode : Nat)
    {session : Session Memory}
    (notDirectory : path ∉ session.storage.directories)
    (readUnlimited : session.storage.readLimits = [])
    (writeUnlimited : session.storage.writeLimits = []) :
    ((alignedCipher framer recorder).create path mode).Answers session ⟨[]⟩
      (Session.Stores framer path []) := by
  have created := Session.onStorage_answers
    (Memory.create_holds mode notDirectory readUnlimited writeUnlimited)
  exact created.weaken fun reached held =>
    ⟨framer.addresses_zero, [], framer.stores_nil, held⟩

/-- An empty file in memory stores the empty string. -/
theorem empty_stores
    (framer : Framer)
    (path : Path) :
    Session.Stores framer path []
      { storage := { files := [(path, .empty)] } } :=
  ⟨framer.addresses_zero, [], framer.stores_nil,
    ⟨.empty, by simp [Memory.contents?], rfl⟩, List.not_mem_nil, rfl, rfl⟩

end alignedCipher

end Strata
