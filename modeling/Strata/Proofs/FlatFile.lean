import Mathlib.Data.List.Forall2
import Strata.Layer.Memory
import Strata.Proofs.Execution
import Strata.Proofs.Ranges

/-!
# Flat files

What a layer says about one file is compared with a plain byte string.  A
request on the string has one answer and leaves one string; a layer is a flat
file when each of its requests gives that answer and reaches a state that
holds that string.  A file in memory is one as long as its transfers are
complete, also when it is part of a session.
-/

namespace Strata

/-! ## Requests on one file -/

/-- A request on one file of a layer. -/
inductive FileRequest where
  | read (handle : FileHandle) (offset length : Nat)
  | write (handle : FileHandle) (offset : Nat) (data : Bytes)
  | truncate (handle : Option FileHandle) (size : Nat)
  | fileSize (handle : Option FileHandle)
  | attributes (handle : Option FileHandle)
  deriving DecidableEq, Repr

/-- What a request that succeeds answers. -/
inductive FileAnswer where
  | data (bytes : Bytes)
  | written (count : Nat)
  | truncated
  | size (length : Nat)
  | known (attributes : Attributes)
  deriving DecidableEq, Repr

namespace FileRequest

/-- The answer of a plain byte string, and the string that it leaves.  The
string itself knows no attribute but its length. -/
def onBytes
    (shape : Attributes)
    (bytes : Bytes) :
    FileRequest → FileAnswer × Bytes
  | .read _ offset length => (.data (bytes.slice offset length), bytes)
  | .write _ offset data => (.written data.length, bytes.splice offset data)
  | .truncate _ size => (.truncated, bytes.resize size)
  | .fileSize _ => (.size bytes.length, bytes)
  | .attributes _ => (.known { shape with size := bytes.length }, bytes)

/-- The answers and the strings of a run of requests. -/
def runOnBytes
    (shape : Attributes) :
    List FileRequest → Bytes → List (FileAnswer × Bytes)
  | [], _ => []
  | request :: rest, bytes =>
    let step := request.onBytes shape bytes
    step :: runOnBytes shape rest step.2

/--
Whether the first block that a write touches is reached by what is stored: the
write starts in the string or at its end, or in the block that the string ends
in.
-/
def Reaches
    (size : BlockSize)
    (bytes : Bytes) :
    FileRequest → Prop
  | .write _ offset data =>
    data = [] ∨ offset ≤ bytes.length ∨ size.start offset < bytes.length
  | _ => True

/--
Whether a request stays within the lengths that a file can have: the block
that a read starts in begins within them, a write ends within them, and so does
the file after a change of its length.
-/
def Within
    (size : BlockSize)
    (Fits : Nat → Prop) :
    FileRequest → Prop
  | .read _ offset length => length = 0 ∨ Fits (size.start offset)
  | .write _ offset data => data = [] ∨ Fits (offset + data.length)
  | .truncate _ target => Fits target
  | _ => True

instance
    (size : BlockSize)
    (Fits : Nat → Prop)
    [DecidablePred Fits] :
    DecidablePred (FileRequest.Within size Fits)
  | .read _ offset length =>
    inferInstanceAs (Decidable (length = 0 ∨ Fits (size.start offset)))
  | .write _ offset data =>
    inferInstanceAs (Decidable (data = [] ∨ Fits (offset + data.length)))
  | .truncate _ target => inferInstanceAs (Decidable (Fits target))
  | .fileSize _ | .attributes _ => .isTrue trivial

/-- Whether every write of a run reaches what is stored when it is made. -/
def RunReaches
    (size : BlockSize)
    (shape : Attributes) :
    List FileRequest → Bytes → Prop
  | [], _ => True
  | request :: rest, bytes =>
    request.Reaches size bytes ∧
      RunReaches size shape rest (request.onBytes shape bytes).2

end FileRequest

namespace Layer

variable {σ : Type}

/-- Makes a request on the file at a path. -/
def perform
    (layer : Layer σ)
    (path : Path) :
    FileRequest → Action σ FileAnswer
  | .read handle offset length =>
    return .data (← layer.read path handle offset length)
  | .write handle offset data =>
    return .written (← layer.write path handle offset data)
  | .truncate handle size => do
    layer.truncate path handle size
    return .truncated
  | .fileSize handle => return .size (← layer.fileSize path handle)
  | .attributes handle => return .known (← layer.attributes path handle)

/-- One request of a run, with what it answered and the states around it. -/
structure Step
    (σ : Type) where
  before : σ
  request : FileRequest
  answer : Except Error FileAnswer
  after : σ

/-- The step that a request makes from a state. -/
def step
    (layer : Layer σ)
    (path : Path)
    (request : FileRequest)
    (before : σ) :
    Step σ :=
  let (answer, after) := (layer.perform path request).execute before
  { before, request, answer, after }

/-- The steps of a run of requests.  A run goes on after a request that
failed. -/
def run
    (layer : Layer σ)
    (path : Path) :
    List FileRequest → σ → List (Step σ)
  | [], _ => []
  | request :: rest, state =>
    let step := layer.step path request state
    step :: run layer path rest step.after

/-! ## Layers that act like a byte string -/

/-- Every request on the file at `path` succeeds and acts like a byte string
does, which `Holds` ties to the states of the layer. -/
structure FlatFile
    (layer : Layer σ)
    (path : Path)
    (shape : Attributes)
    (Holds : Bytes → σ → Prop) :
    Prop where
  openFile : ∀ access bytes state, Holds bytes state → ∃ opened,
    (layer.openFile path access).Answers state opened (Holds bytes)
  release : ∀ handle bytes state, Holds bytes state →
    (layer.release path handle).Answers state () (Holds bytes)
  read : ∀ handle offset length bytes state, Holds bytes state →
    (layer.read path handle offset length).Answers state
      (bytes.slice offset length) (Holds bytes)
  write : ∀ handle offset data bytes state, Holds bytes state →
    (layer.write path handle offset data).Answers state
      data.length (Holds (bytes.splice offset data))
  truncate : ∀ handle size bytes state, Holds bytes state →
    (layer.truncate path handle size).Answers state ()
      (Holds (bytes.resize size))
  fileSize : ∀ handle bytes state, Holds bytes state →
    (layer.fileSize path handle).Answers state bytes.length (Holds bytes)
  attributes : ∀ handle bytes state, Holds bytes state →
    (layer.attributes path handle).Answers state
      { shape with size := bytes.length } (Holds bytes)

/--
A layer that answers each request like a byte string answers a run of them
like one, and after every request it holds what the string has become.
-/
theorem run_of_perform
    {layer : Layer σ}
    {path : Path}
    {size : BlockSize}
    {shape : Attributes}
    {Fits : Nat → Prop}
    {Holds : Bytes → σ → Prop}
    (performs : ∀ request bytes state,
      Holds bytes state → FileRequest.Within size Fits request →
        FileRequest.Reaches size bytes request →
          (layer.perform path request).Answers state
            (request.onBytes shape bytes).1
            (Holds (request.onBytes shape bytes).2))
    (requests : List FileRequest)
    {bytes : Bytes}
    {state : σ}
    (held : Holds bytes state)
    (within : ∀ request ∈ requests, FileRequest.Within size Fits request)
    (reaches : FileRequest.RunReaches size shape requests bytes) :
    List.Forall₂
      (fun step expected =>
        step.answer = .ok expected.1 ∧ Holds expected.2 step.after)
      (layer.run path requests state)
      (FileRequest.runOnBytes shape requests bytes) := by
  induction requests generalizing bytes state with
  | nil => exact .nil
  | cons request rest ih =>
      rcases List.forall_mem_cons.mp within with ⟨first, others⟩
      rcases performs request bytes state held first reaches.1 with
        ⟨reached, ran, holds⟩
      simp only [run, step, FileRequest.runOnBytes, ran]
      exact .cons ⟨rfl, holds⟩ (ih holds others reaches.2)

/-- Over a session a layer acts on the storage, and leaves the clock, the
samples and the tape alone. -/
theorem FlatFile.onSession
    {η : Type}
    {layer : Layer η}
    {path : Path}
    {shape : Attributes}
    {Holds : Bytes → η → Prop}
    (flat : FlatFile layer path shape Holds) :
    FlatFile layer.onSession path shape
      (fun bytes session => Holds bytes session.storage) := by
  constructor
  case openFile =>
    intro access bytes session held
    rcases flat.openFile access bytes _ held with ⟨opened, answers⟩
    exact ⟨opened, Session.onStorage_answers answers⟩
  case release =>
    intro handle bytes session held
    exact Session.onStorage_answers (flat.release handle bytes _ held)
  case read =>
    intro handle offset length bytes session held
    exact Session.onStorage_answers (flat.read handle offset length bytes _ held)
  case write =>
    intro handle offset data bytes session held
    exact Session.onStorage_answers (flat.write handle offset data bytes _ held)
  case truncate =>
    intro handle size bytes session held
    exact Session.onStorage_answers (flat.truncate handle size bytes _ held)
  case fileSize =>
    intro handle bytes session held
    exact Session.onStorage_answers (flat.fileSize handle bytes _ held)
  case attributes =>
    intro handle bytes session held
    exact Session.onStorage_answers (flat.attributes handle bytes _ held)

/-! ## Files of blocks -/

/--
What the aligning stage needs of the layer below it, up to the lengths that a
file there can have.  Requests start on a block boundary and stay inside one
block; a read asks for all that is stored of its block, and a write starts no
block past the end and makes none shorter.  A cut inside a block leaves the
file `Torn` until that block is written again.
-/
structure BlockFile
    (layer : Layer σ)
    (path : Path)
    (size : BlockSize)
    (shape : Attributes)
    (Fits : Nat → Prop)
    (Holds Torn : Bytes → σ → Prop) :
    Prop where
  shorter : ∀ longer length, Fits longer → length ≤ longer → Fits length
  fits : ∀ bytes state, Holds bytes state → Fits bytes.length
  openFile : ∀ access bytes state, Holds bytes state → ∃ opened,
    (layer.openFile path access).Answers state opened (Holds bytes)
  release : ∀ handle bytes state, Holds bytes state →
    (layer.release path handle).Answers state () (Holds bytes)
  read : ∀ handle index length bytes state, Holds bytes state →
    Fits (index * size.bytes) →
    min size.bytes (bytes.length - index * size.bytes) ≤ length →
    length ≤ size.bytes →
      (layer.read path handle (index * size.bytes) length).Answers state
        (bytes.slice (index * size.bytes) length) (Holds bytes)
  write : ∀ handle index data bytes state, Holds bytes state →
    Fits (index * size.bytes + data.length) →
    index * size.bytes ≤ bytes.length →
    data ≠ [] →
    data.length ≤ size.bytes →
    min size.bytes (bytes.length - index * size.bytes) ≤ data.length →
      (layer.write path handle (index * size.bytes) data).Answers state
        data.length (Holds (bytes.splice (index * size.bytes) data))
  fileSize : ∀ handle bytes state, Holds bytes state →
    (layer.fileSize path handle).Answers state bytes.length (Holds bytes)
  attributes : ∀ handle bytes state, Holds bytes state →
    (layer.attributes path handle).Answers state
      { shape with size := bytes.length } (Holds bytes)
  keep : ∀ handle bytes state, Holds bytes state →
    (layer.truncate path handle bytes.length).Answers state () (Holds bytes)
  tear : ∀ handle target bytes state, Holds bytes state →
    target ≤ bytes.length →
      (layer.truncate path handle target).Answers state ()
        (Torn (bytes.resize target))
  even : ∀ bytes state, Torn bytes state →
    bytes.length % size.bytes = 0 → Holds bytes state
  mend : ∀ handle index bytes state, Torn bytes state →
    index * size.bytes < bytes.length →
    bytes.length ≤ (index + 1) * size.bytes →
      (layer.write path handle (index * size.bytes)
        (bytes.slice (index * size.bytes) size.bytes)).Answers state
          (bytes.length - index * size.bytes) (Holds bytes)

end Layer

/-! ## Files in memory -/

namespace Memory

theorem contents?_change
    (memory : Memory)
    (path : Path)
    (update : Contents → Contents) :
    (memory.change path update).contents? path =
      (memory.contents? path).map update := by
  simp only [contents?, change]
  induction memory.files with
  | nil => rfl
  | cons entry rest ih =>
      rcases entry with ⟨other, contents⟩
      by_cases same : other = path
      · subst same
        simp [changeFile]
      · have differs : (path == other) = false := by
          simpa using Ne.symm same
        simp [changeFile, same, List.lookup_cons, differs, ih]

/-- The file at a path is there and contains a byte string. -/
def Contains
    (path : Path)
    (bytes : Bytes)
    (memory : Memory) :
    Prop :=
  ∃ contents,
    memory.contents? path = some contents ∧ contents.toBytes = bytes

/-- The file at a path contains a byte string, is not hidden by a directory,
and is read and written without limits. -/
structure Holds
    (path : Path)
    (bytes : Bytes)
    (memory : Memory) :
    Prop where
  contains : memory.Contains path bytes
  notDirectory : path ∉ memory.directories
  readUnlimited : memory.readLimits = []
  writeUnlimited : memory.writeLimits = []

theorem Contains.change
    {path : Path}
    {bytes changed : Bytes}
    {memory : Memory}
    (contained : memory.Contains path bytes)
    (update : Contents → Contents)
    (updated : ∀ contents : Contents,
      contents.toBytes = bytes → (update contents).toBytes = changed) :
    (memory.change path update).Contains path changed := by
  rcases contained with ⟨contents, found, same⟩
  exact ⟨update contents, by simp [contents?_change, found],
    updated contents same⟩

theorem Contains.unique
    {path : Path}
    {first second : Bytes}
    {memory : Memory}
    (one : memory.Contains path first)
    (other : memory.Contains path second) :
    first = second := by
  rcases one with ⟨contents, found, rfl⟩
  rcases other with ⟨same, again, rfl⟩
  rw [Option.some.inj (found.symm.trans again)]

/-- What is known about a file in memory, its size apart. -/
def fileShape : Attributes :=
  { kind := .file, size := 0, mode := 33188, links := 1,
    owner := 0, group := 0, modified := 0 }

theorem contents?_put
    (memory : Memory)
    (path : Path)
    (contents : Contents) :
    (memory.put path contents).contents? path = some contents := by
  unfold put
  split
  · rename_i there
    rcases Option.isSome_iff_exists.mp there with ⟨old, found⟩
    rw [contents?_change, found, Option.map_some]
  · simp [contents?]

/-- A file that was just made is empty. -/
theorem create_holds
    {path : Path}
    (mode : Nat)
    {memory : Memory}
    (notDirectory : path ∉ memory.directories)
    (readUnlimited : memory.readLimits = [])
    (writeUnlimited : memory.writeLimits = []) :
    (layer.create path mode).Answers memory ⟨[]⟩ (Holds path []) := by
  refine ⟨_, rfl, ⟨.empty, contents?_put _ _ _, rfl⟩, ?_, ?_, ?_⟩
  all_goals
    unfold put
    split <;> assumption

theorem onFile_answers
    {α : Type}
    {path : Path}
    {call : MemoryCall}
    {answer : Memory → Contents → Except Error α × Memory}
    {memory reached : Memory}
    {contents : Contents}
    {value : α}
    {after : Memory → Prop}
    (found : memory.contents? path = some contents)
    (answered : answer (memory.note call) contents = (.ok value, reached))
    (held : after reached) :
    (onFile call path answer).Answers memory value after := by
  refine ⟨reached, ?_, held⟩
  have noted : (memory.note call).contents? path = some contents := found
  simp only [onFile, Action.execute_ofRun, noted, answered]

/-- Without limits a file in memory is a flat file. -/
theorem layer_flatFile
    (path : Path) :
    Layer.FlatFile layer path fileShape (Holds path) := by
  constructor
  all_goals dsimp only [layer]
  case openFile =>
    rintro access bytes memory ⟨contained, visible, reads, writes⟩
    rcases contained with ⟨contents, found, same⟩
    exact ⟨⟨[]⟩, onFile_answers found rfl
      ⟨⟨contents, found, same⟩, visible, reads, writes⟩⟩
  case release =>
    rintro handle bytes memory ⟨contained, visible, reads, writes⟩
    exact ⟨_, rfl, contained, visible, reads, writes⟩
  case read =>
    rintro handle offset length bytes memory
      ⟨⟨contents, found, rfl⟩, visible, reads, writes⟩
    have held : Holds path contents.toBytes
        { memory.note (.read offset length) with readLimits := [] } :=
      ⟨⟨contents, found, rfl⟩, visible, rfl, writes⟩
    refine onFile_answers found ?_ held
    simp [note, reads, allowed, Except.map, contents.read_eq_slice]
  case write =>
    rintro handle offset data bytes memory
      ⟨contained, visible, reads, writes⟩
    have written := contained.change (·.write offset data) fun contents same =>
      (contents.toBytes_write offset data).trans (by rw [same])
    rcases contained with ⟨contents, found, same⟩
    have held : Holds path (bytes.splice offset data)
        { (memory.note (.write offset data.length)).change path
            (·.write offset data) with writeLimits := [] } :=
      ⟨written, visible, reads, rfl⟩
    refine onFile_answers found ?_ held
    simp [note, writes, allowed, change]
  case truncate =>
    rintro handle size bytes memory ⟨contained, visible, reads, writes⟩
    have resized := contained.change (·.resize size) fun contents same =>
      (contents.toBytes_resize size).trans (by rw [same])
    rcases contained with ⟨contents, found, same⟩
    exact onFile_answers found rfl ⟨resized, visible, reads, writes⟩
  case fileSize =>
    rintro handle bytes memory
      ⟨⟨contents, found, rfl⟩, visible, reads, writes⟩
    rw [contents.length_toBytes]
    exact onFile_answers found rfl
      ⟨⟨contents, found, rfl⟩, visible, reads, writes⟩
  case attributes =>
    rintro handle bytes memory
      ⟨⟨contents, found, rfl⟩, visible, reads, writes⟩
    refine ⟨memory.note (.attributes handle.isSome), ?_,
      ⟨contents, found, rfl⟩, visible, reads, writes⟩
    have noted :
        (memory.note (.attributes handle.isSome)).contents? path =
          some contents := found
    have shown : path ∉
        (memory.note (.attributes handle.isSome)).directories := visible
    simp [attributes, shown, noted, fileShape]

end Memory

end Strata
