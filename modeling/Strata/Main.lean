import Strata.Command.Run
import Strata.Host.Changes

/-!
# The program

A command runs on a picture of the file system.  The program takes a picture
of what the command can reach, runs the command on it, and carries over what
the command has changed.
-/

namespace Strata.Program

/-- The kind and the time of what a path leads to. -/
def look
    (path : String) :
    IO (Option IO.FS.Metadata) := do
  try
    return some (← (← IO.FS.realPath path).metadata)
  catch _ =>
    return none

/-- The bytes of a file; none if it cannot be read. -/
def bytesOf
    (path : String) :
    IO Bytes := do
  try
    return (← IO.FS.readBinFile path).toList
  catch _ =>
    return []

/-- Puts a picture of an object and of all below it into the host. -/
partial def picture
    (path : String)
    (metadata : IO.FS.Metadata) :
    StateT Host IO Unit := do
  let stamp := fun host : Host => { host with time := metadata.modified.sec.toNat }
  match metadata.type with
  | .dir =>
    modify fun host =>
      ((Host.makeDirectory path 0o755).execute (stamp host)).2
    for entry in ← (← IO.FS.realPath path).readDir do
      picture (Host.join path entry.fileName) (← entry.path.symlinkMetadata)
  | .file =>
    let data ← bytesOf path
    modify fun host => ((Host.writeAll path data).execute (stamp host)).2
  | .symlink =>
    let target ← (do return (← IO.FS.realPath path).toString) <|> pure path
    modify fun host => ((Host.symlink target path).execute (stamp host)).2
  | .other =>
    modify fun host => ((Host.makePipe path 0o644).execute (stamp host)).2

/-- Puts a picture of a directory, given by its names, and of those above it
into the host, but not of what they hold. -/
def surroundings
    (names : List String) :
    StateT Host IO Unit := do
  for length in List.range (names.length + 1) do
    let above := Host.absolute (names.take length)
    match ← look above with
    | some { type := .dir, .. } =>
      modify fun host => ((Host.makeDirectory above 0o755).execute host).2
    | some { type := .file, .. } =>
      modify fun host => ((Host.writeAll above []).execute host).2
    | _ => pure ()

/-- Puts a picture of what a path leads to, and of the directories above it,
into the host. -/
def pictureOf
    (path : String) :
    StateT Host IO Unit := do
  surroundings (Host.namesOf path).dropLast
  if let some metadata ← look path then
    picture path metadata

/-- Carries a change over. -/
def carry :
    Host.Change → IO Unit
  | .move source target => IO.FS.rename source target
  | .remove path => IO.FS.removeFile path
  | .removeDirectory path => IO.FS.removeDir path
  | .makeDirectory path => IO.FS.createDirAll path
  | .write path data => IO.FS.writeBinFile path ⟨data.toArray⟩

/-- Everything that a stream still holds. -/
partial def drain
    (stream : IO.FS.Stream)
    (taken : ByteArray) :
    IO ByteArray := do
  let piece ← stream.read 65536
  if piece.isEmpty then
    return taken
  else
    drain stream (taken ++ piece)

/-- What is answered at the terminal when something is asked there. -/
def askTerminal
    (prompt : String) :
    IO (Except Error String) := do
  try
    let terminal ← IO.FS.Handle.mk "/dev/tty" .readWrite
    terminal.putStr prompt
    terminal.flush
    return .ok ((← terminal.getLine).trimAsciiEnd.toString)
  catch _ =>
    return .error (.host (.os 6))

/-- The configuration at a path, if there is one that can be used. -/
def configAt?
    (path : String) :
    IO (Option Config) := do
  if (← look path).isSome then
    return (Config.load (.ok (← bytesOf path))).toOption
  else
    return none

/-- Runs a command that reaches the given files and directories, and carries
its changes over. -/
def runOn
    (reach : List String)
    (ask : String → Except Error String)
    (arguments : List String)
    (input : Bytes) :
    IO Command.Reply := do
  let home := (← IO.currentDir).toString
  let places := reach.map (Host.join home)
  let ((), before) ←
    StateT.run (do
        surroundings (Host.namesOf home)
        places.forM pictureOf)
      { Host.empty with home := Host.namesOf home }
  let seed ← IO.getRandomBytes 32
  let (reply, after) :=
    Command.main ask arguments input (.ofSeed seed.toList) before
  (places.flatMap (Host.changes before after)).eraseDups.forM carry
  return reply

/-- Runs the program on the file system of the machine. -/
def run
    (arguments : List String) :
    IO Command.Reply := do
  match Command.parse arguments with
  | .ok (.onPipeline path task) =>
    let config ← configAt? path
    let prompted := (config.map (·.asks)).getD false
    let answer ←
      if prompted then
        askTerminal Key.promptText
      else
        pure (.error (.host (.os 6)))
    let input ←
      if task.takesInput then
        pure (← drain (← IO.getStdin) .empty).toList
      else
        pure []
    let reach := path :: task.files ++ (config.map (·.places)).getD []
    runOn reach (fun _ => answer) arguments input
  | _ => runOn [] (fun _ => .error (.host (.os 6))) arguments []

end Strata.Program

/-- Runs the program with its arguments. -/
def main
    (arguments : List String) :
    IO UInt32 := do
  let reply ← Strata.Program.run arguments
  let output ← IO.getStdout
  output.write ⟨reply.output.toArray⟩
  output.flush
  reply.errors.forM fun line => IO.eprintln line
  return reply.code.toUInt32
