import Strata.Command.Help
import Strata.Config.Decoding
import Strata.Config.Encoding
import Strata.Host.Backend
import Strata.Pipeline.Latency

/-!
# Running commands

A command runs on the host from beginning to end: it reads the configuration,
assembles the pipeline, does its task and takes the pipeline down.  What was
printed before a failure stays printed.  A failure while the pipeline is taken
down is reported in preference to a failure of the task.
-/

namespace Strata

/-- The wording of an error, followed by the wording of the host error behind
it. -/
def Error.report
    (error : Error) :
    String :=
  match error.cause? with
  | some cause => error.message ++ ": " ++ cause.message
  | none => error.message

namespace Command

/-- What a command works with. -/
structure Desk where
  session : Pipeline.State Host
  /-- The bytes of the input. -/
  input : Bytes
  /-- What was printed, the latest first. -/
  printed : List Bytes := []

/-- A part of a command, which fails with a report. -/
abbrev Run :=
  ExceptT String (StateM Desk)

namespace Run

variable {α : Type}

/-- The part that is given by what it does to a session. -/
def ofSession
    (step : Pipeline.State Host → Except String α × Pipeline.State Host) :
    Run α :=
  ExceptT.mk fun desk =>
    match desk with
    | ⟨session, input, printed⟩ =>
      let (answer, session) := step session
      (answer, ⟨session, input, printed⟩)

/-- A request to a pipeline. -/
def request
    (action : Action (Pipeline.State Host) α) :
    Run α :=
  ofSession fun session =>
    let (answer, session) := action.execute session
    (answer.mapError Error.report, session)

/-- A step on the host; a context is put before the report of a failure. -/
def onHost
    (context : String)
    (action : HostAction α) :
    Run α :=
  ofSession fun session =>
    let lifted : Action Host α := Action.ofRun fun host =>
      let (answer, host) := action.execute host
      (answer.mapError .host, host)
    let (answer, session) :=
      (Session.onStorage (Fleet.onHost lifted)).execute session
    let report (error : Error) :=
      match error.cause? with
      | some cause => context ++ cause.message
      | none => context ++ error.message
    (answer.mapError report, session)

/-- The answer of a part, with its failure as a value. -/
def attempt
    (body : Run α) :
    Run (Except String α) :=
  ExceptT.mk fun desk =>
    let (answer, desk) := StateT.run (ExceptT.run body) desk
    (.ok answer, desk)

/-- Fails or goes on as a value says. -/
def ofExcept
    (value : Except String α) :
    Run α :=
  ExceptT.mk fun desk => (value, desk)

/-- Prints bytes. -/
def printBytes
    (bytes : Bytes) :
    Run Unit :=
  modify fun desk => { desk with printed := bytes :: desk.printed }

/-- Prints a line. -/
def print
    (line : String) :
    Run Unit :=
  printBytes (line ++ "\n").toUTF8.toList

end Run

/-! ## Tasks -/

/-- The bytes to write. -/
def contentOf
    (file text : Option String) :
    Run Bytes :=
  match file, text with
  | some file, _ =>
    Run.onHost ("cannot read " ++ file ++ ": ") (Host.readAll file)
  | none, some text => return text.toUTF8.toList
  | none, none => return (← get).input

/-- Writes to a file. -/
def write
    (pipeline : Pipeline Host)
    (path : String)
    (file text : Option String)
    (offset : Nat) :
    Run Unit := do
  let content ← contentOf file text
  let written ← Run.request (pipeline.writeRange path offset content)
  Run.print
    ("Wrote " ++ toString written ++ " bytes to " ++ path ++ " at offset " ++
      toString offset)
  if written < content.length then
    throw
      ("short write: " ++ toString written ++ " of " ++
        toString content.length ++ " bytes")

/-- Reads from a file. -/
def read
    (pipeline : Pipeline Host)
    (path : String)
    (offset : Nat)
    (length : Option Nat)
    (file : Option String) :
    Run Unit := do
  let data ← Run.request (pipeline.readRange path offset length)
  match file with
  | some file =>
    Run.onHost "" (Host.writeAll file data)
    Run.print ("Wrote " ++ toString data.length ++ " bytes to " ++ file)
  | none => Run.printBytes data

end Command

/-- The word for a kind of object. -/
def Kind.title :
    Kind → String
  | .file => "File"
  | .directory => "Directory"
  | .symlink => "Symlink"
  | .other => "Other"

/-- The letter for a kind of object in a listing. -/
def Kind.letter :
    Kind → String
  | .directory => "d"
  | .symlink => "l"
  | _ => "-"

namespace Command

/-- A number in base eight. -/
def octal
    (number : Nat) :
    String :=
  String.ofList (Nat.toDigits 8 number)

/-- The lines about an object. -/
def statLines
    (path : String)
    (attributes : Attributes) :
    List String :=
  ["Path:     " ++ path,
    "Type:     " ++ attributes.kind.title,
    "Size:     " ++ toString attributes.size ++ " bytes",
    "Mode:     " ++ octal (attributes.mode % 0o10000),
    "Links:    " ++ toString attributes.links,
    "Owner:    " ++ toString attributes.owner ++ ":" ++
      toString attributes.group,
    "Modified: " ++ toString attributes.modified]

/-- A text with blanks before it up to ten characters. -/
def padded
    (text : String) :
    String :=
  String.ofList (List.replicate (10 - text.length) ' ') ++ text

/-- The size of an entry as it is listed. -/
def listedSize
    (pipeline : Pipeline Host)
    (directory : String)
    (entry : Entry) :
    Run String :=
  if entry.kind = .file then do
    let path := directory ++ "/" ++ entry.name
    match ← Run.attempt (Run.request (pipeline.attributes path none)) with
    | .ok attributes => return toString attributes.size
    | .error _ => return "?"
  else
    return "-"

/-- Lists a directory. -/
def list
    (pipeline : Pipeline Host)
    (path : String) :
    Run Unit := do
  let handle ← Run.request (pipeline.openDirectory path)
  let entries ← Run.attempt (Run.request (pipeline.readDirectory path handle))
  Run.request (pipeline.releaseDirectory path handle)
  let entries ← Run.ofExcept entries
  if entries.isEmpty then
    Run.print "(empty)"
  else
    let directory := String.ofList
      (path.toList.reverse.dropWhile (· == '/')).reverse
    for entry in entries do
      let size ← listedSize pipeline directory entry
      Run.print (entry.kind.letter ++ " " ++ padded size ++ "  " ++ entry.name)

/-- Does a task. -/
def perform
    (pipeline : Pipeline Host) :
    Task → Run Unit
  | .write path file text offset => write pipeline path file text offset
  | .read path offset length file => read pipeline path offset length file
  | .stat path => do
    let attributes ← Run.request (pipeline.attributes path none)
    (statLines path attributes).forM Run.print
  | .truncate path size => do
    Run.request (pipeline.truncate path none size)
    Run.print ("Truncated " ++ path ++ " to " ++ toString size ++ " bytes")
  | .list path => list pipeline path
  | .makeDirectory path => do
    Run.request (pipeline.makeDirectory path 0o755)
    Run.print ("Created directory " ++ path)
  | .remove path => do
    Run.request (pipeline.unlink path)
    Run.print ("Deleted " ++ path)
  | .removeDirectory path => do
    Run.request (pipeline.removeDirectory path)
    Run.print ("Deleted directory " ++ path)
  | .move source target => do
    Run.request (pipeline.rename source target)
    Run.print ("Renamed " ++ source ++ " to " ++ target)

/-! ## Invocations -/

/-- Reads the configuration file. -/
def loadConfig
    (path : String) :
    Run Config :=
  Run.ofSession fun session =>
    let contents := ((Host.readAll path).execute session.storage.host).1
    ((Config.load contents).mapError
        fun fault => (fault.toError path).report,
      session)

/-- Assembles the pipeline of a configuration file. -/
def assemble
    (ask : String → Except Error String)
    (path : String)
    (config : Config) :
    Run (Pipeline Host) :=
  Run.ofSession fun session =>
    match session with
    | ⟨⟨coder, host⟩, registry, ticks, tape⟩ =>
      match (Pipeline.assemble Host.backend config ask).execute host with
      | (.error error, host) =>
        (.error
            ("cannot assemble pipeline from " ++ path ++ ": " ++ error.report),
          ⟨⟨coder, host⟩, registry, ticks, tape⟩)
      | (.ok (pipeline, coder, registry), host) =>
        (.ok pipeline, ⟨⟨coder, host⟩, registry, ticks, tape⟩)

/-- The configuration of a draft.  A mode that encrypts asks for a passphrase,
with a salt that is drawn for it. -/
def newConfig
    (draft : Draft) :
    Run Config := do
  let key ←
    if draft.cipher.encrypts then
      let salt ← Run.request (Session.draw 32)
      pure (some (KeyMaterial.prompt (Text.Hexadecimal.render salt)))
    else
      pure none
  let config := (Config.ofPaths draft.paths).withCipher draft.cipher key
  let devices :=
    { config.devices with
      mode := draft.coder
      erasure :=
        if draft.coder = .erasure then draft.shape else config.devices.erasure }
  return { config with blockSize := draft.blockSize, devices }

/-- Does what a command line asks for. -/
def invoke
    (ask : String → Except Error String) :
    Invocation → Run Unit
  | .newConfig draft => do
    let config ← newConfig draft
    Run.ofExcept (config.validate.mapError Error.report)
    Run.print config.toText
  | .onPipeline path task => do
    let config ← loadConfig path
    let pipeline ← assemble ask path config
    let answer ← Run.attempt (perform pipeline task)
    Run.request pipeline.shutdown
    Run.ofExcept answer

/-- What a run leaves behind besides the changes on the host. -/
structure Reply where
  code : Nat
  output : Bytes
  /-- The lines of the error output. -/
  errors : List String
  deriving DecidableEq, Repr

/-- The name and version of the program. -/
def versionText : String :=
  Help.program ++ " 0.1.0\n"

/-- Runs the program with its arguments and its input. -/
def main
    (ask : String → Except Error String)
    (arguments : List String)
    (input : Bytes)
    (tape : Tape)
    (host : Host) :
    Reply × Host :=
  let said (text : String) : Bytes := text.toUTF8.toList
  match parse arguments with
  | .error .version => (⟨0, said versionText, []⟩, host)
  | .error (.help command detailed) =>
    (⟨0, said (Help.text command detailed), []⟩, host)
  | .error (.usage fault) => (⟨2, [], ["error: " ++ fault.message]⟩, host)
  | .ok invocation =>
    let session : Pipeline.State Host :=
      { storage := { coder := .replicate, host }, tape }
    let (answer, desk) :=
      StateT.run (ExceptT.run (invoke ask invocation)) { session, input }
    let output := desk.printed.reverse.flatten
    let host := desk.session.storage.host
    match answer with
    | .ok () => (⟨0, output, []⟩, host)
    | .error report => (⟨1, output, ["Error: " ++ report]⟩, host)

end Command

end Strata
