import Strata.Command.Grammar
import Strata.Config

/-!
# Invocations

What a command line asks for: a configuration file and what to do with the
pipeline that it describes, or a new configuration.
-/

namespace Strata.Command

/-- The device directories and modes of a new configuration. -/
structure Draft where
  paths : List String
  coder : CoderMode
  cipher : CipherMode
  blockSize : Nat
  shape : ErasureShape
  deriving DecidableEq, Repr

/-- What to do with a pipeline. -/
inductive Task where
  /-- Write a file from another file, from a text, or from the input. -/
  | write (path : String) (file text : Option String) (offset : Nat)
  /-- Read a file into another file, or to the output. -/
  | read (path : String) (offset : Nat) (length : Option Nat)
      (file : Option String)
  | stat (path : String)
  | truncate (path : String) (size : Nat)
  | list (path : String)
  | makeDirectory (path : String)
  | remove (path : String)
  | removeDirectory (path : String)
  | move (source target : String)
  deriving DecidableEq, Repr

namespace Task

/-- The files outside of the pipeline that a task reads or makes. -/
def files :
    Task → List String
  | .write _ file _ _ => file.toList
  | .read _ _ _ file => file.toList
  | _ => []

/-- Whether a task takes the input. -/
def takesInput :
    Task → Bool
  | .write _ none none _ => true
  | _ => false

end Task

/-- What a command line asks for. -/
inductive Invocation where
  | onPipeline (config : String) (task : Task)
  | newConfig (draft : Draft)
  deriving DecidableEq, Repr

/-- A natural number of 64 bits, which may begin with a plus sign. -/
def natural?
    (text : String) :
    Option Nat :=
  let digits :=
    match text.toList with
    | '+' :: digits => digits
    | digits => digits
  if digits.isEmpty || !digits.all Char.isDigit then
    none
  else
    let number := digits.foldl
      (fun number digit => number * 10 + (digit.toNat - '0'.toNat)) 0
    if number < Nat.pow 2 64 then some number else none

/-- Whether a text is a natural number of 64 bits. -/
def isNatural
    (text : String) :
    Bool :=
  (natural? text).isSome

/-- Whether a text can be the path of a file. -/
def isFilePath
    (text : String) :
    Bool :=
  text != ""

/-- The names of the coders. -/
def coderNames : List (String × CoderMode) :=
  [("replicate", .replicate), ("xor", .xor), ("erasure", .erasure)]

/-- The names of the cipher modes. -/
def cipherNames : List (String × CipherMode) :=
  [("null", .null), ("null-padded", .nullPadded),
    ("deterministic", .deterministic), ("random-iv", .randomIv)]

/-- The configuration file that is used when none is named. -/
def defaultConfig : String := "layerfs.json"

/-- The remark about a default. -/
def defaultRemark
    (text : String) :
    String :=
  "[default: " ++ text ++ "]"

/-- The options that every command takes before its own ones. -/
def sharedOptions : List OptionRule :=
  [{ name := "config", letter := some 'c'
     effect := .value isFilePath false, valueName := "CONFIG"
     about := "Pipeline configuration (JSON)"
     remarks := defaultRemark defaultConfig },
    { name := "verbose", letter := some 'v', effect := .count
      about := "Increase log verbosity (-v info, -vv debug, -vvv trace)" }]

/-- The option that asks for the help. -/
def helpOption : OptionRule :=
  { name := "help", letter := some 'h', effect := .help
    about := "Print help" }

/-- The option that asks for the version. -/
def versionOption : OptionRule :=
  { name := "version", letter := some 'V', effect := .version
    about := "Print version" }

/-- The grammar up to the name of a command. -/
def topGrammar : Grammar where
  options := sharedOptions ++ [helpOption, versionOption]
  operands := none

/-- The grammar of a command. -/
def grammarOf
    (command : String)
    (options : List OptionRule)
    (operands : List OperandRule) :
    Grammar where
  command := some command
  options := sharedOptions ++ options ++ [helpOption]
  operands := some operands

/-- An option that takes a natural number. -/
def naturalOption
    (name valueName about : String) :
    OptionRule :=
  { name, effect := .value isNatural false, valueName, about }

/-- An option that takes a natural number, with its default. -/
def defaultedOption
    (name valueName about : String)
    (otherwise : Nat) :
    OptionRule :=
  { naturalOption name valueName about with
    remarks := defaultRemark (toString otherwise) }

/-- An option that takes a path of a file. -/
def fileOption
    (name valueName about : String) :
    OptionRule :=
  { name, effect := .value isFilePath false, valueName, about }

/-- An option that takes one of some names, the first one by default. -/
def nameOption
    {α : Type}
    (name valueName : String)
    (names : List (String × α)) :
    OptionRule :=
  { name, valueName
    effect := .value (fun text => (names.lookup text).isSome) false
    remarks :=
      defaultRemark ((names.map (·.1)).headD "") ++ " [possible values: " ++
        String.intercalate ", " (names.map (·.1)) ++ "]" }

/-- The natural number that an option gives. -/
def Given.natural
    (given : Given)
    (name : String)
    (otherwise : Nat) :
    Nat :=
  ((given.value? name).bind natural?).getD otherwise

/-- What an option names. -/
def Given.named
    {α : Type}
    (given : Given)
    (name : String)
    (names : List (String × α)) :
    Option α :=
  (given.value? name).bind fun text => names.lookup text

/-- The operand at a position. -/
def Given.operand
    (given : Given)
    (position : Nat) :
    String :=
  given.operands.getD position ""

/-- Refuses options that exclude each other. -/
def Given.exclude
    (given : Given)
    (first second : String) :
    Except Stop Unit :=
  if given.has first && given.has second then
    .error (.usage (.conflict first second))
  else
    .ok ()

/-- A command: what it does, its grammar, and what it asks for. -/
structure Rule where
  about : String
  grammar : Grammar
  invocation : (config : String) → Given → Except Stop Invocation

/-- A command that works on a pipeline. -/
def taskRule
    (name about : String)
    (options : List OptionRule)
    (operands : List OperandRule)
    (task : Given → Except Stop Task) :
    String × Rule :=
  (name,
    { about
      grammar := grammarOf name options operands
      invocation := fun config given =>
        (task given).map (Invocation.onPipeline config) })

/-- The operand of most commands. -/
def pathOperand
    (about : String) :
    OperandRule :=
  { name := "path", about }

/-- The command that prints a new configuration. -/
def newConfigRule : Rule where
  about := "Print a configuration for the given devices"
  grammar :=
    grammarOf "init-config"
      [{ name := "device", effect := .value isFilePath true, required := true
         valueName := "DEVICES"
         about := "Device root directory (repeat per device)" },
        nameOption "coder" "CODER" coderNames,
        nameOption "cipher" "CIPHER" cipherNames,
        defaultedOption "block-size" "BLOCK_SIZE" "Block size in bytes" 4096,
        defaultedOption "k" "K" "Erasure data shards" 2,
        defaultedOption "m" "M" "Erasure parity shards" 1]
      []
  invocation _ given :=
    .ok <| .newConfig
      { paths := given.values "device"
        coder := (given.named "coder" coderNames).getD .replicate
        cipher := (given.named "cipher" cipherNames).getD .null
        blockSize := given.natural "block-size" 4096
        shape :=
          { data := given.natural "k" 2
            parity := given.natural "m" 1 } }

/-- The commands and their names. -/
def rules : List (String × Rule) :=
  [taskRule "write" "Write data into a file, creating it if needed"
      [fileOption "input" "INPUT" "Input file to write",
        { name := "data", effect := .value (fun _ => true) false
          valueName := "DATA", about := "String data to write" },
        defaultedOption "offset" "OFFSET" "Byte offset to write at" 0]
      [pathOperand "Pipeline path of the file"]
      fun given => do
        given.exclude "input" "data"
        return .write (given.operand 0) (given.value? "input")
          (given.value? "data") (given.natural "offset" 0),
    taskRule "read" "Read a file"
      [defaultedOption "offset" "OFFSET" "Byte offset to read from" 0,
        naturalOption "size" "SIZE" "Bytes to read (default: to end of file)",
        fileOption "output" "OUTPUT" "Output file (default: stdout)"]
      [pathOperand "Pipeline path of the file"]
      fun given =>
        return .read (given.operand 0) (given.natural "offset" 0)
          ((given.value? "size").bind natural?) (given.value? "output"),
    taskRule "stat" "Show attributes of a path" [] [pathOperand ""]
      fun given => return .stat (given.operand 0),
    taskRule "truncate" "Set the size of a file" []
      [pathOperand "", { name := "size", accepts := isNatural }]
      fun given =>
        return .truncate (given.operand 0)
          ((natural? (given.operand 1)).getD 0),
    taskRule "ls" "List directory contents" []
      [{ name := "path", required := false
         about := "Directory to list (default: /)"
         remarks := defaultRemark "/" }]
      fun given => return .list (given.operands.headD "/"),
    taskRule "mkdir" "Create a directory" [] [pathOperand ""]
      fun given => return .makeDirectory (given.operand 0),
    taskRule "rm" "Delete a file" [] [pathOperand ""]
      fun given => return .remove (given.operand 0),
    taskRule "rmdir" "Delete an empty directory" [] [pathOperand ""]
      fun given => return .removeDirectory (given.operand 0),
    taskRule "mv" "Rename a file or directory" []
      [{ name := "from" }, { name := "to" }]
      fun given => return .move (given.operand 0) (given.operand 1),
    ("init-config", newConfigRule)]

/-- The command that explains the others. -/
def helpCommand
    (arguments : List String) :
    Except Stop Invocation :=
  match arguments with
  | [] => .error (.help none true)
  | [name] =>
    if name = "help" ∨ (rules.lookup name).isSome then
      .error (.help (some name) true)
    else
      .error (.usage (.unknownCommand name))
  | _ :: extra :: _ => .error (.usage (.unknownCommand extra))

/-- Reads a command line. -/
def parse
    (arguments : List String) :
    Except Stop Invocation := do
  let top ← topGrammar.parse arguments
  match top.command with
  | none => throw (.usage .noCommand)
  | some ("help", rest) => helpCommand rest
  | some (name, rest) =>
    match rules.lookup name with
    | none => throw (.usage (.unknownCommand name))
    | some rule => do
      let given ← rule.grammar.parse rest
      let config :=
        ((given.value? "config").or (top.value? "config")).getD defaultConfig
      rule.invocation config given

end Strata.Command
