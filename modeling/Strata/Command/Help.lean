import Strata.Command.Invocation

/-!
# Help

The help about the program or about one of its commands: what it does, how it
is called, and a table each of commands, operands and options.  A table puts
the explanations into one column.  In the detailed help of the program every
explanation of an option stands on lines of its own.
-/

namespace Strata.Command.Help

/-- The name of the program. -/
def program : String := "layerfs"

/-- What the program does, in one line. -/
def summary : String :=
  "Stackable filesystem pipeline with block ciphers and multi-device coding"

/-- What the program does, at length. -/
def description : String :=
  "Runs filesystem calls through a block aligner, a per-block cipher and a " ++
    "replicating, XOR or erasure coding device stage."

/-- What the command `help` does. -/
def helpSummary : String :=
  "Print this message or the help of the given subcommand(s)"

/-- A line of a table: what is explained, its explanation, and remarks. -/
structure Row where
  subject : String
  about : String
  remarks : String := ""
  deriving DecidableEq, Repr

namespace Row

/-- The explanation and the remarks with something between them. -/
def explanation
    (row : Row)
    (between : String) :
    String :=
  if row.about = "" ∨ row.remarks = "" then
    row.about ++ row.remarks
  else
    row.about ++ between ++ row.remarks

end Row

/-- So many blanks. -/
def blanks
    (count : Nat) :
    String :=
  String.ofList (List.replicate count ' ')

/-- A table with the explanations in one column. -/
def table
    (title : String)
    (rows : List Row) :
    String :=
  let width := (rows.map (·.subject.length)).foldl max 0
  let line (row : Row) :=
    "  " ++ row.subject ++ blanks (width - row.subject.length + 2) ++
      row.explanation " "
  String.intercalate "\n" ((title ++ ":") :: rows.map line)

/-- A table with the explanations on lines of their own. -/
def spaciousTable
    (title : String)
    (rows : List Row) :
    String :=
  let indent := "\n" ++ blanks 10
  let entry (row : Row) :=
    "  " ++ row.subject ++ indent ++ row.explanation (indent ++ indent)
  title ++ ":\n" ++ String.intercalate "\n\n" (rows.map entry)

/-- How an option is written. -/
def spelling
    (rule : OptionRule) :
    String :=
  let letter :=
    match rule.letter with
    | some letter => "-" ++ String.ofList [letter] ++ ", "
    | none => "    "
  let value :=
    match rule.effect with
    | .value _ _ => " <" ++ rule.valueName ++ ">"
    | .count => "..."
    | _ => ""
  letter ++ "--" ++ rule.name ++ value

/-- The text that orders options of one rank. -/
def orderKey
    (rule : OptionRule) :
    String :=
  match rule.letter with
  | some letter =>
    String.ofList [letter.toLower, if letter.isLower then '0' else '1']
  | none => rule.name

/-- Options in the order of the help.  An option of the command and an option
that every command takes have equal ranks if they are equally far from the
first of their kind; the help and the version come last. -/
def ordered
    (options : List OptionRule) :
    List OptionRule :=
  let count := sharedOptions.length
  let rank (rule : OptionRule) (index : Nat) :=
    match rule.effect with
    | .help | .version => options.length
    | _ => if index < count then index else index - count
  let ranked := options.zipIdx.map fun (rule, index) => (rule, rank rule index)
  let before (left right : OptionRule × Nat) :=
    left.2 < right.2 ∨
      left.2 = right.2 ∧ orderKey left.1 ≤ orderKey right.1
  (ranked.mergeSort fun left right => decide (before left right)).map (·.1)

/-- How an operand is written. -/
def operandSpelling
    (rule : OperandRule) :
    String :=
  let name := String.ofList (rule.name.toList.map Char.toUpper)
  if rule.required then "<" ++ name ++ ">" else "[" ++ name ++ "]"

/-- The rows of options. -/
def optionRows
    (options : List OptionRule) :
    List Row :=
  (ordered options).map fun rule =>
    { subject := spelling rule, about := rule.about, remarks := rule.remarks }

/-- The rows of operands. -/
def operandRows
    (operands : List OperandRule) :
    List Row :=
  operands.map fun rule =>
    { subject := operandSpelling rule
      about := rule.about
      remarks := rule.remarks }

/-- The rows of commands. -/
def commandRows : List Row :=
  (rules.map fun (name, rule) => { subject := name, about := rule.about }) ++
    [{ subject := "help", about := helpSummary }]

/-- How something is called. -/
def usage
    (words : List String) :
    String :=
  "Usage: " ++ String.intercalate " " (program :: words)

/-- Parts with an empty line between them, and a line end. -/
def page
    (parts : List String) :
    String :=
  String.intercalate "\n\n" parts ++ "\n"

/-- The help about the program. -/
def ofProgram
    (detailed : Bool) :
    String :=
  let remark :=
    if detailed then
      " (see a summary with '-h')"
    else
      " (see more with '--help')"
  let explain (row : Row) :=
    if row.about = helpOption.about then
      { row with about := row.about ++ remark }
    else
      row
  let options := (optionRows topGrammar.options).map explain
  page
    [if detailed then description else summary,
      usage ["[OPTIONS]", "<COMMAND>"],
      table "Commands" commandRows,
      if detailed then
        spaciousTable "Options" options
      else
        table "Options" options]

/-- The help about a command. -/
def ofRule
    (name : String)
    (rule : Rule) :
    String :=
  let operands := rule.grammar.operands.getD []
  let needed := (rule.grammar.options.filter (·.required)).map fun option =>
    "--" ++ option.name ++ " <" ++ option.valueName ++ ">"
  page
    ([rule.about,
        usage
          (name :: "[OPTIONS]" :: needed ++ operands.map operandSpelling)] ++
      (if operands.isEmpty then
        []
      else
        [table "Arguments" (operandRows operands)]) ++
      [table "Options" (optionRows rule.grammar.options)])

/-- The help about the command that gives help. -/
def ofHelp : String :=
  page
    [helpSummary,
      usage ["help", "[COMMAND]..."],
      table "Arguments"
        [{ subject := "[COMMAND]..."
           about := "Print help for the subcommand(s)" }]]

/-- The help that a command line asks for. -/
def text
    (command : Option String)
    (detailed : Bool) :
    String :=
  match command with
  | none => ofProgram detailed
  | some name =>
    match rules.lookup name with
    | some rule => ofRule name rule
    | none => ofHelp

end Strata.Command.Help
