import Strata.Text.Pieces

/-!
# Grammars of command lines

A command line is a list of arguments.  An argument that starts with a dash
gives options, with one dash by their letters and with two by a name; two
dashes alone end the options.  What is no option is an operand.  The value of
an option is joined to it or is the next argument, which then must not start
with a dash.
-/

namespace Strata.Command

/-- Why a command line cannot be used. -/
inductive UsageFault where
  | unknownCommand (name : String)
  | noCommand
  | unexpected (argument : String)
  | valueMissing (option : String)
  | valueUnexpected (option : String)
  | valueInvalid (name value : String)
  | repeated (option : String)
  | missing (name : String)
  | conflict (first second : String)
  deriving DecidableEq, Repr

/-- The wording of a usage fault. -/
def UsageFault.message :
    UsageFault → String
  | .unknownCommand name => "unrecognized subcommand '" ++ name ++ "'"
  | .noCommand => "a subcommand is required"
  | .unexpected argument => "unexpected argument '" ++ argument ++ "' found"
  | .valueMissing option => "a value is required for '" ++ option ++ "'"
  | .valueUnexpected option => "'" ++ option ++ "' takes no value"
  | .valueInvalid name value =>
    "invalid value '" ++ value ++ "' for '" ++ name ++ "'"
  | .repeated option => "'" ++ option ++ "' cannot be used multiple times"
  | .missing name => "'" ++ name ++ "' is required"
  | .conflict first second =>
    "'" ++ first ++ "' cannot be used with '" ++ second ++ "'"

/-- What ends the reading of a command line before its end. -/
inductive Stop where
  | usage (fault : UsageFault)
  /-- The help is asked for, about one command or about all, shortly or at
  length. -/
  | help (command : Option String) (detailed : Bool)
  | version
  deriving DecidableEq, Repr

/-- What an option does. -/
inductive Effect where
  /-- It is counted. -/
  | count
  /-- It takes a value, once or as often as it is given. -/
  | value (accepts : String → Bool) (repeats : Bool)
  | help
  | version

/-- An option, known by its name and perhaps by a letter. -/
structure OptionRule where
  name : String
  letter : Option Char := none
  effect : Effect
  required : Bool := false
  /-- What the value is called. -/
  valueName : String := ""
  about : String := ""
  /-- What is said about the default and the choices. -/
  remarks : String := ""

/-- An operand. -/
structure OperandRule where
  name : String
  accepts : String → Bool := fun _ => true
  required : Bool := true
  about : String := ""
  remarks : String := ""

/-- What a command takes.  Without rules for operands the first operand is the
name of a command. -/
structure Grammar where
  /-- The name of the command; the grammar up to that name has none. -/
  command : Option String := none
  options : List OptionRule
  operands : Option (List OperandRule)

/-- What a command line gives. -/
structure Given where
  /-- The options in reverse order, with their values. -/
  options : List (String × String) := []
  operands : List String := []
  /-- The name of a command and the arguments behind it. -/
  command : Option (String × List String) := none
  deriving DecidableEq, Repr

namespace Given

/-- The last value of an option. -/
def value?
    (given : Given)
    (name : String) :
    Option String :=
  given.options.lookup name

/-- All values of an option in their order. -/
def values
    (given : Given)
    (name : String) :
    List String :=
  ((given.options.filter (·.1 == name)).map (·.2)).reverse

/-- Whether an option is given. -/
def has
    (given : Given)
    (name : String) :
    Bool :=
  (given.value? name).isSome

end Given

/-- Whether an argument gives options. -/
def isOption
    (argument : String) :
    Bool :=
  match argument.toList with
  | '-' :: _ :: _ => true
  | _ => false

namespace Grammar

variable (grammar : Grammar)

/-- Takes an option, with the value that is joined to it and the arguments
behind it; gives the arguments that are left. -/
def takeOption
    (given : Given)
    (rule : OptionRule)
    (named : Bool)
    (joined : Option String)
    (arguments : List String) :
    Except Stop (Given × List String) :=
  match rule.effect with
  | .help => .error (.help grammar.command named)
  | .version => .error .version
  | .count =>
    .ok ({ given with options := (rule.name, "") :: given.options }, arguments)
  | .value accepts repeats =>
    let found : Option (String × List String) :=
      match joined, arguments with
      | some value, _ => some (value, arguments)
      | none, value :: rest =>
        if isOption value then none else some (value, rest)
      | none, [] => none
    match found with
    | none => .error (.usage (.valueMissing rule.name))
    | some (value, rest) =>
      if !accepts value then
        .error (.usage (.valueInvalid rule.name value))
      else if given.has rule.name && !repeats then
        .error (.usage (.repeated rule.name))
      else
        .ok ({ given with options := (rule.name, value) :: given.options },
          rest)

/-- Whether an option takes a value. -/
def takesValue
    (rule : OptionRule) :
    Bool :=
  match rule.effect with
  | .value _ _ => true
  | _ => false

/-- Takes an option that is given by its name. -/
def takeNamed
    (given : Given)
    (argument : List Char)
    (arguments : List String) :
    Except Stop (Given × List String) :=
  let name := String.ofList (argument.takeWhile (· != '='))
  let joined :=
    match argument.dropWhile (· != '=') with
    | _ :: value => some (String.ofList value)
    | [] => none
  match grammar.options.find? (·.name == name) with
  | none => .error (.usage (.unexpected ("--" ++ name)))
  | some rule =>
    if joined.isSome && !takesValue rule then
      .error (.usage (.valueUnexpected name))
    else
      grammar.takeOption given rule true joined arguments

/-- Takes options that are given by their letters.  The value of the last one
may be joined to it, with an equals sign or without. -/
def takeLetters
    (given : Given) :
    List Char → List String → Except Stop (Given × List String)
  | [], arguments => .ok (given, arguments)
  | letter :: letters, arguments =>
    match grammar.options.find? (·.letter == some letter) with
    | none => .error (.usage (.unexpected ("-" ++ String.ofList [letter])))
    | some rule =>
      if takesValue rule then
        let joined :=
          match letters with
          | [] => none
          | '=' :: value => some (String.ofList value)
          | value => some (String.ofList value)
        grammar.takeOption given rule false joined arguments
      else do
        let (given, arguments) ←
          grammar.takeOption given rule false none arguments
        takeLetters given letters arguments

/-- Takes an operand that is no name of a command. -/
def takeOperand
    (given : Given)
    (operand : String) :
    Except Stop Given :=
  match (grammar.operands.getD [])[given.operands.length]? with
  | none => .error (.usage (.unexpected operand))
  | some rule =>
    if rule.accepts operand then
      .ok { given with operands := given.operands ++ [operand] }
    else
      .error (.usage (.valueInvalid rule.name operand))

/-- Takes all arguments as operands. -/
def takeOperands
    (given : Given) :
    List String → Except Stop Given
  | [] => .ok given
  | operand :: rest => do
    let given ← grammar.takeOperand given operand
    takeOperands given rest

/-- Takes arguments up to the end, or up to the name of a command. -/
def scan :
    (fuel : Nat) → Given → List String → Except Stop Given
  | 0, given, _ => .ok given
  | _, given, [] => .ok given
  | fuel + 1, given, argument :: rest =>
    match argument.toList with
    | ['-', '-'] => grammar.takeOperands given rest
    | '-' :: '-' :: name => do
      let (given, rest) ← grammar.takeNamed given name rest
      scan fuel given rest
    | '-' :: letter :: letters => do
      let (given, rest) ← grammar.takeLetters given (letter :: letters) rest
      scan fuel given rest
    | _ =>
      if grammar.operands.isNone then
        .ok { given with command := some (argument, rest) }
      else do
        let given ← grammar.takeOperand given argument
        scan fuel given rest

/-- The name of the first operand that is required and not given. -/
def missingOperand?
    (given : Given) :
    Option String :=
  (((grammar.operands.getD []).drop given.operands.length).find?
    (·.required)).map (·.name)

/-- The name of the first option that is required and not given. -/
def missingOption?
    (given : Given) :
    Option String :=
  (grammar.options.find? fun rule =>
    rule.required && !given.has rule.name).map (·.name)

/-- Takes the arguments of a command. -/
def parse
    (arguments : List String) :
    Except Stop Given := do
  let given ← grammar.scan arguments.length {} arguments
  match (grammar.missingOperand? given).or (grammar.missingOption? given) with
  | some name => throw (.usage (.missing name))
  | none => return given

end Grammar

end Strata.Command
