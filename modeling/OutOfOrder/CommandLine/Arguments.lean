import OutOfOrder.Config
import OutOfOrder.Text.Numeral

/-!
# Command line arguments

Arguments are options and one operand, the program file.  An option may be shortened as long as it
stays unambiguous, and its value may follow it or be joined to it by an equals sign.  Behind two
dashes every argument is an operand.  An argument that looks like a negative number or holds a space
is an operand too.  Two dashes that are joined to an option stand for no value: the option is then
given without one.

All arguments are told apart first, so an ambiguous option is reported before any other takes
effect.  The options then take effect from left to right.
-/

namespace OutOfOrder.CommandLine

open Text

/-- An option without a value. -/
inductive Flag where
  | help
  | demoMemory
  | numericBranches
  | check
  | quiet
  | verbose
  | version
  deriving DecidableEq, Repr

/-- An option with a value. -/
inductive Field where
  | cycles
  | maxCycles
  | preset
  | register
  | poke
  | parameter (parameter : Parameter)
  deriving DecidableEq, Repr

inductive Switch where
  | flag (flag : Flag)
  | field (field : Field)
  deriving DecidableEq, Repr

def parameterSpelling (parameter : Parameter) : String :=
  "--" ++ parameter.name.map fun c => if c == '_' then '-' else c

/-- The spellings of the options, in the order in which they are listed. -/
def spellings : List (String × Switch) :=
  [("-h", .flag .help), ("--help", .flag .help), ("--cycles", .field .cycles),
    ("--max-cycles", .field .maxCycles), ("--preset", .field .preset),
    ("--set", .field .register), ("--poke", .field .poke),
    ("--demo-memory", .flag .demoMemory), ("--numeric-branches", .flag .numericBranches),
    ("--check", .flag .check), ("--quiet", .flag .quiet), ("--verbose", .flag .verbose),
    ("--version", .flag .version)] ++
  Parameter.all.map fun parameter => (parameterSpelling parameter, .field (.parameter parameter))

/-- All spellings of an option, as it is named in messages. -/
def Switch.title (switch : Switch) : String :=
  String.intercalate "/" ((spellings.filter (·.2 = switch)).map (·.1))

/-- Why arguments cannot be followed. -/
inductive ArgumentError where
  | ambiguous (argument : String) (candidates : List String)
  | valueMissing (switch : Switch)
  /-- An option without a value was given one. -/
  | valueIgnored (switch : Switch) (value : String)
  | notInteger (switch : Switch) (value : String)
  | notPreset (value : String)
  | programMissing
  | unrecognized (arguments : List String)

def ArgumentError.message : ArgumentError → String
  | .ambiguous argument candidates =>
    "ambiguous option: " ++ argument ++ " could match " ++ String.intercalate ", " candidates
  | .valueMissing switch => "argument " ++ switch.title ++ ": expected one argument"
  | .valueIgnored switch value =>
    "argument " ++ switch.title ++ ": ignored explicit argument " ++ quote value
  | .notInteger switch value =>
    "argument " ++ switch.title ++ ": invalid int value: " ++ quote value
  | .notPreset value =>
    "argument " ++ (Switch.field .preset).title ++ ": invalid choice: " ++ quote value ++
      " (choose from " ++
      String.intercalate ", " (registerPresets.map fun preset => quote preset.1) ++ ")"
  | .programMissing => "the following arguments are required: program"
  | .unrecognized arguments => "unrecognized arguments: " ++ String.intercalate " " arguments

inductive Token where
  | operand
  /-- The two dashes behind which all arguments are operands. -/
  | dashes
  /-- An option, and the value that is joined to it by an equals sign. -/
  | switch (switch : Switch) (value : Option String)
  /-- The short option for help with further letters behind it.  An equals sign between them and the
  option does not count. -/
  | cluster (letters : List Char)
  /-- An option that there is not. -/
  | unknown

/-- Decimal digits, one at least. -/
def areDigits (text : List Char) : Bool :=
  !text.isEmpty && text.all isDigit

/-- The text behind a dash is a number.  A line break may follow it. -/
def isUnsignedNumber (text : List Char) : Bool :=
  let text := if text.getLast? = some '\n' then text.dropLast else text
  areDigits text || areDigits ((text.dropWhile isDigit).drop 1) &&
    (text.dropWhile isDigit).head? = some '.'

/-- The part of an argument before the first equals sign, and the part behind it if there is one. -/
def splitJoined (argument : List Char) : List Char × Option (List Char) :=
  let name := argument.takeWhile (· != '=')
  (name, if argument.contains '=' then some (argument.drop (name.length + 1)) else none)

/-- What an argument is that begins with a dash but is no option as it stands. -/
def classifyShortened (argument : List Char) : Except ArgumentError Token :=
  let (name, joined) := splitJoined argument
  let value := joined.map String.ofList
  match joined, spellings.lookup (String.ofList name) with
  | some letters, some switch =>
    .ok (if name = ['-', 'h'] then .cluster letters else .switch switch value)
  | _, _ =>
    let candidates :=
      if name.take 2 == ['-', '-'] then
        spellings.filter fun spelling => name.isPrefixOf spelling.1.toList
      else []
    match candidates with
    | [(_, switch)] => .ok (.switch switch value)
    | _ :: _ :: _ =>
      .error (.ambiguous (String.ofList argument) (candidates.map (·.1)))
    | [] =>
      if argument.take 2 == ['-', 'h'] then .ok (.cluster (argument.drop 2))
      else if isUnsignedNumber (argument.drop 1) || argument.contains ' ' then .ok .operand
      else .ok .unknown

/-- What an argument before the two dashes is. -/
def classify (argument : String) : Except ArgumentError Token :=
  match argument.toList, spellings.lookup argument with
  | _, some switch => .ok (.switch switch none)
  | '-' :: c :: rest, none => classifyShortened ('-' :: c :: rest)
  | _, none => .ok .operand

def tokens : List String → Except ArgumentError (List (String × Token))
  | [] => .ok []
  | "--" :: rest => .ok (("--", .dashes) :: rest.map (·, .operand))
  | argument :: rest => do
    let token ← classify argument
    let rest ← tokens rest
    return (argument, token) :: rest

/-- What the arguments ask for.  An option that is given without a value has `none` in the place of
the value. -/
structure Arguments where
  program : String := ""
  /-- The number of cycles to run, if there is one. -/
  cycles : Option (Option Int) := none
  maxCycles : Option Int := some 10000
  preset : List (String × Int) := []
  registers : List (Option String) := []
  pokes : List (Option String) := []
  demoMemory : Bool := false
  numericBranches : Bool := false
  check : Bool := false
  quiet : Bool := false
  verbose : Bool := false
  settings : Settings := Settings.standard

/-- Why the program ends before it begins. -/
inductive Stop where
  | refused (error : ArgumentError)
  | help
  | version

def Arguments.withFlag (arguments : Arguments) : Flag → Except Stop Arguments
  | .help => .error .help
  | .version => .error .version
  | .demoMemory => .ok { arguments with demoMemory := true }
  | .numericBranches => .ok { arguments with numericBranches := true }
  | .check => .ok { arguments with check := true }
  | .quiet => .ok { arguments with quiet := true }
  | .verbose => .ok { arguments with verbose := true }

/-- The value that the text behind an option stands for, if any. -/
def givenValue (text : String) : Option String :=
  if text = "--" then none else some text

def integerValue (field : Field) (value : String) : Except Stop Int :=
  (Numeral.decimal value.toList).mapError fun _ => .refused (.notInteger (.field field) value)

def Arguments.withField (arguments : Arguments) (field : Field) (value : Option String) :
    Except Stop Arguments :=
  match field with
  | .cycles => do
    let cycles ← value.mapM (integerValue field)
    return { arguments with cycles := some cycles }
  | .maxCycles => do
    let maxCycles ← value.mapM (integerValue field)
    return { arguments with maxCycles }
  | .preset =>
    match value with
    | none => .ok { arguments with preset := [] }
    | some name =>
      match registerPresets.lookup name with
      | some preset => .ok { arguments with preset }
      | none => .error (.refused (.notPreset name))
  | .register => .ok { arguments with registers := arguments.registers ++ [value] }
  | .poke => .ok { arguments with pokes := arguments.pokes ++ [value] }
  | .parameter parameter => do
    let number ← value.mapM (integerValue field)
    let setting := (number.map Setting.integer).getD .nothing
    return { arguments with settings := arguments.settings.set parameter setting }

/-- What letters behind the short option for help come to.  Each has to be the letter of an
option again. -/
def stopOfCluster : List Char → Stop
  | ['h'] => .help
  | 'h' :: letters => stopOfCluster letters
  | letters => .refused (.valueIgnored (.flag .help) (String.ofList letters))

/-- Follows the arguments from left to right: what they ask for, the program file, and those that
are left over.  Two dashes directly behind the program file belong to it. -/
def follow (arguments : Arguments) (program : Option String) :
    List (String × Token) → Except Stop (Arguments × Option String × List String)
  | [] => .ok (arguments, program, [])
  | (argument, .operand) :: rest =>
    match program, rest with
    | none, (_, .dashes) :: rest => follow arguments (some argument) rest
    | none, rest => follow arguments (some argument) rest
    | some program, rest => do
      let (arguments, program, extras) ← follow arguments (some program) rest
      return (arguments, program, argument :: extras)
  | (argument, .dashes) :: rest =>
    match program, rest with
    | none, (operand, .operand) :: rest => follow arguments (some operand) rest
    | program, rest => do
      let (arguments, program, extras) ← follow arguments program rest
      return (arguments, program, argument :: extras)
  | (_, .switch (.flag flag) none) :: rest => do
    let arguments ← arguments.withFlag flag
    follow arguments program rest
  | (_, .switch (.flag flag) (some value)) :: _ =>
    .error (.refused (.valueIgnored (.flag flag) value))
  | (_, .switch (.field field) (some value)) :: rest => do
    let arguments ← arguments.withField field (givenValue value)
    follow arguments program rest
  | (_, .switch (.field field) none) :: (value, .operand) :: rest => do
    let arguments ← arguments.withField field (some value)
    follow arguments program rest
  | (_, .switch (.field field) none) :: _ => .error (.refused (.valueMissing (.field field)))
  | (_, .cluster letters) :: _ => .error (stopOfCluster letters)
  | (argument, .unknown) :: rest => do
    let (arguments, program, extras) ← follow arguments program rest
    return (arguments, program, argument :: extras)

def Arguments.parse (arguments : List String) : Except Stop Arguments := do
  let tokens ← (tokens arguments).mapError .refused
  let (arguments, program, extras) ← follow {} none tokens
  match program, extras with
  | none, _ => .error (.refused .programMissing)
  | some program, [] => return { arguments with program }
  | some _, extras => .error (.refused (.unrecognized extras))

end OutOfOrder.CommandLine
