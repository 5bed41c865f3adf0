import ProtoSchema.Text.Digit
import ProtoSchema.Text.Quoted

/-!
# The arguments of the command line

The arguments are one file and options in any order. A long option can be cut short as long as one
option alone begins that way, and its value can follow after an equals sign. Short options can be
written together, and the value of the last one can be attached to it; an equals sign between the
first and the second of them is skipped. A value that begins with a dash has to be attached, and an
attached value of two dashes stands for an empty list. Negative numbers and arguments with a blank
are no options. After two dashes no argument is an option.

Every argument is first told apart: an ambiguous option is reported before anything else. Then the
arguments are taken from left to right. Options that only print end this at once. What is left over
is reported at the end, after a missing file.
-/

namespace ProtoSchema.CommandLine

/-- The options. -/
inductive Flag where
  /-- Print the help. -/
  | help
  /-- The name of the model. -/
  | model
  /-- The package of the document. -/
  | package
  /-- The name of the root message. -/
  | rootMessage
  /-- The text in front of every generated name. -/
  | typeLead
  /-- Qualified names. -/
  | qualifyNames
  /-- The file to write to. -/
  | output
  /-- All of the log. -/
  | verbose
  /-- Print the version. -/
  | version
  deriving DecidableEq

namespace Flag

/-- The spellings of the options, in the order in which they are declared. -/
def spellings : List (String × Flag) :=
  [("-h", .help), ("--help", .help), ("--model", .model), ("--package", .package),
   ("--root-message", .rootMessage), ("--type-prefix", .typeLead),
   ("--qualify-names", .qualifyNames), ("-o", .output), ("--output", .output),
   ("-v", .verbose), ("--verbose", .verbose), ("--version", .version)]

/-- Whether the option has a value. -/
def takesValue : Flag → Bool
  | .model => true
  | .package => true
  | .rootMessage => true
  | .typeLead => true
  | .output => true
  | _ => false

/-- All spellings of the option. -/
def display (flag : Flag) : String :=
  "/".intercalate ((spellings.filter (·.2 = flag)).map (·.1))

end Flag

/-- The value of an option. -/
inductive OptionValue where
  /-- A text. -/
  | text (content : String)
  /-- The empty list of values. -/
  | emptyList
  deriving DecidableEq

namespace OptionValue

/-- The value that a text gives: two dashes give the empty list. -/
def ofText (content : String) : OptionValue :=
  if content = "--" then .emptyList else .text content

/-- How the value is written. -/
def shown : OptionValue → String
  | .text content => content
  | .emptyList => "[]"

/-- The text of the value; the empty list is no text. -/
def content : OptionValue → String
  | .text content => content
  | .emptyList => ""

end OptionValue

/-- The arguments of a compilation. -/
structure Arguments where
  /-- The file that defines the models. -/
  file : String
  /-- The name of the model. -/
  model : Option OptionValue := none
  /-- The package of the document. -/
  package : OptionValue := .text "default"
  /-- The name of the root message. -/
  rootMessage : OptionValue := .text "Message"
  /-- The text in front of every generated name. -/
  typeLead : OptionValue := .text ""
  /-- Whether names are qualified. -/
  qualifyNames : Bool := false
  /-- The file to write to. -/
  output : Option OptionValue := none
  /-- Whether all of the log is shown. -/
  verbose : Bool := false

/-- Why the arguments make no sense. -/
inductive ArgumentError where
  /-- An option cut short that could be one of several. -/
  | ambiguous (argument : String) (candidates : List String)
  /-- An option without its value. -/
  | missingValue (flag : Flag)
  /-- A value for an option that has none. -/
  | needlessValue (flag : Flag) (value : String)
  /-- There is no file. -/
  | missingFile
  /-- Arguments that are left over. -/
  | unrecognized (arguments : List String)
  deriving DecidableEq

/-- The text that reports why the arguments make no sense. -/
def ArgumentError.message : ArgumentError → String
  | .ambiguous argument candidates =>
    "ambiguous option: " ++ argument ++ " could match " ++ ", ".intercalate candidates
  | .missingValue flag => "argument " ++ flag.display ++ ": expected one argument"
  | .needlessValue flag value =>
    "argument " ++ flag.display ++ ": ignored explicit argument " ++ Text.Quoted.text value
  | .missingFile => "the following arguments are required: FILE"
  | .unrecognized arguments => "unrecognized arguments: " ++ " ".intercalate arguments

/-- What the arguments ask for. -/
inductive Request where
  /-- A compilation. -/
  | compile (arguments : Arguments)
  /-- The help. -/
  | help
  /-- The version. -/
  | version

/-- An argument told apart. -/
inductive Token where
  /-- A file or a value. -/
  | value (text : String)
  /-- The two dashes that end the options. -/
  | separator
  /-- An option, how it is spelled, and the text attached to it. -/
  | option (flag : Flag) (spelling : String) (attached : Option String)
  /-- An option that does not exist. -/
  | unknown (text : String)
  deriving DecidableEq

namespace Token

/-- The text before the first equals sign and the text after it. -/
def splitEquals (text : String) : String × Option String :=
  let cs := text.toList
  match cs.dropWhile (· ≠ '=') with
  | [] => (text, none)
  | _ :: rest => (String.ofList (cs.takeWhile (· ≠ '=')), some (String.ofList rest))

/-- Whether the text is a dash and a decimal number, which is no option. -/
def isNegativeNumber (text : String) : Bool :=
  match text.toList with
  | '-' :: rest =>
    let integral := rest.takeWhile Text.Digit.isDigit
    match rest.dropWhile Text.Digit.isDigit with
    | [] => integral ≠ []
    | ['\n'] => integral ≠ []
    | '.' :: fraction =>
      let tail := fraction.dropWhile Text.Digit.isDigit
      fraction.takeWhile Text.Digit.isDigit ≠ [] && (tail = [] || tail = ['\n'])
    | _ => false
  | _ => false

/-- The options that an argument can mean, with the spelling and the attached text. -/
def candidates (argument : String) : List (Flag × String × Option String) :=
  if "--".isPrefixOf argument then
    let (lead, attached) := splitEquals argument
    (Flag.spellings.filter (lead.isPrefixOf ·.1)).map fun entry => (entry.2, entry.1, attached)
  else
    let short := String.ofList (argument.toList.take 2)
    (Flag.spellings.filter (·.1 = short)).map fun entry =>
      (entry.2, entry.1, some (String.ofList (argument.toList.drop 2)))

/-- Tell an argument apart. -/
def ofArgument (argument : String) : Except ArgumentError Token :=
  if !"-".isPrefixOf argument || argument = "-" then .ok (.value argument)
  else
    match Flag.spellings.lookup argument with
    | some flag => .ok (.option flag argument none)
    | none =>
      let (lead, attached) := splitEquals argument
      match attached, Flag.spellings.lookup lead with
      | some given, some flag => .ok (.option flag lead (some given))
      | _, _ =>
        match candidates argument with
        | [(flag, spelling, attached)] => .ok (.option flag spelling attached)
        | [] =>
          if isNegativeNumber argument || argument.contains ' ' then .ok (.value argument)
          else .ok (.unknown argument)
        | several => .error (.ambiguous argument (several.map (·.2.1)))

/-- Tell all arguments apart. Those after two dashes are values. -/
def ofArguments : List String → Except ArgumentError (List Token)
  | [] => .ok []
  | argument :: rest =>
    if argument = "--" then .ok (.separator :: rest.map .value)
    else do
      let token ← ofArgument argument
      let tokens ← ofArguments rest
      return token :: tokens

end Token

/-- A short option with the text behind it: its value, or further short options. The last of the
options can have a value or still want one. -/
def together (flag : Flag) : List Char → Except ArgumentError (List (Flag × Option String))
  | [] => .ok [(flag, none)]
  | c :: rest =>
    if flag.takesValue then .ok [(flag, some (String.ofList (c :: rest)))]
    else
      match Flag.spellings.lookup (String.ofList ['-', c]) with
      | none => .error (.needlessValue flag (String.ofList (c :: rest)))
      | some next => do
        let more ← together next rest
        return (flag, none) :: more

/-- The options of one argument. -/
def expand (flag : Flag) (spelling : String) (attached : Option String) :
    Except ArgumentError (List (Flag × Option String)) :=
  match attached with
  | none => .ok [(flag, none)]
  | some text =>
    if flag.takesValue then .ok [(flag, some text)]
    else if "--".isPrefixOf spelling || text = "" then .error (.needlessValue flag text)
    else together flag text.toList

/-- What has been taken from the arguments so far. -/
structure Progress where
  /-- The file, once there is one. -/
  file : Option String := none
  /-- The options; the file is not in here. -/
  arguments : Arguments := { file := "" }
  /-- What is left over. -/
  extras : List String := []

namespace Progress

/-- Take one option, or learn what to print instead. -/
def take (progress : Progress) (flag : Flag) (value : OptionValue) : Except Request Progress :=
  let set (arguments : Arguments) : Except Request Progress := .ok { progress with arguments }
  match flag with
  | .help => .error .help
  | .version => .error .version
  | .model => set { progress.arguments with model := some value }
  | .package => set { progress.arguments with package := value }
  | .rootMessage => set { progress.arguments with rootMessage := value }
  | .typeLead => set { progress.arguments with typeLead := value }
  | .output => set { progress.arguments with output := some value }
  | .qualifyNames => set { progress.arguments with qualifyNames := true }
  | .verbose => set { progress.arguments with verbose := true }

/-- Leave an argument over. -/
def leave (progress : Progress) (text : String) : Progress :=
  { progress with extras := progress.extras ++ [text] }

/-- Take a list of options, or learn what to print instead. -/
def takeOptions (progress : Progress) : List (Flag × Option String) → Except Request Progress
  | [] => .ok progress
  | (flag, value) :: rest => do
    (← progress.take flag (.ofText (value.getD ""))).takeOptions rest

/-- The request, once all arguments are taken. -/
def finish (progress : Progress) : Except ArgumentError Request :=
  match progress.file with
  | none => .error .missingFile
  | some file =>
    if progress.extras ≠ [] then .error (.unrecognized progress.extras)
    else .ok (.compile { progress.arguments with file })

end Progress

/-- The last of some options, if it still wants its value. -/
def wanting? (options : List (Flag × Option String)) : Option Flag :=
  match options.getLast? with
  | some (flag, none) => if flag.takesValue then some flag else none
  | _ => none

/-- The options with the value of the last one. -/
def withLastValue (options : List (Flag × Option String)) (value : String) :
    List (Flag × Option String) :=
  options.dropLast ++ (options.getLast?.map fun last => (last.1, some value)).toList

/-- Take the arguments one by one. -/
def takeTokens (progress : Progress) : List Token → Except ArgumentError Request
  | [] => progress.finish
  | .unknown text :: rest => takeTokens (progress.leave text) rest
  | .value text :: .separator :: rest =>
    match progress.file with
    | none => takeTokens { progress with file := some text } rest
    | some _ => takeTokens ((progress.leave text).leave "--") rest
  | .value text :: rest =>
    match progress.file with
    | none => takeTokens { progress with file := some text } rest
    | some _ => takeTokens (progress.leave text) rest
  | .separator :: .value text :: rest =>
    match progress.file with
    | none => takeTokens { progress with file := some text } rest
    | some _ => takeTokens ((progress.leave "--").leave text) rest
  | .separator :: rest => takeTokens (progress.leave "--") rest
  | .option flag spelling attached :: .value text :: rest => do
    let options ← expand flag spelling attached
    match wanting? options with
    | some _ =>
      match progress.takeOptions (withLastValue options text) with
      | .error request => return request
      | .ok next => takeTokens next rest
    | none =>
      match progress.takeOptions options with
      | .error request => return request
      | .ok next => takeTokens next (.value text :: rest)
  | .option flag spelling attached :: rest => do
    let options ← expand flag spelling attached
    match wanting? options with
    | some wanting => .error (.missingValue wanting)
    | none =>
      match progress.takeOptions options with
      | .error request => return request
      | .ok next => takeTokens next rest
termination_by tokens => tokens.length

/-- What a list of arguments asks for. -/
def parse (arguments : List String) : Except ArgumentError Request := do
  takeTokens {} (← Token.ofArguments arguments)

end ProtoSchema.CommandLine
