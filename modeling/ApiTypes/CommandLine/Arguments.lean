/-! What the arguments of a command line ask for. -/

namespace ApiTypes.CommandLine

/-- The form of what is printed. -/
inductive Format where
  | yaml
  | json
deriving DecidableEq

/-- The formats under their names. -/
def Format.named : List (String × Format) := [("yaml", .yaml), ("json", .json)]

/-- What is to be done. -/
inductive Command where
  /-- Derive the types of documents, and print them or write them to a file. -/
  | synthesize (inputs : List String) (output : Option String) (format : Format)
  /-- Check that all types of a document can be derived. -/
  | validate (input : String)
  /-- Print a summary of the types of a document. -/
  | inspect (input : String) (format : Format)
  /-- Write a settings file, also over an existing one if that is forced. -/
  | init (force : Bool)

/-- What the arguments ask for. -/
inductive Request where
  | run (config : Option String) (command : Command)
  | version
  | help

/-- The options of the command line. -/
inductive OptionName where
  | config
  | input
  | output
  | format
  | force
  | version
  | help
deriving DecidableEq

/-- How many values an option takes each time that it is given. -/
inductive Arity where
  | none
  | one
  /-- One, and all others that follow directly. -/
  | many
deriving DecidableEq

/-- An option with its spellings. -/
structure OptionForm where
  name : OptionName
  word : String
  letter : Option Char
  arity : Arity
  /-- Whether the option may be given again. -/
  repeats : Bool := false

/-- The option for the settings file, which may be given before and after the command's name. -/
def configForm : OptionForm := ⟨.config, "config", some 'c', .one, false⟩

/-- The option for help. -/
def helpForm : OptionForm := ⟨.help, "help", some 'h', .none, false⟩

/-- The option for one input. -/
def inputForm : OptionForm := ⟨.input, "input", some 'i', .one, false⟩

/-- The option for inputs. -/
def inputsForm : OptionForm := ⟨.input, "input", some 'i', .many, true⟩

/-- The option for the file to be written. -/
def outputForm : OptionForm := ⟨.output, "output", some 'o', .one, false⟩

/-- The option for the format. -/
def formatForm : OptionForm := ⟨.format, "format", none, .one, false⟩

/-- The options before the name of a command. -/
def leadingForms : List OptionForm :=
  [configForm, helpForm, ⟨.version, "version", some 'V', .none, false⟩]

/-- The commands' names with their own options. -/
def commandForms : List (String × List OptionForm) :=
  [("synthesize", [inputsForm, outputForm, formatForm]), ("validate", [inputForm]),
    ("inspect", [inputForm, formatForm]), ("init", [⟨.force, "force", none, .none, false⟩])]

/-- Options with their values, in the order in which they are given. -/
structure Given where
  values : List (OptionName × List String) := []
  /-- The option that takes the next value. -/
  pending : Option OptionForm := none

namespace Given

/-- Whether an option has been given. -/
def contains (given : Given) (name : OptionName) : Bool :=
  given.values.any fun found => found.1 = name

/-- All values of an option. -/
def valuesOf (given : Given) (name : OptionName) : List String :=
  (given.values.filter fun found => found.1 = name).flatMap Prod.snd

/-- Whether an option has been given that leaves nothing else to be done. -/
def endsReading (given : Given) : Bool := given.contains .help || given.contains .version

/-- Whether the option given last still lacks a value. -/
def isUnfinished (given : Given) : Bool :=
  given.pending.isSome && given.values.getLast?.any fun found => found.2.isEmpty

/-- Whether a text is a value of an option. -/
def accepts (name : OptionName) (value : String) : Bool :=
  if name = .format then Format.named.any fun found => found.1 == value else !value.isEmpty

/-- Begins an option, which must be complete before and not have been given if it cannot repeat. -/
def start (given : Given) (form : OptionForm) : Option Given :=
  if given.isUnfinished || (given.contains form.name && !form.repeats) then none
  else some
    { values := given.values ++ [(form.name, [])]
      pending := if form.arity = .none then none else some form }

/-- Adds a value to the option given last. -/
def add (given : Given) (form : OptionForm) (value : String) : Option Given :=
  match given.values.getLast? with
  | none => none
  | some (name, values) =>
    if accepts name value then some
      { values := given.values.dropLast ++ [(name, values ++ [value])]
        pending := if form.arity = .many then some form else none }
    else none

/-- An option with a value in the same argument, after which it takes no other. -/
def attach (given : Given) (form : OptionForm) (value : String) : Option Given := do
  if form.arity = .none then none
  let started ← given.start form
  let added ← started.add form value
  return { added with pending := none }

end Given

/-- The parts of an argument with an option's word: the word, and the value after an equals sign. -/
def splitWord (text : List Char) : String × Option String :=
  let word := text.takeWhile (· != '=')
  (String.ofList word, (text.drop word.length).head?.map fun _ =>
    String.ofList (text.drop (word.length + 1)))

/--
Reads letters of options; what follows the letter of an option with a value is its value. Help or
the version ends the reading.
-/
def readLetters (forms : List OptionForm) (given : Given) : List Char → Option Given
  | [] => some given
  | letter :: rest => do
    let form ← forms.find? fun form => form.letter == some letter
    if form.arity = .none then
      let started ← given.start form
      if started.endsReading then return started
      readLetters forms started rest
    else
      match rest with
      | [] => given.start form
      | '=' :: value => given.attach form (String.ofList value)
      | value => given.attach form (String.ofList value)

/-- Reads an option in its long spelling. -/
def readWord (forms : List OptionForm) (given : Given) (text : List Char) : Option Given := do
  let (word, value) := splitWord text
  let form ← forms.find? fun form => form.word == word
  match value with
  | none => given.start form
  | some value => given.attach form value

/-- Options read from the head of a list of arguments, and the arguments after them. -/
structure OptionsRead where
  given : Given
  rest : List String

/--
Reads options up to the first argument that belongs to none of them. A mark of two dashes ends the
options without being one, and help or the version ends the reading.
-/
def readOptions (forms : List OptionForm) (given : Given) : List String → Option OptionsRead
  | [] => if given.isUnfinished then none else some ⟨given, []⟩
  | argument :: rest =>
    if given.endsReading then some ⟨given, []⟩
    else
      match argument.toList, given.pending with
      | ['-', '-'], _ => if given.isUnfinished || !rest.isEmpty then none else some ⟨given, []⟩
      | '-' :: '-' :: word, _ => do readOptions forms (← readWord forms given word) rest
      | '-' :: letter :: more, _ => do
        readOptions forms (← readLetters forms given (letter :: more)) rest
      | _, some form => do readOptions forms (← given.add form argument) rest
      | _, none => some ⟨given, argument :: rest⟩

/-- The command with a name for the options that are given; what is required must be there. -/
def commandOf (name : String) (given : Given) : Option Command :=
  let inputs := given.valuesOf .input
  let named (text : String) : Option Format := Format.named.lookup text
  let format := ((given.valuesOf .format).head?.bind named).getD .yaml
  match name, inputs with
  | "init", _ => some (.init (given.contains .force))
  | "synthesize", _ :: _ =>
    some (.synthesize inputs (given.valuesOf .output).head? format)
  | "validate", [input] => some (.validate input)
  | "inspect", [input] => some (.inspect input format)
  | _, _ => none

/-- Reads the arguments after the name of a command; a later settings file counts. -/
def readCommand (config : Option String) (name : String) (arguments : List String) :
    Option Request := do
  let forms ← commandForms.lookup name
  let options ← readOptions (configForm :: helpForm :: forms) {} arguments
  if options.given.contains .help then return .help
  if !options.rest.isEmpty then none
  let command ← commandOf name options.given
  return .run ((options.given.valuesOf .config).head?.or config) command

/-- Reads all arguments; absent if they are not in order. -/
def Request.read? (arguments : List String) : Option Request := do
  let options ← readOptions leadingForms {} arguments
  if options.given.contains .help then return .help
  else if options.given.contains .version then return .version
  else
    match options.rest with
    | [] => none
    | ["help"] => return .help
    | ["help", name] => if (commandForms.lookup name).isSome then return .help else none
    | name :: rest => readCommand (options.given.valuesOf .config).head? name rest

end ApiTypes.CommandLine
