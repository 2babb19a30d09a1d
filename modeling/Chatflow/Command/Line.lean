/-
# The command line

A command line names a command and gives it options.  Some options are for every command and may
also stand before its name.  An option is written out behind two dashes or as a letter behind one;
letters can share a dash.  A value follows an option as the next argument, behind an equals sign, or
right behind a letter.

An option may be given once before the name of the command and once behind it; the latter counts.
The value of an option is checked when the next option is met or the arguments are at their end.
-/

namespace Chatflow

/-- What a user can ask for. -/
inductive Command where
  /-- Compile a graph and print the document or write it to a file. -/
  | compile (input : String) (root : Option String) (pretty : Bool) (output : Option String)
  /-- Compile a graph and report what the compiler noticed, perhaps with an outline. -/
  | check (input : String) (root : Option String) (tree : Bool)
  /-- Print the digest of the document of a graph. -/
  | hash (input : String) (root : Option String)
  /-- Print the schemas of the node types. -/
  | types
  /-- Write the graph that a fresh editor opens with. -/
  | init (output : String) (force : Bool)
  /-- Let editors work on a graph. -/
  | serve (input : Option String) (host : Option String) (port : Option Nat)
deriving DecidableEq, Repr

/-- A command line that can be run. -/
structure CommandLine where
  /-- The path of the settings. -/
  config : String
  /-- Whether reports are written as JSON. -/
  json : Bool
  /-- Whether details are logged. -/
  verbose : Bool
  /-- What is asked for. -/
  command : Command
deriving DecidableEq, Repr

namespace CommandLine

/-- What to show instead of running a command. -/
inductive Usage where
  /-- That the arguments make no sense. -/
  | error
  /-- How the program is used. -/
  | help
  /-- The version of the program. -/
  | version
deriving DecidableEq, Repr

/-- The names of the commands. -/
inductive Verb where
  | compile
  | check
  | hash
  | types
  | init
  | serve
deriving DecidableEq, Repr

/-- The word for a command. -/
def Verb.word : Verb → String
  | compile => "compile"
  | check => "check"
  | hash => "hash"
  | types => "types"
  | init => "init"
  | serve => "serve"

/-- The command of a word. -/
def Verb.ofWord? (s : String) : Option Verb :=
  [compile, check, hash, types, init, serve].find? (·.word == s)

@[simp] theorem Verb.ofWord?_word (v : Verb) : Verb.ofWord? v.word = some v := by cases v <;> rfl

/-- The word that asks for help with a command. -/
def helpWord : String := "help"

/-- The options. -/
inductive Opt where
  | verbose
  | config
  | jsonMode
  | help
  | version
  | input
  | root
  | pretty
  | output
  | tree
  | force
  | host
  | port
deriving DecidableEq, Repr

namespace Opt

/-- The name of an option. -/
def name : Opt → String
  | verbose => "verbose"
  | config => "config"
  | jsonMode => "json-mode"
  | help => "help"
  | version => "version"
  | input => "input"
  | root => "root"
  | pretty => "pretty"
  | output => "output"
  | tree => "tree"
  | force => "force"
  | host => "host"
  | port => "port"

/-- The letter of an option. -/
def letter? : Opt → Option Char
  | verbose => some 'v'
  | config => some 'c'
  | help => some 'h'
  | version => some 'V'
  | input => some 'i'
  | root => some 'r'
  | output => some 'o'
  | force => some 'f'
  | host => some 'H'
  | port => some 'p'
  | jsonMode | pretty | tree => none

/-- Whether an option has a value. -/
def hasValue : Opt → Bool
  | config | input | root | output | host | port => true
  | verbose | jsonMode | help | version | pretty | tree | force => false

/-- The options that may stand before the command. -/
def general : List Opt := [verbose, config, jsonMode, help]

/-- The options that may stand behind the word for a command. -/
def ofVerb : Verb → List Opt
  | .compile => general ++ [input, root, pretty, output]
  | .check => general ++ [input, root, tree]
  | .hash => general ++ [input, root]
  | .types => general
  | .init => general ++ [output, force]
  | .serve => general ++ [input, host, port]

/-- The options of a command have names of their own. -/
theorem nodup_names (v : Verb) : ((ofVerb v).map name).Nodup := by cases v <;> decide

/-- The options of a command have letters of their own. -/
theorem nodup_letters (v : Verb) : ((ofVerb v).filterMap letter?).Nodup := by cases v <;> decide

/-- The value of digits. -/
def digits? (cs : List Char) : Option Nat :=
  if cs ≠ [] ∧ cs.all Char.isDigit then some (cs.foldl (fun n c => 10 * n + (c.toNat - 48)) 0)
  else none

/-- The value of a whole number with or without a sign. -/
def number? (s : String) : Option Int :=
  match s.toList with
  | '+' :: cs => (digits? cs).map Int.ofNat
  | '-' :: cs => (digits? cs).map fun n => -n
  | cs => (digits? cs).map Int.ofNat

/-- The number of a port. -/
def port? (s : String) : Option Nat :=
  match number? s with
  | some n => if 0 ≤ n ∧ n < 65536 then some n.toNat else none
  | none => none

/-- Whether a value can be that of an option: paths are not empty, and ports are numbers. -/
def accepts (value : String) : Opt → Bool
  | config | input | output => value ≠ ""
  | port => (port? value).isSome
  | _ => true

end Opt

/-- The options on one side of the command's word. -/
structure Given where
  /-- The options that have been checked, with their values. -/
  checked : List (Opt × String) := []
  /-- An option whose value is still to come or to be checked. -/
  last : Option (Opt × Option String) := none

namespace Given

/-- Whether the next argument is the value of an option. -/
def awaitsValue (g : Given) : Bool :=
  match g.last with
  | some (_, none) => true
  | _ => false

/-- Whether an option has been given. -/
def has (g : Given) (o : Opt) : Bool := g.checked.any (·.1 == o)

/-- The value of an option. -/
def value? (g : Given) (o : Opt) : Option String := g.checked.lookup o

/-- Takes an option in.  None may be given twice. -/
def add (g : Given) (o : Opt) (value : String) : Except Usage Given :=
  if g.has o ∨ !o.accepts value then .error .error
  else .ok { g with checked := g.checked ++ [(o, value)] }

/-- Checks the last option. -/
def settle (g : Given) : Except Usage Given :=
  match g.last with
  | none => .ok g
  | some (_, none) => .error .error
  | some (o, some value) => { g with last := none }.add o value

/-- Takes in an option without value.  Those for help and version end the reading of arguments. -/
def addSwitch (g : Given) (o : Opt) : Except Usage Given := do
  let g ← g.settle
  match o with
  | .help => .error .help
  | .version => .error .version
  | _ => g.add o ""

/-- Takes in an option with its value. -/
def addValue (g : Given) (o : Opt) (value : String) : Except Usage Given := do
  (← g.settle).add o value

/-- Takes in an option whose value is the next argument. -/
def await (g : Given) (o : Opt) : Except Usage Given := do
  return { ← g.settle with last := some (o, none) }

/-- Takes in an argument behind two dashes. -/
def addNamed (known : List Opt) (g : Given) (cs : List Char) : Except Usage Given :=
  let name := String.ofList (cs.takeWhile (· ≠ '='))
  match known.find? (·.name == name), cs.dropWhile (· ≠ '=') with
  | none, _ => .error .error
  | some o, [] => if o.hasValue then g.await o else g.addSwitch o
  | some o, _ :: value => if o.hasValue then g.addValue o (String.ofList value) else .error .error

/-- Takes in letters behind one dash. -/
def addLetters (known : List Opt) (g : Given) : List Char → Except Usage Given
  | [] => .ok g
  | c :: rest =>
    match known.find? (·.letter? == some c) with
    | none => .error .error
    | some o =>
      if o.hasValue then
        match rest with
        | [] => g.await o
        | '=' :: value => g.addValue o (String.ofList value)
        | value => g.addValue o (String.ofList value)
      else do
        addLetters known (← g.addSwitch o) rest

/-- Takes in an argument that is not a word for a command. -/
def take (known : List Opt) (g : Given) (argument : String) : Except Usage Given :=
  match argument.toList, g.last with
  | '-' :: '-' :: cs, _ => g.addNamed known cs
  | '-' :: c :: cs, _ => g.addLetters known (c :: cs)
  | _, some (o, none) => .ok { g with last := some (o, some argument) }
  | _, _ => .error .error

/-- Reads the arguments behind the word for a command.  Two dashes alone end the options, and
nothing may follow. -/
def takeAll (known : List Opt) (g : Given) : List String → Except Usage Given
  | [] => g.settle
  | "--" :: rest => if rest = [] then g.settle else .error .error
  | argument :: rest => do takeAll known (← g.take known argument) rest

end Given

/-- Where no settings are named. -/
def defaultConfig : String := "botflow.toml"

/-- Where the starter graph is written if no place is named. -/
def defaultOutput : String := "flow.json"

/-- The command of a verb under options, if none is missing. -/
def commandOf (g : Given) : Verb → Option Command
  | .compile =>
    (g.value? .input).map fun input =>
      .compile input (g.value? .root) (g.has .pretty) (g.value? .output)
  | .check => (g.value? .input).map fun input => .check input (g.value? .root) (g.has .tree)
  | .hash => (g.value? .input).map fun input => .hash input (g.value? .root)
  | .types => some .types
  | .init => some (.init ((g.value? .output).getD defaultOutput) (g.has .force))
  | .serve =>
    some (.serve (g.value? .input) (g.value? .host) ((g.value? .port).bind Opt.port?))

/-- Puts a command line together from the options before and behind the word for its command. -/
def assemble (before behind : Given) (command : Command) : CommandLine where
  config := ((behind.value? .config).or (before.value? .config)).getD defaultConfig
  json := before.has .jsonMode || behind.has .jsonMode
  verbose := before.has .verbose || behind.has .verbose
  command := command

/-- Reads the arguments from the word for a command on. -/
def readVerb (before : Given) (v : Verb) (arguments : List String) : Except Usage CommandLine := do
  let behind ← ({} : Given).takeAll (Opt.ofVerb v) arguments
  match commandOf behind v with
  | none => .error .error
  | some command => return assemble (← before.settle) behind command

/-- Reads a question for help: with the program, with a command, or with help itself. -/
def readHelp : List String → Usage
  | [] => .help
  | [topic] => if topic = helpWord ∨ (Verb.ofWord? topic).isSome then .help else .error
  | _ => .error

/-- Reads the arguments behind some options. -/
def readFrom (before : Given) : List String → Except Usage CommandLine
  | [] => .error .error
  | argument :: rest =>
    if before.awaitsValue then do
      readFrom (← before.take (Opt.version :: Opt.general) argument) rest
    else if argument = helpWord then .error (readHelp rest)
    else match Verb.ofWord? argument with
      | some v => readVerb before v rest
      | none => do readFrom (← before.take (Opt.version :: Opt.general) argument) rest

/-- Reads the arguments of the program. -/
def ofArguments (arguments : List String) : Except Usage CommandLine := readFrom {} arguments

/-- How the program is used. -/
def synopsis : String := "Usage: botflow [OPTIONS] <COMMAND>"

/-- The name and the version of the program. -/
def versionLine : String := "botflow 0.3.1"

end CommandLine

end Chatflow
