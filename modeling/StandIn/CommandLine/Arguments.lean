import StandIn.Operation

/-!
The arguments of the program: options, an operation with options of its own, and the directory of
the module. They are read from left to right, and the first thing that is wrong, or asks for help,
decides.
-/

namespace StandIn.CommandLine

open Config (Formatter)

-- What there is help on.
inductive Topic where
  | program
  | help
  | operation (operation : Operation)
  deriving DecidableEq, Repr

-- Why arguments do not lead to a run.
inductive Stop where
  -- They cannot be understood.
  | usage
  | help (topic : Topic)
  deriving DecidableEq, Repr

abbrev Parse := Except Stop

-- The options of an operation, as far as they have been given.
structure Options where
  path         : Option Files.Path := none
  config       : Option Files.Path := none
  formatter    : Option Formatter := none
  verbose      : Bool := false
  includeTests : Bool := false
  json         : Bool := false
  deriving DecidableEq, Repr

structure Request where
  operation : Operation
  options   : Options
  deriving DecidableEq, Repr

-- The directory of the module.
def Request.root (r : Request) : Files.Path :=
  r.options.path.getD "."

-- Options that take no value.
inductive Switch where
  | verbose
  | includeTests
  | json
  | help

-- Options that take one.
inductive Setting where
  | config
  | formatter

namespace Options

variable (o : Options)

-- No switch may be given twice.
def turnOn (topic : Topic) : Switch → Parse Options
  | .verbose      => if o.verbose then throw .usage else return { o with verbose := true }
  | .includeTests => if o.includeTests then throw .usage else return { o with includeTests := true }
  | .json         => if o.json then throw .usage else return { o with json := true }
  | .help         => throw (.help topic)

-- No setting may be given twice, and no path may be empty.
def assign (value : String) : Setting → Parse Options
  | .config    =>
    if o.config.isSome || value = "" then throw .usage
    else return { o with config := some value }
  | .formatter =>
    if o.formatter.isSome then throw .usage
    else match Formatter.ofText value with
      | .ok f    => return { o with formatter := some f }
      | .error _ => throw .usage

def place (path : String) : Parse Options :=
  if o.path.isSome || path = "" then throw .usage else return { o with path := some path }

end Options

-- Whether an argument is not a value. A dash alone is one.
def isOption (arg : String) : Bool :=
  arg.toList.head? == some '-' && arg ≠ "-"

def longSwitch? : String → Option Switch
  | "verbose"       => some .verbose
  | "include-tests" => some .includeTests
  | "json"          => some .json
  | "help"          => some .help
  | _               => none

def longSetting? : String → Option Setting
  | "config"    => some .config
  | "formatter" => some .formatter
  | _           => none

-- What a cluster of letters behind a dash asks for.
inductive Cluster where
  | switches (list : List Switch)
  -- Switches, and then the value of a configuration file, if it is in the cluster.
  | config (list : List Switch) (value : Option String)

def Cluster.add (s : Switch) : Cluster → Cluster
  | switches list     => switches (s :: list)
  | config list value => config (s :: list) value

def cluster? : List Char → Option Cluster
  | []             => some (.switches [])
  | 'v' :: cs      => (cluster? cs).map (Cluster.add .verbose)
  | 'h' :: _       => some (.switches [.help])
  | ['c']          => some (.config [] none)
  | 'c' :: '=' :: cs => some (.config [] (some (.ofList cs)))
  | 'c' :: cs      => some (.config [] (some (.ofList cs)))
  | _              => none

-- An option that is written out, with the value that an equals sign gives it.
def long (arg : String) : String × Option String :=
  let cs := arg.toList.drop 2
  (.ofList (Text.before ['='] cs), (Text.after? ['='] cs).map String.ofList)

-- Arguments behind a double dash.
def places (o : Options) (args : List String) : Parse Options :=
  args.foldlM Options.place o

-- The options of an operation.
def options (topic : Topic) : List String → Options → Parse Options
  | [], o          => return o
  | arg :: args, o =>
    if arg = "--" then places o args
    else if ! isOption arg then do options topic args (← o.place arg)
    else if ['-', '-'].isPrefixOf arg.toList then
      match long arg with
      | (name, value) =>
        match longSwitch? name, longSetting? name, value with
        | some s, _, none       => do options topic args (← o.turnOn topic s)
        | none, some s, some v  => do options topic args (← o.assign v s)
        | none, some s, none    =>
          match args with
          | v :: args => if isOption v then throw .usage else do options topic args (← o.assign v s)
          | []        => throw .usage
        | _, _, _               => throw .usage
    else
      match cluster? (arg.toList.drop 1) with
      | none                          => throw .usage
      | some (.switches list)         => do options topic args (← list.foldlM (·.turnOn topic) o)
      | some (.config list (some v))  => do
        options topic args (← (← list.foldlM (·.turnOn topic) o).assign v .config)
      | some (.config list none)      => do
        let o ← list.foldlM (·.turnOn topic) o
        match args with
        | v :: args =>
          if isOption v then throw .usage else options topic args (← o.assign v .config)
        | []        => throw .usage

def operation? : String → Option Operation
  | "decorate" => some .decorate
  | "generate" => some .generate
  | _          => none

-- What help is asked on.
def topic : List String → Parse Topic
  | []     => return .program
  | [name] =>
    if name = "help" then return .help
    else match operation? name with
      | some o => return .operation o
      | none   => throw .usage
  | _      => throw .usage

-- All arguments. In front of the operation only the switches of the program may stand.
def request : List String → Options → Parse Request
  | [], _          => throw .usage
  | arg :: args, o =>
    match operation? arg with
    | some operation => do return ⟨operation, ← options (.operation operation) args {}⟩
    | none           =>
      if arg = "help" then do throw (.help (← topic args))
      else if arg = "--verbose" then do request args (← o.turnOn .program .verbose)
      else if arg = "--help" then throw (.help .program)
      else if isOption arg && ! ['-', '-'].isPrefixOf arg.toList then
        match cluster? (arg.toList.drop 1) with
        | some (.switches list) => do request args (← list.foldlM (·.turnOn .program) o)
        | _                     => throw .usage
      else throw .usage

def Request.ofArgs (args : List String) : Parse Request :=
  request args {}

end StandIn.CommandLine
