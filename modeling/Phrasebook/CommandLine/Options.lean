import Phrasebook.Config
import Phrasebook.Decimal.Text

/-!
# Options

The arguments of the program: files, options that stand alone, and options with a value behind them.
The first argument that cannot be understood is what is reported.
-/

namespace Phrasebook.CommandLine

/-- What the arguments ask for. -/
structure Options where
  files : List String := []
  /-- no conversation after the files -/
  batch : Bool := false
  help : Bool := false
  version : Bool := false
  json : Bool := false
  tree : Bool := false
  noColor : Bool := false
  verbosity : Nat := 0
  configFile : Option String := none
  maxDepth : Option Nat := none
  denyAmbiguity : Bool := false
  strict : Bool := false
deriving DecidableEq, Repr

/-- What is wrong with the arguments. -/
inductive UsageError where
  | noConfigFile
  | noDepth
  | badDepth (text : String)
  | zeroDepth
  | unknownOption (name : String)
deriving DecidableEq, Repr

/-- The wording of a problem with the arguments. -/
def UsageError.message : UsageError → String
  | noConfigFile => "--config requires a path"
  | noDepth => "--max-depth requires a value"
  | badDepth text => s!"invalid --max-depth value: {text}"
  | zeroDepth => "--max-depth must be at least 1"
  | unknownOption name => s!"unknown option: {name}"

/-- The greatest verbosity. -/
def greatestVerbosity : Nat := 255

/-- The messages that are logged at a verbosity. -/
def logFilter : Nat → String
  | 0 => "warn"
  | 1 => "skript_runtime=info,skript_parser=info,skript_stdlib=info,warn"
  | 2 => "skript_runtime=debug,skript_parser=debug,skript_stdlib=debug,info"
  | _ => "trace"

namespace Options

/-- The same options with the verbosity raised. -/
def moreVerbose (o : Options) (by_ : Nat) : Options :=
  { o with verbosity := min greatestVerbosity (o.verbosity + by_) }

/-- The options with an argument that stands alone, if it is one. -/
def withFlag? (o : Options) : String → Option Options
  | "-h" | "--help" => some { o with help := true }
  | "-V" | "--version" => some { o with version := true }
  | "-b" | "--batch" => some { o with batch := true }
  | "--json" => some { o with json := true }
  | "--tree" => some { o with tree := true }
  | "--no-color" => some { o with noColor := true }
  | "--deny-ambiguity" => some { o with denyAmbiguity := true }
  | "--strict" => some { o with strict := true }
  | "-v" | "--verbose" => some (o.moreVerbose 1)
  | "-vv" => some (o.moreVerbose 2)
  | _ => none

/-- The depth that a text gives. -/
def readDepth (text : String) : Except UsageError Nat :=
  match Decimal.readNat? text.toList with
  | none => .error (.badDepth text)
  | some n =>
    if UInt64.size ≤ n then .error (.badDepth text)
    else if n = 0 then .error .zeroDepth
    else .ok n

/-- A file, if the argument is no option. The name `-` is a file. -/
def withFile (o : Options) (argument : String) : Except UsageError Options :=
  if argument != "-" && argument.toList.head? == some '-' then .error (.unknownOption argument)
  else .ok { o with files := o.files ++ [argument] }

/-- An argument whose value stands behind it. -/
inductive Valued where
  | configFile
  | maxDepth
deriving DecidableEq, Repr

/-- The option of an argument that needs a value. -/
def valued? : String → Option Valued
  | "-c" | "--config" => some .configFile
  | "--max-depth" => some .maxDepth
  | _ => none

/-- The options with a value. -/
def withValue (o : Options) (value : String) : Valued → Except UsageError Options
  | .configFile => .ok { o with configFile := some value }
  | .maxDepth => do return { o with maxDepth := some (← readDepth value) }

/-- What is wrong if the value is missing. -/
def missing : Valued → UsageError
  | .configFile => .noConfigFile
  | .maxDepth => .noDepth

/-- The options with more arguments. `awaiting` is the option whose value comes next. -/
def readFrom (o : Options) (awaiting : Option Valued) : List String → Except UsageError Options
  | [] =>
    match awaiting with
    | some option => .error (missing option)
    | none => .ok o
  | argument :: rest =>
    match awaiting with
    | some option => do (← o.withValue argument option).readFrom none rest
    | none =>
      match o.withFlag? argument, valued? argument with
      | some o, _ => o.readFrom none rest
      | none, some option => o.readFrom (some option) rest
      | none, none => do (← o.withFile argument).readFrom none rest

/-- The options that arguments ask for. -/
def read (arguments : List String) : Except UsageError Options :=
  readFrom {} none arguments

/-- Settings changed as the options ask. -/
def adjust (o : Options) (c : Config) : Config :=
  let c := { c with maxDepth := o.maxDepth.getD c.maxDepth }
  let c := if o.denyAmbiguity || o.strict then { c with ambiguity := .deny } else c
  if o.strict then { c with allowTopLevel := false } else c

end Options

end Phrasebook.CommandLine
