/-
# Options

What the arguments of the command line ask for.  A setting takes a value, which may be joined to
its name; a switch takes none, and the short names of switches may be joined to each other.
Except for patterns, nothing may be given twice.
-/

import Untested.Summary.Basic

namespace Untested

/-- What the arguments of a run ask for. -/
structure Options where
  /-- Where the coverage report comes from: a path, or `-` for the input.  Without it the tests
  are run first. -/
  report : Option String := none
  project : Option String := none
  /-- The directory to which the paths of the report are relative. -/
  sourceRoot : Option String := none
  package : Option String := none
  config : Option String := none
  format : Option Format := none
  output : Option String := none
  isParallel : Bool := false
  /-- Patterns for files that are not checked. -/
  exclude : List String := []
  /-- Patterns for names of functions that are not reported. -/
  retain : List String := []
  /-- The baseline with findings that are not reported again. -/
  baseline : Option String := none
  /-- The file in which the findings are recorded as a baseline. -/
  newBaseline : Option String := none
  isVerbose : Bool := false
  /-- Whether the run shows nothing but findings. -/
  isQuiet : Bool := false
deriving DecidableEq, Repr

/-- What a command line asks for. -/
inductive Invocation where
  | run (options : Options)
  | help
  | version
  /-- Nothing that can be done. -/
  | misuse
deriving DecidableEq, Repr

/-- An option that takes a value. -/
inductive Setting where
  | project
  /-- The directory to which the paths of the report are relative. -/
  | sourceRoot
  | package
  | config
  | format
  | output
  /-- A pattern for files that are not checked. -/
  | exclude
  /-- A pattern for names of functions that are not reported. -/
  | retain
  /-- The baseline with findings that are not reported again. -/
  | baseline
  /-- The file in which the findings are recorded as a baseline. -/
  | newBaseline
deriving DecidableEq, Repr

/-- An option that takes no value. -/
inductive Switch where
  | parallel
  | verbose
  /-- The run shows nothing but findings. -/
  | quiet
  | help
  | version
deriving DecidableEq, Repr

inductive OptionKind where
  | setting (setting : Setting)
  | switch (switch : Switch)
deriving DecidableEq, Repr

namespace Options

def longNames : List (String × OptionKind) :=
  [("project", .setting .project), ("source-root", .setting .sourceRoot),
   ("package", .setting .package), ("config", .setting .config), ("format", .setting .format),
   ("output", .setting .output), ("parallel", .switch .parallel),
   ("exclude", .setting .exclude), ("retain", .setting .retain),
   ("baseline", .setting .baseline), ("generate-baseline", .setting .newBaseline),
   ("verbose", .switch .verbose), ("quiet", .switch .quiet), ("help", .switch .help),
   ("version", .switch .version)]

def shortNames : List (Char × OptionKind) :=
  [('C', .setting .project), ('p', .setting .package), ('c', .setting .config),
   ('f', .setting .format), ('o', .setting .output), ('e', .setting .exclude),
   ('r', .setting .retain), ('v', .switch .verbose), ('q', .switch .quiet),
   ('h', .switch .help), ('V', .switch .version)]

def formatOf? (name : String) : Option Format :=
  if name = "terminal" then some .terminal
  else if name = "json" then some .json
  else none

def once? {α : Type} (old : Option α) (new : α) : Option (Option α) :=
  if old.isSome then none else some (some new)

/-- A path for what may be given only once.  No path is empty. -/
def path? (old : Option String) (new : String) : Option (Option String) :=
  if new = "" then none else once? old new

def give? (options : Options) (setting : Setting) (value : String) : Option Options :=
  match setting with
  | .project => return { options with project := ← path? options.project value }
  | .sourceRoot => return { options with sourceRoot := ← path? options.sourceRoot value }
  | .package => return { options with package := ← once? options.package value }
  | .config => return { options with config := ← path? options.config value }
  | .format => return { options with format := ← once? options.format (← formatOf? value) }
  | .output => return { options with output := ← path? options.output value }
  | .exclude => return { options with exclude := options.exclude ++ [value] }
  | .retain => return { options with retain := options.retain ++ [value] }
  | .baseline => return { options with baseline := ← path? options.baseline value }
  | .newBaseline => return { options with newBaseline := ← path? options.newBaseline value }

/-- The options with a switch turned on, or what the switch asks for instead of a run. -/
def turnOn (options : Options) (switch : Switch) : Except Invocation Options :=
  match switch with
  | .parallel =>
    if options.isParallel then .error .misuse else .ok { options with isParallel := true }
  | .verbose => if options.isVerbose then .error .misuse else .ok { options with isVerbose := true }
  | .quiet => if options.isQuiet then .error .misuse else .ok { options with isQuiet := true }
  | .help => .error .help
  | .version => .error .version

/-- A command line that has been read in part. -/
structure Reading where
  options : Options := {}
  /-- The setting whose value comes next. -/
  waiting : Option Setting := none
  isClosed : Bool := false

namespace Reading

def give (reading : Reading) (setting : Setting) (value : String) : Except Invocation Reading :=
  match reading.options.give? setting value with
  | some options => .ok { reading with options, waiting := none }
  | none => .error .misuse

def turnOn (reading : Reading) (switch : Switch) : Except Invocation Reading := do
  return { reading with options := ← reading.options.turnOn switch }

/-- Reads short names that are joined to each other, and the value joined to the last. -/
def takeShort (reading : Reading) : List Char → Except Invocation Reading
  | [] => .ok reading
  | c :: rest =>
    match shortNames.lookup c with
    | some (.switch switch) =>
      match reading.turnOn switch with
      | .ok reading => takeShort reading rest
      | .error invocation => .error invocation
    | some (.setting setting) =>
      if rest.isEmpty then .ok { reading with waiting := some setting }
      else reading.give setting (String.ofList (if rest.head? = some '=' then rest.tail else rest))
    | none => .error .misuse

/-- Reads a long name, and the value joined to it. -/
def takeLong (reading : Reading) (word : List Char) : Except Invocation Reading :=
  let name := String.ofList (word.takeWhile (· ≠ '='))
  let value? := (word.dropWhile (· ≠ '=')).tail?.map String.ofList
  match longNames.lookup name, value? with
  | some (.switch switch), none => reading.turnOn switch
  | some (.setting setting), none => .ok { reading with waiting := some setting }
  | some (.setting setting), some value => reading.give setting value
  | _, _ => .error .misuse

def takeReport (reading : Reading) (word : String) : Except Invocation Reading :=
  if reading.options.report.isSome then .error .misuse
  else .ok { reading with options := { reading.options with report := some word } }

def take (reading : Reading) (word : String) : Except Invocation Reading :=
  if reading.isClosed then reading.takeReport word
  else
    match reading.waiting, word.toList with
    | some setting, ['-'] => reading.give setting "-"
    | some _, '-' :: _ => .error .misuse
    | some setting, _ => reading.give setting word
    | none, ['-'] => reading.takeReport word
    | none, ['-', '-'] => .ok { reading with isClosed := true }
    | none, '-' :: '-' :: name => reading.takeLong name
    | none, '-' :: names => reading.takeShort names
    | none, _ => reading.takeReport word

/-- Reads the arguments one after the other. -/
def takeAll (reading : Reading) : List String → Invocation
  | [] => if reading.waiting.isSome then .misuse else .run reading.options
  | word :: words =>
    match reading.take word with
    | .ok reading => takeAll reading words
    | .error invocation => invocation

end Reading

/-- What the arguments of a command line ask for. -/
def read (arguments : List String) : Invocation :=
  Reading.takeAll {} arguments

end Options

end Untested
