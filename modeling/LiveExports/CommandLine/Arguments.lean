/-!
# Command-line arguments

An argument that begins with two hyphens is an option.  Some options are switches, some take one
value, and some take all values up to the next option.  A value may also be written after an equals
sign; the option then takes only this one.  What belongs to no option is the path of the project,
and so is whatever follows a lone pair of hyphens.  Every option stands once, except those that
collect values.
-/

namespace LiveExports

/-- What the command line asks for. -/
structure Arguments where
  path : Option String := none
  entries : List String := []
  json : Bool := false
  ignore : List String := []
  exclude : List String := []
  noCache : Bool := false
  dot : Bool := false
  dotFile : Option String := none
  entryExportsUsed : Bool := false
  caseInsensitive : Bool := false
  strict : Bool := false
deriving DecidableEq, Repr

/-- Options without a value. -/
inductive Switch where
  | json
  | noCache
  | dot
  | entryExportsUsed
  | caseInsensitive
  | strict

/-- Options with values. -/
inductive Collector where
  | entry
  | ignore
  | exclude
  | dotFile

inductive OptionName where
  | switch (switch : Switch)
  | collector (collector : Collector)

def OptionName.ofText? : String → Option OptionName
  | "json" => some (.switch .json)
  | "no-cache" => some (.switch .noCache)
  | "dot" => some (.switch .dot)
  | "entry-exports-used" => some (.switch .entryExportsUsed)
  | "case-insensitive" => some (.switch .caseInsensitive)
  | "strict" => some (.switch .strict)
  | "entry" => some (.collector .entry)
  | "ignore" => some (.collector .ignore)
  | "exclude" => some (.collector .exclude)
  | "dot-file" => some (.collector .dotFile)
  | _ => none

/-- Does the option go on to take values after its first? -/
def Collector.takesMany : Collector → Bool
  | ignore | exclude => true
  | entry | dotFile => false

namespace Arguments

/-- Turns a switch on, unless it is on already. -/
def switchOn? (arguments : Arguments) : Switch → Option Arguments
  | .json => if arguments.json then none else some { arguments with json := true }
  | .noCache => if arguments.noCache then none else some { arguments with noCache := true }
  | .dot => if arguments.dot then none else some { arguments with dot := true }
  | .entryExportsUsed =>
    if arguments.entryExportsUsed then none else some { arguments with entryExportsUsed := true }
  | .caseInsensitive =>
    if arguments.caseInsensitive then none else some { arguments with caseInsensitive := true }
  | .strict => if arguments.strict then none else some { arguments with strict := true }

/-- Gives values to an option. -/
def collect? (arguments : Arguments) (values : List String) : Collector → Option Arguments
  | .entry => some { arguments with entries := arguments.entries ++ values }
  | .ignore => some { arguments with ignore := arguments.ignore ++ values }
  | .exclude => some { arguments with exclude := arguments.exclude ++ values }
  | .dotFile =>
    if arguments.dotFile.isSome then none else some { arguments with dotFile := values.head? }

/-- Takes the path, unless there is one already. -/
def takePath? (arguments : Arguments) (path : String) : Option Arguments :=
  if arguments.path.isSome then none else some { arguments with path := some path }

/-- Can the argument stand as a value? -/
def isValue (argument : String) : Bool :=
  argument == "-" || argument.toList.head? != some '-'

/-- The name of an option and the value after its equals sign. -/
def splitOption (body : List Char) : String × Option String :=
  let name := String.ofList (body.takeWhile (· ≠ '='))
  match body.dropWhile (· ≠ '=') with
  | [] => (name, none)
  | _ :: value => (name, some (String.ofList value))

/-- The values that an option takes of the arguments after it, and how many they are. -/
def valuesFor (collector : Collector) (rest : List String) : List String :=
  if collector.takesMany then rest.takeWhile isValue else (rest.take 1).takeWhile isValue

/-- Reads arguments one after another; `fuel` bounds their number. -/
def readFrom? : (fuel : Nat) → Arguments → List String → Option Arguments
  | 0, arguments, rest => if rest.isEmpty then some arguments else none
  | _, arguments, [] => some arguments
  | fuel + 1, arguments, argument :: rest =>
    match argument.toList with
    | ['-', '-'] => rest.foldlM takePath? arguments
    | '-' :: '-' :: body =>
      match splitOption body with
      | (name, value) =>
        match OptionName.ofText? name, value with
        | none, _ => none
        | some (.switch _), some _ => none
        | some (.switch switch), none => do readFrom? fuel (← arguments.switchOn? switch) rest
        | some (.collector collector), some value => do
          readFrom? fuel (← arguments.collect? [value] collector) rest
        | some (.collector collector), none =>
          let values := valuesFor collector rest
          if values.isEmpty then none
          else do
            readFrom? fuel (← arguments.collect? values collector) (rest.drop values.length)
    | _ =>
      if isValue argument then do readFrom? fuel (← arguments.takePath? argument) rest else none

/-- Reads the arguments of a command line. -/
def read? (arguments : List String) : Option Arguments :=
  readFrom? arguments.length {} arguments

end Arguments

end LiveExports
