import QuorumWarden.Settings.Flag

/-! Reading the command line and the environment. An argument is read when it is complete,
so an unknown one behind it may be reported first. -/

namespace QuorumWarden

inductive ArgumentError where
  | unknownArgument
  | invalidValue
  | valueValidation
  | argumentConflict
  | tooManyValues
  | missingRequiredArgument
  | displayHelp
  | displayVersion
  deriving DecidableEq, Repr

/-- The name of the kind of error, under which it is reported. -/
def ArgumentError.name : ArgumentError → String
  | .unknownArgument => "UnknownArgument"
  | .invalidValue => "InvalidValue"
  | .valueValidation => "ValueValidation"
  | .argumentConflict => "ArgumentConflict"
  | .tooManyValues => "TooManyValues"
  | .missingRequiredArgument => "MissingRequiredArgument"
  | .displayHelp => "DisplayHelp"
  | .displayVersion => "DisplayVersion"

/-- What a single argument looks like. Two dashes alone end the flags. -/
inductive Argument where
  | escape
  | long (name : String) (value : Option String)
  | short (letters : List Char)
  | word (text : String)
  deriving DecidableEq, Repr

def Argument.ofText (text : String) : Argument :=
  match text.toList with
  | ['-', '-'] => .escape
  | '-' :: '-' :: rest =>
    let name := String.ofList (rest.takeWhile (· ≠ '='))
    match rest.dropWhile (· ≠ '=') with
    | [] => .long name none
    | _ :: value => .long name (some (String.ofList value))
  | '-' :: c :: rest => .short (c :: rest)
  | _ => .word text

abbrev Values := List (Flag × String)

/-- How far the arguments have been read. A pending flag has its value, or waits for it. -/
structure Reading where
  values : Values := []
  pending : Option (Flag × Option String) := none
  ended : Bool := false

namespace Reading

def checkValue (flag : Flag) (value : String) : Except ArgumentError Unit :=
  match flag.kind with
  | .word => .ok ()
  | .path => if value.isEmpty then .error .invalidValue else .ok ()
  | .switch => if value = "true" ∨ value = "false" then .ok () else .error .invalidValue
  | .signed _ | .unsigned => if (flag.number? value).isSome then .ok () else .error .valueValidation

/-- Takes a value for a flag that has none yet. -/
def accept (reading : Reading) (flag : Flag) (value : String) : Except ArgumentError Reading := do
  if (reading.values.lookup flag).isSome then throw .argumentConflict
  checkValue flag value
  return { reading with values := reading.values ++ [(flag, value)] }

/-- Finishes the pending flag, if there is one. -/
def resolve (reading : Reading) : Except ArgumentError Reading :=
  match reading.pending with
  | none => .ok reading
  | some (_, none) => .error .invalidValue
  | some (flag, some value) => { reading with pending := none }.accept flag value

/-- A request to show something and do nothing else. -/
def display (reading : Reading) (attached : Bool) (what : ArgumentError) : Except ArgumentError Reading := do
  if attached then throw .tooManyValues
  let _ ← reading.resolve
  throw what

def takeFlag (reading : Reading) (flag : Flag) (attached : Option String) : Except ArgumentError Reading := do
  match flag.kind, attached with
  | .switch, some _ => throw .tooManyValues
  | .switch, none => (← reading.resolve).accept flag "true"
  | _, some value => (← reading.resolve).accept flag value
  | _, none => return { ← reading.resolve with pending := some (flag, none) }

def takeLong (reading : Reading) (name : String) (attached : Option String) : Except ArgumentError Reading :=
  match name with
  | "help" => reading.display attached.isSome .displayHelp
  | "version" => reading.display attached.isSome .displayVersion
  | _ =>
    match Flag.all.find? (·.name == name) with
    | some flag => reading.takeFlag flag attached
    | none => .error .unknownArgument

def take (reading : Reading) (argument : Argument) : Except ArgumentError Reading :=
  if reading.ended then .error .unknownArgument
  else
    match argument with
    | .escape => .ok { reading with ended := true }
    | .long name attached => reading.takeLong name attached
    | .short ('h' :: _) => reading.display false .displayHelp
    | .short ('V' :: _) => reading.display false .displayVersion
    | .short _ => .error .unknownArgument
    | .word text =>
      match reading.pending with
      | some (flag, none) => .ok { reading with pending := some (flag, some text) }
      | _ => .error .unknownArgument

/-- Takes a flag from the environment, unless the command line has set it. -/
def takeVariable (environment : List (String × String)) (reading : Reading) (flag : Flag) :
    Except ArgumentError Reading :=
  if (reading.values.lookup flag).isSome then .ok reading
  else
    match environment.lookup flag.variableName with
    | some value => reading.accept flag value
    | none => .ok reading

end Reading

namespace Values

/-- Reads arguments and environment; the hostname must be set in one of them. -/
def read (arguments : List String) (environment : List (String × String)) : Except ArgumentError Values := do
  let taken ← arguments.foldlM (fun reading text => reading.take (.ofText text)) ({} : Reading)
  let resolved ← taken.resolve
  let reading ← Flag.all.foldlM (Reading.takeVariable environment) resolved
  if (reading.values.lookup .hostname).isNone then throw .missingRequiredArgument
  return reading.values

def get? (values : Values) (flag : Flag) : Option String := (values.lookup flag).or flag.default?

def word (values : Values) (flag : Flag) : String := (values.get? flag).getD ""

def number (values : Values) (flag : Flag) : Nat := ((values.get? flag).bind flag.number?).getD 0

def isOn (values : Values) (flag : Flag) : Bool := values.lookup flag == some "true"

end Values

end QuorumWarden
