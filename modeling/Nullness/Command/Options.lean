/-!
# Command line options

Options are read from the left. The first thing that is wrong ends the reading, and
so does a question for help or for the version, before anything behind it is looked at.
-/

namespace Nullness

namespace Command

/-- What the program is to do. -/
structure Options where
  input : String
  output : Option String := none
  quiet : Bool := false
  timing : Bool := false
  /-- The endpoint to which spans are to be sent. -/
  otel : Option String := none
deriving DecidableEq, Repr

/-- What a command line asks for. -/
inductive Request
  | resolve (o : Options)
  | version
  | help
deriving DecidableEq, Repr

/-- What can be wrong with a command line. -/
inductive UsageError
  | unknown (argument : String)
  | noValue (option : String)
  | needlessValue (option : String)
  | repeated (option : String)
  | noInput
deriving DecidableEq, Repr

def UsageError.message : UsageError → String
  | unknown argument => s!"unexpected argument '{argument}' found"
  | noValue option => s!"a value is required for '{option}' but none was supplied"
  | needlessValue option => s!"unexpected value for '{option}' found; no more were expected"
  | repeated option => s!"the argument '{option}' cannot be used multiple times"
  | noInput => "the following required arguments were not provided:\n  --input <PATH>"

/-- The options read so far. -/
structure Draft where
  input : Option String := none
  output : Option String := none
  quiet : Bool := false
  timing : Bool := false
  otel : Option String := none

/-- The options, if nothing that is needed is missing. -/
def Draft.finish (d : Draft) : Except UsageError Request :=
  match d.input with
  | none => .error .noInput
  | some input => .ok (.resolve { d with input })

/-- The options that take a value. -/
inductive Valued
  | input
  | output
  | otel
deriving DecidableEq, Repr

def Valued.name : Valued → String
  | input => "--input"
  | output => "--output"
  | otel => "--otel"

/-- The option with a value that an argument names. -/
def Valued.ofName? (name : String) : Option Valued :=
  [input, output, otel].find? (·.name == name)

/-- Gives an option its value. Paths are not empty. -/
def Draft.set (d : Draft) (o : Valued) (value : String) : Except UsageError Draft :=
  let once (old : Option String) (new : Draft) : Except UsageError Draft :=
    if old.isSome then .error (.repeated o.name) else .ok new
  match o with
  | .input =>
    if value.isEmpty then .error (.noValue o.name)
    else once d.input { d with input := some value }
  | .output =>
    if value.isEmpty then .error (.noValue o.name)
    else once d.output { d with output := some value }
  | .otel => once d.otel { d with otel := some value }

/-- The options without a value. -/
inductive Plain
  | quiet
  | timing
  | version
  | help
deriving DecidableEq, Repr

def Plain.name : Plain → String
  | quiet => "--quiet"
  | timing => "--timing"
  | version => "--version"
  | help => "--help"

/-- The option without a value that an argument names. -/
def Plain.ofName? (name : String) : Option Plain :=
  [quiet, timing, version, help].find? (·.name == name)

/-- What an option without a value comes to: a request that ends the reading, or more
options. -/
def Draft.switch (d : Draft) : Plain → Except UsageError (Request ⊕ Draft)
  | .quiet => if d.quiet then .error (.repeated "--quiet") else .ok (.inr { d with quiet := true })
  | .timing =>
    if d.timing then .error (.repeated "--timing") else .ok (.inr { d with timing := true })
  | .version => .ok (.inl .version)
  | .help => .ok (.inl .help)

/-- The name and the value of an argument with an equals sign. -/
def splitEquals (argument : String) : String × Option String :=
  let cs := argument.toList
  match cs.dropWhile (· ≠ '=') with
  | [] => (argument, none)
  | _ :: value => (String.ofList (cs.takeWhile (· ≠ '=')), some (String.ofList value))

/-- An argument that is not taken for the value of the option before it. -/
def looksLikeOption (argument : String) : Bool :=
  argument.startsWith "-" && argument != "-"

/-- Reads arguments, behind those that made `d`. -/
def readFrom (d : Draft) : List String → Except UsageError Request
  | [] => d.finish
  | a :: rest =>
    if a = "--" then
      match rest with
      | [] => d.finish
      | b :: _ => .error (.unknown b)
    else if a.startsWith "--" then
      let (name, value) := splitEquals a
      match Valued.ofName? name, Plain.ofName? name, value with
      | some o, _, some v =>
        match d.set o v with
        | .error e => .error e
        | .ok d => readFrom d rest
      | some o, _, none =>
        match rest with
        | [] => .error (.noValue name)
        | v :: rest =>
          if looksLikeOption v then .error (.noValue name)
          else
            match d.set o v with
            | .error e => .error e
            | .ok d => readFrom d rest
      | none, some _, some _ => .error (.needlessValue name)
      | none, some o, none =>
        match d.switch o with
        | .error e => .error e
        | .ok (.inl r) => .ok r
        | .ok (.inr d) => readFrom d rest
      | none, none, _ => .error (.unknown name)
    else if a.startsWith "-V" then .ok .version
    else if a.startsWith "-h" then .ok .help
    else .error (.unknown a)

/-- Reads a command line. -/
def read (args : List String) : Except UsageError Request :=
  readFrom {} args

end Command

end Nullness
