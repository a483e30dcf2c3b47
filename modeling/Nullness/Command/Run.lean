import Nullness.Command.Machine
import Nullness.Command.Options
import Nullness.Report.Text

/-!
# The command

The input is read and resolved before the output is touched, so a run that fails
leaves everything as it was. A run that succeeds writes the report to one place. Only the
sending of spans, if there is an endpoint for them, may fail after that.
-/

namespace Nullness

namespace Command

variable {m : Type → Type} [Monad m]

/-- The line of `--version`. -/
def versionText : String := "nullscope 0.1.0\n"

/-- The text of `--help`. -/
def helpText : String :=
  "Resolve effective nullability of fields, parameters and methods from an annotated symbol graph.\n\n" ++
  "Usage: nullscope [OPTIONS] --input <PATH>\n\n" ++
  "Options:\n" ++
  "      --input <PATH>   \n" ++
  "      --output <PATH>  \n" ++
  "      --quiet          \n" ++
  "      --timing         \n" ++
  "      --otel <URL>     OTLP/HTTP collector endpoint for span export\n" ++
  "  -h, --help           Print help\n" ++
  "  -V, --version        Print version\n"

/-- The text of a usage error. -/
def UsageError.text (e : UsageError) : String :=
  s!"error: {e.message}\n\nUsage: nullscope [OPTIONS] --input <PATH>\n\n" ++
  "For more information, try '--help'.\n"

/-- The names in a path. A dot counts only at the front, and slashes in a row are one. -/
def pathNames (path : String) : List String :=
  match path.splitOn "/" with
  | [] => []
  | front :: names =>
    let names := names.filter fun n => n ≠ "" ∧ n ≠ "."
    if front = "" then "/" :: names else front :: names

/-- Where the report goes: a single dash is not a file. -/
def Options.sink (o : Options) : Sink :=
  match o.output with
  | none => .standard
  | some path => if pathNames path = ["-"] then .standard else .file path

/-- The line about the time that a run took. -/
def timingText (total load resolve symbols reported : Nat) : String :=
  s!"timing: total_ms={total} load_ms={load} resolve_ms={resolve} graph_symbols={symbols} " ++
  s!"reported={reported}\n"

/-- The graph that the input holds. -/
def load (M : Machine m) (path : String) : m (Except Failure Graph) := do
  match ← M.read path with
  | .error e => return .error (.input path e)
  | .ok text =>
    match Graph.ofText text with
    | .error e => return .error (.graph path e)
    | .ok g => return .ok g

/-- The failure of a report that is not written. -/
def saveFailure : Sink → SaveError → Failure
  | .file path, .opening e => .output path e
  | .standard, .opening e => .report e
  | _, .writing e => .report e

/-- The endpoint that spans are sent to, if one is given. -/
def endpoint? (o : Options) : Except Failure (Option String) :=
  match o.otel with
  | none => .ok none
  | some url =>
    match Endpoint.normalize url with
    | .ok endpoint => .ok (some endpoint)
    | .error e => .error (.endpoint e)

/-- Begins to send spans, if there is an endpoint. -/
def connect (M : Machine m) : Option String → m (Except Failure Unit)
  | none => return .ok ()
  | some endpoint => do
    match ← M.connect endpoint with
    | .error causes => return .error (.exporter causes)
    | .ok _ => return .ok ()

/-- Sends the last spans, if there is an endpoint. -/
def disconnect (M : Machine m) : Option String → m (Except Failure Unit)
  | none => return .ok ()
  | some _ => do
    match ← M.disconnect with
    | .error cause => return .error (.unsent cause)
    | .ok _ => return .ok ()

/-- Resolves the graph of the input and writes the report. -/
def writeReport (M : Machine m) (o : Options) : m (Except Failure Unit) := do
  let started ← M.clock
  match ← load M o.input with
  | .error f => return .error f
  | .ok g =>
    let loaded ← M.clock
    let report := g.report
    let resolved ← M.clock
    match ← M.save o.sink report.text with
    | .error e => return .error (saveFailure o.sink e)
    | .ok _ =>
      if o.timing && !o.quiet then
        let done ← M.clock
        M.tell (timingText (done - started) (loaded - started) (resolved - loaded) g.size
          report.summary.symbols)
      return .ok ()

/-- Resolves the graph of the input and writes the report, if there is an input, and if spans
can be sent to the endpoint. -/
def resolve (M : Machine m) (o : Options) : m (Except Failure Unit) := do
  if !(← M.isThere o.input) then return .error (.inputNotFound o.input)
  match endpoint? o with
  | .error f => return .error f
  | .ok endpoint =>
    match ← connect M endpoint with
    | .error f => return .error f
    | .ok _ =>
      match ← writeReport M o with
      | .error f => return .error f
      | .ok _ => disconnect M endpoint

/-- Runs the command and gives its exit code. -/
def run (M : Machine m) (args : List String) : m Nat := do
  match read args with
  | .error e =>
    M.tell e.text
    return 2
  | .ok .version =>
    let _ ← M.save .standard versionText
    return 0
  | .ok .help =>
    let _ ← M.save .standard helpText
    return 0
  | .ok (.resolve o) =>
    match ← resolve M o with
    | .error f =>
      M.tell f.text
      return 1
    | .ok _ => return 0

end Command

end Nullness
