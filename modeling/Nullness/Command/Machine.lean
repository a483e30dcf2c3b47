import Nullness.Endpoint
import Nullness.Loading

/-!
# What the command needs of its surroundings

Files, two places to write to, a clock, and an exporter that sends what is traced of a run to an
endpoint. Everything that can go wrong with them has a cause of its own.
-/

namespace Nullness

namespace Command

/-- A failure of the operating system: its number and what it is called. -/
structure OsError where
  code : Nat
  text : String
deriving DecidableEq, Repr

namespace OsError

def notFound : OsError := ⟨2, "No such file or directory"⟩

def notDirectory : OsError := ⟨20, "Not a directory"⟩

def isDirectory : OsError := ⟨21, "Is a directory"⟩

def message (e : OsError) : String := s!"{e.text} (os error {e.code})"

end OsError

/-- Why a file gives no text. -/
inductive ReadError
  | os (e : OsError)
  /-- Its bytes are not UTF-8. -/
  | notText
deriving DecidableEq, Repr

def ReadError.message : ReadError → String
  | os e => e.message
  | notText => "stream did not contain valid UTF-8"

/-- Why a text is not written. -/
inductive SaveError
  /-- The file cannot be opened; it is as it was. -/
  | opening (e : OsError)
  | writing (e : OsError)
deriving DecidableEq, Repr

/-- Where a report goes. -/
inductive Sink
  | standard
  | file (path : String)
deriving DecidableEq, Repr

/-- What the command does to its surroundings. -/
structure Machine (m : Type → Type) where
  /-- There is a file or a directory. -/
  isThere : String → m Bool
  read : String → m (Except ReadError String)
  /-- Writes a text, in place of what a file held. -/
  save : Sink → String → m (Except SaveError Unit)
  /-- Writes to where messages go. -/
  tell : String → m Unit
  /-- Milliseconds since some moment. -/
  clock : m Nat
  /-- Begins to send spans to an endpoint, or says why it cannot, the most general first. -/
  connect : String → m (Except (List String) Unit)
  /-- Sends the last spans and ends, or says why it cannot. -/
  disconnect : m (Except String Unit)

/-- Why the command fails. -/
inductive Failure
  | inputNotFound (path : String)
  | endpoint (e : Url.UrlError)
  /-- There is no exporter for the endpoint. -/
  | exporter (causes : List String)
  | input (path : String) (e : ReadError)
  | graph (path : String) (e : LoadError)
  | output (path : String) (e : OsError)
  | report (e : OsError)
  /-- The last spans are not sent. -/
  | unsent (cause : String)

namespace Failure

/-- The messages of a failure, from the most general to the cause. -/
def messages : Failure → List String
  | inputNotFound path => [s!"input not found: {path}"]
  | endpoint e => [Endpoint.context, e.message]
  | exporter causes => "build OTLP span exporter" :: causes
  | input path e => [s!"failed to read {path}", e.message]
  | graph path e => s!"failed to load {path}" :: e.messages
  | output path e => [s!"failed to open {path}", e.message]
  | report e => ["failed to serialize nullability report", e.message]
  | unsent cause => [s!"failed to shutdown tracer provider: {cause}"]

/-- A message with its further lines moved to the right. -/
def indented (spaces : Nat) (message : String) : String :=
  ("\n" ++ String.ofList (List.replicate spaces ' ')).intercalate (message.splitOn "\n")

/-- The causes, numbered from zero. -/
def numbered (n : Nat) : List String → String
  | [] => ""
  | m :: ms =>
    let number := toString n
    let margin := String.ofList (List.replicate (5 - number.length) ' ')
    s!"\n{margin}{number}: {indented 7 m}{numbered (n + 1) ms}"

/-- The text of a failure: the message, then its causes, numbered if there are more
than one. -/
def text (f : Failure) : String :=
  match f.messages with
  | [] => "Error: \n"
  | [m] => s!"Error: {m}\n"
  | [m, cause] => s!"Error: {m}\n\nCaused by:\n    {indented 4 cause}\n"
  | m :: causes => s!"Error: {m}\n\nCaused by:{numbered 0 causes}\n"

end Failure

end Command

end Nullness
