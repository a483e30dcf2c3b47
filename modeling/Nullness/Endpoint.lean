import Nullness.Url.Parse

/-!
# Collector endpoints

Spans are sent to a path of their own. An endpoint that names only a host, or the path
for logs, is pointed to the path for spans in its place; every other path is kept.
-/

namespace Nullness

namespace Endpoint

/-- The end of a path for spans. -/
def traces : List Char := "/v1/traces".toList

/-- The end of a path for logs. -/
def logs : List Char := "/v1/logs".toList

/-- The text in front of a suffix. -/
def beforeSuffix? {α : Type} [BEq α] (suffix s : List α) : Option (List α) :=
  if suffix.isSuffixOf s then some (s.take (s.length - suffix.length)) else none

/-- The path for spans in place of another one; none if the path is kept. -/
def tracePath? (path : List Char) : Option (List Char) :=
  if path = ['/'] then some traces else (beforeSuffix? logs path).map (· ++ traces)

/-- The endpoint for spans that belongs to a URL. -/
def forTraces (u : Url) : Url :=
  match tracePath? u.path.text with
  | some path => u.withPath path
  | none => u

/-- The endpoint for spans that a text stands for. -/
def normalize (s : String) : Except Url.UrlError String :=
  match Url.parse s.toList with
  | .error e => .error e
  | .ok u => .ok (String.ofList (forTraces u).text)

/-- What is said of an endpoint that is no URL. -/
def context : String := "parse OTLP endpoint"

end Endpoint

end Nullness
