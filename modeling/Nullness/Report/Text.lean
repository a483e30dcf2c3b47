import Nullness.Report
import Nullness.Json.Printer

/-!
# The text of a report

A report is written as JSON: the summary, then the entries. What an entry does not
have is left out.
-/

namespace Nullness

/-- A natural number. -/
def Json.nat (n : Nat) : Json := .num (.int n)

/-- The fields of an object that are there. -/
def Json.record (fields : List (String × Option Json)) : Json :=
  .obj (fields.filterMap fun (k, v) => v.map (k, ·))

def Site.json (s : Site) : Json :=
  .obj [("path", .str s.path), ("line", .nat s.line)]

def ReportEntry.json (e : ReportEntry) : Json :=
  .record
    [ ("symbol", some (.str e.symbol)),
      ("kind", some (.str e.kind.word)),
      ("target", e.target.map fun t => .str t.word),
      ("type", some (.str e.verdict.word)),
      ("level", some (.str e.verdict.level.word)),
      ("annotation", e.source.map .str),
      ("meta_annotation", some (.bool e.verdict.viaMeta)),
      ("declaration", e.site.map Site.json) ]

def Summary.json (s : Summary) : Json :=
  .obj
    [ ("symbols", .nat s.symbols),
      ("non_null", .nat s.nonNull),
      ("weak_nullable", .nat s.weakNullable),
      ("strong_nullable", .nat s.strongNullable),
      ("unknown", .nat s.unknown) ]

def Report.json (r : Report) : Json :=
  .obj [("summary", r.summary.json), ("symbols", .arr (r.entries.map ReportEntry.json))]

/-- A report as it is written, with the end of its last line. -/
def Report.text (r : Report) : String :=
  String.ofList (r.json.print 0 ++ ['\n'])

end Nullness
