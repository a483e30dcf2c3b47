import Nullness.Resolve

/-!
# Reports

A report lists the verdict on every declared method and variable of a graph, in
the graph's order, and counts them.
-/

namespace Nullness

/-- The verdict on one symbol, in words. -/
structure ReportEntry where
  symbol : String
  kind : Kind
  target : Option Target
  verdict : Verdict
  /-- The qualified name of the deciding annotation's type. -/
  source : Option String
  site : Option Site

/-- How many entries there are, and how many of each verdict. -/
structure Summary where
  symbols : Nat
  nonNull : Nat
  weakNullable : Nat
  strongNullable : Nat
  unknown : Nat
deriving DecidableEq, Repr

/-- A summary followed by the entries. -/
structure Report where
  summary : Summary
  entries : List ReportEntry

/-- Counts one more entry, by what it says. -/
def Summary.count (s : Summary) (e : ReportEntry) : Summary :=
  match e.verdict.nullability? with
  | some .nonNull => { s with nonNull := s.nonNull + 1 }
  | some .weakNullable => { s with weakNullable := s.weakNullable + 1 }
  | some .strongNullable => { s with strongNullable := s.strongNullable + 1 }
  | none => { s with unknown := s.unknown + 1 }

/-- Counts entries one after the other. -/
def Summary.ofEntries (es : List ReportEntry) : Summary :=
  es.foldl Summary.count
    { symbols := es.length, nonNull := 0, weakNullable := 0, strongNullable := 0, unknown := 0 }

namespace Graph

/-- The entry of a symbol with a given verdict. -/
def entryOf (g : Graph) (id : SymbolId) (v : Verdict) : ReportEntry where
  symbol := (g.symbol id).qualifiedName
  kind := (g.symbol id).kind
  target := g.target? id
  verdict := v
  source := v.source?.map g.typeName
  site := g.siteOf? v

/-- The entry of a symbol. -/
def entry (g : Graph) (id : SymbolId) : ReportEntry :=
  g.entryOf id (g.nullability id)

/-- The symbol has an entry: a method or a variable, and not merely referred to. -/
def isReported (g : Graph) (id : SymbolId) : Bool :=
  let s := g.symbol id
  (s.kind == .method || s.kind == .var) && !s.isSynthetic

/-- The symbols that have an entry, in the graph's order. -/
def reported (g : Graph) : List SymbolId :=
  (List.range g.size).filter g.isReported

/-- The whole report. -/
def report (g : Graph) : Report :=
  let entries := g.reported.map g.entry
  { summary := .ofEntries entries, entries }

end Graph

end Nullness
