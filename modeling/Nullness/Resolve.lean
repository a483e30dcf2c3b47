import Nullness.Expansion
import Nullness.Ruling

/-!
# Effective nullability

A symbol is judged by its own annotations, then by what these expand to, and then
by the defaults of its owners, nearest first, up to the first package. Whatever is
unknown on the way ends the search without a finding.
-/

namespace Nullness

namespace Graph

/-- The target that a symbol itself suggests. Packages, classes and local variables
suggest none. -/
def target? (g : Graph) (id : SymbolId) : Option Target :=
  let s := g.symbol id
  match s.kind with
  | .method => some .result
  | .var =>
    if s.isLocal then none
    else
      match s.owner.map fun o => (g.symbol o).kind with
      | some .cls => some .field
      | some .method => some .parameter
      | _ => none
  | _ => none

/-- The verdict of the annotations at a symbol: `rule` is tried on the annotations
attached to it, then on their expansion. -/
def verdictAt? (g : Graph) (rule : List Annotation → Option Ruling) (id : SymbolId) :
    Option Verdict :=
  let s := g.symbol id
  match rule s.annotations with
  | some r => some (r.verdict s.kind false)
  | none => (rule (g.expand s.annotations)).map (·.verdict s.kind true)

/-- What a symbol's own annotations say. -/
def ownVerdict? (g : Graph) (id : SymbolId) : Option Verdict :=
  g.verdictAt? g.ruling id

/-- What an owner says about a target that it encloses. -/
def defaultVerdict? (g : Graph) (t : Target) (owner : SymbolId) : Option Verdict :=
  if (g.symbol owner).isUnknown then some .undecided
  else g.verdictAt? (g.defaultRuling t) owner

/-- The effective nullability of a symbol as a target. -/
def resolve (g : Graph) (id : SymbolId) (t : Target) : Verdict :=
  if (g.symbol id).isUnknown then .undecided
  else
    match g.ownVerdict? id with
    | some v => v
    | none => ((g.owners id).findSome? (g.defaultVerdict? t)).getD .undecided

/-- The effective nullability of a symbol as the target that it suggests. -/
def nullability (g : Graph) (id : SymbolId) : Verdict :=
  match g.target? id with
  | some t => g.resolve id t
  | none => .undecided

/-- The effective nullability of a symbol as the target asked about, or else as the one
that it suggests. -/
def answer (g : Graph) (id : SymbolId) : Option Target → Verdict
  | some t => g.resolve id t
  | none => g.nullability id

/-- Where the type of the deciding annotation is declared. -/
def siteOf? (g : Graph) (v : Verdict) : Option Site :=
  v.source?.bind fun a => (g.symbol a.type).site

end Graph

end Nullness
