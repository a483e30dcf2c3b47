import Nullness.Symbol

/-!
# Verdicts

What can be said about null at one symbol: nothing, or a finding, which names the
annotation that decided and the level at which it stands. Whoever finds nothing gives
the same shared verdict.

A verdict is asked three questions: is it non-null, is it nullable, is it nullable
in the strong sense. Each question sets the level that it must reach and gives the
answer for the case that there is nothing to go by.
-/

namespace Nullness

/-- What an annotation says about null. -/
inductive Nullability
  | nonNull
  /-- It may be null, and users need not check. -/
  | weakNullable
  /-- It may be null, and users must check. -/
  | strongNullable
deriving DecidableEq, Repr, Inhabited

/-- How specific a finding is, or that there is none. -/
inductive Level
  | unknown
  | pkg
  | cls
  | method
  | var
deriving DecidableEq, Repr, Inhabited

namespace Level

/-- The level of annotations attached to a symbol of this kind. -/
def ofKind : Kind → Level
  | .pkg => .pkg
  | .cls => .cls
  | .method => .method
  | .var => .var

/-- Place in the order from the least to the most specific. -/
def rank : Level → Nat
  | .unknown => 0
  | .pkg => 1
  | .cls => 2
  | .method => 3
  | .var => 4

/-- All levels, least specific first. -/
def all : List Level := [.unknown, .pkg, .cls, .method, .var]

instance : LE Level := ⟨fun a b => a.rank ≤ b.rank⟩

instance (a b : Level) : Decidable (a ≤ b) := inferInstanceAs (Decidable (a.rank ≤ b.rank))

/-- The word for a level. -/
def word : Level → String
  | .unknown => "UNKNOWN"
  | .pkg => "PACKAGE"
  | .cls => "CLASS"
  | .method => "METHOD"
  | .var => "VARIABLE"

end Level

/-- What a query asks about, and what a default covers. -/
inductive Target
  | field
  | parameter
  /-- The value that a method returns. -/
  | result
  /-- Nothing in particular: no default covers it. -/
  | unspecified
deriving DecidableEq, Repr, Inhabited

/-- The word for a target. -/
def Target.word : Target → String
  | .field => "FIELD"
  | .parameter => "PARAMETER"
  | .result => "METHOD"
  | .unspecified => "UNKNOWN"

/-- What was found out about a symbol, and from which annotation. -/
structure Finding where
  nullability : Nullability
  /-- The kind of symbol that the annotation, or what leads to it, is attached to. -/
  origin : Kind
  /-- The annotation that decided. -/
  source : Annotation
  /-- The annotation stands on an annotation type and not on the symbol. -/
  viaMeta : Bool

/-- What a search comes to. Its parts stand side by side, and nothing in the type makes them
agree. -/
structure Verdict where
  /-- What it says about null; none if that is unknown. -/
  nullability? : Option Nullability
  level : Level
  /-- The annotation that decided, if any. -/
  source? : Option Annotation
  /-- The annotation stands on an annotation type and not on the symbol. -/
  viaMeta : Bool
  /-- It is the one instance that is kept for all searches without a finding. A verdict that is
  made anew is another instance, whatever its parts are. -/
  isShared : Bool

namespace Verdict

/-- The shared instance: nothing was found out. -/
def undecided : Verdict where
  nullability? := none
  level := .unknown
  source? := none
  viaMeta := false
  isShared := true

/-- A new verdict that names an annotation. -/
def make (nullability? : Option Nullability) (level : Level) (source : Annotation)
    (viaMeta : Bool) : Verdict where
  nullability?
  level
  source? := some source
  viaMeta
  isShared := false

/-- The verdict of a finding. -/
def decided (f : Finding) : Verdict :=
  make (some f.nullability) (.ofKind f.origin) f.source f.viaMeta

instance : Inhabited Verdict := ⟨undecided⟩

/-- Whether it is the shared instance. -/
def isUndecided (v : Verdict) : Bool := v.isShared

/-- The word for what a verdict says about null. -/
def word (v : Verdict) : String :=
  match v.nullability? with
  | none => "UNKNOWN"
  | some .nonNull => "NON_NULL"
  | some .weakNullable => "WEAK_NULLABLE"
  | some .strongNullable => "STRONG_NULLABLE"

/-! ## Questions -/

/-- Asks whether a verdict satisfies `p` at `minLevel` or a more specific level. If it says
nothing, or if it is to be ignored, the answer is `default`. -/
def ask (v : Verdict) (p : Nullability → Bool) (minLevel : Level) (ignoreMeta default : Bool) :
    Bool :=
  match v.nullability? with
  | none => default
  | some n =>
    if ignoreMeta && v.viaMeta then default else p n && decide (minLevel ≤ v.level)

def isNonNull (v : Verdict) : Level → Bool → Bool → Bool :=
  v.ask (· = .nonNull)

def isNullable (v : Verdict) : Level → Bool → Bool → Bool :=
  v.ask fun n => n = .weakNullable ∨ n = .strongNullable

def isStrongNullable (v : Verdict) : Level → Bool → Bool → Bool :=
  v.ask (· = .strongNullable)

/-! ## Sameness -/

/-- Two verdicts name the same annotation, or none. -/
def sameSource : Option Annotation → Option Annotation → Bool
  | none, none => true
  | some a, some b => a.same b
  | _, _ => false

/-- Two verdicts say the same, for the same reason. They need not be one instance. -/
def same (v w : Verdict) : Bool :=
  v.nullability? == w.nullability? && v.level == w.level && sameSource v.source? w.source? &&
    v.viaMeta == w.viaMeta

end Verdict

end Nullness
