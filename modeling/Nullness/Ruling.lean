import Nullness.Vocabulary

/-!
# Rulings

What a list of annotations says as a whole. A type about which nothing is known
might say anything, so a list that meets one is ambiguous, unless a strong
nullable annotation has settled the matter before.
-/

namespace Nullness

/-- The outcome of a list of annotations that says something. -/
inductive Ruling
  | ambiguous
  | found (n : Nullability) (source : Annotation)

namespace Ruling

/-- The verdict that a ruling gives for annotations at a symbol of the given kind. -/
def verdict (origin : Kind) (viaMeta : Bool) : Ruling → Verdict
  | ambiguous => .undecided
  | found n source => .make (some n) (.ofKind origin) source viaMeta

end Ruling

namespace Graph

/-- Reads annotations in order, with the best one so far. The first strong nullable
one ends the search; of weak nullable ones the last counts, and of non-null ones
the first, if nothing else comes. -/
def rulingAfter (g : Graph) (best : Option (Nullability × Annotation)) :
    List Annotation → Option Ruling
  | [] => best.map fun (n, a) => .found n a
  | a :: rest =>
    if g.isUnknownType a then some .ambiguous
    else
      match g.nullability? a with
      | some .strongNullable => some (.found .strongNullable a)
      | some .weakNullable => g.rulingAfter (some (.weakNullable, a)) rest
      | some .nonNull => g.rulingAfter (best <|> some (.nonNull, a)) rest
      | none => g.rulingAfter best rest

/-- What a list of annotations says about the symbol it is attached to. -/
def ruling (g : Graph) (as : List Annotation) : Option Ruling :=
  g.rulingAfter none as

/-- What a list of annotations says about a target that its symbol encloses: the
first default for it, unless some type of the list is unknown. -/
def defaultRuling (g : Graph) (t : Target) (as : List Annotation) : Option Ruling :=
  if as.any g.isUnknownType then some .ambiguous
  else (as.find? (g.setsDefault · t)).map (.found .nonNull)

end Graph

end Nullness
