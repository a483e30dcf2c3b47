import Nullness.Graph
import Nullness.Verdict

/-!
# The vocabulary of null annotations

Which annotation types speak about null, and what a single annotation says. Most
types say one thing. A non-null type with arguments says nothing, as the arguments
may change its meaning; `javax.annotation.Nonnull` is read by its `when` argument.

Other types set a default for what their symbol encloses.
-/

namespace Nullness

namespace Vocabulary

/-- Types that ask users to check for null. -/
def strongNullable : List String :=
  [ "javax.annotation.CheckForNull",
    "edu.umd.cs.findbugs.annotations.CheckForNull",
    "org.netbeans.api.annotations.common.CheckForNull",
    "org.springframework.lang.Nullable",
    "reactor.util.annotation.Nullable",
    "org.eclipse.jdt.annotation.Nullable",
    "org.eclipse.jgit.annotations.Nullable" ]

/-- Types that allow null and ask nothing of users. -/
def weakNullable : List String :=
  [ "android.annotation.Nullable",
    "android.support.annotation.Nullable",
    "androidx.annotation.Nullable",
    "com.sun.istack.internal.Nullable",
    "com.mongodb.lang.Nullable",
    "edu.umd.cs.findbugs.annotations.Nullable",
    "io.reactivex.annotations.Nullable",
    "io.reactivex.rxjava3.annotations.Nullable",
    "javax.annotation.Nullable",
    "org.checkerframework.checker.nullness.compatqual.NullableDecl",
    "org.checkerframework.checker.nullness.compatqual.NullableType",
    "org.checkerframework.checker.nullness.qual.Nullable",
    "org.jetbrains.annotations.Nullable",
    "org.jmlspecs.annotation.Nullable",
    "org.netbeans.api.annotations.common.NullAllowed",
    "org.netbeans.api.annotations.common.NullUnknown" ]

/-- Types that exclude null, when they have no arguments. -/
def nonNull : List String :=
  [ "android.annotation.NonNull",
    "android.support.annotation.NonNull",
    "androidx.annotation.NonNull",
    "com.sun.istack.internal.NotNull",
    "com.mongodb.lang.NonNull",
    "edu.umd.cs.findbugs.annotations.NonNull",
    "io.reactivex.annotations.NonNull",
    "io.reactivex.rxjava3.annotations.NonNull",
    "javax.validation.constraints.NotNull",
    "lombok.NonNull",
    "org.checkerframework.checker.nullness.compatqual.NonNullDecl",
    "org.checkerframework.checker.nullness.compatqual.NonNullType",
    "org.checkerframework.checker.nullness.qual.NonNull",
    "org.eclipse.jdt.annotation.NonNull",
    "org.eclipse.jgit.annotations.NonNull",
    "org.jetbrains.annotations.NotNull",
    "org.jmlspecs.annotation.NonNull",
    "org.netbeans.api.annotations.common.NonNull",
    "org.springframework.lang.NonNull",
    "reactor.util.annotation.NonNull" ]

/-- The type that its `when` argument explains. -/
def explainedByWhen : String := "javax.annotation.Nonnull"

/-- Names of `when` constants with what they say, most pressing first. -/
def whenConstants : List (String × Nullability) :=
  [ ("MAYBE", .strongNullable),
    ("NEVER", .strongNullable),
    ("UNKNOWN", .weakNullable),
    ("ALWAYS", .nonNull) ]

/-- How the annotations of one type are read. -/
inductive Sense
  /-- Always the same. -/
  | always (n : Nullability)
  /-- Non-null without arguments, else nothing. -/
  | bareNonNull
  /-- By the `when` argument. -/
  | byWhen
deriving DecidableEq, Repr

/-- How annotations of the type with this qualified name are read, if at all. -/
def sense? (typeName : String) : Option Sense :=
  if typeName = explainedByWhen then some .byWhen
  else if typeName ∈ strongNullable then some (.always .strongNullable)
  else if typeName ∈ weakNullable then some (.always .weakNullable)
  else if typeName ∈ nonNull then some .bareNonNull
  else none

/-- What a default covers. -/
inductive Coverage
  /-- These targets. -/
  | targets (ts : List Target)
  /-- The targets named by the `value` argument, all three without one. -/
  | byValue
deriving DecidableEq, Repr

/-- The three targets proper. -/
def everyTarget : List Target := [.field, .parameter, .result]

/-- Types that make non-null the default of what their symbol encloses. -/
def scopeDefaults : List (String × Coverage) :=
  [ ("javax.annotation.ParametersAreNonnullByDefault", .targets [.parameter]),
    ("org.springframework.lang.NonNullApi", .targets everyTarget),
    ("com.mongodb.lang.NonNullApi", .targets everyTarget),
    ("org.springframework.lang.NonNullFields", .targets [.field]),
    ("org.eclipse.jdt.annotation.NonNullByDefault", .byValue) ]

/-- Names of `value` constants with the target that they stand for. -/
def locations : List (String × Target) :=
  [ ("FIELD", .field), ("PARAMETER", .parameter), ("RETURN_TYPE", .result) ]

/-- The location called `name` is `t`. -/
def isLocation (name : String) (t : Target) : Bool :=
  locations.any fun (n, u) => n == name && u == t

end Vocabulary

namespace Graph

/-- A symbol of this name is mentioned by the value. -/
def mentionsNamed (g : Graph) (v : Value) (name : String) : Bool :=
  v.mentions fun id => (g.symbol id).name == name

/-- What the `when` argument of an annotation makes of it. An annotation without
any arguments is non-null; otherwise the first `when` decides by the most pressing
constant that it mentions. -/
def nullabilityByWhen? (g : Graph) (a : Annotation) : Option Nullability :=
  if a.arguments.isEmpty then some .nonNull
  else
    match a.argument? "when" with
    | none => none
    | some v => (Vocabulary.whenConstants.find? (g.mentionsNamed v ·.1)).map (·.2)

/-- What an annotation says by itself. -/
def nullability? (g : Graph) (a : Annotation) : Option Nullability :=
  match Vocabulary.sense? (g.typeName a) with
  | none => none
  | some (.always n) => some n
  | some .bareNonNull => if a.arguments.isEmpty then some .nonNull else none
  | some .byWhen => g.nullabilityByWhen? a

/-- The annotation makes non-null the default for `t` wherever its symbol encloses it. -/
def setsDefault (g : Graph) (a : Annotation) (t : Target) : Bool :=
  match Vocabulary.scopeDefaults.lookup (g.typeName a) with
  | none => false
  | some (.targets ts) => ts.contains t
  | some .byValue =>
    match a.argument? "value" with
    | none => Vocabulary.everyTarget.contains t
    | some v => v.mentions fun id => Vocabulary.isLocation (g.symbol id).name t

end Graph

end Nullness
