import Mathlib.Data.List.Forall2
import Nullness.Proofs.Ruling

/-!
# Constants in arguments

An argument speaks about null through the constants that it mentions. These may stand in lists,
and in lists of lists; what stands in a nested annotation is not looked at. Only the names count
that are met in this way, not how often, in which order or how deep.

- `Value.symbols`, `Graph.constants`: what a value mentions, in written order.
- `Annotation.Related`: annotations that differ in the values of their arguments.
- `Graph.nullability?_of_related`, `Graph.setsDefault_of_related`: values that mention the same
  constants say the same.
- `Value.Reshaped`: values whose lists are in another order, more or less deep, or repetitive.
- `Graph.read_by_constants`: how the two types with telling arguments are read.
-/

namespace Nullness

/-! ## What a value mentions -/

mutual

/-- The symbols that a value refers to, directly or through lists, in written order. -/
def Value.symbols : Value → List SymbolId
  | .symbol id => [id]
  | .list vs => Value.symbolsOfAll vs
  | .scalar _ | .nested _ => []

/-- The symbols that the values of a list refer to. -/
def Value.symbolsOfAll : List Value → List SymbolId
  | [] => []
  | v :: vs => v.symbols ++ Value.symbolsOfAll vs

end

mutual

theorem Value.mentions_eq_any (p : SymbolId → Bool) : ∀ v : Value, v.mentions p = v.symbols.any p
  | .scalar _ => rfl
  | .symbol id => (Bool.or_false (p id)).symm
  | .nested _ => rfl
  | .list vs => Value.anyMentions_eq_any p vs

theorem Value.anyMentions_eq_any (p : SymbolId → Bool) :
    ∀ vs : List Value, Value.anyMentions p vs = (Value.symbolsOfAll vs).any p
  | [] => rfl
  | v :: vs => by
      rw [Value.anyMentions, Value.symbolsOfAll, List.any_append, Value.mentions_eq_any p v,
        Value.anyMentions_eq_any p vs]

end

theorem Value.mem_symbolsOfAll {vs : List Value} {i : SymbolId} :
    i ∈ Value.symbolsOfAll vs ↔ ∃ v ∈ vs, i ∈ v.symbols := by
  induction vs with
  | nil => simp [Value.symbolsOfAll]
  | cons v vs ih => simp [Value.symbolsOfAll, ih]

/-- Values that say the same things in lists of another shape: elements may change places, stand
several times, and stand in a list of their own or in the list around it. -/
inductive Value.Reshaped : Value → Value → Prop
  | refl (v : Value) : Reshaped v v
  | symm {v w : Value} : Reshaped v w → Reshaped w v
  | trans {u v w : Value} : Reshaped u v → Reshaped v w → Reshaped u w
  | reorder {vs ws : List Value} : vs.Perm ws → Reshaped (.list vs) (.list ws)
  | repeated {v : Value} {vs : List Value} : v ∈ vs → Reshaped (.list vs) (.list (v :: vs))
  | flatten (before inner after : List Value) :
      Reshaped (.list (before ++ .list inner :: after)) (.list (before ++ inner ++ after))
  | nest (v : Value) : Reshaped v (.list [v])
  | element (before after : List Value) {v w : Value} : Reshaped v w →
      Reshaped (.list (before ++ v :: after)) (.list (before ++ w :: after))

theorem Value.Reshaped.mem_symbols_iff {v w : Value} (h : v.Reshaped w) (i : SymbolId) :
    i ∈ v.symbols ↔ i ∈ w.symbols := by
  induction h with
  | refl v => exact Iff.rfl
  | symm _ ih => exact ih.symm
  | trans _ _ ih ih' => exact ih.trans ih'
  | reorder hperm =>
      rw [Value.symbols, Value.symbols, Value.mem_symbolsOfAll, Value.mem_symbolsOfAll]
      exact exists_congr fun v => and_congr_left fun _ => hperm.mem_iff
  | @repeated v vs hv =>
      rw [Value.symbols, Value.symbols, Value.symbolsOfAll, List.mem_append,
        Value.mem_symbolsOfAll]
      constructor
      · exact Or.inr
      · rintro (hi | hi)
        · exact ⟨v, hv, hi⟩
        · exact hi
  | flatten before inner after =>
      simp only [Value.symbols, Value.mem_symbolsOfAll, List.mem_append, List.mem_cons,
        or_and_right, exists_or, exists_eq_left, or_assoc]
  | nest v => simp [Value.symbols, Value.symbolsOfAll]
  | element before after _ ih =>
      simp only [Value.symbols, Value.mem_symbolsOfAll, List.mem_append, List.mem_cons,
        or_and_right, exists_or, exists_eq_left, ih]

/-! ## Arguments -/

/-- Annotations of one type with arguments of the same names, one by one, whose values are related
by `R`. -/
structure Annotation.Related (R : Value → Value → Prop) (a b : Annotation) : Prop where
  type : b.type = a.type
  arguments : List.Forall₂ (fun x y => y.name = x.name ∧ R x.value y.value) a.arguments b.arguments

theorem Annotation.Related.mono {R S : Value → Value → Prop} {a b : Annotation}
    (hRS : ∀ v w, R v w → S v w) (h : a.Related R b) : a.Related S b :=
  ⟨h.type, h.arguments.imp fun x y hxy => ⟨hxy.1, hRS x.value y.value hxy.2⟩⟩

theorem Annotation.Related.argument? {R : Value → Value → Prop} {a b : Annotation}
    (h : a.Related R b) (name : String) : Option.Rel R (a.argument? name) (b.argument? name) :=
  Annotation.argument?_rel h.arguments name

/-- `v` is the value of the first argument called `name`. -/
def Annotation.FirstArgument (a : Annotation) (name : String) (v : Value) : Prop :=
  ∃ before after, a.arguments = before ++ ⟨name, v⟩ :: after ∧ ∀ b ∈ before, b.name ≠ name

theorem Annotation.argument?_eq_none_iff {a : Annotation} {name : String} :
    a.argument? name = none ↔ ∀ b ∈ a.arguments, b.name ≠ name := by
  unfold Annotation.argument?
  simp

theorem Annotation.FirstArgument.argument? {a : Annotation} {name : String} {v : Value}
    (h : a.FirstArgument name v) : a.argument? name = some v := by
  obtain ⟨before, after, hsplit, hbefore⟩ := h
  have hfind : a.arguments.find? (·.name == name) = some ⟨name, v⟩ :=
    List.find?_eq_some_iff_append.mpr
      ⟨beq_self_eq_true name, before, after, hsplit, fun b hb => by simpa using hbefore b hb⟩
  unfold Annotation.argument?
  rw [hfind]
  rfl

namespace Vocabulary

/-- What `when` constants of these names come to: the most pressing one counts. -/
def mostPressing? (names : List String) : Option Nullability :=
  if "MAYBE" ∈ names ∨ "NEVER" ∈ names then some .strongNullable
  else if "UNKNOWN" ∈ names then some .weakNullable
  else if "ALWAYS" ∈ names then some .nonNull
  else none

/-- Looking for the constants one after the other finds the most pressing one. -/
theorem find?_whenConstants (names : List String) :
    (whenConstants.find? fun c => names.any (· == c.1)).map (·.2) = mostPressing? names := by
  have hany : ∀ n : String, names.any (· == n) = decide (n ∈ names) := by
    intro n
    rw [Bool.eq_iff_iff]
    simp
  unfold whenConstants mostPressing?
  simp only [hany, List.find?_cons, List.find?_nil]
  by_cases hmaybe : "MAYBE" ∈ names
  · simp [hmaybe]
  · by_cases hnever : "NEVER" ∈ names
    · simp [hmaybe, hnever]
    · by_cases hunknown : "UNKNOWN" ∈ names
      · simp [hmaybe, hnever, hunknown]
      · by_cases halways : "ALWAYS" ∈ names
        · simp [hmaybe, hnever, hunknown, halways]
        · simp [hmaybe, hnever, hunknown, halways]

theorem isLocation_iff {name : String} {t : Target} :
    isLocation name t = true ↔ (name, t) ∈ locations := by
  unfold isLocation
  rw [List.any_eq_true]
  constructor
  · rintro ⟨⟨n, u⟩, hmem, heq⟩
    obtain ⟨rfl, rfl⟩ : n = name ∧ u = t := by simpa using heq
    exact hmem
  · intro hmem
    exact ⟨(name, t), hmem, by simp⟩

end Vocabulary

namespace Graph

variable {g : Graph} {v w : Value} {a b : Annotation}

/-! ## The constants of a value -/

/-- The names of the symbols that a value mentions, in written order. -/
def constants (g : Graph) (v : Value) : List String :=
  v.symbols.map fun id => (g.symbol id).name

theorem mentions_name (g : Graph) (v : Value) (p : String → Bool) :
    (v.mentions fun id => p (g.symbol id).name) = (g.constants v).any p := by
  rw [Value.mentions_eq_any, constants, List.any_map]
  rfl

/-- Constants of the same names are mentioned, however often and in whatever order. -/
def SameConstants (g : Graph) (v w : Value) : Prop :=
  ∀ n, n ∈ g.constants v ↔ n ∈ g.constants w

theorem sameConstants_of_symbols (h : ∀ i, i ∈ v.symbols ↔ i ∈ w.symbols) :
    g.SameConstants v w := by
  intro n
  rw [constants, constants, List.mem_map, List.mem_map]
  exact exists_congr fun i => and_congr_left fun _ => h i

theorem SameConstants.any_eq (h : g.SameConstants v w) (p : String → Bool) :
    (g.constants w).any p = (g.constants v).any p := by
  rw [Bool.eq_iff_iff, List.any_eq_true, List.any_eq_true]
  exact exists_congr fun n => and_congr_left fun _ => (h n).symm

/-! ## Reading by constants -/

theorem nullabilityByWhen?_eq (g : Graph) (a : Annotation) :
    g.nullabilityByWhen? a =
      if a.arguments.isEmpty then some .nonNull
      else (a.argument? "when").bind fun v => Vocabulary.mostPressing? (g.constants v) := by
  unfold nullabilityByWhen?
  split
  · rfl
  · cases a.argument? "when" with
    | none => rfl
    | some v =>
        have hmentions : ∀ n, g.mentionsNamed v n = (g.constants v).any (· == n) :=
          fun n => g.mentions_name v (· == n)
        simp only [hmentions]
        exact Vocabulary.find?_whenConstants (g.constants v)

theorem setsDefault_byValue (h : g.typeName a = "org.eclipse.jdt.annotation.NonNullByDefault")
    (hv : a.argument? "value" = some v) (t : Target) :
    g.setsDefault a t = (g.constants v).any (Vocabulary.isLocation · t) := by
  have hlookup : Vocabulary.scopeDefaults.lookup (g.typeName a) = some .byValue := by
    rw [h]
    decide
  rw [setsDefault, hlookup]
  simp only [hv]
  exact g.mentions_name v (Vocabulary.isLocation · t)

/-- Values that mention the same constants come to the same as `when` arguments. -/
theorem SameConstants.mostPressing? (h : g.SameConstants v w) :
    Vocabulary.mostPressing? (g.constants w) = Vocabulary.mostPressing? (g.constants v) := by
  rw [← Vocabulary.find?_whenConstants, ← Vocabulary.find?_whenConstants]
  simp only [h.any_eq]

section Related
variable (h : a.Related g.SameConstants b)
include h

theorem typeName_of_related : g.typeName b = g.typeName a := by
  rw [typeName, typeName, h.type]

/-- Annotations whose arguments mention the same constants say the same. -/
theorem nullability?_of_related : g.nullability? b = g.nullability? a := by
  have hwhen : g.nullabilityByWhen? b = g.nullabilityByWhen? a := by
    rw [nullabilityByWhen?_eq, nullabilityByWhen?_eq,
      Annotation.isEmpty_arguments_rel h.arguments]
    rcases optionRel_cases (h.argument? "when") with
      ⟨ha, hb⟩ | ⟨v, w, ha, hb, hvw⟩
    · rw [ha, hb]
    · rw [ha, hb, Option.bind_some, Option.bind_some, hvw.mostPressing?]
  unfold nullability?
  rw [typeName_of_related h, Annotation.isEmpty_arguments_rel h.arguments, hwhen]

/-- Annotations whose arguments mention the same constants set the same defaults. -/
theorem setsDefault_of_related (t : Target) : g.setsDefault b t = g.setsDefault a t := by
  unfold setsDefault
  rw [typeName_of_related h]
  rcases optionRel_cases (h.argument? "value") with
    ⟨ha, hb⟩ | ⟨v, w, ha, hb, hvw⟩
  · rw [ha, hb]
  · rw [ha, hb]
    simp only [g.mentions_name v (Vocabulary.isLocation · t),
      g.mentions_name w (Vocabulary.isLocation · t), hvw.any_eq]

end Related

theorem sameConstants_of_reshaped (h : v.Reshaped w) : g.SameConstants v w :=
  sameConstants_of_symbols h.mem_symbols_iff

section ByWhen
variable (ha : g.typeName a = "javax.annotation.Nonnull") (hargs : a.arguments ≠ [])
include ha hargs

theorem nullability?_byWhen :
    g.nullability? a =
      (a.argument? "when").bind fun v => Vocabulary.mostPressing? (g.constants v) := by
  have hsense : Vocabulary.sense? (g.typeName a) = some .byWhen := by
    rw [ha]
    rfl
  rw [nullability?, hsense]
  simp only [nullabilityByWhen?_eq]
  rw [if_neg (by simpa using hargs)]

/-- The first `when` argument decides. -/
theorem nullability?_of_when (hv : a.FirstArgument "when" v) :
    g.nullability? a = Vocabulary.mostPressing? (g.constants v) := by
  rw [nullability?_byWhen ha hargs, hv.argument?]
  rfl

theorem nullability?_of_no_when (hnone : ∀ b ∈ a.arguments, b.name ≠ "when") :
    g.nullability? a = none := by
  rw [nullability?_byWhen ha hargs, Annotation.argument?_eq_none_iff.mpr hnone]
  rfl

end ByWhen

/-- The first `value` argument names the targets that a default is for. -/
theorem setsDefault_iff_of_value
    (ha : g.typeName a = "org.eclipse.jdt.annotation.NonNullByDefault")
    (hv : a.FirstArgument "value" v) (t : Target) :
    g.setsDefault a t = true ↔ ∃ n ∈ g.constants v, (n, t) ∈ Vocabulary.locations := by
  rw [setsDefault_byValue ha hv.argument?, List.any_eq_true]
  exact exists_congr fun n => and_congr_right fun _ => Vocabulary.isLocation_iff

/-- **Constants.** With arguments, `javax.annotation.Nonnull` says what the constants in its first
`when` argument come to, and nothing without such an argument. With a `value` argument,
`NonNullByDefault` sets the default for those targets whose locations are mentioned in the first
one. For no annotation does it matter in which order, how often or how deep in lists the constants
in its arguments stand. An empty list mentions none. -/
theorem read_by_constants (g : Graph) :
    (∀ a, g.typeName a = "javax.annotation.Nonnull" → a.arguments ≠ [] →
      ((∀ b ∈ a.arguments, b.name ≠ "when") → g.nullability? a = none) ∧
      ∀ v, a.FirstArgument "when" v →
        g.nullability? a = Vocabulary.mostPressing? (g.constants v)) ∧
    (∀ a v t, g.typeName a = "org.eclipse.jdt.annotation.NonNullByDefault" →
      a.FirstArgument "value" v →
      (g.setsDefault a t = true ↔ ∃ n ∈ g.constants v, (n, t) ∈ Vocabulary.locations)) ∧
    (∀ a b, a.Related g.SameConstants b →
      g.nullability? b = g.nullability? a ∧ ∀ t, g.setsDefault b t = g.setsDefault a t) ∧
    (∀ a b, a.Related Value.Reshaped b →
      g.nullability? b = g.nullability? a ∧ ∀ t, g.setsDefault b t = g.setsDefault a t) ∧
    (∀ a, g.typeName a = "javax.annotation.Nonnull" → a.FirstArgument "when" (.list []) →
      g.nullability? a = none) ∧
    ∀ a t, g.typeName a = "org.eclipse.jdt.annotation.NonNullByDefault" →
      a.FirstArgument "value" (.list []) → g.setsDefault a t = false := by
  refine ⟨fun a ha hargs => ⟨?_, fun v hv => ?_⟩, fun a v t ha hv => ?_, fun a b hab => ?_,
    fun a b hab => ?_, fun a ha hv => ?_, fun a t ha hv => ?_⟩
  · intro hnone
    exact nullability?_of_no_when ha hargs hnone
  · exact nullability?_of_when ha hargs hv
  · exact setsDefault_iff_of_value ha hv t
  · exact ⟨nullability?_of_related hab, setsDefault_of_related hab⟩
  · have hsame := hab.mono fun v w => sameConstants_of_reshaped (g := g)
    exact ⟨nullability?_of_related hsame, setsDefault_of_related hsame⟩
  · have hargs : a.arguments ≠ [] := by
      obtain ⟨before, after, hsplit, -⟩ := hv
      simp [hsplit]
    exact nullability?_of_when ha hargs hv
  · rw [← Bool.not_eq_true, setsDefault_iff_of_value ha hv t]
    rintro ⟨n, hn, -⟩
    cases hn

/-- The annotation types with telling arguments (1 and 7), and constants for these: `UNKNOWN` (4),
`MAYBE` (5) and the location `FIELD` (9). -/
def tellingTypes : Registry :=
  Registry.run {}
    [ .ensureClass "javax.annotation.Nonnull",
      .enumConstant "javax.annotation.meta.When" "UNKNOWN",
      .enumConstant "javax.annotation.meta.When" "MAYBE",
      .ensureClass "org.eclipse.jdt.annotation.NonNullByDefault",
      .enumConstant "org.eclipse.jdt.annotation.DefaultLocation" "FIELD" ]

/-- `MAYBE` counts from inside two lists and behind `UNKNOWN`, as it does in one flat list and in
front of it. -/
theorem read_tellingTypes :
    tellingTypes.nullability?
        ⟨1, [⟨"when", .list [.symbol 4, .list [.list [], .symbol 5]]⟩, ⟨"when", .symbol 4⟩]⟩ =
      some .strongNullable ∧
    tellingTypes.nullability? ⟨1, [⟨"when", .list [.symbol 5, .symbol 4]⟩]⟩ =
      tellingTypes.nullability?
        ⟨1, [⟨"when", .list [.symbol 4, .list [.list [], .symbol 5]]⟩]⟩ ∧
    tellingTypes.nullability? ⟨1, [⟨"until", .symbol 5⟩]⟩ = none ∧
    tellingTypes.setsDefault ⟨7, [⟨"value", .list [.nested ⟨1, []⟩, .list [.symbol 9]]⟩]⟩ .field =
      true ∧
    tellingTypes.setsDefault ⟨7, [⟨"value", .list []⟩]⟩ .field = false := by
  obtain ⟨hwhen, hvalue, -, hreshaped, -, hempty⟩ := read_by_constants tellingTypes.toGraph
  have hflat : Value.Reshaped (.list [.symbol 4, .list [.list [], .symbol 5]])
      (.list [.symbol 5, .symbol 4]) :=
    (Value.Reshaped.flatten [.symbol 4] [.list [], .symbol 5] []).trans
      ((Value.Reshaped.flatten [.symbol 4] [] [.symbol 5]).trans
        (.reorder (List.Perm.swap _ _ _)))
  have hboth : Annotation.Related Value.Reshaped
      ⟨1, [⟨"when", .list [.symbol 4, .list [.list [], .symbol 5]]⟩]⟩
      ⟨1, [⟨"when", .list [.symbol 5, .symbol 4]⟩]⟩ :=
    ⟨rfl, .cons ⟨rfl, hflat⟩ .nil⟩
  refine ⟨?_, ?_, ?_, ?_, ?_⟩
  · exact ((hwhen _ rfl (by simp)).2 _ ⟨[], _, rfl, nofun⟩).trans (by decide)
  · exact (hreshaped _ _ hboth).1
  · exact (hwhen _ rfl (by simp)).1 (by decide)
  · exact (hvalue _ _ .field rfl ⟨[], _, rfl, nofun⟩).mpr ⟨"FIELD", by decide, by decide⟩
  · exact hempty _ .field rfl ⟨[], _, rfl, nofun⟩

end Graph

end Nullness
