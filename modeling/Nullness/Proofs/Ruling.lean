import Mathlib.Data.List.Forall2
import Nullness.Ruling
import Nullness.Proofs.Growth

/-!
# What rulings depend on

A ruling looks at an annotation in three ways: is its type unknown, what does it say
by itself, for which targets does it set a default. Two graphs in which an annotation
reads alike give it the same answers, and lists of such annotations the same rulings.

- `Graph.Alike`: an annotation reads alike in two graphs.
- `Graph.ruling_congr`, `Graph.defaultRuling_congr`: rulings of two graphs.
- `Graph.defaultRuling_eq_none_iff`, `Graph.defaultRuling_eq_found_iff`: when a list says
  something about a target that its symbol encloses, and what.
-/

namespace Nullness

/-! ## Looking up arguments -/

/-- Related options are both there or both missing. -/
theorem optionRel_cases {α β : Type} {r : α → β → Prop} {x : Option α} {y : Option β}
    (h : Option.Rel r x y) : (x = none ∧ y = none) ∨ ∃ a b, x = some a ∧ y = some b ∧ r a b := by
  cases h with
  | none => exact Or.inl ⟨rfl, rfl⟩
  | some hab => exact Or.inr ⟨_, _, rfl, rfl, hab⟩

/-- Looking up by name respects what relates the values of two annotations, one by one. -/
theorem Annotation.argument?_rel {R : Value → Value → Prop} {a b : Annotation}
    (h : List.Forall₂ (fun x y => y.name = x.name ∧ R x.value y.value) a.arguments b.arguments)
    (name : String) : Option.Rel R (a.argument? name) (b.argument? name) := by
  obtain ⟨t, xs⟩ := a
  obtain ⟨u, ys⟩ := b
  have hxs : List.Forall₂ (fun x y : Argument => y.name = x.name ∧ R x.value y.value) xs ys := h
  clear h
  unfold Annotation.argument?
  induction hxs with
  | nil => exact .none
  | cons hxy _ ih =>
      rw [List.find?_cons, List.find?_cons, hxy.1]
      split
      · exact .some hxy.2
      · exact ih

/-- Arguments that are related one by one are none on both sides, or on neither. -/
theorem Annotation.isEmpty_arguments_rel {R : Argument → Argument → Prop} {a b : Annotation}
    (h : List.Forall₂ R a.arguments b.arguments) :
    b.arguments.isEmpty = a.arguments.isEmpty := by
  rw [Bool.eq_iff_iff, List.isEmpty_iff_length_eq_zero, List.isEmpty_iff_length_eq_zero,
    h.length_eq]

/-! ## Reading annotations in two graphs -/

mutual

theorem Value.mentions_congr {n : Nat} {p q : SymbolId → Bool} (h : ∀ i, i < n → p i = q i) :
    ∀ {v : Value}, v.Below n → v.mentions p = v.mentions q
  | .scalar _, _ => rfl
  | .symbol id, hid => h id hid
  | .nested _, _ => rfl
  | .list _, hvs => Value.anyMentions_congr h hvs

theorem Value.anyMentions_congr {n : Nat} {p q : SymbolId → Bool}
    (h : ∀ i, i < n → p i = q i) :
    ∀ {vs : List Value}, Value.AllBelow n vs → Value.anyMentions p vs = Value.anyMentions q vs
  | [], _ => rfl
  | _ :: _, hvs => by
      rw [Value.anyMentions, Value.anyMentions, Value.mentions_congr h hvs.1,
        Value.anyMentions_congr h hvs.2]

end

/-- What a ruling finds, if it is not ambiguous. -/
def Ruling.nullability? : Ruling → Option Nullability
  | ambiguous => none
  | found n _ => some n

namespace Graph

variable {g g' : Graph} {a : Annotation} {as : List Annotation}

/-- The annotation reads alike in both graphs: its type is the same but for what is
attached to it, and its arguments mention symbols of the same names. -/
structure Alike (g g' : Graph) (a : Annotation) : Prop where
  bare_type : (g'.symbol a.type).bare = (g.symbol a.type).bare
  mentions : ∀ name v, a.argument? name = some v → ∀ f : String → Bool,
    (v.mentions fun id => f (g'.symbol id).name) = v.mentions fun id => f (g.symbol id).name

theorem alike_of_bare (h : ∀ i, (g'.symbol i).bare = (g.symbol i).bare) (a : Annotation) :
    g.Alike g' a := by
  refine ⟨h a.type, fun _ v _ f => ?_⟩
  have hname : ∀ id, (g'.symbol id).name = (g.symbol id).name :=
    fun id => Symbol.name_of_bare (h id)
  simp only [hname]

theorem alike_of_below {n : Nat} (ha : a.Below n)
    (h : ∀ i, i < n → (g'.symbol i).bare = (g.symbol i).bare) : g.Alike g' a :=
  ⟨h _ ha.type_lt, fun _ _ hv f =>
    Value.mentions_congr (fun i hi => congrArg f (Symbol.name_of_bare (h i hi))) (ha.argument? hv)⟩

theorem Alike.isUnknownType (h : g.Alike g' a) : g'.isUnknownType a = g.isUnknownType a :=
  Symbol.isUnknown_of_bare h.bare_type

theorem Alike.typeName (h : g.Alike g' a) : g'.typeName a = g.typeName a :=
  Symbol.qualifiedName_of_bare h.bare_type

theorem Alike.nullabilityByWhen? (h : g.Alike g' a) :
    g'.nullabilityByWhen? a = g.nullabilityByWhen? a := by
  unfold Graph.nullabilityByWhen?
  cases hw : a.argument? "when" with
  | none => rfl
  | some v =>
      have hmentions : g'.mentionsNamed v = g.mentionsNamed v :=
        funext fun name => h.mentions "when" v hw (· == name)
      simp only [hmentions]

theorem Alike.nullability? (h : g.Alike g' a) : g'.nullability? a = g.nullability? a := by
  unfold Graph.nullability?
  rw [h.typeName, h.nullabilityByWhen?]

theorem Alike.setsDefault (h : g.Alike g' a) (t : Target) :
    g'.setsDefault a t = g.setsDefault a t := by
  unfold Graph.setsDefault
  rw [h.typeName]
  cases hv : a.argument? "value" with
  | none => rfl
  | some v => simp only [h.mentions "value" v hv (Vocabulary.isLocation · t)]

theorem rulingAfter_congr (h : ∀ a ∈ as, g.Alike g' a) (best : Option (Nullability × Annotation)) :
    g'.rulingAfter best as = g.rulingAfter best as := by
  induction as generalizing best with
  | nil => rfl
  | cons a rest ih =>
      have ha : g.Alike g' a := h a List.mem_cons_self
      have hrest := ih fun b hb => h b (List.mem_cons_of_mem _ hb)
      rw [rulingAfter, rulingAfter, ha.isUnknownType, ha.nullability?]
      simp only [hrest]

theorem ruling_congr (h : ∀ a ∈ as, g.Alike g' a) : g'.ruling as = g.ruling as :=
  rulingAfter_congr h none

theorem defaultRuling_congr (h : ∀ a ∈ as, g.Alike g' a) (t : Target) :
    g'.defaultRuling t as = g.defaultRuling t as := by
  have hboth : as.any g'.isUnknownType = as.any g.isUnknownType ∧
      as.find? (g'.setsDefault · t) = as.find? (g.setsDefault · t) := by
    induction as with
    | nil => exact ⟨rfl, rfl⟩
    | cons a rest ih =>
        have ha : g.Alike g' a := h a List.mem_cons_self
        obtain ⟨hany, hfind⟩ := ih fun b hb => h b (List.mem_cons_of_mem _ hb)
        rw [List.any_cons, List.any_cons, List.find?_cons, List.find?_cons, ha.isUnknownType,
          ha.setsDefault, hany, hfind]
        exact ⟨rfl, rfl⟩
  rw [defaultRuling, defaultRuling, hboth.1, hboth.2]

/-! ## Defaults -/

/-- `a` is the first annotation of a list that sets the default for a target. -/
def FirstDefault (g : Graph) (t : Target) (as : List Annotation) (a : Annotation) : Prop :=
  ∃ before after, as = before ++ a :: after ∧ g.setsDefault a t = true ∧
    ∀ b ∈ before, g.setsDefault b t = false

theorem defaultRuling_eq_none_iff {t : Target} :
    g.defaultRuling t as = none ↔
      ∀ a ∈ as, g.isUnknownType a = false ∧ g.setsDefault a t = false := by
  unfold defaultRuling
  split
  · rename_i hany
    obtain ⟨a, ha, hu⟩ := List.any_eq_true.mp hany
    exact ⟨nofun, fun h => by rw [(h a ha).1] at hu; cases hu⟩
  · rename_i hany
    have hknown : ∀ a ∈ as, g.isUnknownType a = false := by simpa using hany
    rw [Option.map_eq_none_iff, List.find?_eq_none]
    constructor
    · exact fun h a ha => ⟨hknown a ha, by simpa using h a ha⟩
    · intro h a ha
      rw [(h a ha).2]
      exact Bool.false_ne_true

theorem defaultRuling_eq_ambiguous_iff {t : Target} :
    g.defaultRuling t as = some .ambiguous ↔ ∃ a ∈ as, g.isUnknownType a = true := by
  unfold defaultRuling
  split
  · rename_i hany
    exact ⟨fun _ => List.any_eq_true.mp hany, fun _ => rfl⟩
  · rename_i hany
    refine ⟨fun h => ?_, fun h => absurd (List.any_eq_true.mpr h) hany⟩
    obtain ⟨a, -, ha⟩ := Option.map_eq_some_iff.mp h
    cases ha

theorem defaultRuling_eq_found_iff {t : Target} {n : Nullability} {a : Annotation} :
    g.defaultRuling t as = some (.found n a) ↔
      (∀ b ∈ as, g.isUnknownType b = false) ∧ n = .nonNull ∧ g.FirstDefault t as a := by
  unfold defaultRuling
  split
  · rename_i hany
    obtain ⟨b, hb, hu⟩ := List.any_eq_true.mp hany
    exact ⟨nofun, fun h => by rw [h.1 b hb] at hu; cases hu⟩
  · rename_i hany
    have hknown : ∀ b ∈ as, g.isUnknownType b = false := by simpa using hany
    rw [Option.map_eq_some_iff]
    constructor
    · rintro ⟨b, hfind, heq⟩
      cases heq
      obtain ⟨ha, before, after, hsplit, hbefore⟩ := List.find?_eq_some_iff_append.mp hfind
      exact ⟨hknown, rfl, before, after, hsplit, ha, fun b hb => by simpa using hbefore b hb⟩
    · rintro ⟨-, rfl, before, after, hsplit, ha, hbefore⟩
      refine ⟨a, List.find?_eq_some_iff_append.mpr ⟨ha, before, after, hsplit, ?_⟩, rfl⟩
      exact fun b hb => by simpa using hbefore b hb

/-- Default rulings on two lists of known types find the same when both lists set the
default, and when neither does. -/
theorem defaultRuling_nullability_congr {t : Target} {bs : List Annotation}
    (has : ∀ a ∈ as, g.isUnknownType a = false) (hbs : ∀ b ∈ bs, g.isUnknownType b = false)
    (h : (∃ b ∈ bs, g.setsDefault b t = true) ↔ ∃ a ∈ as, g.setsDefault a t = true) :
    (g.defaultRuling t bs).map Ruling.nullability? =
      (g.defaultRuling t as).map Ruling.nullability? := by
  have hvalue : ∀ cs : List Annotation, (∀ c ∈ cs, g.isUnknownType c = false) →
      (g.defaultRuling t cs).map Ruling.nullability? =
        if ∃ c ∈ cs, g.setsDefault c t = true then some (some .nonNull) else none := by
    intro cs hcs
    rcases hr : g.defaultRuling t cs with - | - | ⟨n, c⟩
    · have hnone := defaultRuling_eq_none_iff.mp hr
      rw [if_neg fun ⟨c, hc, hset⟩ => by rw [(hnone c hc).2] at hset; cases hset]
      rfl
    · obtain ⟨c, hc, hu⟩ := defaultRuling_eq_ambiguous_iff.mp hr
      rw [hcs c hc] at hu
      cases hu
    · obtain ⟨-, rfl, before, after, rfl, hset, -⟩ := defaultRuling_eq_found_iff.mp hr
      rw [if_pos ⟨c, by simp, hset⟩]
      rfl
  rw [hvalue bs hbs, hvalue as has]
  simp only [h]

end Graph

end Nullness
