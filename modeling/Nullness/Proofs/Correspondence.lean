import Mathlib.Data.List.Forall2
import Nullness.Report.Text
import Nullness.Proofs.Expansion
import Nullness.Proofs.Ruling

/-!
# Graphs that correspond

A graph may hold the same as another in other places. What results depend on is which types
are the same and what they are called, not where they stand. So two graphs give the same
reports if a one-to-one relation between some of their symbols respects all that is read.

- `Graph.Corresponds`: the relation respects what symbols are and what is attached to them.
- `Graph.Corresponds.fresh`: walks over annotation types keep corresponding annotations.
- `Graph.Corresponds.resolve`, `Graph.Corresponds.entry`: results and report entries.
-/

namespace Nullness

/-! ## Values and annotations -/

mutual

/-- A value of `g` and a value of `g'` that say the same. Of symbols the names count, and
what a nested annotation says is not read. -/
inductive Value.Matches (g g' : Graph) : Value → Value → Prop
  | scalar (s : Scalar) : Value.Matches g g' (.scalar s) (.scalar s)
  | symbol {i i' : SymbolId} : (g'.symbol i').name = (g.symbol i).name →
      Value.Matches g g' (.symbol i) (.symbol i')
  | nested (a a' : Annotation) : Value.Matches g g' (.nested a) (.nested a')
  | list {vs vs' : List Value} : Value.AllMatch g g' vs vs' →
      Value.Matches g g' (.list vs) (.list vs')

/-- Lists of values that say the same, one by one. -/
inductive Value.AllMatch (g g' : Graph) : List Value → List Value → Prop
  | nil : Value.AllMatch g g' [] []
  | cons {v v' : Value} {vs vs' : List Value} : Value.Matches g g' v v' →
      Value.AllMatch g g' vs vs' → Value.AllMatch g g' (v :: vs) (v' :: vs')

end

/-- Arguments of one name that say the same. -/
structure Argument.Matches (g g' : Graph) (b b' : Argument) : Prop where
  name : b'.name = b.name
  value : b.value.Matches g g' b'.value

/-- Annotations of related types with arguments that say the same. -/
structure Annotation.Matches (g g' : Graph) (rel : SymbolId → SymbolId → Prop)
    (a a' : Annotation) : Prop where
  type : rel a.type a'.type
  arguments : List.Forall₂ (Argument.Matches g g') a.arguments a'.arguments

/-- Lists of annotations that say the same, one by one. -/
abbrev Annotation.AllMatch (g g' : Graph) (rel : SymbolId → SymbolId → Prop) :
    List Annotation → List Annotation → Prop :=
  List.Forall₂ fun a a' => a.Matches g g' rel a'

section Mentions
variable {g g' : Graph} {p p' : SymbolId → Bool}

mutual

theorem Value.Matches.mentions (hp : ∀ i i', (g'.symbol i').name = (g.symbol i).name → p' i' = p i)
    {v v' : Value} (h : v.Matches g g' v') : v'.mentions p' = v.mentions p := by
  cases h with
  | scalar s => rfl
  | symbol hi => exact hp _ _ hi
  | nested a a' => rfl
  | list hvs => exact hvs.anyMentions hp

theorem Value.AllMatch.anyMentions
    (hp : ∀ i i', (g'.symbol i').name = (g.symbol i).name → p' i' = p i) {vs vs' : List Value}
    (h : Value.AllMatch g g' vs vs') : Value.anyMentions p' vs' = Value.anyMentions p vs := by
  cases h with
  | nil => rfl
  | cons hv hvs => rw [Value.anyMentions, Value.anyMentions, hv.mentions hp, hvs.anyMentions hp]

end

end Mentions

theorem Annotation.Matches.argument? {g g' : Graph} {rel : SymbolId → SymbolId → Prop}
    {a a' : Annotation} (h : a.Matches g g' rel a') (name : String) :
    Option.Rel (Value.Matches g g') (a.argument? name) (a'.argument? name) :=
  Annotation.argument?_rel (h.arguments.imp fun _ _ hb => ⟨hb.name, hb.value⟩) name

theorem Annotation.Matches.isEmpty_arguments {g g' : Graph} {rel : SymbolId → SymbolId → Prop}
    {a a' : Annotation} (h : a.Matches g g' rel a') :
    a'.arguments.isEmpty = a.arguments.isEmpty :=
  Annotation.isEmpty_arguments_rel h.arguments

/-! ## Rulings and verdicts -/

/-- Rulings of one outcome, from corresponding annotations. -/
inductive Ruling.Matches (g g' : Graph) (rel : SymbolId → SymbolId → Prop) :
    Ruling → Ruling → Prop
  | ambiguous : Ruling.Matches g g' rel .ambiguous .ambiguous
  | found {n : Nullability} {a a' : Annotation} : a.Matches g g' rel a' →
      Ruling.Matches g g' rel (.found n a) (.found n a')

/-- Verdicts that differ only in the annotations that decided, and these correspond. -/
inductive Verdict.Matches (g g' : Graph) (rel : SymbolId → SymbolId → Prop) :
    Verdict → Verdict → Prop
  | undecided : Verdict.Matches g g' rel .undecided .undecided
  | decided {n : Nullability} {k : Kind} {viaMeta : Bool} {a a' : Annotation} :
      a.Matches g g' rel a' →
      Verdict.Matches g g' rel (.decided ⟨n, k, a, viaMeta⟩) (.decided ⟨n, k, a', viaMeta⟩)

theorem Ruling.Matches.verdict {g g' : Graph} {rel : SymbolId → SymbolId → Prop}
    {r r' : Ruling} (h : r.Matches g g' rel r') (k : Kind) (viaMeta : Bool) :
    (r.verdict k viaMeta).Matches g g' rel (r'.verdict k viaMeta) := by
  cases h with
  | ambiguous => exact .undecided
  | found ha => exact .decided ha

namespace Graph

/-- A one-to-one relation between symbols of two graphs that respects what is read of them. -/
structure Corresponds (g g' : Graph) (rel : SymbolId → SymbolId → Prop) : Prop where
  eq_iff : ∀ {i i' j j'}, rel i i' → rel j j' → (i = j ↔ i' = j')
  kind : ∀ {i i'}, rel i i' → (g'.symbol i').kind = (g.symbol i).kind
  qualifiedName : ∀ {i i'}, rel i i' → (g'.symbol i').qualifiedName = (g.symbol i).qualifiedName
  isUnknown : ∀ {i i'}, rel i i' → (g'.symbol i').isUnknown = (g.symbol i).isUnknown
  site : ∀ {i i'}, rel i i' → (g'.symbol i').site = (g.symbol i).site
  annotations : ∀ {i i'}, rel i i' →
    Annotation.AllMatch g g' rel (g.annotations i) (g'.annotations i')

namespace Corresponds

variable {g g' : Graph} {rel : SymbolId → SymbolId → Prop} {a a' : Annotation}
variable {as as' : List Annotation} {i i' : SymbolId}

theorem typeName (h : g.Corresponds g' rel) (ha : a.Matches g g' rel a') :
    g'.typeName a' = g.typeName a :=
  h.qualifiedName ha.type

theorem isUnknownType (h : g.Corresponds g' rel) (ha : a.Matches g g' rel a') :
    g'.isUnknownType a' = g.isUnknownType a :=
  h.isUnknown ha.type

theorem nullabilityByWhen? (ha : a.Matches g g' rel a') :
    g'.nullabilityByWhen? a' = g.nullabilityByWhen? a := by
  rw [Graph.nullabilityByWhen?, Graph.nullabilityByWhen?, ha.isEmpty_arguments]
  rcases optionRel_cases (ha.argument? "when") with ⟨hv, hv'⟩ | ⟨v, v', hv, hv', hmatch⟩
  · rw [hv, hv']
  · rw [hv, hv']
    have hnamed : ∀ name, g'.mentionsNamed v' name = g.mentionsNamed v name := fun name =>
      hmatch.mentions fun i i' hi => by rw [hi]
    simp only [hnamed]

theorem nullability? (h : g.Corresponds g' rel) (ha : a.Matches g g' rel a') :
    g'.nullability? a' = g.nullability? a := by
  rw [Graph.nullability?, Graph.nullability?, h.typeName ha, ha.isEmpty_arguments,
    nullabilityByWhen? ha]

theorem setsDefault (h : g.Corresponds g' rel) (ha : a.Matches g g' rel a') (t : Target) :
    g'.setsDefault a' t = g.setsDefault a t := by
  rw [Graph.setsDefault, Graph.setsDefault, h.typeName ha]
  rcases optionRel_cases (ha.argument? "value") with ⟨hv, hv'⟩ | ⟨v, v', hv, hv', hmatch⟩
  · rw [hv, hv']
  · rw [hv, hv']
    dsimp only
    rw [hmatch.mentions fun i i' hi => by rw [hi]]

/-- The best annotations so far, of one meaning. -/
def Best (g g' : Graph) (rel : SymbolId → SymbolId → Prop) (b b' : Nullability × Annotation) :
    Prop :=
  b'.1 = b.1 ∧ b.2.Matches g g' rel b'.2

theorem rulingAfter (h : g.Corresponds g' rel)
    (has : Annotation.AllMatch g g' rel as as')
    {best best' : Option (Nullability × Annotation)}
    (hbest : Option.Rel (Best g g' rel) best best') :
    Option.Rel (Ruling.Matches g g' rel) (g.rulingAfter best as) (g'.rulingAfter best' as') := by
  induction has generalizing best best' with
  | nil =>
    rw [Graph.rulingAfter, Graph.rulingAfter]
    cases hbest with
    | none => exact .none
    | @some b b' hb =>
      obtain ⟨n, a⟩ := b
      obtain ⟨n', a'⟩ := b'
      obtain ⟨rfl, ha⟩ := hb
      exact .some (.found ha)
  | cons ha _ ih =>
    rw [Graph.rulingAfter, Graph.rulingAfter, h.isUnknownType ha, h.nullability? ha]
    split
    · exact .some .ambiguous
    · split
      · exact .some (.found ha)
      · exact ih (.some ⟨rfl, ha⟩)
      · refine ih ?_
        cases hbest with
        | none => exact .some ⟨rfl, ha⟩
        | some hb => exact .some hb
      · exact ih hbest

theorem ruling (h : g.Corresponds g' rel)
    (has : Annotation.AllMatch g g' rel as as') :
    Option.Rel (Ruling.Matches g g' rel) (g.ruling as) (g'.ruling as') :=
  h.rulingAfter has .none

theorem any_isUnknownType (h : g.Corresponds g' rel)
    (has : Annotation.AllMatch g g' rel as as') :
    as'.any g'.isUnknownType = as.any g.isUnknownType := by
  induction has with
  | nil => rfl
  | cons ha _ ih => rw [List.any_cons, List.any_cons, h.isUnknownType ha, ih]

theorem find?_setsDefault (h : g.Corresponds g' rel) (t : Target)
    (has : Annotation.AllMatch g g' rel as as') :
    Option.Rel (fun a a' => a.Matches g g' rel a') (as.find? (g.setsDefault · t))
      (as'.find? (g'.setsDefault · t)) := by
  induction has with
  | nil => exact .none
  | cons ha _ ih =>
    rw [List.find?_cons, List.find?_cons, h.setsDefault ha]
    split
    · exact .some ha
    · exact ih

theorem defaultRuling (h : g.Corresponds g' rel) (t : Target)
    (has : Annotation.AllMatch g g' rel as as') :
    Option.Rel (Ruling.Matches g g' rel) (g.defaultRuling t as) (g'.defaultRuling t as') := by
  rw [Graph.defaultRuling, Graph.defaultRuling, h.any_isUnknownType has]
  split
  · exact .some .ambiguous
  · rcases optionRel_cases (h.find?_setsDefault t has) with ⟨ha, ha'⟩ | ⟨a, a', ha, ha', hmatch⟩
    · rw [ha, ha']
      exact .none
    · rw [ha, ha']
      exact .some (.found hmatch)

/-! ## Walks -/

theorem mem_iff (h : g.Corresponds g' rel) {seen seen' : List SymbolId}
    (hseen : List.Forall₂ rel seen seen') (hi : rel i i') : i ∈ seen ↔ i' ∈ seen' := by
  induction hseen with
  | nil => simp
  | cons hj _ ih => rw [List.mem_cons, List.mem_cons, h.eq_iff hi hj, ih]

/-- Walks from corresponding lists keep corresponding annotations and meet corresponding
types: the relation is one-to-one, so a type was met before in both graphs or in neither. -/
theorem fresh (h : g.Corresponds g' rel) (seen : List SymbolId) (as : List Annotation) :
    ∀ {seen' : List SymbolId} {as' : List Annotation}, List.Forall₂ rel seen seen' →
      Annotation.AllMatch g g' rel as as' →
      Annotation.AllMatch g g' rel (g.fresh seen as) (g'.fresh seen' as') ∧
        List.Forall₂ rel (g.seenAfter seen as) (g'.seenAfter seen' as') := by
  induction seen, as using g.fresh_induct with
  | nil seen =>
    rintro seen' as' hseen ⟨⟩
    simpa using hseen
  | skip seen a rest hmem ih =>
    rintro seen' as' hseen (_ | ⟨ha, hrest⟩)
    have hmem' := (h.mem_iff hseen ha.type).mp hmem
    rw [fresh_cons_of_mem hmem, fresh_cons_of_mem hmem', seenAfter_cons_of_mem hmem,
      seenAfter_cons_of_mem hmem']
    exact ih hseen hrest
  | enter seen a rest hnew ihInner ihOuter =>
    rintro seen' as' hseen (_ | ⟨ha, hrest⟩)
    have hnew' := mt (h.mem_iff hseen ha.type).mpr hnew
    obtain ⟨hfresh, hmet⟩ := ihInner (.cons ha.type hseen) (h.annotations ha.type)
    obtain ⟨hfresh', hmet'⟩ := ihOuter hmet hrest
    rw [fresh_cons_of_not_mem hnew, fresh_cons_of_not_mem hnew', seenAfter_cons_of_not_mem hnew,
      seenAfter_cons_of_not_mem hnew']
    exact ⟨.cons ha (List.rel_append hfresh hfresh'), hmet'⟩

theorem expand (h : g.Corresponds g' rel)
    (has : Annotation.AllMatch g g' rel as as') :
    Annotation.AllMatch g g' rel (g.expand as) (g'.expand as') := by
  rw [expand_eq_fresh, expand_eq_fresh]
  exact (h.fresh [] as .nil has).1

/-! ## Results -/

theorem verdictAt? (h : g.Corresponds g' rel) (hi : rel i i')
    {rule rule' : List Annotation → Option Ruling}
    (hrule : ∀ {as as'}, Annotation.AllMatch g g' rel as as' →
      Option.Rel (Ruling.Matches g g' rel) (rule as) (rule' as')) :
    Option.Rel (Verdict.Matches g g' rel) (g.verdictAt? rule i) (g'.verdictAt? rule' i') := by
  have hdirect := hrule (h.annotations hi)
  have hexpanded := hrule (h.expand (h.annotations hi))
  rw [Graph.annotations, Graph.annotations] at hdirect hexpanded
  rw [Graph.verdictAt?, Graph.verdictAt?, h.kind hi]
  rcases optionRel_cases hdirect with ⟨hr, hr'⟩ | ⟨r, r', hr, hr', hmatch⟩
  · rw [hr, hr']
    rcases optionRel_cases hexpanded with ⟨hr, hr'⟩ | ⟨r, r', hr, hr', hmatch⟩
    · simp only [hr, hr']
      exact .none
    · simp only [hr, hr']
      exact .some (hmatch.verdict _ true)
  · rw [hr, hr']
    exact .some (hmatch.verdict _ false)

theorem defaultVerdict? (h : g.Corresponds g' rel) (hi : rel i i') (t : Target) :
    Option.Rel (Verdict.Matches g g' rel) (g.defaultVerdict? t i) (g'.defaultVerdict? t i') := by
  rw [Graph.defaultVerdict?, Graph.defaultVerdict?, h.isUnknown hi]
  split
  · exact .some .undecided
  · exact h.verdictAt? hi (h.defaultRuling t)

theorem findSome?_defaultVerdict? (h : g.Corresponds g' rel) {os os' : List SymbolId}
    (hos : List.Forall₂ rel os os') (t : Target) :
    Option.Rel (Verdict.Matches g g' rel) (os.findSome? (g.defaultVerdict? t))
      (os'.findSome? (g'.defaultVerdict? t)) := by
  induction hos with
  | nil => exact .none
  | cons ho _ ih =>
    rw [List.findSome?_cons, List.findSome?_cons]
    rcases optionRel_cases (h.defaultVerdict? ho t) with ⟨hv, hv'⟩ | ⟨v, v', hv, hv', hmatch⟩
    · rw [hv, hv']
      exact ih
    · rw [hv, hv']
      exact .some hmatch

/-- Results at corresponding symbols with corresponding owners. -/
theorem resolve (h : g.Corresponds g' rel) (hi : rel i i')
    (howners : List.Forall₂ rel (g.owners i) (g'.owners i')) (t : Target) :
    (g.resolve i t).Matches g g' rel (g'.resolve i' t) := by
  have hown := h.verdictAt? hi h.ruling
  have hdefault := h.findSome?_defaultVerdict? howners t
  rw [Graph.resolve, Graph.resolve, h.isUnknown hi, ownVerdict?, ownVerdict?]
  split
  · exact .undecided
  · rcases optionRel_cases hown with ⟨hv, hv'⟩ | ⟨v, v', hv, hv', hmatch⟩
    · rw [hv, hv']
      rcases optionRel_cases hdefault with ⟨hd, hd'⟩ | ⟨d, d', hd, hd', hmatch⟩
      · rw [hd, hd']
        exact .undecided
      · rw [hd, hd']
        exact hmatch
    · rw [hv, hv']
      exact hmatch

theorem nullability (h : g.Corresponds g' rel) (hi : rel i i')
    (howners : List.Forall₂ rel (g.owners i) (g'.owners i'))
    (htarget : g'.target? i' = g.target? i) :
    (g.nullability i).Matches g g' rel (g'.nullability i') := by
  rw [Graph.nullability, Graph.nullability, htarget]
  split
  · exact h.resolve hi howners _
  · exact .undecided

theorem entryOf (h : g.Corresponds g' rel) (hi : rel i i') (htarget : g'.target? i' = g.target? i)
    {v v' : Verdict} (hv : v.Matches g g' rel v') :
    (g'.entryOf i' v').json = (g.entryOf i v).json := by
  cases hv with
  | undecided =>
    simp only [Graph.entryOf, ReportEntry.json, h.qualifiedName hi, h.kind hi, htarget]
    rfl
  | decided ha =>
    simp only [Graph.entryOf, ReportEntry.json, h.qualifiedName hi, h.kind hi, htarget, siteOf?,
      Verdict.decided, Verdict.make, Option.map_some, Option.bind_some, h.typeName ha,
      h.site ha.type]
    rfl

/-- Entries of corresponding symbols are written alike, and they count alike. -/
theorem entry (h : g.Corresponds g' rel) (hi : rel i i')
    (howners : List.Forall₂ rel (g.owners i) (g'.owners i'))
    (htarget : g'.target? i' = g.target? i) :
    (g'.entry i').json = (g.entry i).json ∧
      (g'.entry i').verdict.nullability? = (g.entry i).verdict.nullability? := by
  have hv := h.nullability hi howners htarget
  refine ⟨h.entryOf hi htarget hv, ?_⟩
  show (g'.nullability i').nullability? = (g.nullability i).nullability?
  generalize g.nullability i = v at hv
  generalize g'.nullability i' = v' at hv
  cases hv with
  | undecided => rfl
  | decided _ => rfl

end Corresponds

end Graph

end Nullness
