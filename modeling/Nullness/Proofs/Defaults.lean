import Mathlib
import Nullness.Proofs.Reannotation
import Nullness.Proofs.Sources

/-!
# One more default

A default that is put behind the annotations of a symbol says nothing about the symbol itself. For
what the symbol encloses it fills a gap: it is found where the annotations before it leave the
question open and no nearer owner has settled it. There it comes before what these annotations
expand to and before the owners further out, so it may take the place of their defaults, or of
their ambiguity, but never of a finding that allows null.

- `Graph.DefaultType`: annotation types that set defaults and do nothing else.
- `Graph.withDefault`: a graph with one more annotation at a symbol.
- `Graph.LacksDefault`: symbols at which one more default counts.
- `Graph.Adds.defaultVerdict?_of_lacks`, `Graph.Adds.defaultVerdict?_of_not`: what a default
  changes at its symbol.
- `Graph.resolve_withDefault`: what it changes anywhere.
-/

namespace Nullness

/-! ## Searching when one answer is replaced -/

section Search
variable {α β : Type} {f f' : α → Option β} {x : α} {w : β} {l : List α}

/-- A search finds the same, or else what replaces the answer at `x`. -/
theorem findSome?_eq_or (hsame : ∀ y ∈ l, y ≠ x → f' y = f y) (hx : f' x = f x ∨ f' x = some w) :
    l.findSome? f' = l.findSome? f ∨ x ∈ l ∧ l.findSome? f' = some w := by
  induction l with
  | nil => exact Or.inl rfl
  | cons y l ih =>
      have hrest := ih fun z hz => hsame z (List.mem_cons_of_mem y hz)
      rw [List.findSome?_cons, List.findSome?_cons]
      by_cases hy : f' y = f y
      · rw [hy]
        cases f y with
        | some b => exact Or.inl rfl
        | none => exact hrest.imp_right fun h => ⟨List.mem_cons_of_mem y h.1, h.2⟩
      · have hyx : y = x := by
          by_contra hne
          exact hy (hsame y List.mem_cons_self hne)
        subst hyx
        rw [hx.resolve_left hy]
        exact Or.inr ⟨List.mem_cons_self, rfl⟩

/-- The search finds what replaces the answer at `x` if there is nothing to find before. -/
theorem findSome?_eq_of_reached {near far : List α} (hsame : ∀ y ∈ near, y ≠ x → f' y = f y)
    (hnear : ∀ y ∈ near, f y = none) (hx : f' x = some w) :
    (near ++ x :: far).findSome? f' = some w := by
  induction near with
  | nil => rw [List.nil_append, List.findSome?_cons, hx]
  | cons y near ih =>
      rw [List.cons_append, List.findSome?_cons]
      by_cases hyx : y = x
      · rw [hyx, hx]
      · rw [hsame y List.mem_cons_self hyx, hnear y List.mem_cons_self]
        exact ih (fun z hz => hsame z (List.mem_cons_of_mem y hz))
          fun z hz => hnear z (List.mem_cons_of_mem y hz)

end Search

/-- A type that sets defaults says nothing about the symbol that it is attached to. -/
theorem Vocabulary.sense?_of_default {name : String} (h : name ∈ scopeDefaults.map (·.1)) :
    sense? name = none := by
  have hall : ∀ n ∈ scopeDefaults.map (·.1), sense? n = none := by decide +kernel
  exact hall name h

namespace Graph

variable {g : Graph} {x i s : SymbolId} {d : Annotation} {as : List Annotation} {t : Target}

/-- A known annotation type that sets defaults and carries no annotations. -/
structure DefaultType (g : Graph) (T : SymbolId) : Prop where
  known : (g.symbol T).isUnknown = false
  bare : g.annotations T = []
  listed : (g.symbol T).qualifiedName ∈ Vocabulary.scopeDefaults.map (·.1)

/-! ## Lists with one more default -/

section Lists
variable (hd : g.DefaultType d.type)
include hd

theorem rulingAfter_concat (best : Option (Nullability × Annotation)) :
    g.rulingAfter best (as ++ [d]) = g.rulingAfter best as := by
  have hknown : g.isUnknownType d = false := hd.known
  have hsays : g.nullability? d = none := by
    rw [nullability?, typeName, Vocabulary.sense?_of_default hd.listed]
  induction as generalizing best with
  | nil => simp [rulingAfter_cons, bestWith, hknown, hsays]
  | cons a as ih => rw [List.cons_append, rulingAfter_cons, rulingAfter_cons, ih]

theorem ruling_concat : g.ruling (as ++ [d]) = g.ruling as :=
  rulingAfter_concat hd none

/-- The default counts if the list before it is silent. -/
theorem defaultRuling_concat :
    g.defaultRuling t (as ++ [d]) =
      (g.defaultRuling t as).or
        (if g.setsDefault d t then some (.found .nonNull d) else none) := by
  have hany : (as ++ [d]).any g.isUnknownType = as.any g.isUnknownType := by
    rw [List.any_append, List.any_cons, show g.isUnknownType d = false from hd.known]
    simp
  unfold defaultRuling
  rw [hany, List.find?_append]
  by_cases hu : as.any g.isUnknownType = true
  · simp [hu]
  · cases as.find? (g.setsDefault · t) with
    | some a => simp [hu]
    | none => by_cases hset : g.setsDefault d t = true <;> simp [hu, hset]

/-- Behind a list, the default is the last annotation that is kept, if its type is new. -/
theorem expand_concat (as : List Annotation) :
    g.expand (as ++ [d]) = g.expand as ∨ g.expand (as ++ [d]) = g.expand as ++ [d] := by
  rw [expand_eq_fresh, fresh_append]
  by_cases h : d.type ∈ g.seenAfter [] as
  · rw [fresh_cons_of_mem h, fresh_nil, List.append_nil]
    exact Or.inl rfl
  · rw [fresh_cons_of_not_mem h, hd.bare, fresh_nil, fresh_nil]
    exact Or.inr rfl

/-- What passes over the default in lists passes over it in expansions. -/
theorem rule_expand_concat {rule : List Annotation → Option Ruling}
    (hrule : ∀ as, rule (as ++ [d]) = rule as) :
    rule (g.expand (as ++ [d])) = rule (g.expand as) := by
  rcases expand_concat hd as with h | h
  · rw [h]
  · rw [h, hrule]

end Lists

/-! ## One more annotation at a symbol -/

/-- The graph with `d` attached to `x`, behind the annotations that `x` has. -/
def withDefault (g : Graph) (x : SymbolId) (d : Annotation) : Graph :=
  g.withAnnotations x (g.annotations x ++ [d])

theorem kind_withDefault (g : Graph) (x : SymbolId) (d : Annotation) (i : SymbolId) :
    ((g.withDefault x d).symbol i).kind = (g.symbol i).kind :=
  Symbol.kind_of_bare (g.bare_withAnnotations x _ i)

theorem isUnknown_withDefault (g : Graph) (x : SymbolId) (d : Annotation) (i : SymbolId) :
    ((g.withDefault x d).symbol i).isUnknown = (g.symbol i).isUnknown :=
  Symbol.isUnknown_of_bare (g.bare_withAnnotations x _ i)

theorem owners_withDefault (g : Graph) (x : SymbolId) (d : Annotation) (s : SymbolId) :
    (g.withDefault x d).owners s = g.owners s :=
  g.owners_withAnnotations x _ s

theorem annotations_withDefault_self (hx : x < g.size) :
    (g.withDefault x d).annotations x = g.annotations x ++ [d] := by
  rw [withDefault, annotations_withAnnotations, if_pos ⟨rfl, hx⟩]

theorem annotations_withDefault_of_ne (h : i ≠ x) :
    (g.withDefault x d).annotations i = g.annotations i := by
  rw [withDefault, annotations_withAnnotations, if_neg fun hxi => h hxi.1.symm]

/-- The default `d` for a symbol `x` that is no annotation type itself. -/
structure Adds (g : Graph) (x : SymbolId) (d : Annotation) : Prop where
  lt_size : x < g.size
  no_type : ∀ i, ∀ a ∈ g.annotations i, a.type ≠ x
  type_ne : d.type ≠ x
  default : g.DefaultType d.type

section Adds
variable (h : g.Adds x d)
include h

/-- No walk comes by `x`. -/
theorem Adds.expand_eq (has : ∀ a ∈ as, a.type ≠ x) :
    (g.withDefault x d).expand as = g.expand as := by
  obtain ⟨hfresh, -⟩ : (g.withDefault x d).fresh [] as = g.fresh [] as ∧
      (g.withDefault x d).seenAfter [] as = g.seenAfter [] as :=
    fresh_congr (D := (· ≠ x)) (fun i hi => annotations_withDefault_of_ne hi)
      (fun i _ => h.no_type i) has
  exact hfresh

theorem Adds.expand_self :
    (g.withDefault x d).expand ((g.withDefault x d).annotations x) =
      g.expand (g.annotations x ++ [d]) := by
  rw [annotations_withDefault_self h.lt_size]
  apply h.expand_eq
  intro a ha
  rcases List.mem_append.mp ha with ha | ha
  · exact h.no_type x a ha
  · rw [List.mem_singleton.mp ha]
    exact h.type_ne

/-- Nothing changes at other symbols. -/
theorem Adds.verdictAt?_of_ne {rule : List Annotation → Option Ruling} (hi : i ≠ x) :
    (g.withDefault x d).verdictAt? rule i = g.verdictAt? rule i := by
  refine verdictAt?_congr (g.kind_withDefault x d i) ?_ ?_
  · rw [annotations_withDefault_of_ne hi]
  · rw [annotations_withDefault_of_ne hi, h.expand_eq (h.no_type i)]

/-- Nothing changes at `x` for a rule that passes over the default. -/
theorem Adds.verdictAt?_self {rule : List Annotation → Option Ruling}
    (hrule : ∀ as, rule (as ++ [d]) = rule as) :
    (g.withDefault x d).verdictAt? rule x = g.verdictAt? rule x := by
  refine verdictAt?_congr (g.kind_withDefault x d x) ?_ ?_
  · rw [annotations_withDefault_self h.lt_size, hrule]
  · rw [h.expand_self, rule_expand_concat h.default hrule]

theorem Adds.ownVerdict?_eq (i : SymbolId) :
    (g.withDefault x d).ownVerdict? i = g.ownVerdict? i := by
  have hruling : (g.withDefault x d).ruling = g.ruling :=
    funext fun as => g.ruling_withAnnotations x _ as
  rw [ownVerdict?, ownVerdict?, hruling]
  by_cases hi : i = x
  · rw [hi]
    exact h.verdictAt?_self fun as => ruling_concat h.default
  · exact h.verdictAt?_of_ne hi

end Adds

/-! ## Defaults of owners -/

/-- One more default for `t` at `x` counts: nothing about `x` and the types of its annotations is
unknown, and none of these annotations sets the default. -/
structure LacksDefault (g : Graph) (t : Target) (x : SymbolId) : Prop where
  known : (g.symbol x).isUnknown = false
  direct : ∀ a ∈ g.annotations x, g.isUnknownType a = false ∧ g.setsDefault a t = false

/-- What is found through the default `d` at `x`. -/
def findingOf (g : Graph) (x : SymbolId) (d : Annotation) : Finding where
  nullability := .nonNull
  origin := (g.symbol x).kind
  source := d
  viaMeta := false

theorem defaultVerdict?_withDefault (g : Graph) (x : SymbolId) (d : Annotation) (t : Target)
    (i : SymbolId) :
    (g.withDefault x d).defaultVerdict? t i =
      if (g.symbol i).isUnknown then some .undecided
      else (g.withDefault x d).verdictAt? (g.defaultRuling t) i := by
  have hruling : (g.withDefault x d).defaultRuling t = g.defaultRuling t :=
    funext fun as => g.defaultRuling_withAnnotations x _ t as
  rw [defaultVerdict?, hruling, isUnknown_withDefault]

section Defaults
variable (h : g.Adds x d)
include h

theorem Adds.defaultVerdict?_of_ne (hi : i ≠ x) :
    (g.withDefault x d).defaultVerdict? t i = g.defaultVerdict? t i := by
  rw [defaultVerdict?_withDefault, h.verdictAt?_of_ne hi, defaultVerdict?]

/-- A symbol that lacks the default gets it. -/
theorem Adds.defaultVerdict?_of_lacks (hlacks : g.LacksDefault t x)
    (hset : g.setsDefault d t = true) :
    (g.withDefault x d).defaultVerdict? t x = some (.decided (g.findingOf x d)) := by
  have hnone : g.defaultRuling t (g.annotations x) = none :=
    defaultRuling_eq_none_iff.mpr hlacks.direct
  have hfound : g.defaultRuling t ((g.withDefault x d).annotations x) =
      some (.found .nonNull d) := by
    rw [annotations_withDefault_self h.lt_size, defaultRuling_concat h.default, hnone, hset]
    rfl
  rw [defaultVerdict?_withDefault, if_neg (by simp [hlacks.known])]
  refine verdictAt?_eq_some_iff.mpr (Or.inl ⟨_, hfound, ?_⟩)
  rw [kind_withDefault]
  rfl

/-- Otherwise the default makes no difference. -/
theorem Adds.defaultVerdict?_of_not
    (hnot : ¬ (g.LacksDefault t x ∧ g.setsDefault d t = true)) :
    (g.withDefault x d).defaultVerdict? t x = g.defaultVerdict? t x := by
  rw [defaultVerdict?_withDefault, defaultVerdict?]
  by_cases hu : (g.symbol x).isUnknown = true
  · rw [if_pos hu, if_pos hu]
  · rw [if_neg hu, if_neg hu]
    by_cases hset : g.setsDefault d t = true
    · -- the annotations before the default have a ruling already, which it leaves alone
      rcases hr : g.defaultRuling t (g.annotations x) with - | r
      · have hdirect := defaultRuling_eq_none_iff.mp hr
        exact absurd ⟨⟨by simpa using hu, hdirect⟩, hset⟩ hnot
      · have hr' : g.defaultRuling t ((g.withDefault x d).annotations x) = some r := by
          rw [annotations_withDefault_self h.lt_size, defaultRuling_concat h.default, hr]
          rfl
        rw [verdictAt?_eq_some_iff.mpr (Or.inl ⟨r, hr, rfl⟩)]
        refine verdictAt?_eq_some_iff.mpr (Or.inl ⟨r, hr', ?_⟩)
        rw [kind_withDefault]
    · refine h.verdictAt?_self fun as => ?_
      rw [defaultRuling_concat h.default, if_neg hset, Option.or_none]

/-- At its symbol the default makes no difference, or else it is what is found. -/
theorem Adds.defaultVerdict?_self (t : Target) :
    (g.withDefault x d).defaultVerdict? t x = g.defaultVerdict? t x ∨
      (g.withDefault x d).defaultVerdict? t x = some (.decided (g.findingOf x d)) := by
  by_cases hcounts : g.LacksDefault t x ∧ g.setsDefault d t = true
  · exact Or.inr (h.defaultVerdict?_of_lacks hcounts.1 hcounts.2)
  · exact Or.inl (h.defaultVerdict?_of_not hcounts)

/-! ## Results -/

theorem Adds.resolve_eq_of_known (hs : (g.symbol s).isUnknown = false) :
    (g.withDefault x d).resolve s t =
      ((g.ownVerdict? s).or
        ((g.owners s).findSome? ((g.withDefault x d).defaultVerdict? t))).getD .undecided := by
  have hs' : ((g.withDefault x d).symbol s).isUnknown = false := by
    rw [isUnknown_withDefault, hs]
  rw [Graph.resolve_eq_of_known hs', h.ownVerdict?_eq, owners_withDefault]

/-- A result stays, or else the default is found at an owner of a symbol that says nothing by
itself. -/
theorem Adds.resolve_cases (s : SymbolId) (t : Target) :
    (g.withDefault x d).resolve s t = g.resolve s t ∨
      (x ∈ g.owners s ∧ g.ownVerdict? s = none ∧
        (g.withDefault x d).resolve s t = .decided (g.findingOf x d)) := by
  by_cases hs : (g.symbol s).isUnknown = true
  · have hs' : ((g.withDefault x d).symbol s).isUnknown = true := by
      rw [isUnknown_withDefault, hs]
    rw [resolve, resolve, if_pos hs, if_pos hs']
    exact Or.inl rfl
  · have hs : (g.symbol s).isUnknown = false := by simpa using hs
    rw [h.resolve_eq_of_known hs, Graph.resolve_eq_of_known hs]
    rcases hown : g.ownVerdict? s with - | v
    · have hwalk := findSome?_eq_or (l := g.owners s)
        (fun o _ ho => h.defaultVerdict?_of_ne ho) (h.defaultVerdict?_self t)
      rcases hwalk with hsame | ⟨hmem, hfound⟩
      · rw [hsame]
        exact Or.inl rfl
      · rw [hfound]
        exact Or.inr ⟨hmem, rfl, rfl⟩
    · exact Or.inl rfl

end Defaults

/-- A symbol that says nothing by itself is non-null, if anything. -/
theorem nullability?_of_silent (hg : g.Built) (hown : g.ownVerdict? s = none) (t : Target) :
    (g.resolve s t).nullability? = none ∨ (g.resolve s t).nullability? = some .nonNull := by
  rcases resolve_cases g s t with hnone | ⟨f, hf⟩
  · exact Or.inl (congrArg Verdict.nullability? hnone)
  · obtain ⟨-, stage, hstage⟩ := exists_decides hg hf
    rw [hf]
    rcases hstage.own_or_owner with hv | ⟨near, o, howner⟩
    · rw [hown] at hv
      cases hv
    · exact Or.inr (congrArg some howner.owner_finding.1)

/-- **One more default.** Let a default be put behind the annotations of a symbol that is no
annotation type. Then results change from saying nothing to non-null, if what they say changes at
all. They do not change for the symbol itself, nor for what it does not own. Where a result
changes, the default is what is found, at the level of its symbol. And it is found for every target
that it covers if nothing is said by the symbol in question or by nearer owners, and the owner with
the default lacked it. -/
theorem resolve_withDefault (hg : g.Built) (h : g.Adds x d) (s : SymbolId) (t : Target) :
    (((g.withDefault x d).resolve s t).nullability? = (g.resolve s t).nullability? ∨
      (g.resolve s t).nullability? = none ∧
        ((g.withDefault x d).resolve s t).nullability? = some .nonNull) ∧
    ((s = x ∨ ∀ os, g.OwnerChain s os → x ∉ os) →
      (g.withDefault x d).resolve s t = g.resolve s t) ∧
    ((g.withDefault x d).resolve s t ≠ g.resolve s t →
      (g.withDefault x d).resolve s t = .decided ⟨.nonNull, (g.symbol x).kind, d, false⟩) ∧
    ∀ near far, (g.symbol s).isUnknown = false → g.ownVerdict? s = none →
      g.OwnerChain s (near ++ x :: far) → (∀ p ∈ near, g.Silent t p) → g.LacksDefault t x →
      g.setsDefault d t = true →
      (g.withDefault x d).resolve s t = .decided ⟨.nonNull, (g.symbol x).kind, d, false⟩ := by
  have hsound := hg.sound
  have hcases := h.resolve_cases s t
  refine ⟨?_, fun hx => ?_, fun hne => ?_, fun near far hs hown hchain hnear hlacks hset => ?_⟩
  · rcases hcases with hsame | ⟨-, hown, hfound⟩
    · exact Or.inl (congrArg Verdict.nullability? hsame)
    · rw [hfound]
      rcases nullability?_of_silent hg hown t with hnone | hnonNull
      · exact Or.inr ⟨hnone, rfl⟩
      · exact Or.inl hnonNull.symm
  · rcases hcases with hsame | ⟨hmem, -, -⟩
    · exact hsame
    · have hos := hsound.ownerChain_owners s
      rcases hx with rfl | hx
      · exact absurd (hos.lt hsound hmem) (Nat.lt_irrefl s)
      · exact absurd hmem (hx _ hos)
  · exact (hcases.resolve_left hne).2.2
  · have hwalk : (near ++ x :: far).findSome? ((g.withDefault x d).defaultVerdict? t) =
        some (.decided (g.findingOf x d)) :=
      findSome?_eq_of_reached (fun p _ hp => h.defaultVerdict?_of_ne hp)
        (fun p hp => defaultVerdict?_eq_none_iff.mpr (hnear p hp))
        (h.defaultVerdict?_of_lacks hlacks hset)
    rw [h.resolve_eq_of_known hs, hown, ← hsound.ownerChain_iff.mp hchain, hwalk]
    rfl

/-- A field `p.C.f`, in a class with an annotation whose type carries one of unknown type. -/
def obscuredClass : Registry :=
  Registry.run {}
    [ .package "p", .member .cls "C" (some 0) false, .member .var "f" (some 1) false,
      .ensureClass "p.Checked", .unknown "Missing",
      .ensureClass "org.springframework.lang.NonNullFields", .annotate 3 ⟨4, []⟩,
      .annotate 1 ⟨3, []⟩ ]

/-- The default for fields comes before the unknown type, but it is not for parameters, and does not
speak about the class that it is attached to. -/
theorem resolve_obscuredClass_withDefault :
    obscuredClass.resolve 2 .field = .undecided ∧
    (obscuredClass.withDefault 1 ⟨6, []⟩).resolve 2 .field =
      .decided ⟨.nonNull, .cls, ⟨6, []⟩, false⟩ ∧
    (obscuredClass.withDefault 1 ⟨6, []⟩).resolve 1 .field = .undecided := by
  have hbuilt : obscuredClass.Built := ⟨obscuredClass, .run .empty (by decide), rfl⟩
  have htypes : ∀ i < 7, ∀ a ∈ obscuredClass.annotations i, a.type ≠ 1 := by decide
  have hadds : obscuredClass.Adds 1 ⟨6, []⟩ := by
    refine ⟨by decide, fun i a ha => ?_, by decide, ⟨by decide, by decide, by decide⟩⟩
    by_cases hi : i < obscuredClass.size
    · exact htypes i hi a ha
    · rw [obscuredClass.annotations_of_le (Nat.le_of_not_lt hi)] at ha
      cases ha
  have hbefore : obscuredClass.resolve 2 .field = .undecided := by cbv
  obtain ⟨-, -, -, hcounts⟩ := resolve_withDefault hbuilt hadds 2 .field
  obtain ⟨-, hself, -, -⟩ := resolve_withDefault hbuilt hadds 1 .field
  have hchain : obscuredClass.OwnerChain 2 ([] ++ 1 :: [0]) :=
    hbuilt.sound.ownerChain_iff.mpr (by cbv)
  have hnear : ∀ p ∈ ([] : List SymbolId), obscuredClass.Silent .field p := by simp
  refine ⟨hbefore, ?_, (hself (Or.inl rfl)).trans (by cbv)⟩
  exact hcounts [] [0] (by decide) (by cbv) hchain hnear ⟨by decide, by decide⟩ (by decide)

end Graph

end Nullness
