import Nullness.Proofs.Certainty
import Nullness.Proofs.Constants
import Nullness.Proofs.Coverage

/-!
# The annotation behind a finding

A finding names the annotation that decided, and says whether it stands on the symbol itself or on
an annotation type. An expansion holds both sorts of annotations. It is searched only after the
annotations of the symbol have turned out to say nothing, so whatever is found in it is not among
these, nor the same as one of them.

- `Annotation.related_of_same`: annotations that are the same mention the same symbols.
- `Graph.GoesBy`: what a rule for lists of annotations looks for.
- `Graph.Backs`: the source of a finding stands where the finding says.
- `Graph.exists_backs`: every finding is backed by its symbol or by an owner.
-/

namespace Nullness

/-! ## Annotations that are the same -/

mutual

theorem Value.symbols_of_same : ∀ {v w : Value}, v.same w = true → w.symbols = v.symbols
  | .scalar _, w, h => by
      cases w with
      | scalar _ => rfl
      | _ => simp [Value.same] at h
  | .symbol i, w, h => by
      cases w with
      | symbol j =>
          have hij : i = j := by simpa [Value.same] using h
          rw [hij]
      | _ => simp [Value.same] at h
  | .nested _, w, h => by
      cases w with
      | nested _ => rfl
      | _ => simp [Value.same] at h
  | .list _, w, h => by
      cases w with
      | list _ =>
          rw [Value.same] at h
          exact Value.symbolsOfAll_of_same h
      | _ => simp [Value.same] at h

theorem Value.symbolsOfAll_of_same : ∀ {vs ws : List Value}, Value.sameList vs ws = true →
    Value.symbolsOfAll ws = Value.symbolsOfAll vs
  | [], ws, h => by
      cases ws with
      | nil => rfl
      | cons _ _ => simp [Value.sameList] at h
  | _ :: _, ws, h => by
      cases ws with
      | nil => simp [Value.sameList] at h
      | cons _ _ =>
          rw [Value.sameList, Bool.and_eq_true] at h
          rw [Value.symbolsOfAll, Value.symbolsOfAll, Value.symbols_of_same h.1,
            Value.symbolsOfAll_of_same h.2]

end

theorem Argument.related_of_same {as : List Argument} : ∀ {bs : List Argument},
    Argument.sameList as bs = true →
      List.Forall₂ (fun x y => y.name = x.name ∧ y.value.symbols = x.value.symbols) as bs := by
  induction as with
  | nil =>
      intro bs h
      cases bs with
      | nil => exact .nil
      | cons _ _ => simp [Argument.sameList] at h
  | cons a as ih =>
      obtain ⟨n, v⟩ := a
      intro bs h
      cases bs with
      | nil => simp [Argument.sameList] at h
      | cons b bs =>
          obtain ⟨m, w⟩ := b
          rw [Argument.sameList, Bool.and_eq_true, Bool.and_eq_true, beq_iff_eq] at h
          obtain ⟨⟨hname, hvalue⟩, hrest⟩ := h
          exact .cons ⟨hname.symm, Value.symbols_of_same hvalue⟩ (ih hrest)

theorem Annotation.related_of_same {a b : Annotation} (h : a.same b = true) :
    a.Related (fun v w => w.symbols = v.symbols) b := by
  obtain ⟨t, as⟩ := a
  obtain ⟨u, bs⟩ := b
  unfold Annotation.same at h
  rw [Bool.and_eq_true, beq_iff_eq] at h
  exact ⟨h.1.symm, Argument.related_of_same h.2⟩

namespace Graph

variable {g : Graph} {as : List Annotation} {a b : Annotation} {n : Nullability} {s o : SymbolId}
  {t : Target} {f : Finding}

theorem sameConstants_of_same (h : a.same b = true) : a.Related g.SameConstants b := by
  have hsymbols := Annotation.related_of_same h
  exact hsymbols.mono fun _ _ hvw => sameConstants_of_symbols fun i => by rw [hvw]

/-! ## What a rule goes by -/

/-- A rule for lists of annotations goes by `p`: it finds an annotation of known type that satisfies
`p`, if any annotation does, and does not tell annotations apart that are the same. -/
structure GoesBy (g : Graph) (rule : List Annotation → Option Ruling)
    (p : Nullability → Annotation → Prop) : Prop where
  found : ∀ {as n a}, rule as = some (.found n a) →
    a ∈ as ∧ p n a ∧ g.isUnknownType a = false
  none : ∀ {as}, rule as = none → ∀ a ∈ as, ∀ n, ¬ p n a
  same : ∀ {n a b}, a.same b = true → p n b → p n a

theorem nullability?_of_ruling (h : g.ruling as = some (.found n a)) :
    a ∈ as ∧ g.nullability? a = some n := by
  have hclear : ¬ g.Obscured as := by
    rw [← ruling_eq_ambiguous_iff, h]
    exact nofun
  simp only [ruling_of_clear hclear, Option.orElse_eq_orElse, Option.orElse_eq_or,
    Option.or_eq_some_iff] at h
  rcases h with hstrong | ⟨-, hweak | ⟨-, hnonNull⟩⟩
  · obtain ⟨before, b, after, rfl, hr, hb, -⟩ := firstSaying_eq_some hstrong
    cases hr
    exact ⟨List.mem_append_cons_self, hb⟩
  · obtain ⟨b, hmem, hr, hb⟩ := lastSaying_eq_some hweak
    cases hr
    exact ⟨hmem, hb⟩
  · obtain ⟨before, b, after, rfl, hr, hb, -⟩ := firstSaying_eq_some hnonNull
    cases hr
    exact ⟨List.mem_append_cons_self, hb⟩

theorem known_of_ruling_source (h : g.ruling as = some (.found n a)) :
    g.isUnknownType a = false := by
  by_cases hn : n = .strongNullable
  · subst hn
    obtain ⟨before, after, -, -, hknown, -⟩ := firstStrong_of_ruling h
    exact hknown
  · exact known_of_ruling_found h hn a (nullability?_of_ruling h).1

/-- A list without a ruling holds nothing that says anything. -/
theorem nullability?_of_ruling_none (h : g.ruling as = none) (ha : a ∈ as) :
    g.nullability? a = none := by
  have hclear : ¬ g.Obscured as := by
    rw [← ruling_eq_ambiguous_iff, h]
    exact nofun
  simp only [ruling_of_clear hclear, Option.orElse_eq_orElse, Option.orElse_eq_or,
    Option.or_eq_none_iff] at h
  obtain ⟨hstrong, hweak, hnonNull⟩ := h
  rcases hn : g.nullability? a with - | n
  · rfl
  · cases n with
    | strongNullable => exact absurd hn (firstSaying_eq_none_iff.mp hstrong a ha)
    | weakNullable => exact absurd hn (lastSaying_eq_none_iff.mp hweak a ha)
    | nonNull => exact absurd hn (firstSaying_eq_none_iff.mp hnonNull a ha)

/-- Rulings go by what annotations say by themselves. -/
theorem goesBy_ruling (g : Graph) : g.GoesBy g.ruling fun n a => g.nullability? a = some n := by
  constructor
  · intro as n a h
    obtain ⟨ha, hn⟩ := nullability?_of_ruling h
    exact ⟨ha, hn, known_of_ruling_source h⟩
  · intro as h a ha n hn
    rw [nullability?_of_ruling_none h ha] at hn
    cases hn
  · intro n a b hab hb
    rw [← nullability?_of_related (sameConstants_of_same hab)]
    exact hb

/-- Default rulings go by the defaults that annotations set. -/
theorem goesBy_defaultRuling (g : Graph) (t : Target) :
    g.GoesBy (g.defaultRuling t) fun _ a => g.setsDefault a t = true := by
  constructor
  · intro as n a h
    obtain ⟨hknown, -, before, after, rfl, hset, -⟩ := defaultRuling_eq_found_iff.mp h
    exact ⟨List.mem_append_cons_self, hset, hknown a List.mem_append_cons_self⟩
  · intro as h a ha _ hset
    rw [(defaultRuling_eq_none_iff.mp h a ha).2] at hset
    cases hset
  · intro _ a b hab hb
    rw [← setsDefault_of_related (sameConstants_of_same hab)]
    exact hb

/-! ## Where the source stands -/

/-- The symbol `o` backs a finding: the finding is made at its level, from an annotation of known
type that is attached to `o`, or else to an annotation type that the annotations of `o` lead to. In
the second case it is not the same as any annotation of `o`. -/
structure Backs (g : Graph) (o : SymbolId) (f : Finding) : Prop where
  origin : f.origin = (g.symbol o).kind
  known : g.isUnknownType f.source = false
  direct : f.viaMeta = false → f.source ∈ g.annotations o
  attached : f.viaMeta = true → ∃ i, g.Met [] (g.annotations o) i ∧ f.source ∈ g.annotations i
  new : f.viaMeta = true → ∀ a ∈ g.annotations o, a ≠ f.source ∧ a.same f.source = false

/-- What an expansion adds to a list is attached to a type that the list leads to. -/
theorem attached_of_mem_expand (ha : a ∈ g.expand as) (hnew : a ∉ as) :
    ∃ i, g.Met [] as i ∧ a ∈ g.annotations i := by
  cases reached_of_mem_fresh ha with
  | listed hmem _ => exact absurd hmem hnew
  | attached hb hmem _ => exact ⟨_, met_iff.mpr ⟨_, hb, rfl⟩, hmem⟩

/-- What a rule finds at a symbol is backed by the symbol. -/
theorem GoesBy.backs {rule : List Annotation → Option Ruling} {p : Nullability → Annotation → Prop}
    (h : g.GoesBy rule p) (hv : g.verdictAt? rule o = some (.decided f)) :
    g.Backs o f ∧ p f.nullability f.source := by
  rcases verdictAt?_eq_some_iff.mp hv with ⟨r, hr, hf⟩ | ⟨hnone, r, hr, hf⟩
  · obtain ⟨rfl, horigin, hdirect⟩ := Ruling.verdict_eq_decided_iff.mp hf
    obtain ⟨hmem, hp, hknown⟩ := h.found hr
    exact ⟨⟨horigin, hknown, fun _ => hmem, by simp [hdirect], by simp [hdirect]⟩, hp⟩
  · obtain ⟨rfl, horigin, hmeta⟩ := Ruling.verdict_eq_decided_iff.mp hf
    obtain ⟨hmem, hp, hknown⟩ := h.found hr
    -- the annotations of the symbol were searched before, and none of them satisfies `p`
    have hnew : ∀ a ∈ g.annotations o, a ≠ f.source ∧ a.same f.source = false := by
      intro a ha
      have hnot : ¬ p f.nullability a := h.none hnone a ha f.nullability
      constructor
      · rintro rfl
        exact hnot hp
      · rw [← Bool.not_eq_true]
        exact fun hsame => hnot (h.same hsame hp)
    have hlisted : f.source ∉ g.annotations o := fun ha => (hnew _ ha).1 rfl
    exact ⟨⟨horigin, hknown, by simp [hmeta], fun _ => attached_of_mem_expand hmem hlisted,
      fun _ => hnew⟩, hp⟩

theorem verdictAt?_of_defaultVerdict? (h : g.defaultVerdict? t o = some (.decided f)) :
    g.verdictAt? (g.defaultRuling t) o = some (.decided f) := by
  unfold defaultVerdict? at h
  split at h
  · cases h
  · exact h

/-- Whatever decides is what the symbol says by itself, or an owner. -/
theorem Decides.own_or_owner {stage : Stage} {v : Verdict} (h : g.Decides s t stage v) :
    g.ownVerdict? s = some v ∨ ∃ near o, g.Decides s t (.owner near o) v := by
  cases h with
  | direct hr => exact Or.inl (verdictAt?_eq_some_iff.mpr (Or.inl ⟨_, hr, rfl⟩))
  | expanded hnone hr =>
      exact Or.inl (verdictAt?_eq_some_iff.mpr (Or.inr ⟨hnone, _, hr, rfl⟩))
  | owner hdirect hexpanded hchain hnear ho =>
      exact Or.inr ⟨_, _, .owner hdirect hexpanded hchain hnear ho⟩

/-- **Sources.** Every finding is backed by the symbol that it is about or by one of its owners up
to the first package. In the first case its source says by itself what was found, in the second
case it sets the default for the target. -/
theorem exists_backs (hg : g.Built) (h : g.resolve s t = .decided f) :
    ∃ o, g.Backs o f ∧
      (o = s ∧ g.nullability? f.source = some f.nullability ∨
        (∃ os, g.OwnerChain s os ∧ o ∈ os) ∧ g.setsDefault f.source t = true) := by
  obtain ⟨-, stage, hstage⟩ := exists_decides hg h
  rcases hstage.own_or_owner with hown | ⟨near, o, howner⟩
  · obtain ⟨hbacks, hsays⟩ := g.goesBy_ruling.backs hown
    exact ⟨s, hbacks, Or.inl ⟨rfl, hsays⟩⟩
  · cases howner with
    | owner _ _ hchain _ ho =>
        have hat := verdictAt?_of_defaultVerdict? ho
        obtain ⟨hbacks, hsets⟩ := (g.goesBy_defaultRuling t).backs hat
        exact ⟨o, hbacks, Or.inr ⟨⟨_, hchain, List.mem_append_cons_self⟩, hsets⟩⟩

/-- The default that is found for the parameter stands on an annotation type, which an annotation
of some symbol leads to. -/
theorem backs_parameterOfClass :
    ∃ o i, parameterOfClass.Backs o classDefault ∧
      parameterOfClass.Met [] (parameterOfClass.annotations o) i ∧
      classDefault.source ∈ parameterOfClass.annotations i := by
  have hresolve : parameterOfClass.resolve 3 .parameter = .decided classDefault := by cbv
  obtain ⟨o, hbacks, -⟩ := exists_backs built_parameterOfClass hresolve
  obtain ⟨i, hmet, hmem⟩ := hbacks.attached rfl
  exact ⟨o, i, hbacks, hmet, hmem⟩

end Graph

end Nullness
