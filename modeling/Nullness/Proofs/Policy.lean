import Mathlib
import Nullness.Proofs.Ruling

/-!
# What counts in a list of annotations

A ruling comes from reading a list once, with the best annotation so far in hand. This is what
it comes to, told of the list as a whole: which annotation counts, which types are known then,
and what does not depend on the order.

- `Graph.Obscured`: lists in which an unknown type comes before anything settles the matter.
- `Graph.rulingAfter_of_clear`: what reading on comes to, for any best annotation so far.
- `Graph.known_of_ruling`, `Graph.FirstStrong`: which types are known when a ruling is not
  ambiguous.
- `Graph.strength_ruling`: the ruling of a list of known types finds what the strongest
  annotation says.
- `Graph.ruling_policy`: the first strong nullable annotation counts, else the last weak
  nullable one, else the first non-null one.
-/

namespace Nullness

namespace Graph

variable {g : Graph} {a : Annotation} {as bs : List Annotation} {n : Nullability} {r : Ruling}

/-! ## Reading one annotation -/

/-- The best annotation behind `a`, which is neither unknown nor strong nullable. -/
def bestWith (g : Graph) (best : Option (Nullability × Annotation)) (a : Annotation) :
    Option (Nullability × Annotation) :=
  match g.nullability? a with
  | some .weakNullable => some (.weakNullable, a)
  | some .nonNull => best <|> some (.nonNull, a)
  | _ => best

/-- What reading one annotation does: it ends the reading, or may become the best one. -/
theorem rulingAfter_cons (best : Option (Nullability × Annotation)) :
    g.rulingAfter best (a :: as) =
      if g.isUnknownType a then some .ambiguous
      else if g.nullability? a = some .strongNullable then some (.found .strongNullable a)
      else g.rulingAfter (g.bestWith best a) as := by
  rw [rulingAfter, bestWith]
  cases g.nullability? a with
  | none => rfl
  | some n => cases n <;> rfl

/-! ## Obscured lists -/

/-- Some type is unknown, and no strong nullable annotation of known type comes before. -/
def Obscured (g : Graph) (as : List Annotation) : Prop :=
  ∃ before a after, as = before ++ a :: after ∧ g.isUnknownType a = true ∧
    ∀ b ∈ before, g.isUnknownType b = false → g.nullability? b ≠ some .strongNullable

theorem not_obscured_nil (g : Graph) : ¬ g.Obscured [] := by
  rintro ⟨before, a, after, hsplit, -⟩
  exact List.append_ne_nil_of_right_ne_nil before (List.cons_ne_nil a after) hsplit.symm

theorem obscured_cons_iff :
    g.Obscured (a :: as) ↔ g.isUnknownType a = true ∨
      g.nullability? a ≠ some .strongNullable ∧ g.Obscured as := by
  constructor
  · rintro ⟨before, c, after, hsplit, hc, hbefore⟩
    cases before with
    | nil =>
        cases hsplit
        exact Or.inl hc
    | cons b before =>
        cases hsplit
        obtain ⟨ha, hbefore⟩ := List.forall_mem_cons.mp hbefore
        by_cases hunknown : g.isUnknownType a = true
        · exact Or.inl hunknown
        · exact Or.inr ⟨ha (by simpa using hunknown), before, c, after, rfl, hc, hbefore⟩
  · rintro (hunknown | ⟨hweak, before, c, after, rfl, hc, hbefore⟩)
    · exact ⟨[], a, as, rfl, hunknown, nofun⟩
    · exact ⟨a :: before, c, after, rfl, hc,
        List.forall_mem_cons.mpr ⟨fun _ => hweak, hbefore⟩⟩

instance decidableObscured (g : Graph) : (as : List Annotation) → Decidable (g.Obscured as)
  | [] => isFalse g.not_obscured_nil
  | _ :: as =>
    have := decidableObscured g as
    decidable_of_iff _ obscured_cons_iff.symm

theorem rulingAfter_eq_ambiguous_iff {best : Option (Nullability × Annotation)} :
    g.rulingAfter best as = some .ambiguous ↔ g.Obscured as := by
  induction as generalizing best with
  | nil =>
      refine ⟨fun h => ?_, fun h => absurd h g.not_obscured_nil⟩
      obtain ⟨b, -, hb⟩ := Option.map_eq_some_iff.mp h
      cases hb
  | cons a as ih =>
      rw [rulingAfter_cons, obscured_cons_iff]
      split
      · rename_i hunknown
        exact ⟨fun _ => Or.inl hunknown, fun _ => rfl⟩
      · rename_i hknown
        split
        · rename_i hstrong
          simp [hknown, hstrong]
        · rename_i hweak
          rw [ih]
          simp [hknown, hweak]

theorem ruling_eq_ambiguous_iff : g.ruling as = some .ambiguous ↔ g.Obscured as :=
  rulingAfter_eq_ambiguous_iff

/-! ## The annotation that counts -/

/-- The ruling of the first annotation that says `n` by itself. -/
def firstSaying (g : Graph) (n : Nullability) (as : List Annotation) : Option Ruling :=
  (as.find? (g.nullability? · = some n)).map (.found n)

/-- The ruling of the last annotation that says `n` by itself. -/
def lastSaying (g : Graph) (n : Nullability) (as : List Annotation) : Option Ruling :=
  (as.findRev? (g.nullability? · = some n)).map (.found n)

theorem firstSaying_cons_of_eq (h : g.nullability? a = some n) :
    g.firstSaying n (a :: as) = some (.found n a) := by
  rw [firstSaying, List.find?_cons_of_pos (by simpa using h)]
  rfl

theorem firstSaying_cons_of_ne (h : g.nullability? a ≠ some n) :
    g.firstSaying n (a :: as) = g.firstSaying n as := by
  rw [firstSaying, List.find?_cons_of_neg (by simpa using h), firstSaying]

theorem lastSaying_cons_of_eq (h : g.nullability? a = some n) :
    g.lastSaying n (a :: as) = (g.lastSaying n as <|> some (.found n a)) := by
  simp [lastSaying, List.findRev?_eq_find?_reverse, h]

theorem lastSaying_cons_of_ne (h : g.nullability? a ≠ some n) :
    g.lastSaying n (a :: as) = g.lastSaying n as := by
  simp [lastSaying, List.findRev?_eq_find?_reverse, h]

/-- Reading an annotation that is not strong nullable: what it does to the best one so far comes
to the same as finding it in the list. -/
theorem bestWith_or (h : g.nullability? a ≠ some .strongNullable)
    (best : Option (Nullability × Annotation)) :
    (g.lastSaying .weakNullable as <|>
        ((g.bestWith best a).map fun (n, a) => .found n a) <|> g.firstSaying .nonNull as) =
      (g.lastSaying .weakNullable (a :: as) <|>
        (best.map fun (n, a) => .found n a) <|> g.firstSaying .nonNull (a :: as)) := by
  rcases hn : g.nullability? a with - | n
  · rw [lastSaying_cons_of_ne (by simp [hn]), firstSaying_cons_of_ne (by simp [hn]),
      bestWith, hn]
  · cases n with
    | strongNullable => exact absurd hn h
    | weakNullable =>
        rw [lastSaying_cons_of_eq hn, firstSaying_cons_of_ne (by simp [hn]), bestWith, hn]
        simp
    | nonNull =>
        rw [lastSaying_cons_of_ne (by simp [hn]), firstSaying_cons_of_eq hn, bestWith, hn]
        cases best <;> simp

/-- Reading on through a list that is not obscured. The best annotation so far gives way to weak
nullable ones and keeps its place before non-null ones, whatever it says itself. -/
theorem rulingAfter_of_clear (h : ¬ g.Obscured as) (best : Option (Nullability × Annotation)) :
    g.rulingAfter best as =
      (g.firstSaying .strongNullable as <|> g.lastSaying .weakNullable as <|>
        (best.map fun (n, a) => .found n a) <|> g.firstSaying .nonNull as) := by
  induction as generalizing best with
  | nil => simp [rulingAfter, firstSaying, lastSaying]
  | cons a as ih =>
      obtain ⟨hknown, hrest⟩ := not_or.mp (mt obscured_cons_iff.mpr h)
      rw [rulingAfter_cons, if_neg hknown]
      by_cases hstrong : g.nullability? a = some .strongNullable
      · rw [if_pos hstrong, firstSaying_cons_of_eq hstrong]
        rfl
      · have hclear : ¬ g.Obscured as := fun hobscured => hrest ⟨hstrong, hobscured⟩
        rw [if_neg hstrong, ih hclear, bestWith_or hstrong, firstSaying_cons_of_ne hstrong]

theorem ruling_of_clear (h : ¬ g.Obscured as) :
    g.ruling as =
      (g.firstSaying .strongNullable as <|> g.lastSaying .weakNullable as <|>
        g.firstSaying .nonNull as) := by
  rw [ruling, rulingAfter_of_clear h]
  rfl

theorem firstSaying_eq_none_iff :
    g.firstSaying n as = none ↔ ∀ a ∈ as, g.nullability? a ≠ some n := by
  simp [firstSaying]

theorem lastSaying_eq_none_iff :
    g.lastSaying n as = none ↔ ∀ a ∈ as, g.nullability? a ≠ some n := by
  simp [lastSaying, List.findRev?_eq_find?_reverse]

theorem firstSaying_eq_some (h : g.firstSaying n as = some r) :
    ∃ before a after, as = before ++ a :: after ∧ r = .found n a ∧ g.nullability? a = some n ∧
      ∀ b ∈ before, g.nullability? b ≠ some n := by
  obtain ⟨a, hfind, rfl⟩ := Option.map_eq_some_iff.mp h
  obtain ⟨ha, before, after, hsplit, hbefore⟩ := List.find?_eq_some_iff_append.mp hfind
  exact ⟨before, a, after, hsplit, rfl, by simpa using ha, fun b hb => by simpa using hbefore b hb⟩

theorem lastSaying_eq_some (h : g.lastSaying n as = some r) :
    ∃ a ∈ as, r = .found n a ∧ g.nullability? a = some n := by
  obtain ⟨a, hfind, rfl⟩ := Option.map_eq_some_iff.mp h
  rw [List.findRev?_eq_find?_reverse] at hfind
  exact ⟨a, List.mem_reverse.mp (List.mem_of_find?_eq_some hfind), rfl,
    by simpa using List.find?_some hfind⟩

/-! ## Which types are known -/

/-- `a` is the first strong nullable annotation of a list, and no type up to it is unknown. -/
def FirstStrong (g : Graph) (as : List Annotation) (a : Annotation) : Prop :=
  ∃ before after, as = before ++ a :: after ∧ g.nullability? a = some .strongNullable ∧
    g.isUnknownType a = false ∧
    ∀ b ∈ before, g.isUnknownType b = false ∧ g.nullability? b ≠ some .strongNullable

/-- In a list that is not obscured, the types up to the first strong nullable annotation are
known. -/
theorem known_of_clear {before after : List Annotation}
    (h : ¬ g.Obscured (before ++ a :: after))
    (hbefore : ∀ b ∈ before, g.nullability? b ≠ some .strongNullable) :
    g.isUnknownType a = false := by
  rw [← Bool.not_eq_true]
  exact fun hunknown => h ⟨before, a, after, rfl, hunknown, fun b hb _ => hbefore b hb⟩

theorem not_obscured_of_known (h : ∀ a ∈ as, g.isUnknownType a = false) : ¬ g.Obscured as := by
  rintro ⟨before, a, after, rfl, hunknown, -⟩
  rw [h a List.mem_append_cons_self] at hunknown
  cases hunknown

theorem ruling_ne_ambiguous (h : ∀ a ∈ as, g.isUnknownType a = false) :
    g.ruling as ≠ some .ambiguous :=
  mt ruling_eq_ambiguous_iff.mp (not_obscured_of_known h)

/-- No type of a list is unknown when its ruling is neither ambiguous nor strong nullable. -/
theorem known_of_ruling (hclear : g.ruling as ≠ some .ambiguous)
    (hweak : ∀ a, g.ruling as ≠ some (.found .strongNullable a)) :
    ∀ a ∈ as, g.isUnknownType a = false := by
  have hseen : ¬ g.Obscured as := mt ruling_eq_ambiguous_iff.mpr hclear
  have hnone : g.firstSaying .strongNullable as = none := by
    rw [Option.eq_none_iff_forall_ne_some]
    intro r hr
    obtain ⟨_, a, _, _, rfl, _⟩ := firstSaying_eq_some hr
    exact hweak a (by rw [ruling_of_clear hseen, hr]; rfl)
  intro a ha
  obtain ⟨before, after, rfl⟩ := List.append_of_mem ha
  exact known_of_clear hseen fun b hb =>
    firstSaying_eq_none_iff.mp hnone b (List.mem_append_left _ hb)

theorem firstStrong_of_ruling (h : g.ruling as = some (.found .strongNullable a)) :
    g.FirstStrong as a := by
  have hseen : ¬ g.Obscured as := by
    intro hobscured
    rw [ruling_eq_ambiguous_iff.mpr hobscured] at h
    cases h
  have hfirst : g.firstSaying .strongNullable as = some (.found .strongNullable a) := by
    simp only [ruling_of_clear hseen, Option.orElse_eq_orElse, Option.orElse_eq_or,
      Option.or_eq_some_iff] at h
    rcases h with hstrong | ⟨-, hweak | ⟨-, hnonNull⟩⟩
    · exact hstrong
    · obtain ⟨_, _, hr, _⟩ := lastSaying_eq_some hweak
      cases hr
    · obtain ⟨_, _, _, _, hr, _⟩ := firstSaying_eq_some hnonNull
      cases hr
  obtain ⟨before, _, after, rfl, hr, ha, hbefore⟩ := firstSaying_eq_some hfirst
  cases hr
  refine ⟨before, after, rfl, ha, known_of_clear hseen hbefore, fun b hb => ⟨?_, hbefore b hb⟩⟩
  obtain ⟨front, back, rfl⟩ := List.append_of_mem hb
  rw [List.append_assoc, List.cons_append] at hseen
  exact known_of_clear hseen fun c hc => hbefore c (List.mem_append_left _ hc)

/-! ## The strongest annotation of a list -/

/-- Place in the order from saying nothing to strong nullable. -/
def strength : Option Nullability → Nat
  | none => 0
  | some .nonNull => 1
  | some .weakNullable => 2
  | some .strongNullable => 3

theorem strength_injective {m n : Option Nullability} (h : strength m = strength n) : m = n := by
  rcases m with - | - | - | - <;> rcases n with - | - | - | - <;> simp_all [strength]

/-- The strength of the strongest annotation of a list, each taken by itself. -/
def maxStrength (g : Graph) : List Annotation → Nat
  | [] => 0
  | a :: as => max (strength (g.nullability? a)) (g.maxStrength as)

theorem le_maxStrength_iff {k : Nat} :
    k ≤ g.maxStrength as ↔ k = 0 ∨ ∃ a ∈ as, k ≤ strength (g.nullability? a) := by
  induction as with
  | nil => simp [maxStrength]
  | cons a as ih =>
      have hmax : k ≤ max (strength (g.nullability? a)) (g.maxStrength as) ↔
          k ≤ strength (g.nullability? a) ∨ k ≤ g.maxStrength as := by omega
      rw [maxStrength, hmax, ih]
      simp only [List.mem_cons, exists_eq_or_imp]
      exact or_left_comm

theorem maxStrength_le {k : Nat}
    (h : ∀ b ∈ as, ∀ m, g.nullability? b = some m → strength (some m) ≤ k) :
    g.maxStrength as ≤ k := by
  rcases le_maxStrength_iff.mp (Nat.le_refl (g.maxStrength as)) with hzero | ⟨b, hb, hle⟩
  · rw [hzero]
    exact Nat.zero_le k
  · refine Nat.le_trans hle ?_
    rcases hm : g.nullability? b with - | m
    · exact Nat.zero_le k
    · exact h b hb m hm

/-- An annotation is the strongest one if no other is stronger. -/
theorem maxStrength_eq (ha : a ∈ as) (hn : g.nullability? a = some n)
    (hmax : ∀ b ∈ as, ∀ m, g.nullability? b = some m → strength (some m) ≤ strength (some n)) :
    g.maxStrength as = strength (some n) :=
  Nat.le_antisymm (maxStrength_le hmax)
    (le_maxStrength_iff.mpr (Or.inr ⟨a, ha, hn ▸ Nat.le_refl _⟩))

/-- In a list of known types, the ruling finds what the strongest annotation says. -/
theorem strength_ruling (hknown : ∀ a ∈ as, g.isUnknownType a = false) :
    strength ((g.ruling as).bind Ruling.nullability?) = g.maxStrength as := by
  rw [ruling_of_clear (not_obscured_of_known hknown)]
  -- each tier is looked at only when no annotation says anything stronger
  rcases hstrong : g.firstSaying .strongNullable as with - | r
  · have hnoStrong := firstSaying_eq_none_iff.mp hstrong
    rcases hweak : g.lastSaying .weakNullable as with - | r
    · have hnoWeak := lastSaying_eq_none_iff.mp hweak
      rcases hnonNull : g.firstSaying .nonNull as with - | r
      · have hnoNonNull := firstSaying_eq_none_iff.mp hnonNull
        have hzero : g.maxStrength as ≤ 0 := maxStrength_le fun b hb m hm => by
          cases m with
          | nonNull => exact absurd hm (hnoNonNull b hb)
          | weakNullable => exact absurd hm (hnoWeak b hb)
          | strongNullable => exact absurd hm (hnoStrong b hb)
        exact (Nat.le_zero.mp hzero).symm
      · obtain ⟨before, a, after, rfl, rfl, ha, -⟩ := firstSaying_eq_some hnonNull
        refine (maxStrength_eq List.mem_append_cons_self ha fun b hb m hm => ?_).symm
        cases m with
        | nonNull => exact Nat.le_refl _
        | weakNullable => exact absurd hm (hnoWeak b hb)
        | strongNullable => exact absurd hm (hnoStrong b hb)
    · obtain ⟨a, ha, rfl, hn⟩ := lastSaying_eq_some hweak
      refine (maxStrength_eq ha hn fun b hb m hm => ?_).symm
      cases m with
      | nonNull => decide
      | weakNullable => exact Nat.le_refl _
      | strongNullable => exact absurd hm (hnoStrong b hb)
  · obtain ⟨before, a, after, rfl, rfl, ha, -⟩ := firstSaying_eq_some hstrong
    refine (maxStrength_eq List.mem_append_cons_self ha fun b hb m hm => ?_).symm
    cases m <;> decide

/-- Rulings on two lists of known types find the same when both lists hold annotations
of the same strengths. -/
theorem ruling_nullability_congr (has : ∀ a ∈ as, g.isUnknownType a = false)
    (hbs : ∀ b ∈ bs, g.isUnknownType b = false)
    (h : ∀ k, (∃ b ∈ bs, k ≤ strength (g.nullability? b)) ↔
      ∃ a ∈ as, k ≤ strength (g.nullability? a)) :
    (g.ruling bs).map Ruling.nullability? = (g.ruling as).map Ruling.nullability? := by
  have hle : ∀ k, k ≤ g.maxStrength bs ↔ k ≤ g.maxStrength as := fun k => by
    rw [le_maxStrength_iff, le_maxStrength_iff, h k]
  have hmax : g.maxStrength bs = g.maxStrength as :=
    Nat.le_antisymm ((hle _).mp (Nat.le_refl _)) ((hle _).mpr (Nat.le_refl _))
  have hfound : (g.ruling bs).bind Ruling.nullability? = (g.ruling as).bind Ruling.nullability? :=
    strength_injective (by rw [strength_ruling hbs, strength_ruling has, hmax])
  -- `hfound` does not tell an ambiguous list from a silent one, but neither is ambiguous
  have has' := ruling_ne_ambiguous has
  have hbs' := ruling_ne_ambiguous hbs
  rcases hr : g.ruling as with - | - | ⟨m, a⟩ <;> rcases hr' : g.ruling bs with - | - | ⟨n, b⟩ <;>
    simp_all [Ruling.nullability?]

/-- The order of a list of known types does not matter for what its ruling finds. -/
theorem ruling_nullability_perm (hperm : bs.Perm as)
    (hknown : ∀ a ∈ as, g.isUnknownType a = false) :
    (g.ruling bs).map Ruling.nullability? = (g.ruling as).map Ruling.nullability? := by
  have hknown' : ∀ b ∈ bs, g.isUnknownType b = false :=
    fun b hb => hknown b (hperm.mem_iff.mp hb)
  exact ruling_nullability_congr hknown hknown' fun k =>
    exists_congr fun b => and_congr_left fun _ => hperm.mem_iff

/-- **Policy.** A ruling is ambiguous exactly if the list is obscured. Otherwise the first strong
nullable annotation counts, else the last weak nullable one, else the first non-null one, and
without any of these there is no ruling. Hence, if all types are known, a ruling finds what the
strongest annotation of the list says by itself, and finds the same in any other order. -/
theorem ruling_policy (g : Graph) (as : List Annotation) :
    (g.ruling as = some .ambiguous ↔ g.Obscured as) ∧
      (¬ g.Obscured as →
        g.ruling as =
          (g.firstSaying .strongNullable as <|> g.lastSaying .weakNullable as <|>
            g.firstSaying .nonNull as)) ∧
      ((∀ a ∈ as, g.isUnknownType a = false) →
        strength ((g.ruling as).bind Ruling.nullability?) = g.maxStrength as ∧
          ∀ bs, bs.Perm as →
            (g.ruling bs).map Ruling.nullability? = (g.ruling as).map Ruling.nullability?) := by
  refine ⟨ruling_eq_ambiguous_iff, ruling_of_clear, fun hknown => ⟨?_, fun bs hperm => ?_⟩⟩
  · exact strength_ruling hknown
  · exact ruling_nullability_perm hperm hknown

/-- Annotation types of every kind: strong nullable (1), weak nullable (2), non-null (4),
irrelevant (6) and unknown (7). -/
def assorted : Registry :=
  Registry.run {}
    [ .ensureClass "javax.annotation.CheckForNull", .ensureClass "javax.annotation.Nullable",
      .ensureClass "lombok.NonNull", .ensureClass "java.lang.Deprecated", .unknown "Unknown" ]

/-- A strong nullable annotation counts from behind all others, and keeps the unknown type behind
it from being looked at. Without it, a weak nullable one counts before and behind non-null ones. -/
theorem policy_assorted :
    (¬ assorted.Obscured [⟨4, []⟩, ⟨6, []⟩, ⟨2, []⟩, ⟨1, []⟩, ⟨7, []⟩] ∧
        assorted.ruling [⟨4, []⟩, ⟨6, []⟩, ⟨2, []⟩, ⟨1, []⟩, ⟨7, []⟩] =
          some (.found .strongNullable ⟨1, []⟩)) ∧
      (∀ a ∈ [⟨4, []⟩, ⟨2, []⟩, ⟨6, []⟩], assorted.isUnknownType a = false) ∧
      strength ((assorted.ruling [⟨4, []⟩, ⟨2, []⟩, ⟨6, []⟩]).bind Ruling.nullability?) = 2 ∧
      (assorted.ruling [⟨2, []⟩, ⟨4, []⟩, ⟨6, []⟩]).map Ruling.nullability? =
        (assorted.ruling [⟨4, []⟩, ⟨2, []⟩, ⟨6, []⟩]).map Ruling.nullability? := by
  have hclear : ¬ assorted.Obscured [⟨4, []⟩, ⟨6, []⟩, ⟨2, []⟩, ⟨1, []⟩, ⟨7, []⟩] := by decide
  have hknown : ∀ a ∈ [⟨4, []⟩, ⟨2, []⟩, ⟨6, []⟩], assorted.isUnknownType a = false := by decide
  obtain ⟨-, hcounts, -⟩ :=
    ruling_policy assorted.toGraph [⟨4, []⟩, ⟨6, []⟩, ⟨2, []⟩, ⟨1, []⟩, ⟨7, []⟩]
  obtain ⟨-, -, hstrongest⟩ := ruling_policy assorted.toGraph [⟨4, []⟩, ⟨2, []⟩, ⟨6, []⟩]
  obtain ⟨hstrength, hperm⟩ := hstrongest hknown
  exact ⟨⟨hclear, (hcounts hclear).trans (by cbv)⟩, hknown, hstrength.trans (by decide),
    hperm _ (List.Perm.swap _ _ _)⟩

end Graph

end Nullness
