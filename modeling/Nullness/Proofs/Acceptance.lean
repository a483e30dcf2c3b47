import Mathlib
import Nullness.Loading
import Nullness.Proofs.Ownership

/-!
# Which documents are accepted

The entries of a document give a graph exactly if no identifier repeats, all owners
are there and lead to an end, and enum constants are qualified wherever they occur. Any
error names a fault that the entries have.

Reading fails only at enum constants, so for each kind of entry it is enough to compare
the outcome of its reading with the constants that occur in it.
-/

namespace Nullness

namespace Document

/-! ## Enum constants -/

/-- An enum constant with the names of the arguments around it, outermost first. -/
abbrev Mention := List String × String

/-- The mention, inside one more argument. -/
def Mention.within (name : String) (o : Mention) : Mention :=
  (name :: o.1, o.2)

/-- An enum constant with a dot, before which its class stands. -/
def Qualified (constant : String) : Prop :=
  '.' ∈ constant.toList

mutual

/-- The enum constants in a value, at any depth. -/
def ValueEntry.constants : ValueEntry → List Mention
  | .scalar _ => []
  | .constant c => [([], c)]
  | .nested a => a.constants
  | .list vs => ValueEntry.allConstants vs
termination_by structural v => v

/-- The enum constants in the values of a list. -/
def ValueEntry.allConstants : List ValueEntry → List Mention
  | [] => []
  | v :: vs => v.constants ++ ValueEntry.allConstants vs
termination_by structural vs => vs

/-- The enum constants in the arguments of an annotation. -/
def AnnotationEntry.constants : AnnotationEntry → List Mention
  | ⟨_, _, as⟩ => ArgumentEntry.allConstants as
termination_by structural a => a

/-- The enum constants in the arguments of a list. -/
def ArgumentEntry.allConstants : List ArgumentEntry → List Mention
  | [] => []
  | ⟨name, v⟩ :: as => v.constants.map (Mention.within name) ++ ArgumentEntry.allConstants as
termination_by structural as => as

end

/-- The enum constants in the annotations of a symbol. -/
def SymbolEntry.constants (e : SymbolEntry) : List Mention :=
  e.annotations.flatMap AnnotationEntry.constants

/-! ## The first constant without a dot -/

/-- The first of the enum constants that is not qualified. -/
def FirstUnqualified (ms : List Mention) (m : Mention) : Prop :=
  ∃ before after, ms = before ++ m :: after ∧ (∀ o ∈ before, Qualified o.2) ∧ ¬ Qualified m.2

namespace FirstUnqualified

variable {ms ns : List Mention} {m : Mention}

theorem mem (h : FirstUnqualified ms m) : m ∈ ms := by
  obtain ⟨before, after, rfl, -, -⟩ := h
  exact List.mem_append_right before List.mem_cons_self

theorem not_qualified (h : FirstUnqualified ms m) : ¬ Qualified m.2 := by
  obtain ⟨-, -, -, -, hm⟩ := h
  exact hm

theorem append_right (h : FirstUnqualified ms m) (ns : List Mention) :
    FirstUnqualified (ms ++ ns) m := by
  obtain ⟨before, after, rfl, hbefore, hm⟩ := h
  exact ⟨before, after ++ ns, by simp, hbefore, hm⟩

theorem append_left (hms : ∀ o ∈ ms, Qualified o.2) (h : FirstUnqualified ns m) :
    FirstUnqualified (ms ++ ns) m := by
  obtain ⟨before, after, rfl, hbefore, hm⟩ := h
  exact ⟨ms ++ before, after, by simp, List.forall_mem_append.2 ⟨hms, hbefore⟩, hm⟩

theorem within (name : String) (h : FirstUnqualified ms m) :
    FirstUnqualified (ms.map (Mention.within name)) (m.within name) := by
  obtain ⟨before, after, rfl, hbefore, hm⟩ := h
  exact ⟨before.map (Mention.within name), after.map (Mention.within name), by simp,
    List.forall_mem_map.2 hbefore, hm⟩

end FirstUnqualified

/-! ## Acceptable entries and faults -/

/-- Entries with which nothing is wrong. -/
structure Acceptable (es : List SymbolEntry) : Prop where
  distinct : (es.map (·.id)).Nodup
  owners : ∀ e ∈ es, ∀ w, e.owner = some w → ∃ o ∈ es, o.id = w
  rooted : ∀ e ∈ es, Rooted es e
  qualified : ∀ e ∈ es, ∀ m ∈ e.constants, Qualified m.2

/-- The first entry that repeats the identifier of an earlier one repeats `id`. -/
def FirstRepeated (es : List SymbolEntry) (id : String) : Prop :=
  ∃ before e after, es = before ++ e :: after ∧ e.id = id ∧
    id ∈ before.map (·.id) ∧ (before.map (·.id)).Nodup

theorem FirstRepeated.not_nodup {es : List SymbolEntry} {id : String}
    (h : FirstRepeated es id) : ¬ (es.map (·.id)).Nodup := by
  obtain ⟨before, e, after, rfl, rfl, hmem, -⟩ := h
  intro hd
  rw [List.map_append, List.map_cons] at hd
  exact (List.nodup_append.1 hd).2.2 _ hmem _ List.mem_cons_self rfl

end Document

open Document

/-- The entries have the fault that the error names. The text of a document is not a
matter of its entries. -/
def LoadError.Holds (es : List SymbolEntry) : LoadError → Prop
  | unreadable _ => False
  | duplicateId id => FirstRepeated es id
  | misowned e => e.Holds es
  | unqualified symbol arguments constant =>
    ∃ e ∈ es, e.id = symbol ∧ (arguments, constant) ∈ e.constants ∧ ¬ Qualified constant

theorem LoadError.Holds.not_acceptable {es : List SymbolEntry} {err : LoadError}
    (h : err.Holds es) : ¬ Acceptable es := by
  intro ha
  cases err with
  | unreadable d => exact h
  | duplicateId id => exact h.not_nodup ha.distinct
  | misowned e =>
    obtain ⟨e, he, hr⟩ := OwnerError.Holds.not_rooted ha.distinct h
    exact hr (ha.rooted e he)
  | unqualified symbol arguments constant =>
    obtain ⟨e, he, -, hmem, hq⟩ := h
    exact hq (ha.qualified e he _ hmem)

/-! ## Repeated identifiers -/

theorem repeatedId?_eq_none_iff {es : List SymbolEntry} {seen : List String} :
    repeatedId? seen es = none ↔ (es.map (·.id)).Nodup ∧ ∀ e ∈ es, e.id ∉ seen := by
  induction es generalizing seen with
  | nil => simp [repeatedId?]
  | cons e es ih =>
    rw [repeatedId?]
    split
    · next hseen => simp_all
    · next hseen =>
      rw [ih]
      simp only [List.contains_eq_mem, decide_eq_true_eq] at hseen
      simp only [List.mem_cons, not_or, List.map_cons, List.nodup_cons, List.mem_map,
        forall_eq_or_imp, hseen, not_false_eq_true, true_and, not_exists, not_and]
      constructor
      · rintro ⟨hd, hnew⟩
        exact ⟨⟨fun e' he' => (hnew e' he').1, hd⟩, fun e' he' => (hnew e' he').2⟩
      · rintro ⟨⟨hne, hd⟩, hnew⟩
        exact ⟨hd, fun e' he' => ⟨hne e' he', hnew e' he'⟩⟩

theorem exists_split_of_repeatedId? {es : List SymbolEntry} {seen : List String} {id : String}
    (h : repeatedId? seen es = some id) :
    ∃ before e after, es = before ++ e :: after ∧ e.id = id ∧
      (id ∈ seen ∨ id ∈ before.map (·.id)) ∧ repeatedId? seen before = none := by
  induction es generalizing seen with
  | nil => cases h
  | cons e es ih =>
    rw [repeatedId?] at h
    split at h
    · next hseen =>
      cases h
      exact ⟨[], e, es, rfl, rfl, .inl (by simpa using hseen), rfl⟩
    · next hseen =>
      obtain ⟨before, e', after, rfl, rfl, hmem, hnone⟩ := ih h
      refine ⟨e :: before, e', after, rfl, rfl, ?_, ?_⟩
      · rw [List.mem_cons] at hmem
        rw [List.map_cons, List.mem_cons]
        tauto
      · rw [repeatedId?, if_neg hseen, hnone]

theorem firstRepeated_of_repeatedId? {es : List SymbolEntry} {id : String}
    (h : repeatedId? [] es = some id) : FirstRepeated es id := by
  obtain ⟨before, e, after, hes, hid, hmem, hnone⟩ := exists_split_of_repeatedId? h
  exact ⟨before, e, after, hes, hid, hmem.resolve_left List.not_mem_nil,
    (repeatedId?_eq_none_iff.1 hnone).1⟩

namespace Registry

/-! ## Reading annotations -/

theorem splitLastDot_eq_none_iff {s : String} : splitLastDot s = none ↔ ¬ Qualified s := by
  have hall : s.toList.reverse.dropWhile (· ≠ '.') = [] ↔ ¬ Qualified s := by
    rw [List.dropWhile_eq_nil_iff]
    simp only [List.mem_reverse, decide_eq_true_eq]
    constructor
    · exact fun h hdot => h '.' hdot rfl
    · rintro h c hc rfl
      exact h hc
  rw [← hall]
  simp only [splitLastDot]
  split <;> simp_all

/-- A reading of something that mentions these constants succeeds if all of them are
qualified, and otherwise fails at the first one that is not. -/
def Checks {α : Type} (ms : List Mention) : Except Unqualified α → Prop
  | .ok _ => ∀ m ∈ ms, Qualified m.2
  | .error u => FirstUnqualified ms (u.arguments, u.constant)

namespace Checks

variable {α β : Type} {ms ns : List Mention} {u : Unqualified}

theorem passed {x : Except Unqualified α} {a : α} (h : Checks ms x) (hx : x = .ok a) :
    ∀ m ∈ ms, Qualified m.2 := by
  subst hx
  exact h

theorem failed {x : Except Unqualified α} (h : Checks ms x) (hx : x = .error u) :
    FirstUnqualified ms (u.arguments, u.constant) := by
  subst hx
  exact h

theorem left {x : Except Unqualified α} (h : Checks ms x) (hx : x = .error u) :
    Checks (ms ++ ns) (.error u : Except Unqualified β) :=
  (h.failed hx).append_right ns

theorem right {x : Except Unqualified α} (hms : ∀ m ∈ ms, Qualified m.2) (h : Checks ns x)
    (hx : x = .error u) : Checks (ms ++ ns) (.error u : Except Unqualified β) :=
  (h.failed hx).append_left hms

theorem within {x : Except Unqualified α} (name : String) (h : Checks ms x) :
    Checks (ms.map (Mention.within name)) (x.mapError (Unqualified.within name)) := by
  cases x with
  | ok a => exact List.forall_mem_map.2 h
  | error u => exact FirstUnqualified.within name h

end Checks

mutual

theorem value_checks (r : Registry) : ∀ v : ValueEntry, Checks v.constants (r.value v)
  | .scalar _ => fun _ h => nomatch h
  | .constant c => by
    rw [value, ValueEntry.constants]
    split
    · next h => exact ⟨[], [], rfl, nofun, splitLastDot_eq_none_iff.1 h⟩
    · next h =>
      have hq : Qualified c := by
        by_contra hq
        rw [splitLastDot_eq_none_iff.2 hq] at h
        cases h
      exact List.forall_mem_singleton.2 hq
  | .nested a => by
    rw [value, ValueEntry.constants]
    split
    · next h => exact (annotation_checks r a).failed h
    · next h => exact (annotation_checks r a).passed h
  | .list vs => by
    rw [value, ValueEntry.constants]
    split
    · next h => exact (values_checks r vs).failed h
    · next h => exact (values_checks r vs).passed h

theorem values_checks (r : Registry) :
    ∀ vs : List ValueEntry, Checks (ValueEntry.allConstants vs) (r.values vs)
  | [] => fun _ h => nomatch h
  | v :: vs => by
    rw [values, ValueEntry.allConstants]
    split
    · next h => exact (value_checks r v).left h
    · next r' _ h =>
      split
      · next h' => exact (values_checks r' vs).right ((value_checks r v).passed h) h'
      · next h' =>
        exact List.forall_mem_append.2
          ⟨(value_checks r v).passed h, (values_checks r' vs).passed h'⟩

theorem annotation_checks (r : Registry) :
    ∀ a : AnnotationEntry, Checks a.constants (r.annotation a)
  | ⟨name, isUnresolved, as⟩ => by
    unfold annotation
    rw [AnnotationEntry.constants]
    split
    next r' type _ =>
    split
    · next h => exact (arguments_checks r' as).failed h
    · next h => exact (arguments_checks r' as).passed h

theorem arguments_checks (r : Registry) :
    ∀ as : List ArgumentEntry, Checks (ArgumentEntry.allConstants as) (r.arguments as)
  | [] => fun _ h => nomatch h
  | ⟨name, v⟩ :: as => by
    have hv := (value_checks r v).within name
    rw [arguments, ArgumentEntry.allConstants]
    split
    · next h => exact hv.left (by rw [h]; rfl)
    · next r' _ h =>
      have hpassed := hv.passed (by rw [h]; rfl)
      split
      · next h' => exact (arguments_checks r' as).right hpassed h'
      · next h' => exact List.forall_mem_append.2 ⟨hpassed, (arguments_checks r' as).passed h'⟩

end

theorem annotateAll_checks (r : Registry) (id : SymbolId) (as : List AnnotationEntry) :
    Checks (as.flatMap AnnotationEntry.constants) (r.annotateAll id as) := by
  induction as generalizing r with
  | nil => exact fun _ h => nomatch h
  | cons a as ih =>
    rw [annotateAll, List.flatMap_cons]
    split
    · next h => exact (annotation_checks r a).left h
    · next r' a' h =>
      have hpassed := (annotation_checks r a).passed h
      cases hrest : (r'.annotate id a').annotateAll id as with
      | error u => exact (ih _).right hpassed hrest
      | ok r'' => exact List.forall_mem_append.2 ⟨hpassed, (ih _).passed hrest⟩

/-! ## Declarations and descriptions -/

theorem declared_declareAll_of_done {r : Registry} {done : Declared} {es : List SymbolEntry}
    {id : String} (h : (done.lookup id).isSome) :
    ((r.declareAll done es).2.lookup id).isSome := by
  induction es generalizing r done with
  | nil => exact h
  | cons e es ih =>
    rw [declareAll]
    apply ih
    simp only [List.lookup_cons]
    split
    · rfl
    · exact h

/-- Every entry that is declared is found afterwards. -/
theorem declared_declareAll {r : Registry} {done : Declared} {es : List SymbolEntry} :
    ∀ e ∈ es, ((r.declareAll done es).2.lookup e.id).isSome := by
  induction es generalizing r done with
  | nil => simp
  | cons e es ih =>
    rw [declareAll]
    refine List.forall_mem_cons.2 ⟨?_, ih⟩
    apply declared_declareAll_of_done
    simp

theorem qualified_of_describeAll {r r' : Registry} {done : Declared} {es : List SymbolEntry}
    (hdone : ∀ e ∈ es, (done.lookup e.id).isSome) (h : r.describeAll done es = .ok r') :
    ∀ e ∈ es, ∀ m ∈ e.constants, Qualified m.2 := by
  induction es generalizing r with
  | nil => simp
  | cons e es ih =>
    obtain ⟨hfound, hdone⟩ := List.forall_mem_cons.1 hdone
    obtain ⟨id, hid⟩ := Option.isSome_iff_exists.1 hfound
    simp only [describeAll, hid] at h
    split at h
    · cases h
    · next hread =>
      exact List.forall_mem_cons.2 ⟨(annotateAll_checks _ id _).passed hread, ih hdone h⟩

/-- Attaching fails at the first unqualified constant of the first entry that has one. -/
theorem unqualified_of_describeAll {r : Registry} {done : Declared} {es : List SymbolEntry}
    {err : LoadError} (hdone : ∀ e ∈ es, (done.lookup e.id).isSome)
    (h : r.describeAll done es = .error err) :
    ∃ before e after m, es = before ++ e :: after ∧
      (∀ e' ∈ before, ∀ o ∈ e'.constants, Qualified o.2) ∧ FirstUnqualified e.constants m ∧
      err = .unqualified e.id m.1 m.2 := by
  induction es generalizing r with
  | nil => cases h
  | cons e es ih =>
    obtain ⟨hfound, hdone⟩ := List.forall_mem_cons.1 hdone
    obtain ⟨id, hid⟩ := Option.isSome_iff_exists.1 hfound
    simp only [describeAll, hid] at h
    split at h
    · next u hread =>
      cases h
      exact ⟨[], e, es, _, rfl, nofun, (annotateAll_checks _ id _).failed hread, rfl⟩
    · next hread =>
      have hpassed := (annotateAll_checks _ id _).passed hread
      obtain ⟨before, e', after, m, rfl, hbefore, hm, rfl⟩ := ih hdone h
      exact ⟨e :: before, e', after, m, rfl, List.forall_mem_cons.2 ⟨hpassed, hbefore⟩, hm, rfl⟩

end Registry

/-! ## From entries to a graph -/

namespace Graph

variable {es : List SymbolEntry}

/-- Loading stops at a repeated identifier or else at a fault of the owners. Otherwise all
entries are declared, and it comes down to reading what they attach. -/
theorem ofEntries_cases (es : List SymbolEntry) :
    (∃ id, repeatedId? [] es = some id ∧ Graph.ofEntries es = .error (.duplicateId id)) ∨
    (∃ err, order es = .error err ∧ Graph.ofEntries es = .error (.misowned err)) ∨
    (repeatedId? [] es = none ∧ (∃ positions, order es = .ok positions) ∧
      ∃ (r : Registry) (done : Registry.Declared), (∀ e ∈ es, (done.lookup e.id).isSome) ∧
        Graph.ofEntries es = (r.describeAll done es).map (·.toGraph)) := by
  rw [ofEntries]
  cases hrepeated : repeatedId? [] es with
  | some id => exact Or.inl ⟨id, rfl, rfl⟩
  | none =>
    right
    cases horder : order es with
    | error err => exact Or.inl ⟨err, rfl, rfl⟩
    | ok positions =>
      have hdeclared : ∀ e ∈ es, e ∈ positions.filterMap (es[·]?) :=
        fun _ => mem_filterMap_of_order horder
      exact Or.inr ⟨rfl, ⟨positions, rfl⟩, _, _,
        fun e he => Registry.declared_declareAll e (hdeclared e he), rfl⟩

theorem acceptable_of_ofEntries {g : Graph} (h : Graph.ofEntries es = .ok g) :
    Acceptable es := by
  rcases ofEntries_cases es with ⟨id, -, hload⟩ | ⟨err, -, hload⟩ |
    ⟨hdistinct, ⟨positions, horder⟩, r, done, hdone, hload⟩
  · rw [hload] at h
    cases h
  · rw [hload] at h
    cases h
  · have hrooted := rooted_of_order horder
    cases hdescribed : r.describeAll done es with
    | error err =>
      rw [hload, hdescribed] at h
      cases h
    | ok r' =>
      exact {
        distinct := (repeatedId?_eq_none_iff.1 hdistinct).1
        owners := fun e he w hw => (hrooted e he).exists_owner hw
        rooted := hrooted
        qualified := Registry.qualified_of_describeAll hdone hdescribed }

theorem holds_of_ofEntries {err : LoadError} (h : Graph.ofEntries es = .error err) :
    err.Holds es := by
  rcases ofEntries_cases es with ⟨id, hrepeated, hload⟩ | ⟨err', horder, hload⟩ |
    ⟨-, -, r, done, hdone, hload⟩
  · rw [hload] at h
    cases h
    exact firstRepeated_of_repeatedId? hrepeated
  · rw [hload] at h
    cases h
    exact holds_of_order horder
  · cases hdescribed : r.describeAll done es with
    | ok r' =>
      rw [hload, hdescribed] at h
      cases h
    | error err' =>
      rw [hload, hdescribed] at h
      cases h
      obtain ⟨before, e, after, m, rfl, -, hm, rfl⟩ :=
        Registry.unqualified_of_describeAll hdone hdescribed
      exact ⟨e, List.mem_append_right before List.mem_cons_self, rfl, hm.mem, hm.not_qualified⟩

/-- Entries give a graph exactly if they are acceptable. An error that they give instead
names a fault of theirs: the first identifier to be repeated, an entry and an owner that
is no entry, an entry that comes to own itself, or an enum constant without a dot where
it occurs. A climb that goes on at the owner gives what the climb from the owner gives, and
no climb goes on for ever, not even along a cycle. -/
theorem ofEntries_truthful (es : List SymbolEntry) :
    ((∃ g, Graph.ofEntries es = .ok g) ↔ Acceptable es) ∧
      (∀ err, Graph.ofEntries es = .error err → err.Holds es) ∧
      ∀ taken, WellFounded (Calls es taken) ∧
        ∀ below i hi below' o ho, Calls es taken (below', o) (below, i) →
          climb es taken below i hi = climb es taken below' o ho := by
  refine ⟨⟨fun ⟨g, h⟩ => acceptable_of_ofEntries h, fun ha => ?_⟩, fun err => holds_of_ofEntries,
    fun taken => ⟨calls_wellFounded es taken, fun _ _ _ _ _ _ => climb_of_calls⟩⟩
  cases h : Graph.ofEntries es with
  | ok g => exact ⟨g, rfl⟩
  | error err => exact absurd ha (holds_of_ofEntries h).not_acceptable

/-- A field and a method of one class, both before it, and the class before its package.
The field is annotated with an enum constant inside a list. -/
def siblings : List SymbolEntry :=
  [ { id := "f", kind := .var, name := "f", owner := some "C",
      annotations := [⟨"p.A", false, [⟨"when", .list [.constant "p.When.MAYBE"]⟩]⟩] },
    { id := "m", kind := .method, name := "m", owner := some "C" },
    { id := "C", kind := .cls, name := "C", owner := some "p" },
    { id := "p", kind := .pkg, name := "p" } ]

/-- Two classes that own each other, and before them a third that one of them owns. -/
def enteredCycle : List SymbolEntry :=
  [ { id := "c", kind := .cls, name := "c", owner := some "a" },
    { id := "a", kind := .cls, name := "a", owner := some "b" },
    { id := "b", kind := .cls, name := "b", owner := some "a" } ]

/-- The error is about the first class on the cycle and not about the one that leads to it. -/
theorem ofEntries_enteredCycle :
    Acceptable siblings ∧
      Graph.ofEntries enteredCycle = .error (.misowned (.cycle "a")) ∧
      (LoadError.misowned (.cycle "a")).Holds enteredCycle := by
  have hsiblings : ∃ g, Graph.ofEntries siblings = .ok g := by
    have h : (Graph.ofEntries siblings).toOption.isSome = true := by cbv
    cases hload : Graph.ofEntries siblings with
    | ok g => exact ⟨g, rfl⟩
    | error err =>
      rw [hload] at h
      cases h
  have hcycle : Graph.ofEntries enteredCycle = .error (.misowned (.cycle "a")) := by cbv
  exact ⟨(ofEntries_truthful siblings).1.1 hsiblings, hcycle,
    (ofEntries_truthful enteredCycle).2.1 _ hcycle⟩

end Graph

end Nullness
