import Nullness.Proofs.Acceptance

/-!
# Where an unqualified constant stands

Enum constants without a dot are the only fault that is found while annotations are read. Of all
such constants in a document the first is reported: entries are read in their order, annotations
and arguments in theirs, and lists and nested annotations in depth. The messages lead to it, from
the entry through the arguments around the constant, outermost first.

- `Document.FirstUnqualifiedIn`: the first constant without a dot, in the order of a document.
- `Graph.ofEntries_unqualified`: what is reported of it.
-/

namespace Nullness

namespace Document

/-- The first constant without a dot in these entries is `m`, which stands in the annotations of the
symbol with the identifier `symbol`. -/
def FirstUnqualifiedIn (es : List SymbolEntry) (symbol : String) (m : Mention) : Prop :=
  ∃ before e after, es = before ++ e :: after ∧
    (∀ e' ∈ before, ∀ o ∈ e'.constants, Qualified o.2) ∧ e.id = symbol ∧
    FirstUnqualified e.constants m

/-- What comes first is told by what stands before it. -/
theorem eq_of_first {α : Type} {p : α → Prop} {before before' after after' : List α} {a a' : α}
    (h : before ++ a :: after = before' ++ a' :: after') (hbefore : ∀ b ∈ before, p b)
    (ha : ¬ p a) (hbefore' : ∀ b ∈ before', p b) (ha' : ¬ p a') : a = a' := by
  induction before generalizing before' with
  | nil =>
    cases before' with
    | nil => exact (List.cons.inj h).1
    | cons b before' =>
      obtain ⟨rfl, -⟩ := List.cons.inj h
      exact absurd (hbefore' a List.mem_cons_self) ha
  | cons b before ih =>
    obtain ⟨hb, hbefore⟩ := List.forall_mem_cons.1 hbefore
    cases before' with
    | nil =>
      obtain ⟨rfl, -⟩ := List.cons.inj h
      exact absurd hb ha'
    | cons b' before' =>
      exact ih (List.cons.inj h).2 hbefore (List.forall_mem_cons.1 hbefore').2

theorem FirstUnqualified.unique {ms : List Mention} {m m' : Mention} (h : FirstUnqualified ms m)
    (h' : FirstUnqualified ms m') : m = m' := by
  obtain ⟨before, after, rfl, hbefore, hm⟩ := h
  obtain ⟨before', after', heq, hbefore', hm'⟩ := h'
  exact eq_of_first (p := fun o => Qualified o.2) heq hbefore hm hbefore' hm'

theorem FirstUnqualifiedIn.unique {es : List SymbolEntry} {symbol symbol' : String}
    {m m' : Mention} (h : FirstUnqualifiedIn es symbol m) (h' : FirstUnqualifiedIn es symbol' m') :
    symbol = symbol' ∧ m = m' := by
  obtain ⟨before, e, after, rfl, hbefore, rfl, hm⟩ := h
  obtain ⟨before', e', after', heq, hbefore', rfl, hm'⟩ := h'
  have not_all {e : SymbolEntry} {m : Mention} (hm : FirstUnqualified e.constants m) :
      ¬ ∀ o ∈ e.constants, Qualified o.2 := fun hall => hm.not_qualified (hall m hm.mem)
  obtain rfl : e = e' := eq_of_first heq hbefore (not_all hm) hbefore' (not_all hm')
  exact ⟨rfl, hm.unique hm'⟩

end Document

namespace Graph

open Document Relation

variable {es : List SymbolEntry}

/-- Entries whose identifiers and owners are in order are all declared, and what is left is to read
their annotations. -/
theorem ofEntries_of_owners (hdistinct : (es.map (·.id)).Nodup)
    (howners : ∀ e ∈ es, ∀ w, e.owner = some w → ∃ o ∈ es, o.id = w)
    (hacyclic : ∀ e ∈ es, ¬ TransGen (OwnedBy es) e e) :
    ∃ (r : Registry) (done : Registry.Declared), (∀ e ∈ es, (done.lookup e.id).isSome) ∧
      Graph.ofEntries es = (r.describeAll done es).map (·.toGraph) := by
  rcases ofEntries_cases es with ⟨id, hrepeated, -⟩ | ⟨err, horder, -⟩ |
    ⟨-, -, r, done, hdone, hload⟩
  · exact absurd hdistinct (firstRepeated_of_repeatedId? hrepeated).not_nodup
  · cases err with
    | missing id owner =>
      obtain ⟨e, he, -, hw, hno⟩ := holds_of_order horder
      obtain ⟨o, ho, hid⟩ := howners e he owner hw
      exact absurd hid (hno o ho)
    | cycle id =>
      obtain ⟨e, he, -, hcycle⟩ := holds_of_order horder
      exact absurd hcycle (hacyclic e he)
  · exact ⟨r, done, hdone, hload⟩

/-- **Unqualified constants.** Where identifiers are distinct and owners are there and not their
own owners, loading fails at the first constant without a dot if there is any. The messages name
the symbol, then each argument around the constant from the outside in, then the constant. -/
theorem ofEntries_unqualified (hdistinct : (es.map (·.id)).Nodup)
    (howners : ∀ e ∈ es, ∀ w, e.owner = some w → ∃ o ∈ es, o.id = w)
    (hacyclic : ∀ e ∈ es, ¬ TransGen (OwnedBy es) e e)
    (hunqualified : ∃ e ∈ es, ∃ m ∈ e.constants, ¬ Qualified m.2) :
    (∃ symbol m, FirstUnqualifiedIn es symbol m) ∧
      ∀ symbol arguments constant, FirstUnqualifiedIn es symbol (arguments, constant) →
        Graph.ofEntries es = .error (.unqualified symbol arguments constant) ∧
          (LoadError.unqualified symbol arguments constant).messages =
            [s!"annotation on symbol `{symbol}`"] ++
              arguments.map (fun name => s!"argument `{name}`") ++
              [s!"enum constant `{constant}` must be qualified with its type"] := by
  obtain ⟨r, done, hdone, hload⟩ := ofEntries_of_owners hdistinct howners hacyclic
  cases hdescribed : r.describeAll done es with
  | ok r' =>
    obtain ⟨e, he, m, hm, hq⟩ := hunqualified
    exact absurd (Registry.qualified_of_describeAll hdone hdescribed e he m hm) hq
  | error err =>
    obtain ⟨before, e, after, m, hes, hbefore, hm, rfl⟩ :=
      Registry.unqualified_of_describeAll hdone hdescribed
    have hfirst : FirstUnqualifiedIn es e.id m := ⟨before, e, after, hes, hbefore, rfl, hm⟩
    refine ⟨⟨e.id, m, hfirst⟩, fun symbol arguments constant h => ?_⟩
    obtain ⟨rfl, rfl⟩ := h.unique hfirst
    rw [hload, hdescribed]
    exact ⟨rfl, rfl⟩

/-- A package and a class. The constants of the package are qualified. Of the class, the first
annotation has two that are not: within a list within an argument of an annotation that is nested
in a list, and in the argument behind that. The second annotation has one more. -/
def strayConstants : List SymbolEntry :=
  [ { id := "p", kind := .pkg, name := "p",
      annotations := [⟨"q.A", false, [⟨"flag", .constant "q.B.X"⟩]⟩] },
    { id := "c", kind := .cls, name := "C", owner := some "p",
      annotations :=
        [ ⟨"q.A", false,
            [ ⟨"outer", .list
                [ .constant "q.B.Y",
                  .nested ⟨"q.D", false,
                    [⟨"inner", .list [.list [.constant "MAYBE"]]⟩,
                      ⟨"other", .constant "NEVER"⟩]⟩ ]⟩ ]⟩,
          ⟨"q.E", false, [⟨"last", .constant ""⟩]⟩ ] } ]

theorem firstUnqualifiedIn_strayConstants :
    FirstUnqualifiedIn strayConstants "c" (["outer", "inner"], "MAYBE") := by
  refine ⟨[_], _, [], rfl, ?_, rfl, [(["outer"], "q.B.Y")],
    [(["outer", "other"], "NEVER"), (["last"], "")], rfl, ?_, ?_⟩
  · simp [SymbolEntry.constants, AnnotationEntry.constants, ArgumentEntry.allConstants,
      ValueEntry.constants, Mention.within, Qualified]
  · simp [Qualified]
  · simp [Qualified]

/-- The messages lead to the first of the three constants. -/
theorem ofEntries_strayConstants :
    FirstUnqualifiedIn strayConstants "c" (["outer", "inner"], "MAYBE") ∧
      Graph.ofEntries strayConstants = .error (.unqualified "c" ["outer", "inner"] "MAYBE") ∧
        (LoadError.unqualified "c" ["outer", "inner"] "MAYBE").messages =
          [ "annotation on symbol `c`", "argument `outer`", "argument `inner`",
            "enum constant `MAYBE` must be qualified with its type" ] := by
  have hfirst := firstUnqualifiedIn_strayConstants
  have hdistinct : (strayConstants.map (·.id)).Nodup := by decide
  have howners : ∀ e ∈ strayConstants, ∀ w, e.owner = some w → ∃ o ∈ strayConstants, o.id = w := by
    simp [strayConstants]
  have hrooted : ∀ e ∈ strayConstants, Rooted strayConstants e := by
    have hpackage : Rooted strayConstants _ := .root (e := strayConstants[0]) rfl
    refine List.forall_mem_cons.2 ⟨hpackage, List.forall_mem_singleton.2 ?_⟩
    exact .owned ⟨List.mem_cons_self, rfl⟩ hpackage
  have hunqualified : ∃ e ∈ strayConstants, ∃ m ∈ e.constants, ¬ Qualified m.2 := by
    obtain ⟨before, e, after, hes, -, -, hm⟩ := hfirst
    exact ⟨e, hes ▸ List.mem_append_right before List.mem_cons_self, _, hm.mem, hm.not_qualified⟩
  exact ⟨hfirst, (ofEntries_unqualified hdistinct howners
    (fun e he => (hrooted e he).not_cyclic hdistinct) hunqualified).2 _ _ _ hfirst⟩

end Graph

end Nullness
