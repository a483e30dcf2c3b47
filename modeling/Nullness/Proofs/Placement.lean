import Nullness.Proofs.Acceptance
import Nullness.Proofs.Lineage
import Nullness.Proofs.Supply

/-!
# Where entries are found in a graph

Every entry has a symbol. The symbols of entries come first in the graph and are numbered
in the order of declaration. Only a known package without an owner may find its symbol among
those that are there already, where it joins a package of the same name.

- `Graph.Declares`: a symbol is what an entry says.
- `Graph.Numbered`: how the symbols of entries are numbered.
- `Registry.Placed`: what holds while entries are declared, one after the other.
- `Registry.exists_placed`: so it is when all of them are declared.
-/

namespace Nullness

namespace Document

/-- A known package without an owner. Such packages of one name are one symbol. -/
def SymbolEntry.Joinable (e : SymbolEntry) : Prop :=
  e.kind = .pkg ∧ e.owner = none ∧ e.isUnknown = false

instance (e : SymbolEntry) : Decidable e.Joinable :=
  inferInstanceAs (Decidable (_ ∧ _ ∧ _))

end Document

open Document

/-! ## Symbols of entries -/

/-- The symbol of an entry is what the entry says. Symbols are told by the identifiers of
their entries. A package that may join another does not have its symbol for itself. -/
structure Graph.Declares (g : Graph) (home : String → SymbolId) (e : SymbolEntry) : Prop where
  lt : home e.id < g.size
  kind : (g.symbol (home e.id)).kind = e.kind
  isUnknown : (g.symbol (home e.id)).isUnknown = e.isUnknown
  isSynthetic : (g.symbol (home e.id)).isSynthetic = false
  qualifiedName : (g.symbol (home e.id)).qualifiedName =
    e.owner.elim e.name fun w => (g.symbol (home w)).qualifiedName ++ "." ++ e.name
  own : ¬ e.Joinable → (g.symbol (home e.id)).name = e.name ∧
    (g.symbol (home e.id)).isLocal = e.isLocal ∧
    (g.symbol (home e.id)).owner = e.owner.map home

/-- The first of some entries whose symbol is known under a name. -/
def Graph.firstNamed? (g : Graph) (home : String → SymbolId) (es : List SymbolEntry)
    (q : String) : Option SymbolEntry :=
  es.find? fun e => (g.symbol (home e.id)).isKnownAs q

/-- The symbols of entries are numbered in the order of the entries. A package that may join
another does so if the first symbol of its name is a package, and then it adds no symbol. -/
inductive Graph.Numbered (g : Graph) (home : String → SymbolId) : List SymbolEntry → Nat → Prop
  | nil : Numbered g home [] 0
  | added {placed : List SymbolEntry} {n : Nat} {e : SymbolEntry} : Numbered g home placed n →
      home e.id = n →
      (e.Joinable → ∀ o, g.firstNamed? home placed e.name = some o → o.kind ≠ .pkg) →
      Numbered g home (placed ++ [e]) (n + 1)
  | joined {placed : List SymbolEntry} {n : Nat} {e o : SymbolEntry} : Numbered g home placed n →
      e.Joinable → g.firstNamed? home placed e.name = some o → o.kind = .pkg →
      home e.id = home o.id → Numbered g home (placed ++ [e]) n

section Numbered
variable {g g' : Graph} {home : String → SymbolId} {placed : List SymbolEntry} {n : Nat}
variable {e o : SymbolEntry}

theorem Graph.Declares.mono (hg : g.Sound) (h : g.Declares home e) (hext : g.Extends g') :
    g'.Declares home e := by
  have hbare := hext.bare (home e.id) h.lt
  have hsynthetic : (g'.symbol (home e.id)).isSynthetic = (g.symbol (home e.id)).isSynthetic :=
    congrArg (·.isSynthetic) hbare
  have hlocal : (g'.symbol (home e.id)).isLocal = (g.symbol (home e.id)).isLocal :=
    congrArg (·.isLocal) hbare
  refine ⟨Nat.lt_of_lt_of_le h.lt hext.size_le, ?_, ?_, ?_, ?_, fun hj => ?_⟩
  · rw [Symbol.kind_of_bare hbare]
    exact h.kind
  · rw [Symbol.isUnknown_of_bare hbare]
    exact h.isUnknown
  · rw [hsynthetic]
    exact h.isSynthetic
  · rw [Symbol.qualifiedName_of_bare hbare, h.qualifiedName]
    cases hw : e.owner with
    | none => rfl
    | some w =>
      -- an entry with an owner joins no other, so its symbol has an owner that stands before it
      have hj : ¬ e.Joinable := fun hj => by simp [hj.2.1] at hw
      have howner : (g.symbol (home e.id)).owner = some (home w) := by
        rw [(h.own hj).2.2, hw]
        rfl
      have hlt : home w < g.size := Nat.lt_trans (hg.owner_lt _ _ howner) h.lt
      simp only [Option.elim_some]
      rw [Symbol.qualifiedName_of_bare (hext.bare _ hlt)]
  · rw [Symbol.name_of_bare hbare, hlocal, Symbol.owner_of_bare hbare]
    exact h.own hj

theorem Graph.mem_of_firstNamed? {q : String} (h : g.firstNamed? home placed q = some e) :
    e ∈ placed :=
  List.mem_of_find?_eq_some h

namespace Graph.Numbered

theorem home_lt (h : g.Numbered home placed n) : ∀ e ∈ placed, home e.id < n := by
  induction h with
  | nil => exact nofun
  | added _ hid _ ih =>
    rw [List.forall_mem_append, List.forall_mem_singleton, hid]
    exact ⟨fun o ho => Nat.lt_succ_of_lt (ih o ho), Nat.lt_succ_self _⟩
  | joined _ _ hfirst _ hid ih =>
    rw [List.forall_mem_append, List.forall_mem_singleton, hid]
    exact ⟨ih, ih _ (mem_of_firstNamed? hfirst)⟩

theorem exists_home (h : g.Numbered home placed n) {i : SymbolId} (hi : i < n) :
    ∃ e ∈ placed, home e.id = i := by
  induction h with
  | nil => cases hi
  | @added placed n e _ hid _ ih =>
    rcases Nat.lt_or_eq_of_le (Nat.le_of_lt_succ hi) with hlt | rfl
    · obtain ⟨o, ho, hoi⟩ := ih hlt
      exact ⟨o, List.mem_append_left _ ho, hoi⟩
    · exact ⟨e, List.mem_append_right _ (List.mem_singleton_self e), hid⟩
  | joined _ _ _ _ _ ih =>
    obtain ⟨o, ho, hoi⟩ := ih hi
    exact ⟨o, List.mem_append_left _ ho, hoi⟩

/-- The symbols of entries are those below a position. -/
theorem lt_iff (h : g.Numbered home placed n) {i : SymbolId} :
    i < n ↔ ∃ e ∈ placed, home e.id = i :=
  ⟨h.exists_home, fun ⟨_, he, hi⟩ => hi ▸ h.home_lt _ he⟩

/-- The first entry of a name has the first symbol of that name. -/
theorem map_firstNamed? (h : g.Numbered home placed n) (q : String) :
    (g.firstNamed? home placed q).map (fun e => home e.id) =
      (List.range n).find? fun i => (g.symbol i).isKnownAs q := by
  induction h with
  | nil => rfl
  | added _ hid _ ih =>
    rw [firstNamed?] at ih
    rw [firstNamed?, List.find?_append, List.range_succ, List.find?_append, ← ih,
      List.find?_singleton, List.find?_singleton, hid]
    cases List.find? _ _ <;> split <;> simp [hid]
  | @joined placed n e o _ _ hfirst _ hid ih =>
    have hmem := mem_of_firstNamed? hfirst
    rw [firstNamed?] at ih
    rw [firstNamed?, List.find?_append, ← ih]
    cases hnone : placed.find? fun e => (g.symbol (home e.id)).isKnownAs q with
    | some o' => rfl
    | none =>
      -- the symbol that is joined was passed over already
      have ho := List.find?_eq_none.mp hnone o hmem
      simp [hid, ho]

/-- Only packages share symbols. -/
theorem eq_of_home_eq (h : g.Numbered home placed n) (hd : ∀ e ∈ placed, g.Declares home e)
    (he : e ∈ placed) (ho : o ∈ placed) (hk : e.kind ≠ .pkg) (hhome : home o.id = home e.id) :
    o = e := by
  have hsame : o.kind = e.kind := by rw [← (hd o ho).kind, hhome, (hd e he).kind]
  induction h with
  | nil => cases he
  | @added placed n x hold hid _ ih =>
    have hd' : ∀ e ∈ placed, g.Declares home e := fun e he => hd e (List.mem_append_left _ he)
    rcases List.mem_append.mp he with he | he <;> rcases List.mem_append.mp ho with ho | ho
    · exact ih hd' he ho
    · have hlt := hold.home_lt _ he
      rw [← hhome, List.mem_singleton.mp ho, hid] at hlt
      exact absurd hlt (Nat.lt_irrefl _)
    · have hlt := hold.home_lt _ ho
      rw [hhome, List.mem_singleton.mp he, hid] at hlt
      exact absurd hlt (Nat.lt_irrefl _)
    · rw [List.mem_singleton.mp he, List.mem_singleton.mp ho]
  | @joined placed n x y _ hx _ _ _ ih =>
    have hd' : ∀ e ∈ placed, g.Declares home e := fun e he => hd e (List.mem_append_left _ he)
    rcases List.mem_append.mp he with he | he
    · rcases List.mem_append.mp ho with ho | ho
      · exact ih hd' he ho
      · rw [List.mem_singleton.mp ho] at hsame
        exact absurd (hsame.symm.trans hx.1) hk
    · rw [List.mem_singleton.mp he] at hk
      exact absurd hx.1 hk

end Graph.Numbered

end Numbered

namespace Registry

/-! ## Declaring entries one after the other -/

/-- What holds when some entries are declared, in a registry on the way to the graph `g`. -/
structure Placed (g : Graph) (home : String → SymbolId) (placed : List SymbolEntry)
    (r : Registry) (done : Declared) : Prop where
  reachable : r.Reachable
  grown : Grown {} r
  keeps : r.Extends g
  found : ∀ e ∈ placed, done.lookup e.id = some (home e.id)
  numbered : g.Numbered home placed r.size
  declares : ∀ e ∈ placed, r.Declares home e

theorem declareAll_append (r : Registry) (done : Declared) (es fs : List SymbolEntry) :
    r.declareAll done (es ++ fs) =
      (r.declareAll done es).1.declareAll (r.declareAll done es).2 fs := by
  induction es generalizing r done with
  | nil => rfl
  | cons e es ih => exact ih _ _

variable {g : Graph} {home : String → SymbolId} {placed : List SymbolEntry} {r : Registry}
variable {done : Declared} {e : SymbolEntry}

namespace Placed

/-- The first symbol of a name belongs to the first entry of that name. -/
theorem find?_eq (h : Placed g home placed r done) (q : String) :
    r.find? q = (g.firstNamed? home placed q).map fun e => home e.id := by
  rw [h.numbered.map_firstNamed? q, h.reachable.exact.known q, Graph.first?]
  refine List.find?_congr fun i hi => ?_
  exact (Symbol.isKnownAs_of_bare (h.keeps.bare i (List.mem_range.mp hi))).symm

theorem owner_eq (h : Placed g home placed r done)
    (howner : ∀ w, e.owner = some w → ∃ o ∈ placed, o.id = w) :
    (e.owner.bind fun o => done.lookup o) = e.owner.map home := by
  cases hw : e.owner with
  | none => rfl
  | some w =>
    obtain ⟨o, ho, rfl⟩ := howner w hw
    exact h.found o ho

theorem owner_lt (h : Placed g home placed r done)
    (howner : ∀ w, e.owner = some w → ∃ o ∈ placed, o.id = w) :
    ∀ o ∈ e.owner.map home, o < r.size := by
  intro i hi
  obtain ⟨w, hw, rfl⟩ := Option.map_eq_some_iff.mp hi
  obtain ⟨o, ho, rfl⟩ := howner w hw
  exact (h.declares o ho).lt

end Placed

/-- An entry joins a package that is found, or it adds what it says. -/
theorem addSymbol_cases (r : Registry) (home : String → SymbolId) (e : SymbolEntry) :
    (∃ id, e.Joinable ∧ r.findKind? e.name .pkg = some id ∧
      r.addSymbol e.kind e.name (e.owner.map home) e.isUnknown e.isLocal = (r, id)) ∨
    ∃ x : Entry, (e.Joinable → r.findKind? e.name .pkg = none) ∧ x.kind = e.kind ∧
      x.name = e.name ∧ x.owner = e.owner.map home ∧ x.isUnknown = e.isUnknown ∧
      x.isSynthetic = false ∧ (¬ e.Joinable → x.isLocal = e.isLocal) ∧
      r.addSymbol e.kind e.name (e.owner.map home) e.isUnknown e.isLocal = r.push x := by
  have hiff : (e.kind = .pkg ∧ e.owner.map home = none ∧ e.isUnknown = false) ↔ e.Joinable := by
    rw [Option.map_eq_none_iff, SymbolEntry.Joinable]
  rw [addSymbol]
  by_cases hj : e.Joinable
  · rw [if_pos (hiff.mpr hj)]
    rcases addPackage_cases r e.name with ⟨id, hfind, heq⟩ | ⟨hnone, heq⟩
    · exact Or.inl ⟨id, hj, hfind, heq⟩
    · refine Or.inr ⟨{ kind := .pkg, name := e.name }, fun _ => hnone, hj.1.symm, rfl, ?_,
        hj.2.2.symm, rfl, fun h => absurd hj h, heq⟩
      rw [hj.2.1]
      rfl
  · rw [if_neg fun h => hj (hiff.mp h)]
    exact Or.inr ⟨_, fun h => absurd h hj, rfl, rfl, rfl, rfl, rfl, fun _ => rfl, rfl⟩

namespace Placed

/-- The symbol that is added for an entry is what the entry says. -/
theorem declares_push (h : Placed g home placed r done)
    (howner : ∀ w, e.owner = some w → ∃ o ∈ placed, o.id = w) {x : Entry}
    (hkind : x.kind = e.kind) (hname : x.name = e.name) (hx : x.owner = e.owner.map home)
    (hunknown : x.isUnknown = e.isUnknown) (hsynthetic : x.isSynthetic = false)
    (hlocal : ¬ e.Joinable → x.isLocal = e.isLocal) (hhome : home e.id = r.size) :
    (r.push x).1.Declares home e := by
  have hnew : (r.push x).1.symbol (home e.id) = r.entrySymbol x := by
    rw [hhome, symbol_push_size]
  refine ⟨?_, ?_, ?_, ?_, ?_, fun hj => ?_⟩
  · rw [size_push, hhome]
    exact Nat.lt_succ_self _
  · rw [hnew]
    exact hkind
  · rw [hnew]
    exact hunknown
  · rw [hnew]
    exact hsynthetic
  · rw [hnew]
    show r.qualify x.owner x.name = _
    rw [hx, hname]
    cases hw : e.owner with
    | none => rfl
    | some w =>
      have hlt : home w < r.size := h.owner_lt howner _ (by rw [hw]; rfl)
      simp only [Option.map_some, Option.elim_some]
      rw [qualify, symbol_push, if_neg (Nat.ne_of_lt hlt)]
  · rw [hnew]
    exact ⟨hname, hlocal hj, hx⟩

/-- A package that is joined is what the entry says. -/
theorem declares_found (h : Placed g home placed r done) (hj : e.Joinable)
    (hfind : r.findKind? e.name .pkg = some (home e.id)) :
    ∃ o, g.firstNamed? home placed e.name = some o ∧ o.kind = .pkg ∧
      home e.id = home o.id ∧ r.Declares home e := by
  have hknows := h.reachable.exact.knows_of_findKind? hfind
  have hfirst := (findKind?_eq_some_iff.mp hfind).1
  rw [h.find?_eq, Option.map_eq_some_iff] at hfirst
  obtain ⟨o, hfirst, hid⟩ := hfirst
  have ho := h.declares o (Graph.mem_of_firstNamed? hfirst)
  refine ⟨o, hfirst, ?_, hid.symm, hknows.lt, ?_, ?_, ?_, ?_, fun hj' => absurd hj hj'⟩
  · rw [← ho.kind, hid]
    exact hknows.kind
  · rw [hknows.kind, hj.1]
  · rw [hknows.known, hj.2.2]
  · rw [← hid]
    exact ho.isSynthetic
  · rw [hknows.name, hj.2.1]
    rfl

theorem found_cons (h : Placed g home placed r done) (hnew : e.id ∉ placed.map (·.id)) :
    ∀ o ∈ placed ++ [e], ((e.id, home e.id) :: done).lookup o.id = some (home o.id) := by
  rw [List.forall_mem_append, List.forall_mem_singleton]
  refine ⟨fun o ho => ?_, List.lookup_cons_self⟩
  have hne : (o.id == e.id) = false :=
    beq_eq_false_iff_ne.mpr fun heq => hnew (heq ▸ List.mem_map_of_mem ho)
  rw [List.lookup_cons, hne]
  exact h.found o ho

/-- A symbol is added for a package only if none of its name is found. -/
theorem numbered_push (h : Placed g home placed r done) (hid : home e.id = r.size)
    (hnone : e.Joinable → r.findKind? e.name .pkg = none) :
    g.Numbered home (placed ++ [e]) (r.size + 1) := by
  refine .added h.numbered hid fun hj o hfirst hk => ?_
  have hfind : r.find? e.name = some (home o.id) := by
    rw [h.find?_eq, hfirst]
    rfl
  have ho := h.declares o (Graph.mem_of_firstNamed? hfirst)
  have hpkg : r.findKind? e.name .pkg = some (home o.id) :=
    h.reachable.exact.findKind?_eq_some_iff.mpr ⟨hfind, ho.kind.trans hk⟩
  rw [hnone hj] at hpkg
  cases hpkg

/-- Declaring one more entry. -/
theorem declare (h : Placed g home placed r done)
    (howner : ∀ w, e.owner = some w → ∃ o ∈ placed, o.id = w)
    (hnew : e.id ∉ placed.map (·.id)) (hkeeps : (r.declare done e).1.Extends g)
    (hhome : (r.declare done e).2.lookup e.id = some (home e.id)) :
    Placed g home (placed ++ [e]) (r.declare done e).1 (r.declare done e).2 := by
  have hlegal := h.owner_lt howner
  have hreachable :
      (r.addSymbol e.kind e.name (e.owner.map home) e.isUnknown e.isLocal).1.Reachable :=
    h.reachable.apply (e := .symbol e.kind e.name (e.owner.map home) e.isUnknown e.isLocal) hlegal
  have hgrown := (delivers_addSymbol r e.kind e.name e.isUnknown e.isLocal hlegal).1
  have hcases := addSymbol_cases r home e
  rw [Registry.declare, h.owner_eq howner] at hkeeps hhome ⊢
  generalize r.addSymbol e.kind e.name (e.owner.map home) e.isUnknown e.isLocal = result at *
  obtain ⟨r', id⟩ := result
  dsimp only at hreachable hgrown hkeeps hhome ⊢
  rw [List.lookup_cons_self, Option.some_inj] at hhome
  subst hhome
  have hdeclares : r'.Declares home e → ∀ o ∈ placed ++ [e], r'.Declares home o := by
    rw [List.forall_mem_append, List.forall_mem_singleton]
    exact fun hself =>
      ⟨fun o ho => (h.declares o ho).mono h.reachable.sound hgrown.extends, hself⟩
  rcases hcases with ⟨id, hj, hfind, heq⟩ |
    ⟨x, hnone, hkind, hname, hx, hunknown, hsynthetic, hlocal, heq⟩
  · cases heq
    obtain ⟨o, hfirst, hk, hid, hself⟩ := h.declares_found hj hfind
    exact ⟨hreachable, h.grown, hkeeps, h.found_cons hnew,
      .joined h.numbered hj hfirst hk hid, hdeclares hself⟩
  · have hr' : r' = (r.push x).1 := congrArg Prod.fst heq
    have hid : home e.id = r.size := congrArg Prod.snd heq
    subst hr'
    have hself := h.declares_push howner hkind hname hx hunknown hsynthetic hlocal hid
    refine ⟨hreachable, h.grown.trans hgrown, hkeeps, h.found_cons hnew, ?_, hdeclares hself⟩
    rw [size_push]
    exact h.numbered_push hid hnone

theorem empty (hkeeps : ({} : Registry).Extends g) : Placed g home [] {} [] :=
  ⟨.empty, .refl, hkeeps, nofun, .nil, nofun⟩

end Placed

theorem extends_declare (r : Registry) (done : Declared) (e : SymbolEntry) :
    r.Extends (r.declare done e).1.toGraph := by
  show r.Extends (r.addSymbol _ _ _ _ _).1.toGraph
  rw [addSymbol]
  split
  · exact (delivers_addPackage r e.name).1.extends
  · exact extends_push r _

/-- Declaring entries one after the other, each behind its owner. -/
theorem placed_declareAll {es : List SymbolEntry} (h : Founded es placed)
    (hd : (placed.map (·.id)).Nodup)
    (hkeeps : (Registry.declareAll {} [] placed).1.Extends g)
    (hhome : ∀ e ∈ placed,
      (Registry.declareAll {} [] placed).2.lookup e.id = some (home e.id)) :
    Placed g home placed (Registry.declareAll {} [] placed).1
      (Registry.declareAll {} [] placed).2 := by
  induction h with
  | nil => exact .empty hkeeps
  | @snoc placed e _ howner ih =>
    rw [List.map_append, List.nodup_append] at hd
    have hnew : e.id ∉ placed.map (·.id) := fun h =>
      hd.2.2 _ h _ (List.mem_singleton_self _) rfl
    rw [declareAll_append] at hkeeps hhome ⊢
    rw [List.forall_mem_append, List.forall_mem_singleton] at hhome
    have hbefore := ih hd.1 ((extends_declare _ _ e).trans hkeeps) fun o ho => ?_
    · exact hbefore.declare howner hnew hkeeps hhome.2
    · have hne : (o.id == e.id) = false :=
        beq_eq_false_iff_ne.mpr fun heq => hnew (heq ▸ List.mem_map_of_mem ho)
      have hlookup := hhome.1 o ho
      simp only [declareAll, Registry.declare, List.lookup_cons, hne] at hlookup
      exact hlookup

/-- Each entry that is declared has a symbol, told by its identifier. -/
theorem exists_placed {es : List SymbolEntry} (h : Founded es placed)
    (hd : (placed.map (·.id)).Nodup) :
    ∃ home, ∀ g, (Registry.declareAll {} [] placed).1.Extends g →
      Placed g home placed (Registry.declareAll {} [] placed).1
        (Registry.declareAll {} [] placed).2 := by
  refine ⟨fun id => ((Registry.declareAll {} [] placed).2.lookup id).getD 0, fun g hg =>
    placed_declareAll h hd hg fun e he => ?_⟩
  obtain ⟨i, hi⟩ := Option.isSome_iff_exists.mp (declared_declareAll e he)
  rw [hi]
  rfl

end Registry

end Nullness
