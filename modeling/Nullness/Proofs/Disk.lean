import Nullness.Command.Disk

/-!
# Writing one file

A file is written at one place of a disk. Everything else stays as it was, directories that only
hold other nodes included: whatever leads to the place was a directory before. So the path that
was written to leads to the same place as before, and there is the text.

- `Command.Disk.node?_put_of_ne`: all other places hold what they held.
- `Command.Disk.text_put`: the path gives back the text.
-/

namespace Nullness

/-! ## Bytes of texts -/

theorem Text.toList_loop (bs : ByteArray) (i : Nat) (acc : List UInt8) :
    ByteArray.toList.loop bs i acc = acc.reverse ++ bs.data.toList.drop i := by
  have hlength : bs.data.toList.length = bs.size := Array.length_toList
  fun_induction ByteArray.toList.loop bs i acc with
  | case1 i acc hlt ih =>
      have hi : i < bs.data.toList.length := Nat.lt_of_lt_of_eq hlt hlength.symm
      have hget : bs.get! i = bs.data.toList[i] := getElem!_pos bs.data i hlt
      rw [ih, List.drop_eq_getElem_cons hi, List.reverse_cons, List.append_assoc, hget]
      rfl
  | case2 i acc hge =>
      have hi : bs.data.toList.length ≤ i := hlength ▸ Nat.le_of_not_lt hge
      rw [List.drop_eq_nil_of_le hi, List.append_nil]

/-- The bytes of a text are read as that text. -/
theorem Text.fromUTF8?_toUTF8 (s : String) :
    String.fromUTF8? ⟨s.toUTF8.toList.toArray⟩ = some s := by
  have hbytes : (⟨s.toUTF8.toList.toArray⟩ : ByteArray) = s.toByteArray := by
    rw [ByteArray.toList, toList_loop]
    rfl
  rw [hbytes, String.fromUTF8?, dif_pos s.isValidUTF8]
  rfl

namespace Command

namespace Disk

variable {d : Disk} {place p : List String} {bytes : List UInt8} {path : String}

/-! ## Nodes -/

theorem isSome_node?_of_isBase (d : Disk) (h : isBase p = true) : (d.node? p).isSome = true := by
  rw [node?]
  cases d.nodes.lookup p with
  | some n => rfl
  | none =>
      rw [h]
      rfl

theorem node?_put_self (d : Disk) (place : List String) (bytes : List UInt8) :
    (d.put place bytes).node? place = some (.file bytes) := by
  simp [node?, put]

theorem lookup_filter_ne {nodes : List (List String × Node)} (h : p ≠ place) :
    (nodes.filter (·.1 ≠ place)).lookup p = nodes.lookup p := by
  induction nodes with
  | nil => rfl
  | cons n nodes ih =>
      obtain ⟨q, n⟩ := n
      by_cases hq : q = place
      · subst hq
        have hne : (p == q) = false := beq_eq_false_iff_ne.mpr h
        rw [List.filter_cons_of_neg (by simp), ih, List.lookup_cons, hne]
      · rw [List.filter_cons_of_pos (by simpa using hq), List.lookup_cons, List.lookup_cons, ih]

/-- All directories above the place are there. -/
def Open (d : Disk) (place : List String) : Prop :=
  ∀ p, p <+: place → p ≠ place → (d.node? p).isSome = true

/-- If all directories above a place are there, then putting a file in the place changes what is
found at no other place. -/
theorem node?_put_of_ne (h : d.Open place) (hp : p ≠ place) :
    (d.put place bytes).node? p = d.node? p := by
  have hlookup : (d.put place bytes).nodes.lookup p = d.nodes.lookup p := by
    have hne : (p == place) = false := beq_eq_false_iff_ne.mpr hp
    rw [put, List.lookup_cons, hne]
    exact lookup_filter_ne hp
  rw [node?, node?, hlookup]
  cases hnode : d.nodes.lookup p with
  | some n => rfl
  | none =>
      -- what lies above some node is a directory, and the place is the only node that is new
      have habove : (isBase p || (d.put place bytes).nodes.any fun n => p.isPrefixOf n.1) =
          (isBase p || d.nodes.any fun n => p.isPrefixOf n.1) := by
        rw [Bool.eq_iff_iff, Bool.or_eq_true, Bool.or_eq_true, List.any_eq_true, List.any_eq_true]
        constructor
        · rintro (hbase | ⟨n, hn, hpre⟩)
          · exact .inl hbase
          rcases List.mem_cons.mp hn with rfl | hn
          · have hsome := h p (List.isPrefixOf_iff_prefix.mp hpre) hp
            rw [node?, hnode] at hsome
            dsimp only at hsome
            split at hsome
            · next hold => rwa [Bool.or_eq_true, List.any_eq_true] at hold
            · cases hsome
          · exact .inr ⟨n, (List.mem_filter.mp hn).1, hpre⟩
        · rintro (hbase | ⟨n, hn, hpre⟩)
          · exact .inl hbase
          by_cases hplace : n.1 = place
          · exact .inr ⟨_, List.mem_cons_self, hplace ▸ hpre⟩
          · have hkept := List.mem_filter (p := (·.1 ≠ place)).mpr ⟨hn, decide_eq_true hplace⟩
            exact .inr ⟨n, List.mem_cons_of_mem _ hkept, hpre⟩
      exact congrArg (fun b => if b = true then some Node.directory else none) habove

/-! ## Paths -/

theorem isBase_iff : isBase p = true ↔ (∀ n ∈ p, n = "..") ∨ p = ["/"] := by
  simp [isBase]

/-- What lies above one of the directories that are always there is another one of them. -/
theorem open_of_isBase (d : Disk) (h : isBase place = true) : d.Open place := by
  intro p hpre hne
  apply isSome_node?_of_isBase
  rw [isBase_iff] at h ⊢
  rcases h with hup | rfl
  · exact .inl fun n hn => hup n (hpre.subset hn)
  · cases p with
    | nil => exact .inl nofun
    | cons n ns =>
        obtain ⟨rfl, hnil⟩ := List.cons_prefix_cons.mp hpre
        rw [List.prefix_nil.mp hnil] at hne
        exact absurd rfl hne

theorem Open.snoc (h : d.Open place) (hplace : (d.node? place).isSome = true) (name : String) :
    d.Open (place ++ [name]) := by
  intro p hpre hne
  have hbefore : p <+: place := (List.prefix_concat_iff.mp hpre).resolve_left hne
  by_cases heq : p = place
  · rwa [heq]
  · exact h p hbefore heq

theorem Open.parent (h : d.Open place) : d.Open (parent place) := by
  rw [Disk.parent]
  split
  · exact h
  split
  · next hbase => exact h.snoc (isSome_node?_of_isBase d hbase) ".."
  · intro p hpre hne
    refine h p (hpre.trans (List.dropLast_prefix place)) ?_
    rintro rfl
    exact hne (hpre.eq_of_length_le (by simp))

/-- Whatever a row of names leads to, the directories above it are there. -/
theorem open_of_follow {names : List String} {start : List String} (hstart : d.Open start)
    (h : d.follow start names = .ok place) : d.Open place := by
  fun_induction Disk.follow d start names with
  | case1 start =>
      cases h
      exact hstart
  | case2 => cases h
  | case3 => cases h
  | case4 start name names hnode hstay ih => exact ih hstart h
  | case5 start names hnode hstay ih => exact ih hstart.parent h
  | case6 start name names hnode hstay hup ih =>
      exact ih (hstart.snoc (hnode ▸ rfl) name) h

/-- A file in the place that a row of names leads to does not change where it leads to. -/
theorem follow_put {names : List String} {start : List String} (hplace : d.Open place)
    (hfile : d.node? place ≠ some .directory) (h : d.follow start names = .ok place) :
    (d.put place bytes).follow start names = .ok place := by
  -- the names lead through directories only, and the place is none
  have hsame : ∀ p, d.node? p = some .directory →
      (d.put place bytes).node? p = some .directory := by
    intro p hp
    have hne : p ≠ place := by
      rintro rfl
      exact hfile hp
    rw [node?_put_of_ne hplace hne, hp]
  fun_induction Disk.follow d start names with
  | case1 start => exact h
  | case2 => cases h
  | case3 => cases h
  | case4 start name names hnode hstay ih =>
      rw [follow, hsame start hnode]
      simp only [if_pos hstay]
      exact ih h
  | case5 start names hnode hstay ih =>
      rw [follow, hsame start hnode]
      simp only [if_neg hstay, if_true]
      exact ih h
  | case6 start name names hnode hstay hup ih =>
      rw [follow, hsame start hnode]
      simp only [if_neg hstay, if_neg hup]
      exact ih h

/-! ## Files that are written -/

theorem place_of_target (h : d.target path = .ok place) :
    d.place path = .ok place ∧ d.node? place ≠ some .directory := by
  rw [target] at h
  split at h
  · cases h
  split at h
  · cases h
  · next hplace =>
    split at h
    · cases h
    · next hgood =>
      cases h
      rw [not_or, Decidable.not_not] at hgood
      exact ⟨hgood.1 ▸ hplace, hgood.2⟩

theorem open_of_place (h : d.place path = .ok place) : d.Open place := by
  rw [Disk.place] at h
  split at h
  · cases h
  · refine open_of_follow (open_of_isBase d ?_) h
    split <;> decide

/-- Where a file may be written, nothing else changes. -/
theorem node?_put_of_target (h : d.target path = .ok place) (hp : p ≠ place) :
    (d.put place bytes).node? p = d.node? p :=
  node?_put_of_ne (open_of_place (place_of_target h).1) hp

/-- What was written to a path is found there. -/
theorem text_put (h : d.target path = .ok place) (s : String) :
    (d.put place s.toUTF8.toList).text path = .ok s := by
  obtain ⟨hplace, hfile⟩ := place_of_target h
  have hopen := open_of_place hplace
  have hsame : (d.put place s.toUTF8.toList).place path = .ok place := by
    rw [Disk.place] at hplace ⊢
    split at hplace
    · cases hplace
    · next hne =>
      rw [if_neg hne]
      exact follow_put hopen hfile hplace
  have hfind : (d.put place s.toUTF8.toList).find path = .ok (.file s.toUTF8.toList) := by
    rw [find, hsame]
    simp only [node?_put_self]
  rw [text, hfind]
  simp only [Text.fromUTF8?_toUTF8]

end Disk

end Command

end Nullness
