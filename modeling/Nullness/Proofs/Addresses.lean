import Mathlib
import Nullness.Url.Address

/-!
# Addresses are read as they are written

The text of an address of version 4 is four numbers in decimal, that of an address of version 6
its pieces in hexadecimal with one run of zeros left out. Reading finds the numbers, and puts the
zeros back where they have been. What reading finds is in the bounds that writing needs.

- `Url.address4?_text`, `Url.address6?_text`: an address is read from its text.
- `Url.lt_of_address4?`, `Url.isAddress6_of_address6?`: what is read is an address.
-/

namespace Nullness

namespace Url

/-! ## Many parts at once -/

section Parts
variable {α β : Type} {f : α → Option β} {xs : List α} {ys : List β}

theorem mapM_eq_some_iff : xs.mapM f = some ys ↔ List.Forall₂ (fun x y => f x = some y) xs ys := by
  induction xs generalizing ys with
  | nil => simp [eq_comm]
  | cons x xs ih =>
      rw [List.mapM_cons, List.forall₂_cons_left_iff]
      constructor
      · intro h
        obtain ⟨y, hy, h⟩ := Option.bind_eq_some_iff.mp h
        obtain ⟨zs, hzs, h⟩ := Option.bind_eq_some_iff.mp h
        cases h
        exact ⟨y, zs, hy, ih.mp hzs, rfl⟩
      · rintro ⟨y, zs, hy, hzs, rfl⟩
        rw [hy, Option.bind_eq_bind, Option.bind_some, ih.mpr hzs]
        rfl

theorem exists_of_mem_mapM (h : xs.mapM f = some ys) : ∀ y ∈ ys, ∃ x ∈ xs, f x = some y := by
  have hpairs := mapM_eq_some_iff.mp h
  clear h
  induction hpairs with
  | nil => simp
  | @cons x y xs ys hxy _ ih =>
      intro z hz
      rcases List.mem_cons.mp hz with rfl | hz
      · exact ⟨x, List.mem_cons_self, hxy⟩
      · obtain ⟨x', hx', hz⟩ := ih z hz
        exact ⟨x', List.mem_cons_of_mem x hx', hz⟩

theorem mapM_eq_none {x : α} (hx : x ∈ xs) (h : f x = none) : xs.mapM f = none := by
  refine Option.eq_none_iff_forall_ne_some.mpr fun ys hys => ?_
  have hpairs := mapM_eq_some_iff.mp hys
  clear hys
  induction hpairs with
  | nil => cases hx
  | @cons z y zs ys hzy _ ih =>
      rcases List.mem_cons.mp hx with rfl | hx
      · cases h.symm.trans hzy
      · exact ih hx

end Parts

/-! ## Numbers -/

variable {base n : Nat} {cs : List Char} {c : Char}

theorem hexValue?_digitChar (h : n < 16) : Text.hexValue? n.digitChar = some n := by
  have hall : ∀ d < 16, Text.hexValue? d.digitChar = some d := by decide
  exact hall n h

/-- The digits of a number are below the base. -/
theorem exists_of_mem_toDigits (hbase : 1 < base) (h : c ∈ Nat.toDigits base n) :
    ∃ d < base, c = d.digitChar := by
  induction n using Nat.strongRecOn with
  | _ n ih =>
      rw [Nat.toDigits_eq_if hbase] at h
      split at h
      · next hlt => exact ⟨n, hlt, List.mem_singleton.mp h⟩
      · next hge =>
        rcases List.mem_append.mp h with h | h
        · exact ih (n / base) (Nat.div_lt_self (by omega) hbase) h
        · exact ⟨n % base, Nat.mod_lt _ (by omega), List.mem_singleton.mp h⟩

/-- One more digit behind the digits of `n`. -/
def appendDigit? (base n : Nat) (c : Char) : Option Nat :=
  (Text.hexValue? c).bind fun d => if d < base then some (n * base + d) else none

theorem number?_eq (base : Nat) (cs : List Char) :
    number? base cs = cs.foldlM (appendDigit? base) 0 := rfl

theorem appendDigit?_digitChar {d : Nat} (hle : base ≤ 16) (hd : d < base) (m : Nat) :
    appendDigit? base m d.digitChar = some (m * base + d) := by
  rw [appendDigit?, hexValue?_digitChar (by omega), Option.bind_some, if_pos hd]

theorem number?_toDigits (hbase : 1 < base) (hle : base ≤ 16) (n : Nat) :
    number? base (Nat.toDigits base n) = some n := by
  rw [number?_eq]
  -- the last digit is read last, and stands for what the division by the base leaves
  induction n using Nat.strongRecOn with
  | _ n ih =>
      rw [Nat.toDigits_eq_if hbase]
      split
      · next hlt => simp [appendDigit?_digitChar hle hlt]
      · next hge =>
        have hmod : n % base < base := Nat.mod_lt _ (by omega)
        have hdiv : n / base * base + n % base = n := by rw [Nat.mul_comm, Nat.div_add_mod]
        rw [List.foldlM_append, ih (n / base) (Nat.div_lt_self (by omega) hbase)]
        simp [appendDigit?_digitChar hle hmod, hdiv]

theorem lt_of_foldlM_appendDigit? {m : Nat} (h : cs.foldlM (appendDigit? base) m = some n) :
    n < (m + 1) * base ^ cs.length := by
  induction cs generalizing m with
  | nil =>
      cases h
      simp
  | cons c cs ih =>
      obtain ⟨k, hk, h⟩ := Option.bind_eq_some_iff.mp h
      obtain ⟨d, -, hd⟩ := Option.bind_eq_some_iff.mp hk
      split at hd
      · next hlt =>
        cases hd
        have hstep : m * base + d + 1 ≤ (m + 1) * base := by
          rw [Nat.add_mul, Nat.one_mul]
          omega
        calc n < (m * base + d + 1) * base ^ cs.length := ih h
          _ ≤ (m + 1) * base * base ^ cs.length := Nat.mul_le_mul_right _ hstep
          _ = (m + 1) * base ^ (c :: cs).length := by
              rw [List.length_cons, Nat.pow_succ, Nat.mul_assoc, Nat.mul_comm base]
      · cases hd

/-- A number of so many digits is below the power of the base. -/
theorem lt_of_number? (h : number? base cs = some n) : n < base ^ cs.length := by
  simpa using lt_of_foldlM_appendDigit? (m := 0) h

/-! ## Version 4 -/

section Version4
variable {a : Nat}

/-- The numbers of an address, the highest first. -/
def bytes4 (a : Nat) : List Nat := [a / 16777216 % 256, a / 65536 % 256, a / 256 % 256, a % 256]

theorem lt_of_mem_bytes4 (h : n ∈ bytes4 a) : n < 256 := by
  simp only [bytes4, List.mem_cons, List.not_mem_nil, or_false] at h
  omega

theorem address4Text_eq (a : Nat) :
    address4Text a = ['.'].intercalate ((bytes4 a).map (Nat.toDigits 10)) := by
  simp [address4Text, bytes4]

theorem isDigit_of_mem_toDigits (h : c ∈ Nat.toDigits 10 n) : c.isDigit = true :=
  Nat.isDigit_of_mem_toDigits (by decide) (by decide) h

theorem hostParts_address4Text (a : Nat) :
    hostParts (address4Text a) = (bytes4 a).map (Nat.toDigits 10) := by
  have hsplit : Text.split (· == '.') (address4Text a) = (bytes4 a).map (Nat.toDigits 10) := by
    rw [address4Text_eq]
    refine Text.split_intercalate (by decide) (by simp [bytes4]) fun part hpart c hc => ?_
    obtain ⟨n, -, rfl⟩ := List.mem_map.mp hpart
    refine beq_eq_false_iff_ne.mpr ?_
    rintro rfl
    exact absurd (isDigit_of_mem_toDigits hc) (by decide)
  rw [hostParts, hsplit]
  refine if_neg ?_
  simp [bytes4, Nat.toDigits_ne_nil]

theorem endsInNumber_address4Text (a : Nat) : endsInNumber (address4Text a) = true := by
  rw [endsInNumber, hostParts_address4Text]
  have hall : (Nat.toDigits 10 (a % 256)).all Char.isDigit = true :=
    List.all_eq_true.mpr fun c hc => isDigit_of_mem_toDigits hc
  simp [bytes4, hall, Nat.toDigits_ne_nil]

theorem part4?_toDigits (h : n < 256) : part4? (Nat.toDigits 10 n) = some n := by
  have hall : ∀ n < 256, part4? (Nat.toDigits 10 n) = some n := by decide +kernel
  exact hall n h

theorem address4?_text (h : a < 4294967296) : address4? (address4Text a) = some a := by
  have hparts : ((bytes4 a).map (Nat.toDigits 10)).mapM part4? = some (bytes4 a) := by
    rw [mapM_eq_some_iff, List.forall₂_map_left_iff, List.forall₂_same]
    exact fun n hn => part4?_toDigits (lt_of_mem_bytes4 hn)
  have hfront : (bytes4 a).dropLast.any (255 < ·) = false := by
    refine List.any_eq_false.mpr fun n hn => ?_
    have := lt_of_mem_bytes4 (List.dropLast_subset _ hn)
    simp only [decide_eq_true_eq]
    omega
  rw [address4?, hostParts_address4Text, hparts]
  have hlast : (bytes4 a).getLast? = some (a % 256) := rfl
  dsimp only
  rw [hlast]
  dsimp only
  have hlength : (bytes4 a).dropLast.length = 3 := rfl
  have hvalue : (bytes4 a).dropLast.foldl (fun a n => a * 256 + n) 0 * 256 + a % 256 = a := by
    simp only [bytes4, List.dropLast, List.foldl]
    omega
  have hbyte : ¬ 256 ≤ a % 256 := by omega
  rw [hlength, if_neg (by decide), hfront, if_neg (by decide)]
  show (if 256 ≤ a % 256 then none else some (_ * 256 + a % 256)) = some a
  rw [if_neg hbyte, hvalue]

theorem foldl_bytes_lt {front : List Nat} (h : ∀ n ∈ front, n < 256) (m : Nat) :
    front.foldl (fun a n => a * 256 + n) m < (m + 1) * 256 ^ front.length := by
  induction front generalizing m with
  | nil => simp
  | cons n front ih =>
      have hn := h n List.mem_cons_self
      calc (n :: front).foldl (fun a n => a * 256 + n) m
          < (m * 256 + n + 1) * 256 ^ front.length :=
            ih (fun k hk => h k (List.mem_cons_of_mem n hk)) _
        _ ≤ (m + 1) * 256 * 256 ^ front.length := Nat.mul_le_mul_right _ (by omega)
        _ = (m + 1) * 256 ^ (n :: front).length := by
            rw [List.length_cons, Nat.pow_succ, Nat.mul_assoc, Nat.mul_comm 256]

/-- The numbers of an address: those in front are bytes, the last one has the room of the others. -/
theorem exists_of_address4? (h : address4? cs = some a) :
    ∃ (front : List Nat) (last : Nat), front.length ≤ 3 ∧ (∀ n ∈ front, n < 256) ∧
      last < 256 ^ (4 - front.length) ∧
      a = front.foldl (fun a n => a * 256 + n) 0 * 256 ^ (4 - front.length) + last := by
  rw [address4?] at h
  dsimp only at h
  split at h
  · cases h
  · next numbers _ =>
    split at h
    · cases h
    · next last _ =>
      split at h
      · cases h
      · next hlength =>
        split at h
        · cases h
        · next hany =>
          split at h
          · cases h
          · next hroom =>
            refine ⟨numbers.dropLast, last, Nat.le_of_not_lt hlength, fun n hn => ?_,
              Nat.lt_of_not_le hroom, (Option.some.inj h).symm⟩
            by_contra hge
            exact hany (List.any_eq_true.mpr ⟨n, hn, by simp; omega⟩)

theorem lt_of_address4? (h : address4? cs = some a) : a < 4294967296 := by
  obtain ⟨front, last, hlength, hfront, hlast, rfl⟩ := exists_of_address4? h
  have hvalue := foldl_bytes_lt hfront 0
  rw [Nat.zero_add, Nat.one_mul] at hvalue
  calc _
      < (front.foldl (fun a n => a * 256 + n) 0 + 1) * 256 ^ (4 - front.length) := by
        rw [Nat.add_mul, Nat.one_mul]
        exact Nat.add_lt_add_left hlast _
    _ ≤ 256 ^ front.length * 256 ^ (4 - front.length) := Nat.mul_le_mul_right _ hvalue
    _ = 256 ^ 4 := by rw [← Nat.pow_add, Nat.add_sub_cancel' (by omega)]
    _ = 4294967296 := rfl

end Version4

/-! ## Version 6 -/

section Version6
variable {ns : List Nat} {s t : List Char}

/-- Eight pieces of sixteen bits. -/
structure IsAddress6 (ns : List Nat) : Prop where
  length : ns.length = 8
  lt : ∀ n ∈ ns, n < 65536

/-! ### Pieces -/

theorem piece?_toDigits (h : n < 65536) : piece? (Nat.toDigits 16 n) = some n := by
  have hlength : (Nat.toDigits 16 n).length ≤ 4 :=
    (Nat.length_toDigits_le_iff (by decide) (by decide)).mpr h
  have hne : (Nat.toDigits 16 n).isEmpty = false :=
    List.isEmpty_eq_false_iff.mpr Nat.toDigits_ne_nil
  rw [piece?, if_neg (by simp [hne, hlength]), number?_toDigits (by decide) (by decide)]

theorem lt_of_piece? (h : piece? cs = some n) : n < 65536 := by
  rw [piece?] at h
  split at h
  · cases h
  · next hlength =>
    simp only [Bool.or_eq_true, decide_eq_true_eq, not_or, Nat.not_lt] at hlength
    calc n < 16 ^ cs.length := lt_of_number? h
      _ ≤ 16 ^ 4 := Nat.pow_le_pow_right (by decide) hlength.2
      _ = 65536 := rfl

theorem lt_of_plainByte? (h : plainByte? cs = some n) : n < 256 := by
  rw [plainByte?] at h
  split at h
  · cases h
    decide
  · split at h
    · cases h
    · split at h
      · cases h
      · split at h
        · next hlt =>
          cases h
          exact hlt
        · cases h

theorem lt_of_embedded? (h : embedded? cs = some ns) : ∀ n ∈ ns, n < 65536 := by
  rw [embedded?] at h
  split at h
  · next a b c d hparts =>
    cases h
    have hbyte : ∀ n ∈ [a, b, c, d], n < 256 := fun n hn => by
      obtain ⟨part, -, hpart⟩ := exists_of_mem_mapM hparts n hn
      exact lt_of_plainByte? hpart
    simp only [List.forall_mem_cons] at hbyte
    obtain ⟨ha, hb, hc, hd, -⟩ := hbyte
    simp only [List.forall_mem_cons, List.not_mem_nil, false_implies, implies_true, and_true]
    omega
  · cases h

theorem lt_of_pieces? {parts : List (List Char)} (h : pieces? parts = some ns) :
    ∀ n ∈ ns, n < 65536 := by
  fun_induction pieces? parts generalizing ns with
  | case1 =>
      cases h
      simp
  | case2 last =>
      rw [Option.orElse_eq_orElse, Option.orElse_eq_or, Option.or_eq_some_iff] at h
      rcases h with h | ⟨-, h⟩
      · obtain ⟨n, hn, rfl⟩ := Option.map_eq_some_iff.mp h
        simpa using lt_of_piece? hn
      · exact lt_of_embedded? h
  | case3 p ps _ n ms hms hn ih =>
      cases h
      exact List.forall_mem_cons.mpr ⟨lt_of_piece? hn, ih hms⟩
  | case4 => cases h

theorem pieces?_toDigits (h : ∀ n ∈ ns, n < 65536) :
    pieces? (ns.map (Nat.toDigits 16)) = some ns := by
  induction ns with
  | nil => rfl
  | cons n ns ih =>
      have hn := piece?_toDigits (h n List.mem_cons_self)
      cases ns with
      | nil =>
          show ((piece? (Nat.toDigits 16 n)).map ([·]) <|> embedded? _) = some [n]
          rw [hn]
          rfl
      | cons m ns =>
          have hns := ih fun k hk => h k (List.mem_cons_of_mem n hk)
          rw [List.map_cons, List.map_cons] at *
          rw [pieces?, hn, hns]
          simp

/-! ### Texts of pieces -/

theorem not_colon_of_mem_toDigits (h : c ∈ Nat.toDigits 16 n) : c ≠ ':' := by
  obtain ⟨d, hd, rfl⟩ := exists_of_mem_toDigits (by decide) h
  have hall : ∀ d < 16, d.digitChar ≠ ':' := by decide
  exact hall d hd

theorem piecesText_cons (h : ns ≠ []) :
    piecesText (n :: ns) = Nat.toDigits 16 n ++ ':' :: piecesText ns := by
  rw [piecesText, List.map_cons, List.intercalate_cons_of_ne_nil (by simpa using h),
    List.append_assoc]
  rfl

theorem piecesText_singleton (n : Nat) : piecesText [n] = Nat.toDigits 16 n := by
  simp [piecesText]

/-- There are only digits and colons in the text of pieces. -/
theorem mem_piecesText (h : c ∈ piecesText ns) : c = ':' ∨ ∃ d < 16, c = d.digitChar := by
  refine (Text.mem_intercalate h).imp_right fun ⟨part, hpart, hc⟩ => ?_
  obtain ⟨n, -, rfl⟩ := List.mem_map.mp hpart
  exact exists_of_mem_toDigits (by decide) hc

theorem piecesText_eq_nil_iff : piecesText ns = [] ↔ ns = [] := by
  constructor
  · intro h
    cases ns with
    | nil => rfl
    | cons n ns =>
        by_cases hns : ns = []
        · simp [hns, piecesText_singleton, Nat.toDigits_ne_nil] at h
        · simp [piecesText_cons hns] at h
  · rintro rfl
    rfl

theorem side?_piecesText (h : ∀ n ∈ ns, n < 65536) : side? (piecesText ns) = some ns := by
  rw [side?]
  by_cases hns : ns = []
  · simp [hns, piecesText]
  · have hsplit : Text.split (· == ':') (piecesText ns) = ns.map (Nat.toDigits 16) := by
      refine Text.split_intercalate (by decide) (by simpa using hns) fun part hpart c hc => ?_
      obtain ⟨n, -, rfl⟩ := List.mem_map.mp hpart
      exact beq_eq_false_iff_ne.mpr (not_colon_of_mem_toDigits hc)
    have hne : ¬ (piecesText ns).isEmpty = true := by
      simpa [piecesText_eq_nil_iff] using hns
    rw [if_neg hne, hsplit, pieces?_toDigits h]

/-! ### The gap -/

theorem splitGap?_cons (h : c ≠ ':' ∨ t.head? ≠ some ':') :
    splitGap? (c :: t) = (splitGap? t).map fun (front, back) => (c :: front, back) := by
  rw [splitGap?.eq_def]
  split
  · next heq =>
    obtain ⟨rfl, rfl⟩ := List.cons.inj heq
    simp at h
  · next heq =>
    obtain ⟨rfl, rfl⟩ := List.cons.inj heq
    rfl
  · next heq => cases heq

theorem splitGap?_append_of_not_mem (h : ':' ∉ s) :
    splitGap? (s ++ t) = (splitGap? t).map fun (front, back) => (s ++ front, back) := by
  induction s with
  | nil => simp
  | cons c s ih =>
      rw [List.cons_append, splitGap?_cons (.inl fun hc => h (by simp [hc])),
        ih fun hs => h (List.mem_cons_of_mem c hs), Option.map_map]
      rfl

/-- Between pieces there is no gap. -/
theorem splitGap?_piecesText_append (ns : List Nat) (t : List Char) :
    splitGap? (piecesText ns ++ t) =
      (splitGap? t).map fun (front, back) => (piecesText ns ++ front, back) := by
  have hdigits : ∀ n, ':' ∉ Nat.toDigits 16 n := fun n h => not_colon_of_mem_toDigits h rfl
  induction ns with
  | nil => simp [piecesText]
  | cons n ns ih =>
      by_cases hns : ns = []
      · rw [hns, piecesText_singleton]
        exact splitGap?_append_of_not_mem (hdigits n)
      · obtain ⟨m, ms, rfl⟩ := List.exists_cons_of_ne_nil hns
        -- what stands behind the colon begins with a digit
        have hhead : (piecesText (m :: ms) ++ t).head? ≠ some ':' := by
          obtain ⟨d, ds, hd⟩ := List.exists_cons_of_ne_nil (Nat.toDigits_ne_nil (b := 16) (n := m))
          have hne : d ≠ ':' := not_colon_of_mem_toDigits (n := m) (by simp [hd])
          by_cases hms : ms = []
          · simpa [hms, piecesText_singleton, hd] using hne
          · simpa [piecesText_cons hms, hd] using hne
        rw [piecesText_cons hns, List.append_assoc, splitGap?_append_of_not_mem (hdigits n),
          List.cons_append, splitGap?_cons (.inr hhead), ih, Option.map_map, Option.map_map]
        simp [Function.comp_def]

theorem take_zeroRun (ns : List Nat) : ns.take (zeroRun ns) = List.replicate (zeroRun ns) 0 := by
  have hprefix := List.prefix_iff_eq_take.mp (List.takeWhile_prefix (· == 0) (l := ns))
  rw [zeroRun, ← hprefix]
  refine List.eq_replicate_of_mem fun n hn => ?_
  simpa using List.all_eq_true.mp List.all_takeWhile n hn

/-- The longest run of zeros is one among the pieces. -/
theorem take_longestZeroRun (ns : List Nat) :
    (ns.drop (longestZeroRun ns).1).take (longestZeroRun ns).2 =
      List.replicate (longestZeroRun ns).2 0 := by
  induction ns with
  | nil => rfl
  | cons n ns ih =>
      rw [longestZeroRun]
      dsimp only
      split
      · exact take_zeroRun (n :: ns)
      · exact ih

theorem longestZeroRun_append (ns : List Nat) :
    ns.take (longestZeroRun ns).1 ++ List.replicate (longestZeroRun ns).2 0 ++
      ns.drop ((longestZeroRun ns).1 + (longestZeroRun ns).2) = ns := by
  rw [← take_longestZeroRun, List.append_assoc, ← List.drop_drop, List.take_append_drop,
    List.take_append_drop]

theorem mem_address6Text (h : c ∈ address6Text ns) : c = ':' ∨ ∃ d < 16, c = d.digitChar := by
  rw [address6Text] at h
  dsimp only at h
  split at h
  · exact mem_piecesText h
  · simp only [List.mem_append, List.mem_cons, List.not_mem_nil, or_false] at h
    rcases h with (h | h | h) | h
    · exact mem_piecesText h
    · exact .inl h
    · exact .inl h
    · exact mem_piecesText h

theorem splitGap?_piecesText (front back : List Nat) :
    splitGap? (piecesText front ++ [':', ':'] ++ piecesText back) =
      some (piecesText front, piecesText back) := by
  rw [List.append_assoc, splitGap?_piecesText_append]
  simp [splitGap?]

theorem point_not_mem_piecesText (ns : List Nat) : '.' ∉ piecesText ns := by
  intro hmem
  have hnone : ∀ d < 16, '.' ≠ d.digitChar := by decide
  rcases mem_piecesText hmem with hc | ⟨d, hd, hc⟩
  · cases hc
  · exact hnone d hd hc

/-- The zeros are put back where the gap is. -/
theorem address6?_gap {front back : List Nat} {length : Nat} (hlong : 0 < length)
    (h : IsAddress6 (front ++ List.replicate length 0 ++ back)) :
    address6? (piecesText front ++ [':', ':'] ++ piecesText back) =
      some (front ++ List.replicate length 0 ++ back) := by
  have hpoint : (piecesText front).contains '.' = false := by
    simpa using point_not_mem_piecesText front
  have hfront : side? (piecesText front) = some front :=
    side?_piecesText fun n hn => h.lt n (by simp [hn])
  have hback : side? (piecesText back) = some back :=
    side?_piecesText fun n hn => h.lt n (by simp [hn])
  have hlength := h.length
  simp only [List.length_append, List.length_replicate] at hlength
  have hmissing : 8 - front.length - back.length = length := by omega
  rw [address6?, splitGap?_piecesText]
  dsimp only
  rw [hpoint, hfront, hback]
  dsimp only
  rw [if_neg Bool.false_ne_true, if_pos (by omega), hmissing]

theorem address6?_text (h : IsAddress6 ns) : address6? (address6Text ns) = some ns := by
  rw [address6Text]
  dsimp only
  split
  · have hgap : splitGap? (piecesText ns) = none := by
      have := splitGap?_piecesText_append ns []
      rwa [List.append_nil] at this
    rw [address6?, hgap, side?_piecesText h.lt]
    dsimp only
    rw [if_pos h.length]
  · next hlong =>
    have hall := longestZeroRun_append ns
    rw [address6?_gap (by omega) (hall.symm ▸ h), hall]

theorem lt_of_side? (h : side? cs = some ns) : ∀ n ∈ ns, n < 65536 := by
  rw [side?] at h
  split at h
  · cases h
    simp
  · exact lt_of_pieces? h

theorem isAddress6_of_address6? (h : address6? cs = some ns) : IsAddress6 ns := by
  rw [address6?] at h
  split at h
  · split at h
    · next ms hms =>
      split at h
      · next hlength =>
        cases h
        exact ⟨hlength, lt_of_side? hms⟩
      · cases h
    · cases h
  · next front back _ =>
    split at h
    · cases h
    · split at h
      · next ns ms hns hms =>
        split at h
        · next hlength =>
          cases h
          constructor
          · simp only [List.length_append, List.length_replicate]
            omega
          · intro n hn
            rcases List.mem_append.mp hn with hn | hn
            · rcases List.mem_append.mp hn with hn | hn
              · exact lt_of_side? hns n hn
              · rw [List.eq_of_mem_replicate hn]
                decide
            · exact lt_of_side? hms n hn
        · cases h
      · cases h

end Version6

end Url

end Nullness
