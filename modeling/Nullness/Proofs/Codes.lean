import Mathlib
import Nullness.Proofs.Authorities

/-!
# Codes of ascending labels

The characters of a label that ascend are inserted one behind the other, so the code is a row of
distances. Each distance is read back from its digits, so the label is read back from its code. A
distance takes the more digits the longer the label has grown; the code of a label that may have a
code can become longer than a code that is found may be.

- `Url.Punycode.takeDistance?_digits`: a distance is read from its digits.
- `Url.Punycode.decode?_encode`: an ascending label is read from its code.
- `Url.Punycode.le_length_codeBehind`: how long the code of a label with gaps is at least.
-/

namespace Nullness

namespace Url

namespace Punycode

variable {bias k n last q : Nat} {c : Char} {done rest label s : List Char} {st : State}

/-! ## Digits -/

theorem digitValue?_digit : ∀ n < 36, digitValue? (digit n) = some n := by decide +kernel

/-- A distance is read from its digits. The greatest weight is 35 times the last one that counts,
so a distance far below the greatest number does not go beyond it on the way. -/
theorem takeDistance?_digits (k bias q : Nat) {weight sum : Nat} (hweight : 0 < weight)
    (hfit : 36 * (sum + q * weight) ≤ greatest) (s : List Char) :
    takeDistance? k bias weight sum (digits k bias q ++ s) = some (sum + q * weight, s) := by
  induction q using Nat.strongRecOn generalizing k weight sum with
  | ind q ih =>
    have hbounds := threshold_bounds k bias
    rw [digits]
    generalize ht : threshold k bias = t at hbounds ⊢
    by_cases hlt : q < t
    · have hsum : ¬ greatest < sum + q * weight := by omega
      rw [dif_pos hlt, List.singleton_append, takeDistance?, digitValue?_digit q (by omega)]
      dsimp only
      rw [ht, if_neg hsum, if_pos hlt]
    · have hmod : (q - t) % (36 - t) < 36 - t := Nat.mod_lt _ (by omega)
      have hless : (q - t) / (36 - t) < q :=
        Nat.lt_of_le_of_lt (Nat.div_le_self _ _) (by omega)
      -- what is left of the distance has the greater weight
      have hsplit : t + (q - t) % (36 - t) + (36 - t) * ((q - t) / (36 - t)) = q := by
        have := Nat.mod_add_div (q - t) (36 - t)
        omega
      have htotal : sum + (t + (q - t) % (36 - t)) * weight +
          (q - t) / (36 - t) * (weight * (36 - t)) = sum + q * weight := by
        conv_rhs => rw [← hsplit]
        ring
      have hsum : ¬ greatest < sum + (t + (q - t) % (36 - t)) * weight := by omega
      have hnext : ¬ greatest < weight * (36 - t) := by
        have hone : weight ≤ q * weight := Nat.le_mul_of_pos_left weight (by omega)
        have hmul : weight * (36 - t) ≤ weight * 36 := Nat.mul_le_mul_left weight (by omega)
        omega
      rw [dif_neg hlt, List.cons_append, takeDistance?, digitValue?_digit _ (by omega)]
      dsimp only
      rw [ht, if_neg hsum, if_neg (by omega), if_neg hnext,
        ih _ hless (k + 36) (Nat.mul_pos hweight (by omega)) (by rwa [htotal]), htotal]

theorem one_le_length_digits (k bias q : Nat) : 1 ≤ (digits k bias q).length := by
  rw [digits]
  split <;> simp

/-- From 911 on a distance takes three digits, whatever the thresholds are. -/
theorem three_le_length_digits (k bias : Nat) (h : 911 ≤ q) : 3 ≤ (digits k bias q).length := by
  have hfirst := threshold_bounds k bias
  have hsecond := threshold_bounds (k + 36) bias
  have hleft : 26 ≤ (q - threshold k bias) / (36 - threshold k bias) := by
    rw [Nat.le_div_iff_mul_le (by omega)]
    omega
  rw [digits, dif_neg (by omega), digits, dif_neg (by omega), List.length_cons, List.length_cons]
  exact Nat.add_le_add_right (one_le_length_digits _ _ _) 2

/-! ## Characters at the end of a label -/

/-- The code of characters that are put behind a label of `n` characters. The last character
before them has the code point `last`. -/
def codeBehind (last n bias : Nat) : List Char → List Char
  | [] => []
  | c :: s =>
    let distance := (c.toNat - last) * (n + 1)
    digits 36 bias distance ++ codeBehind c.toNat (n + 1) (adapt distance (n + 1) (n == 0)) s

/-- The characters stand in the order of their code points. -/
def Ascending (s : List Char) : Prop := s.Pairwise fun c d => c.toNat < d.toNat

theorem foldl_pass_of_lt (h : ∀ c ∈ s, c.toNat < n) :
    s.foldl (pass n) st = { st with delta := st.delta + s.length } := by
  induction s generalizing st with
  | nil => rfl
  | cons c s ih =>
      rw [List.foldl_cons, pass, if_pos (h c List.mem_cons_self),
        ih fun d hd => h d (List.mem_cons_of_mem c hd), List.length_cons]
      dsimp only
      rw [Nat.add_assoc, Nat.add_comm 1]

theorem foldl_pass_of_gt (h : ∀ c ∈ s, n < c.toNat) : s.foldl (pass n) st = st := by
  induction s with
  | nil => rfl
  | cons c s ih =>
      have hc := h c List.mem_cons_self
      rw [List.foldl_cons, pass, if_neg (by omega), if_neg (by omega),
        ih fun d hd => h d (List.mem_cons_of_mem c hd)]

/-- All characters in front of the next one are passed, then it is inserted. -/
theorem foldl_pass_append (h : Ascending (done ++ c :: rest)) :
    (done ++ c :: rest).foldl (pass c.toNat) st =
      { delta := 0
        bias := adapt (st.delta + done.length) (st.handled + 1) st.isFirst
        handled := st.handled + 1
        isFirst := false
        code := st.code ++ digits 36 st.bias (st.delta + done.length) } := by
  obtain ⟨-, hrest, hcross⟩ := List.pairwise_append.mp h
  have hbefore : ∀ d ∈ done, d.toNat < c.toNat := fun d hd => hcross d hd c List.mem_cons_self
  have hbehind : ∀ d ∈ rest, c.toNat < d.toNat := (List.pairwise_cons.mp hrest).1
  rw [List.foldl_append, foldl_pass_of_lt hbefore, List.foldl_cons, pass,
    if_neg (Nat.lt_irrefl _), if_pos rfl, foldl_pass_of_gt hbehind]

theorem code_insertAll {start : Nat} (h : Ascending (done ++ rest))
    (hhandled : st.handled = done.length) (hfirst : st.isFirst = (done.length == 0))
    (hdistance : ∀ c ∈ rest.head?, st.delta + (c.toNat - start) * (done.length + 1) + done.length =
      (c.toNat - last) * (done.length + 1)) :
    (insertAll (done ++ rest) start st (rest.map Char.toNat)).code =
      st.code ++ codeBehind last done.length st.bias rest := by
  induction rest generalizing done last start st with
  | nil => simp [insertAll, codeBehind]
  | cons c rest ih =>
      have hbehind : ∀ d ∈ rest, c.toNat < d.toNat :=
        (List.pairwise_cons.mp (List.pairwise_append.mp h).2.1).1
      rw [List.map_cons, insertAll, foldl_pass_append h]
      dsimp only
      rw [hhandled, hfirst, hdistance c rfl]
      rw [List.append_cons] at h ⊢
      have hlength : (done ++ [c]).length = done.length + 1 := by simp
      have hnext : ∀ d ∈ rest.head?,
          0 + 1 + (d.toNat - (c.toNat + 1)) * ((done ++ [c]).length + 1) + (done ++ [c]).length =
            (d.toNat - c.toNat) * ((done ++ [c]).length + 1) := by
        intro d hd
        have hlt := hbehind d (List.mem_of_mem_head? hd)
        obtain ⟨gap, hgap⟩ : ∃ gap, d.toNat = c.toNat + 1 + gap := Nat.exists_eq_add_of_le hlt
        have hbefore : d.toNat - (c.toNat + 1) = gap := by omega
        have hfrom : d.toNat - c.toNat = gap + 1 := by omega
        rw [hbefore, hfrom]
        ring
      rw [ih h hlength.symm (by simp) hnext, hlength, List.append_assoc]
      rfl

theorem eraseDups_of_pairwise {ns : List Nat} (h : ns.Pairwise (· < ·)) : ns.eraseDups = ns := by
  induction ns with
  | nil => exact List.eraseDups_nil
  | cons n ns ih =>
      obtain ⟨hn, hns⟩ := List.pairwise_cons.mp h
      have hfilter : ns.filter (fun m => !m == n) = ns :=
        List.filter_eq_self.mpr fun m hm => by simpa using Nat.ne_of_gt (hn m hm)
      rw [List.eraseDups_cons, hfilter, ih hns]

/-- The code of an ascending label without ASCII characters. -/
theorem encode_of_ascending (h : Ascending label) (hcodes : ∀ c ∈ label, 128 ≤ c.toNat) :
    encode label = codeBehind 128 0 72 label := by
  have hascii : label.filter (·.toNat < 128) = [] :=
    List.filter_eq_nil_iff.mpr fun c hc => by simpa using hcodes c hc
  have hothers : label.filter (128 ≤ ·.toNat) = label :=
    List.filter_eq_self.mpr fun c hc => by simpa using hcodes c hc
  have hlt : (label.map Char.toNat).Pairwise (· < ·) := List.pairwise_map.mpr h
  have hsorted : (label.map Char.toNat).mergeSort = label.map Char.toNat :=
    List.mergeSort_of_pairwise (hlt.imp fun hab => by simpa using Nat.le_of_lt hab)
  have hcode : (insertAll ([] ++ label) 128 ⟨0, 72, 0, true, []⟩ (label.map Char.toNat)).code =
      [] ++ codeBehind 128 0 72 label :=
    code_insertAll (by simpa using h) rfl rfl (by simp)
  rw [encode, hascii, hothers, eraseDups_of_pairwise hlt, hsorted]
  simpa using hcode

/-! ## Reading -/

/-- What is read at the front of a code is inserted. -/
theorem insertCoded_of_takeDistance? {i i' : Nat} {code : List Char}
    (htake : takeDistance? 36 bias 1 i code = some (i', s))
    (hcode : last + i' / (label.length + 1) = c.toNat) :
    insertCoded last i bias label code =
      insertCoded c.toNat (i' % (label.length + 1) + 1)
        (adapt (i' - i) (label.length + 1) (i == 0)) (label.insertIdx (i' % (label.length + 1)) c)
        s := by
  rw [insertCoded]
  split
  · next hnone =>
    rw [htake] at hnone
    cases hnone
  · next hsome =>
    rw [htake] at hsome
    cases hsome
    have hvalid : c.toNat.isValidChar := c.valid
    dsimp only
    rw [hcode, if_pos hvalid, Char.ofNat_toNat]

/-- A distance that leads to the end of the label puts a character there. -/
theorem insertCoded_digits (hlast : last ≤ c.toNat)
    (hfit : 36 * (done.length + (c.toNat - last) * (done.length + 1)) ≤ greatest) :
    insertCoded last done.length bias done
        (digits 36 bias ((c.toNat - last) * (done.length + 1)) ++ s) =
      insertCoded c.toNat (done.length + 1)
        (adapt ((c.toNat - last) * (done.length + 1)) (done.length + 1) (done.length == 0))
        (done ++ [c]) s := by
  have htake := takeDistance?_digits 36 bias ((c.toNat - last) * (done.length + 1)) Nat.one_pos
    (by rwa [Nat.mul_one]) s
  rw [Nat.mul_one] at htake
  have hcode : last + (done.length + (c.toNat - last) * (done.length + 1)) / (done.length + 1) =
      c.toNat := by
    rw [Nat.add_mul_div_right _ _ (Nat.succ_pos _), Nat.div_eq_of_lt (Nat.lt_succ_self _)]
    omega
  rw [insertCoded_of_takeDistance? htake hcode, Nat.add_mul_mod_self_right,
    Nat.mod_eq_of_lt (Nat.lt_succ_self _), List.insertIdx_length_self, Nat.add_sub_cancel_left]

theorem insertCoded_codeBehind (bias : Nat) (h : Ascending (done ++ rest))
    (hlast : ∀ c ∈ rest, last ≤ c.toNat) (hcodes : ∀ c ∈ rest, c.toNat < 65536)
    (hlength : (done ++ rest).length ≤ 1000) :
    insertCoded last done.length bias done (codeBehind last done.length bias rest) =
      some (done ++ rest) := by
  induction rest generalizing done last bias with
  | nil =>
      rw [codeBehind, insertCoded]
      simp [takeDistance?]
  | cons c rest ih =>
      have hc := hlast c List.mem_cons_self
      have hcode := hcodes c List.mem_cons_self
      have hcount : done.length < 1000 := by
        rw [List.length_append, List.length_cons] at hlength
        omega
      have hdistance : (c.toNat - last) * (done.length + 1) ≤ 65536 * 1000 :=
        Nat.mul_le_mul (by omega) hcount
      have hbehind : ∀ d ∈ rest, c.toNat < d.toNat :=
        (List.pairwise_cons.mp (List.pairwise_append.mp h).2.1).1
      rw [List.append_cons] at h hlength ⊢
      rw [codeBehind, insertCoded_digits hc (by rw [greatest]; omega)]
      have hnext := ih (adapt ((c.toNat - last) * (done.length + 1)) (done.length + 1)
        (done.length == 0)) h (fun d hd => Nat.le_of_lt (hbehind d hd))
        (fun d hd => hcodes d (List.mem_cons_of_mem c hd)) hlength
      rwa [List.length_append, List.length_singleton] at hnext

theorem ofDigits_codeBehind (last n bias : Nat) (s : List Char) :
    OfDigits (codeBehind last n bias s) := by
  induction s generalizing last n bias with
  | nil => exact fun _ hc => absurd hc List.not_mem_nil
  | cons c s ih =>
      intro d hd
      rcases List.mem_append.mp hd with hd | hd
      · exact ofDigits_digits _ _ _ d hd
      · exact ih _ _ _ d hd

/-- An ascending label without ASCII characters is read from its code. -/
theorem decode?_encode (h : Ascending label)
    (hcodes : ∀ c ∈ label, 128 ≤ c.toNat ∧ c.toNat < 65536) (hlength : label.length ≤ 1000) :
    decode? (encode label) = some label := by
  have hcode := encode_of_ascending h fun c hc => (hcodes c hc).1
  have hhyphen : '-' ∉ codeBehind 128 0 72 label := by
    intro hmem
    obtain ⟨n, hn, hdigit⟩ := ofDigits_codeBehind 128 0 72 label '-' hmem
    have hother : ∀ n < 36, '-' ≠ digit n := by decide +kernel
    exact hother n hn hdigit
  rw [hcode, decode?, Text.splitLast?_of_not_mem hhyphen]
  have happend : Ascending ([] ++ label) := h
  exact insertCoded_codeBehind 72 happend (fun c hc => (hcodes c hc).1)
    (fun c hc => (hcodes c hc).2) hlength

/-! ## Lengths -/

/-- The code of characters that stand apart. Up to 45 characters, one digit may do for each. -/
theorem le_length_codeBehind (n bias : Nat) (h : s.Pairwise fun c d => c.toNat + 20 ≤ d.toNat)
    (hlast : ∀ c ∈ s, last + 20 ≤ c.toNat) :
    3 * s.length ≤ (codeBehind last n bias s).length + 2 * (45 - n) := by
  induction s generalizing last n bias with
  | nil => simp
  | cons c s ih =>
      obtain ⟨hc, hs⟩ := List.pairwise_cons.mp h
      have hgap := hlast c List.mem_cons_self
      have hrest := ih (n + 1) (adapt ((c.toNat - last) * (n + 1)) (n + 1) (n == 0)) hs hc
      rw [codeBehind, List.length_cons, List.length_append]
      by_cases hn : n < 45
      · have := one_le_length_digits 36 bias ((c.toNat - last) * (n + 1))
        omega
      · have hapart : 20 ≤ c.toNat - last := by omega
        have hfar : 911 ≤ (c.toNat - last) * (n + 1) :=
          le_trans (by omega) (Nat.mul_le_mul hapart (Nat.le_refl (n + 1)))
        have := three_le_length_digits 36 bias hfar
        omega

end Punycode

end Url

end Nullness
