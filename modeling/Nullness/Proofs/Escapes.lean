import Mathlib
import Nullness.Url.Percent

/-!
# What encoding leaves

A text that is encoded holds no character of the set any more. The characters that come with an
escape are a percent sign and hexadecimal digits in upper case, which no part of a URL encodes.
So encoding a second time changes nothing, and a mark that ends a part of a URL does not get into
the part by being encoded.

- `Url.Clear`: a text without characters of a set.
- `Url.mem_encode`: where the characters of an encoded text come from.
- `Url.decode?_of_not_mem`: a text without a percent sign is what it stands for.
-/

namespace Nullness

namespace Url

variable {set : EncodeSet} {s t : List Char} {c : Char}

/-- No character of the text belongs to the set. -/
def Clear (set : EncodeSet) (s : List Char) : Prop := ∀ c ∈ s, set c = false

/-- The set leaves alone what escapes are made of. -/
def SparesEscapes (set : EncodeSet) : Prop := set '%' = false ∧ ∀ n < 16, set (hexDigit n) = false

instance : Decidable (SparesEscapes set) := inferInstanceAs (Decidable (_ ∧ _))

theorem Clear.mono {set' : EncodeSet} (hsub : ∀ c, set' c = true → set c = true)
    (h : Clear set s) : Clear set' s := by
  intro c hc
  have hnot : set c ≠ true := by simp [h c hc]
  exact Bool.eq_false_iff.mpr fun hset' => hnot (hsub c hset')

/-- A fact about ASCII characters can be checked on each of them. -/
theorem of_ascii {P : Char → Prop} (h : ∀ n < 128, P (Char.ofNat n)) (hc : c.toNat < 128) : P c :=
  Char.ofNat_toNat c ▸ h c.toNat hc

theorem lt_of_isAlpha (h : c.isAlpha = true) : c.toNat < 128 := by
  simp only [Char.isAlpha, Char.isUpper, Char.isLower, ge_iff_le, Bool.or_eq_true, Bool.and_eq_true,
    decide_eq_true_eq, UInt32.le_iff_toNat_le] at h
  have hval : c.val.toNat = c.toNat := rfl
  rcases h with ⟨-, h⟩ | ⟨-, h⟩
  · exact Nat.lt_of_le_of_lt (hval ▸ h) (by decide)
  · exact Nat.lt_of_le_of_lt (hval ▸ h) (by decide)

/-! ## Encoding -/

theorem encode_of_clear (h : Clear set s) : encode set s = s := by
  induction s with
  | nil => rfl
  | cons c s ih =>
      have hc : encodeChar set c = [c] := by simp [encodeChar, h c List.mem_cons_self]
      rw [encode, List.flatMap_cons, hc]
      exact congrArg (c :: ·) (ih fun d hd => h d (List.mem_cons_of_mem c hd))

theorem encode_append (set : EncodeSet) (s t : List Char) :
    encode set (s ++ t) = encode set s ++ encode set t :=
  List.flatMap_append

/-- A character of an encoded text is one of the text outside of the set, or belongs to an
escape. -/
theorem mem_encode (h : c ∈ encode set s) :
    (c ∈ s ∧ set c = false) ∨ c = '%' ∨ ∃ n < 16, c = hexDigit n := by
  obtain ⟨d, hd, hc⟩ := List.mem_flatMap.mp h
  rw [encodeChar] at hc
  split at hc
  · obtain ⟨b, -, hb⟩ := List.mem_flatMap.mp hc
    have hlt : b.toNat < 256 := b.toNat_lt
    simp only [encodeByte, List.mem_cons, List.not_mem_nil, or_false] at hb
    rcases hb with rfl | rfl | rfl
    · exact .inr (.inl rfl)
    · exact .inr (.inr ⟨_, by omega, rfl⟩)
    · exact .inr (.inr ⟨_, Nat.mod_lt _ (by decide), rfl⟩)
  · next hset =>
    obtain rfl := List.mem_singleton.mp hc
    exact .inl ⟨hd, Bool.eq_false_iff.mpr hset⟩

/-- What holds of the characters that stay and of those of escapes holds of all. -/
theorem forall_mem_encode {P : Char → Prop} (hs : ∀ c ∈ s, set c = false → P c)
    (hpercent : P '%') (hdigit : ∀ n < 16, P (hexDigit n)) : ∀ c ∈ encode set s, P c := by
  intro c hc
  rcases mem_encode hc with ⟨hmem, hset⟩ | rfl | ⟨n, hn, rfl⟩
  · exact hs c hmem hset
  · exact hpercent
  · exact hdigit n hn

theorem encodeChar_ne_nil (set : EncodeSet) (c : Char) : encodeChar set c ≠ [] := by
  rw [encodeChar]
  split
  · obtain ⟨b, bs, hbytes⟩ := List.exists_cons_of_ne_nil (String.utf8EncodeChar_ne_nil (c := c))
    simp [hbytes, encodeByte]
  · exact List.cons_ne_nil c []

/-- The first character of an encoded text comes from the first one of the text. -/
theorem exists_of_mem_head?_encode (h : c ∈ (encode set s).head?) :
    ∃ d ∈ s.head?, c ∈ encode set [d] := by
  cases s with
  | nil => cases h
  | cons d s =>
      obtain ⟨e, es, he⟩ := List.exists_cons_of_ne_nil (encodeChar_ne_nil set d)
      rw [encode, List.flatMap_cons, he] at h
      cases h
      exact ⟨d, rfl, by simp [encode, he]⟩

/-- The last character of an encoded text comes from the last one of the text. -/
theorem exists_of_mem_getLast?_encode (h : c ∈ (encode set s).getLast?) :
    ∃ d ∈ s.getLast?, c ∈ encode set [d] := by
  rcases List.eq_nil_or_concat s with rfl | ⟨s, d, rfl⟩
  · cases h
  · rw [List.concat_eq_append] at h ⊢
    have hne : encode set [d] ≠ [] := by simpa [encode] using encodeChar_ne_nil set d
    rw [encode_append, List.getLast?_append, List.getLast?_eq_some_getLast hne, Option.some_or] at h
    cases h
    exact ⟨d, List.getLast?_concat, List.getLast_mem hne⟩

theorem clear_encode (h : SparesEscapes set) : Clear set (encode set s) :=
  forall_mem_encode (fun _ _ hset => hset) h.1 h.2

theorem sparesEscapes_controls : SparesEscapes controls := by decide

theorem sparesEscapes_fragmentSet : SparesEscapes fragmentSet := by decide

theorem sparesEscapes_pathSet : SparesEscapes pathSet := by decide

theorem sparesEscapes_userSet : SparesEscapes userSet := by decide

theorem sparesEscapes_querySet : SparesEscapes querySet := by decide

theorem sparesEscapes_specialQuerySet : SparesEscapes specialQuerySet := by decide

/-! ## Decoding -/

theorem decodeBytes_of_not_mem (h : '%' ∉ s) :
    decodeBytes s = s.flatMap String.utf8EncodeChar := by
  fun_induction decodeBytes s with
  | case1 => rfl
  | case2 => simp at h
  | case3 => simp at h
  | case4 c s _ ih => rw [List.flatMap_cons, ih fun hs => h (List.mem_cons_of_mem c hs)]

theorem decode?_of_not_mem (h : '%' ∉ s) : decode? s = some s := by
  have hbytes : (⟨(decodeBytes s).toArray⟩ : ByteArray) = (String.ofList s).toByteArray := by
    rw [decodeBytes_of_not_mem h]
    exact ByteArray.ext List.data_toByteArray.symm
  rw [decode?, hbytes, String.fromUTF8?, dif_pos (String.ofList s).isValidUTF8, Option.map_some]
  exact congrArg some String.toList_ofList

end Url

end Nullness
