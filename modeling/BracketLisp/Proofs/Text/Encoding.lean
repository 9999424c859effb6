import Mathlib.Data.List.Basic

/-!
# `BracketLisp.Proofs.Text.Encoding`: the order of encoded texts

Texts compare by the codes of their first characters that differ. The bytes of their UTF-8
encodings compare alike: of two characters the one with the greater code has the greater first
byte among those that differ (`utf8EncodeChar_append_lt`), and equal characters have equal bytes.
So it makes no difference whether texts are compared as characters or as bytes
(`toUTF8_lt_iff`).
-/

set_option autoImplicit false

namespace BracketLisp.Text

open String (utf8EncodeChar)

/-- Rows of small numbers compare as bytes by the first that differ. -/
theorem ofNat_cons_lt {a b : Nat} {row others : List UInt8} (hb : b < 256) (hle : a ≤ b)
    (h : a = b → row < others) : UInt8.ofNat a :: row < UInt8.ofNat b :: others := by
  rw [List.cons_lt_cons_iff]
  rcases Nat.lt_or_eq_of_le hle with hlt | heq
  · left
    rw [UInt8.lt_iff_toNat_lt, UInt8.toNat_ofNat', UInt8.toNat_ofNat', Nat.mod_eq_of_lt hb,
      Nat.mod_eq_of_lt (Nat.lt_trans hlt hb)]
    exact hlt
  · exact .inr ⟨congrArg UInt8.ofNat heq, h heq⟩

/-- No character has a code beyond those of Unicode. -/
theorem toNat_char_lt (c : Char) : c.val.toNat < 1114112 := by
  have hvalid : c.val.toNat < 55296 ∨ 57343 < c.val.toNat ∧ c.val.toNat < 1114112 := c.valid
  omega

/-- A lesser character has the lesser bytes, whatever follows. -/
theorem utf8EncodeChar_append_lt {c d : Char} (h : c < d) (row others : List UInt8) :
    utf8EncodeChar c ++ row < utf8EncodeChar d ++ others := by
  have hlt : c.val.toNat < d.val.toNat := h
  have hbound := toNat_char_lt d
  simp only [utf8EncodeChar]
  generalize c.val.toNat = v at *
  generalize d.val.toNat = w at *
  -- With more bytes the first one is greater. With as many, the digits of the codes compare.
  by_cases hv₁ : v ≤ 127
  · rw [if_pos hv₁]
    split
    · exact ofNat_cons_lt (by omega) (by omega) fun _ => by omega
    · split
      · exact ofNat_cons_lt (by omega) (by omega) fun _ => by omega
      · split <;> exact ofNat_cons_lt (by omega) (by omega) fun _ => by omega
  · have hw₁ : ¬w ≤ 127 := by omega
    rw [if_neg hv₁, if_neg hw₁]
    by_cases hv₂ : v ≤ 2047
    · rw [if_pos hv₂]
      split
      · exact ofNat_cons_lt (by omega) (by omega) fun _ =>
          ofNat_cons_lt (by omega) (by omega) fun _ => by omega
      · split <;> exact ofNat_cons_lt (by omega) (by omega) fun _ => by omega
    · have hw₂ : ¬w ≤ 2047 := by omega
      rw [if_neg hv₂, if_neg hw₂]
      by_cases hv₃ : v ≤ 65535
      · rw [if_pos hv₃]
        split
        · exact ofNat_cons_lt (by omega) (by omega) fun _ =>
            ofNat_cons_lt (by omega) (by omega) fun _ =>
              ofNat_cons_lt (by omega) (by omega) fun _ => by omega
        · exact ofNat_cons_lt (by omega) (by omega) fun _ => by omega
      · have hw₃ : ¬w ≤ 65535 := by omega
        rw [if_neg hv₃, if_neg hw₃]
        refine ofNat_cons_lt (by omega) (by omega) fun _ => ?_
        have h₃ : v / 262144 = w / 262144 := by omega
        refine ofNat_cons_lt (by omega) (by omega) fun _ => ?_
        have h₂ : v / 4096 = w / 4096 := by omega
        refine ofNat_cons_lt (by omega) (by omega) fun _ => ?_
        have h₁ : v / 64 = w / 64 := by omega
        exact ofNat_cons_lt (by omega) (by omega) fun _ => by omega

theorem utf8EncodeChar_ne_nil (c : Char) : utf8EncodeChar c ≠ [] := by
  simp only [utf8EncodeChar]
  split
  · exact nofun
  · split
    · exact nofun
    · split <;> exact nofun

/-- What two rows begin with alike does not count. -/
theorem append_lt_append_iff (front row others : List UInt8) :
    front ++ row < front ++ others ↔ row < others := by
  induction front with
  | nil => exact Iff.rfl
  | cons byte front ih =>
    rw [List.cons_append, List.cons_append, List.cons_lt_cons_iff, ih]
    exact ⟨fun h => h.elim (fun hlt => absurd hlt (UInt8.lt_irrefl _)) And.right,
      fun h => .inr ⟨rfl, h⟩⟩

/-- Encoded characters compare as the characters do. -/
theorem flatMap_utf8EncodeChar_lt_iff (s t : List Char) :
    s.flatMap utf8EncodeChar < t.flatMap utf8EncodeChar ↔ s < t := by
  induction s generalizing t with
  | nil =>
    cases t with
    | nil => exact iff_of_false (List.lt_irrefl _) (List.lt_irrefl _)
    | cons d t =>
      obtain ⟨first, rest, hencode⟩ := List.exists_cons_of_ne_nil (utf8EncodeChar_ne_nil d)
      rw [List.flatMap_nil, List.flatMap_cons, hencode, List.cons_append]
      exact iff_of_true (List.nil_lt_cons ..) (List.nil_lt_cons ..)
  | cons c s ih =>
    cases t with
    | nil => exact iff_of_false (List.not_lt_nil _) (List.not_lt_nil _)
    | cons d t =>
      rw [List.flatMap_cons, List.flatMap_cons, List.cons_lt_cons_iff]
      rcases Std.lt_trichotomy c d with hlt | rfl | hgt
      · exact iff_of_true (utf8EncodeChar_append_lt hlt _ _) (.inl hlt)
      · rw [append_lt_append_iff, ih]
        exact ⟨fun h => .inr ⟨rfl, h⟩,
          fun h => h.elim (fun hlt => absurd hlt (Char.lt_irrefl _)) And.right⟩
      · refine iff_of_false (List.lt_asymm (utf8EncodeChar_append_lt hgt _ _)) ?_
        rintro (hlt | ⟨rfl, -⟩)
        · exact Char.lt_asymm hgt hlt
        · exact Char.lt_irrefl _ hgt

/-- Strings compare as their encodings do. -/
theorem toUTF8_lt_iff (s t : String) : s.toUTF8.data.toList < t.toUTF8.data.toList ↔ s < t := by
  have hbytes (s : String) : s.toUTF8.data.toList = s.toList.flatMap utf8EncodeChar := by
    rw [String.toUTF8_eq_toByteArray, ← String.utf8Encode_toList, List.utf8Encode,
      List.data_toByteArray]
  rw [hbytes, hbytes, flatMap_utf8EncodeChar_lt_iff, String.lt_iff]

/-- Characters compare as their codes do. -/
theorem map_toNat_lt_iff (s t : List Char) : s.map Char.toNat < t.map Char.toNat ↔ s < t := by
  have hcodes {s t : List Char} (h : s < t) : s.map Char.toNat < t.map Char.toNat :=
    List.map_lt (fun _ _ h => h) h
  refine ⟨fun h => ?_, hcodes⟩
  rcases Std.lt_trichotomy s t with hlt | rfl | hgt
  · exact hlt
  · exact absurd h (List.lt_irrefl _)
  · exact absurd h (List.lt_asymm (hcodes hgt))

end BracketLisp.Text
