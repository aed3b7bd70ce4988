import Dusty.WebSocket

/-! # Cutting UTF-8

A text that `utf8ValidateSlice` takes is a sequence of characters of one to four bytes.  Only the first
byte of a character is no continuation byte, so that one byte tells where the text may be cut
(`utf8ValidateSlice_take`). -/

namespace Dusty

/-- A continuation byte of UTF-8. -/
def isContinuation (b : UInt8) : Bool := utf8ValidateSlice.tail b

/-- One character: it can be put in front of any text and cannot be cut, and only its first byte is
no continuation byte. -/
structure Utf8Char (c : Bytes) : Prop where
  ne_nil : c ≠ []
  append : ∀ text, utf8ValidateSlice (c ++ text) = utf8ValidateSlice text
  cut : ∀ n, 0 < n → n < c.length → utf8ValidateSlice (c.take n) = false
  first : ∀ b ∈ c.head?, isContinuation b = false
  others : ∀ b ∈ c.tail, isContinuation b = true

section chars
variable {a b c d : UInt8} {text : Bytes}

theorem isContinuation_iff : isContinuation a = true ↔ 0x80 ≤ a.toNat ∧ a.toNat ≤ 0xBF := by
  unfold isContinuation utf8ValidateSlice.tail
  rw [Bool.and_eq_true, decide_eq_true_iff, decide_eq_true_iff]
  exact Iff.rfl

theorem isContinuation_eq_false (h : a.toNat < 0x80 ∨ 0xC2 ≤ a.toNat) : isContinuation a = false := by
  rw [Bool.eq_false_iff, Ne, isContinuation_iff]
  omega

theorem utf8ValidateSlice_low (h : a < 0x80) (text : Bytes) :
    utf8ValidateSlice (a :: text) = utf8ValidateSlice text := by
  rw [utf8ValidateSlice.eq_def]
  exact if_pos h

theorem utf8ValidateSlice_two (h : 0xC2 ≤ a ∧ a ≤ 0xDF) (text : Bytes) :
    utf8ValidateSlice (a :: b :: text) = (isContinuation b && utf8ValidateSlice text) := by
  have hlow : ¬a < 0x80 := UInt8.not_lt.mpr (UInt8.le_trans (by decide) h.1)
  rw [utf8ValidateSlice.eq_def]
  simp only [if_neg hlow, if_pos h]
  rfl

theorem utf8ValidateSlice_three (h : 0xE0 ≤ a ∧ a ≤ 0xEF) (text : Bytes) :
    utf8ValidateSlice (a :: b :: c :: text) = (decide ((if a = 0xE0 then 0xA0 else 0x80) ≤ b) &&
      decide (b ≤ if a = 0xED then 0x9F else 0xBF) && isContinuation c && utf8ValidateSlice text) := by
  have hlow : ¬a < 0x80 := UInt8.not_lt.mpr (UInt8.le_trans (by decide) h.1)
  have htwo : ¬(0xC2 ≤ a ∧ a ≤ 0xDF) := fun htwo => absurd (UInt8.le_trans h.1 htwo.2) (by decide)
  rw [utf8ValidateSlice.eq_def]
  simp only [if_neg hlow, if_neg htwo, if_pos h]
  rfl

theorem utf8ValidateSlice_four (h : 0xF0 ≤ a) (text : Bytes) :
    utf8ValidateSlice (a :: b :: c :: d :: text) = (decide (0xF0 ≤ a) && decide (a ≤ 0xF4) &&
      decide ((if a = 0xF0 then 0x90 else 0x80) ≤ b) && decide (b ≤ if a = 0xF4 then 0x8F else 0xBF) &&
        isContinuation c && isContinuation d && utf8ValidateSlice text) := by
  have hlow : ¬a < 0x80 := UInt8.not_lt.mpr (UInt8.le_trans (by decide) h)
  have htwo : ¬(0xC2 ≤ a ∧ a ≤ 0xDF) := fun htwo => absurd (UInt8.le_trans h htwo.2) (by decide)
  have hthree : ¬(0xE0 ≤ a ∧ a ≤ 0xEF) := fun hthree => absurd (UInt8.le_trans h hthree.2) (by decide)
  rw [utf8ValidateSlice.eq_def]
  simp only [if_neg hlow, if_neg htwo, if_neg hthree]
  rfl

theorem utf8ValidateSlice_cut_one (h : ¬a < 0x80) : utf8ValidateSlice [a] = false := by
  rw [utf8ValidateSlice.eq_def]
  exact if_neg h

theorem utf8ValidateSlice_cut_two (h : 0xE0 ≤ a) : utf8ValidateSlice [a, b] = false := by
  have hlow : ¬a < 0x80 := UInt8.not_lt.mpr (UInt8.le_trans (by decide) h)
  have htwo : ¬(0xC2 ≤ a ∧ a ≤ 0xDF) := fun htwo => absurd (UInt8.le_trans h htwo.2) (by decide)
  rw [utf8ValidateSlice.eq_def]
  simp only [if_neg hlow, if_neg htwo]

theorem utf8ValidateSlice_cut_three (h : 0xF0 ≤ a) : utf8ValidateSlice [a, b, c] = false := by
  have hlow : ¬a < 0x80 := UInt8.not_lt.mpr (UInt8.le_trans (by decide) h)
  have htwo : ¬(0xC2 ≤ a ∧ a ≤ 0xDF) := fun htwo => absurd (UInt8.le_trans h htwo.2) (by decide)
  have hthree : ¬(0xE0 ≤ a ∧ a ≤ 0xEF) := fun hthree => absurd (UInt8.le_trans h hthree.2) (by decide)
  rw [utf8ValidateSlice.eq_def]
  simp only [if_neg hlow, if_neg htwo, if_neg hthree]

theorem isContinuation_of_ge (h : 0xC2 ≤ a) : isContinuation a = false :=
  isContinuation_eq_false (.inr (UInt8.le_iff_toNat_le.mp h))

theorem utf8Char_low (h : a < 0x80) : Utf8Char [a] where
  ne_nil := List.cons_ne_nil _ _
  append := utf8ValidateSlice_low h
  cut := fun n hn hlt => by
    rw [List.length_singleton] at hlt
    omega
  first := fun b hb => by
    cases hb
    exact isContinuation_eq_false (.inl (UInt8.lt_iff_toNat_lt.mp h))
  others := fun b hb => absurd hb List.not_mem_nil

theorem utf8Char_two (h : 0xC2 ≤ a ∧ a ≤ 0xDF) (hb : isContinuation b = true) : Utf8Char [a, b] where
  ne_nil := List.cons_ne_nil _ _
  append := fun text => (utf8ValidateSlice_two h text).trans (by rw [hb, Bool.true_and])
  cut := fun n hn hlt => by
    obtain rfl : n = 1 := by
      simp only [List.length_cons, List.length_nil] at hlt
      omega
    exact utf8ValidateSlice_cut_one (UInt8.not_lt.mpr (UInt8.le_trans (by decide) h.1))
  first := fun b hb => by
    cases hb
    exact isContinuation_of_ge h.1
  others := fun b' hb' => by
    rw [List.mem_singleton.mp hb']
    exact hb

theorem utf8Char_three (h : 0xE0 ≤ a ∧ a ≤ 0xEF)
    (hb : (if a = 0xE0 then 0xA0 else 0x80) ≤ b ∧ b ≤ if a = 0xED then 0x9F else 0xBF)
    (hc : isContinuation c = true) : Utf8Char [a, b, c] where
  ne_nil := List.cons_ne_nil _ _
  append := fun text => (utf8ValidateSlice_three h text).trans (by
    rw [decide_eq_true hb.1, decide_eq_true hb.2, hc, Bool.true_and, Bool.true_and, Bool.true_and])
  cut := fun n hn hlt => by
    obtain rfl | rfl : n = 1 ∨ n = 2 := by
      simp only [List.length_cons, List.length_nil] at hlt
      omega
    · exact utf8ValidateSlice_cut_one (UInt8.not_lt.mpr (UInt8.le_trans (by decide) h.1))
    · exact utf8ValidateSlice_cut_two h.1
  first := fun b hb => by
    cases hb
    exact isContinuation_of_ge (UInt8.le_trans (by decide) h.1)
  others := fun b' hb' => by
    rcases List.mem_cons.mp hb' with rfl | hb'
    · refine isContinuation_iff.mpr ⟨?_, ?_⟩
      · refine Nat.le_trans ?_ (UInt8.le_iff_toNat_le.mp hb.1)
        split <;> decide
      · refine Nat.le_trans (UInt8.le_iff_toNat_le.mp hb.2) ?_
        split <;> decide
    · rw [List.mem_singleton.mp hb']
      exact hc

theorem utf8Char_four (h : 0xF0 ≤ a ∧ a ≤ 0xF4)
    (hb : (if a = 0xF0 then 0x90 else 0x80) ≤ b ∧ b ≤ if a = 0xF4 then 0x8F else 0xBF)
    (hc : isContinuation c = true) (hd : isContinuation d = true) : Utf8Char [a, b, c, d] where
  ne_nil := List.cons_ne_nil _ _
  append := fun text => (utf8ValidateSlice_four h.1 text).trans (by
    rw [decide_eq_true h.1, decide_eq_true h.2, decide_eq_true hb.1, decide_eq_true hb.2, hc, hd]
    exact Bool.true_and _)
  cut := fun n hn hlt => by
    obtain rfl | rfl | rfl : n = 1 ∨ n = 2 ∨ n = 3 := by
      simp only [List.length_cons, List.length_nil] at hlt
      omega
    · exact utf8ValidateSlice_cut_one (UInt8.not_lt.mpr (UInt8.le_trans (by decide) h.1))
    · exact utf8ValidateSlice_cut_two (UInt8.le_trans (by decide) h.1)
    · exact utf8ValidateSlice_cut_three h.1
  first := fun b hb => by
    cases hb
    exact isContinuation_of_ge (UInt8.le_trans (by decide) h.1)
  others := fun b' hb' => by
    rcases List.mem_cons.mp hb' with rfl | hb'
    · refine isContinuation_iff.mpr ⟨?_, ?_⟩
      · refine Nat.le_trans ?_ (UInt8.le_iff_toNat_le.mp hb.1)
        split <;> decide
      · refine Nat.le_trans (UInt8.le_iff_toNat_le.mp hb.2) ?_
        split <;> decide
    · rcases List.mem_cons.mp hb' with rfl | hb'
      · exact hc
      · rw [List.mem_singleton.mp hb']
        exact hd

theorem exists_utf8Char (h : utf8ValidateSlice (a :: text) = true) :
    ∃ c rest, a :: text = c ++ rest ∧ Utf8Char c ∧ utf8ValidateSlice rest = true := by
  by_cases hlow : a < 0x80
  · exact ⟨[a], text, rfl, utf8Char_low hlow, utf8ValidateSlice_low hlow text ▸ h⟩
  rw [utf8ValidateSlice.eq_def] at h
  simp only [if_neg hlow] at h
  cases text with
  | nil => cases h
  | cons b text =>
      simp only at h
      split at h
      · next htwo =>
          obtain ⟨hb, hrest⟩ := (Bool.and_eq_true _ _).mp h
          exact ⟨[a, b], text, rfl, utf8Char_two htwo hb, hrest⟩
      · cases text with
        | nil => cases h
        | cons c text =>
            simp only at h
            split at h
            · next hthree =>
                simp only [Bool.and_eq_true, decide_eq_true_eq] at h
                obtain ⟨⟨⟨hb, hb'⟩, hc⟩, hrest⟩ := h
                exact ⟨[a, b, c], text, rfl, utf8Char_three hthree ⟨hb, hb'⟩ hc, hrest⟩
            · cases text with
              | nil => cases h
              | cons d text =>
                  simp only [Bool.and_eq_true, decide_eq_true_eq] at h
                  obtain ⟨⟨⟨⟨⟨⟨ha, ha'⟩, hb⟩, hb'⟩, hc⟩, hd⟩, hrest⟩ := h
                  exact ⟨[a, b, c, d], text, rfl, utf8Char_four ⟨ha, ha'⟩ ⟨hb, hb'⟩ hc hd, hrest⟩

/-- **Where valid text may be cut**: behind its end, or in front of a byte that is no continuation
byte. -/
theorem utf8ValidateSlice_take {text : Bytes} (h : utf8ValidateSlice text = true) (n : ℕ) :
    utf8ValidateSlice (text.take n) = true ↔ ∀ b ∈ text[n]?, isContinuation b = false := by
  induction hlen : text.length using Nat.strong_induction_on generalizing text n with
  | _ len ih =>
      cases text with
      | nil => simp [h]
      | cons a text =>
          obtain ⟨char, rest, heq, hc, hrest⟩ := exists_utf8Char h
          rw [heq] at hlen ⊢
          have hpos : 0 < char.length := List.length_pos_of_ne_nil hc.ne_nil
          rcases Nat.lt_or_ge n char.length with hn | hn
          · rw [List.take_append_of_le_length hn.le, List.getElem?_append_left hn]
            rcases Nat.eq_zero_or_pos n with rfl | hzero
            · refine iff_of_true rfl fun b hb => hc.first b ?_
              rw [List.head?_eq_getElem?]
              exact hb
            · rw [hc.cut n hzero hn]
              refine iff_of_false Bool.false_ne_true fun hall => ?_
              have hb := List.getElem?_eq_getElem hn
              have htail : char[n] ∈ char.tail := by
                rw [List.mem_iff_getElem]
                exact ⟨n - 1, by rw [List.length_tail]; omega, by
                  rw [List.getElem_tail]
                  congr 1
                  omega⟩
              have := hall _ hb
              rw [hc.others _ htail] at this
              cases this
          · rw [List.take_append, List.take_of_length_le hn, hc.append, List.getElem?_append_right hn]
            rw [List.length_append] at hlen
            exact ih rest.length (by omega) hrest (n - char.length) rfl

end chars
end Dusty
