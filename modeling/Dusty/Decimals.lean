import Dusty.Numerals

/-! # Decimal numbers

What `parseInt` makes of a text that begins with digits. -/

namespace Dusty

/-- The number that digits stand for, behind what is there. -/
def decimalFrom (acc : ℕ) (digits : Bytes) : ℕ := digits.foldl (fun acc b => acc * 10 + (b.toNat - 48)) acc

/-- Bytes from `0` to `9`. -/
def Digits (s : Bytes) : Prop := ∀ b ∈ s, 48 ≤ b ∧ b ≤ 57

theorem le_decimalFrom (acc : ℕ) (digits : Bytes) : acc ≤ decimalFrom acc digits := by
  induction digits generalizing acc with
  | nil => exact Nat.le_refl acc
  | cons b digits ih =>
      have h := ih (acc * 10 + (b.toNat - 48))
      have hstep : decimalFrom acc (b :: digits) = decimalFrom (acc * 10 + (b.toNat - 48)) digits := rfl
      omega

theorem charToDigit_digit {b : UInt8} (h : 48 ≤ b ∧ b ≤ 57) : charToDigit 10 b = some (b.toNat - 48) := by
  have hlow := UInt8.le_iff_toNat_le.mp h.1
  have hhigh := UInt8.le_iff_toNat_le.mp h.2
  have hlt : b.toNat - 48 < 10 := by
    have h₁ : b.toNat ≤ 57 := hhigh
    omega
  unfold charToDigit
  rw [if_pos h]
  exact if_pos hlt

/-- The loop of `parseInt`. -/
def parseStep (bound acc : ℕ) (c : UInt8) : Option ℕ := do
  let d ← charToDigit 10 c
  let v := acc * 10 + d
  if v < bound then some v else none

theorem foldlM_digits {digits : Bytes} (h : Digits digits) {bound acc : ℕ} (hacc : acc < bound) (rest : Bytes) :
    (digits ++ rest).foldlM (parseStep bound) acc =
      if decimalFrom acc digits < bound then rest.foldlM (parseStep bound) (decimalFrom acc digits) else none := by
  induction digits generalizing acc with
  | nil => exact (if_pos hacc).symm
  | cons b digits ih =>
      have hstep : decimalFrom acc (b :: digits) = decimalFrom (acc * 10 + (b.toNat - 48)) digits := rfl
      have hle := le_decimalFrom (acc * 10 + (b.toNat - 48)) digits
      rw [List.cons_append, List.foldlM_cons, hstep]
      unfold parseStep
      rw [charToDigit_digit (h b List.mem_cons_self)]
      show (if acc * 10 + (b.toNat - 48) < bound then some _ else none) >>= _ = _
      by_cases hlt : acc * 10 + (b.toNat - 48) < bound
      · rw [if_pos hlt]
        exact ih (fun c hc => h c (List.mem_cons_of_mem b hc)) hlt
      · rw [if_neg hlt, if_neg fun hless => hlt (Nat.lt_of_le_of_lt hle hless)]
        rfl

theorem parseInt_eq_foldlM {bound : ℕ} {b : UInt8} {rest : Bytes} (hsign : b ≠ 43 ∧ b ≠ 45) (hall : ∀ c ∈ b :: rest, c ≠ 95) :
    parseInt bound 10 (b :: rest) = (b :: rest).foldlM (parseStep bound) 0 := by
  have hfilter : (b :: rest).filter (· != 95) = b :: rest :=
    List.filter_eq_self.mpr fun c hc => bne_iff_ne.mpr (hall c hc)
  have hnot : ¬((b :: rest).head? = some 95 ∨ (b :: rest).getLast? = some 95 ∨ b :: rest = []) := by
    rintro (h | h | h)
    · exact hall b List.mem_cons_self (Option.some.inj h)
    · exact hall 95 (List.mem_of_mem_getLast? h) rfl
    · cases h
  unfold parseInt
  split
  · next heq => cases heq
  · next heq =>
      cases heq
      exact absurd rfl hsign.1
  · next heq =>
      cases heq
      exact absurd rfl hsign.2
  · unfold parseIntWithSign
    rw [if_neg hnot, hfilter]
    rfl

/-- **`parseInt` on digits** and spaces: the number, if the type has it and there are no spaces. -/
theorem parseInt_digits {bound : ℕ} (hbound : 0 < bound) {digits spaces : Bytes} (hne : digits ≠ [])
    (hdigits : Digits digits) (hspaces : ∀ b ∈ spaces, b = 32) :
    parseInt bound 10 (digits ++ spaces) =
      if decimalFrom 0 digits < bound ∧ spaces = [] then some (decimalFrom 0 digits) else none := by
  have hbytes : ∀ c ∈ digits ++ spaces, c ≠ 43 ∧ c ≠ 45 ∧ c ≠ 95 := by
    intro c hc
    rcases List.mem_append.mp hc with hc | hc
    · obtain ⟨hlow, hhigh⟩ := hdigits c hc
      refine ⟨?_, ?_, ?_⟩ <;>
      · rintro rfl
        revert hlow hhigh
        decide
    · rw [hspaces c hc]
      decide
  have hfold : parseInt bound 10 (digits ++ spaces) = (digits ++ spaces).foldlM (parseStep bound) 0 := by
    cases digits with
    | nil => exact absurd rfl hne
    | cons b rest =>
        obtain ⟨hplus, hminus, -⟩ := hbytes b List.mem_cons_self
        exact parseInt_eq_foldlM ⟨hplus, hminus⟩ fun c hc => (hbytes c hc).2.2
  rw [hfold, foldlM_digits hdigits hbound]
  by_cases hlt : decimalFrom 0 digits < bound
  · rw [if_pos hlt]
    cases spaces with
    | nil => exact (if_pos ⟨hlt, rfl⟩).symm
    | cons b rest =>
        have hb : b = 32 := hspaces b List.mem_cons_self
        have hnone : parseStep bound (decimalFrom 0 digits) 32 = none := rfl
        rw [if_neg fun hand => List.cons_ne_nil _ _ hand.2, List.foldlM_cons, hb, hnone]
        rfl
  · rw [if_neg hlt, if_neg fun hand => hlt hand.1]

end Dusty
