import Dusty.Bytes
import Mathlib.Data.Nat.Digits.Lemmas

/-! # Numbers in text

`fmtNat base n` is the text `std.fmt` writes for `{d}` (`base = 10`) and `{x}`
(`base = 16`), `readNat` reads such a text back (`readNat_fmtNat`), and `parseInt` is
`std.fmt.parseInt` for an unsigned type, with its sign and underscore rules. -/

namespace Dusty

/-- The digit `d < 16` in lower case. -/
def digitByte (d : ℕ) : UInt8 := if d < 10 then (48 + d).toUInt8 else (87 + d).toUInt8

/-- `std.fmt.charToDigit`. -/
def charToDigit (base : ℕ) (c : UInt8) : Option ℕ :=
  let value :=
    if 48 ≤ c ∧ c ≤ 57 then c.toNat - 48
    else if 65 ≤ c ∧ c ≤ 90 then c.toNat - 55
    else if 97 ≤ c ∧ c ≤ 122 then c.toNat - 87
    else base
  if value < base then some value else none

/-- A number in the given base, without leading zeros. -/
def fmtNat (base n : ℕ) : Bytes :=
  if n = 0 then [48] else (Nat.digits base n).reverse.map digitByte

/-- Read a non-empty text of digits. -/
def readNat (base : ℕ) (text : Bytes) : Option ℕ :=
  if text = [] then none
  else (text.mapM (charToDigit base)).map fun ds => Nat.ofDigits base ds.reverse

theorem charToDigit_digitByte {base d : ℕ} (hb : base ≤ 16) (hd : d < base) :
    charToDigit base (digitByte d) = some d := by
  have key : ∀ d < 16, (if 48 ≤ digitByte d ∧ digitByte d ≤ 57 then (digitByte d).toNat - 48
      else if 65 ≤ digitByte d ∧ digitByte d ≤ 90 then (digitByte d).toNat - 55
      else if 97 ≤ digitByte d ∧ digitByte d ≤ 122 then (digitByte d).toNat - 87
      else 16) = d := by decide
  unfold charToDigit
  have h := key d (by omega)
  by_cases h₁ : 48 ≤ digitByte d ∧ digitByte d ≤ 57
  · simp only [if_pos h₁] at h ⊢
    rw [h, if_pos hd]
  by_cases h₂ : 65 ≤ digitByte d ∧ digitByte d ≤ 90
  · simp only [if_neg h₁, if_pos h₂] at h ⊢
    rw [h, if_pos hd]
  by_cases h₃ : 97 ≤ digitByte d ∧ digitByte d ≤ 122
  · simp only [if_neg h₁, if_neg h₂, if_pos h₃] at h ⊢
    rw [h, if_pos hd]
  · simp only [if_neg h₁, if_neg h₂, if_neg h₃] at h
    omega

theorem mapM_charToDigit {base : ℕ} (hb : base ≤ 16) :
    ∀ ds : List ℕ, (∀ d ∈ ds, d < base) → (ds.map digitByte).mapM (charToDigit base) = some ds
  | [], _ => rfl
  | d :: ds, h => by
      have hd := charToDigit_digitByte hb (h d (by simp))
      have ih := mapM_charToDigit hb ds fun e he => h e (by simp [he])
      simp [List.mapM_cons, hd, ih]

/-- **Reading back what `std.fmt` writes.** -/
theorem readNat_fmtNat {base : ℕ} (h₁ : 1 < base) (h₂ : base ≤ 16) (n : ℕ) :
    readNat base (fmtNat base n) = some n := by
  unfold fmtNat
  split
  · case isTrue h =>
      have h0 : charToDigit base 48 = some 0 := charToDigit_digitByte (d := 0) h₂ (by omega)
      simp [readNat, List.mapM_cons, h0, h]
  · case isFalse h =>
      have hne : (Nat.digits base n).reverse.map digitByte ≠ [] := by
        simp [Nat.digits_eq_nil_iff_eq_zero, h]
      have hlt : ∀ d ∈ (Nat.digits base n).reverse, d < base := by
        intro d hd
        exact Nat.digits_lt_base h₁ (List.mem_reverse.mp hd)
      rw [readNat, if_neg hne, mapM_charToDigit h₂ _ hlt]
      simp [Nat.ofDigits_digits]

theorem fmtNat_ne_nil (base n : ℕ) : fmtNat base n ≠ [] := by
  unfold fmtNat
  split
  · simp
  · case isFalse h => simp [Nat.digits_eq_nil_iff_eq_zero, h]

/-- The bytes of a number are digits and lower case letters. -/
theorem fmtNat_bytes {base n : ℕ} (h₁ : 1 < base) (h₂ : base ≤ 16) :
    ∀ b ∈ fmtNat base n, 48 ≤ b := by
  have key : ∀ d < 16, 48 ≤ digitByte d := by decide
  intro b hb
  unfold fmtNat at hb
  split at hb
  · simp_all
  · simp only [List.map_reverse, List.mem_reverse, List.mem_map] at hb
    obtain ⟨d, hd, rfl⟩ := hb
    exact key d (lt_of_lt_of_le (Nat.digits_lt_base h₁ hd) h₂)

theorem fmtNat_digits (n : ℕ) : ∀ b ∈ fmtNat 10 n, 48 ≤ b ∧ b ≤ 57 := by
  have key : ∀ d < 10, 48 ≤ digitByte d ∧ digitByte d ≤ 57 := by decide
  intro b hb
  unfold fmtNat at hb
  split at hb
  · rw [List.mem_singleton.mp hb]
    decide
  · rw [List.map_reverse, List.mem_reverse] at hb
    obtain ⟨d, hd, rfl⟩ := List.mem_map.mp hb
    exact key d (Nat.digits_lt_base (by decide) hd)

theorem fmtNat_ne_blank (n : ℕ) : ∀ c ∈ fmtNat 10 n, c ≠ 32 ∧ c ≠ 9 := by
  intro c hc
  obtain ⟨hlow, -⟩ := fmtNat_digits n c hc
  constructor
  · rintro rfl
    exact absurd hlow (by decide)
  · rintro rfl
    exact absurd hlow (by decide)

/-! ### `std.fmt.parseInt` -/

/-- `parseIntWithSign` for a type holding the numbers below `bound`: no underscore at either
end, underscores skipped elsewhere, every other byte a digit, and no intermediate value out of
range.  Under a minus sign only zeros are in range. -/
def parseIntWithSign (bound base : ℕ) (neg : Bool) (buf : Bytes) : Option ℕ :=
  if buf.head? = some 95 ∨ buf.getLast? = some 95 ∨ buf = [] then none
  else
    (buf.filter (· != 95)).foldlM (fun acc c => do
      let d ← charToDigit base c
      let v := acc * base + d
      if v < (if neg then 1 else bound) then some v else none) 0

/-- `std.fmt.parseInt` for an unsigned type holding the numbers below `bound`. -/
def parseInt (bound base : ℕ) (buf : Bytes) : Option ℕ :=
  match buf with
  | [] => none
  | 43 :: rest => parseIntWithSign bound base false rest
  | 45 :: rest => parseIntWithSign bound base true rest
  | _ => parseIntWithSign bound base false buf

/-- One more than the largest `usize`. -/
def usizeBound : ℕ := 2 ^ 64

/-- One more than the largest `u32`. -/
def u32Bound : ℕ := 2 ^ 32

example : parseInt usizeBound 10 (ascii "1_024") = some 1024 := by decide
example : parseInt u32Bound 10 (ascii "4294967296") = none := by decide

end Dusty
