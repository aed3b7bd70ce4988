import Dusty.Bytes

/-! # URL-safe base64

`std.base64.url_safe_no_pad`.  Three bytes are four digits; the last one or two bytes are two or
three, and the bits that are left over are zero.  What is encoded is decoded again
(`decode_encode`), and holds nothing but digits. -/

namespace Dusty
namespace Base64Url

/-- The alphabet. -/
def alphabet : Bytes := ascii "ABCDEFGHIJKLMNOPQRSTUVWXYZabcdefghijklmnopqrstuvwxyz0123456789-_"

/-- The digit for six bits. -/
def digit (n : ℕ) : UInt8 := alphabet.getD n 0

/-- The six bits of a digit. -/
def sextet (c : UInt8) : Option ℕ := indexOfScalar alphabet c

/-- `Encoder.encode`. -/
def encode : Bytes → Bytes
  | [] => []
  | [a] => [digit (a.toNat / 4), digit (a.toNat % 4 * 16)]
  | [a, b] => [digit (a.toNat / 4), digit (a.toNat % 4 * 16 + b.toNat / 16), digit (b.toNat % 16 * 4)]
  | a :: b :: c :: rest =>
      digit (a.toNat / 4) :: digit (a.toNat % 4 * 16 + b.toNat / 16) ::
        digit (b.toNat % 16 * 4 + c.toNat / 64) :: digit (c.toNat % 64) :: encode rest

/-- `Decoder.decode`, of a text whose size `calcSizeForSlice` accepts. -/
def decode : Bytes → Option Bytes
  | [] => some []
  | [_] => none
  | [w, x] => do
      let w ← sextet w
      let x ← sextet x
      if x % 16 = 0 then some [(w * 4 + x / 16).toUInt8] else none
  | [w, x, y] => do
      let w ← sextet w
      let x ← sextet x
      let y ← sextet y
      if y % 4 = 0 then some [(w * 4 + x / 16).toUInt8, (x % 16 * 16 + y / 4).toUInt8] else none
  | w :: x :: y :: z :: rest => do
      let w ← sextet w
      let x ← sextet x
      let y ← sextet y
      let z ← sextet z
      let bytes ← decode rest
      some ((w * 4 + x / 16).toUInt8 :: (x % 16 * 16 + y / 4).toUInt8 :: (y % 4 * 64 + z).toUInt8 ::
        bytes)

theorem sextet_digit {n : ℕ} (h : n < 64) : sextet (digit n) = some n := by
  have hall : ∀ i < 64, sextet (digit i) = some i := by decide +kernel
  exact hall n h

theorem toUInt8_of_toNat {n : ℕ} {a : UInt8} (h : n = a.toNat) : n.toUInt8 = a := by
  rw [h]
  exact UInt8.ofNat_toNat

/-- **What is encoded is decoded again.** -/
theorem decode_encode (bytes : Bytes) : decode (encode bytes) = some bytes := by
  fun_induction encode bytes with
  | case1 => rfl
  | case2 a =>
      have ha := a.toNat_lt
      rw [decode, sextet_digit (by omega), sextet_digit (by omega)]
      have hbyte : (a.toNat / 4 * 4 + a.toNat % 4 * 16 / 16).toUInt8 = a :=
        toUInt8_of_toNat (by omega)
      have hzero : a.toNat % 4 * 16 % 16 = 0 := by omega
      simp only [bind, Option.bind, hzero, if_true, hbyte]
  | case3 a b =>
      have ha := a.toNat_lt
      have hb := b.toNat_lt
      rw [decode, sextet_digit (by omega), sextet_digit (by omega), sextet_digit (by omega)]
      have hfirst : (a.toNat / 4 * 4 + (a.toNat % 4 * 16 + b.toNat / 16) / 16).toUInt8 = a :=
        toUInt8_of_toNat (by omega)
      have hsecond : ((a.toNat % 4 * 16 + b.toNat / 16) % 16 * 16 + b.toNat % 16 * 4 / 4).toUInt8 = b :=
        toUInt8_of_toNat (by omega)
      have hzero : b.toNat % 16 * 4 % 4 = 0 := by omega
      simp only [bind, Option.bind, hzero, if_true, hfirst, hsecond]
  | case4 a b c rest ih =>
      have ha := a.toNat_lt
      have hb := b.toNat_lt
      have hc := c.toNat_lt
      rw [decode, sextet_digit (by omega), sextet_digit (by omega), sextet_digit (by omega),
        sextet_digit (by omega), ih]
      have hfirst : (a.toNat / 4 * 4 + (a.toNat % 4 * 16 + b.toNat / 16) / 16).toUInt8 = a :=
        toUInt8_of_toNat (by omega)
      have hsecond : ((a.toNat % 4 * 16 + b.toNat / 16) % 16 * 16 +
          (b.toNat % 16 * 4 + c.toNat / 64) / 4).toUInt8 = b :=
        toUInt8_of_toNat (by omega)
      have hthird : ((b.toNat % 16 * 4 + c.toNat / 64) % 4 * 64 + c.toNat % 64).toUInt8 = c :=
        toUInt8_of_toNat (by omega)
      simp only [bind, Option.bind, hfirst, hsecond, hthird]

theorem digit_mem {n : ℕ} (h : n < 64) : digit n ∈ alphabet := by
  have hall : ∀ i < 64, digit i ∈ alphabet := by decide +kernel
  exact hall n h

theorem encode_mem (bytes : Bytes) : ∀ c ∈ encode bytes, c ∈ alphabet := by
  fun_induction encode bytes with
  | case1 => simp
  | case2 a =>
      have ha := a.toNat_lt
      intro c hc
      simp only [List.mem_cons, List.not_mem_nil, or_false] at hc
      rcases hc with rfl | rfl <;> exact digit_mem (by omega)
  | case3 a b =>
      have ha := a.toNat_lt
      have hb := b.toNat_lt
      intro c hc
      simp only [List.mem_cons, List.not_mem_nil, or_false] at hc
      rcases hc with rfl | rfl | rfl <;> exact digit_mem (by omega)
  | case4 a b c rest ih =>
      have ha := a.toNat_lt
      have hb := b.toNat_lt
      have hc := c.toNat_lt
      intro d hd
      simp only [List.mem_cons] at hd
      rcases hd with rfl | rfl | rfl | rfl | hd
      · exact digit_mem (by omega)
      · exact digit_mem (by omega)
      · exact digit_mem (by omega)
      · exact digit_mem (by omega)
      · exact ih d hd

theorem encode_ne_nil {bytes : Bytes} (h : bytes ≠ []) : encode bytes ≠ [] := by
  intro hnil
  have hdecode := decode_encode bytes
  rw [hnil] at hdecode
  exact h (Option.some.inj hdecode).symm

end Base64Url
end Dusty
