import Mathlib.Data.List.Infix
import Mathlib.Data.Nat.Notation

/-! # Byte strings

The operations on byte slices the library takes from `std.mem` and `std.ascii`. -/

namespace Dusty

/-- A slice of bytes. -/
abbrev Bytes := List UInt8

/-- What every element of a list satisfies is decided along the list, never over the whole type. -/
instance (priority := 2000) decidableForallMem {α : Type} (p : α → Prop) [DecidablePred p]
    (l : List α) : Decidable (∀ x ∈ l, p x) := List.decidableBAll p l

/-- A slice of a connection buffer: the address of its first byte and what it held when it
was taken. -/
structure Slice where
  ptr : ℕ
  bytes : Bytes
deriving DecidableEq, Repr

/-- The bytes of a literal. -/
def ascii (s : String) : Bytes := s.toUTF8.data.toList

/-- `"\r\n"`. -/
def crlf : Bytes := [13, 10]

/-- `std.ascii.toLower`. -/
def toLower (b : UInt8) : UInt8 := if 65 ≤ b ∧ b ≤ 90 then b + 32 else b

/-- `std.ascii.eqlIgnoreCase`. -/
def eqlIgnoreCase (a b : Bytes) : Bool := a.map toLower == b.map toLower

/-- `std.mem.splitScalar`: the pieces between the delimiters, always at least one. -/
def splitScalar (s : Bytes) (delimiter : UInt8) : List Bytes := s.splitOn delimiter

/-- `std.mem.trim` of blanks and tabs. -/
def trimBlanks (s : Bytes) : Bytes :=
  let blank := fun c : UInt8 => c == 32 || c == 9
  ((s.dropWhile blank).reverse.dropWhile blank).reverse

/-- `std.mem.indexOfScalar`. -/
def indexOfScalar (s : Bytes) (b : UInt8) : Option ℕ := s.findIdx? (· == b)

/-- `std.ascii.indexOfIgnoreCase (haystack, needle) != null`. -/
def containsIgnoreCase (haystack needle : Bytes) : Bool :=
  decide (needle.map toLower <:+: haystack.map toLower)

/-- A text stays as it is that neither begins nor ends with a blank. -/
theorem trimBlanks_of_ends {s : Bytes} (hfirst : ∀ c, s.head? = some c → c ≠ 32 ∧ c ≠ 9)
    (hlast : ∀ c, s.getLast? = some c → c ≠ 32 ∧ c ≠ 9) : trimBlanks s = s := by
  have hkeep : ∀ s : Bytes, (∀ c, s.head? = some c → c ≠ 32 ∧ c ≠ 9) →
      s.dropWhile (fun c => c == 32 || c == 9) = s := by
    intro s h
    cases s with
    | nil => rfl
    | cons c s =>
        obtain ⟨hblank, htab⟩ := h c rfl
        exact List.dropWhile_cons_of_neg (by simp [hblank, htab])
  unfold trimBlanks
  simp only
  rw [hkeep s hfirst, hkeep s.reverse (by rw [List.head?_reverse]; exact hlast), List.reverse_reverse]

theorem trimBlanks_of_forall {s : Bytes} (h : ∀ c ∈ s, c ≠ 32 ∧ c ≠ 9) : trimBlanks s = s :=
  trimBlanks_of_ends (fun c hc => h c (List.mem_of_mem_head? hc)) fun c hc => h c (List.mem_of_mem_getLast? hc)

theorem trimBlanks_blank (s : Bytes) : trimBlanks (32 :: s) = trimBlanks s := rfl

theorem eqlIgnoreCase_iff {a b : Bytes} : eqlIgnoreCase a b = true ↔ a.map toLower = b.map toLower := by
  simp [eqlIgnoreCase]

@[simp] theorem eqlIgnoreCase_refl (a : Bytes) : eqlIgnoreCase a a = true := by simp [eqlIgnoreCase]

theorem eqlIgnoreCase_symm {a b : Bytes} (h : eqlIgnoreCase a b = true) :
    eqlIgnoreCase b a = true := by
  rw [eqlIgnoreCase_iff] at h ⊢
  exact h.symm

theorem eqlIgnoreCase_trans {a b c : Bytes} (h : eqlIgnoreCase a b = true)
    (h' : eqlIgnoreCase b c = true) : eqlIgnoreCase a c = true := by
  rw [eqlIgnoreCase_iff] at h h' ⊢
  exact h.trans h'

/-- Names equal up to case are interchangeable in a comparison. -/
theorem eqlIgnoreCase_congr_left {a b : Bytes} (h : eqlIgnoreCase a b = true) (c : Bytes) :
    eqlIgnoreCase a c = eqlIgnoreCase b c := by
  rw [eqlIgnoreCase_iff] at h
  simp [eqlIgnoreCase, h]

/-! ### The pieces between delimiters -/

section split
variable {d : UInt8}

@[simp] theorem splitScalar_nil (d : UInt8) : splitScalar [] d = [[]] := rfl

theorem splitScalar_delimiter (rest : Bytes) : splitScalar (d :: rest) d = [] :: splitScalar rest d := by
  simp [splitScalar, List.splitOn_cons_eq_if_modifyHead]

/-- A byte that is no delimiter belongs to the first piece. -/
theorem splitScalar_cons {b : UInt8} (hb : b ≠ d) (rest : Bytes) :
    ∃ piece pieces, splitScalar rest d = piece :: pieces ∧
      splitScalar (b :: rest) d = (b :: piece) :: pieces := by
  obtain ⟨piece, pieces, h⟩ := List.exists_cons_of_ne_nil (List.splitOn_ne_nil d rest)
  refine ⟨piece, pieces, h, ?_⟩
  have hbeq : (b == d) = false := by simpa using hb
  simp [splitScalar, List.splitOn_cons_eq_if_modifyHead, h, hbeq]

/-- The first piece is empty only where there is no byte, or a delimiter comes first. -/
theorem splitScalar_head {rest : Bytes} {pieces : List Bytes}
    (h : splitScalar rest d = [] :: pieces) : rest = [] ∨ ∃ more, rest = d :: more := by
  cases rest with
  | nil => exact .inl rfl
  | cons c more =>
      by_cases hc : c = d
      · exact .inr ⟨more, by rw [hc]⟩
      · obtain ⟨piece, pieces', -, hcons⟩ := splitScalar_cons hc more
        rw [hcons] at h
        cases h

/-- The first piece ends at the first delimiter, and the others are those of the rest. -/
theorem splitScalar_span (bytes : Bytes) (d : UInt8) :
    splitScalar bytes d = bytes.takeWhile (· ≠ d) ::
      match bytes.dropWhile (· ≠ d) with
      | [] => []
      | _ :: rest => splitScalar rest d := by
  induction bytes with
  | nil => rfl
  | cons b bytes ih =>
      by_cases hb : b = d
      · subst hb
        simp [splitScalar_delimiter]
      · obtain ⟨piece, pieces, hrest, hcons⟩ := splitScalar_cons hb bytes
        rw [ih] at hrest
        obtain ⟨hpiece, hpieces⟩ := List.cons.inj hrest
        rw [hcons, List.takeWhile_cons_of_pos (by simpa using hb),
          List.dropWhile_cons_of_pos (by simpa using hb), hpiece, hpieces]

theorem splitScalar_append (xs ys : Bytes) (d : UInt8) :
    splitScalar (xs ++ d :: ys) d = splitScalar xs d ++ splitScalar ys d := by
  induction xs with
  | nil => rw [List.nil_append, splitScalar_delimiter, splitScalar_nil, List.singleton_append]
  | cons b xs ih =>
      by_cases hb : b = d
      · subst hb
        rw [List.cons_append, splitScalar_delimiter, splitScalar_delimiter, ih, List.cons_append]
      · obtain ⟨piece, pieces, hrest, hcons⟩ := splitScalar_cons hb (xs ++ d :: ys)
        obtain ⟨piece', pieces', hxs, hcons'⟩ := splitScalar_cons hb xs
        rw [ih, hxs, List.cons_append] at hrest
        obtain ⟨hpiece, hpieces⟩ := List.cons.inj hrest
        rw [List.cons_append, hcons, hcons', ← hpiece, ← hpieces, List.cons_append]

theorem splitScalar_of_notMem {bytes : Bytes} {d : UInt8} (h : d ∉ bytes) :
    splitScalar bytes d = [bytes] := by
  induction bytes with
  | nil => rfl
  | cons b bytes ih =>
      obtain ⟨piece, pieces, hrest, hcons⟩ := splitScalar_cons (List.ne_of_not_mem_cons h).symm bytes
      rw [ih (List.not_mem_of_not_mem_cons h)] at hrest
      cases hrest
      exact hcons

/-- There is one more piece than there are delimiters. -/
theorem length_splitScalar (s : Bytes) (d : UInt8) : (splitScalar s d).length = s.count d + 1 := by
  induction s with
  | nil => rfl
  | cons b s ih =>
      by_cases hb : b = d
      · subst hb
        rw [splitScalar_delimiter, List.length_cons, ih, List.count_cons_self]
      · obtain ⟨piece, pieces, hs, hcons⟩ := splitScalar_cons hb s
        rw [hs, List.length_cons] at ih
        rw [hcons, List.length_cons, ih, List.count_cons_of_ne hb]

/-- The pieces have no delimiter, and nothing that is not in the text. -/
theorem splitScalar_mem {bytes piece : Bytes} (h : piece ∈ splitScalar bytes d) :
    d ∉ piece ∧ ∀ b ∈ piece, b ∈ bytes := by
  induction bytes generalizing piece with
  | nil =>
      obtain rfl : piece = [] := by simpa using h
      simp
  | cons c bytes ih =>
      have hlater : ∀ {piece}, piece ∈ splitScalar bytes d →
          d ∉ piece ∧ ∀ b ∈ piece, b ∈ c :: bytes :=
        fun hl => ⟨(ih hl).1, fun b hb => List.mem_cons_of_mem c ((ih hl).2 b hb)⟩
      by_cases hc : c = d
      · rw [hc, splitScalar_delimiter] at h
        rcases List.mem_cons.mp h with rfl | h
        · simp
        · exact hlater h
      · obtain ⟨first, pieces, hrest, hcons⟩ := splitScalar_cons hc bytes
        rw [hcons] at h
        rcases List.mem_cons.mp h with rfl | h
        · obtain ⟨hd, hmem⟩ := hlater (hrest ▸ List.mem_cons_self : first ∈ splitScalar bytes d)
          refine ⟨by simpa [Ne.symm hc] using hd, fun b hb => ?_⟩
          rcases List.mem_cons.mp hb with rfl | hb
          · exact List.mem_cons_self
          · exact hmem b hb
        · exact hlater (hrest ▸ List.mem_cons_of_mem _ h)

end split

end Dusty
