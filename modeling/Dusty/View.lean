import Dusty.Act
import Dusty.Bytes

/-! # Slices of a buffer that is written to

A slice that is read and written is an offset and a length, and the state is what the buffer holds.
An index or a slice out of range is a panic.  Where the buffer is written as what is before, in and
behind the slice (`View.At`), the operations act on the middle part. -/

namespace Dusty

/-- A part of a buffer. -/
structure View where
  start : ℕ
  len : ℕ
deriving DecidableEq, Repr

/-- `std.mem.indexOfScalarPos`. -/
def indexOfScalarPos (s : Bytes) (start : ℕ) (b : UInt8) : Option ℕ :=
  ((s.drop start).findIdx? (· == b)).map (start + ·)

/-- `std.ascii.startsWithIgnoreCase`. -/
def startsWithIgnoreCase (haystack needle : Bytes) : Bool :=
  decide (needle.length ≤ haystack.length) && eqlIgnoreCase (haystack.take needle.length) needle

/-- The first place where the text occurs. -/
def indexOfSlice (needle : Bytes) : Bytes → Option ℕ
  | [] => if needle = [] then some 0 else none
  | b :: rest =>
      if needle.isPrefixOf (b :: rest) then some 0 else (indexOfSlice needle rest).map (· + 1)

/-- `std.mem.indexOfPos`. -/
def indexOfPos (s : Bytes) (start : ℕ) (needle : Bytes) : Option ℕ :=
  (indexOfSlice needle (s.drop start)).map (start + ·)

/-- A text that begins so has as many bytes in front. -/
theorem startsWithIgnoreCase_split {text needle : Bytes} (h : startsWithIgnoreCase text needle = true) :
    ∃ lead rest, text = lead ++ rest ∧ lead.length = needle.length ∧ eqlIgnoreCase lead needle = true := by
  unfold startsWithIgnoreCase at h
  rw [Bool.and_eq_true, decide_eq_true_eq] at h
  refine ⟨text.take needle.length, text.drop needle.length, (List.take_append_drop _ _).symm, ?_, h.2⟩
  rw [List.length_take, Nat.min_eq_left h.1]

/-- A text begins with what is written first, in whatever case. -/
theorem startsWithIgnoreCase_append {lead needle : Bytes} (h : eqlIgnoreCase lead needle = true)
    (rest : Bytes) : startsWithIgnoreCase (lead ++ rest) needle = true := by
  have hlength : lead.length = needle.length := by
    have := congrArg List.length (eqlIgnoreCase_iff.mp h)
    rwa [List.length_map, List.length_map] at this
  unfold startsWithIgnoreCase
  rw [← hlength, List.take_left' rfl, h, Bool.and_true, decide_eq_true_eq, List.length_append]
  exact Nat.le_add_right _ _

namespace View

/-- What a slice holds. -/
def text (self : View) (buffer : Bytes) : Bytes := (buffer.drop self.start).take self.len

/-- What a slice holds now. -/
def bytes (self : View) : Act Bytes Bytes := do
  let buffer ← get
  pure (self.text buffer)

/-- `self[i]`. -/
def load (self : View) (i : ℕ) : Act Bytes UInt8 := do
  let buffer ← get
  match (self.text buffer)[i]? with
  | some b => pure b
  | none => Act.die .assertion

/-- `self[i] = b`. -/
def store (self : View) (i : ℕ) (b : UInt8) : Act Bytes Unit := do
  Act.assert (decide (i < self.len))
  modify fun buffer => buffer.set (self.start + i) b

/-- `self[a..b]`. -/
def slice {σ : Type} (self : View) (a b : ℕ) : Act σ View := do
  Act.assert (decide (a ≤ b ∧ b ≤ self.len))
  pure ⟨self.start + a, b - a⟩

/-- `a - b`. -/
def minus {σ : Type} (a b : ℕ) : Act σ ℕ := do
  Act.assert (decide (b ≤ a))
  pure (a - b)

/-! ### A slice in the middle of the buffer -/

/-- The slice is what lies between the first text and the last, in a buffer of three. -/
def At (self : View) (before middle : Bytes) : Prop := self = ⟨before.length, middle.length⟩

section
variable {self : View} {before middle : Bytes}

theorem At.len (h : self.At before middle) : self.len = middle.length := by rw [h]

theorem At.congr (h : self.At before middle) {middle' : Bytes} (hlength : middle'.length = middle.length) :
    self.At before middle' := by
  unfold At
  rw [hlength]
  exact h

theorem At.text (h : self.At before middle) (behind : Bytes) :
    self.text (before ++ middle ++ behind) = middle := by
  rw [h, View.text, List.append_assoc, List.drop_left' rfl, List.take_left' rfl]

theorem At.bytes (h : self.At before middle) (behind : Bytes) :
    self.bytes (before ++ middle ++ behind) = .ok middle (before ++ middle ++ behind) := by
  unfold View.bytes
  rw [Act.bind_ok (Act.get_run _), h.text]
  rfl

theorem At.load (h : self.At before middle) (behind : Bytes) {i : ℕ} {b : UInt8}
    (hi : middle[i]? = some b) :
    self.load i (before ++ middle ++ behind) = .ok b (before ++ middle ++ behind) := by
  unfold View.load
  rw [Act.bind_ok (Act.get_run _), h.text, hi]
  rfl

theorem At.store (h : self.At before middle) (behind : Bytes) {i : ℕ} (hi : i < middle.length)
    (b : UInt8) :
    self.store i b (before ++ middle ++ behind) = .ok () (before ++ middle.set i b ++ behind) := by
  have hlen : i < self.len := by
    rw [h.len]
    exact hi
  have hstart : self.start = before.length := by rw [h]
  unfold View.store
  rw [Act.bind_ok (Act.assert_true (decide_eq_true hlen) _), Act.modify_run, hstart,
    List.append_assoc, List.set_append_right _ _ (Nat.le_add_right _ _), Nat.add_sub_cancel_left,
    List.set_append_left _ _ hi, List.append_assoc]

theorem At.slice {σ : Type} {lead part rest : Bytes} (h : self.At before (lead ++ part ++ rest))
    (s : σ) :
    ∃ view, self.slice lead.length (lead.length + part.length) s = .ok view s ∧
      view.At (before ++ lead) part := by
  have hle : lead.length + part.length ≤ self.len := by
    rw [h.len, List.length_append, List.length_append]
    omega
  refine ⟨⟨self.start + lead.length, part.length⟩, ?_, ?_⟩
  · unfold View.slice
    rw [Act.bind_ok (Act.assert_true (decide_eq_true ⟨Nat.le_add_right _ _, hle⟩) s),
      Nat.add_sub_cancel_left]
    rfl
  · unfold At
    rw [h, show (before ++ lead).length = before.length + lead.length from List.length_append]

end

theorem minus_ok {σ : Type} {a b : ℕ} (h : b ≤ a) (s : σ) : minus a b s = .ok (a - b) s := by
  unfold minus
  rw [Act.bind_ok (Act.assert_true (decide_eq_true h) s)]
  rfl

end View
end Dusty
