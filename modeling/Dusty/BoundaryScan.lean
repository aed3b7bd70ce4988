import Dusty.MultipartParts

/-! # The boundary

Where the loop over the directive takes the boundary from (`Taken`): the first place that says
`boundary=` and has a text behind it that can be used. -/

namespace Dusty
namespace Boundary

open Act

/-- The boundary in what is behind `boundary=`, up to the end of the directive. -/
def usable (rawBoundary : Bytes) : Option Bytes :=
  if rawBoundary.length = 0 ∨ 70 < rawBoundary.length then none
  else if rawBoundary.head? = some 34 then
    if 2 < rawBoundary.length ∧ rawBoundary.getLast? = some 34 then some rawBoundary.tail.dropLast else none
  else some rawBoundary

/-- The boundary that can be used at the beginning of a text. -/
def here (text : Bytes) : Option Bytes :=
  if startsWithIgnoreCase text (ascii "boundary=") then usable (text.drop 9) else none

/-- The boundary at the first place where one can be used. -/
def first : Bytes → Option Bytes
  | [] => none
  | b :: rest => (here (b :: rest)).or (first rest)

/-- The delimiter of a boundary. -/
def delimiter (boundary : Bytes) : Bytes := ascii "--" ++ boundary

theorem delimiter_ne_nil (boundary : Bytes) : delimiter boundary ≠ [] := List.cons_ne_nil _ _

/-- A place that says `boundary=` begins with the letter. -/
theorem startsWith_head {b : UInt8} {rest : Bytes}
    (h : startsWithIgnoreCase (b :: rest) (ascii "boundary=") = true) : toLower b = 98 := by
  obtain ⟨lead, rest', htext, -, hlead⟩ := startsWithIgnoreCase_split h
  have hsame := eqlIgnoreCase_iff.mp hlead
  cases lead with
  | nil => exact absurd hsame (by decide)
  | cons c lead =>
      obtain ⟨rfl, -⟩ := List.cons.inj htext
      exact (List.cons.inj hsame).1

section
variable {σ : Type}

/-- **The body of the loop** is in bounds at every index. -/
theorem boundaryAt_eq {before text : Bytes} (htext : text ≠ []) (s : σ) :
    boundaryAt (before ++ text) before.length s = .ok ((here text).map delimiter) s := by
  obtain ⟨b, rest, rfl⟩ := List.exists_cons_of_ne_nil htext
  have hget : (before ++ b :: rest)[before.length]? = some b := by
    rw [List.getElem?_append_right le_rfl, Nat.sub_self]
    rfl
  unfold boundaryAt here
  rw [hget, List.drop_left' rfl]
  simp only
  by_cases hblank : b = 32 ∨ b = 59
  · have hno : startsWithIgnoreCase (b :: rest) (ascii "boundary=") = false := by
      by_contra h
      have hhead := startsWith_head (Bool.not_eq_false _ ▸ h)
      rcases hblank with rfl | rfl <;> exact absurd hhead (by decide)
    rw [if_pos hblank, hno]
    rfl
  · rw [if_neg hblank]
    cases hfound : startsWithIgnoreCase (b :: rest) (ascii "boundary=") with
    | false => rfl
    | true =>
        obtain ⟨lead, raw, htext, hlength, -⟩ := startsWithIgnoreCase_split hfound
        have hnine : lead.length = 9 := hlength
        have hdrop : (before ++ b :: rest).drop (9 + before.length) = raw := by
          rw [htext, ← List.append_assoc]
          exact List.drop_left' (by rw [List.length_append, hnine, Nat.add_comm])
        have hdrop' : (b :: rest).drop 9 = raw := by rw [htext, List.drop_left' hnine]
        have hle : 9 + before.length ≤ (before ++ b :: rest).length := by
          rw [htext, List.length_append, List.length_append, hnine]
          omega
        rw [Bool.not_true, if_neg Bool.false_ne_true, bind_ok (assert_true (decide_eq_true hle) s), if_pos rfl,
          hdrop, hdrop', usable]
        by_cases hlong : raw.length = 0 ∨ 70 < raw.length
        · rw [if_pos hlong, if_pos hlong]
          rfl
        · rw [if_neg hlong, if_neg hlong]
          by_cases hquote : raw.head? = some 34
          · rw [if_pos hquote, if_pos hquote]
            by_cases hclosed : 2 < raw.length ∧ raw.getLast? = some 34
            · have hfits : 2 ≤ raw.length ∧ raw.length ≤ 72 ∧ raw.length - 2 = raw.tail.dropLast.length := by
                rw [List.length_dropLast, List.length_tail]
                omega
              rw [if_pos hclosed, if_pos hclosed]
              rw [bind_ok (assert_true (decide_eq_true hfits) s)]
              rfl
            · rw [if_neg hclosed, if_neg hclosed]
              rfl
          · have hfits : 2 + raw.length ≤ 72 := by omega
            rw [if_neg hquote, if_neg hquote, bind_ok (assert_true (decide_eq_true hfits) s)]
            rfl

/-- **The loop over the directive** finds the first boundary that can be used. -/
theorem scan_eq (text : Bytes) : ∀ (before : Bytes) (s : σ),
    scan (before ++ text) (List.range' before.length text.length) s =
      match first text with
      | some boundary => .ok (delimiter boundary) s
      | none => .error (.err .invalidMultiPartFormDataHeader) s := by
  induction text with
  | nil =>
      intro before s
      rfl
  | cons b rest ih =>
      intro before s
      have hrest := ih (before ++ [b]) s
      rw [List.append_assoc, List.singleton_append, List.length_append, List.length_singleton] at hrest
      rw [List.length_cons, List.range'_succ, scan, bind_ok (boundaryAt_eq (List.cons_ne_nil _ _) s), first]
      cases hhere : here (b :: rest) with
      | some boundary => rfl
      | none => exact hrest

/-- **The delimiter of a `Content-Type`**, if it is no shorter than `multipart/form-data`. -/
theorem find_eq {contentType : Bytes} (h : 19 ≤ contentType.length) (s : σ) :
    find contentType s =
      match first (contentType.drop 19) with
      | some boundary => .ok (delimiter boundary) s
      | none => .error (.err .invalidMultiPartFormDataHeader) s := by
  unfold find
  rw [bind_ok (assert_true (decide_eq_true h) s)]
  simp only [List.range_eq_range']
  exact scan_eq (contentType.drop 19) [] s

end

/-! ### Where it is taken from -/

/-- The boundary is taken from a place in the directive: it can be used there, and there is none in
front that can. -/
def Taken (directive : Bytes) (i : ℕ) (boundary : Bytes) : Prop :=
  here (directive.drop i) = some boundary ∧ ∀ j < i, here (directive.drop j) = none

theorem Taken.first {directive boundary : Bytes} {i : ℕ} (h : Taken directive i boundary) :
    first directive = some boundary := by
  induction directive generalizing i with
  | nil =>
      rw [Taken, List.drop_nil] at h
      cases h.1
  | cons b rest ih =>
      rw [Boundary.first]
      cases i with
      | zero =>
          have hhere : here (b :: rest) = some boundary := h.1
          rw [hhere, Option.some_or]
      | succ i =>
          have hnone : here (b :: rest) = none := h.2 0 (Nat.succ_pos i)
          rw [hnone, Option.none_or]
          exact ih ⟨h.1, fun j hj => h.2 (j + 1) (Nat.succ_lt_succ hj)⟩

end Boundary
end Dusty
