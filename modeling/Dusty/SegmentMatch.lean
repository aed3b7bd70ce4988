import Mathlib.Data.List.Basic
import Mathlib.Order.Basic
import Mathlib.Data.List.Lex
import Mathlib.Data.Nat.Notation
import Mathlib.Order.Nat
import Mathlib.Tactic.Tauto

/-! # Patterns of segments with precedence

A pattern is a list of elements, each a fixed segment, a parameter (any one segment) or a
wildcard (one or more segments, at the end only).  A table assigns results to patterns.
`select T w` searches a table the way a backtracking router does: at each position the
fixed segment first, then the parameter, then the wildcard.  `select_eq_none` and
`select_eq_some` say what the search computes without mentioning the search: nothing
exactly when no pattern of the table matches, and otherwise the result of the matching
pattern that is least in the position-by-position order fixed < parameter < wildcard. -/

namespace Dusty

inductive Seg (α : Type) where
  | static (a : α)
  | param
  | wildcard
deriving DecidableEq, Repr

namespace Seg

variable {α R : Type}

/-- Precedence of an element, the smaller the better. -/
def rank : Seg α → ℕ
  | static _ => 0
  | param => 1
  | wildcard => 2

/-- Precedences position by position, compared lexicographically. -/
def ranks (p : List (Seg α)) : List ℕ := p.map rank

theorem ranks_cons_le {s t : Seg α} {p q : List (Seg α)} :
    ranks (s :: p) ≤ ranks (t :: q) ↔ s.rank < t.rank ∨ s.rank = t.rank ∧ ranks p ≤ ranks q := by
  simp only [ranks, List.map_cons]
  rw [le_iff_lt_or_eq, List.cons_lt_cons_iff, le_iff_lt_or_eq, List.cons.injEq]
  tauto

/-- The pattern matches the word. -/
def Matches [DecidableEq α] : List (Seg α) → List α → Bool
  | [], [] => true
  | static a :: p, x :: xs => decide (a = x) && Matches p xs
  | param :: p, _ :: xs => Matches p xs
  | [wildcard], _ :: _ => true
  | _, _ => false

section select
variable [DecidableEq α]

@[simp] theorem matches_nil (p : List (Seg α)) : Matches p ([] : List α) = true ↔ p = [] := by
  cases p with
  | nil => simp [Matches]
  | cons s p => cases s <;> simp [Matches]

theorem matches_cons (p : List (Seg α)) (x : α) (xs : List α) :
    Matches p (x :: xs) = true ↔
      (∃ q, p = static x :: q ∧ Matches q xs = true) ∨
      (∃ q, p = param :: q ∧ Matches q xs = true) ∨ p = [wildcard] := by
  cases p with
  | nil => simp [Matches]
  | cons s p =>
      cases s with
      | static a =>
          simp only [Matches, Bool.and_eq_true, decide_eq_true_eq, List.cons.injEq, static.injEq,
            reduceCtorEq, false_and, exists_false, or_false]
          constructor
          · rintro ⟨rfl, h⟩
            exact ⟨p, ⟨rfl, rfl⟩, h⟩
          · rintro ⟨q, ⟨rfl, rfl⟩, h⟩
            exact ⟨rfl, h⟩
      | param => simp [Matches]
      | wildcard => cases p <;> simp [Matches]

/-- Search a table for a word. -/
def select (T : List (Seg α) → Option R) : List α → Option R
  | [] => T []
  | x :: xs =>
      (select (fun p => T (static x :: p)) xs).or
        ((select (fun p => T (param :: p)) xs).or (T [wildcard]))

omit [DecidableEq α] in
theorem select_none (w : List α) : select (fun _ => (none : Option R)) w = none := by
  induction w with
  | nil => rfl
  | cons x xs ih => simp [select, ih]

omit [DecidableEq α] in
theorem select_map {S : Type} (f : R → S) (T : List (Seg α) → Option R) (w : List α) :
    select (fun p => (T p).map f) w = (select T w).map f := by
  induction w generalizing T with
  | nil => rfl
  | cons x xs ih =>
      simp only [select]
      rw [ih fun p => T (static x :: p), ih fun p => T (param :: p), Option.map_or, Option.map_or]

/-- The search finds nothing exactly when no pattern of the table matches. -/
theorem select_eq_none (T : List (Seg α) → Option R) (w : List α) :
    select T w = none ↔ ∀ p, Matches p w = true → T p = none := by
  induction w generalizing T with
  | nil => simp [select]
  | cons x xs ih =>
      simp only [select, Option.or_eq_none_iff, ih, matches_cons]
      constructor
      · rintro ⟨hs, hp, hw⟩ p (⟨q, rfl, hq⟩ | ⟨q, rfl, hq⟩ | rfl)
        · exact hs q hq
        · exact hp q hq
        · exact hw
      · intro h
        exact ⟨fun q hq => h _ (.inl ⟨q, rfl, hq⟩), fun q hq => h _ (.inr (.inl ⟨q, rfl, hq⟩)),
          h _ (.inr (.inr rfl))⟩

/-- `p` is the best pattern of the table for the word. -/
def IsLeast (T : List (Seg α) → Option R) (w : List α) (p : List (Seg α)) : Prop :=
  Matches p w = true ∧ T p ≠ none ∧ ∀ q, Matches q w = true → T q ≠ none → ranks p ≤ ranks q

theorem IsLeast.static {T : List (Seg α) → Option R} {x : α} {xs : List α} {p : List (Seg α)}
    (h : IsLeast (fun p => T (.static x :: p)) xs p) : IsLeast T (x :: xs) (.static x :: p) := by
  obtain ⟨hm, hT, hle⟩ := h
  refine ⟨by simpa [Matches] using hm, hT, ?_⟩
  intro q hq hTq
  rcases (matches_cons q x xs).mp hq with ⟨q', rfl, hq'⟩ | ⟨q', rfl, _⟩ | rfl
  · exact ranks_cons_le.mpr (.inr ⟨rfl, hle q' hq' hTq⟩)
  · exact ranks_cons_le.mpr (.inl (by simp [rank]))
  · exact ranks_cons_le.mpr (.inl (by simp [rank]))

theorem IsLeast.param {T : List (Seg α) → Option R} {x : α} {xs : List α} {p : List (Seg α)}
    (hs : ∀ q, Matches q xs = true → T (.static x :: q) = none)
    (h : IsLeast (fun p => T (.param :: p)) xs p) : IsLeast T (x :: xs) (.param :: p) := by
  obtain ⟨hm, hT, hle⟩ := h
  refine ⟨by simpa [Matches] using hm, hT, ?_⟩
  intro q hq hTq
  rcases (matches_cons q x xs).mp hq with ⟨q', rfl, hq'⟩ | ⟨q', rfl, hq'⟩ | rfl
  · exact absurd (hs q' hq') hTq
  · exact ranks_cons_le.mpr (.inr ⟨rfl, hle q' hq' hTq⟩)
  · exact ranks_cons_le.mpr (.inl (by simp [rank]))

theorem IsLeast.wildcard {T : List (Seg α) → Option R} {x : α} {xs : List α}
    (hs : ∀ q, Matches q xs = true → T (.static x :: q) = none)
    (hp : ∀ q, Matches q xs = true → T (.param :: q) = none)
    (hT : T [.wildcard] ≠ none) : IsLeast T (x :: xs) [.wildcard] := by
  refine ⟨by simp [Matches], hT, ?_⟩
  intro q hq hTq
  rcases (matches_cons q x xs).mp hq with ⟨q', rfl, hq'⟩ | ⟨q', rfl, hq'⟩ | rfl
  · exact absurd (hs q' hq') hTq
  · exact absurd (hp q' hq') hTq
  · exact le_rfl

/-- **What the search returns** is the result of a least matching pattern. -/
theorem select_eq_some {T : List (Seg α) → Option R} {w : List α} {r : R}
    (h : select T w = some r) : ∃ p, T p = some r ∧ IsLeast T w p := by
  induction w generalizing T with
  | nil =>
      have hT : T [] = some r := h
      refine ⟨[], hT, by simp, by simp [hT], ?_⟩
      intro q hq _
      rw [(matches_nil q).mp hq]
  | cons x xs ih =>
      simp only [select] at h
      cases hs : select (fun p => T (.static x :: p)) xs with
      | some r' =>
          rw [hs] at h
          obtain rfl : r' = r := by simpa using h
          obtain ⟨p, hT, hp⟩ := ih hs
          exact ⟨_, hT, hp.static⟩
      | none =>
          rw [hs, Option.none_or] at h
          have hs' := (select_eq_none _ _).mp hs
          cases hp : select (fun p => T (.param :: p)) xs with
          | some r' =>
              rw [hp] at h
              obtain rfl : r' = r := by simpa using h
              obtain ⟨p, hT, hpl⟩ := ih hp
              exact ⟨_, hT, hpl.param hs'⟩
          | none =>
              rw [hp, Option.none_or] at h
              exact ⟨_, h, IsLeast.wildcard hs' ((select_eq_none _ _).mp hp) (by simp [h])⟩

end select

end Seg

end Dusty
