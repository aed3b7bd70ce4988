import Dusty.View

/-! # Splitting at a text

`splitSequence` cuts a text at every occurrence of a delimiter, from the left.  Pieces that do not
hold the delimiter, and end with a byte that it does not hold, are what is got back. -/

namespace Dusty

variable {d : Bytes}

theorem indexOfSlice_some : ∀ {text : Bytes} {n : ℕ}, indexOfSlice d text = some n →
    ∃ rest, text = text.take n ++ d ++ rest ∧ (text.take n).length = n
  | [], n, h => by
      unfold indexOfSlice at h
      split at h
      · next hd =>
          cases h
          exact ⟨[], by rw [hd]; rfl, rfl⟩
      · cases h
  | b :: text, n, h => by
      rw [indexOfSlice] at h
      split at h
      · next hprefix =>
          cases h
          obtain ⟨rest, hrest⟩ := List.isPrefixOf_iff_prefix.mp hprefix
          exact ⟨rest, hrest.symm, rfl⟩
      · rw [Option.map_eq_some_iff] at h
        obtain ⟨m, hm, rfl⟩ := h
        obtain ⟨rest, htext, hlength⟩ := indexOfSlice_some hm
        refine ⟨rest, ?_, ?_⟩
        · rw [List.take_succ_cons, List.cons_append, List.cons_append, ← htext]
        · rw [List.take_succ_cons, List.length_cons, hlength]

theorem indexOfSlice_eq_none {text : Bytes} : indexOfSlice d text = none ↔ ¬d <:+: text := by
  induction text with
  | nil => simp [indexOfSlice]
  | cons b text ih =>
      rw [indexOfSlice, List.infix_cons_iff, not_or, ← ih]
      by_cases h : d.isPrefixOf (b :: text) = true
      · rw [if_pos h]
        simp [List.isPrefixOf_iff_prefix.mp h]
      · rw [if_neg h, Option.map_eq_none_iff]
        exact ⟨fun hnone => ⟨fun hprefix => h (List.isPrefixOf_iff_prefix.mpr hprefix), hnone⟩, And.right⟩

/-- No occurrence of the delimiter begins in the text, whatever comes behind it: it does not hold the
delimiter, and it ends with a byte that the delimiter does not hold. -/
def Apart (d text : Bytes) : Prop := ¬d <:+: text ∧ ∀ b, text.getLast? = some b → b ∉ d

theorem apart_nil (hd : d ≠ []) : Apart d [] :=
  ⟨fun h => hd (List.infix_nil.mp h), fun _ h => by cases h⟩

theorem Apart.tail {b : UInt8} {text : Bytes} (h : Apart d (b :: text)) : Apart d text := by
  refine ⟨fun hin => h.1 (List.infix_cons_iff.mpr (.inr hin)), fun c hc => h.2 c ?_⟩
  cases text with
  | nil => cases hc
  | cons c' text => rw [List.getLast?_cons_cons, hc]

/-- The delimiter does not begin where a text begins that is apart. -/
theorem Apart.not_prefix {b : UInt8} {text rest : Bytes} (h : Apart d (b :: text)) :
    ¬d <+: b :: text ++ rest := by
  intro hprefix
  rcases List.prefix_or_prefix_of_prefix hprefix (List.prefix_append _ rest) with hinside | hcovered
  · exact h.1 hinside.isInfix
  · have hlast := List.getLast?_eq_some_getLast (List.cons_ne_nil b text)
    exact h.2 _ hlast (hcovered.subset (List.mem_of_getLast? hlast))

/-- The first delimiter is behind the text that is apart. -/
theorem indexOfSlice_append (hd : d ≠ []) (rest : Bytes) : ∀ {piece : Bytes}, Apart d piece →
    indexOfSlice d (piece ++ rest) = (indexOfSlice d rest).map (· + piece.length)
  | [], _ => by
      cases h : indexOfSlice d rest with
      | none => exact h
      | some n => exact h
  | b :: piece, h => by
      have hprefix : ¬d.isPrefixOf (b :: (piece ++ rest)) = true :=
        fun hp => h.not_prefix (List.isPrefixOf_iff_prefix.mp hp)
      rw [List.cons_append, indexOfSlice, if_neg hprefix, indexOfSlice_append hd rest h.tail, Option.map_map]
      rfl

/-! ### The pieces -/

/-- `std.mem.splitSequence`: the pieces between the delimiters, always at least one. -/
def splitSequence (d : Bytes) (hd : d ≠ []) (text : Bytes) : List Bytes :=
  match h : indexOfSlice d text with
  | none => [text]
  | some n =>
      have _hless : (text.drop (n + d.length)).length < text.length := by
        obtain ⟨rest, htext, hlength⟩ := indexOfSlice_some h
        have htotal := congrArg List.length htext
        have hpos := List.length_pos_iff.mpr hd
        rw [List.length_append, List.length_append, hlength] at htotal
        rw [List.length_drop]
        omega
      text.take n :: splitSequence d hd (text.drop (n + d.length))
termination_by text.length
decreasing_by exact _hless

variable {hd : d ≠ []}

theorem splitSequence_none {text : Bytes} (h : indexOfSlice d text = none) :
    splitSequence d hd text = [text] := by
  rw [splitSequence]
  split
  · rfl
  · next h' =>
      rw [h] at h'
      cases h'

theorem splitSequence_some {text : Bytes} {n : ℕ} (h : indexOfSlice d text = some n) :
    splitSequence d hd text = text.take n :: splitSequence d hd (text.drop (n + d.length)) := by
  rw [splitSequence]
  split
  · next h' =>
      rw [h] at h'
      cases h'
  · next h' =>
      rw [h] at h'
      cases h'
      rfl

theorem splitSequence_ne_nil (text : Bytes) : splitSequence d hd text ≠ [] := by
  cases h : indexOfSlice d text with
  | none =>
      rw [splitSequence_none h]
      exact List.cons_ne_nil _ _
  | some n =>
      rw [splitSequence_some h]
      exact List.cons_ne_nil _ _

/-- The pieces and the delimiters between them are the text. -/
theorem intercalate_splitSequence (text : Bytes) : d.intercalate (splitSequence d hd text) = text := by
  fun_induction splitSequence d hd text with
  | case1 text h => exact List.intercalate_singleton
  | case2 text n h hless ih =>
      obtain ⟨rest, htext, hlength⟩ := indexOfSlice_some h
      have hdrop : text.drop (n + d.length) = rest := by
        conv_lhs => rw [htext]
        refine List.drop_left' ?_
        rw [List.length_append, hlength]
      rw [List.intercalate_cons_of_ne_nil (splitSequence_ne_nil _), ih, hdrop, ← htext]

/-- Pieces of the same lengths that make one text are the same. -/
theorem intercalate_inj {pieces pieces' : List Bytes}
    (hlength : pieces.map List.length = pieces'.map List.length)
    (h : d.intercalate pieces = d.intercalate pieces') : pieces = pieces' := by
  induction pieces generalizing pieces' with
  | nil =>
      cases pieces' with
      | nil => rfl
      | cons => cases hlength
  | cons piece rest ih =>
      cases pieces' with
      | nil => cases hlength
      | cons piece' rest' =>
          rw [List.map_cons, List.map_cons, List.cons.injEq] at hlength
          cases rest with
          | nil =>
              obtain rfl : rest' = [] := List.map_eq_nil_iff.mp hlength.2.symm
              rw [List.intercalate_singleton, List.intercalate_singleton] at h
              rw [h]
          | cons next rest =>
              have hne : rest' ≠ [] := by
                rintro rfl
                cases hlength.2
              rw [List.intercalate_cons_of_ne_nil (List.cons_ne_nil _ _),
                List.intercalate_cons_of_ne_nil hne] at h
              obtain ⟨hfront, hrest⟩ := List.append_inj h (by
                rw [List.length_append, List.length_append, hlength.1])
              rw [List.append_cancel_right hfront, ih hlength.2 hrest]

theorem splitSequence_append {piece : Bytes} (h : Apart d piece) (rest : Bytes) :
    splitSequence d hd (piece ++ rest) = (splitSequence d hd rest).modifyHead (piece ++ ·) := by
  have hindex := indexOfSlice_append hd rest h
  cases hrest : indexOfSlice d rest with
  | none =>
      rw [hrest] at hindex
      rw [splitSequence_none hrest, splitSequence_none hindex]
      rfl
  | some n =>
      rw [hrest, Option.map_some, Nat.add_comm] at hindex
      rw [splitSequence_some hrest, splitSequence_some hindex, List.modifyHead_cons, List.take_length_add_append,
        Nat.add_assoc, List.drop_length_add_append]

theorem splitSequence_apart {piece : Bytes} (h : Apart d piece) (rest : Bytes) :
    splitSequence d hd (piece ++ (d ++ rest)) = piece :: splitSequence d hd rest := by
  obtain ⟨b, more, rfl⟩ := List.exists_cons_of_ne_nil hd
  have hfirst : indexOfSlice (b :: more) (b :: more ++ rest) = some 0 := by
    rw [List.cons_append, indexOfSlice, if_pos]
    exact List.isPrefixOf_iff_prefix.mpr (List.prefix_append _ _)
  rw [splitSequence_append h, splitSequence_some hfirst, Nat.zero_add, List.drop_left' rfl,
    List.modifyHead_cons, List.take_zero, List.append_nil]

/-- A text without the delimiter is the only piece. -/
theorem splitSequence_last {text : Bytes} (h : ¬d <:+: text) : splitSequence d hd text = [text] :=
  splitSequence_none (indexOfSlice_eq_none.mpr h)

end Dusty
