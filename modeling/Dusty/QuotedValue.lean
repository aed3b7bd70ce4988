import Dusty.Multipart

/-! # Quoted values

What the loop over a quoted value reads (`unquote`), and what it leaves in the buffer: the value where
the text began, and behind it the bytes that were there.  The write position is never in front of
the read position, so what is still to be read is as it was. -/

namespace Dusty
namespace MultipartForm

open Act

/-- The value of a quoted text as far as it is read, and what is behind the closing quote, if there is
one. -/
def unquote : Bytes → Bytes × Option Bytes
  | [] => ([], none)
  | [92] => ([], none)
  | 92 :: n :: rest =>
      if isEscapable n then (n :: (unquote rest).1, (unquote rest).2)
      else (92 :: (unquote (n :: rest)).1, (unquote (n :: rest)).2)
  | 34 :: rest => ([], some rest)
  | b :: rest => (b :: (unquote rest).1, (unquote rest).2)

theorem unquote_close (rest : Bytes) : unquote (34 :: rest) = ([], some rest) := by rw [unquote]

theorem unquote_escape {n : UInt8} (h : isEscapable n = true) (rest : Bytes) :
    unquote (92 :: n :: rest) = (n :: (unquote rest).1, (unquote rest).2) := by
  rw [unquote, if_pos h]

theorem unquote_backslash {n : UInt8} (h : isEscapable n = false) (rest : Bytes) :
    unquote (92 :: n :: rest) = (92 :: (unquote (n :: rest)).1, (unquote (n :: rest)).2) := by
  rw [unquote, if_neg (Bool.eq_false_iff.mp h)]

theorem unquote_plain {b : UInt8} (hbackslash : b ≠ 92) (hquote : b ≠ 34) (rest : Bytes) :
    unquote (b :: rest) = (b :: (unquote rest).1, (unquote rest).2) := by
  rw [unquote]
  · exact fun h _ => hbackslash h
  · exact fun _ _ h _ => hbackslash h
  · exact hquote

theorem unquote_induction {P : Bytes → Prop} (nil : P []) (trailing : P [92])
    (escape : ∀ n rest, isEscapable n = true → P rest → P (92 :: n :: rest))
    (backslash : ∀ n rest, isEscapable n = false → P (n :: rest) → P (92 :: n :: rest))
    (close : ∀ rest, P (34 :: rest))
    (plain : ∀ b rest, b ≠ 92 → b ≠ 34 → P rest → P (b :: rest)) (text : Bytes) : P text := by
  fun_induction unquote text with
  | case1 => exact nil
  | case2 => exact trailing
  | case3 n rest h ih => exact escape n rest h ih
  | case4 n rest h ih => exact backslash n rest (Bool.eq_false_iff.mpr h) ih
  | case5 rest => exact close rest
  | case6 b rest htrailing hbackslash hquote ih =>
      refine plain b rest (fun h => ?_) hquote ih
      cases rest with
      | nil => exact htrailing h rfl
      | cons n rest => exact hbackslash n rest h rfl

/-- A value is no longer than its text, nor is what is left. -/
theorem length_unquote (text : Bytes) :
    (unquote text).1.length ≤ text.length ∧
      ∀ rest ∈ (unquote text).2, (unquote text).1.length + rest.length < text.length := by
  induction text using unquote_induction with
  | nil => simp [unquote]
  | trailing => simp [unquote]
  | escape n rest h ih =>
      rw [unquote_escape h]
      refine ⟨Nat.succ_le_succ (ih.1.trans (Nat.le_succ _)), fun r hr => ?_⟩
      have hlt := ih.2 r hr
      simp only [List.length_cons]
      omega
  | backslash n rest h ih =>
      rw [unquote_backslash h]
      refine ⟨Nat.succ_le_succ ih.1, fun r hr => ?_⟩
      have hlt := ih.2 r hr
      simp only [List.length_cons] at hlt ⊢
      omega
  | close rest => simp [unquote_close]
  | plain b rest hbackslash hquote ih =>
      rw [unquote_plain hbackslash hquote]
      refine ⟨Nat.succ_le_succ ih.1, fun r hr => ?_⟩
      have hlt := ih.2 r hr
      simp only [List.length_cons]
      omega

/-! ### The loop -/

section
variable {fields : View} {before behind lead : Bytes}

/-- A byte is written where the first byte that is not needed any more was. -/
theorem store_next {written gap consumed rest : Bytes} (hconsumed : consumed ≠ [])
    (hat : fields.At before (lead ++ written ++ gap ++ (consumed ++ rest))) (c : UInt8) :
    fields.store (lead ++ written).length c
        (before ++ (lead ++ written ++ gap ++ (consumed ++ rest)) ++ behind) =
      .ok () (before ++ (lead ++ (written ++ [c]) ++ (gap ++ consumed).tail ++ rest) ++ behind) := by
  obtain ⟨b, more, hcons⟩ : ∃ b more, gap ++ consumed = b :: more :=
    List.exists_cons_of_ne_nil fun h => hconsumed (List.append_eq_nil_iff.mp h).2
  have hmiddle : lead ++ written ++ gap ++ (consumed ++ rest) = (lead ++ written) ++ b :: (more ++ rest) := by
    rw [List.append_assoc (lead ++ written), ← List.append_assoc gap, hcons, List.cons_append]
  have hlt : (lead ++ written).length < (lead ++ written ++ gap ++ (consumed ++ rest)).length := by
    rw [hmiddle, @List.length_append _ (lead ++ written) _, List.length_cons]
    omega
  rw [hat.store behind hlt, hmiddle, List.set_append_right _ _ le_rfl, Nat.sub_self,
    List.set_cons_zero, hcons, List.tail_cons]
  simp only [List.append_assoc, List.cons_append, List.nil_append]

theorem load_next {written gap : Bytes} {b : UInt8} {k : ℕ} {text : Bytes}
    (hat : fields.At before (lead ++ written ++ gap ++ text)) (hk : text[k]? = some b) :
    fields.load ((lead ++ written ++ gap).length + k)
        (before ++ (lead ++ written ++ gap ++ text) ++ behind) =
      .ok b (before ++ (lead ++ written ++ gap ++ text) ++ behind) := by
  refine hat.load behind ?_
  rw [List.getElem?_append_right (Nat.le_add_right _ _), Nat.add_sub_cancel_left, hk]

theorem load_here {written gap : Bytes} {b : UInt8} {text : Bytes}
    (hat : fields.At before (lead ++ written ++ gap ++ text)) (hb : text[0]? = some b) :
    fields.load (lead ++ written ++ gap).length (before ++ (lead ++ written ++ gap ++ text) ++ behind) =
      .ok b (before ++ (lead ++ written ++ gap ++ text) ++ behind) := load_next hat hb

theorem quotedStep_plain (behind : Bytes) (valueStart : ℕ) {written gap rest : Bytes} {b : UInt8} (hbackslash : b ≠ 92)
    (hquote : b ≠ 34) (hat : fields.At before (lead ++ written ++ gap ++ ([b] ++ rest))) :
    quotedStep fields valueStart (lead ++ written ++ gap).length (lead ++ written).length
        (before ++ (lead ++ written ++ gap ++ ([b] ++ rest)) ++ behind) =
      .ok (.next ((lead ++ written ++ gap).length + 1) ((lead ++ written).length + 1))
        (before ++ (lead ++ (written ++ [b]) ++ (gap ++ [b]).tail ++ rest) ++ behind) := by
  unfold quotedStep
  rw [bind_ok (load_here hat rfl), if_neg hbackslash, if_neg hquote,
    bind_ok (store_next (List.cons_ne_nil _ _) hat b)]
  rfl

theorem quotedStep_backslash (behind : Bytes) (valueStart : ℕ) {written gap rest : Bytes} {n : UInt8}
    (hat : fields.At before (lead ++ written ++ gap ++ ([92, n] ++ rest))) :
    quotedStep fields valueStart (lead ++ written ++ gap).length (lead ++ written).length
        (before ++ (lead ++ written ++ gap ++ ([92, n] ++ rest)) ++ behind) =
      if isEscapable n then
        .ok (.next ((lead ++ written ++ gap).length + 2) ((lead ++ written).length + 1))
          (before ++ (lead ++ (written ++ [n]) ++ (gap ++ [92, n]).tail ++ rest) ++ behind)
      else
        .ok (.next ((lead ++ written ++ gap).length + 1) ((lead ++ written).length + 1))
          (before ++ (lead ++ (written ++ [92]) ++ (gap ++ [92]).tail ++ (n :: rest)) ++ behind) := by
  have hmore : ¬fields.len ≤ (lead ++ written ++ gap).length + 1 := by
    rw [hat.len, @List.length_append _ (lead ++ written ++ gap) _]
    simp only [List.length_append, List.length_cons]
    omega
  unfold quotedStep
  rw [bind_ok (load_here hat rfl), if_pos rfl, if_neg hmore, bind_ok (load_next (k := 1) hat rfl)]
  by_cases hn : isEscapable n = true
  · rw [if_pos hn, if_pos hn, bind_ok (store_next (List.cons_ne_nil _ _) hat n)]
    rfl
  · rw [if_neg hn, if_neg hn]
    have hstore : fields.store (lead ++ written).length 92
          (before ++ (lead ++ written ++ gap ++ ([92, n] ++ rest)) ++ behind) =
        .ok () (before ++ (lead ++ (written ++ [92]) ++ (gap ++ [92]).tail ++ (n :: rest)) ++ behind) :=
      store_next (List.cons_ne_nil 92 []) hat 92
    rw [bind_ok hstore]
    rfl

theorem quotedStep_trailing {valueStart : ℕ} {written gap : Bytes}
    (hat : fields.At before (lead ++ written ++ gap ++ [92])) :
    quotedStep fields valueStart (lead ++ written ++ gap).length (lead ++ written).length
        (before ++ (lead ++ written ++ gap ++ [92]) ++ behind) =
      .error (.err .invalidMultiPartEncoding)
        (before ++ (lead ++ written ++ gap ++ [92]) ++ behind) := by
  have hend : fields.len ≤ (lead ++ written ++ gap).length + 1 := by
    rw [hat.len, @List.length_append _ (lead ++ written ++ gap) _]
    rfl
  unfold quotedStep
  rw [bind_ok (load_here hat rfl), if_pos rfl, if_pos hend]
  rfl

theorem quotedStep_close {valueStart : ℕ} (hlead : lead.length = valueStart + 1)
    {written gap rest : Bytes} (hat : fields.At before (lead ++ written ++ gap ++ (34 :: rest))) :
    quotedStep fields valueStart (lead ++ written ++ gap).length (lead ++ written).length
        (before ++ (lead ++ written ++ gap ++ (34 :: rest)) ++ behind) =
      .ok (.closed ⟨(before ++ lead).length, written.length⟩ ((lead ++ written ++ gap).length + 1))
        (before ++ (lead ++ written ++ gap ++ (34 :: rest)) ++ behind) := by
  rw [List.append_assoc (lead ++ written)] at hat
  obtain ⟨value, hslice, hvalue⟩ := hat.slice (before ++ (lead ++ written ++ (gap ++ 34 :: rest)) ++ behind)
  rw [hlead, ← List.append_assoc (lead ++ written)] at hslice
  rw [← List.append_assoc (lead ++ written)] at hat
  unfold quotedStep
  rw [bind_ok (load_here hat rfl), if_neg (by decide), if_pos rfl,
    @List.length_append _ lead _, hlead, bind_ok hslice, hvalue]
  rfl

variable (before behind lead) in
/-- How the loop ends: where the value is and the next attribute can begin, and the buffer, with the
value where the text began. -/
def quotedEnd (written gap text : Bytes) : EStateM.Result Fault Bytes (View × ℕ) :=
  match (unquote text).2 with
  | none => .error (.err .invalidMultiPartEncoding)
      (before ++ (lead ++ (written ++ (unquote text).1) ++
        (gap ++ text).drop (unquote text).1.length) ++ behind)
  | some rest => .ok (⟨(before ++ lead).length, (written ++ (unquote text).1).length⟩,
        (lead ++ written ++ gap ++ text).length - rest.length)
      (before ++ (lead ++ (written ++ (unquote text).1) ++
        (gap ++ text).drop (unquote text).1.length) ++ behind)

theorem quotedEnd_next {written gap consumed rest : Bytes} {c : UInt8} (hconsumed : consumed ≠ [])
    (hread : unquote (consumed ++ rest) = (c :: (unquote rest).1, (unquote rest).2)) :
    quotedEnd before behind lead (written ++ [c]) (gap ++ consumed).tail rest =
      quotedEnd before behind lead written gap (consumed ++ rest) := by
  have hne : gap ++ consumed ≠ [] := fun h => hconsumed (List.append_eq_nil_iff.mp h).2
  have hlength : (gap ++ consumed).tail.length + 1 = gap.length + consumed.length := by
    rw [List.length_tail, ← List.length_append]
    have hpos := List.length_pos_iff.mpr hne
    omega
  have hdrop : ((gap ++ consumed).tail ++ rest).drop (unquote rest).1.length =
      (gap ++ (consumed ++ rest)).drop ((unquote rest).1.length + 1) := by
    rw [← List.append_assoc, Nat.add_comm, ← List.drop_drop, List.drop_one,
      List.tail_append_of_ne_nil hne]
  have hvalue : written ++ [c] ++ (unquote rest).1 = written ++ c :: (unquote rest).1 := by
    rw [List.append_assoc, List.singleton_append]
  have htotal : (lead ++ (written ++ [c]) ++ (gap ++ consumed).tail ++ rest).length =
      (lead ++ written ++ gap ++ (consumed ++ rest)).length := by
    simp only [List.length_append, List.length_singleton] at hlength ⊢
    omega
  unfold quotedEnd
  rw [hread]
  simp only [hdrop, hvalue, htotal, List.length_cons]

/-- Where the loop is when one more byte of the value is written. -/
theorem quotedLoop_next {valueStart fuel : ℕ} {written gap consumed rest : Bytes} {c : UInt8}
    (hconsumed : consumed ≠ [])
    (hread : unquote (consumed ++ rest) = (c :: (unquote rest).1, (unquote rest).2))
    (hrest : quotedLoop fields valueStart fuel
        (lead ++ (written ++ [c]) ++ (gap ++ consumed).tail).length (lead ++ (written ++ [c])).length
        (before ++ (lead ++ (written ++ [c]) ++ (gap ++ consumed).tail ++ rest) ++ behind) =
      quotedEnd before behind lead (written ++ [c]) (gap ++ consumed).tail rest) :
    quotedLoop fields valueStart fuel ((lead ++ written ++ gap).length + consumed.length)
        ((lead ++ written).length + 1)
        (before ++ (lead ++ (written ++ [c]) ++ (gap ++ consumed).tail ++ rest) ++ behind) =
      quotedEnd before behind lead written gap (consumed ++ rest) := by
  have hne : gap ++ consumed ≠ [] := fun h => hconsumed (List.append_eq_nil_iff.mp h).2
  have hlength : (gap ++ consumed).tail.length + 1 = gap.length + consumed.length := by
    rw [List.length_tail, ← List.length_append]
    have hpos := List.length_pos_iff.mpr hne
    omega
  have hpos : (lead ++ (written ++ [c]) ++ (gap ++ consumed).tail).length =
      (lead ++ written ++ gap).length + consumed.length := by
    simp only [List.length_append, List.length_singleton] at hlength ⊢
    omega
  have hwrite : (lead ++ (written ++ [c])).length = (lead ++ written).length + 1 := by
    rw [← List.append_assoc, @List.length_append _ _ [c]]
    rfl
  rw [hpos, hwrite] at hrest
  rw [hrest, quotedEnd_next hconsumed hread]

theorem at_next {written gap consumed rest : Bytes} {c : UInt8} (hconsumed : consumed ≠ [])
    (hat : fields.At before (lead ++ written ++ gap ++ (consumed ++ rest))) :
    fields.At before (lead ++ (written ++ [c]) ++ (gap ++ consumed).tail ++ rest) := by
  refine hat.congr ?_
  have hpos : 0 < consumed.length := List.length_pos_iff.mpr hconsumed
  simp only [List.length_append, List.length_singleton, List.length_tail]
  omega

/-- **The loop over a quoted value**: it reads what `unquote` reads, and leaves the value where the
text began. -/
theorem quotedLoop_eq (behind : Bytes) {valueStart : ℕ} (hlead : lead.length = valueStart + 1) (text : Bytes) :
    ∀ {fuel : ℕ} {written gap : Bytes}, text.length < fuel →
      fields.At before (lead ++ written ++ gap ++ text) →
      quotedLoop fields valueStart fuel (lead ++ written ++ gap).length (lead ++ written).length
          (before ++ (lead ++ written ++ gap ++ text) ++ behind) =
        quotedEnd before behind lead written gap text := by
  have hmore : ∀ {written gap text : Bytes}, text ≠ [] →
      fields.At before (lead ++ written ++ gap ++ text) →
      (lead ++ written ++ gap).length < fields.len := by
    intro written gap text htext hat
    rw [hat.len, @List.length_append _ _ text]
    have hpos := List.length_pos_iff.mpr htext
    omega
  induction text using unquote_induction with
  | nil =>
      intro fuel written gap hfuel hat
      obtain ⟨fuel, rfl⟩ := Nat.exists_eq_succ_of_ne_zero (Nat.ne_of_gt (Nat.zero_lt_of_lt hfuel))
      rw [quotedLoop, if_neg (by rw [hat.len, List.append_nil]; exact lt_irrefl _)]
      simp [quotedEnd, unquote]
  | trailing =>
      intro fuel written gap hfuel hat
      obtain ⟨fuel, rfl⟩ := Nat.exists_eq_succ_of_ne_zero (Nat.ne_of_gt (Nat.zero_lt_of_lt hfuel))
      rw [quotedLoop, if_pos (hmore (List.cons_ne_nil _ _) hat), bind_error (quotedStep_trailing hat)]
      simp [quotedEnd, unquote]
  | escape n rest h ih =>
      intro fuel written gap hfuel hat
      obtain ⟨fuel, rfl⟩ := Nat.exists_eq_succ_of_ne_zero (Nat.ne_of_gt (Nat.zero_lt_of_lt hfuel))
      have hconsumed : [92, n] ≠ [] := List.cons_ne_nil _ _
      have hstep := quotedStep_backslash behind valueStart hat
      rw [if_pos h] at hstep
      have hless : rest.length < fuel := by
        simp only [List.length_cons] at hfuel
        omega
      have hrest := ih hless (at_next (c := n) hconsumed hat)
      rw [quotedLoop, if_pos (hmore (List.cons_ne_nil _ _) hat)]
      exact (bind_ok hstep).trans (quotedLoop_next hconsumed (unquote_escape h rest) hrest)
  | backslash n rest h ih =>
      intro fuel written gap hfuel hat
      obtain ⟨fuel, rfl⟩ := Nat.exists_eq_succ_of_ne_zero (Nat.ne_of_gt (Nat.zero_lt_of_lt hfuel))
      have hconsumed : [(92 : UInt8)] ≠ [] := List.cons_ne_nil _ _
      have hstep := quotedStep_backslash behind valueStart hat
      rw [if_neg (Bool.eq_false_iff.mp h)] at hstep
      have hless : (n :: rest).length < fuel := Nat.lt_of_succ_lt_succ hfuel
      have hrest := ih hless (at_next (c := 92) hconsumed hat)
      rw [quotedLoop, if_pos (hmore (List.cons_ne_nil _ _) hat)]
      exact (bind_ok hstep).trans (quotedLoop_next hconsumed (unquote_backslash h rest) hrest)
  | close rest =>
      intro fuel written gap hfuel hat
      obtain ⟨fuel, rfl⟩ := Nat.exists_eq_succ_of_ne_zero (Nat.ne_of_gt (Nat.zero_lt_of_lt hfuel))
      have hpos : (lead ++ written ++ gap ++ 34 :: rest).length - rest.length =
          (lead ++ written ++ gap).length + 1 := by
        rw [@List.length_append _ _ (34 :: rest), List.length_cons]
        omega
      rw [quotedLoop, if_pos (hmore (List.cons_ne_nil _ _) hat), bind_ok (quotedStep_close hlead hat)]
      unfold quotedEnd
      rw [unquote_close]
      simp only [List.append_nil, List.length_nil, List.drop_zero, hpos]
      rw [List.append_assoc (lead ++ written)]
      rfl
  | plain b rest hbackslash hquote ih =>
      intro fuel written gap hfuel hat
      obtain ⟨fuel, rfl⟩ := Nat.exists_eq_succ_of_ne_zero (Nat.ne_of_gt (Nat.zero_lt_of_lt hfuel))
      have hconsumed : [b] ≠ [] := List.cons_ne_nil _ _
      have hstep := quotedStep_plain behind valueStart hbackslash hquote hat
      have hless : rest.length < fuel := Nat.lt_of_succ_lt_succ hfuel
      have hrest := ih hless (at_next (c := b) hconsumed hat)
      rw [quotedLoop, if_pos (hmore (List.cons_ne_nil _ _) hat)]
      exact (bind_ok hstep).trans
        (quotedLoop_next hconsumed (unquote_plain hbackslash hquote rest) hrest)

end

end MultipartForm
end Dusty
