import Mathlib.Data.Finmap

/-! # Edits of a finite map

A list of edits binds and drops keys of a finite map, in order.  What the map holds at a key
afterwards depends on the last edit on that key only (`settled`, `lookup_run`), so lists of
edits are compared key by key. -/

namespace Dusty

/-- An edit of one key. -/
inductive Edit (α β : Type) where
  | bind (key : α) (value : β)
  | drop (key : α)
deriving DecidableEq, Repr

namespace Edit

variable {α β : Type} [DecidableEq α]

def apply (m : Finmap fun _ : α => β) : Edit α β → Finmap fun _ : α => β
  | bind k v => m.insert k v
  | drop k => m.erase k

@[simp] theorem apply_bind (k : α) (v : β) (m : Finmap fun _ : α => β) :
    apply m (bind k v) = m.insert k v := rfl

@[simp] theorem apply_drop (k : α) (m : Finmap fun _ : α => β) :
    apply m (drop k) = m.erase k := rfl

/-- All the edits, first to last. -/
def run (ms : List (Edit α β)) (m : Finmap fun _ : α => β) : Finmap fun _ : α => β :=
  ms.foldl apply m

/-- What the edit makes of a key: `some (some v)` binds it, `some none` drops it. -/
def effect (k : α) : Edit α β → Option (Option β)
  | bind k' v => if k' = k then some (some v) else none
  | drop k' => if k' = k then some none else none

/-- What the last edit on a key makes of it. -/
def settled (k : α) : List (Edit α β) → Option (Option β)
  | [] => none
  | e :: ms => (settled k ms).or (e.effect k)

@[simp] theorem run_nil (m : Finmap fun _ : α => β) : run [] m = m := rfl

@[simp] theorem run_cons (e : Edit α β) (ms : List (Edit α β)) (m : Finmap fun _ : α => β) :
    run (e :: ms) m = run ms (e.apply m) := rfl

theorem run_append (ms ms' : List (Edit α β)) (m : Finmap fun _ : α => β) :
    run (ms ++ ms') m = run ms' (run ms m) := by
  unfold run
  rw [List.foldl_append]

theorem settled_append (k : α) (ms ms' : List (Edit α β)) :
    settled k (ms ++ ms') = (settled k ms').or (settled k ms) := by
  induction ms with
  | nil => simp [settled]
  | cons e ms ih => rw [List.cons_append, settled, ih, settled, Option.or_assoc]

theorem lookup_apply (k : α) (e : Edit α β) (m : Finmap fun _ : α => β) :
    (e.apply m).lookup k = (e.effect k).getD (m.lookup k) := by
  cases e with
  | bind k' v =>
      by_cases h : k' = k
      · subst h
        simp [effect]
      · simp [effect, h, Finmap.lookup_insert_of_ne m (Ne.symm h)]
  | drop k' =>
      by_cases h : k' = k
      · subst h
        simp [effect]
      · simp [effect, h, Finmap.lookup_erase_ne (Ne.symm h)]

/-- **The last edit on a key decides.** -/
theorem lookup_run (k : α) (ms : List (Edit α β)) (m : Finmap fun _ : α => β) :
    (run ms m).lookup k = (settled k ms).getD (m.lookup k) := by
  induction ms generalizing m with
  | nil => rfl
  | cons e ms ih =>
      rw [run_cons, ih, lookup_apply, settled]
      cases settled k ms <;> rfl

/-- Edits that settle every key alike have the same result. -/
theorem run_congr {ms ms' : List (Edit α β)} (h : ∀ k, settled k ms = settled k ms')
    (m : Finmap fun _ : α => β) : run ms m = run ms' m := by
  apply Finmap.ext_lookup
  intro k
  rw [lookup_run, lookup_run, h k]

/-- The edits change nothing exactly when the map agrees already with each of them that
counts. -/
theorem run_eq_self_iff (ms : List (Edit α β)) (m : Finmap fun _ : α => β) :
    run ms m = m ↔ ∀ k o, settled k ms = some o → m.lookup k = o := by
  constructor
  · intro h k o ho
    have hk := lookup_run k ms m
    rw [h, ho] at hk
    exact hk
  · intro h
    apply Finmap.ext_lookup
    intro k
    rw [lookup_run]
    cases hs : settled k ms with
    | none => rfl
    | some o => exact (h k o hs).symm

/-- From the empty map two lists of edits lead to the same map exactly when they bind the
same keys to the same values in the end. -/
theorem run_empty_eq_iff (ms ms' : List (Edit α β)) :
    run ms (∅ : Finmap fun _ : α => β) = run ms' ∅ ↔
      ∀ k, (settled k ms).join = (settled k ms').join := by
  have hrun : ∀ (l : List (Edit α β)) (k : α),
      (run l (∅ : Finmap fun _ : α => β)).lookup k = (settled k l).join := by
    intro l k
    rw [lookup_run, Finmap.lookup_empty]
    cases settled k l <;> rfl
  constructor
  · intro h k
    rw [← hrun, ← hrun, h]
  · intro h
    apply Finmap.ext_lookup
    intro k
    rw [hrun, hrun, h k]

theorem settled_drops (k : α) (ks : List α) :
    settled k (ks.map (Edit.drop (α := α) (β := β))) = if k ∈ ks then some none else none := by
  induction ks with
  | nil => rfl
  | cons k' ks ih =>
      rw [List.map_cons, settled, ih]
      by_cases hk : k ∈ ks
      · simp [hk]
      · by_cases h : k' = k
        · subst h
          simp [effect, hk]
        · simp [effect, hk, h, Ne.symm h]

/-- Dropping keys changes nothing exactly when none of them is bound. -/
theorem run_drops_eq_self_iff (ks : List α) (m : Finmap fun _ : α => β) :
    run (ks.map Edit.drop) m = m ↔ ∀ k ∈ ks, k ∉ m := by
  rw [run_eq_self_iff]
  constructor
  · intro h k hk
    have := h k none (by rw [settled_drops, if_pos hk])
    exact Finmap.lookup_eq_none.mp this
  · intro h k o ho
    rw [settled_drops] at ho
    split at ho
    · case isTrue hk =>
        obtain rfl : none = o := by simpa using ho
        exact Finmap.lookup_eq_none.mpr (h k hk)
    · cases ho

/-- A key bound, dropped keys and the key dropped again: the key is dropped with the others. -/
theorem run_bind_drops (k : α) (v : β) (ks : List α) (m : Finmap fun _ : α => β) :
    (run (ks.map Edit.drop) (m.insert k v)).erase k = run ((k :: ks).map Edit.drop) m := by
  have h : (run (ks.map Edit.drop) (m.insert k v)).erase k =
      run (Edit.bind k v :: (ks.map Edit.drop ++ [Edit.drop k])) m := by
    rw [run_cons, run_append]
    rfl
  rw [h]
  apply run_congr
  intro k'
  rw [settled, settled_append, settled_drops, settled_drops]
  by_cases hk : k = k'
  · simp [settled, effect, hk]
  · by_cases hmem : k' ∈ ks <;> simp [settled, effect, hk, hmem, Ne.symm hk]

theorem keys_run_drops (ks : List α) (m : Finmap fun _ : α => β) (k : α) :
    k ∈ run (ks.map Edit.drop) m ↔ k ∈ m ∧ k ∉ ks := by
  rw [← Finmap.lookup_isSome, ← Finmap.lookup_isSome, lookup_run, settled_drops]
  by_cases h : k ∈ ks <;> simp [h]

end Edit

end Dusty
