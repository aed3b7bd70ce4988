import Mathlib.Data.Finmap

/-! # Maps filled one field at a time

A later field overrides an earlier one with its name.  `Room` says that no field comes when there are
as many names as there may be. -/

namespace FieldMap

variable {α β : Type} [DecidableEq α]

theorem keys_insert (m : Finmap fun _ : α => β) (key : α) (value : β) :
    (m.insert key value).keys = insert key m.keys := by
  ext k
  rw [Finmap.mem_keys, Finmap.mem_insert, Finset.mem_insert, Finmap.mem_keys]

theorem card_keys_insert_le (m : Finmap fun _ : α => β) (key : α) (value : β) :
    (m.insert key value).keys.card ≤ m.keys.card + 1 := by
  rw [keys_insert]
  exact Finset.card_insert_le _ _

/-- The map with more fields. -/
def add (m : Finmap fun _ : α => β) (fields : List (α × β)) : Finmap fun _ : α => β :=
  fields.foldl (fun m field => m.insert field.1 field.2) m

/-- No field comes when there are as many names as there may be. -/
def Room (limit : ℕ) (m : Finmap fun _ : α => β) (fields : List (α × β)) : Prop :=
  ∀ i < fields.length, (add m (fields.take i)).keys.card < limit

theorem room_nil (limit : ℕ) (m : Finmap fun _ : α => β) : Room limit m [] :=
  fun i hi => absurd hi (Nat.not_lt_zero i)

theorem room_cons {limit : ℕ} {m : Finmap fun _ : α => β} {field : α × β} {fields : List (α × β)} :
    Room limit m (field :: fields) ↔
      m.keys.card < limit ∧ Room limit (m.insert field.1 field.2) fields := by
  constructor
  · intro h
    exact ⟨h 0 (Nat.succ_pos _), fun i hi => h (i + 1) (Nat.succ_lt_succ hi)⟩
  · rintro ⟨hfirst, hrest⟩ i hi
    cases i with
    | zero => exact hfirst
    | succ i => exact hrest i (Nat.lt_of_succ_lt_succ hi)

/-- Names that come with room are within the limit. -/
theorem Room.card_le {limit : ℕ} {m : Finmap fun _ : α => β} {fields : List (α × β)}
    (h : Room limit m fields) (hm : m.keys.card ≤ limit) : (add m fields).keys.card ≤ limit := by
  induction fields generalizing m with
  | nil => exact hm
  | cons field fields ih =>
      obtain ⟨hfirst, hrest⟩ := room_cons.mp h
      exact ih hrest ((card_keys_insert_le m field.1 field.2).trans hfirst)

/-- There is room for as many fields as there may be names. -/
theorem room_of_length {limit : ℕ} {m : Finmap fun _ : α => β} {fields : List (α × β)}
    (h : m.keys.card + fields.length ≤ limit) : Room limit m fields := by
  induction fields generalizing m with
  | nil => exact room_nil limit m
  | cons field fields ih =>
      have hinsert := card_keys_insert_le m field.1 field.2
      rw [List.length_cons] at h
      refine room_cons.mpr ⟨by omega, ih ?_⟩
      omega

/-- The last field with a name is the one in the map. -/
theorem lookup_add [BEq α] [LawfulBEq α] (m : Finmap fun _ : α => β) (fields : List (α × β)) (key : α) :
    (add m fields).lookup key = (fields.reverse.lookup key).or (m.lookup key) := by
  induction fields using List.reverseRecOn with
  | nil => rfl
  | append_singleton fields field ih =>
      have hadd : add m (fields ++ [field]) = (add m fields).insert field.1 field.2 := List.foldl_append
      rw [hadd, List.reverse_append, List.reverse_singleton, List.singleton_append]
      by_cases hkey : key = field.1
      · subst hkey
        rw [Finmap.lookup_insert, List.lookup_cons, beq_self_eq_true]
        rfl
      · rw [Finmap.lookup_insert_of_ne _ hkey, ih, List.lookup_cons, beq_false_of_ne hkey]

end FieldMap
