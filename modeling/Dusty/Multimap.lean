import Mathlib.Data.List.Induction
import Mathlib.Data.List.Perm.Basic
import Mathlib.Data.Nat.Notation

/-! # Multimaps as lists of pairs

A list of pairs, searched with a test of the keys that need not be equality.  `keys` has one key of
each class, the one that came first, and `groups` has with it all values of the class.  No value gets
lost that way, and none comes twice: `flatMap_groups_perm`. -/

namespace Multimap

variable {α β : Type} (same : α → α → Bool)

/-- The first value. -/
def get (key : α) (m : List (α × β)) : Option β := (m.find? fun pair => same pair.1 key).map Prod.snd

/-- A new value in the place of the first one. -/
def set (key : α) (value : β) : List (α × β) → List (α × β)
  | [] => []
  | pair :: m => if same pair.1 key then (pair.1, value) :: m else pair :: set key value m

/-- Nothing is left of the key. -/
def remove (key : α) (m : List (α × β)) : List (α × β) := m.filter fun pair => !same pair.1 key

/-- The keys, each as it came first. -/
def keys : List (α × β) → List α
  | [] => []
  | pair :: m => pair.1 :: (keys m).filter fun key => !same pair.1 key

/-- All values of a key, in their order. -/
def values (key : α) (m : List (α × β)) : List β := (m.filter fun pair => same pair.1 key).map Prod.snd

/-- The keys with their values. -/
def groups (m : List (α × β)) : List (α × List β) := (keys same m).map fun key => (key, values same key m)

variable {same}

/-! ### A new value -/

/-- The first place of a key is where `set` writes. -/
theorem set_eq_of_first {key : α} {value : β} {m : List (α × β)} {i : ℕ} (hi : i < m.length)
    (hsame : same m[i].1 key = true) (hfirst : ∀ j (hj : j < i), same m[j].1 key = false) :
    set same key value m = m.set i (m[i].1, value) := by
  induction m generalizing i with
  | nil => exact absurd hi (Nat.not_lt_zero i)
  | cons pair m ih =>
      unfold set
      cases i with
      | zero => exact if_pos hsame
      | succ i =>
          have hhead : ¬same pair.1 key = true := by simpa using hfirst 0 (Nat.succ_pos i)
          rw [if_neg hhead, List.set_cons_succ]
          congr 1
          exact ih (Nat.lt_of_succ_lt_succ hi) hsame fun j hj => hfirst (j + 1) (Nat.succ_lt_succ hj)

/-! ### The keys -/

theorem keys_append_singleton (m : List (α × β)) (pair : α × β) :
    keys same (m ++ [pair]) =
      keys same m ++ if m.any (fun before => same before.1 pair.1) then [] else [pair.1] := by
  induction m with
  | nil => rfl
  | cons first m ih =>
      rw [List.cons_append, keys, ih, keys, List.filter_append, List.any_cons, List.cons_append]
      congr 2
      cases hfirst : same first.1 pair.1 with
      | true =>
          rw [Bool.true_or, if_pos rfl]
          split
          · rfl
          · simp [hfirst]
      | false =>
          rw [Bool.false_or]
          split
          · rfl
          · simp [hfirst]

theorem keys_pairwise (m : List (α × β)) : (keys same m).Pairwise fun a b => same a b = false := by
  induction m with
  | nil => exact List.Pairwise.nil
  | cons pair m ih =>
      refine List.pairwise_cons.mpr ⟨fun key hkey => ?_, ih.filter _⟩
      simpa using (List.mem_filter.mp hkey).2

/-- The keys are those with nothing of their class before them. -/
theorem keys_eq_places (m : List (α × β)) :
    keys same m = (m.zipIdx.filter fun place =>
      !(m.take place.2).any fun before => same before.1 place.1.1).map fun place => place.1.1 := by
  induction m using List.reverseRecOn with
  | nil => rfl
  | append_singleton m pair ih =>
      have hbefore : (m.zipIdx.filter fun place =>
          !((m ++ [pair]).take place.2).any fun before => same before.1 place.1.1) =
          m.zipIdx.filter fun place => !(m.take place.2).any fun before => same before.1 place.1.1 := by
        refine List.filter_congr fun place hplace => ?_
        have hlt : place.2 < m.length := List.snd_lt_of_mem_zipIdx hplace
        rw [List.take_append_of_le_length (Nat.le_of_lt hlt)]
      rw [keys_append_singleton, ih, List.zipIdx_append, List.filter_append, List.map_append, hbefore]
      congr 1
      rw [Nat.zero_add, List.zipIdx_singleton]
      cases hany : m.any fun before => same before.1 pair.1 with
      | true => rw [List.filter_cons_of_neg (by simpa using hany)]; rfl
      | false => rw [List.filter_cons_of_pos (by simpa using hany)]; rfl

/-! ### Classes of keys -/

section classes

variable (h : Equivalence fun a b => same a b = true)
include h

theorem same_comm (a b : α) : same a b = same b a :=
  Bool.eq_iff_iff.mpr ⟨h.symm, h.symm⟩

theorem same_congr {a b : α} (hab : same a b = true) (c : α) : same a c = same b c :=
  Bool.eq_iff_iff.mpr ⟨h.trans (h.symm hab), h.trans hab⟩

/-- A key that is there comes first with one of the keys. -/
theorem exists_key {m : List (α × β)} {pair : α × β} (hmem : pair ∈ m) :
    ∃ key ∈ keys same m, same key pair.1 = true := by
  induction m with
  | nil => cases hmem
  | cons first m ih =>
      rcases List.mem_cons.mp hmem with rfl | hmem
      · exact ⟨pair.1, List.mem_cons_self, h.refl pair.1⟩
      · obtain ⟨key, hkey, hsame⟩ := ih hmem
        cases hfirst : same first.1 key with
        | true => exact ⟨first.1, List.mem_cons_self, h.trans hfirst hsame⟩
        | false =>
            refine ⟨key, List.mem_cons_of_mem _ (List.mem_filter.mpr ⟨hkey, ?_⟩), hsame⟩
            rw [hfirst]
            rfl

theorem filter_keys (a : α) (m : List (α × β)) :
    (keys same m).filter (fun key => !same a key) = keys same (m.filter fun pair => !same a pair.1) := by
  induction m with
  | nil => rfl
  | cons first m ih =>
      rw [keys]
      cases hfirst : same a first.1 with
      | true =>
          rw [List.filter_cons_of_neg (by simp [hfirst]), List.filter_cons_of_neg (by simp [hfirst]),
            List.filter_filter, ← ih]
          refine List.filter_congr fun key _ => ?_
          rw [same_congr h hfirst key, Bool.and_self]
      | false =>
          rw [List.filter_cons_of_pos (by simp [hfirst]), List.filter_cons_of_pos (by simp [hfirst]), keys,
            ← ih, List.filter_filter, List.filter_filter]
          congr 1
          exact List.filter_congr fun key _ => Bool.and_comm _ _

theorem values_filter {a key : α} (hother : same a key = false) (m : List (α × β)) :
    values same key (m.filter fun pair => !same a pair.1) = values same key m := by
  unfold values
  rw [List.filter_filter]
  congr 1
  refine List.filter_congr fun pair _ => ?_
  cases hpair : same pair.1 key with
  | false => rfl
  | true =>
      have hnot : same a pair.1 = false := by
        rw [same_comm h, same_congr h hpair, same_comm h, hother]
      rw [hnot]
      rfl

theorem groups_cons (first : α × β) (m : List (α × β)) :
    groups same (first :: m) = (first.1, first.2 :: values same first.1 m) ::
      groups same (m.filter fun pair => !same first.1 pair.1) := by
  unfold groups
  rw [keys, List.map_cons, filter_keys h]
  congr 1
  · unfold values
    rw [List.filter_cons_of_pos (p := fun pair : α × β => same pair.1 first.1) (h.refl first.1)]
    rfl
  · refine List.map_congr_left fun key hkey => ?_
    rw [← filter_keys h] at hkey
    have hother : same first.1 key = false := by simpa using (List.mem_filter.mp hkey).2
    rw [values_filter h hother]
    unfold values
    rw [List.filter_cons_of_neg (by simp [hother])]

/-- **Every value is in one group, once.** -/
theorem flatMap_groups_perm (m : List (α × β)) :
    ((groups same m).flatMap Prod.snd).Perm (m.map Prod.snd) := by
  induction hn : m.length using Nat.strongRecOn generalizing m with
  | ind n ih =>
      cases m with
      | nil => exact List.Perm.refl _
      | cons first m =>
          have hless : (m.filter fun pair => !same first.1 pair.1).length < n := by
            rw [← hn]
            exact Nat.lt_succ_of_le (List.length_filter_le _ _)
          have hrest := ih _ hless (m.filter fun pair => !same first.1 pair.1) rfl
          have hvalues : values same first.1 m = (m.filter fun pair => same first.1 pair.1).map Prod.snd := by
            unfold values
            congr 1
            exact List.filter_congr fun pair _ => same_comm h _ _
          rw [groups_cons h, List.flatMap_cons, hvalues]
          refine List.Perm.cons first.2 ((hrest.append_left _).trans ?_)
          rw [← List.map_append]
          exact (List.filter_append_perm _ m).map Prod.snd

/-- An object with a member for each class of keys: its key is the one that came first, and stands where
that came, and its values are all values of the class, in their order. -/
structure Grouped (same : α → α → Bool) (m : List (α × β)) (object : List (α × List β)) : Prop where
  distinct : (object.map Prod.fst).Pairwise fun a b => same a b = false
  places : object.map Prod.fst = (m.zipIdx.filter fun place =>
    !(m.take place.2).any fun before => same before.1 place.1.1).map fun place => place.1.1
  covers : ∀ pair ∈ m, ∃ member ∈ object, same member.1 pair.1 = true
  all : ∀ member ∈ object, member.2 = (m.filter fun pair => same pair.1 member.1).map Prod.snd
  once : (object.flatMap Prod.snd).Perm (m.map Prod.snd)

theorem grouped_groups (m : List (α × β)) : Grouped same m (groups same m) := by
  have hkeys : (groups same m).map Prod.fst = keys same m := by
    unfold groups
    rw [List.map_map]
    exact List.map_id _
  refine ⟨hkeys ▸ keys_pairwise m, hkeys.trans (keys_eq_places m), fun pair hpair => ?_,
    fun member hmember => ?_, flatMap_groups_perm h m⟩
  · obtain ⟨key, hkey, hsame⟩ := exists_key h hpair
    exact ⟨(key, values same key m), List.mem_map_of_mem hkey, hsame⟩
  · obtain ⟨key, -, rfl⟩ := List.mem_map.mp hmember
    rfl

end classes

end Multimap
