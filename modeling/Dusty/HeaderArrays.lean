import Dusty.Http
import Dusty.Multimap
import Mathlib.Data.List.Find
import Mathlib.Data.List.GetD

/-! # The table behind `Headers`

The names, the values and their hashes are kept in three arrays, of which the first `len` slots are in
use, and every search compares the hashes first.  To a caller that is a plain list of pairs, searched
for a name in any case: `run_eq_plain`. -/

namespace Dusty

open Act

/-- `Headers`: three arrays of one length. -/
structure HeaderArrays where
  keys : List Bytes
  values : List Bytes
  hashes : List UInt8
  len : ℕ
  values_length : values.length = keys.length
  hashes_length : hashes.length = keys.length
deriving DecidableEq

namespace HeaderArrays

/-- `max_count`, for slices of 16 bytes. -/
def maxCount : ℕ := (2 ^ 64 - 1) / (16 * 2 + 1)

/-- `init`.  What is in the memory is not known. -/
def init (memory : ℕ → Bytes × Bytes × UInt8) (max : ℕ) : HeaderArrays :=
  let slots := List.range (min max maxCount)
  { keys := slots.map fun i => (memory i).1
    values := slots.map fun i => (memory i).2.1
    hashes := slots.map fun i => (memory i).2.2
    len := 0
    values_length := by simp
    hashes_length := by simp }

def key (self : HeaderArrays) (i : ℕ) : Bytes := self.keys.getD i []

def value (self : HeaderArrays) (i : ℕ) : Bytes := self.values.getD i []

def hash (self : HeaderArrays) (i : ℕ) : UInt8 := self.hashes.getD i 0

/-- The test of every search loop. -/
def isFor (self : HeaderArrays) (name : Bytes) (h : UInt8) (i : ℕ) : Bool :=
  self.hash i == h && eqlIgnoreCase (self.key i) name

/-- The loop of `put`, `get` and `find`. -/
def scan (self : HeaderArrays) (name : Bytes) (h : UInt8) (start : ℕ) : Option ℕ :=
  (List.range' start (self.len - start)).find? (self.isFor name h)

def setValue (i : ℕ) (value : Bytes) (self : HeaderArrays) : HeaderArrays :=
  { self with values := self.values.set i value, values_length := by simp [self.values_length] }

def setSlot (i : ℕ) (name value : Bytes) (h : UInt8) (self : HeaderArrays) : HeaderArrays :=
  { self with
    keys := self.keys.set i name
    values := self.values.set i value
    hashes := self.hashes.set i h
    values_length := by simp [self.values_length]
    hashes_length := by simp [self.hashes_length] }

def setLen (len : ℕ) (self : HeaderArrays) : HeaderArrays := { self with len := len }

/-- `add`. -/
def add (name value : Bytes) : Act HeaderArrays Unit := do
  let self ← get
  let i := self.len
  if self.keys.length ≤ i then fail .tooManyHeaders
  else modify fun self => (self.setSlot i name value (hashFn name)).setLen (i + 1)

/-- `put`. -/
def put (name value : Bytes) : Act HeaderArrays Unit := do
  let self ← get
  match self.scan name (hashFn name) 0 with
  | some i => modify (setValue i value)
  | none => add name value

/-- The loop of `remove` at one slot: the arrays, and how many slots have been kept. -/
def removeStep (name : Bytes) (h : UInt8) (state : HeaderArrays × ℕ) (i : ℕ) : HeaderArrays × ℕ :=
  if state.1.isFor name h i then state
  else
    (if state.2 ≠ i then
        state.1.setSlot state.2 (state.1.key i) (state.1.value i) (state.1.hash i)
      else state.1,
      state.2 + 1)

/-- `remove`. -/
def remove (name : Bytes) : Act HeaderArrays ℕ := do
  let self ← get
  let state := (List.range self.len).foldl (removeStep name (hashFn name)) (self, 0)
  set (state.1.setLen state.2)
  pure (self.len - state.2)

/-- `get`. -/
def get (self : HeaderArrays) (name : Bytes) : Option Bytes :=
  (self.scan name (hashFn name) 0).map self.value

/-! ### What is in use -/

def slot (self : HeaderArrays) (i : ℕ) : Bytes × Bytes := (self.key i, self.value i)

/-- The names and values in use. -/
def pairs (self : HeaderArrays) : List (Bytes × Bytes) := (List.range self.len).map self.slot

/-- The slots in use exist, and each has the hash of its name. -/
structure Sound (arrays : HeaderArrays) : Prop where
  len_le : arrays.len ≤ arrays.keys.length
  hashed : ∀ i < arrays.len, arrays.hash i = hashFn (arrays.key i)

@[simp] theorem length_pairs (self : HeaderArrays) : self.pairs.length = self.len := by
  unfold pairs
  rw [List.length_map, List.length_range]

theorem getElem_pairs (self : HeaderArrays) {i : ℕ} (hi : i < self.pairs.length) :
    self.pairs[i] = self.slot i := by
  simp only [pairs, List.getElem_map, List.getElem_range]

theorem sound_init (memory : ℕ → Bytes × Bytes × UInt8) (max : ℕ) : (init memory max).Sound :=
  ⟨Nat.zero_le _, fun i hi => absurd hi (Nat.not_lt_zero i)⟩

theorem Sound.hashes_eq {self : HeaderArrays} (hself : self.Sound) :
    self.hashes.take self.len = (self.keys.take self.len).map hashFn := by
  have hlen := hself.len_le
  have hkeys : (self.keys.take self.len).length = self.len := List.length_take_of_le hlen
  have hhashes : (self.hashes.take self.len).length = self.len :=
    List.length_take_of_le (self.hashes_length ▸ hlen)
  refine List.ext_getElem (by rw [hhashes, List.length_map, hkeys]) fun i hi hi' => ?_
  rw [hhashes] at hi
  have h := hself.hashed i hi
  unfold hash key at h
  rw [List.getD_eq_getElem _ _ (by rw [self.hashes_length]; omega), List.getD_eq_getElem _ _ (by omega)] at h
  rw [List.getElem_take, List.getElem_map, List.getElem_take]
  exact h

/-! ### Searching -/

section searching
variable {self : HeaderArrays} {name : Bytes} {start i : ℕ}

theorem Sound.isFor_eq (hself : self.Sound) (hi : i < self.len) (name : Bytes) :
    self.isFor name (hashFn name) i = eqlIgnoreCase (self.key i) name := by
  unfold isFor
  rw [hself.hashed i hi]
  cases h : eqlIgnoreCase (self.key i) name with
  | false => exact Bool.and_false _
  | true =>
      rw [hashFn_eq_of_eqlIgnoreCase h, Bool.and_true]
      exact beq_self_eq_true _

theorem Sound.scan_eq (hself : self.Sound) (name : Bytes) (start : ℕ) :
    self.scan name (hashFn name) start =
      (List.range' start (self.len - start)).find? fun i => eqlIgnoreCase (self.key i) name := by
  unfold scan
  refine List.find?_congr fun i hi => ?_
  obtain ⟨hstart, hend⟩ := List.mem_range'_1.mp hi
  exact hself.isFor_eq (by omega) name

theorem Sound.scan_eq_some (hself : self.Sound) :
    self.scan name (hashFn name) start = some i ↔
      (start ≤ i ∧ i < self.len) ∧ eqlIgnoreCase (self.key i) name = true ∧
        ∀ j, start ≤ j → j < i → eqlIgnoreCase (self.key j) name = false := by
  rw [hself.scan_eq, List.find?_range'_eq_some]
  constructor
  · rintro ⟨hsame, hmem, hfirst⟩
    obtain ⟨hstart, hend⟩ := List.mem_range'_1.mp hmem
    exact ⟨⟨hstart, by omega⟩, hsame, fun j hj hji => by simpa using hfirst j hj hji⟩
  · rintro ⟨⟨hstart, hend⟩, hsame, hfirst⟩
    exact ⟨hsame, List.mem_range'_1.mpr ⟨hstart, by omega⟩, fun j hj hji => by simp [hfirst j hj hji]⟩

theorem Sound.scan_eq_none (hself : self.Sound) :
    self.scan name (hashFn name) start = none ↔
      ∀ j, start ≤ j → j < self.len → eqlIgnoreCase (self.key j) name = false := by
  rw [hself.scan_eq, List.find?_eq_none]
  constructor
  · intro h j hj hjlen
    simpa using h j (List.mem_range'_1.mpr ⟨hj, by omega⟩)
  · intro h j hj
    obtain ⟨hstart, hend⟩ := List.mem_range'_1.mp hj
    simp [h j hstart (by omega)]

/-- **`get` finds the first value.** -/
theorem Sound.get_eq (hself : self.Sound) (name : Bytes) :
    self.get name = Multimap.get eqlIgnoreCase name self.pairs := by
  unfold get Multimap.get pairs
  rw [hself.scan_eq, List.find?_map, Option.map_map, Nat.sub_zero, List.range_eq_range']
  rfl

theorem Sound.any_eq_false (hself : self.Sound) (h : self.scan name (hashFn name) 0 = none) :
    self.pairs.any (fun pair => eqlIgnoreCase pair.1 name) = false := by
  rw [List.any_eq_false]
  intro pair hpair
  unfold pairs at hpair
  obtain ⟨j, hj, rfl⟩ := List.mem_map.mp hpair
  exact Bool.eq_false_iff.mp (hself.scan_eq_none.mp h j (Nat.zero_le j) (List.mem_range.mp hj))

end searching

/-! ### Writing a slot -/

section writing
variable (self : HeaderArrays) {i j : ℕ} (name v : Bytes) (h : UInt8)

@[simp] theorem key_setValue : (self.setValue i v).key j = self.key j := rfl

@[simp] theorem hash_setValue : (self.setValue i v).hash j = self.hash j := rfl

theorem value_setValue (hi : i < self.keys.length) :
    (self.setValue i v).value j = if j = i then v else self.value j := by
  unfold setValue value
  split
  · next heq =>
      subst heq
      rw [List.getD_eq_getElem?_getD, List.getElem?_set_self (by rw [self.values_length]; exact hi)]
      rfl
  · next hne =>
      rw [List.getD_eq_getElem?_getD, List.getElem?_set_ne (Ne.symm hne), ← List.getD_eq_getElem?_getD]

theorem key_setSlot (hi : i < self.keys.length) :
    (self.setSlot i name v h).key j = if j = i then name else self.key j := by
  unfold setSlot key
  split
  · next heq =>
      subst heq
      rw [List.getD_eq_getElem?_getD, List.getElem?_set_self hi]
      rfl
  · next hne =>
      rw [List.getD_eq_getElem?_getD, List.getElem?_set_ne (Ne.symm hne), ← List.getD_eq_getElem?_getD]

theorem value_setSlot (hi : i < self.keys.length) :
    (self.setSlot i name v h).value j = if j = i then v else self.value j :=
  self.value_setValue v hi

theorem hash_setSlot (hi : i < self.keys.length) :
    (self.setSlot i name v h).hash j = if j = i then h else self.hash j := by
  unfold setSlot hash
  split
  · next heq =>
      subst heq
      rw [List.getD_eq_getElem?_getD, List.getElem?_set_self (by rw [self.hashes_length]; exact hi)]
      rfl
  · next hne =>
      rw [List.getD_eq_getElem?_getD, List.getElem?_set_ne (Ne.symm hne), ← List.getD_eq_getElem?_getD]

@[simp] theorem length_keys_setSlot : (self.setSlot i name v h).keys.length = self.keys.length :=
  List.length_set

end writing

/-! ### Storing -/

section storing
variable {self : HeaderArrays} {name v : Bytes}

theorem add_full (hfull : self.keys.length ≤ self.len) :
    add name v self = .error (.err .tooManyHeaders) self := by
  unfold add
  rw [bind_ok (get_run self), if_pos hfull]
  rfl

theorem add_run (hroom : self.len < self.keys.length) :
    add name v self = .ok () ((self.setSlot self.len name v (hashFn name)).setLen (self.len + 1)) := by
  unfold add
  rw [bind_ok (get_run self), if_neg (Nat.not_le.mpr hroom)]
  rfl

theorem Sound.setSlot (hself : self.Sound) (hroom : self.len < self.keys.length) :
    ((self.setSlot self.len name v (hashFn name)).setLen (self.len + 1)).Sound := by
  refine ⟨?_, fun i hi => ?_⟩
  · show self.len + 1 ≤ (self.setSlot self.len name v (hashFn name)).keys.length
    rw [length_keys_setSlot]
    exact hroom
  · show (self.setSlot self.len name v (hashFn name)).hash i =
      hashFn ((self.setSlot self.len name v (hashFn name)).key i)
    rw [hash_setSlot _ _ _ _ hroom, key_setSlot _ _ _ _ hroom]
    split
    · rfl
    · next hne => exact hself.hashed i (Nat.lt_of_le_of_ne (Nat.le_of_lt_succ hi) hne)

theorem pairs_setSlot (hroom : self.len < self.keys.length) :
    ((self.setSlot self.len name v (hashFn name)).setLen (self.len + 1)).pairs =
      self.pairs ++ [(name, v)] := by
  have hslot : ∀ i, (self.setSlot self.len name v (hashFn name)).slot i =
      if i = self.len then (name, v) else self.slot i := by
    intro i
    unfold slot
    rw [key_setSlot _ _ _ _ hroom, value_setSlot _ _ _ _ hroom]
    split <;> rfl
  show (List.range (self.len + 1)).map (self.setSlot self.len name v (hashFn name)).slot = _
  rw [List.range_succ, List.map_append, List.map_singleton, hslot, if_pos rfl]
  congr 1
  refine List.map_congr_left fun i hi => ?_
  rw [hslot, if_neg (Nat.ne_of_lt (List.mem_range.mp hi))]

theorem Sound.setValue {i : ℕ} (hself : self.Sound) : (self.setValue i v).Sound :=
  ⟨hself.len_le, hself.hashed⟩

theorem pairs_setValue {i : ℕ} (hi : i < self.len) (hlen : self.len ≤ self.keys.length) :
    (self.setValue i v).pairs = self.pairs.set i (self.key i, v) := by
  refine List.ext_getElem (by simp only [length_pairs, List.length_set]; rfl) fun j hj hj' => ?_
  rw [getElem_pairs, List.getElem_set]
  unfold slot
  rw [key_setValue, value_setValue _ _ (Nat.lt_of_lt_of_le hi hlen)]
  split
  · next heq => rw [if_pos heq.symm, heq]
  · next hne =>
      rw [if_neg (Ne.symm hne), getElem_pairs]
      rfl

end storing

/-! ### Removing -/

section removing
variable {self : HeaderArrays} {name : Bytes}

/-- The loop of `remove` has gone through the first slots: those without the name have been moved to
the front, in their order, and the slots not looked at are as they were. -/
structure Compacted (name : Bytes) (before : HeaderArrays) (i : ℕ) (state : HeaderArrays × ℕ) : Prop where
  kept_le : state.2 ≤ i
  length : state.1.keys.length = before.keys.length
  pairs : (List.range state.2).map state.1.slot = Multimap.remove eqlIgnoreCase name (before.pairs.take i)
  hashed : ∀ j < state.2, state.1.hash j = hashFn (state.1.key j)
  ahead : ∀ j, i ≤ j → state.1.slot j = before.slot j ∧ state.1.hash j = before.hash j

theorem compacted_start (name : Bytes) (self : HeaderArrays) : Compacted name self 0 (self, 0) where
  kept_le := Nat.le_refl 0
  length := rfl
  pairs := rfl
  hashed := fun j hj => absurd hj (Nat.not_lt_zero j)
  ahead := fun _ _ => ⟨rfl, rfl⟩

theorem take_pairs_succ {i : ℕ} (hi : i < self.len) :
    self.pairs.take (i + 1) = self.pairs.take i ++ [self.slot i] := by
  have hlt : i < self.pairs.length := by
    rw [length_pairs]
    exact hi
  rw [List.take_succ_eq_append_getElem hlt, getElem_pairs]

/-- **One step of `remove`.** -/
theorem Compacted.step {i : ℕ} {state : HeaderArrays × ℕ} (hself : self.Sound)
    (h : Compacted name self i state) (hi : i < self.len) :
    Compacted name self (i + 1) (removeStep name (hashFn name) state i) := by
  obtain ⟨hslot, hhash⟩ := h.ahead i (Nat.le_refl i)
  have hkey : state.1.key i = self.key i := congrArg Prod.fst hslot
  have hfor : state.1.isFor name (hashFn name) i = eqlIgnoreCase (self.key i) name := by
    rw [← hself.isFor_eq hi]
    unfold isFor
    rw [hhash, hkey]
  unfold removeStep
  rw [hfor]
  cases hsame : eqlIgnoreCase (self.key i) name with
  | true =>
      rw [if_pos rfl]
      refine ⟨h.kept_le.trans (Nat.le_succ i), h.length, ?_, h.hashed, fun j hj => h.ahead j (by omega)⟩
      rw [take_pairs_succ hi, h.pairs]
      unfold Multimap.remove
      rw [List.filter_append, List.filter_cons_of_neg (by simp [slot, hsame]), List.filter_nil,
        List.append_nil]
  | false =>
      rw [if_neg Bool.false_ne_true]
      have hroom : state.2 < state.1.keys.length := by
        have := h.kept_le
        have := hself.len_le
        rw [h.length]
        omega
      -- the slot is copied to the front, unless it is there
      obtain ⟨moved, hmoved, hlength, hat, hrest⟩ : ∃ moved : HeaderArrays,
          (if state.2 ≠ i then state.1.setSlot state.2 (state.1.key i) (state.1.value i) (state.1.hash i)
            else state.1) = moved ∧ moved.keys.length = self.keys.length ∧
          (moved.slot state.2 = self.slot i ∧ moved.hash state.2 = self.hash i) ∧
          ∀ j, j ≠ state.2 → moved.slot j = state.1.slot j ∧ moved.hash j = state.1.hash j := by
        refine ⟨_, rfl, ?_⟩
        split
        · refine ⟨by rw [length_keys_setSlot, h.length], ⟨?_, ?_⟩, fun j hj => ⟨?_, ?_⟩⟩
          · unfold slot
            rw [key_setSlot _ _ _ _ hroom, value_setSlot _ _ _ _ hroom, if_pos rfl, if_pos rfl]
            exact hslot
          · rw [hash_setSlot _ _ _ _ hroom, if_pos rfl, hhash]
          · unfold slot
            rw [key_setSlot _ _ _ _ hroom, value_setSlot _ _ _ _ hroom, if_neg hj, if_neg hj]
          · rw [hash_setSlot _ _ _ _ hroom, if_neg hj]
        · next heq =>
            have heq := not_not.mp heq
            exact ⟨h.length, by rw [heq]; exact ⟨hslot, hhash⟩, fun _ _ => ⟨rfl, rfl⟩⟩
      rw [hmoved]
      refine ⟨Nat.succ_le_succ h.kept_le, hlength, ?_, fun j hj => ?_, fun j hj => ?_⟩
      · show (List.range (state.2 + 1)).map moved.slot = _
        rw [List.range_succ, List.map_append, List.map_singleton, hat.1, take_pairs_succ hi]
        unfold Multimap.remove
        rw [List.filter_append, List.filter_cons_of_pos (by simp [slot, hsame]), List.filter_nil]
        congr 1
        refine Eq.trans (List.map_congr_left fun j hj => ?_) h.pairs
        exact (hrest j (Nat.ne_of_lt (List.mem_range.mp hj))).1
      · show moved.hash j = hashFn (moved.key j)
        by_cases heq : j = state.2
        · subst heq
          rw [hat.2, show moved.key state.2 = self.key i from congrArg Prod.fst hat.1]
          exact hself.hashed i hi
        · have hlt : j < state.2 := Nat.lt_of_le_of_ne (Nat.le_of_lt_succ hj) heq
          rw [(hrest j heq).2, show moved.key j = state.1.key j from congrArg Prod.fst (hrest j heq).1]
          exact h.hashed j hlt
      · have hne : j ≠ state.2 := by
          have := h.kept_le
          omega
        rw [(hrest j hne).1, (hrest j hne).2]
        exact h.ahead j (by omega)

theorem Sound.compacted (hself : self.Sound) (name : Bytes) :
    Compacted name self self.len
      ((List.range self.len).foldl (removeStep name (hashFn name)) (self, 0)) := by
  have hsteps : ∀ i ≤ self.len,
      Compacted name self i ((List.range i).foldl (removeStep name (hashFn name)) (self, 0)) := by
    intro i
    induction i with
    | zero => exact fun _ => compacted_start name self
    | succ i ih =>
        intro hi
        rw [List.range_succ, List.foldl_append]
        exact (ih (Nat.le_of_succ_le hi)).step hself hi
  exact hsteps self.len (Nat.le_refl _)

end removing

end HeaderArrays

/-! ### Calls -/

/-- A call of the map. -/
inductive HeaderOp where
  | put (name value : Bytes)
  | add (name value : Bytes)
  | remove (name : Bytes)
  | get (name : Bytes)
deriving DecidableEq, Repr

/-- What a call returns. -/
inductive HeaderResult where
  | stored (result : Except Error Unit)
  | removed (count : ℕ)
  | found (value : Option Bytes)

namespace HeaderOp

/-- A plain list takes one more pair, if it has room. -/
def append (cap : ℕ) (name value : Bytes) (m : List (Bytes × Bytes)) :
    HeaderResult × List (Bytes × Bytes) :=
  if m.length < cap then (.stored (.ok ()), m ++ [(name, value)])
  else (.stored (.error .tooManyHeaders), m)

/-- What the call does to a plain list of pairs with room for `cap`. -/
def plain (cap : ℕ) : HeaderOp → List (Bytes × Bytes) → HeaderResult × List (Bytes × Bytes)
  | .put name value, m =>
      if m.any fun pair => eqlIgnoreCase pair.1 name then
        (.stored (.ok ()), Multimap.set eqlIgnoreCase name value m)
      else append cap name value m
  | .add name value, m => append cap name value m
  | .remove name, m =>
      (.removed (m.countP fun pair => eqlIgnoreCase pair.1 name), Multimap.remove eqlIgnoreCase name m)
  | .get name, m => (.found (Multimap.get eqlIgnoreCase name m), m)

def plainAll (cap : ℕ) : List HeaderOp → List (Bytes × Bytes) → List HeaderResult × List (Bytes × Bytes)
  | [], m => ([], m)
  | op :: ops, m =>
      let (result, m') := op.plain cap m
      let (results, m'') := plainAll cap ops m'
      (result :: results, m'')

end HeaderOp

namespace HeaderArrays

open HeaderOp

/-- A call on the arrays. -/
def exec : HeaderOp → Act HeaderArrays HeaderResult
  | .put name value => do return .stored (← attempt (put name value))
  | .add name value => do return .stored (← attempt (add name value))
  | .remove name => do return .removed (← remove name)
  | .get name => fun self => .ok (.found (self.get name)) self

def run : List HeaderOp → Act HeaderArrays (List HeaderResult)
  | [] => pure []
  | op :: ops => do
      let result ← exec op
      let results ← run ops
      pure (result :: results)

/-- The arrays hold a plain list of pairs. -/
structure Holds (arrays : HeaderArrays) (cap : ℕ) (m : List (Bytes × Bytes)) : Prop where
  sound : arrays.Sound
  cap : arrays.keys.length = cap
  pairs : arrays.pairs = m

section calls
variable {self : HeaderArrays} {cap : ℕ} {m : List (Bytes × Bytes)}

theorem Holds.length (h : Holds self cap m) : m.length = self.len := by
  rw [← h.pairs, length_pairs]

theorem Holds.add (h : Holds self cap m) (name value : Bytes) :
    ∃ self', exec (.add name value) self = .ok (append cap name value m).1 self' ∧
      Holds self' cap (append cap name value m).2 := by
  unfold exec HeaderOp.append
  rw [h.length]
  by_cases hroom : self.len < cap
  · rw [if_pos hroom]
    have hless : self.len < self.keys.length := h.cap ▸ hroom
    refine ⟨_, bind_ok (attempt_ok (add_run hless)), h.sound.setSlot hless, ?_, ?_⟩
    · show (self.setSlot self.len name value (hashFn name)).keys.length = cap
      rw [length_keys_setSlot, h.cap]
    · rw [pairs_setSlot hless, h.pairs]
  · rw [if_neg hroom]
    have hfull : self.keys.length ≤ self.len := h.cap ▸ Nat.not_lt.mp hroom
    exact ⟨self, bind_ok (attempt_error (add_full hfull)), h⟩

theorem Holds.put (h : Holds self cap m) (name value : Bytes) :
    ∃ self', exec (.put name value) self = .ok ((HeaderOp.put name value).plain cap m).1 self' ∧
      Holds self' cap ((HeaderOp.put name value).plain cap m).2 := by
  cases hscan : self.scan name (hashFn name) 0 with
  | none =>
      have hput : HeaderArrays.put name value self = HeaderArrays.add name value self := by
        unfold HeaderArrays.put
        rw [bind_ok (get_run self), hscan]
      have hnone : ¬(m.any fun pair => eqlIgnoreCase pair.1 name) = true := by
        rw [← h.pairs, h.sound.any_eq_false hscan]
        exact Bool.false_ne_true
      rw [show (HeaderOp.put name value).plain cap m = append cap name value m from if_neg hnone]
      obtain ⟨self', hrun, hholds⟩ := h.add name value
      refine ⟨self', Eq.trans ?_ hrun, hholds⟩
      show (attempt (HeaderArrays.put name value) >>= _) self = (attempt (HeaderArrays.add name value) >>= _) self
      rw [bind_run, bind_run, attempt_congr hput]
  | some i =>
      have hput : HeaderArrays.put name value self = .ok () (self.setValue i value) := by
        unfold HeaderArrays.put
        rw [bind_ok (get_run self), hscan]
        rfl
      obtain ⟨⟨-, hi⟩, hsame, hfirst⟩ := h.sound.scan_eq_some.mp hscan
      have hlt : i < m.length := by
        rw [h.length]
        exact hi
      have hat : ∀ j (hj : j < m.length), m[j] = self.slot j := by
        intro j hj
        have hpairs := h.pairs
        subst hpairs
        exact self.getElem_pairs hj
      have hany : m.any (fun pair => eqlIgnoreCase pair.1 name) = true := by
        refine List.any_eq_true.mpr ⟨m[i], List.getElem_mem hlt, ?_⟩
        rw [hat i hlt]
        exact hsame
      rw [show (HeaderOp.put name value).plain cap m =
        (.stored (.ok ()), Multimap.set eqlIgnoreCase name value m) from if_pos hany]
      refine ⟨_, bind_ok (attempt_ok hput), h.sound.setValue, h.cap, ?_⟩
      rw [pairs_setValue hi h.sound.len_le, h.pairs, Multimap.set_eq_of_first hlt, hat i hlt]
      · rfl
      · rw [hat i hlt]
        exact hsame
      · intro j hj
        rw [hat j (hj.trans hlt)]
        exact hfirst j (Nat.zero_le j) hj

theorem Holds.remove (h : Holds self cap m) (name : Bytes) :
    ∃ self', exec (.remove name) self = .ok ((HeaderOp.remove name).plain cap m).1 self' ∧
      Holds self' cap ((HeaderOp.remove name).plain cap m).2 := by
  obtain ⟨state, hstate⟩ : ∃ state, state =
      (List.range self.len).foldl (removeStep name (hashFn name)) (self, 0) := ⟨_, rfl⟩
  have hdone : Compacted name self self.len state := hstate ▸ h.sound.compacted name
  have hall : self.pairs.take self.len = m := by
    rw [← self.length_pairs, List.take_length, h.pairs]
  have hpairs : (List.range state.2).map state.1.slot = Multimap.remove eqlIgnoreCase name m := by
    rw [hdone.pairs, hall]
  have hcount : self.len - state.2 = m.countP fun pair => eqlIgnoreCase pair.1 name := by
    have hkept : state.2 = (Multimap.remove eqlIgnoreCase name m).length := by
      rw [← hpairs, List.length_map, List.length_range]
    have hsum := List.length_eq_countP_add_countP (fun pair : Bytes × Bytes => eqlIgnoreCase pair.1 name) (l := m)
    rw [hkept, ← h.length]
    unfold Multimap.remove
    rw [← List.countP_eq_length_filter]
    have hnot : (m.countP fun pair => !eqlIgnoreCase pair.1 name) =
        m.countP fun pair => ¬(eqlIgnoreCase pair.1 name = true) := by
      refine List.countP_congr fun pair _ => ?_
      simp
    omega
  have hrun : (HeaderArrays.remove name : Act HeaderArrays ℕ) self =
      .ok (self.len - state.2) (state.1.setLen state.2) := by
    unfold HeaderArrays.remove
    rw [bind_ok (get_run self), hstate]
    rfl
  refine ⟨state.1.setLen state.2, ?_, ⟨?_, fun j hj => hdone.hashed j hj⟩, ?_, hpairs⟩
  · show exec (.remove name) self =
      .ok (.removed (m.countP fun pair => eqlIgnoreCase pair.1 name)) (state.1.setLen state.2)
    rw [← hcount]
    exact bind_ok hrun
  · show state.2 ≤ state.1.keys.length
    rw [hdone.length]
    exact hdone.kept_le.trans h.sound.len_le
  · show state.1.keys.length = cap
    rw [hdone.length, h.cap]

/-- **A call does to the arrays what it does to a plain list.** -/
theorem Holds.exec (h : Holds self cap m) (op : HeaderOp) :
    ∃ self', exec op self = .ok (op.plain cap m).1 self' ∧ Holds self' cap (op.plain cap m).2 := by
  cases op with
  | put name value => exact h.put name value
  | add name value => exact h.add name value
  | remove name => exact h.remove name
  | get name =>
      refine ⟨self, ?_, h⟩
      show EStateM.Result.ok (HeaderResult.found (self.get name)) self = _
      rw [h.sound.get_eq, h.pairs]
      rfl

theorem Holds.run (h : Holds self cap m) (ops : List HeaderOp) :
    ∃ self', run ops self = .ok (plainAll cap ops m).1 self' ∧ Holds self' cap (plainAll cap ops m).2 := by
  induction ops generalizing self m with
  | nil => exact ⟨self, rfl, h⟩
  | cons op ops ih =>
      obtain ⟨self₁, hop, h₁⟩ := h.exec op
      obtain ⟨self₂, hops, h₂⟩ := ih h₁
      refine ⟨self₂, ?_, h₂⟩
      unfold HeaderArrays.run
      rw [bind_ok hop, bind_ok hops]
      rfl

end calls

theorem holds_init (memory : ℕ → Bytes × Bytes × UInt8) (max : ℕ) :
    Holds (init memory max) (min max maxCount) [] where
  sound := sound_init memory max
  cap := by simp [init]
  pairs := rfl

/-- **The arrays behave like a plain list of pairs**, and the hashes in use are those of the names. -/
theorem run_eq_plain (memory : ℕ → Bytes × Bytes × UInt8) (max : ℕ) (ops : List HeaderOp) :
    ∃ self, run ops (init memory max) = .ok (plainAll (min max maxCount) ops []).1 self ∧
      self.pairs = (plainAll (min max maxCount) ops []).2 ∧
      self.hashes.take self.len = (self.keys.take self.len).map hashFn := by
  obtain ⟨self, hrun, hholds⟩ := (holds_init memory max).run ops
  exact ⟨self, hrun, hholds.pairs, hholds.sound.hashes_eq⟩

end HeaderArrays
/-! ### The entries as one list -/

namespace Headers

open HeaderOp

def pairs (self : Headers) : List (Bytes × Bytes) := self.entries.map fun e => (e.key, e.value)

/-- What a call that stores something leaves behind. -/
def stored (self : Headers) : Except Error Headers → HeaderResult × Headers
  | .ok self' => (.stored (.ok ()), self')
  | .error e => (.stored (.error e), self)

/-- A call on the list of entries. -/
def exec : HeaderOp → Headers → HeaderResult × Headers
  | .put name value, self => self.stored (self.put name value)
  | .add name value, self => self.stored (self.add name value)
  | .remove name, self => (.removed (self.remove name).2, (self.remove name).1)
  | .get name, self => (.found (self.get name), self)

def execAll : List HeaderOp → Headers → List HeaderResult × Headers
  | [], self => ([], self)
  | op :: ops, self =>
      let (result, self') := self.exec op
      let (results, self'') := execAll ops self'
      (result :: results, self'')

theorem map_setFirst (name value : Bytes) (entries : List HeaderEntry) :
    (setFirst name value entries).map (fun e => (e.key, e.value)) =
      Multimap.set eqlIgnoreCase name value (entries.map fun e => (e.key, e.value)) := by
  induction entries with
  | nil => rfl
  | cons e entries ih =>
      unfold setFirst
      rw [e.isFor_eq, List.map_cons, Multimap.set]
      split
      · rfl
      · rw [List.map_cons, ih]

theorem stored_add (self : Headers) (name value : Bytes) :
    ((self.stored (self.add name value)).1, (self.stored (self.add name value)).2.pairs) =
        append self.cap name value self.pairs ∧
      (self.stored (self.add name value)).2.cap = self.cap := by
  unfold Headers.add HeaderOp.append pairs
  rw [List.length_map]
  by_cases hroom : self.entries.length < self.cap
  · rw [dif_pos hroom, if_pos hroom]
    refine ⟨Prod.ext rfl ?_, rfl⟩
    show (self.entries ++ [HeaderEntry.make name value]).map _ = _
    rw [List.map_append]
    rfl
  · rw [dif_neg hroom, if_neg hroom]
    exact ⟨rfl, rfl⟩

theorem exec_eq_plain (self : Headers) (op : HeaderOp) :
    ((self.exec op).1, (self.exec op).2.pairs) = op.plain self.cap self.pairs ∧
      (self.exec op).2.cap = self.cap := by
  cases op with
  | add name value => exact self.stored_add name value
  | put name value =>
      have hany : (self.pairs.any fun pair => eqlIgnoreCase pair.1 name) =
          self.entries.any (·.isFor name) := by
        unfold pairs
        rw [List.any_map]
        exact List.any_congr rfl fun e => (e.isFor_eq name).symm
      by_cases hthere : (self.entries.any (·.isFor name)) = true
      · have hput : self.put name value = .ok ⟨self.cap, setFirst name value self.entries, by
            rw [setFirst_length]
            exact self.fits⟩ := dif_pos hthere
        rw [show (HeaderOp.put name value).plain self.cap self.pairs =
          (.stored (.ok ()), Multimap.set eqlIgnoreCase name value self.pairs) from
            if_pos (hany.trans hthere)]
        show ((self.stored (self.put name value)).1, (self.stored (self.put name value)).2.pairs) = _ ∧
          (self.stored (self.put name value)).2.cap = _
        rw [hput]
        exact ⟨Prod.ext rfl (map_setFirst name value self.entries), rfl⟩
      · have hput : self.put name value = self.add name value := dif_neg hthere
        rw [show (HeaderOp.put name value).plain self.cap self.pairs =
          append self.cap name value self.pairs from if_neg fun h => hthere (hany.symm.trans h)]
        show ((self.stored (self.put name value)).1, (self.stored (self.put name value)).2.pairs) = _ ∧
          (self.stored (self.put name value)).2.cap = _
        rw [hput]
        exact self.stored_add name value
  | remove name =>
      have hfilter : (self.entries.filter fun e => !e.isFor name) =
          self.entries.filter fun e => !eqlIgnoreCase e.key name :=
        List.filter_congr fun e _ => by rw [e.isFor_eq]
      refine ⟨Prod.ext (congrArg HeaderResult.removed ?_) ?_, rfl⟩
      · show self.entries.length - (self.entries.filter fun e => !e.isFor name).length =
          (self.entries.map _).countP _
        rw [hfilter, List.countP_map, ← List.countP_eq_length_filter]
        have hsum := List.length_eq_countP_add_countP
          (fun e : HeaderEntry => eqlIgnoreCase e.key name) (l := self.entries)
        have hnot : (self.entries.countP fun e => !eqlIgnoreCase e.key name) =
            self.entries.countP fun e => ¬(eqlIgnoreCase e.key name = true) :=
          List.countP_congr fun e _ => by simp
        have hsame : self.entries.countP ((fun pair => eqlIgnoreCase pair.1 name) ∘ fun e => (e.key, e.value)) =
            self.entries.countP fun e => eqlIgnoreCase e.key name := rfl
        omega
      · show (self.entries.filter fun e => !e.isFor name).map _ = Multimap.remove _ _ (self.entries.map _)
        unfold Multimap.remove
        rw [hfilter, List.filter_map]
        rfl
  | get name =>
      refine ⟨Prod.ext (congrArg HeaderResult.found ?_) rfl, rfl⟩
      show (self.entries.find? (·.isFor name)).map _ = Multimap.get _ _ (self.entries.map _)
      unfold Multimap.get
      rw [List.find?_map, Option.map_map]
      congr 2
      exact funext fun e => e.isFor_eq name

theorem execAll_eq_plain (self : Headers) (ops : List HeaderOp) :
    ((self.execAll ops).1, (self.execAll ops).2.pairs) = plainAll self.cap ops self.pairs := by
  induction ops generalizing self with
  | nil => rfl
  | cons op ops ih =>
      obtain ⟨hop, hcap⟩ := self.exec_eq_plain op
      have hrest := ih (self.exec op).2
      unfold plainAll
      rw [hcap] at hrest
      rw [← hop]
      simp only [← hrest]
      rfl

end Headers

/-- **The list of entries that stands for the arrays elsewhere cannot be told from them.** -/
theorem HeaderArrays.run_eq_headers (memory : ℕ → Bytes × Bytes × UInt8) (max : ℕ) (ops : List HeaderOp) :
    ∃ self, HeaderArrays.run ops (.init memory max) =
        .ok ((Headers.init (min max maxCount)).execAll ops).1 self ∧
      self.pairs = ((Headers.init (min max maxCount)).execAll ops).2.pairs := by
  obtain ⟨self, hrun, hpairs, -⟩ := run_eq_plain memory max ops
  have hheaders := (Headers.init (min max maxCount)).execAll_eq_plain ops
  refine ⟨self, hrun.trans ?_, hpairs.trans ?_⟩
  · exact congrArg (EStateM.Result.ok · self) (congrArg Prod.fst hheaders).symm
  · exact (congrArg Prod.snd hheaders).symm

end Dusty
