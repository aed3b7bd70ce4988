import Dusty.HeaderArrays

/-! # Headers as a JSON object

A name can be there more than once, and a JSON object cannot hold a key twice, so `jsonStringify` writes
all values of a name where it comes first: `jsonStringify_groups`.  The calls of the JSON writer are what is
recorded: none of them fails here, and how it renders a value (one that is not UTF-8 as an array of numbers) is its
own affair. -/

namespace Dusty

open Act

/-- The calls of a JSON writer. -/
inductive JsonToken where
  | beginObject
  | endObject
  | beginArray
  | endArray
  | objectField (name : Bytes)
  | write (value : Bytes)
deriving DecidableEq, Repr

namespace HeaderArrays

/-- A call of the writer. -/
def emit (token : JsonToken) : Act (List JsonToken) Unit := modify fun tokens => tokens ++ [token]

/-- `find`.  A slice that would begin behind its end traps. -/
def find (self : HeaderArrays) (name : Bytes) (h : UInt8) (start : ℕ) :
    Act (List JsonToken) (Option ℕ) := do
  Act.assert (decide (start ≤ self.len))
  pure (self.scan name h start)

/-- `jsonStringify`, from the second copy of a name on. -/
def writeCopies (self : HeaderArrays) (name : Bytes) (h : UInt8) : ℕ → Option ℕ → Act (List JsonToken) Unit
  | 0, _ => die .outOfFuel
  | _ + 1, none => pure ()
  | fuel + 1, some j => do
      emit (.write (self.value j))
      let next ← self.find name h (j + 1)
      writeCopies self name h fuel next

/-- `jsonStringify`, at one slot. -/
def writeSlot (self : HeaderArrays) (i : ℕ) : Act (List JsonToken) Unit := do
  let name := self.key i
  let h := self.hash i
  match ← self.find name h 0 with
  | none => die .unwrapNull
  | some first =>
      -- a later copy has been written with the first
      if first ≠ i then pure ()
      else do
        emit (.objectField name)
        match ← self.find name h (i + 1) with
        | none => emit (.write (self.value i))
        | some second => do
            emit .beginArray
            emit (.write (self.value i))
            self.writeCopies name h (self.len + 1) (some second)
            emit .endArray

def writeSlots (self : HeaderArrays) : List ℕ → Act (List JsonToken) Unit
  | [] => pure ()
  | i :: rest => do
      self.writeSlot i
      self.writeSlots rest

/-- `jsonStringify`. -/
def jsonStringify (self : HeaderArrays) : Act (List JsonToken) Unit := do
  emit .beginObject
  self.writeSlots (List.range self.len)
  emit .endObject

/-! ### Objects -/

/-- What a member of an object is written as: one value, or an array. -/
def memberTokens (member : Bytes × List Bytes) : List JsonToken :=
  .objectField member.1 ::
    match member.2 with
    | [value] => [.write value]
    | values => .beginArray :: values.map .write ++ [.endArray]

/-- What an object is written as. -/
def objectTokens (object : List (Bytes × List Bytes)) : List JsonToken :=
  .beginObject :: object.flatMap memberTokens ++ [.endObject]

/-! ### The values of a name -/

section values
variable {self : HeaderArrays} {name : Bytes} {start i : ℕ} {tokens : List JsonToken}

/-- The values of a name from a slot on. -/
def valuesFrom (self : HeaderArrays) (name : Bytes) (start : ℕ) : List Bytes :=
  ((List.range' start (self.len - start)).filter fun i => eqlIgnoreCase (self.key i) name).map self.value

theorem valuesFrom_zero (self : HeaderArrays) (name : Bytes) :
    self.valuesFrom name 0 = Multimap.values eqlIgnoreCase name self.pairs := by
  unfold valuesFrom Multimap.values pairs
  rw [Nat.sub_zero, ← List.range_eq_range', List.filter_map, List.map_map]
  rfl

theorem valuesFrom_none (h : ∀ j, start ≤ j → j < self.len → eqlIgnoreCase (self.key j) name = false) :
    self.valuesFrom name start = [] := by
  unfold valuesFrom
  rw [List.map_eq_nil_iff, List.filter_eq_nil_iff]
  intro j hj
  obtain ⟨hstart, hend⟩ := List.mem_range'_1.mp hj
  rw [h j hstart (by omega)]
  exact Bool.false_ne_true

/-- The values begin with the one in the next slot for the name. -/
theorem valuesFrom_some (hstart : start ≤ i) (hi : i < self.len)
    (hsame : eqlIgnoreCase (self.key i) name = true)
    (hnext : ∀ j, start ≤ j → j < i → eqlIgnoreCase (self.key j) name = false) :
    self.valuesFrom name start = self.value i :: self.valuesFrom name (i + 1) := by
  have hsplit : List.range' start (self.len - start) =
      List.range' start (i - start) ++ i :: List.range' (i + 1) (self.len - (i + 1)) := by
    rw [← List.range'_succ, show self.len - start = (i - start) + (self.len - (i + 1) + 1) by omega,
      ← List.range'_append_1, show start + (i - start) = i by omega]
  have hbefore : (List.range' start (i - start)).filter (fun j => eqlIgnoreCase (self.key j) name) = [] := by
    rw [List.filter_eq_nil_iff]
    intro j hj
    obtain ⟨hj, hend⟩ := List.mem_range'_1.mp hj
    rw [hnext j hj (by omega)]
    exact Bool.false_ne_true
  unfold valuesFrom
  rw [hsplit, List.filter_append, hbefore, List.nil_append,
    List.filter_cons_of_pos (p := fun j => eqlIgnoreCase (self.key j) name) hsame]
  rfl

theorem emit_run (token : JsonToken) (tokens : List JsonToken) :
    emit token tokens = .ok () (tokens ++ [token]) := rfl

theorem find_run (self : HeaderArrays) (name : Bytes) (h : UInt8) (hstart : start ≤ self.len) :
    self.find name h start tokens = .ok (self.scan name h start) tokens := by
  unfold find
  rw [bind_ok (assert_true (decide_eq_true hstart) tokens)]
  rfl

/-- **Every later copy of a name is written, once.** -/
theorem Sound.writeCopies_run (hself : self.Sound) {fuel : ℕ} (hfuel : self.len - start < fuel) :
    self.writeCopies name (hashFn name) fuel (self.scan name (hashFn name) start) tokens =
      .ok () (tokens ++ (self.valuesFrom name start).map .write) := by
  induction fuel generalizing start tokens with
  | zero => exact absurd hfuel (Nat.not_lt_zero _)
  | succ fuel ih =>
      cases hscan : self.scan name (hashFn name) start with
      | none =>
          rw [valuesFrom_none (hself.scan_eq_none.mp hscan), List.map_nil, List.append_nil]
          rfl
      | some j =>
          obtain ⟨⟨hstart, hj⟩, hsame, hnext⟩ := hself.scan_eq_some.mp hscan
          rw [valuesFrom_some hstart hj hsame hnext]
          unfold writeCopies
          rw [bind_ok (emit_run _ tokens), bind_ok (self.find_run name _ (Nat.succ_le_of_lt hj)),
            ih (by omega), List.append_assoc]
          rfl

/-- What a slot adds: nothing if its name has come before. -/
theorem Sound.writeSlot_run (hself : self.Sound) (hi : i < self.len) :
    self.writeSlot i tokens = .ok () (tokens ++
      if (self.pairs.take i).any fun before => eqlIgnoreCase before.1 (self.key i) then []
      else memberTokens (self.key i, Multimap.values eqlIgnoreCase (self.key i) self.pairs)) := by
  have hany : ((self.pairs.take i).any fun before => eqlIgnoreCase before.1 (self.key i)) = true ↔
      ∃ j < i, eqlIgnoreCase (self.key j) (self.key i) = true := by
    unfold pairs
    rw [← List.map_take, List.take_range, Nat.min_eq_left hi.le, List.any_map, List.any_eq_true]
    exact exists_congr fun j => and_congr_left' List.mem_range
  unfold writeSlot
  rw [hself.hashed i hi, bind_ok (self.find_run _ _ (Nat.zero_le _))]
  cases hscan : self.scan (self.key i) (hashFn (self.key i)) 0 with
  | none =>
      -- the slot itself has the name
      have hself' := hself.scan_eq_none.mp hscan i (Nat.zero_le i) hi
      rw [eqlIgnoreCase_refl] at hself'
      cases hself'
  | some first =>
      obtain ⟨⟨-, hfirst⟩, hsame, hbefore⟩ := hself.scan_eq_some.mp hscan
      have hle : first ≤ i := by
        by_contra hlt
        have := hbefore i (Nat.zero_le i) (by omega)
        rw [eqlIgnoreCase_refl] at this
        cases this
      simp only
      by_cases heq : first = i
      · subst heq
        rw [if_neg (not_not.mpr rfl), if_neg]
        · rw [← valuesFrom_zero, valuesFrom_some (Nat.zero_le _) hi hsame hbefore,
            bind_ok (emit_run _ tokens), bind_ok (self.find_run _ _ (Nat.succ_le_of_lt hi))]
          cases hscan' : self.scan (self.key first) (hashFn (self.key first)) (first + 1) with
          | none =>
              rw [valuesFrom_none (hself.scan_eq_none.mp hscan')]
              simp only
              rw [emit_run, List.append_assoc]
              rfl
          | some second =>
              obtain ⟨⟨hstart, hsecond⟩, hsame', hbefore'⟩ := hself.scan_eq_some.mp hscan'
              simp only
              rw [bind_ok (emit_run _ _), bind_ok (emit_run _ _), ← hscan',
                bind_ok (hself.writeCopies_run (Nat.lt_succ_of_le (Nat.sub_le _ _))), emit_run,
                valuesFrom_some hstart hsecond hsame' hbefore']
              simp only [memberTokens, List.append_assoc, List.cons_append, List.nil_append, List.map_cons]
        · rw [hany]
          rintro ⟨j, hj, hjsame⟩
          rw [hbefore j (Nat.zero_le j) hj] at hjsame
          cases hjsame
      · rw [if_pos heq, if_pos (hany.mpr ⟨first, Nat.lt_of_le_of_ne hle heq, hsame⟩), List.append_nil]
        rfl

theorem writeSlots_append (is js : List ℕ) {tokens' : List JsonToken}
    (h : self.writeSlots is tokens = .ok () tokens') :
    self.writeSlots (is ++ js) tokens = self.writeSlots js tokens' := by
  induction is generalizing tokens with
  | nil =>
      cases h
      rfl
  | cons i is ih =>
      obtain ⟨u, tokens₁, hslot, hrest⟩ := bind_eq_ok.mp h
      show (self.writeSlot i >>= fun _ => self.writeSlots (is ++ js)) tokens = _
      rw [bind_ok hslot]
      exact ih hrest

/-- **The slots up to one write the members whose name has come up to there.** -/
theorem Sound.writeSlots_run (hself : self.Sound) (hi : i ≤ self.len) :
    self.writeSlots (List.range i) tokens = .ok () (tokens ++
      (Multimap.keys eqlIgnoreCase (self.pairs.take i)).flatMap fun key =>
        memberTokens (key, Multimap.values eqlIgnoreCase key self.pairs)) := by
  induction i with
  | zero => rw [List.take_zero, Multimap.keys, List.flatMap_nil, List.append_nil]; rfl
  | succ i ih =>
      have hslot : self.writeSlot i (tokens ++
          (Multimap.keys eqlIgnoreCase (self.pairs.take i)).flatMap fun key =>
            memberTokens (key, Multimap.values eqlIgnoreCase key self.pairs)) = .ok () _ :=
        hself.writeSlot_run (Nat.lt_of_succ_le hi)
      rw [List.range_succ, writeSlots_append _ _ (ih (Nat.le_of_succ_le hi)),
        take_pairs_succ (Nat.lt_of_succ_le hi), Multimap.keys_append_singleton]
      show (self.writeSlot i >>= fun _ => self.writeSlots []) _ = _
      rw [bind_ok hslot, List.flatMap_append, ← List.append_assoc]
      show EStateM.Result.ok () _ = EStateM.Result.ok () _
      congr 2
      show _ = List.flatMap _ (if ((self.pairs.take i).any fun before =>
        eqlIgnoreCase before.1 (self.key i)) = true then [] else [self.key i])
      cases (self.pairs.take i).any fun before => eqlIgnoreCase before.1 (self.key i) with
      | true => rfl
      | false => exact (List.append_nil _).symm

theorem Sound.jsonStringify_run (hself : self.Sound) :
    self.jsonStringify [] = .ok () (objectTokens (Multimap.groups eqlIgnoreCase self.pairs)) := by
  have hall : self.pairs.take self.len = self.pairs := by
    rw [← self.length_pairs, List.take_length]
  unfold jsonStringify
  rw [bind_ok (emit_run _ _), bind_ok (hself.writeSlots_run (Nat.le_refl _)), emit_run, hall]
  unfold objectTokens Multimap.groups
  rw [List.flatMap_map]
  rfl

end values

theorem eqlIgnoreCase_equivalence : Equivalence fun a b : Bytes => eqlIgnoreCase a b = true :=
  ⟨eqlIgnoreCase_refl, eqlIgnoreCase_symm, eqlIgnoreCase_trans⟩

/-- **The JSON object has every value once, under its name.** -/
theorem jsonStringify_groups (memory : ℕ → Bytes × Bytes × UInt8) (max : ℕ) (ops : List HeaderOp) :
    ∃ results self object, run ops (init memory max) = .ok results self ∧
      self.jsonStringify [] = .ok () (objectTokens object) ∧
      Multimap.Grouped eqlIgnoreCase self.pairs object := by
  obtain ⟨self, hrun, hholds⟩ := (holds_init memory max).run ops
  exact ⟨_, self, _, hrun, hholds.sound.jsonStringify_run,
    Multimap.grouped_groups eqlIgnoreCase_equivalence self.pairs⟩

end HeaderArrays
end Dusty
