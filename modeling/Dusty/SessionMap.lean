import Dusty.Request
import Dusty.SessionText

/-! # Sessions as maps

The entries of a session lie in an array of 16 slots, and the last one takes the place of one that is
removed.  To a handler that is a finite map with at most 16 keys: `run_models`. -/

namespace Dusty

open Act

/-- `SessionData`, as it lies in memory: `max_entries` slots, of which the first `len` are in use. -/
structure SessionArray where
  slots : List SessionEntry
  len : ℕ
  modified : Bool
  slots_length : slots.length = 16

namespace SessionArray

/-- `SessionData{}`.  What is in the slots is not known. -/
def fresh (memory : Fin 16 → SessionEntry) : SessionArray where
  slots := List.ofFn memory
  len := 0
  modified := false
  slots_length := List.length_ofFn

/-- `items`. -/
def items (self : SessionArray) : List SessionEntry := self.slots.take self.len

def slot (self : SessionArray) (i : ℕ) : SessionEntry := self.slots.getD i ⟨[], []⟩

def write (i : ℕ) (entry : SessionEntry) (len : ℕ) (self : SessionArray) : SessionArray where
  slots := self.slots.set i entry
  len := len
  modified := true
  slots_length := List.length_set.trans self.slots_length

/-- `get`. -/
def get (self : SessionArray) (key : Bytes) : Option Bytes :=
  (self.items.find? (·.key == key)).map (·.value)

/-- `set`. -/
def set (key value : Bytes) : Act SessionArray Unit := fun self =>
  if 0 ∈ key ∨ 0 ∈ value then .error (.err .invalidSessionData) self
  else
    match self.items.findIdx? (·.key == key) with
    | some i => .ok () (self.write i ⟨(self.slot i).key, value⟩ self.len)
    | none =>
        if 16 ≤ self.len then .error (.err .sessionFull) self
        else .ok () (self.write self.len ⟨key, value⟩ (self.len + 1))

/-- `remove`. -/
def remove (key : Bytes) : Act SessionArray Unit := fun self =>
  match self.items.findIdx? (·.key == key) with
  | some i => .ok () (self.write i (self.slot (self.len - 1)) (self.len - 1))
  | none => .ok () self

/-- `clear`. -/
def clear : Act SessionArray Unit := modify fun self => { self with len := 0, modified := true }

end SessionArray

/-! ### The slots in use -/

namespace SessionData

theorem assign_eq_set {key value : Bytes} {entries : List SessionEntry} {i : ℕ}
    (h : entries.findIdx? (·.key == key) = some i) {entry : SessionEntry} (hentry : entries[i]? = some entry) :
    assign key value entries = entries.set i { entry with value := value } := by
  induction entries generalizing i with
  | nil => cases h
  | cons first rest ih =>
      rw [List.findIdx?_cons] at h
      unfold assign
      by_cases hkey : first.key = key
      · rw [if_pos (beq_iff_eq.mpr hkey)] at h
        cases h
        cases hentry
        rw [if_pos hkey, List.set_cons_zero]
      · rw [if_neg (by simpa using hkey)] at h
        obtain ⟨j, hj, rfl⟩ := Option.map_eq_some_iff.mp h
        rw [if_neg hkey, List.set_cons_succ, ih hj hentry]

/-- The array holds the entries of a session. -/
structure InArray (data : SessionData) (a : SessionArray) : Prop where
  items : a.items = data.entries
  modified : a.modified = data.modified
  len_le : a.len ≤ 16

section inArray
variable {self : SessionData} {a : SessionArray}

theorem inArray_fresh (memory : Fin 16 → SessionEntry) : InArray {} (.fresh memory) :=
  ⟨rfl, rfl, Nat.zero_le _⟩

theorem InArray.length (h : self.InArray a) : self.entries.length = a.len := by
  rw [← h.items]
  exact List.length_take_of_le (a.slots_length ▸ h.len_le)

theorem InArray.slot (h : self.InArray a) {i : ℕ} (hi : i < a.len) : self.entries[i]? = some (a.slot i) := by
  have hslots : i < a.slots.length := Nat.lt_of_lt_of_le hi (a.slots_length ▸ h.len_le)
  rw [← h.items, SessionArray.items, List.getElem?_take_of_lt hi, List.getElem?_eq_getElem hslots,
    SessionArray.slot, List.getD_eq_getElem?_getD, List.getElem?_eq_getElem hslots]
  rfl

theorem InArray.get (h : self.InArray a) (key : Bytes) : a.get key = self.get key := by
  unfold SessionArray.get SessionData.get
  rw [h.items]

theorem InArray.findIdx? (h : self.InArray a) {key : Bytes} {i : ℕ}
    (hfind : a.items.findIdx? (·.key == key) = some i) :
    i < a.len ∧ (a.slot i).key = key ∧ self.entries.any (·.key == key) = true := by
  rw [h.items] at hfind
  obtain ⟨hi, hkey, -⟩ := List.findIdx?_eq_some_iff_getElem.mp hfind
  have hlt : i < a.len := h.length ▸ hi
  have hat := h.slot hlt
  rw [List.getElem?_eq_getElem hi] at hat
  injection hat with hat
  refine ⟨hlt, ?_, List.any_eq_true.mpr ⟨self.entries[i], List.getElem_mem hi, hkey⟩⟩
  rw [← hat]
  exact beq_iff_eq.mp hkey

theorem InArray.any_eq_false (h : self.InArray a) {key : Bytes}
    (hfind : a.items.findIdx? (·.key == key) = none) : ¬self.entries.any (·.key == key) = true := by
  rw [h.items, List.findIdx?_eq_none_iff] at hfind
  intro hany
  obtain ⟨entry, hentry, hkey⟩ := List.any_eq_true.mp hany
  rw [hfind entry hentry] at hkey
  cases hkey

/-- **`set` on the array.** -/
theorem InArray.set (h : self.InArray a) (key value : Bytes) :
    (∃ self' a', self.set key value = .ok self' ∧ a.set key value = .ok () a' ∧ self'.InArray a') ∨
      ∃ e, self.set key value = .error e ∧ a.set key value = .error (.err e) a := by
  unfold SessionData.set SessionArray.set
  by_cases htext : 0 ∈ key ∨ 0 ∈ value
  · rw [if_pos htext, if_pos htext]
    exact .inr ⟨_, rfl, rfl⟩
  · rw [if_neg htext, if_neg htext]
    cases hfind : a.items.findIdx? (·.key == key) with
    | some i =>
        obtain ⟨hi, -, hany⟩ := h.findIdx? hfind
        rw [if_pos hany]
        refine .inl ⟨_, _, rfl, rfl, ?_, rfl, h.len_le⟩
        rw [h.items] at hfind
        show (a.slots.set i _).take a.len = assign key value self.entries
        rw [List.take_set, assign_eq_set hfind (h.slot hi), ← h.items]
        rfl
    | none =>
        rw [if_neg (h.any_eq_false hfind)]
        have hlength := h.length
        by_cases hroom : a.len < 16
        · rw [dif_pos (hlength ▸ hroom : self.entries.length < 16)]
          refine .inl ⟨_, _, rfl, if_neg (Nat.not_le.mpr hroom), ?_, rfl, Nat.succ_le_of_lt hroom⟩
          show (a.slots.set a.len ⟨key, value⟩).take (a.len + 1) = self.entries ++ [⟨key, value⟩]
          have hlt : a.len < (a.slots.set a.len ⟨key, value⟩).length := by
            rw [List.length_set, a.slots_length]
            exact hroom
          rw [List.take_succ_eq_append_getElem hlt, List.getElem_set_self, List.take_set_of_le (Nat.le_refl _),
            ← h.items]
          rfl
        · rw [dif_neg (hlength ▸ hroom : ¬self.entries.length < 16)]
          exact .inr ⟨_, rfl, if_pos (Nat.not_lt.mp hroom)⟩

/-- **`remove` on the array.** -/
theorem InArray.remove (h : self.InArray a) (key : Bytes) :
    ∃ a', a.remove key = .ok () a' ∧ (self.remove key).InArray a' := by
  unfold SessionData.remove SessionArray.remove
  cases hfind : a.items.findIdx? (·.key == key) with
  | none =>
      rw [if_neg (h.any_eq_false hfind)]
      exact ⟨a, rfl, h⟩
  | some i =>
      obtain ⟨hi, -, hany⟩ := h.findIdx? hfind
      rw [if_pos hany]
      refine ⟨_, rfl, ?_, rfl, (Nat.sub_le _ _).trans h.len_le⟩
      have hlast : self.entries.getLast? = some (a.slot (a.len - 1)) := by
        rw [List.getLast?_eq_getElem?, h.length]
        exact h.slot (by omega)
      rw [h.items] at hfind
      show (a.slots.set i (a.slot (a.len - 1))).take (a.len - 1) = swapRemove key self.entries
      unfold swapRemove
      rw [hfind, hlast]
      simp only
      rw [← h.items, SessionArray.items, ← List.take_set, List.dropLast_eq_take, List.take_take,
        List.length_take, List.length_set, a.slots_length]
      congr 1
      have := h.len_le
      omega

end inArray

end SessionData

/-! ### The map -/

theorem StringMap.erase_of_notMem {m : StringMap} {key : Bytes} (h : key ∉ m) : m.erase key = m := by
  refine Finmap.ext_lookup fun key' => ?_
  by_cases hsame : key' = key
  · subst hsame
    rw [Finmap.lookup_erase, Finmap.lookup_eq_none.mpr h]
  · rw [Finmap.lookup_erase_ne hsame]

namespace SessionData

/-- A session holds what a map does. -/
structure Models (data : SessionData) (m : StringMap) : Prop where
  unique : (data.entries.map (·.key)).Nodup
  lookup : ∀ key value, m.lookup key = some value ↔ ⟨key, value⟩ ∈ data.entries

theorem models_empty : ({} : SessionData).Models ∅ where
  unique := List.nodup_nil
  lookup := fun key value => by
    rw [Finmap.lookup_empty]
    exact ⟨fun h => (by cases h), fun h => absurd h List.not_mem_nil⟩

theorem mem_assign_iff {key value : Bytes} {entries : List SessionEntry}
    (hunique : (entries.map (·.key)).Nodup) (hany : entries.any (·.key == key) = true) (entry : SessionEntry) :
    entry ∈ assign key value entries ↔
      if entry.key = key then entry.value = value else entry ∈ entries := by
  induction entries with
  | nil => cases hany
  | cons first rest ih =>
      obtain ⟨hfirst, hrest⟩ := List.nodup_cons.mp hunique
      unfold assign
      by_cases hkey : first.key = key
      · rw [if_pos hkey, List.mem_cons, List.mem_cons]
        have hother : entry ∈ rest → entry.key ≠ key := by
          intro hentry heq
          apply hfirst
          show first.key ∈ rest.map (·.key)
          rw [hkey, ← heq]
          exact List.mem_map_of_mem hentry
        split
        · next heq =>
            constructor
            · rintro (rfl | hentry)
              · rfl
              · exact absurd heq (hother hentry)
            · rintro rfl
              left
              cases entry
              cases heq
              rw [hkey]
        · next hne =>
            constructor
            · rintro (rfl | hentry)
              · exact absurd hkey hne
              · exact .inr hentry
            · rintro (rfl | hentry)
              · exact absurd hkey hne
              · exact .inr hentry
      · have hany' : rest.any (·.key == key) = true := by
          rw [List.any_cons, Bool.or_eq_true] at hany
          exact hany.resolve_left fun h => hkey (beq_iff_eq.mp h)
        rw [if_neg hkey, List.mem_cons, ih hrest hany', List.mem_cons]
        split
        · next heq =>
            constructor
            · rintro (rfl | h)
              · exact absurd heq hkey
              · exact h
            · exact .inr
        · exact Iff.rfl

section models
variable {self self' : SessionData} {m : StringMap}

theorem Models.get (h : self.Models m) (key : Bytes) : self.get key = m.lookup key := by
  unfold SessionData.get
  cases hfind : self.entries.find? (·.key == key) with
  | some entry =>
      have hkey : entry.key = key := beq_iff_eq.mp (List.find?_some (p := fun e : SessionEntry => e.key == key) hfind)
      refine ((h.lookup key entry.value).mpr ?_).symm
      rw [← hkey]
      exact List.mem_of_find?_eq_some hfind
  | none =>
      cases hlookup : m.lookup key with
      | none => rfl
      | some value =>
          have hnone := List.find?_eq_none.mp hfind _ ((h.lookup key value).mp hlookup)
          exact absurd (beq_self_eq_true key) hnone

theorem Models.mem (h : self.Models m) (key : Bytes) : key ∈ m ↔ self.entries.any (·.key == key) = true := by
  rw [← Finmap.lookup_isSome, Option.isSome_iff_exists, List.any_eq_true]
  constructor
  · rintro ⟨value, hvalue⟩
    exact ⟨_, (h.lookup key value).mp hvalue, beq_self_eq_true key⟩
  · rintro ⟨entry, hentry, hkey⟩
    refine ⟨entry.value, (h.lookup key entry.value).mpr ?_⟩
    rw [← beq_iff_eq.mp hkey]
    exact hentry

theorem Models.count (h : self.Models m) : m.count = self.entries.length := by
  have hkeys : m.keys = (self.entries.map (·.key)).toFinset := by
    ext key
    rw [Finmap.mem_keys, h.mem, List.mem_toFinset, List.mem_map, List.any_eq_true]
    exact exists_congr fun entry => and_congr_right' beq_iff_eq
  unfold StringMap.count
  rw [hkeys, List.toFinset_card_of_nodup h.unique, List.length_map]

theorem Models.of_lookup (hunique : (self'.entries.map (·.key)).Nodup) {key value : Bytes}
    (h : self.Models m) (hentries : ∀ entry : SessionEntry, entry ∈ self'.entries ↔
      if entry.key = key then entry.value = value else entry ∈ self.entries) :
    self'.Models (m.insert key value) where
  unique := hunique
  lookup := fun key' value' => by
    rw [hentries]
    by_cases heq : key' = key
    · subst heq
      rw [Finmap.lookup_insert, if_pos rfl, Option.some.injEq, eq_comm]
    · rw [Finmap.lookup_insert_of_ne _ heq, if_neg heq]
      exact h.lookup key' value'

/-- **`set` on the map.** -/
theorem Models.set (h : self.Models m) (key value : Bytes) :
    self.set key value = .error .invalidSessionData ∧ (0 ∈ key ∨ 0 ∈ value) ∨
    self.set key value = .error .sessionFull ∧ ¬(0 ∈ key ∨ 0 ∈ value) ∧ ¬(key ∈ m ∨ m.count < 16) ∨
    (∃ self', self.set key value = .ok self' ∧ self'.Models (m.insert key value) ∧ self'.modified = true) ∧
      ¬(0 ∈ key ∨ 0 ∈ value) ∧ (key ∈ m ∨ m.count < 16) := by
  unfold SessionData.set
  by_cases htext : 0 ∈ key ∨ 0 ∈ value
  · rw [if_pos htext]
    exact .inl ⟨rfl, htext⟩
  · rw [if_neg htext, h.mem, h.count]
    by_cases hany : self.entries.any (·.key == key) = true
    · rw [if_pos hany]
      refine .inr (.inr ⟨⟨_, rfl, ?_, rfl⟩, htext, .inl hany⟩)
      refine Models.of_lookup ?_ h (mem_assign_iff h.unique hany)
      show ((assign key value self.entries).map (·.key)).Nodup
      rw [map_key_assign]
      exact h.unique
    · rw [if_neg hany]
      have hnew : ∀ entry ∈ self.entries, entry.key ≠ key := fun entry hentry hkey =>
        hany (List.any_eq_true.mpr ⟨entry, hentry, beq_iff_eq.mpr hkey⟩)
      by_cases hroom : self.entries.length < 16
      · rw [dif_pos hroom]
        refine .inr (.inr ⟨⟨_, rfl, ?_, rfl⟩, htext, .inr hroom⟩)
        refine Models.of_lookup ?_ h fun entry => ?_
        · show ((self.entries ++ ([⟨key, value⟩] : List SessionEntry)).map (·.key)).Nodup
          rw [List.map_append, List.map_singleton]
          refine List.nodup_append.mpr ⟨h.unique, List.nodup_singleton _, fun k hk k' hk' => ?_⟩
          obtain ⟨entry, hentry, rfl⟩ := List.mem_map.mp hk
          rw [List.mem_singleton.mp hk']
          exact hnew entry hentry
        · show entry ∈ self.entries ++ ([⟨key, value⟩] : List SessionEntry) ↔ _
          rw [List.mem_append, List.mem_singleton]
          split
          · next heq =>
              constructor
              · rintro (hentry | rfl)
                · exact absurd heq (hnew entry hentry)
                · rfl
              · rintro rfl
                right
                cases entry
                cases heq
                rfl
          · next hne =>
              constructor
              · rintro (hentry | rfl)
                · exact hentry
                · exact absurd rfl hne
              · exact .inl
      · rw [dif_neg hroom]
        exact .inr (.inl ⟨rfl, htext, fun h => h.elim hany hroom⟩)

/-- **`remove` on the map.** -/
theorem Models.remove (h : self.Models m) (key : Bytes) :
    (self.remove key).Models (m.erase key) ∧
      ((self.remove key).modified = true ↔ self.modified = true ∨ key ∈ m) := by
  unfold SessionData.remove
  rw [h.mem]
  by_cases hany : self.entries.any (·.key == key) = true
  · rw [if_pos hany]
    obtain ⟨pre, entry, post, heq, hkey, hperm⟩ := swapRemove_perm hany
    have hunique := h.unique
    rw [heq, List.map_append, List.map_cons] at hunique
    have hrest : ((pre ++ post).map (·.key)).Nodup ∧ ∀ e ∈ pre ++ post, e.key ≠ key := by
      obtain ⟨hnot, hnodup⟩ := List.nodup_middle.mp hunique |> List.nodup_cons.mp
      rw [← List.map_append] at hnot hnodup
      exact ⟨hnodup, fun e he hsame => hnot (List.mem_map.mpr ⟨e, he, hsame.trans hkey.symm⟩)⟩
    refine ⟨⟨(hperm.map _).nodup_iff.mpr hrest.1, fun key' value => ?_⟩, fun _ => .inr hany, fun _ => rfl⟩
    show (m.erase key).lookup key' = some value ↔ _ ∈ swapRemove key self.entries
    rw [hperm.mem_iff]
    by_cases hsame : key' = key
    · subst hsame
      rw [Finmap.lookup_erase]
      exact ⟨fun h => (by cases h), fun he => absurd rfl (hrest.2 _ he)⟩
    · rw [Finmap.lookup_erase_ne hsame, h.lookup, heq, List.mem_append, List.mem_append, List.mem_cons]
      refine or_congr_right (or_iff_right fun he => hsame ?_)
      rw [← hkey, ← he]
  · rw [if_neg hany]
    have hnot : key ∉ m := fun hmem => hany ((h.mem key).mp hmem)
    rw [StringMap.erase_of_notMem hnot]
    exact ⟨h, (or_iff_left hany).symm⟩

end models

end SessionData

/-! ### Calls -/

/-- A call of a handler. -/
inductive SessionCall where
  | set (key value : Bytes)
  | remove (key : Bytes)
  | clear
  | get (key : Bytes)
deriving DecidableEq, Repr

/-- What a call returns. -/
inductive SessionResult where
  | stored (result : Except Error Unit)
  | done
  | found (value : Option Bytes)

namespace SessionCall

/-- What the call does to a map with room for 16 keys. -/
def onMap : SessionCall → StringMap → SessionResult × StringMap
  | .set key value, m =>
      if 0 ∈ key ∨ 0 ∈ value then (.stored (.error .invalidSessionData), m)
      else if key ∈ m ∨ m.count < 16 then (.stored (.ok ()), m.insert key value)
      else (.stored (.error .sessionFull), m)
  | .remove key, m => (.done, m.erase key)
  | .clear, _ => (.done, ∅)
  | .get key, m => (.found (m.lookup key), m)

def onMapAll : List SessionCall → StringMap → List SessionResult × StringMap
  | [], m => ([], m)
  | call :: calls, m =>
      let (result, m') := call.onMap m
      let (results, m'') := onMapAll calls m'
      (result :: results, m'')

/-- The call stores a value, removes a key that is there, or clears the map. -/
def Takes (m : StringMap) : SessionCall → Prop
  | .set key value => ¬(0 ∈ key ∨ 0 ∈ value) ∧ (key ∈ m ∨ m.count < 16)
  | .remove key => key ∈ m
  | .clear => True
  | .get _ => False

/-- Some call of the run changes or clears the map. -/
def Touches : List SessionCall → StringMap → Prop
  | [], _ => False
  | call :: calls, m => (call = .clear ∨ (call.onMap m).2 ≠ m) ∨ Touches calls (call.onMap m).2

/-- A call that leaves the map as it is takes nothing from an empty one. -/
theorem takes_empty {call : SessionCall} (h : call.Takes ∅) : call = .clear ∨ (call.onMap ∅).2 ≠ ∅ := by
  cases call with
  | set key value =>
      right
      rw [onMap]
      rw [if_neg h.1, if_pos h.2]
      intro hempty
      have hmem : key ∈ (∅ : StringMap) := by
        rw [← hempty]
        exact Finmap.mem_insert.mpr (.inl rfl)
      exact Finmap.notMem_empty hmem
  | remove key => exact absurd h Finmap.notMem_empty
  | clear => exact .inl rfl
  | get key => cases h

theorem onMap_of_not_takes {call : SessionCall} {m : StringMap} (h : ¬call.Takes m) :
    call ≠ .clear ∧ (call.onMap m).2 = m := by
  cases call with
  | set key value =>
      refine ⟨SessionCall.noConfusion, ?_⟩
      rw [onMap]
      split
      · rfl
      · next htext =>
          split
          · next hroom => exact absurd ⟨htext, hroom⟩ h
          · rfl
  | remove key => exact ⟨SessionCall.noConfusion, StringMap.erase_of_notMem h⟩
  | clear => exact absurd trivial h
  | get key => exact ⟨SessionCall.noConfusion, rfl⟩

end SessionCall

namespace SessionArray

open SessionCall

/-- A call on the array. -/
def exec : SessionCall → Act SessionArray SessionResult
  | .set key value => do return .stored (← attempt (set key value))
  | .remove key => do remove key; return .done
  | .clear => do clear; return .done
  | .get key => fun self => .ok (.found (self.get key)) self

def run : List SessionCall → Act SessionArray (List SessionResult)
  | [] => pure []
  | call :: calls => do
      let result ← exec call
      let results ← run calls
      pure (result :: results)

/-- The array holds what a map does. -/
def Holds (a : SessionArray) (m : StringMap) : Prop :=
  ∃ data : SessionData, data.InArray a ∧ data.Models m

section calls
variable {self : SessionArray} {m : StringMap}

theorem Holds.withModified (h : self.Holds m) (b : Bool) : Holds { self with modified := b } m := by
  obtain ⟨data, harray, hmodels⟩ := h
  exact ⟨{ data with modified := b }, ⟨harray.items, rfl, harray.len_le⟩, ⟨hmodels.unique, hmodels.lookup⟩⟩

theorem Holds.unique (h : self.Holds m) : (self.items.map (·.key)).Nodup := by
  obtain ⟨data, harray, hmodels⟩ := h
  rw [harray.items]
  exact hmodels.unique

theorem Holds.get (h : self.Holds m) (key : Bytes) : self.get key = m.lookup key := by
  obtain ⟨data, harray, hmodels⟩ := h
  rw [harray.get, hmodels.get]

theorem Holds.len (h : self.Holds m) : self.len = m.count ∧ self.len ≤ 16 := by
  obtain ⟨data, harray, hmodels⟩ := h
  exact ⟨by rw [hmodels.count, harray.length], harray.len_le⟩

/-- **`set` on the array and the map.** -/
theorem Holds.set (h : self.Holds m) (key value : Bytes) :
    self.set key value = .error (.err .invalidSessionData) self ∧ (0 ∈ key ∨ 0 ∈ value) ∨
    self.set key value = .error (.err .sessionFull) self ∧
      ¬(0 ∈ key ∨ 0 ∈ value) ∧ ¬(key ∈ m ∨ m.count < 16) ∨
    (∃ self', self.set key value = .ok () self' ∧ self'.Holds (m.insert key value) ∧
        self'.modified = true) ∧
      ¬(0 ∈ key ∨ 0 ∈ value) ∧ (key ∈ m ∨ m.count < 16) := by
  obtain ⟨data, harray, hmodels⟩ := h
  rcases harray.set key value with ⟨data', a', hset, ha, harray'⟩ | ⟨e, hset, ha⟩
  · rcases hmodels.set key value with ⟨hdata, -⟩ | ⟨hdata, -⟩ | ⟨⟨data'', hdata, hmodels', hmod⟩, hwhen⟩
    · rw [hdata] at hset
      cases hset
    · rw [hdata] at hset
      cases hset
    · rw [hdata] at hset
      cases hset
      exact .inr (.inr ⟨⟨a', ha, ⟨_, harray', hmodels'⟩, harray'.modified.trans hmod⟩, hwhen⟩)
  · rcases hmodels.set key value with ⟨hdata, hwhen⟩ | ⟨hdata, hwhen⟩ | ⟨⟨data', hdata, -⟩, -⟩
    · rw [hdata] at hset
      cases hset
      exact .inl ⟨ha, hwhen⟩
    · rw [hdata] at hset
      cases hset
      exact .inr (.inl ⟨ha, hwhen⟩)
    · rw [hdata] at hset
      cases hset

/-- **A call does to the array what it does to the map**, and the calls that take set the flag. -/
theorem Holds.exec (h : self.Holds m) (call : SessionCall) :
    ∃ self', exec call self = .ok (call.onMap m).1 self' ∧ self'.Holds (call.onMap m).2 ∧
      (self'.modified = true ↔ self.modified = true ∨ call.Takes m) := by
  cases call with
  | set key value =>
      rw [onMap]
      rcases h.set key value with ⟨hset, hwhen⟩ | ⟨hset, htext, hfull⟩ | ⟨⟨self', hset, hholds, hmod⟩, htext, hroom⟩
      · rw [if_pos hwhen]
        exact ⟨self, bind_ok (attempt_error hset), h, (or_iff_left fun ht => ht.1 hwhen).symm⟩
      · rw [if_neg htext, if_neg hfull]
        exact ⟨self, bind_ok (attempt_error hset), h, (or_iff_left fun ht => hfull ht.2).symm⟩
      · rw [if_neg htext, if_pos hroom]
        exact ⟨self', bind_ok (attempt_ok hset), hholds, iff_of_true hmod (.inr ⟨htext, hroom⟩)⟩
  | remove key =>
      obtain ⟨data, harray, hmodels⟩ := h
      obtain ⟨a', ha, harray'⟩ := harray.remove key
      obtain ⟨hmodels', hmod⟩ := hmodels.remove key
      refine ⟨a', bind_ok ha, ⟨_, harray', hmodels'⟩, ?_⟩
      rw [harray'.modified, hmod, harray.modified]
      exact Iff.rfl
  | clear =>
      exact ⟨_, rfl, ⟨⟨[], true, Nat.zero_le _⟩, ⟨rfl, rfl, Nat.zero_le _⟩,
        ⟨SessionData.models_empty.unique, SessionData.models_empty.lookup⟩⟩, iff_of_true rfl (.inr trivial)⟩
  | get key =>
      refine ⟨self, ?_, h, (or_iff_left id).symm⟩
      show EStateM.Result.ok (SessionResult.found (self.get key)) self = _
      rw [h.get]
      rfl

theorem Holds.run (h : self.Holds m) (hnoted : m ≠ ∅ → self.modified = true) (calls : List SessionCall) :
    ∃ self', run calls self = .ok (onMapAll calls m).1 self' ∧ self'.Holds (onMapAll calls m).2 ∧
      (self'.modified = true ↔ self.modified = true ∨ Touches calls m) := by
  induction calls generalizing self m with
  | nil => exact ⟨self, rfl, h, (or_iff_left id).symm⟩
  | cons call calls ih =>
      obtain ⟨self₁, hcall, h₁, hmod₁⟩ := h.exec call
      -- what is in the map was put there by a call that set the flag
      have hnoted₁ : (call.onMap m).2 ≠ ∅ → self₁.modified = true := by
        intro hne
        rw [hmod₁]
        by_cases htakes : call.Takes m
        · exact .inr htakes
        · rw [(onMap_of_not_takes htakes).2] at hne
          exact .inl (hnoted hne)
      obtain ⟨self₂, hcalls, h₂, hmod₂⟩ := ih h₁ hnoted₁
      refine ⟨self₂, ?_, h₂, ?_⟩
      · unfold SessionArray.run
        rw [bind_ok hcall, bind_ok hcalls]
        rfl
      · rw [hmod₂, hmod₁, or_assoc, Touches]
        by_cases hset : self.modified = true
        · exact iff_of_true (.inl hset) (.inl hset)
        · refine or_congr_right (or_congr_left ⟨fun htakes => ?_, fun htouched => ?_⟩)
          · have hempty : m = ∅ := Classical.byContradiction fun hne => hset (hnoted hne)
            subst hempty
            exact takes_empty htakes
          · by_contra htakes
            obtain ⟨hclear, hsame⟩ := onMap_of_not_takes htakes
            exact htouched.elim hclear fun hne => hne hsame

end calls

theorem holds_fresh (memory : Fin 16 → SessionEntry) : (fresh memory).Holds ∅ :=
  ⟨{}, SessionData.inArray_fresh memory, SessionData.models_empty⟩

/-- **A session is a map with at most 16 keys.** -/
theorem run_models (memory : Fin 16 → SessionEntry) (calls : List SessionCall) :
    ∃ self m results, run calls (fresh memory) = .ok results self ∧ onMapAll calls ∅ = (results, m) ∧
      (self.items.map (·.key)).Nodup ∧ (∀ key, self.get key = m.lookup key) ∧
      self.len = m.count ∧ self.len ≤ 16 ∧
      (∀ key value, self.set key value = .error (.err .invalidSessionData) self ↔ 0 ∈ key ∨ 0 ∈ value) ∧
      (∀ key value, self.set key value = .error (.err .sessionFull) self ↔
        ¬(0 ∈ key ∨ 0 ∈ value) ∧ key ∉ m ∧ m.count = 16) ∧
      (∀ key value e self', self.set key value = .error e self' → self' = self) ∧
      (∀ call b, ∃ self', exec call { self with modified := b } = .ok (call.onMap m).1 self' ∧
        (self'.modified = true ↔ b = true ∨ call.Takes m)) ∧
      (self.modified = true ↔ Touches calls ∅) := by
  obtain ⟨self, hrun, hholds, hmod⟩ :=
    (holds_fresh memory).run (fun hne => absurd rfl hne) calls
  obtain ⟨hlen, hle⟩ := hholds.len
  refine ⟨self, _, _, hrun, rfl, hholds.unique, hholds.get, hlen, hle, ?_, ?_, ?_, ?_, ?_⟩
  · intro key value
    rcases hholds.set key value with ⟨hset, hwhen⟩ | ⟨hset, htext, -⟩ | ⟨⟨self', hset, -⟩, htext, -⟩
    · exact iff_of_true hset hwhen
    · refine iff_of_false (fun h => ?_) htext
      rw [hset] at h
      cases h
    · refine iff_of_false (fun h => ?_) htext
      rw [hset] at h
      cases h
  · intro key value
    rcases hholds.set key value with ⟨hset, hwhen⟩ | ⟨hset, htext, hfull⟩ | ⟨⟨self', hset, -⟩, -, hroom⟩
    · refine iff_of_false (fun h => ?_) fun h => h.1 hwhen
      rw [hset] at h
      cases h
    · refine iff_of_true hset ⟨htext, fun hmem => hfull (.inl hmem), ?_⟩
      have hcount : ¬StringMap.count _ < 16 := fun hlt => hfull (.inr hlt)
      omega
    · refine iff_of_false (fun h => ?_) ?_
      · rw [hset] at h
        cases h
      · rintro ⟨-, hnew, hcount⟩
        exact hroom.elim hnew fun hlt => absurd hcount (Nat.ne_of_lt hlt)
  · intro key value e self' hset
    rcases hholds.set key value with ⟨h, -⟩ | ⟨h, -⟩ | ⟨⟨self'', h, -⟩, -⟩
    · rw [h] at hset
      cases hset
      rfl
    · rw [h] at hset
      cases hset
      rfl
    · rw [h] at hset
      cases hset
  · intro call b
    obtain ⟨self', hexec, -, hset⟩ := (hholds.withModified b).exec call
    exact ⟨self', hexec, hset⟩
  · rw [hmod]
    exact or_iff_right Bool.false_ne_true

/-- A full session names the zero byte of a new key, not its own size, and a value that is there
already is stored once more. -/
theorem set_full_and_same :
    let memory : Fin 16 → SessionEntry := fun _ => ⟨[], []⟩
    let calls := (List.range 16).map fun i => SessionCall.set [UInt8.ofNat (i + 1)] []
    (∃ results self, run calls (fresh memory) = .ok results self ∧ self.len = 16 ∧
      self.get [0] = none ∧ SessionArray.set [0] [] self = .error (.err .invalidSessionData) self) ∧
    ∃ results self self', run [.set [1] [2]] (fresh memory) = .ok results self ∧
      SessionArray.set [1] [2] { self with modified := false } = .ok () self' ∧
      self'.items = self.items ∧ self'.modified = true := by
  intro memory calls
  have hfull : yields (fun _ self => self.len == 16 && self.get [0] == none) (run calls) (fresh memory) =
      true := by decide +kernel
  obtain ⟨results, self, hrun, hself⟩ := yields_iff.mp hfull
  rw [Bool.and_eq_true, beq_iff_eq, beq_iff_eq] at hself
  exact ⟨⟨results, self, hrun, hself.1, hself.2, if_pos (.inl List.mem_cons_self)⟩,
    _, _, _, rfl, rfl, rfl, rfl⟩

end SessionArray
end Dusty
