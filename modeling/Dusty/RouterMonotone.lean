import Dusty.RouterParams

/-! # What one more registration does to the lookups

A registration adds the nodes of its pattern to one tree, and a search of the larger tree may
come to them before the node it stopped at so far.  Two things can then go wrong: it stops at
a wildcard node that has no route, since the pattern goes on behind its `*` (`Blocks`), or it
comes to a new parameter or wildcard node with all the parameters bound that fit
(`Overruns`).  Nothing else does (`findHandler_monotone_iff`). -/

namespace Dusty

open Seg

namespace StringMap

theorem keys_drops_mono {m m' : StringMap} {ks ks' : List Bytes} (h : m'.keys ⊆ m.keys)
    (hks : ∀ k ∈ ks, k ∈ ks') :
    (Edit.run (ks'.map .drop) m').keys ⊆ (Edit.run (ks.map .drop) m).keys := by
  intro k hk
  rw [Finmap.mem_keys, Edit.keys_run_drops] at hk ⊢
  exact ⟨Finmap.mem_keys.mp (h (Finmap.mem_keys.mpr hk.1)), fun hmem => hk.2 (hks k hmem)⟩

theorem keys_insert_mono {m m' : StringMap} (h : m'.keys ⊆ m.keys) (k v : Bytes) :
    (m'.insert k v).keys ⊆ (m.insert k v).keys := by
  rw [keys_insert, keys_insert]
  exact Finset.insert_subset_insert k h

theorem keys_run_mono (ms : List (Edit Bytes Bytes)) {m m' : StringMap} (h : m'.keys ⊆ m.keys) :
    (Edit.run ms m').keys ⊆ (Edit.run ms m).keys := by
  induction ms generalizing m m' with
  | nil => exact h
  | cons e ms ih =>
      apply ih
      cases e with
      | bind k v => exact keys_insert_mono h k v
      | drop k =>
          show (Finmap.erase k m').keys ⊆ (Finmap.erase k m).keys
          rw [Finmap.keys_erase, Finmap.keys_erase]
          exact Finset.erase_subset_erase k h

end StringMap

namespace Node

variable {H M : Type}

/-- The new pattern puts a wildcard node without a route where the search stops at it. -/
def Blocks : List Bytes → List Bytes → Node H M → Prop
  | seg :: pattern, x :: xs, n =>
      match segmentKind seg with
      | .static => seg = x ∧ Blocks pattern xs (n.childOr seg)
      | .param => search (n.child (.static x)) xs = none ∧ Blocks pattern xs (n.childOr seg)
      | .wildcard => pattern ≠ [] ∧ n.wildcardChild = null ∧
          search (n.child (.static x)) xs = none ∧ search n.paramChild xs = none
  | _, _, _ => False

/-- The search comes to a node that is new with the pattern and has no room for its name. -/
def Overruns (max : ℕ) : List Bytes → List Bytes → Node H M → StringMap → Prop
  | seg :: pattern, x :: xs, n, params =>
      match segmentKind seg with
      | .static => seg = x ∧ Overruns max pattern xs (n.childOr seg) params
      | .param =>
          let below := Edit.run ((tried xs (n.child (.static x))).map .drop) params
          search (n.child (.static x)) xs = none ∧
            (n.paramChild = null ∧ max ≤ StringMap.count below ∨
              Overruns max pattern xs (n.childOr seg)
                (below.insert (n.childOr seg).name x))
      | .wildcard =>
          n.wildcardChild = null ∧ search (n.child (.static x)) xs = none ∧
            search n.paramChild xs = none ∧
            max ≤ StringMap.count (Edit.run ((tried (x :: xs) n).map .drop) params)
  | _, _, _, _ => False

/-! ### The search looks at nodes up to their siblings -/

theorem search_congr {a b : Node H M} (h : a.alone = b.alone) (xs : List Bytes) :
    search a xs = search b xs := by
  rw [← search_alone, h, search_alone]

theorem tried_congr {a b : Node H M} (h : a.alone = b.alone) (xs : List Bytes) :
    tried xs a = tried xs b := by
  rw [← tried_alone, h, tried_alone]

theorem room_congr {a b : Node H M} (h : a.alone = b.alone) (max : ℕ) (xs : List Bytes)
    (params : StringMap) : Room max xs a params ↔ Room max xs b params := by
  rw [← room_alone, h, room_alone]

theorem null_congr {a b : Node H M} (h : a.alone = b.alone) : a = null ↔ b = null := by
  rw [← alone_eq_null, h, alone_eq_null]

theorem isNull_congr {a b : Node H M} (h : a.alone = b.alone) : a.isNull = b.isNull := by
  rw [Bool.eq_iff_iff, isNull_iff, isNull_iff, null_congr h]

theorem name_congr {a b : Node H M} (h : a.alone = b.alone) : a.name = b.name := by
  rw [← name_alone, h, name_alone]

section leaf
variable (s : Bytes) (k : NodeKind) (name : Option Bytes)

theorem search_leaf (xs : List Bytes) : search (leaf s k name : Node H M) xs = none := by
  cases xs with
  | nil => rfl
  | cons x xs =>
      rw [search_cons]
      simp [leaf, child, staticChildren, paramChild, wildcardChild, findSibling, isNull]

theorem tried_leaf (xs : List Bytes) : tried xs (leaf s k name : Node H M) = [] := by
  cases xs with
  | nil => rfl
  | cons x xs => simp [tried, leaf, child, staticChildren, paramChild, findSibling, isNull]

theorem room_leaf (max : ℕ) (xs : List Bytes) (params : StringMap) :
    Room max xs (leaf s k name : Node H M) params := by
  cases xs with
  | nil => trivial
  | cons x xs =>
      refine ⟨room_null .., fun _ => ⟨fun hc => ?_, fun _ hc => ?_⟩⟩
      · exact absurd rfl hc
      · exact absurd rfl hc

end leaf

theorem search_childOr (n : Node H M) (seg : Bytes) (xs : List Bytes) :
    search (n.childOr seg) xs = search (n.child (segOf seg)) xs := by
  unfold childOr
  split
  · case isTrue h => rw [isNull_iff.mp h, search_leaf, search_null]
  · rfl

theorem tried_childOr (n : Node H M) (seg : Bytes) (xs : List Bytes) :
    tried xs (n.childOr seg) = tried xs (n.child (segOf seg)) := by
  unfold childOr
  split
  · case isTrue h => rw [isNull_iff.mp h, tried_leaf, tried_null]
  · rfl

theorem room_childOr (n : Node H M) (seg : Bytes) (max : ℕ) (xs : List Bytes)
    (params : StringMap) :
    Room max xs (n.childOr seg) params ↔ Room max xs (n.child (segOf seg)) params := by
  unfold childOr
  split
  · case isTrue h =>
      rw [isNull_iff.mp h]
      exact iff_of_true (room_leaf ..) (room_null ..)
  · rfl

/-! ### With fewer parameters bound there is as much room -/

theorem room_mono {max : ℕ} (xs : List Bytes) {n : Node H M} {params params' : StringMap}
    (h : params'.keys ⊆ params.keys) (hroom : Room max xs n params) : Room max xs n params' := by
  induction xs generalizing n params params' with
  | nil => trivial
  | cons x xs ih =>
      obtain ⟨hstatic, hlater⟩ := hroom
      have hbelow := StringMap.keys_drops_mono h
        fun k (hk : k ∈ tried xs (n.child (.static x))) => hk
      refine ⟨ih h hstatic, fun hs => ⟨fun hc => ?_, fun hp hc => ?_⟩⟩
      · obtain ⟨hcount, hroom⟩ := (hlater hs).1 hc
        exact ⟨(StringMap.count_le_of_keys_subset hbelow).trans_lt hcount,
          ih (StringMap.keys_insert_mono hbelow _ _) hroom⟩
      · have hdrops := StringMap.keys_drops_mono h fun k (hk : k ∈ tried (x :: xs) n) => hk
        exact (StringMap.count_le_of_keys_subset hdrops).trans_lt ((hlater hs).2 hp hc)

/-! ### What the search makes of the new nodes -/

theorem segOf_static {seg : Bytes} (h : segmentKind seg = .static) : segOf seg = .static seg := by
  simp [segOf, h]

theorem segOf_param {seg : Bytes} (h : segmentKind seg = .param) : segOf seg = .param := by
  simp [segOf, h]

theorem segOf_wildcard {seg : Bytes} (h : segmentKind seg = .wildcard) : segOf seg = .wildcard := by
  simp [segOf, h]

theorem alone_child_insert_self (rt : Route H M) {n : Node H M} (hn : n ≠ null) (seg : Bytes)
    (rest : List Bytes) {t : Seg Bytes} (ht : segOf seg = t) :
    ((insert rt (seg :: rest) n).child t).alone = (insert rt rest (n.childOr seg)).alone := by
  rw [alone_child_insert rt hn, if_pos ht.symm]

theorem alone_child_insert_ne (rt : Route H M) {n : Node H M} (hn : n ≠ null) (seg : Bytes)
    (rest : List Bytes) {t : Seg Bytes} (ht : segOf seg ≠ t) :
    ((insert rt (seg :: rest) n).child t).alone = (n.child t).alone := by
  rw [alone_child_insert rt hn, if_neg ht.symm]

theorem search_setRoute (rt : Route H M) (n : Node H M) (x : Bytes) (xs : List Bytes) :
    search (n.setRoute rt) (x :: xs) = search n (x :: xs) := by
  cases n with
  | null => rfl
  | mk =>
      rw [search_cons, search_cons]
      rfl

/-- A new node the pattern goes on from has no route. -/
theorem insert_childOr_route (rt : Route H M) {n : Node H M} {seg : Bytes} {rest : List Bytes}
    (hnew : n.child (segOf seg) = null) (hrest : rest ≠ []) :
    (insert rt rest (n.childOr seg)).route = none := by
  obtain ⟨s, more, rfl⟩ := List.exists_cons_of_ne_nil hrest
  rw [insert_route, childOr, if_pos (isNull_iff.mpr hnew)]
  rfl

/-- **Where the search of the larger tree stops**: at a node without a route, or where it
stopped before, or at the new pattern. -/
theorem search_insert (rt : Route H M) (pattern : List Bytes) {n : Node H M} (hn : n ≠ null)
    (segments : List Bytes) :
    (Blocks pattern segments n → ∃ p, search (insert rt pattern n) segments = some p ∧
        lookup p (insert rt pattern n) = none) ∧
      (¬Blocks pattern segments n →
        search (insert rt pattern n) segments = search n segments ∨
          search (insert rt pattern n) segments = some (shape pattern)) := by
  induction pattern generalizing n segments with
  | nil =>
      refine ⟨fun h => absurd h (by simp [Blocks]), fun _ => ?_⟩
      cases segments with
      | nil => exact .inr (by simp [insert_nil_route rt hn, shape])
      | cons x xs => exact .inl (search_setRoute rt n x xs)
  | cons seg rest ih =>
      cases segments with
      | nil =>
          refine ⟨fun h => absurd h (by simp [Blocks]), fun _ => .inl ?_⟩
          rw [search_nil, search_nil, insert_route]
      | cons x xs =>
          obtain ⟨hblock, hfree⟩ := ih (childOr_ne_null n seg) xs
          have hself := fun t => alone_child_insert_self rt hn seg rest (t := t)
          have hother := fun t => alone_child_insert_ne rt hn seg rest (t := t)
          rw [search_cons, search_cons]
          cases hk : segmentKind seg with
          | static =>
              have ht := segOf_static hk
              have hpar : (insert rt (seg :: rest) n).paramChild.alone = n.paramChild.alone :=
                hother .param (by simp [ht])
              have hwil : (insert rt (seg :: rest) n).wildcardChild.alone = n.wildcardChild.alone :=
                hother .wildcard (by simp [ht])
              simp only [Blocks, hk]
              rw [search_congr hpar, isNull_congr hwil]
              by_cases hx : seg = x
              · subst hx
                rw [search_congr (hself _ ht)]
                constructor
                · rintro ⟨-, h⟩
                  obtain ⟨p, hp, hlookup⟩ := hblock h
                  refine ⟨.static seg :: p, by simp [hp], ?_⟩
                  rw [lookup, ← lookup_alone, hself _ ht, lookup_alone]
                  exact hlookup
                · intro h
                  rcases hfree fun hb => h ⟨rfl, hb⟩ with hs | hs
                  · left
                    rw [hs, search_childOr, ht]
                  · right
                    simp [hs, shape, ht]
              · rw [search_congr (hother (.static x) (by simpa [ht] using hx))]
                exact ⟨fun h => absurd h.1 hx, fun _ => .inl rfl⟩
          | param =>
              have ht := segOf_param hk
              have hsta := search_congr (hother (.static x) (by simp [ht])) xs
              have hpar : (insert rt (seg :: rest) n).paramChild.alone = _ := hself .param ht
              have hwil : (insert rt (seg :: rest) n).wildcardChild.alone = n.wildcardChild.alone :=
                hother .wildcard (by simp [ht])
              simp only [Blocks, hk]
              rw [hsta, search_congr hpar, isNull_congr hwil]
              constructor
              · rintro ⟨hs, h⟩
                obtain ⟨p, hp, hlookup⟩ := hblock h
                refine ⟨.param :: p, by simp [hs, hp], ?_⟩
                rw [lookup, ← lookup_alone, hself _ ht, lookup_alone]
                exact hlookup
              · intro h
                cases hs : search (n.child (.static x)) xs with
                | some p => exact .inl rfl
                | none =>
                    rcases hfree fun hb => h ⟨hs, hb⟩ with hp | hp
                    · left
                      rw [hp, search_childOr, ht]
                      rfl
                    · right
                      simp [hp, shape, ht]
          | wildcard =>
              have ht := segOf_wildcard hk
              have hsta := search_congr (hother (.static x) (by simp [ht])) xs
              have hpar : (insert rt (seg :: rest) n).paramChild.alone = n.paramChild.alone :=
                hother .param (by simp [ht])
              have hwil : (insert rt (seg :: rest) n).wildcardChild.alone = _ := hself .wildcard ht
              have hnew := (insert_head rt rest (childOr_ne_null n seg)).1
              simp only [Blocks, hk]
              rw [hsta, search_congr hpar, isNull_congr hwil, isNull_false_iff.mpr hnew]
              constructor
              · rintro ⟨hrest, hw, hs, hp⟩
                refine ⟨[.wildcard], by simp [hs, hp], ?_⟩
                rw [lookup, ← lookup_alone, hself _ ht, lookup_alone]
                exact insert_childOr_route rt (by rw [ht]; exact hw) hrest
              · intro h
                cases hs : search (n.child (.static x)) xs with
                | some p => exact .inl rfl
                | none =>
                    cases hp : search n.paramChild xs with
                    | some p => exact .inl rfl
                    | none =>
                        by_cases hrest : rest = []
                        · right
                          simp [hrest, shape, ht]
                        · left
                          have hw : n.wildcardChild ≠ null := fun hw => h ⟨hrest, hw, hs, hp⟩
                          simp [isNull_false_iff.mpr hw]

theorem search_insert_eq_none (rt : Route H M) {pattern : List Bytes} {n : Node H M} (hn : n ≠ null)
    {segments : List Bytes} (h : search (insert rt pattern n) segments = none) :
    search n segments = none := by
  obtain ⟨hblock, hfree⟩ := search_insert rt pattern hn segments
  by_cases hb : Blocks pattern segments n
  · obtain ⟨p, hp, -⟩ := hblock hb
    rw [h] at hp
    cases hp
  · rcases hfree hb with hs | hs
    · rw [← hs, h]
    · rw [h] at hs
      cases hs

/-! ### The names tried, and the room for them -/

theorem tried_setRoute (rt : Route H M) (n : Node H M) (xs : List Bytes) :
    tried xs (n.setRoute rt) = tried xs n := by
  cases xs with
  | nil => rfl
  | cons x xs => cases n <;> rfl

theorem room_setRoute (rt : Route H M) (n : Node H M) (max : ℕ) (xs : List Bytes)
    (params : StringMap) : Room max xs (n.setRoute rt) params ↔ Room max xs n params := by
  cases xs with
  | nil => rfl
  | cons x xs => cases n <;> rfl

/-- A child that was there stays and keeps its name. -/
theorem insert_child_old (rt : Route H M) {n : Node H M} (seg : Bytes) (rest : List Bytes)
    {t : Seg Bytes} (h : n.child t ≠ null) :
    (insert rt (seg :: rest) n).child t ≠ null ∧
      ((insert rt (seg :: rest) n).child t).name = (n.child t).name := by
  have hn : n ≠ null := by
    rintro rfl
    exact h (child_null t)
  by_cases hseg : segOf seg = t
  · have halone := alone_child_insert_self rt hn seg rest hseg
    obtain ⟨hne, -, hname, -⟩ := insert_head rt rest (childOr_ne_null n seg)
    refine ⟨fun hnull => hne ((null_congr halone).mp hnull), ?_⟩
    rw [name_congr halone, name, hname, childOr, hseg, if_neg (by simpa [isNull_iff] using h)]
    rfl
  · have halone := alone_child_insert_ne rt hn seg rest hseg
    exact ⟨fun hnull => h ((null_congr halone).mp hnull), name_congr halone⟩

/-- The names tried before are tried after the registration. -/
theorem tried_insert (rt : Route H M) {segments : List Bytes} (pattern : List Bytes)
    {n : Node H M} {k : Bytes} (h : k ∈ tried segments n) :
    k ∈ tried segments (insert rt pattern n) := by
  induction segments generalizing pattern n with
  | nil => cases h
  | cons x xs ih =>
      have hn : n ≠ null := by
        rintro rfl
        simp at h
      cases pattern with
      | nil =>
          rw [insert, tried_setRoute]
          exact h
      | cons seg rest =>
          have hbelow : ∀ t, k ∈ tried xs (n.child t) →
              k ∈ tried xs ((insert rt (seg :: rest) n).child t) := by
            intro t ht
            by_cases hseg : segOf seg = t
            · rw [tried_congr (alone_child_insert_self rt hn seg rest hseg)]
              apply ih
              rw [tried_childOr, hseg]
              exact ht
            · rw [tried_congr (alone_child_insert_ne rt hn seg rest hseg)]
              exact ht
          rw [tried, List.mem_append] at h ⊢
          rcases h with h | h
          · exact .inl (hbelow _ h)
          · right
            by_cases hc : n.paramChild = null
            · simp [hc, isNull] at h
            · obtain ⟨hne, hname⟩ := insert_child_old rt seg rest (t := .param) hc
              have hnull : (insert rt (seg :: rest) n).paramChild.isNull = false :=
                isNull_false_iff.mpr hne
              rw [isNull_false_iff.mpr hc] at h
              rw [hnull]
              rcases List.mem_cons.mp h with rfl | h
              · exact List.mem_cons.mpr (.inl hname.symm)
              · exact List.mem_cons_of_mem _ (hbelow .param h)

section child
variable (rt : Route H M) {n : Node H M} (seg : Bytes) (rest : List Bytes) {t : Seg Bytes}
  {xs : List Bytes}

theorem tried_child_insert {k : Bytes} (h : k ∈ tried xs (n.child t)) :
    k ∈ tried xs ((insert rt (seg :: rest) n).child t) := by
  have hn : n ≠ null := by
    rintro rfl
    simp at h
  by_cases hseg : segOf seg = t
  · rw [tried_congr (alone_child_insert_self rt hn seg rest hseg)]
    apply tried_insert
    rw [tried_childOr, hseg]
    exact h
  · rw [tried_congr (alone_child_insert_ne rt hn seg rest hseg)]
    exact h

theorem search_child_insert_eq_none (hn : n ≠ null)
    (h : search ((insert rt (seg :: rest) n).child t) xs = none) :
    search (n.child t) xs = none := by
  by_cases hseg : segOf seg = t
  · rw [search_congr (alone_child_insert_self rt hn seg rest hseg)] at h
    rw [← hseg, ← search_childOr]
    exact search_insert_eq_none rt (childOr_ne_null n seg) h
  · rwa [search_congr (alone_child_insert_ne rt hn seg rest hseg)] at h

end child

/-! ### The room in the larger tree -/

section room
variable (rt : Route H M) {n : Node H M} (hn : n ≠ null) (seg : Bytes) (rest : List Bytes)
  {max : ℕ} (x : Bytes) (xs : List Bytes) {params params' : StringMap}

/-- After the static children no more names are bound than before. -/
theorem keys_below_insert (hsub : params'.keys ⊆ params.keys) :
    (Edit.run ((tried xs ((insert rt (seg :: rest) n).child (.static x))).map .drop)
        params').keys ⊆
      (Edit.run ((tried xs (n.child (.static x))).map .drop) params).keys :=
  StringMap.keys_drops_mono hsub fun _ hk => tried_child_insert rt seg rest hk

include hn in
/-- Room for the parameter child where it is not new. -/
theorem room_param_insert (hsub : params'.keys ⊆ params.keys)
    (hroom : Room max (x :: xs) n params) (ht : segOf seg ≠ .param)
    (hs : search ((insert rt (seg :: rest) n).child (.static x)) xs = none)
    (hc : (insert rt (seg :: rest) n).paramChild ≠ null) :
    StringMap.count (Edit.run ((tried xs ((insert rt (seg :: rest) n).child (.static x))).map .drop)
        params') < max ∧
      Room max xs (insert rt (seg :: rest) n).paramChild
        (Finmap.insert (insert rt (seg :: rest) n).paramChild.name x
          (Edit.run ((tried xs ((insert rt (seg :: rest) n).child (.static x))).map .drop)
            params')) := by
  have halone : (insert rt (seg :: rest) n).paramChild.alone = n.paramChild.alone :=
    alone_child_insert_ne rt hn seg rest ht
  have hbelow := keys_below_insert (n := n) rt seg rest x xs hsub
  obtain ⟨hcount, hparam⟩ := (hroom.2 (search_child_insert_eq_none rt seg rest hn hs)).1
    fun hnull => hc ((null_congr halone).mpr hnull)
  refine ⟨(StringMap.count_le_of_keys_subset hbelow).trans_lt hcount, ?_⟩
  rw [room_congr halone, name_congr halone]
  exact room_mono xs (StringMap.keys_insert_mono hbelow _ _) hparam

include hn in
/-- Room for the wildcard child where it is not new. -/
theorem room_wildcard_insert (hsub : params'.keys ⊆ params.keys)
    (hroom : Room max (x :: xs) n params)
    (hs : search ((insert rt (seg :: rest) n).child (.static x)) xs = none)
    (hp : search (insert rt (seg :: rest) n).paramChild xs = none) (hc : n.wildcardChild ≠ null) :
    StringMap.count (Edit.run ((tried (x :: xs) (insert rt (seg :: rest) n)).map .drop) params') <
      max := by
  have hkeys := StringMap.keys_drops_mono hsub
    fun k (hk : k ∈ tried (x :: xs) n) => tried_insert rt (seg :: rest) hk
  have hcount := (hroom.2 (search_child_insert_eq_none rt seg rest hn hs)).2
    (search_child_insert_eq_none rt seg rest (t := .param) hn hp) hc
  exact (StringMap.count_le_of_keys_subset hkeys).trans_lt hcount

end room

/-- **When the search of the larger tree has room**: exactly when it does not overrun, where
the search of the smaller one had. -/
theorem room_insert (rt : Route H M) (pattern : List Bytes) {n : Node H M} (hn : n ≠ null)
    (max : ℕ) (segments : List Bytes) {params params' : StringMap}
    (hsub : params'.keys ⊆ params.keys) (hroom : Room max segments n params) :
    Room max segments (insert rt pattern n) params' ↔ ¬Overruns max pattern segments n params' := by
  induction pattern generalizing n segments params params' with
  | nil =>
      rw [insert, room_setRoute]
      exact iff_of_true (room_mono segments hsub hroom) (by simp [Overruns])
  | cons seg rest ih =>
      cases segments with
      | nil => exact iff_of_true trivial (by simp [Overruns])
      | cons x xs =>
          have hself := fun t => alone_child_insert_self rt hn seg rest (t := t)
          have hother := fun t => alone_child_insert_ne rt hn seg rest (t := t)
          have hroom' := room_mono (x :: xs) hsub hroom
          have hwild := room_wildcard_insert rt hn seg rest x xs hsub hroom
          cases hk : segmentKind seg with
          | static =>
              have ht := segOf_static hk
              have hlater := room_param_insert rt hn seg rest x xs hsub hroom (by simp [ht])
              have hwil : (insert rt (seg :: rest) n).wildcardChild.alone = n.wildcardChild.alone :=
                hother .wildcard (by simp [ht])
              have hrest : Room max (x :: xs) (insert rt (seg :: rest) n) params' ↔
                  Room max xs ((insert rt (seg :: rest) n).child (.static x)) params' :=
                ⟨fun h => h.1, fun h => ⟨h, fun hs => ⟨hlater hs, fun hp hc =>
                  hwild hs hp fun hnull => hc ((null_congr hwil).mpr hnull)⟩⟩⟩
              rw [hrest]
              simp only [Overruns, hk]
              by_cases hx : seg = x
              · subst hx
                have hchild : Room max xs (n.childOr seg) params := by
                  rw [room_childOr, ht]
                  exact hroom.1
                rw [room_congr (hself _ ht), ih (childOr_ne_null n seg) xs hsub hchild]
                simp
              · rw [room_congr (hother (.static x) (by simpa [ht] using hx))]
                exact iff_of_true hroom'.1 fun h => hx h.1
          | param =>
              have ht := segOf_param hk
              have hsta := hother (.static x) (by simp [ht])
              have hpar : (insert rt (seg :: rest) n).paramChild.alone = _ := hself .param ht
              have hwil : (insert rt (seg :: rest) n).wildcardChild.alone = n.wildcardChild.alone :=
                hother .wildcard (by simp [ht])
              obtain ⟨hnew, -, hname, -⟩ := insert_head rt rest (childOr_ne_null n seg)
              have hname : (insert rt (seg :: rest) n).paramChild.name = (n.childOr seg).name := by
                rw [name_congr hpar, name, hname]
                rfl
              have hne : (insert rt (seg :: rest) n).paramChild ≠ null :=
                fun hnull => hnew ((null_congr hpar).mp hnull)
              have hbelow := StringMap.keys_drops_mono hsub
                fun k (hk : k ∈ tried xs (n.child (.static x))) => hk
              -- the search below the parameter node, before the registration
              have hchild : search (n.child (.static x)) xs = none → Room max xs (n.childOr seg)
                  (Finmap.insert (n.childOr seg).name x
                    (Edit.run ((tried xs (n.child (.static x))).map .drop) params)) := by
                intro hs
                unfold childOr
                rw [ht]
                split
                · exact room_leaf ..
                · case isFalse hc =>
                    exact ((hroom.2 hs).1 fun hnull => hc (isNull_iff.mpr hnull)).2
              have hbranch := fun hs => ih (childOr_ne_null n seg) xs
                (StringMap.keys_insert_mono hbelow (n.childOr seg).name x) (hchild hs)
              simp only [Overruns, hk]
              rw [Room, search_congr hsta, tried_congr hsta, room_congr hsta, hname,
                room_congr hpar]
              constructor
              · rintro ⟨-, hlater⟩ ⟨hs, hbad⟩
                obtain ⟨hcount, hparam⟩ := (hlater hs).1 hne
                rcases hbad with ⟨-, hfull⟩ | hover
                · omega
                · exact (hbranch hs).mp hparam hover
              · intro hno
                refine ⟨hroom'.1, fun hs => ⟨fun _ => ⟨?_, ?_⟩, fun hp hc => ?_⟩⟩
                · by_cases hc : n.paramChild = null
                  · by_contra hfull
                    exact hno ⟨hs, .inl ⟨hc, Nat.not_lt.mp hfull⟩⟩
                  · exact ((hroom'.2 hs).1 hc).1
                · exact (hbranch hs).mpr fun hover => hno ⟨hs, .inr hover⟩
                · rw [← search_congr hsta] at hs
                  exact hwild hs hp fun hnull => hc ((null_congr hwil).mpr hnull)
          | wildcard =>
              have ht := segOf_wildcard hk
              have hsta := hother (.static x) (by simp [ht])
              have hpar : (insert rt (seg :: rest) n).paramChild.alone = n.paramChild.alone :=
                hother .param (by simp [ht])
              have hwil : (insert rt (seg :: rest) n).wildcardChild.alone = _ := hself .wildcard ht
              have hne : (insert rt (seg :: rest) n).wildcardChild ≠ null :=
                fun hnull => (insert_head rt rest (childOr_ne_null n seg)).1
                  ((null_congr hwil).mp hnull)
              have htried : tried (x :: xs) (insert rt (seg :: rest) n) = tried (x :: xs) n := by
                rw [tried, tried, tried_congr hsta, tried_congr hpar, isNull_congr hpar,
                  name_congr hpar]
              simp only [Overruns, hk]
              rw [Room, search_congr hsta, search_congr hpar, tried_congr hsta, room_congr hsta,
                room_congr hpar, name_congr hpar, htried, Ne, null_congr hpar]
              constructor
              · rintro ⟨-, hlater⟩ ⟨-, hs, hp, hfull⟩
                have := (hlater hs).2 hp hne
                omega
              · intro hno
                refine ⟨hroom'.1, fun hs => ⟨(hroom'.2 hs).1, fun hp _ => ?_⟩⟩
                by_cases hc : n.wildcardChild = null
                · by_contra hfull
                  exact hno ⟨hc, hs, hp, Nat.not_lt.mp hfull⟩
                · exact (hroom'.2 hs).2 hp hc

/-! ### The names left bound where the search stops as before -/

theorem approach_congr {a b : Node H M} (h : a.alone = b.alone) (path : Bytes)
    (p : List (Seg Bytes)) (segments : List (Bytes × ℕ)) :
    approach path p segments a = approach path p segments b := by
  have hchild : ∀ t, a.child t = b.child t := by
    intro t
    rw [← child_alone, h, child_alone]
  have hpar : a.paramChild = b.paramChild := hchild .param
  have hwil : a.wildcardChild = b.wildcardChild := hchild .wildcard
  cases p with
  | nil => rfl
  | cons t p =>
      cases segments with
      | nil => cases t <;> rfl
      | cons s segments =>
          cases t with
          | static c => rw [approach, approach, hchild]
          | param => rw [approach, approach, hchild, hpar]
          | wildcard => rw [approach, approach, hwil, tried_congr h]

@[simp] theorem halts_null (p : List (Seg Bytes)) : halts p (null : Node H M) = false := by
  induction p with
  | nil => rfl
  | cons t p ih =>
      cases t with
      | static a => rw [halts, child_null, ih]
      | param => exact ih
      | wildcard => rfl

theorem keys_approach_insert (rt : Route H M) (path : Bytes) (p : List (Seg Bytes))
    (pattern : List Bytes) {n : Node H M} (segments : List (Bytes × ℕ))
    {params params' : StringMap} (hhalts : halts p n = true) (hsub : params'.keys ⊆ params.keys) :
    (Edit.run (approach path p segments (insert rt pattern n)) params').keys ⊆
      (Edit.run (approach path p segments n) params).keys := by
  induction p generalizing pattern n segments params params' with
  | nil => exact hsub
  | cons t p ih =>
      have hn : n ≠ null := by
        rintro rfl
        simp at hhalts
      cases pattern with
      | nil =>
          have hsame : approach path (t :: p) segments (insert rt [] n) =
              approach path (t :: p) segments n := by
            cases n with
            | null => exact absurd rfl hn
            | mk => cases t <;> cases segments <;> rfl
          rw [hsame]
          exact StringMap.keys_run_mono _ hsub
      | cons seg rest =>
          -- below a child that was there
          have hbelow : ∀ t (more : List (Bytes × ℕ)) (params params' : StringMap),
              halts p (n.child t) = true → params'.keys ⊆ params.keys →
              (Edit.run (approach path p more ((insert rt (seg :: rest) n).child t)) params').keys ⊆
                (Edit.run (approach path p more (n.child t)) params).keys := by
            intro t more params params' hh hsub
            by_cases hseg : segOf seg = t
            · have hc : n.child t ≠ null := by
                intro hnull
                rw [hnull] at hh
                simp at hh
              have hor : n.childOr seg = n.child t := by
                rw [childOr, hseg, if_neg (by simpa [isNull_iff] using hc)]
              rw [approach_congr (alone_child_insert_self rt hn seg rest hseg), hor]
              exact ih rest more hh hsub
            · rw [approach_congr (alone_child_insert_ne rt hn seg rest hseg)]
              exact StringMap.keys_run_mono _ hsub
          cases segments with
          | nil => cases t <;> exact hsub
          | cons s more =>
              obtain ⟨x, offset⟩ := s
              cases t with
              | static a =>
                  rw [approach, approach]
                  exact hbelow (.static a) more params params' hhalts hsub
              | param =>
                  have hc : n.paramChild ≠ null := by
                    intro hnull
                    rw [halts, hnull] at hhalts
                    simp at hhalts
                  have hname : (insert rt (seg :: rest) n).paramChild.name = n.paramChild.name :=
                    (insert_child_old rt seg rest (t := .param) hc).2
                  have hdrops := StringMap.keys_drops_mono hsub
                    fun k (hk : k ∈ tried (more.map Prod.fst) (n.child (.static x))) =>
                      tried_child_insert rt seg rest hk
                  rw [approach, approach, Edit.run_append, Edit.run_append, Edit.run_cons,
                    Edit.run_cons, Edit.apply_bind, Edit.apply_bind, hname]
                  exact hbelow .param more _ _ hhalts (StringMap.keys_insert_mono hdrops _ _)
              | wildcard =>
                  have hc : n.wildcardChild ≠ null := by
                    intro hnull
                    simp [halts, hnull, isNull] at hhalts
                  have hname : (insert rt (seg :: rest) n).wildcardChild.name = n.wildcardChild.name :=
                    (insert_child_old rt seg rest (t := .wildcard) hc).2
                  have hdrops := StringMap.keys_drops_mono hsub
                    fun k (hk : k ∈ tried (x :: more.map Prod.fst) n) =>
                      tried_insert rt (seg :: rest) hk
                  rw [approach, approach, Edit.run_append, Edit.run_append, Edit.run_cons,
                    Edit.run_cons, Edit.apply_bind, Edit.apply_bind, hname, Edit.run_nil,
                    Edit.run_nil]
                  exact StringMap.keys_insert_mono hdrops _ _

end Node

namespace Router

variable {H M : Type}

/-! ### When a lookup returns a route -/

/-- The search of the table of `m` stops at a route. -/
def Reaches (calls : List (Call H M)) (m : Method) (segments : List Bytes) : Prop :=
  ∃ p, ((build calls).trees m).search segments = some p ∧
    (((build calls).trees m).lookup p).isSome

/-- What the search of the table of `m` makes of the parameters. -/
def left (calls : List (Call H M)) (m : Method) (path : Bytes) (params : StringMap) : StringMap :=
  Edit.run (Node.edits path (segmentsFrom 0 (splitScalar path 47)) ((build calls).trees m)) params

theorem reaches_iff {calls : List (Call H M)} {m : Method} {segments : List Bytes} :
    Reaches calls m segments ↔ ∃ r, (((build calls).trees m).search segments).bind
      (fun p => ((build calls).trees m).lookup p) = some r := by
  unfold Reaches
  cases ((build calls).trees m).search segments with
  | none => simp
  | some p => simp [Option.isSome_iff_exists]

/-- The room a search of the table of `m` needs. -/
def Fits (calls : List (Call H M)) (m : Method) (path : Bytes) (max : ℕ) (params : StringMap) :
    Prop :=
  Node.Room max (pathSegments path) ((build calls).trees m) params

theorem matchIn_fits {calls : List (Call H M)} {m : Method} {path : Bytes} {req : Request}
    (h : Fits calls m path req.config.maxParamCount req.params) :
    matchIn (build calls) m path (segmentsFrom 0 (splitScalar path 47)) req =
      .ok ((((build calls).trees m).search (pathSegments path)).bind
          fun p => ((build calls).trees m).lookup p)
        (req.setParams (left calls m path req.params)) := by
  have hok := (matchIn_does calls m path (segmentsFrom 0 (splitScalar path 47)) req).1
  rw [segments_eq] at hok
  exact hok h

theorem matchIn_full {calls : List (Call H M)} {m : Method} {path : Bytes} {req : Request}
    (h : ¬Fits calls m path req.config.maxParamCount req.params) :
    ∃ req', matchIn (build calls) m path (segmentsFrom 0 (splitScalar path 47)) req =
      .error (.err .tooManyParams) req' := by
  have hfull := (matchIn_does calls m path (segmentsFrom 0 (splitScalar path 47)) req).2
  rw [segments_eq] at hfull
  exact hfull h

theorem matchIn_answers_iff {calls : List (Call H M)} {m : Method} {path : Bytes} {req : Request} :
    (∃ r req', matchIn (build calls) m path (segmentsFrom 0 (splitScalar path 47)) req =
        .ok (some r) req') ↔
      Fits calls m path req.config.maxParamCount req.params ∧
        Reaches calls m (pathSegments path) := by
  by_cases hfits : Fits calls m path req.config.maxParamCount req.params
  · rw [matchIn_fits hfits, reaches_iff]
    constructor
    · rintro ⟨r, req', h⟩
      injection h with hr
      exact ⟨hfits, r, hr⟩
    · rintro ⟨-, r, hr⟩
      exact ⟨r, _, by rw [hr]⟩
  · obtain ⟨req', herr⟩ := matchIn_full hfits
    rw [herr]
    refine iff_of_false ?_ fun h => hfits h.1
    rintro ⟨r, req', h⟩
    cases h

/-- **When a lookup returns a route.** -/
theorem findHandler_answers_iff {calls : List (Call H M)} {req req₁ : Request}
    (hsplit : splitUrl req = .ok (urlPath req) req₁) :
    (∃ r req', findHandler (build calls) req = .ok (some r) req') ↔
      Fits calls req.method (urlPath req) req.config.maxParamCount req.params ∧
        (Reaches calls req.method (pathSegments (urlPath req)) ∨
          req.method = .head ∧
            Fits calls .get (urlPath req) req.config.maxParamCount
              (left calls .head (urlPath req) req.params) ∧
            Reaches calls .get (pathSegments (urlPath req))) := by
  have hreq₁ := (splitUrl_ok hsplit).2
  have hmethod : req₁.method = req.method := by rw [hreq₁]; rfl
  have hparams : req₁.params = req.params := by rw [hreq₁]; rfl
  have hconfig : req₁.config = req.config := by rw [hreq₁]; rfl
  unfold findHandler
  rw [Act.bind_ok hsplit, Act.bind_ok (Act.get_run req₁), hmethod, ← hparams, ← hconfig]
  by_cases hfits : Fits calls req.method (urlPath req) req₁.config.maxParamCount req₁.params
  · have hrun := matchIn_fits hfits
    rw [Act.bind_ok hrun]
    by_cases hreach : Reaches calls req.method (pathSegments (urlPath req))
    · obtain ⟨r, hr⟩ := reaches_iff.mp hreach
      rw [hr]
      exact iff_of_true ⟨r, _, rfl⟩ ⟨hfits, .inl hreach⟩
    · have hnone : (((build calls).trees req.method).search (pathSegments (urlPath req))).bind
          (fun p => ((build calls).trees req.method).lookup p) = none := by
        by_contra hne
        exact hreach (reaches_iff.mpr (Option.ne_none_iff_exists'.mp hne))
      rw [hnone]
      by_cases hhead : req.method = .head
      · rw [hhead] at hfits hreach ⊢
        rw [if_pos rfl, matchIn_answers_iff]
        exact ⟨fun h => ⟨hfits, .inr ⟨rfl, h⟩⟩, fun h => (h.2.resolve_left hreach).2⟩
      · rw [if_neg hhead]
        refine iff_of_false ?_ ?_
        · rintro ⟨r, req', h⟩
          cases h
        · rintro ⟨-, h | h⟩
          · exact hreach h
          · exact hhead h.1
  · obtain ⟨req', herr⟩ := matchIn_full hfits
    rw [Act.bind_run, herr]
    refine iff_of_false ?_ fun h => hfits h.1
    rintro ⟨r, req', h⟩
    cases h

/-! ### One registration more -/

theorem search_rootFor (self : Router H M) (m : Method) (xs : List Bytes) :
    (self.rootFor m).search xs = (self.trees m).search xs := by
  unfold rootFor
  split
  · case isTrue h => rw [Node.isNull_iff.mp h, Node.search_leaf, Node.search_null]
  · rfl

theorem room_rootFor (self : Router H M) (m : Method) (max : ℕ) (xs : List Bytes)
    (params : StringMap) :
    Node.Room max xs (self.rootFor m) params ↔ Node.Room max xs (self.trees m) params := by
  unfold rootFor
  split
  · case isTrue h =>
      rw [Node.isNull_iff.mp h]
      exact iff_of_true (Node.room_leaf ..) (Node.room_null ..)
  · rfl

theorem edits_rootFor (self : Router H M) (m : Method) (path : Bytes)
    (segments : List (Bytes × ℕ)) :
    Node.edits path segments (self.rootFor m) = Node.edits path segments (self.trees m) := by
  unfold rootFor
  split
  · case isTrue h =>
      rw [Node.isNull_iff.mp h, Node.edits, Node.search_leaf, Node.edits, Node.search_null,
        Node.tried_leaf, Node.tried_null]
  · rfl

section concat
variable (calls : List (Call H M)) {c : Call H M} (path : Bytes) {max : ℕ}
  {params params' : StringMap}

theorem trees_concat_self (c : Call H M) : (build (calls ++ [c])).trees c.method =
    ((build calls).rootFor c.method).insert c.route (pathSegments c.path) := by
  rw [build_concat]
  simp only [insertRoute, if_pos]
  rfl

theorem trees_concat_ne {m : Method} (h : m ≠ c.method) :
    (build (calls ++ [c])).trees m = (build calls).trees m := by
  rw [build_concat]
  simp only [insertRoute, if_neg h]

theorem fits_concat_self {m : Method} (hm : c.method = m) (hsub : params'.keys ⊆ params.keys)
    (h : Fits calls m path max params) :
    Fits (calls ++ [c]) m path max params' ↔
      ¬Node.Overruns max (pathSegments c.path) (pathSegments path)
        ((build calls).rootFor c.method) params' := by
  subst hm
  unfold Fits at h ⊢
  rw [trees_concat_self]
  exact Node.room_insert c.route _ (rootFor_ne_null _ _) max _ hsub
    ((room_rootFor ..).mpr h)

theorem reaches_concat_self {m : Method} (hm : c.method = m) :
    (Node.Blocks (pathSegments c.path) (pathSegments path) ((build calls).rootFor c.method) →
        ¬Reaches (calls ++ [c]) m (pathSegments path)) ∧
      (¬Node.Blocks (pathSegments c.path) (pathSegments path) ((build calls).rootFor c.method) →
        Reaches calls m (pathSegments path) →
          Reaches (calls ++ [c]) m (pathSegments path)) := by
  subst hm
  have hne := rootFor_ne_null (build calls) c.method
  obtain ⟨hblock, hfree⟩ :=
    Node.search_insert c.route (pathSegments c.path) hne (pathSegments path)
  unfold Reaches
  rw [trees_concat_self]
  constructor
  · rintro hb ⟨p, hp, hroute⟩
    obtain ⟨q, hq, hnone⟩ := hblock hb
    rw [hq] at hp
    cases hp
    rw [hnone] at hroute
    cases hroute
  · rintro hb ⟨p, hp, hroute⟩
    rw [← search_rootFor] at hp
    rw [← lookup_rootFor] at hroute
    rcases hfree hb with hs | hs
    · refine ⟨p, hs.trans hp, ?_⟩
      rw [Node.lookup_insert _ _ hne]
      split
      · rfl
      · exact hroute
    · refine ⟨_, hs, ?_⟩
      rw [Node.lookup_insert _ _ hne, if_pos rfl]
      rfl

/-- A search that again finds no route leaves at most the same names bound. -/
theorem keys_left_concat_self (params : StringMap) {m : Method} (hm : c.method = m)
    (hb : ¬Node.Blocks (pathSegments c.path) (pathSegments path) ((build calls).rootFor c.method))
    (hreach : ¬Reaches (calls ++ [c]) m (pathSegments path)) :
    (left (calls ++ [c]) m path params).keys ⊆ (left calls m path params).keys := by
  subst hm
  have hne := rootFor_ne_null (build calls) c.method
  unfold left
  rw [trees_concat_self, ← edits_rootFor]
  rcases (Node.search_insert c.route (pathSegments c.path) hne (pathSegments path)).2 hb
    with hs | hs
  · unfold Node.edits
    rw [segments_eq, hs]
    cases hsearch : ((build calls).rootFor c.method).search (pathSegments path) with
    | some p =>
        exact Node.keys_approach_insert c.route path p _ _ (Node.search_eq_some hsearch).2.1
          (Finset.Subset.refl _)
    | none =>
        exact StringMap.keys_drops_mono (Finset.Subset.refl _) fun _ hk => Node.tried_insert _ _ hk
  · refine absurd ⟨_, by rw [trees_concat_self]; exact hs, ?_⟩ hreach
    rw [trees_concat_self, Node.lookup_insert _ _ hne, if_pos rfl]
    rfl

theorem fits_concat_ne {m : Method} (h : m ≠ c.method) :
    Fits (calls ++ [c]) m path max params ↔ Fits calls m path max params := by
  unfold Fits
  rw [trees_concat_ne _ h]

theorem reaches_concat_ne {m : Method} (h : m ≠ c.method) (segments : List Bytes) :
    Reaches (calls ++ [c]) m segments ↔ Reaches calls m segments := by
  unfold Reaches
  rw [trees_concat_ne _ h]

theorem left_concat_ne {m : Method} (h : m ≠ c.method) :
    left (calls ++ [c]) m path params = left calls m path params := by
  unfold left
  rw [trees_concat_ne _ h]

end concat

/-- The registration of `c` does no harm to the request: in the table it goes to, the search
does not overrun, and does not stop at a wildcard node of `c` without a route.  The last may
happen to a `HEAD` request in its own table when that of `GET` then answers. -/
def Harmless (calls : List (Call H M)) (c : Call H M) (req : Request) : Prop :=
  (c.method = req.method →
    ¬Node.Overruns req.config.maxParamCount (pathSegments c.path) (pathSegments (urlPath req))
        ((build calls).rootFor c.method) req.params ∧
      (Node.Blocks (pathSegments c.path) (pathSegments (urlPath req))
          ((build calls).rootFor c.method) →
        req.method = .head ∧
          Fits calls .get (urlPath req) req.config.maxParamCount
            (left (calls ++ [c]) .head (urlPath req) req.params) ∧
          Reaches calls .get (pathSegments (urlPath req)))) ∧
  (req.method = .head → c.method = .get → ¬Reaches calls .head (pathSegments (urlPath req)) →
    ¬Node.Overruns req.config.maxParamCount (pathSegments c.path) (pathSegments (urlPath req))
        ((build calls).rootFor c.method) (left calls .head (urlPath req) req.params) ∧
      ¬Node.Blocks (pathSegments c.path) (pathSegments (urlPath req))
          ((build calls).rootFor c.method))

/-- **When registration is monotone.**  A request that gets a route gets one also after one
more registration, exactly when that does it no harm. -/
theorem findHandler_monotone_iff {calls : List (Call H M)} {c : Call H M} {req req' : Request}
    {r : Route H M} (h : findHandler (build calls) req = .ok (some r) req') :
    (∃ r' req'', findHandler (build (calls ++ [c])) req = .ok (some r') req'') ↔
      Harmless calls c req := by
  obtain ⟨req₁, hsplit, -⟩ := findHandler_ok h
  rw [findHandler_answers_iff hsplit]
  obtain ⟨hfits, hanswer⟩ := (findHandler_answers_iff hsplit).mp ⟨r, req', h⟩
  unfold Harmless
  by_cases hm : c.method = req.method
  · -- the table of the request's own method grows
    have hget : req.method = .head → Method.get ≠ c.method := by
      intro hhead hget
      rw [← hget, hhead] at hm
      cases hm
    obtain ⟨hblocked, hfree⟩ := reaches_concat_self calls (urlPath req) hm
    rw [fits_concat_self _ _ hm (Finset.Subset.refl _) hfits]
    constructor
    · rintro ⟨hover, hanswer'⟩
      refine ⟨fun _ => ⟨hover, fun hb => ?_⟩, fun hhead hcget => absurd hcget.symm (hget hhead)⟩
      obtain ⟨hhead, hfits', hreach'⟩ := hanswer'.resolve_left (hblocked hb)
      exact ⟨hhead, (fits_concat_ne _ _ (hget hhead)).mp hfits',
        (reaches_concat_ne _ (hget hhead) _).mp hreach'⟩
    · rintro ⟨hself, -⟩
      obtain ⟨hover, hb⟩ := hself hm
      refine ⟨hover, ?_⟩
      by_cases hblock : Node.Blocks (pathSegments c.path) (pathSegments (urlPath req))
          ((build calls).rootFor c.method)
      · obtain ⟨hhead, hfits', hreach'⟩ := hb hblock
        exact .inr ⟨hhead, (fits_concat_ne _ _ (hget hhead)).mpr hfits',
          (reaches_concat_ne _ (hget hhead) _).mpr hreach'⟩
      · by_cases hreach : Reaches (calls ++ [c]) req.method (pathSegments (urlPath req))
        · exact .inl hreach
        · obtain ⟨hhead, hfits', hreach'⟩ :=
            hanswer.resolve_left fun hold => hreach (hfree hblock hold)
          have hkeys := keys_left_concat_self calls (urlPath req) req.params
            (hm.trans hhead) hblock (by rw [← hhead]; exact hreach)
          exact .inr ⟨hhead, (fits_concat_ne _ _ (hget hhead)).mpr (Node.room_mono _ hkeys hfits'),
            (reaches_concat_ne _ (hget hhead) _).mpr hreach'⟩
  · have hne : req.method ≠ c.method := fun h => hm h.symm
    rw [fits_concat_ne _ _ hne, reaches_concat_ne _ hne]
    by_cases hgets : req.method = .head ∧ c.method = .get
    · -- the table asked second grows
      obtain ⟨hhead, hcget⟩ := hgets
      have hhead' : Method.head ≠ c.method := by rw [hcget]; decide
      obtain ⟨hblocked, hfree⟩ := reaches_concat_self calls (urlPath req) hcget
      rw [left_concat_ne _ _ hhead']
      constructor
      · rintro ⟨-, hanswer'⟩
        refine ⟨fun heq => absurd heq hm, fun _ _ hno => ?_⟩
        rw [hhead] at hanswer hanswer'
        obtain ⟨-, hfits', hreach'⟩ := hanswer'.resolve_left hno
        obtain ⟨-, hfits'', -⟩ := hanswer.resolve_left hno
        exact ⟨(fits_concat_self _ _ hcget (Finset.Subset.refl _) hfits'').mp hfits',
          fun hb => hblocked hb hreach'⟩
      · rintro ⟨-, hsecond⟩
        refine ⟨hfits, ?_⟩
        by_cases hreach : Reaches calls req.method (pathSegments (urlPath req))
        · exact .inl hreach
        · obtain ⟨-, hfits'', hreach''⟩ := hanswer.resolve_left hreach
          obtain ⟨hover, hb⟩ := hsecond hhead hcget (by rw [← hhead]; exact hreach)
          exact .inr ⟨hhead, (fits_concat_self _ _ hcget (Finset.Subset.refl _) hfits'').mpr hover,
            hfree hb hreach''⟩
    · refine iff_of_true ⟨hfits, hanswer.imp_right fun ⟨hhead, hfits'', hreach⟩ => ?_⟩
        ⟨fun heq => absurd heq hm, fun hhead hcget => absurd ⟨hhead, hcget⟩ hgets⟩
      have hcget : Method.get ≠ c.method := fun heq => hgets ⟨hhead, heq.symm⟩
      have hchead : Method.head ≠ c.method := fun heq => hne (hhead.trans heq)
      rw [fits_concat_ne _ _ hcget, left_concat_ne _ _ hchead, reaches_concat_ne _ hcget]
      exact ⟨hhead, hfits'', hreach⟩

/-- A table with one wildcard pattern. -/
def catchAll : List (Call ℕ ℕ) := [⟨ascii "/*all", .get, 1, []⟩]

/-- A pattern with more behind its `*`. -/
def starInMiddle : Call ℕ ℕ := ⟨ascii "/a/*rest/x", .get, 2, []⟩

def catchAllRequest : Request := { method := .get, url := ⟨0, ascii "/a/b"⟩ }

/-- After the second registration the request that had a route gets none. -/
theorem findHandler_not_monotone :
    (∃ r req', findHandler (build catchAll) catchAllRequest = .ok (some r) req') ∧
      ∃ req', findHandler (build (catchAll ++ [starInMiddle])) catchAllRequest = .ok none req' := by
  have hbefore : Act.gives (some ⟨1, []⟩) (findHandler (build catchAll)) catchAllRequest = true := by
    decide_cbv
  have hafter : Act.gives none (findHandler (build (catchAll ++ [starInMiddle])))
      catchAllRequest = true := by decide_cbv
  exact ⟨⟨_, Act.gives_iff.mp hbefore⟩, Act.gives_iff.mp hafter⟩

/-- A pattern whose `*` comes last does no harm to the same request. -/
theorem findHandler_monotone_iff_sample :
    ∃ r req', findHandler (build (catchAll ++ [⟨ascii "/a/*rest", .get, 2, []⟩]))
      catchAllRequest = .ok (some r) req' := by
  have hbefore : Act.gives (some ⟨1, []⟩) (findHandler (build catchAll)) catchAllRequest = true := by
    decide_cbv
  obtain ⟨req', hrun⟩ := Act.gives_iff.mp hbefore
  have hpattern : pathSegments (ascii "/a/*rest") = [ascii "a", ascii "*rest"] := by decide
  have hpath : pathSegments (urlPath catchAllRequest) = [ascii "a", ascii "b"] := by decide
  apply (findHandler_monotone_iff hrun).mpr
  rw [Harmless, hpattern, hpath]
  refine ⟨fun _ => ⟨?_, ?_⟩, fun hhead => by cases hhead⟩
  · rintro ⟨-, -, -, -, hfull⟩
    exact absurd hfull (by decide_cbv)
  · rintro ⟨-, hrest, -⟩
    exact absurd rfl hrest

end Router
end Dusty
