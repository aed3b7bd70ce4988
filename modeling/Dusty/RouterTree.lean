import Dusty.Router

/-! # What the routing tree stores

`lookup p n` is the route stored in the tree `n` at the pattern `p`.  Insertion is an update
of this table at one pattern (`lookup_insert`), and it keeps the facts the search relies on
(`WF`): the static siblings have different segments, every parameter and wildcard node has a
name, and a wildcard node has a route.  `dynDepth` bounds how many parameters a path down the
tree can bind. -/

namespace Dusty

open Seg

/-- The pattern element of a segment: the name of a parameter does not count. -/
def segOf (segment : Bytes) : Seg Bytes :=
  match segmentKind segment with
  | .static => .static segment
  | .param => .param
  | .wildcard => .wildcard

/-- The pattern of a list of segments. -/
def shape (segments : List Bytes) : List (Seg Bytes) := segments.map segOf

/-- A segment starting with `*` occurs only as the last one. -/
def WildcardLast : List Bytes → Prop
  | [] => True
  | segment :: rest => (segmentKind segment = .wildcard → rest = []) ∧ WildcardLast rest

instance decidableWildcardLast : DecidablePred WildcardLast
  | [] => isTrue trivial
  | segment :: rest => @instDecidableAnd _ _
      (inferInstanceAs (Decidable (segmentKind segment = .wildcard → rest = [])))
      (decidableWildcardLast rest)

/-- How many segments bind a parameter. -/
def dynCount (segments : List Bytes) : ℕ := segments.countP fun s => segmentKind s ≠ .static

namespace Node

variable {H M : Type}

/-- The child for a pattern element. -/
def child (n : Node H M) : Seg Bytes → Node H M
  | .static a => findSibling a n.staticChildren
  | .param => n.paramChild
  | .wildcard => n.wildcardChild

/-- The route stored at a pattern. -/
def lookup : List (Seg Bytes) → Node H M → Option (Route H M)
  | [], n => n.route
  | s :: p, n => lookup p (n.child s)

/-- What the search relies on. -/
def WF : Node H M → Prop
  | null => True
  | mk s _ _ st pa wi nx _ =>
      (WF st ∧ WF pa ∧ WF wi ∧ WF nx) ∧ findSibling s nx = null ∧
        (pa ≠ null → pa.paramName.isSome) ∧ (wi ≠ null → wi.paramName.isSome ∧ wi.route.isSome)

/-- The largest number of parameters bound on a path down from the node or a sibling. -/
def dynDepth : Node H M → ℕ
  | null => 0
  | mk _ _ _ st pa wi nx _ =>
      max (max st.dynDepth nx.dynDepth)
        (max (if pa.isNull then 0 else pa.dynDepth + 1) (if wi.isNull then 0 else wi.dynDepth + 1))

/-! ### Small facts -/

theorem isNull_iff {n : Node H M} : n.isNull = true ↔ n = null := by
  cases n <;> simp [isNull]

theorem isNull_false_iff {n : Node H M} : n.isNull = false ↔ n ≠ null := by
  cases n <;> simp [isNull]

@[simp] theorem child_null (s : Seg Bytes) : (null : Node H M).child s = null := by
  cases s <;> rfl

@[simp] theorem lookup_null (p : List (Seg Bytes)) : lookup p (null : Node H M) = none := by
  induction p with
  | nil => rfl
  | cons s p ih => simpa [lookup] using ih

@[simp] theorem lookup_leaf (s : Bytes) (k : NodeKind) (name : Option Bytes)
    (p : List (Seg Bytes)) : lookup p (leaf s k name : Node H M) = none := by
  cases p with
  | nil => rfl
  | cons t p => cases t <;> simp [lookup, child, leaf, staticChildren, paramChild, wildcardChild,
      findSibling]

theorem findChild_eq_child (n : Node H M) (segment : Bytes) :
    findChild n segment (segmentKind segment) = n.child (segOf segment) := by
  unfold segOf
  cases segmentKind segment <;> rfl

@[simp] theorem lookup_setNextSibling (nx c : Node H M) (p : List (Seg Bytes)) :
    lookup p (c.setNextSibling nx) = lookup p c := by
  cases c with
  | null => rfl
  | mk => cases p with
    | nil => rfl
    | cons s p => cases s <;> rfl

theorem findSibling_segment {segment : Bytes} {n : Node H M} (h : findSibling segment n ≠ null) :
    (findSibling segment n).segment = segment := by
  induction n with
  | null => exact absurd rfl h
  | mk s k name st pa wi nx rt _ _ _ ih =>
      simp only [findSibling] at h ⊢
      split at h
      · case isTrue hs => rw [if_pos hs]; exact hs
      · case isFalse hs => rw [if_neg hs]; exact ih h

/-- A node without its siblings; the search does not look at them. -/
def alone (n : Node H M) : Node H M := n.setNextSibling null

@[simp] theorem alone_null : (null : Node H M).alone = null := rfl

@[simp] theorem alone_mk (s : Bytes) (k : NodeKind) (name : Option Bytes) (st pa wi nx : Node H M)
    (rt : Option (Route H M)) : (mk s k name st pa wi nx rt).alone = mk s k name st pa wi null rt :=
  rfl

@[simp] theorem alone_setNextSibling (nx c : Node H M) : (c.setNextSibling nx).alone = c.alone := by
  cases c <;> rfl

theorem lookup_alone (p : List (Seg Bytes)) (n : Node H M) : lookup p n.alone = lookup p n :=
  lookup_setNextSibling null n p

/-- A sibling after one of them was replaced by a node of its segment. -/
theorem alone_replaceSibling {segment : Bytes} {c : Node H M} (hc : c ≠ null)
    (hseg : c.segment = segment) (target : Bytes) :
    ∀ n : Node H M, findSibling segment n ≠ null →
      (findSibling target (replaceSibling segment c n)).alone =
        if target = segment then c.alone else (findSibling target n).alone
  | null, h => absurd rfl h
  | mk s k name st pa wi nx rt, h => by
      simp only [findSibling, replaceSibling] at h ⊢
      by_cases hs : s = segment
      · rw [if_pos hs]
        cases c with
        | null => exact absurd rfl hc
        | mk cs ck cname cst cpa cwi cnx crt =>
            obtain rfl : cs = segment := hseg
            subst hs
            by_cases ht : target = s
            · subst ht
              simp [setNextSibling, findSibling]
            · simp [setNextSibling, findSibling, ht, Ne.symm ht]
      · rw [if_neg hs] at h ⊢
        have ih := alone_replaceSibling hc hseg target nx h
        simp only [findSibling]
        by_cases ht : s = target
        · subst ht
          simp [hs]
        · simpa [ht] using ih

/-- The children of a node after the child for one segment was stored. -/
theorem alone_child_update {n c : Node H M} {segment : Bytes} (hn : n ≠ null) (hc : c ≠ null)
    (hseg : segmentKind segment = .static → c.segment = segment)
    (hfound : n.child (segOf segment) ≠ null) (t : Seg Bytes) :
    ((updateChild n segment c (segmentKind segment)).child t).alone =
      if t = segOf segment then c.alone else (n.child t).alone := by
  cases n with
  | null => exact absurd rfl hn
  | mk s k name st pa wi nx rt =>
      unfold segOf at hfound ⊢
      cases hk : segmentKind segment with
      | static =>
          rw [hk] at hfound
          cases t with
          | static a =>
              simpa [updateChild, setStaticChildren, child, staticChildren] using
                alone_replaceSibling hc (hseg hk) a st hfound
          | param => simp [updateChild, setStaticChildren, child, paramChild]
          | wildcard => simp [updateChild, setStaticChildren, child, wildcardChild]
      | param =>
          cases t <;> simp [updateChild, setParamChild, child, staticChildren, paramChild,
            wildcardChild]
      | wildcard =>
          cases t <;> simp [updateChild, setWildcardChild, child, staticChildren, paramChild,
            wildcardChild]

theorem alone_child_attach {n c : Node H M} {segment : Bytes} (hn : n ≠ null) (hc : c ≠ null)
    (hseg : segmentKind segment = .static → c.segment = segment) (t : Seg Bytes) :
    ((attachChild n c (segmentKind segment)).child t).alone =
      if t = segOf segment then c.alone else (n.child t).alone := by
  cases n with
  | null => exact absurd rfl hn
  | mk s k name st pa wi nx rt =>
      unfold segOf
      cases hk : segmentKind segment with
      | static =>
          cases c with
          | null => exact absurd rfl hc
          | mk cs ck cname cst cpa cwi cnx crt =>
              obtain rfl : cs = segment := hseg hk
              cases t with
              | static a =>
                  by_cases ha : cs = a
                  · subst ha
                    simp [attachChild, setStaticChildren, setNextSibling, child, staticChildren,
                      findSibling]
                  · simp [attachChild, setStaticChildren, setNextSibling, child, staticChildren,
                      findSibling, ha, Ne.symm ha]
              | param => simp [attachChild, setStaticChildren, child, paramChild]
              | wildcard => simp [attachChild, setStaticChildren, child, wildcardChild]
      | param =>
          cases t <;> simp [attachChild, setParamChild, child, staticChildren, paramChild,
            wildcardChild]
      | wildcard =>
          cases t <;> simp [attachChild, setWildcardChild, child, staticChildren, paramChild,
            wildcardChild]

/-! ### Insertion -/

section insert
variable (rt : Route H M)

theorem insert_head : ∀ (segments : List Bytes) {n : Node H M}, n ≠ null →
    insert rt segments n ≠ null ∧ (insert rt segments n).segment = n.segment ∧
      (insert rt segments n).paramName = n.paramName ∧
      (insert rt segments n).nextSibling = n.nextSibling
  | _, null, h => absurd rfl h
  | [], mk .., _ => by simp [insert, setRoute, segment, paramName, nextSibling]
  | seg :: rest, mk .., _ => by
      simp only [insert]
      split
      · cases segmentKind seg <;> simp [attachChild, setStaticChildren, setParamChild,
          setWildcardChild, segment, paramName, nextSibling]
      · cases segmentKind seg <;> simp [updateChild, setStaticChildren, setParamChild,
          setWildcardChild, segment, paramName, nextSibling]

theorem insert_route {seg : Bytes} (rest : List Bytes) (n : Node H M) :
    (insert rt (seg :: rest) n).route = n.route := by
  cases n with
  | null => simp only [insert]; split <;> cases segmentKind seg <;> rfl
  | mk => simp only [insert]; split <;> cases segmentKind seg <;> rfl

theorem leaf_ne_null (s : Bytes) (k : NodeKind) (name : Option Bytes) :
    (leaf s k name : Node H M) ≠ null := by simp [leaf]

/-- The child the insertion of a segment goes on from: the one there is, or a new one. -/
def childOr (n : Node H M) (seg : Bytes) : Node H M :=
  if (n.child (segOf seg)).isNull then leaf seg (segmentKind seg) (segmentParamName seg)
  else n.child (segOf seg)

theorem childOr_ne_null (n : Node H M) (seg : Bytes) : n.childOr seg ≠ null := by
  unfold childOr
  split
  · exact leaf_ne_null _ _ _
  · case isFalse h => exact isNull_false_iff.mp (by simpa using h)

theorem lookup_childOr (n : Node H M) (seg : Bytes) (p : List (Seg Bytes)) :
    lookup p (n.childOr seg) = lookup p (n.child (segOf seg)) := by
  unfold childOr
  split
  · case isTrue h => rw [isNull_iff.mp h, lookup_null, lookup_leaf]
  · rfl

/-- **Insertion through a segment changes the child of that segment only.** -/
theorem alone_child_insert {n : Node H M} (hn : n ≠ null) (seg : Bytes) (rest : List Bytes)
    (t : Seg Bytes) :
    ((insert rt (seg :: rest) n).child t).alone =
      if t = segOf seg then (insert rt rest (n.childOr seg)).alone else (n.child t).alone := by
  simp only [insert, findChild_eq_child, childOr]
  by_cases hfound : n.child (segOf seg) = null
  · obtain ⟨hc, hseg, -⟩ := insert_head rt rest
      (leaf_ne_null (H := H) (M := M) seg (segmentKind seg) (segmentParamName seg))
    rw [if_pos (isNull_iff.mpr hfound), if_pos (isNull_iff.mpr hfound)]
    exact alone_child_attach hn hc (fun _ => hseg) t
  · obtain ⟨hc, hseg, -⟩ := insert_head rt rest hfound
    rw [isNull_false_iff.mpr hfound]
    refine alone_child_update hn hc (fun hk => ?_) hfound t
    rw [hseg]
    simp only [segOf, hk, child] at hfound ⊢
    exact findSibling_segment hfound

/-- **Insertion updates the table at one pattern.** -/
theorem lookup_insert : ∀ (segments : List Bytes) {n : Node H M}, n ≠ null →
    ∀ p, lookup p (insert rt segments n) = if p = shape segments then some rt else lookup p n := by
  intro segments
  induction segments with
  | nil =>
      intro n hn p
      cases n with
      | null => exact absurd rfl hn
      | mk => cases p with
        | nil => rfl
        | cons s p => cases s <;> rfl
  | cons seg rest ih =>
      intro n hn p
      cases p with
      | nil =>
          show (insert rt (seg :: rest) n).route = _
          rw [insert_route]
          rfl
      | cons t p =>
          show lookup p ((insert rt (seg :: rest) n).child t) = _
          rw [← lookup_alone, alone_child_insert rt hn]
          by_cases ht : t = segOf seg
          · rw [if_pos ht, lookup_alone, ih (childOr_ne_null n seg) p, lookup_childOr, ← ht]
            subst ht
            by_cases hp : p = shape rest
            · simp [hp, shape]
            · have hp' : segOf seg :: p ≠ shape (seg :: rest) := by simpa [shape] using hp
              simp [hp, hp', lookup]
          · have hp' : t :: p ≠ shape (seg :: rest) := by simp [shape, ht]
            rw [if_neg ht, if_neg hp', lookup_alone]
            rfl

/-! ### Insertion keeps the tree searchable -/

theorem findSibling_replaceSibling {segment target : Bytes} {c : Node H M}
    (hseg : c.segment = segment) :
    ∀ n : Node H M, findSibling target n = null →
      findSibling target (replaceSibling segment c n) = null
  | null, _ => rfl
  | mk s k name st pa wi nx rt, h => by
      simp only [findSibling] at h
      split at h
      · exact absurd h (by simp)
      · case isFalse hs =>
          simp only [replaceSibling]
          split
          · case isTrue hs' =>
              cases c with
              | null => rfl
              | mk cs ck cname cst cpa cwi cnx crt =>
                  obtain rfl : cs = segment := hseg
                  subst hs'
                  simpa [setNextSibling, findSibling, hs] using h
          · simpa [findSibling, hs] using findSibling_replaceSibling hseg nx h

theorem WF.findSibling {segment : Bytes} {n : Node H M} (h : WF n) :
    WF (findSibling segment n) := by
  induction n with
  | null => exact h
  | mk s k name st pa wi nx rt _ _ _ ih =>
      simp only [Node.findSibling]
      split
      · exact h
      · exact ih h.1.2.2.2

theorem WF.setNextSibling {c nx : Node H M} (hc : WF c) (hnx : WF nx)
    (h : Node.findSibling c.segment nx = null) : WF (c.setNextSibling nx) := by
  cases c with
  | null => exact hc
  | mk => exact ⟨⟨hc.1.1, hc.1.2.1, hc.1.2.2.1, hnx⟩, h, hc.2.2⟩

theorem WF.replaceSibling {segment : Bytes} {c : Node H M} (hc : WF c)
    (hseg : c.segment = segment) : ∀ n : Node H M, WF n → WF (replaceSibling segment c n)
  | null, _ => trivial
  | mk s k name st pa wi nx rt, h => by
      obtain ⟨⟨hst, hpa, hwi, hnx⟩, hs, hrest⟩ := h
      simp only [Node.replaceSibling]
      split
      · case isTrue heq =>
          refine hc.setNextSibling hnx ?_
          rw [hseg, ← heq]
          exact hs
      · exact ⟨⟨hst, hpa, hwi, WF.replaceSibling hc hseg nx hnx⟩,
          findSibling_replaceSibling hseg nx hs, hrest⟩

theorem wf_leaf (s : Bytes) (k : NodeKind) (name : Option Bytes) :
    WF (leaf s k name : Node H M) := by
  simp [leaf, WF, findSibling]

theorem WF.child {n : Node H M} (h : WF n) (t : Seg Bytes) : WF (n.child t) := by
  cases n with
  | null => simpa using h
  | mk => cases t with
    | static a => exact h.1.1.findSibling
    | param => exact h.1.2.1
    | wildcard => exact h.1.2.2.1

theorem insert_nil_route {n : Node H M} (hn : n ≠ null) : (insert rt [] n).route = some rt := by
  cases n with
  | null => exact absurd rfl hn
  | mk => rfl

/-- A parameter or wildcard child has a name, also one that was just created. -/
theorem insert_child_paramName {n : Node H M} (h : WF n) (seg : Bytes) (rest : List Bytes)
    (hk : segmentKind seg ≠ .static) (hfound : n.child (segOf seg) ≠ null) :
    (insert rt rest (n.child (segOf seg))).paramName.isSome := by
  rw [(insert_head rt rest hfound).2.2.1]
  cases n with
  | null => exact absurd (child_null _) hfound
  | mk =>
      unfold segOf at hfound ⊢
      cases hseg : segmentKind seg with
      | static => exact absurd hseg hk
      | param => rw [hseg] at hfound; exact h.2.2.1 hfound
      | wildcard => rw [hseg] at hfound; exact (h.2.2.2 hfound).1

/-- **Insertion keeps the tree well formed.** -/
theorem wf_insert : ∀ (segments : List Bytes) {n : Node H M}, WF n → WildcardLast segments →
    WF (insert rt segments n)
  | [], null, _, _ => trivial
  | [], mk .., h, _ => h
  | seg :: rest, null, _, _ => by
      simp only [insert]
      split <;> cases segmentKind seg <;> trivial
  | seg :: rest, mk s k name st pa wi nx rt', h, hlast => by
      obtain ⟨hwild, hrest⟩ := hlast
      have hn : mk s k name st pa wi nx rt' ≠ null := by simp
      have hchild := h.child (segOf seg)
      obtain ⟨⟨hst, hpa, hwi, hnx⟩, hs, hp, hw⟩ := id h
      simp only [insert, findChild_eq_child]
      by_cases hfound : (mk s k name st pa wi nx rt').child (segOf seg) = null
      · rw [if_pos (isNull_iff.mpr hfound)]
        have hleaf := leaf_ne_null (H := H) (M := M) seg (segmentKind seg) (segmentParamName seg)
        have ih := wf_insert rest (wf_leaf (H := H) (M := M) seg (segmentKind seg)
          (segmentParamName seg)) hrest
        obtain ⟨-, hseg, hname, -⟩ := insert_head rt rest hleaf
        cases hk : segmentKind seg with
        | static =>
            rw [hk] at ih hseg
            refine ⟨⟨ih.setNextSibling hst ?_, hpa, hwi, hnx⟩, hs, hp, hw⟩
            rw [hseg]
            simpa [segOf, hk, child, staticChildren, leaf, segment] using hfound
        | param =>
            rw [hk] at ih hname
            refine ⟨⟨hst, ih, hwi, hnx⟩, hs, fun _ => ?_, hw⟩
            rw [hname]
            simp [leaf, paramName, segmentParamName, hk]
        | wildcard =>
            rw [hk] at ih hname hleaf
            refine ⟨⟨hst, hpa, ih, hnx⟩, hs, hp, fun _ => ⟨?_, ?_⟩⟩
            · rw [hname]
              simp [leaf, paramName, segmentParamName, hk]
            · rw [hwild hk, insert_nil_route rt hleaf]
              rfl
      · rw [if_neg (by simpa using isNull_false_iff.mpr hfound)]
        have ih := wf_insert rest hchild hrest
        have hname := insert_child_paramName rt h seg rest
        have hseg := (insert_head rt rest hfound).2.1
        cases hk : segmentKind seg with
        | static =>
            refine ⟨⟨ih.replaceSibling ?_ st hst, hpa, hwi, hnx⟩, hs, hp, hw⟩
            rw [hseg]
            simp only [segOf, hk, child] at hfound ⊢
            exact findSibling_segment hfound
        | param =>
            exact ⟨⟨hst, ih, hwi, hnx⟩, hs, fun _ => hname (by simp [hk]) hfound, hw⟩
        | wildcard =>
            refine ⟨⟨hst, hpa, ih, hnx⟩, hs, hp, fun _ => ⟨hname (by simp [hk]) hfound, ?_⟩⟩
            rw [hwild hk, insert_nil_route rt hfound]
            rfl

/-! ### The depth of the tree -/

theorem dynDepth_setNextSibling (nx c : Node H M) :
    (c.setNextSibling nx).dynDepth ≤ max c.dynDepth nx.dynDepth := by
  cases c with
  | null => exact Nat.zero_le _
  | mk => simp only [setNextSibling, dynDepth]; omega

theorem dynDepth_replaceSibling (segment : Bytes) (c : Node H M) :
    ∀ n : Node H M, (replaceSibling segment c n).dynDepth ≤ max n.dynDepth c.dynDepth
  | null => Nat.zero_le _
  | mk s k name st pa wi nx rt => by
      simp only [replaceSibling]
      split
      · have := dynDepth_setNextSibling nx c
        simp only [dynDepth]
        omega
      · have := dynDepth_replaceSibling segment c nx
        simp only [dynDepth]
        omega

theorem dynDepth_findSibling (segment : Bytes) (n : Node H M) :
    (findSibling segment n).dynDepth ≤ n.dynDepth := by
  induction n with
  | null => exact le_rfl
  | mk s k name st pa wi nx rt _ _ _ ih =>
      simp only [findSibling]
      split
      · exact le_rfl
      · simp only [dynDepth]
        omega

/-- How many parameters a segment binds. -/
def dynOf : NodeKind → ℕ
  | .static => 0
  | _ => 1

theorem dynCount_cons (seg : Bytes) (rest : List Bytes) :
    dynCount (seg :: rest) = dynCount rest + dynOf (segmentKind seg) := by
  unfold dynCount
  rw [List.countP_cons]
  cases segmentKind seg <;> simp [dynOf]

/-- What the slot of a parameter or a wildcard adds to a path. -/
theorem dynDepth_slot (n : Node H M) :
    n.dynDepth + 1 ≤ max (if n.isNull then 0 else n.dynDepth + 1) 1 := by
  cases n with
  | null => exact le_max_right _ _
  | mk => exact le_max_left _ _

theorem dynDepth_child (n : Node H M) (seg : Bytes) :
    (n.child (segOf seg)).dynDepth + dynOf (segmentKind seg) ≤
      max n.dynDepth (dynOf (segmentKind seg)) := by
  cases n with
  | null => simp [dynDepth]
  | mk s k name st pa wi nx rt =>
      unfold segOf
      cases segmentKind seg with
      | static =>
          have := dynDepth_findSibling seg st
          simp only [child, staticChildren, dynDepth, dynOf]
          omega
      | param =>
          have := dynDepth_slot pa
          simp only [child, paramChild, dynDepth, dynOf]
          omega
      | wildcard =>
          have := dynDepth_slot wi
          simp only [child, wildcardChild, dynDepth, dynOf]
          omega

theorem dynDepth_attachChild (n c : Node H M) (k : NodeKind) :
    (attachChild n c k).dynDepth ≤ max n.dynDepth (c.dynDepth + dynOf k) := by
  cases n with
  | null => cases k <;> exact Nat.zero_le _
  | mk s kind name st pa wi nx rt =>
      cases k with
      | static =>
          have := dynDepth_setNextSibling st c
          simp only [attachChild, setStaticChildren, staticChildren, dynDepth, dynOf]
          omega
      | param =>
          have : (if c.isNull then 0 else c.dynDepth + 1) ≤ c.dynDepth + 1 := by split <;> omega
          simp only [attachChild, setParamChild, dynDepth, dynOf]
          omega
      | wildcard =>
          have : (if c.isNull then 0 else c.dynDepth + 1) ≤ c.dynDepth + 1 := by split <;> omega
          simp only [attachChild, setWildcardChild, dynDepth, dynOf]
          omega

theorem dynDepth_updateChild (n c : Node H M) (seg : Bytes) (k : NodeKind) :
    (updateChild n seg c k).dynDepth ≤ max n.dynDepth (c.dynDepth + dynOf k) := by
  cases n with
  | null => cases k <;> exact Nat.zero_le _
  | mk s kind name st pa wi nx rt =>
      cases k with
      | static =>
          have := dynDepth_replaceSibling seg c st
          simp only [updateChild, setStaticChildren, staticChildren, dynDepth, dynOf]
          omega
      | param =>
          have : (if c.isNull then 0 else c.dynDepth + 1) ≤ c.dynDepth + 1 := by split <;> omega
          simp only [updateChild, setParamChild, dynDepth, dynOf]
          omega
      | wildcard =>
          have : (if c.isNull then 0 else c.dynDepth + 1) ≤ c.dynDepth + 1 := by split <;> omega
          simp only [updateChild, setWildcardChild, dynDepth, dynOf]
          omega

/-- **Insertion deepens the tree at most to the depth of the pattern.** -/
theorem dynDepth_insert : ∀ (segments : List Bytes) (n : Node H M),
    (insert rt segments n).dynDepth ≤ max n.dynDepth (dynCount segments)
  | [], null => Nat.zero_le _
  | [], mk .. => by
      simp only [insert, setRoute, dynDepth]
      omega
  | seg :: rest, n => by
      have hchild := dynDepth_child n seg
      simp only [insert, findChild_eq_child, dynCount_cons]
      split
      · have hleaf : (leaf seg (segmentKind seg) (segmentParamName seg) : Node H M).dynDepth = 0 := by
          simp [leaf, dynDepth, isNull]
        have ih := dynDepth_insert rest
          (leaf seg (segmentKind seg) (segmentParamName seg) : Node H M)
        refine (dynDepth_attachChild _ _ _).trans ?_
        omega
      · have ih := dynDepth_insert rest (n.child (segOf seg))
        refine (dynDepth_updateChild _ _ _ _).trans ?_
        omega

end insert

end Node
end Dusty
