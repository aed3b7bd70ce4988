import Dusty.RouterSearch

/-! # Whose names the parameters get

What `findHandler` puts into the parameters against what the pattern of the route it returns
says.  The names are stored in the nodes of the tree, and a node keeps the name of the
registration that created it (`paramName_build`); so a pattern gets the names of the patterns
it shares a prefix with, and a dead end tried on the way drops every name it has in common
with the way (`findHandler_params_iff`). -/

namespace Dusty

open Seg

namespace Node

variable {H M : Type}

/-! ### The names a tree stores -/

/-- The name the pattern element before position `k` gives. -/
def nameBefore (segments : List Bytes) (k : ℕ) : Option Bytes :=
  segments[k - 1]?.bind segmentParamName

theorem nodeAt_setRoute (rt : Route H M) (n : Node H M) {t : Seg Bytes} {p : List (Seg Bytes)} :
    nodeAt (t :: p) (n.setRoute rt) = nodeAt (t :: p) n := by
  cases n with
  | null => rfl
  | mk => cases t <;> rfl

theorem nodeAt_alone_eq_null (n : Node H M) (p : List (Seg Bytes)) :
    nodeAt p n.alone = null ↔ nodeAt p n = null := by
  cases p with
  | nil => exact alone_eq_null n
  | cons t p => simp [nodeAt]

theorem paramName_nodeAt_alone (n : Node H M) (p : List (Seg Bytes)) :
    (nodeAt p n.alone).paramName = (nodeAt p n).paramName := by
  cases p with
  | nil => exact paramName_alone n
  | cons t p => simp [nodeAt]

theorem nodeAt_childOr (n : Node H M) (seg : Bytes) {t : Seg Bytes} {p : List (Seg Bytes)} :
    nodeAt (t :: p) (n.childOr seg) = nodeAt (t :: p) (n.child (segOf seg)) := by
  unfold childOr
  split
  · case isTrue h =>
      rw [isNull_iff.mp h]
      cases t <;> simp [nodeAt, child, leaf, staticChildren, paramChild, wildcardChild, findSibling]
  · rfl

theorem nameBefore_cons (seg : Bytes) (rest : List Bytes) {k : ℕ} (hk : 0 < k) :
    nameBefore (seg :: rest) (k + 1) = nameBefore rest k := by
  unfold nameBefore
  obtain ⟨j, rfl⟩ := Nat.exists_eq_succ_of_ne_zero (Nat.pos_iff_ne_zero.mp hk)
  rfl

/-- **A node gets its name when it is created** and keeps it. -/
theorem nodeAt_insert (rt : Route H M) (segments : List Bytes) {n : Node H M} (hn : n ≠ null)
    (p : List (Seg Bytes)) :
    (nodeAt p (insert rt segments n) = null ↔ nodeAt p n = null ∧ ¬p <+: shape segments) ∧
      (nodeAt p n ≠ null → (nodeAt p (insert rt segments n)).paramName = (nodeAt p n).paramName) ∧
      (nodeAt p n = null → p <+: shape segments →
        (nodeAt p (insert rt segments n)).paramName = nameBefore segments p.length) := by
  induction p generalizing segments n with
  | nil =>
      obtain ⟨hne, -, hname, -⟩ := insert_head rt segments hn
      simp [hne, hn, hname]
  | cons t p ih =>
      cases segments with
      | nil => simp [insert, nodeAt_setRoute, shape]
      | cons seg rest =>
          have hchild := alone_child_insert rt hn seg rest t
          simp only [nodeAt]
          rw [← nodeAt_alone_eq_null, ← paramName_nodeAt_alone, hchild]
          have hshape : shape (seg :: rest) = segOf seg :: shape rest := rfl
          rw [hshape, List.cons_prefix_cons]
          by_cases ht : t = segOf seg
          · subst ht
            rw [if_pos rfl, nodeAt_alone_eq_null, paramName_nodeAt_alone]
            obtain ⟨hnull, hold, hnew⟩ := ih rest (childOr_ne_null n seg)
            cases p with
            | nil =>
                obtain ⟨hne, -, hname, -⟩ := insert_head rt rest (childOr_ne_null n seg)
                refine ⟨by simp [hne], fun hchild => ?_, fun hnone _ => ?_⟩
                · rw [nodeAt_nil] at hchild ⊢
                  rw [hname, nodeAt_nil, childOr, if_neg (by simpa [isNull_iff] using hchild)]
                · rw [nodeAt_nil] at hnone ⊢
                  rw [hname, childOr, if_pos (isNull_iff.mpr hnone)]
                  rfl
            | cons t' p =>
                rw [nodeAt_childOr] at hnull hold hnew
                refine ⟨by simpa using hnull, hold, fun hnone hpre => ?_⟩
                rw [hnew hnone hpre.2]
                exact (nameBefore_cons seg rest (Nat.succ_pos _)).symm
          · rw [if_neg ht, nodeAt_alone_eq_null, paramName_nodeAt_alone]
            simp [ht]

end Node

namespace Call

variable {H M : Type}

/-- The call goes through the node at the pattern. -/
def through (m : Method) (p : List (Seg Bytes)) (c : Call H M) : Bool :=
  decide (c.method = m ∧ p <+: c.pattern)

end Call

namespace Router

variable {H M : Type}

/-- The name the first of the calls that goes through the node at a pattern gives it. -/
def firstName (calls : List (Call H M)) (m : Method) (p : List (Seg Bytes)) : Option Bytes :=
  (calls.find? (Call.through m p)).bind fun c => Node.nameBefore (pathSegments c.path) p.length

theorem nodeAt_rootFor (self : Router H M) (m : Method) {p : List (Seg Bytes)} (hp : p ≠ []) :
    (self.rootFor m).nodeAt p = (self.trees m).nodeAt p := by
  unfold rootFor
  split
  · case isTrue h =>
      rw [Node.isNull_iff.mp h]
      cases p with
      | nil => exact absurd rfl hp
      | cons t p =>
          cases t <;> simp [Node.nodeAt, Node.child, Node.leaf, Node.staticChildren,
            Node.paramChild, Node.wildcardChild, Node.findSibling]
  · rfl

/-- **The name of a node is that of the first registration through it.** -/
theorem paramName_build (calls : List (Call H M)) (m : Method) {p : List (Seg Bytes)}
    (hp : p ≠ []) :
    (((build calls).trees m).nodeAt p = .null ↔ calls.find? (Call.through m p) = none) ∧
      (((build calls).trees m).nodeAt p).paramName = firstName calls m p := by
  induction calls using List.reverseRecOn with
  | nil => simp [init, firstName, Node.paramName]
  | append_singleton calls c ih =>
      obtain ⟨hnull, hname⟩ := ih
      rw [build_concat]
      rw [firstName, List.find?_append]
      simp only [insertRoute]
      by_cases hm : m = c.method
      · subst hm
        rw [if_pos rfl]
        obtain ⟨hnull', hold, hnew⟩ := Node.nodeAt_insert ⟨c.handler, c.middlewares⟩
          (pathSegments c.path) (rootFor_ne_null (build calls) c.method) p
        rw [nodeAt_rootFor _ _ hp] at hnull' hold hnew
        rw [hnull', hnull]
        cases hfind : calls.find? (Call.through c.method p) with
        | some d =>
            have hne : ((build calls).trees c.method).nodeAt p ≠ .null := by
              rw [Ne, hnull, hfind]
              simp
            rw [hold hne, hname, firstName, hfind]
            simp
        | none =>
            have hnone := hnull.mpr hfind
            by_cases hpre : p <+: shape (pathSegments c.path)
            · have hthrough : c.through c.method p = true := by
                simpa [Call.through, Call.pattern] using hpre
              rw [hnew hnone hpre]
              simp [hthrough, hpre]
            · have hthrough : c.through c.method p = false := by
                simpa [Call.through, Call.pattern] using hpre
              rw [hnull'.mpr ⟨hnone, hpre⟩]
              simp [hthrough, hpre, Node.paramName]
      · have hthrough : c.through m p = false := by simp [Call.through, Ne.symm hm]
        rw [if_neg hm, hnull, hname, firstName]
        simp [hthrough]

/-! ### Where the segments stand in the path -/

/-- The path from the first byte of its segment number `k` on. -/
def fromSegment : ℕ → Bytes → Bytes
  | 0, path => path.dropWhile (· = 47)
  | k + 1, path => fromSegment k ((path.dropWhile (· = 47)).dropWhile (· ≠ 47))

theorem fromSegment_slash (k : ℕ) (path : Bytes) :
    fromSegment k (47 :: path) = fromSegment k path := by
  cases k <;> simp [fromSegment]

theorem segmentsFrom_suffix {path rest : Bytes} {offset : ℕ} (hdrop : path.drop offset = rest)
    {k : ℕ} {x : Bytes} {off : ℕ}
    (h : (segmentsFrom offset (splitScalar rest 47))[k]? = some (x, off)) :
    path.drop off = fromSegment k rest := by
  induction hlen : rest.length using Nat.strong_induction_on generalizing rest offset k with
  | _ len ih =>
      subst hlen
      cases rest with
      | nil => simp [segmentsFrom] at h
      | cons b rest =>
          have htail : path.drop (offset + 1) = rest := by
            rw [← List.drop_drop, hdrop]
            rfl
          by_cases hb : b = 47
          · subst hb
            rw [splitScalar_delimiter] at h
            rw [fromSegment_slash]
            exact ih _ (by simp) htail h rfl
          · rw [splitScalar_span, segmentsFrom, if_pos (by simp [hb])] at h
            cases k with
            | zero =>
                obtain ⟨-, rfl⟩ : _ ∧ offset = off := by simpa using h
                rw [hdrop, fromSegment, List.dropWhile_cons_of_neg (by simpa using hb)]
            | succ k =>
                have hsplit := List.takeWhile_append_dropWhile (p := (· ≠ 47)) (l := b :: rest)
                rw [fromSegment, List.dropWhile_cons_of_neg (by simpa using hb)]
                rw [List.getElem?_cons_succ] at h
                generalize (b :: rest).takeWhile (· ≠ 47) = w at h hsplit
                cases hz : (b :: rest).dropWhile (· ≠ 47) with
                | nil =>
                    rw [hz] at h
                    simp [segmentsFrom] at h
                | cons c more =>
                    have hc : c = 47 := by
                      have hhead : ((b :: rest).dropWhile (· ≠ 47)).head? = some c := by rw [hz]; rfl
                      have := List.head?_dropWhile_not (· ≠ (47 : UInt8)) (b :: rest)
                      rw [hhead] at this
                      simpa using this
                    subst hc
                    rw [hz] at h hsplit
                    rw [fromSegment_slash]
                    refine ih more.length ?_ ?_ h rfl
                    · rw [← hsplit]
                      simp
                      omega
                    · rw [Nat.add_assoc, ← List.drop_drop, hdrop, ← hsplit]
                      simp

theorem segmentsFrom_offset {path : Bytes} {k : ℕ} {x : Bytes} {off : ℕ}
    (h : (segmentsFrom 0 (splitScalar path 47))[k]? = some (x, off)) :
    path.drop off = fromSegment k path :=
  segmentsFrom_suffix (List.drop_zero : path.drop 0 = path) h

/-! ### What a pattern says, and what its nodes say -/

/-- What a pattern says of the parameters of a path, from its segment number `k` on. -/
def written (path : Bytes) : ℕ → List Bytes → List Bytes → List (Edit Bytes Bytes)
  | k, seg :: pattern, x :: segments =>
      match segmentKind seg with
      | .static => written path (k + 1) pattern segments
      | .param => .bind (seg.drop 1) x :: written path (k + 1) pattern segments
      | .wildcard =>
          .bind (seg.drop 1) (fromSegment k path) :: written path (k + 1) pattern segments
  | _, _, _ => []

/-- What the nodes of the pattern `p` say, of which those of `q` are behind: each binds the
name of the first registration through it, after the nodes tried in vain dropped theirs. -/
def way (calls : List (Call H M)) (m : Method) (path : Bytes) :
    List (Seg Bytes) → List (Seg Bytes) → List Bytes → List (Edit Bytes Bytes)
  | q, .static a :: p, _ :: xs => way calls m path (q ++ [.static a]) p xs
  | q, .param :: p, x :: xs =>
      (Node.tried xs (((build calls).trees m).nodeAt (q ++ [.static x]))).map .drop ++
        .bind ((firstName calls m (q ++ [.param])).getD []) x ::
          way calls m path (q ++ [.param]) p xs
  | q, .wildcard :: _, x :: xs =>
      (Node.tried (x :: xs) (((build calls).trees m).nodeAt q)).map .drop ++
        [.bind ((firstName calls m (q ++ [.wildcard])).getD []) (fromSegment q.length path)]
  | _, _, _ => []

theorem name_build (calls : List (Call H M)) (m : Method) (q : List (Seg Bytes)) (t : Seg Bytes) :
    ((((build calls).trees m).nodeAt q).child t).name = (firstName calls m (q ++ [t])).getD [] := by
  rw [← (paramName_build calls m (by simp : q ++ [t] ≠ [])).2, Node.nodeAt_append]
  rfl

theorem approach_eq_way (calls : List (Call H M)) (m : Method) {path : Bytes}
    (p : List (Seg Bytes)) {q : List (Seg Bytes)} {segments : List (Bytes × ℕ)}
    (hoff : ∀ k x off, segments[k]? = some (x, off) → path.drop off = fromSegment (q.length + k) path) :
    Node.approach path p segments (((build calls).trees m).nodeAt q) =
      way calls m path q p (segments.map Prod.fst) := by
  induction p generalizing q segments with
  | nil => rfl
  | cons t p ih =>
      cases segments with
      | nil => cases t <;> rfl
      | cons s segments =>
          obtain ⟨x, offset⟩ := s
          have hrest : ∀ t k y off, segments[k]? = some (y, off) →
              path.drop off = fromSegment ((q ++ [t]).length + k) path := by
            intro t k y off hk
            rw [hoff (k + 1) y off hk, List.length_append, List.length_singleton]
            congr 1
            omega
          have hnode : ∀ t, (((build calls).trees m).nodeAt q).child t =
              ((build calls).trees m).nodeAt (q ++ [t]) := by
            intro t
            rw [Node.nodeAt_append]
            rfl
          cases t with
          | static a =>
              rw [Node.approach, hnode, ih (hrest _)]
              rfl
          | param =>
              have hname := name_build calls m q .param
              rw [hnode] at hname
              have hparam : (((build calls).trees m).nodeAt q).paramChild =
                  ((build calls).trees m).nodeAt (q ++ [.param]) := hnode .param
              rw [Node.approach, hnode, hparam, hname, ih (hrest _)]
              rfl
          | wildcard =>
              have hname := name_build calls m q .wildcard
              have hoffset := hoff 0 x offset rfl
              rw [Node.approach]
              show _ ++ [Edit.bind ((((build calls).trees m).nodeAt q).child .wildcard).name _] = _
              rw [hname, hoffset]
              rfl

/-! ### What a lookup leaves in the parameters -/

/-- The parameters the pattern of a call writes for a path. -/
def writtenParams (c : Call H M) (path : Bytes) : StringMap :=
  Edit.run (written path 0 (pathSegments c.path) (pathSegments path)) ∅

/-- The call a table of method `m` answers with: its pattern is the least that matches, and no
later call has the same. -/
def Answers (calls : List (Call H M)) (m : Method) (segments : List Bytes) (c : Call H M) : Prop :=
  ∃ pre post, calls = pre ++ c :: post ∧ c.applies m segments = true ∧
    (∀ d ∈ calls, d.applies m segments = true → ranks c.pattern ≤ ranks d.pattern) ∧
    ∀ d ∈ post, d.method = m → d.pattern ≠ c.pattern

/-- What a search that stops without a route leaves behind of what it bound. -/
def leftover (calls : List (Call H M)) (m : Method) (path : Bytes) : List (Edit Bytes Bytes) :=
  match ((build calls).trees m).search (pathSegments path) with
  | some p => way calls m path [] p (pathSegments path)
  | none => []

/-- The table that answers a request, and what the table asked before it left behind. -/
def Consults (calls : List (Call H M)) (req : Request) (m : Method)
    (before : List (Edit Bytes Bytes)) : Prop :=
  m = req.method ∧ before = [] ∨
    req.method = .head ∧ m = .get ∧ before = leftover calls .head (urlPath req)

theorem segments_eq (path : Bytes) :
    (segmentsFrom 0 (splitScalar path 47)).map Prod.fst = pathSegments path :=
  segmentsFrom_fst 0 _

theorem approach_eq (calls : List (Call H M)) (m : Method) (path : Bytes) (p : List (Seg Bytes)) :
    Node.approach path p (segmentsFrom 0 (splitScalar path 47)) ((build calls).trees m) =
      way calls m path [] p (pathSegments path) := by
  have hoff : ∀ k x off, (segmentsFrom 0 (splitScalar path 47))[k]? = some (x, off) →
      path.drop off = fromSegment (([] : List (Seg Bytes)).length + k) path := by
    intro k x off hk
    rw [List.length_nil, Nat.zero_add]
    exact segmentsFrom_offset hk
  have h := approach_eq_way calls m p hoff
  rw [segments_eq] at h
  exact h

theorem matchIn_ok {calls : List (Call H M)} {m : Method} {path : Bytes} {req req' : Request}
    {res : Option (Route H M)}
    (h : matchIn (build calls) m path (segmentsFrom 0 (splitScalar path 47)) req = .ok res req') :
    res = (((build calls).trees m).search (pathSegments path)).bind
        (fun p => ((build calls).trees m).lookup p) ∧
      req' = req.setParams (Edit.run (Node.edits path (segmentsFrom 0 (splitScalar path 47))
        ((build calls).trees m)) req.params) := by
  obtain ⟨hok, hfull⟩ := matchIn_does calls m path (segmentsFrom 0 (splitScalar path 47)) req
  rw [segments_eq] at hok hfull
  by_cases hroom : Node.Room req.config.maxParamCount (pathSegments path) ((build calls).trees m)
      req.params
  · rw [hok hroom] at h
    cases h
    exact ⟨rfl, rfl⟩
  · obtain ⟨req'', herr⟩ := hfull hroom
    rw [herr] at h
    cases h

/-- A lookup that returned a route: in the table of the method, or for a `HEAD` request in
that of `GET`. -/
theorem findHandler_ok {self : Router H M} {req req' : Request} {res : Option (Route H M)}
    (h : findHandler self req = .ok res req') :
    ∃ req₁, splitUrl req = .ok (urlPath req) req₁ ∧ req₁ = req.setQuery req₁.query ∧
      (matchIn self req.method (urlPath req) (segmentsFrom 0 (splitScalar (urlPath req) 47)) req₁ =
          .ok res req' ∧ (res = none → req.method ≠ .head) ∨
        ∃ req₂, req.method = .head ∧
          matchIn self .head (urlPath req) (segmentsFrom 0 (splitScalar (urlPath req) 47)) req₁ =
            .ok none req₂ ∧
          matchIn self .get (urlPath req) (segmentsFrom 0 (splitScalar (urlPath req) 47)) req₂ =
            .ok res req') := by
  unfold findHandler at h
  obtain ⟨path, req₁, hsplit, h⟩ := Act.bind_eq_ok.mp h
  obtain ⟨rfl, hreq₁⟩ := splitUrl_ok hsplit
  obtain ⟨r, s, hget, h⟩ := Act.bind_eq_ok.mp h
  obtain ⟨rfl, rfl⟩ : req₁ = r ∧ req₁ = s := by simpa using hget
  obtain ⟨res', req₂, hmatch, h⟩ := Act.bind_eq_ok.mp h
  have hmethod : req₁.method = req.method := by rw [hreq₁]; rfl
  rw [hmethod] at hmatch h
  refine ⟨req₁, hsplit, hreq₁, ?_⟩
  cases res' with
  | some route =>
      cases h
      exact .inl ⟨hmatch, nofun⟩
  | none =>
      by_cases hhead : req.method = .head
      · rw [if_pos hhead] at h
        rw [hhead] at hmatch
        exact .inr ⟨req₂, hhead, hmatch, h⟩
      · rw [if_neg hhead] at h
        cases h
        exact .inl ⟨hmatch, fun _ => hhead⟩

/-- The route a search found is that of the call its table answers with. -/
theorem answers_of_search {calls : List (Call H M)} {m : Method} {segments : List Bytes}
    {p : List (Seg Bytes)} {r : Route H M}
    (hsearch : ((build calls).trees m).search segments = some p)
    (hroute : ((build calls).trees m).lookup p = some r) :
    ∃ c, Answers calls m segments c ∧ r = c.route ∧ c.pattern = p := by
  obtain ⟨hmatch, -, hleast⟩ := Node.search_eq_some hsearch
  rw [lookup_build] at hroute
  obtain ⟨pre, c, post, rfl, hr, hm, rfl, hpost⟩ := exists_of_registered hroute
  refine ⟨c, ⟨pre, post, rfl, by simp [Call.applies, hm, hmatch], ?_, hpost⟩, hr, rfl⟩
  intro d hd happ
  obtain ⟨rfl, hmatch'⟩ : d.method = m ∧ Matches d.pattern segments = true := by
    simpa [Call.applies] using happ
  refine hleast d.pattern hmatch' (Node.halts_of_route hmatch' ?_)
  rw [lookup_build]
  exact Option.isSome_iff_ne_none.mpr (registered_ne_none hd)

/-- From no parameters, a search that found nothing leaves what `leftover` says. -/
theorem run_edits_leftover (calls : List (Call H M)) (m : Method) (path : Bytes) :
    Edit.run (Node.edits path (segmentsFrom 0 (splitScalar path 47)) ((build calls).trees m)) ∅ =
      Edit.run (leftover calls m path) ∅ := by
  unfold Node.edits leftover
  rw [segments_eq]
  cases ((build calls).trees m).search (pathSegments path) with
  | some p =>
      show Edit.run (Node.approach ..) ∅ = _
      rw [approach_eq]
  | none =>
      show Edit.run (List.map Edit.drop _) ∅ = ∅
      exact (Edit.run_drops_eq_self_iff ..).mpr fun _ _ => Finmap.notMem_empty

/-- A search that returned a route: which, and what it leaves in the parameters. -/
theorem matchIn_some {calls : List (Call H M)} {m : Method} {path : Bytes} {req req' : Request}
    {r : Route H M}
    (h : matchIn (build calls) m path (segmentsFrom 0 (splitScalar path 47)) req =
      .ok (some r) req') :
    ∃ c, Answers calls m (pathSegments path) c ∧ r = c.route ∧
      req'.params = Edit.run (way calls m path [] c.pattern (pathSegments path)) req.params := by
  obtain ⟨hres, hreq'⟩ := matchIn_ok h
  obtain ⟨p, hsearch, hroute⟩ := Option.bind_eq_some_iff.mp hres.symm
  obtain ⟨c, hc, hr, rfl⟩ := answers_of_search hsearch hroute
  refine ⟨c, hc, hr, ?_⟩
  rw [hreq', Request.setParams_params, Node.edits, segments_eq, hsearch]
  show Edit.run (Node.approach ..) _ = _
  rw [approach_eq]

/-- With wildcards at the end of patterns only, what the search stops at has a route. -/
theorem lookup_of_halts {p : List (Seg Bytes)} {segments : List Bytes} {n : Node H M} (hwf : n.WF)
    (hp : Matches p segments = true) (h : Node.halts p n = true) : (n.lookup p).isSome := by
  induction p generalizing segments n with
  | nil => exact h
  | cons s p ih =>
      cases segments with
      | nil => cases s <;> simp [Matches] at hp
      | cons x xs =>
          cases s with
          | static a =>
              have hp' : Matches p xs = true := by
                simp only [Matches, Bool.and_eq_true] at hp
                exact hp.2
              exact ih (hwf.child (.static a)) hp' h
          | param =>
              have hp' : Matches p xs = true := by simpa [Matches] using hp
              exact ih (hwf.child .param) hp' h
          | wildcard =>
              have hne : n.wildcardChild ≠ .null := Node.isNull_false_iff.mp (by simpa [Node.halts] using h)
              cases p with
              | nil => exact (hwf.wildcard hne).2
              | cons t p => simp [Matches] at hp

/-- **A search that returned no route**, where wildcards end their patterns: nothing registered for the method
matches. -/
theorem matchIn_none {calls : List (Call H M)} {m : Method} {path : Bytes} {req req' : Request}
    (hlast : ∀ c ∈ calls, WildcardLast (pathSegments c.path))
    (h : matchIn (build calls) m path (segmentsFrom 0 (splitScalar path 47)) req = .ok none req') :
    ∀ c ∈ calls, c.method = m → Matches c.pattern (pathSegments path) = false := by
  rintro c hc rfl
  by_contra hmatch
  have hmatch : Matches c.pattern (pathSegments path) = true := by simpa using hmatch
  obtain ⟨hres, -⟩ := matchIn_ok h
  have hroute : (((build calls).trees c.method).lookup c.pattern).isSome := by
    rw [lookup_build]
    exact Option.isSome_iff_ne_none.mpr (registered_ne_none hc)
  have hhalts := Node.halts_of_route hmatch hroute
  cases hsearch : ((build calls).trees c.method).search (pathSegments path) with
  | none =>
      have hnone := (select_eq_none _ _).mp hsearch c.pattern hmatch
      rw [if_pos hhalts] at hnone
      cases hnone
  | some p =>
      obtain ⟨hp, hhalt, -⟩ := Node.search_eq_some hsearch
      have hsome := lookup_of_halts (wf_build hlast c.method) hp hhalt
      rw [hsearch] at hres
      have hres : none = ((build calls).trees c.method).lookup p := hres
      rw [← hres] at hsome
      cases hsome

/-- **Whose names the parameters get.**  The parameters a lookup returns with the route of
`c` are what the pattern of `c` writes exactly when, for every name, what the nodes on the
way say of it in the end is what the pattern says of it in the end. -/
theorem findHandler_params_iff {calls : List (Call H M)} {req req' : Request} {r : Route H M}
    (hparams : req.params = ∅) (h : findHandler (build calls) req = .ok (some r) req') :
    ∃ m before c, Consults calls req m before ∧ Answers calls m (pathSegments (urlPath req)) c ∧
      r = c.route ∧
      (req'.params = writtenParams c (urlPath req) ↔ ∀ name,
        (Edit.settled name (before ++
          way calls m (urlPath req) [] c.pattern (pathSegments (urlPath req)))).join =
        (Edit.settled name
          (written (urlPath req) 0 (pathSegments c.path) (pathSegments (urlPath req)))).join) := by
  obtain ⟨req₁, -, hreq₁, hrun⟩ := findHandler_ok h
  have hparams₁ : req₁.params = ∅ := by rw [hreq₁]; exact hparams
  rcases hrun with ⟨hmatch, -⟩ | ⟨req₂, hhead, hfail, hmatch⟩
  · obtain ⟨c, hc, hr, hparams'⟩ := matchIn_some hmatch
    refine ⟨req.method, [], c, .inl ⟨rfl, rfl⟩, hc, hr, ?_⟩
    rw [hparams', hparams₁, List.nil_append]
    exact Edit.run_empty_eq_iff ..
  · obtain ⟨c, hc, hr, hparams'⟩ := matchIn_some hmatch
    obtain ⟨-, hreq₂⟩ := matchIn_ok hfail
    refine ⟨.get, _, c, .inr ⟨hhead, rfl, rfl⟩, hc, hr, ?_⟩
    rw [hparams', hreq₂, Request.setParams_params, hparams₁, run_edits_leftover,
      ← Edit.run_append]
    exact Edit.run_empty_eq_iff ..

/-- A pattern with a parameter and a wildcard. -/
def filesCall : Call ℕ ℕ := ⟨ascii "/u/:id/f/*rest", .get, 1, []⟩

def filesRequest : Request := { method := .get, url := ⟨0, ascii "/u//7/f/a//b?x"⟩ }

theorem findHandler_params_iff_sample : ∃ r req',
    findHandler (build [filesCall]) filesRequest = .ok (some r) req' ∧
      req'.params = writtenParams filesCall (urlPath filesRequest) := by
  have hrun : Act.gives (some ⟨1, []⟩) (findHandler (build [filesCall])) filesRequest = true := by
    decide_cbv
  obtain ⟨req', hrun⟩ := Act.gives_iff.mp hrun
  refine ⟨_, req', hrun, ?_⟩
  obtain ⟨m, before, c, hm, ⟨pre, post, hcalls, -⟩, -, hiff⟩ := findHandler_params_iff rfl hrun
  obtain rfl : c = filesCall := by
    cases pre with
    | nil => exact (List.cons.inj hcalls).1.symm
    | cons d pre => simp at hcalls
  rcases hm with ⟨rfl, rfl⟩ | ⟨hhead, -⟩
  · have hway : way [filesCall] filesRequest.method (urlPath filesRequest) [] filesCall.pattern
        (pathSegments (urlPath filesRequest)) =
      written (urlPath filesRequest) 0 (pathSegments filesCall.path)
        (pathSegments (urlPath filesRequest)) := by decide_cbv
    rw [hway, List.nil_append] at hiff
    exact hiff.mpr fun _ => rfl
  · cases hhead

/-- The second of two patterns that share a prefix. -/
def renamedCall : Call ℕ ℕ := ⟨ascii "/a/:name/x", .get, 2, []⟩

/-- The first names the shared parameter differently. -/
def renamed : List (Call ℕ ℕ) := [⟨ascii "/a/:id", .get, 1, []⟩, renamedCall]

def renamedRequest : Request := { method := .get, url := ⟨0, ascii "/a/7/x"⟩ }

/-- The second pattern never sees its `name`. -/
theorem findHandler_misnames : ∃ req',
    findHandler (build renamed) renamedRequest = .ok (some renamedCall.route) req' ∧
      req'.params ≠ writtenParams renamedCall (urlPath renamedRequest) := by
  have hrun : Act.yields (fun res req' => decide (res = some renamedCall.route) &&
      (req'.params.lookup (ascii "name")).isNone) (findHandler (build renamed)) renamedRequest =
        true := by decide_cbv
  obtain ⟨res, req', hrun, htest⟩ := Act.yields_iff.mp hrun
  obtain ⟨hres, hname⟩ := Bool.and_eq_true_iff.mp htest
  obtain rfl : res = some renamedCall.route := by simpa using hres
  refine ⟨req', hrun, fun heq => ?_⟩
  rw [heq] at hname
  exact absurd hname (by decide_cbv)

end Router
end Dusty
