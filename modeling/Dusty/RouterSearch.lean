import Mathlib
import Dusty.RouterSelect
import Dusty.Edits

/-! # What a search does to the parameters

`matchRecursive` run on any tree insertion can build, wildcards in the middle of a pattern
included.  The search stops at the node of a matching pattern that has a route and at every
wildcard node, with or without one (`halts`); `search` is the pattern it stops at, the least
one.  On the way it binds the names of the nodes of that pattern and drops the names of the
parameter nodes it tried in vain (`approach`); a search that finds nothing drops all the
names it tried (`tried`).  `matchRecursive_run` says that this is all it does, unless there
is no room for a name (`Room`). -/

namespace Dusty

open Seg

namespace Node

variable {H M : Type}

/-- The node at a pattern. -/
def nodeAt : List (Seg Bytes) → Node H M → Node H M
  | [], n => n
  | s :: p, n => nodeAt p (n.child s)

/-- The siblings differ, and every parameter and wildcard node has a name. -/
def Named : Node H M → Prop
  | null => True
  | mk s _ _ st pa wi nx _ =>
      (Named st ∧ Named pa ∧ Named wi ∧ Named nx) ∧ findSibling s nx = null ∧
        (pa ≠ null → pa.paramName.isSome) ∧ (wi ≠ null → wi.paramName.isSome)

/-- `param_name.?`, empty for a node without one. -/
def name (n : Node H M) : Bytes := n.paramName.getD []

/-- The search does not go past the node at the pattern: it has a route, or is a wildcard. -/
def halts : List (Seg Bytes) → Node H M → Bool
  | [], n => n.route.isSome
  | .static a :: p, n => halts p (n.child (.static a))
  | .param :: p, n => halts p n.paramChild
  | .wildcard :: _, n => !n.wildcardChild.isNull

/-- The pattern the search stops at. -/
def search (n : Node H M) (segments : List Bytes) : Option (List (Seg Bytes)) :=
  select (fun p => if halts p n then some p else none) segments

/-- The names of the parameter nodes along the segments. -/
def tried : List Bytes → Node H M → List Bytes
  | [], _ => []
  | x :: xs, n =>
      tried xs (n.child (.static x)) ++
        if n.paramChild.isNull then [] else n.paramChild.name :: tried xs n.paramChild

/-- What the search does to the parameters on the way to the node at a pattern. -/
def approach (path : Bytes) :
    List (Seg Bytes) → List (Bytes × ℕ) → Node H M → List (Edit Bytes Bytes)
  | .static a :: p, _ :: rest, n => approach path p rest (n.child (.static a))
  | .param :: p, (x, _) :: rest, n =>
      (tried (rest.map Prod.fst) (n.child (.static x))).map .drop ++
        .bind n.paramChild.name x :: approach path p rest n.paramChild
  | .wildcard :: _, (x, offset) :: rest, n =>
      (tried (x :: rest.map Prod.fst) n).map .drop ++
        [.bind n.wildcardChild.name (path.drop offset)]
  | _, _, _ => []

/-- What the whole search does to them. -/
def edits (path : Bytes) (segments : List (Bytes × ℕ)) (n : Node H M) : List (Edit Bytes Bytes) :=
  match search n (segments.map Prod.fst) with
  | some p => approach path p segments n
  | none => (tried (segments.map Prod.fst) n).map .drop

/-- The search never comes to a parameter or wildcard node with `max` names bound. -/
def Room (max : ℕ) : List Bytes → Node H M → StringMap → Prop
  | [], _, _ => True
  | x :: xs, n, params =>
      Room max xs (n.child (.static x)) params ∧
        (search (n.child (.static x)) xs = none →
          (n.paramChild ≠ null →
            StringMap.count (Edit.run ((tried xs (n.child (.static x))).map .drop) params) < max ∧
              Room max xs n.paramChild
                (Finmap.insert n.paramChild.name x
                  (Edit.run ((tried xs (n.child (.static x))).map .drop) params))) ∧
          (search n.paramChild xs = none → n.wildcardChild ≠ null →
            StringMap.count (Edit.run ((tried (x :: xs) n).map .drop) params) < max))

/-! ### The pattern the search stops at -/

theorem lookup_eq_route (p : List (Seg Bytes)) (n : Node H M) : lookup p n = (nodeAt p n).route := by
  induction p generalizing n with
  | nil => rfl
  | cons s p ih => exact ih (n.child s)

@[simp] theorem nodeAt_nil (n : Node H M) : nodeAt [] n = n := rfl

@[simp] theorem nodeAt_param (p : List (Seg Bytes)) (n : Node H M) :
    nodeAt (.param :: p) n = nodeAt p n.paramChild := rfl

@[simp] theorem nodeAt_wildcard (p : List (Seg Bytes)) (n : Node H M) :
    nodeAt (.wildcard :: p) n = nodeAt p n.wildcardChild := rfl

theorem nodeAt_append (p q : List (Seg Bytes)) (n : Node H M) :
    nodeAt (p ++ q) n = nodeAt q (nodeAt p n) := by
  induction p generalizing n with
  | nil => rfl
  | cons s p ih => exact ih (n.child s)

@[simp] theorem nodeAt_null (p : List (Seg Bytes)) : nodeAt p (null : Node H M) = null := by
  induction p with
  | nil => rfl
  | cons s p ih => simpa [nodeAt] using ih

@[simp] theorem search_nil (n : Node H M) :
    search n [] = if n.route.isSome then some [] else none := rfl

theorem search_cons (n : Node H M) (x : Bytes) (xs : List Bytes) :
    search n (x :: xs) =
      ((search (n.child (.static x)) xs).map (.static x :: ·)).or
        (((search n.paramChild xs).map (.param :: ·)).or
          (if n.wildcardChild.isNull then none else some [.wildcard])) := by
  have hmap : ∀ (s : Seg Bytes) (c : Node H M), (∀ p, halts (s :: p) n = halts p c) →
      select (fun p => if halts (s :: p) n then some (s :: p) else none) xs =
        (search c xs).map (s :: ·) := by
    intro s c hc
    rw [search, ← select_map]
    congr 1
    funext p
    rw [hc p]
    cases halts p c <;> rfl
  unfold search
  rw [select, hmap (.static x) (n.child (.static x)) fun p => rfl,
    hmap .param n.paramChild fun p => rfl]
  cases hw : n.wildcardChild.isNull <;> simp [halts, hw, search]

@[simp] theorem search_null (xs : List Bytes) : search (null : Node H M) xs = none := by
  induction xs with
  | nil => rfl
  | cons x xs ih => simp [search_cons, ih, paramChild, wildcardChild, isNull]

@[simp] theorem tried_null (xs : List Bytes) : tried xs (null : Node H M) = [] := by
  induction xs with
  | nil => rfl
  | cons x xs ih => simp [tried, ih, paramChild, isNull]

/-- A search that stops does so at a pattern of the segments, and no other pattern it could
stop at comes first. -/
theorem search_eq_some {n : Node H M} {segments : List Bytes} {p : List (Seg Bytes)}
    (h : search n segments = some p) :
    Matches p segments = true ∧ halts p n = true ∧
      ∀ q, Matches q segments = true → halts q n = true → ranks p ≤ ranks q := by
  obtain ⟨q, hq, hmatch, hhalt, hleast⟩ := select_eq_some h
  have hhalts : halts q n = true := by
    by_contra hne
    simp [hne] at hhalt
  obtain rfl : q = p := by simpa [hhalts] using hq
  refine ⟨hmatch, hhalts, ?_⟩
  intro q' hq' hhalts'
  exact hleast q' hq' (by simp [hhalts'])

/-- Which patterns the search stops at: those with a route, and the wildcards. -/
theorem halts_of_route {p : List (Seg Bytes)} {segments : List Bytes} {n : Node H M}
    (hp : Matches p segments = true) (h : (lookup p n).isSome) : halts p n = true := by
  induction p generalizing segments n with
  | nil => exact h
  | cons s p ih =>
      cases segments with
      | nil => cases s <;> simp [Matches] at hp
      | cons x xs =>
          cases s with
          | static a =>
              have hp' : Matches p xs = true := by
                simp only [Matches, Bool.and_eq_true] at hp
                exact hp.2
              exact ih hp' h
          | param =>
              have hp' : Matches p xs = true := by simpa [Matches] using hp
              exact ih hp' h
          | wildcard =>
              have hne : n.wildcardChild ≠ null := by
                intro hnull
                rw [lookup, child, hnull, lookup_null] at h
                cases h
              simpa [halts] using isNull_false_iff.mpr hne

/-! ### The search does not look at siblings -/

section alone
variable (n : Node H M)

@[simp] theorem child_alone (t : Seg Bytes) : n.alone.child t = n.child t := by
  cases n <;> cases t <;> rfl

@[simp] theorem paramChild_alone : n.alone.paramChild = n.paramChild := child_alone n .param

@[simp] theorem wildcardChild_alone : n.alone.wildcardChild = n.wildcardChild :=
  child_alone n .wildcard

@[simp] theorem paramName_alone : n.alone.paramName = n.paramName := by cases n <;> rfl

@[simp] theorem route_alone : n.alone.route = n.route := by cases n <;> rfl

@[simp] theorem alone_eq_null : n.alone = null ↔ n = null := by
  cases n <;> simp

@[simp] theorem name_alone : n.alone.name = n.name := by simp [name]

theorem search_alone (segments : List Bytes) : n.alone.search segments = n.search segments := by
  cases segments with
  | nil => simp
  | cons x xs => simp [search_cons]

theorem tried_alone (segments : List Bytes) : tried segments n.alone = tried segments n := by
  cases segments with
  | nil => rfl
  | cons x xs => simp [tried]

theorem room_alone (max : ℕ) (segments : List Bytes) (params : StringMap) :
    Room max segments n.alone params ↔ Room max segments n params := by
  cases segments with
  | nil => rfl
  | cons x xs => simp [Room, tried_alone]

end alone

/-! ### The search itself -/

theorem tryStatic_eq (descend : Node H M → Act Request (Option (Node H M))) (segment : Bytes)
    (req : Request) : ∀ n : Node H M, Named n →
    tryStatic descend segment n req =
      if (findSibling segment n).isNull then .ok none req
      else descend (findSibling segment n) req
  | null, _ => rfl
  | mk s k nm st pa wi nx rt, hn => by
      rw [tryStatic, findSibling]
      by_cases hs : s = segment
      · have habsent : tryStatic descend segment nx = pure none :=
          tryStatic_absent segment nx (hs ▸ hn.2.1)
        rw [if_pos hs, if_pos hs, habsent, if_neg (by simp [isNull]), Act.bind_run]
        cases descend (mk s k nm st pa wi nx rt) req with
        | error => rfl
        | ok res req' => cases res <;> rfl
      · rw [if_neg hs, if_neg hs]
        exact tryStatic_eq descend segment req nx hn.1.2.2.2

theorem checkParamCount_full {req : Request} (h : req.config.maxParamCount ≤ req.params.count) :
    checkParamCount req = .error (.err .tooManyParams) req := by
  simp [checkParamCount, Act.bind_run, h]

theorem Named.static {n : Node H M} (h : Named n) : Named n.staticChildren := by
  cases n with
  | null => trivial
  | mk => exact h.1.1

theorem Named.findSibling {segment : Bytes} {n : Node H M} (h : Named n) :
    Named (findSibling segment n) := by
  induction n with
  | null => exact h
  | mk s k name st pa wi nx rt _ _ _ ih =>
      simp only [Node.findSibling]
      split
      · exact h
      · exact ih h.1.2.2.2

theorem Named.child {n : Node H M} (h : Named n) (t : Seg Bytes) : Named (n.child t) := by
  cases n with
  | null => simpa using h
  | mk => cases t with
    | static a => exact h.1.1.findSibling
    | param => exact h.1.2.1
    | wildcard => exact h.1.2.2.1

theorem Named.nodeAt {n : Node H M} (h : Named n) (p : List (Seg Bytes)) : Named (nodeAt p n) := by
  induction p generalizing n with
  | nil => exact h
  | cons s p ih => exact ih (h.child s)

theorem Named.requireName_param {n : Node H M} (h : Named n) (hc : n.paramChild ≠ null)
    (req : Request) : requireName n.paramChild req = .ok n.paramChild.name req := by
  cases n with
  | null => exact absurd rfl hc
  | mk s k nm st pa wi nx rt =>
      obtain ⟨name, hname⟩ := Option.isSome_iff_exists.mp (h.2.2.1 hc)
      simp [requireName, Node.name, paramChild, hname]

theorem Named.requireName_wildcard {n : Node H M} (h : Named n) (hc : n.wildcardChild ≠ null)
    (req : Request) : requireName n.wildcardChild req = .ok n.wildcardChild.name req := by
  cases n with
  | null => exact absurd rfl hc
  | mk s k nm st pa wi nx rt =>
      obtain ⟨name, hname⟩ := Option.isSome_iff_exists.mp (h.2.2.2 hc)
      simp [requireName, Node.name, wildcardChild, hname]

/-- The search `x` comes to `res` and edits the parameters by `ms`; without room it fails. -/
def Does (x : Act Request (Option (Node H M))) (res : Option (Node H M))
    (ms : List (Edit Bytes Bytes)) (room : Prop) (req : Request) : Prop :=
  (room → x req = .ok res (req.setParams (Edit.run ms req.params))) ∧
    (¬room → ∃ req', x req = .error (.err .tooManyParams) req')

theorem does_none (req : Request) :
    Does (pure none : Act Request (Option (Node H M))) none [] True req :=
  ⟨fun _ => rfl, fun h => absurd trivial h⟩

/-- Two searches, the second made when the first found nothing. -/
theorem Does.orElse {x y : Act Request (Option (Node H M))} {a b : Option (Node H M)}
    {ms ms' : List (Edit Bytes Bytes)} {room room' : Prop} {req : Request}
    (hx : Does x a ms room req)
    (hy : a = none → Does y b ms' room' (req.setParams (Edit.run ms req.params))) :
    Does (do match ← x with | some r => pure (some r) | none => y) (a.or b)
      (if a.isSome then ms else ms ++ ms') (room ∧ (a = none → room')) req := by
  obtain ⟨hok, hfull⟩ := hx
  constructor
  · rintro ⟨hroom, hroom'⟩
    rw [Act.bind_ok (hok hroom)]
    cases a with
    | some n => rfl
    | none =>
        show y _ = _
        rw [(hy rfl).1 (hroom' rfl), Request.setParams_params, ← Edit.run_append]
        rfl
  · intro hno
    by_cases hroom : room
    · rw [Act.bind_ok (hok hroom)]
      cases a with
      | some n => exact absurd ⟨hroom, nofun⟩ hno
      | none => exact (hy rfl).2 fun hroom' => hno ⟨hroom, fun _ => hroom'⟩
    · obtain ⟨req', hrun⟩ := hfull hroom
      refine ⟨req', ?_⟩
      rw [Act.bind_run, hrun]

section branches
variable {descend : Node H M → Act Request (Option (Node H M))}

theorem Does.param {n : Node H M} {x : Bytes} {res : Option (Node H M)}
    {ms : List (Edit Bytes Bytes)} {keys : List Bytes} {room : Prop} {req : Request}
    (hn : Named n) (hms : res = none → ms = keys.map .drop)
    (hdescend : Does (descend n.paramChild) res ms room
      (req.setParams (req.params.insert n.paramChild.name x))) (hc : n.paramChild ≠ null) :
    Does (tryParam descend x n.paramChild) res
      (if res.isSome then .bind n.paramChild.name x :: ms
        else (n.paramChild.name :: keys).map .drop)
      (req.params.count < req.config.maxParamCount ∧ room) req := by
  unfold tryParam
  rw [if_neg (by simpa [isNull_iff] using hc)]
  constructor
  · rintro ⟨hcount, hroom⟩
    simp only [Act.bind_ok (checkParamCount_run hcount),
      Act.bind_ok (hn.requireName_param hc req), Act.bind_ok (Act.modify_run ..),
      Act.bind_ok (hdescend.1 hroom)]
    cases res with
    | some c => rfl
    | none =>
        have herase := Edit.run_bind_drops n.paramChild.name x keys req.params
        rw [← hms rfl] at herase
        show EStateM.Result.ok none (req.setParams (Finmap.erase _ (Edit.run ms _))) = _
        rw [Request.setParams_params, herase]
        rfl
  · intro hno
    by_cases hcount : req.params.count < req.config.maxParamCount
    · obtain ⟨req', hrun⟩ := hdescend.2 fun hroom => hno ⟨hcount, hroom⟩
      refine ⟨req', ?_⟩
      simp only [Act.bind_ok (checkParamCount_run hcount),
        Act.bind_ok (hn.requireName_param hc req), Act.bind_ok (Act.modify_run ..)]
      rw [Act.bind_run, hrun]
    · refine ⟨req, ?_⟩
      rw [Act.bind_run, checkParamCount_full (Nat.not_lt.mp hcount)]

theorem does_wildcard {n : Node H M} (remaining : Bytes) {req : Request} (hn : Named n)
    (hc : n.wildcardChild ≠ null) :
    Does (tryWildcard remaining n.wildcardChild) (some n.wildcardChild)
      [.bind n.wildcardChild.name remaining] (req.params.count < req.config.maxParamCount) req := by
  unfold tryWildcard
  rw [if_neg (by simpa [isNull_iff] using hc)]
  constructor
  · intro hcount
    simp only [Act.bind_ok (checkParamCount_run hcount),
      Act.bind_ok (hn.requireName_wildcard hc req), Act.bind_ok (Act.modify_run ..)]
    rfl
  · intro hfull
    refine ⟨req, ?_⟩
    rw [Act.bind_run, checkParamCount_full (Nat.not_lt.mp hfull)]

end branches

/-- The search of a node's parameter child, if it has one. -/
theorem does_tryParam {path x : Bytes} {rest : List (Bytes × ℕ)} {n : Node H M} {req : Request}
    (hn : Named n)
    (ih : ∀ req, Does (matchRecursive path rest n.paramChild)
      ((search n.paramChild (rest.map Prod.fst)).map (nodeAt · n.paramChild))
      (edits path rest n.paramChild)
      (Room req.config.maxParamCount (rest.map Prod.fst) n.paramChild req.params) req) :
    Does (tryParam (matchRecursive path rest) x n.paramChild)
      ((search n.paramChild (rest.map Prod.fst)).map (nodeAt · n.paramChild))
      (if (search n.paramChild (rest.map Prod.fst)).isSome then
          .bind n.paramChild.name x :: edits path rest n.paramChild
        else if n.paramChild.isNull then []
        else (n.paramChild.name :: tried (rest.map Prod.fst) n.paramChild).map .drop)
      (n.paramChild ≠ null → req.params.count < req.config.maxParamCount ∧
        Room req.config.maxParamCount (rest.map Prod.fst) n.paramChild
          (req.params.insert n.paramChild.name x)) req := by
  by_cases hc : n.paramChild = null
  · rw [hc]
    simpa [tryParam, isNull] using does_none (H := H) (M := M) req
  · have hedits : (search n.paramChild (rest.map Prod.fst)).map (nodeAt · n.paramChild) = none →
        edits path rest n.paramChild =
          (tried (rest.map Prod.fst) n.paramChild).map .drop := by
      intro hnone
      rw [edits, Option.map_eq_none_iff.mp hnone]
    have h := Does.param hn hedits (ih (req.setParams (req.params.insert n.paramChild.name x))) hc
    rw [Option.isSome_map] at h
    simpa [isNull_false_iff.mpr hc, hc] using h

@[simp] theorem room_null (max : ℕ) (xs : List Bytes) (params : StringMap) :
    Room max xs (null : Node H M) params := by
  induction xs generalizing params with
  | nil => trivial
  | cons x xs ih =>
      refine ⟨by simpa using ih params, fun _ => ⟨fun hc => ?_, fun _ hc => ?_⟩⟩
      · exact absurd rfl hc
      · exact absurd rfl hc

theorem edits_null (path : Bytes) (segments : List (Bytes × ℕ)) :
    edits path segments (null : Node H M) = [] := by
  simp [edits]

theorem does_tryStatic {path x : Bytes} {rest : List (Bytes × ℕ)} {n : Node H M} {req : Request}
    (hn : Named n)
    (ih : Does (matchRecursive path rest (n.child (.static x)))
      ((search (n.child (.static x)) (rest.map Prod.fst)).map (nodeAt · (n.child (.static x))))
      (edits path rest (n.child (.static x)))
      (Room req.config.maxParamCount (rest.map Prod.fst) (n.child (.static x)) req.params) req) :
    Does (tryStatic (matchRecursive path rest) x n.staticChildren)
      ((search (n.child (.static x)) (rest.map Prod.fst)).map (nodeAt · (n.child (.static x))))
      (edits path rest (n.child (.static x)))
      (Room req.config.maxParamCount (rest.map Prod.fst) (n.child (.static x)) req.params) req := by
  have hrun := tryStatic_eq (matchRecursive path rest) x req _ hn.static
  by_cases hc : n.child (.static x) = null
  · have hnull : findSibling x n.staticChildren = null := hc
    rw [hnull] at hrun
    rw [hc]
    simp only [search_null, Option.map_none, edits_null]
    refine ⟨fun _ => hrun, fun hno => absurd (room_null _ _ _) hno⟩
  · have hne : (findSibling x n.staticChildren).isNull = false := isNull_false_iff.mpr hc
    rw [hne] at hrun
    unfold Does
    rw [hrun]
    exact ih

theorem does_tryWildcard {n : Node H M} (remaining : Bytes) {req : Request} (hn : Named n) :
    Does (tryWildcard remaining n.wildcardChild)
      (if n.wildcardChild.isNull then none else some n.wildcardChild)
      (if n.wildcardChild.isNull then [] else [.bind n.wildcardChild.name remaining])
      (n.wildcardChild ≠ null → req.params.count < req.config.maxParamCount) req := by
  by_cases hc : n.wildcardChild = null
  · rw [hc]
    simpa [tryWildcard, isNull] using does_none (H := H) (M := M) req
  · simpa [isNull_false_iff.mpr hc, hc] using does_wildcard remaining hn hc

/-- **The search**: it stops at the node `search` says and edits the parameters by `edits`,
or fails for lack of room. -/
theorem matchRecursive_does (path : Bytes) : ∀ (segments : List (Bytes × ℕ)) (n : Node H M)
    (req : Request), Named n →
      Does (matchRecursive path segments n)
        ((search n (segments.map Prod.fst)).map (nodeAt · n)) (edits path segments n)
        (Room req.config.maxParamCount (segments.map Prod.fst) n req.params) req
  | [], n, req, _ => by
      refine ⟨fun _ => ?_, fun hno => absurd trivial hno⟩
      cases hr : n.route <;> simp [matchRecursive, edits, approach, tried, hr, nodeAt] <;> rfl
  | (x, offset) :: rest, n, req, hn => by
      have ih := matchRecursive_does path rest
      have hall : Does (matchRecursive path ((x, offset) :: rest) n) _ _ _ req :=
        (does_tryStatic hn (ih (n.child (.static x)) req (hn.child _))).orElse fun _ =>
          (does_tryParam (x := x) hn fun req => ih n.paramChild req (hn.child .param)).orElse
            fun _ => does_tryWildcard (path.drop offset) hn
      simp only [Request.setParams_params, Request.setParams_config, Option.isSome_map,
        Option.map_eq_none_iff, ← Edit.run_append] at hall
      rw [List.map_cons]
      cases hs : search (n.child (.static x)) (rest.map Prod.fst) with
      | some p => simpa [hs, search_cons, edits, approach, Room, nodeAt] using hall
      | none =>
          cases hp : search n.paramChild (rest.map Prod.fst) with
          | some p => simpa [hs, hp, search_cons, edits, approach, Room] using hall
          | none =>
              cases hc : n.paramChild.isNull <;> cases hw : n.wildcardChild.isNull <;>
              simpa [hs, hp, hc, hw, search_cons, edits, approach, Room, tried] using hall

/-! ### Insertion builds such trees -/

theorem Named.setNextSibling {c nx : Node H M} (hc : Named c) (hnx : Named nx)
    (h : Node.findSibling c.segment nx = null) : Named (c.setNextSibling nx) := by
  cases c with
  | null => exact hc
  | mk => exact ⟨⟨hc.1.1, hc.1.2.1, hc.1.2.2.1, hnx⟩, h, hc.2.2⟩

theorem Named.replaceSibling {segment : Bytes} {c : Node H M} (hc : Named c)
    (hseg : c.segment = segment) : ∀ n : Node H M, Named n → Named (replaceSibling segment c n)
  | null, _ => trivial
  | mk s k name st pa wi nx rt, h => by
      obtain ⟨⟨hst, hpa, hwi, hnx⟩, hs, hrest⟩ := h
      simp only [Node.replaceSibling]
      split
      · case isTrue heq =>
          refine hc.setNextSibling hnx ?_
          rw [hseg, ← heq]
          exact hs
      · exact ⟨⟨hst, hpa, hwi, Named.replaceSibling hc hseg nx hnx⟩,
          findSibling_replaceSibling hseg nx hs, hrest⟩

theorem Named.attachChild {n c : Node H M} {k : NodeKind} (hn : Named n) (hc : Named c)
    (hseg : k = .static → Node.findSibling c.segment n.staticChildren = null)
    (hname : k ≠ .static → c.paramName.isSome) : Named (attachChild n c k) := by
  cases n with
  | null => cases k <;> trivial
  | mk s kind name st pa wi nx rt =>
      obtain ⟨⟨hst, hpa, hwi, hnx⟩, hs, hp, hw⟩ := hn
      cases k with
      | static => exact ⟨⟨hc.setNextSibling hst (hseg rfl), hpa, hwi, hnx⟩, hs, hp, hw⟩
      | param => exact ⟨⟨hst, hc, hwi, hnx⟩, hs, fun _ => hname (by simp), hw⟩
      | wildcard => exact ⟨⟨hst, hpa, hc, hnx⟩, hs, hp, fun _ => hname (by simp)⟩

theorem Named.updateChild {n c : Node H M} {seg : Bytes} {k : NodeKind} (hn : Named n)
    (hc : Named c) (hseg : k = .static → c.segment = seg)
    (hname : k ≠ .static → c.paramName.isSome) : Named (updateChild n seg c k) := by
  cases n with
  | null => cases k <;> trivial
  | mk s kind name st pa wi nx rt =>
      obtain ⟨⟨hst, hpa, hwi, hnx⟩, hs, hp, hw⟩ := hn
      cases k with
      | static => exact ⟨⟨hc.replaceSibling (hseg rfl) st hst, hpa, hwi, hnx⟩, hs, hp, hw⟩
      | param => exact ⟨⟨hst, hc, hwi, hnx⟩, hs, fun _ => hname (by simp), hw⟩
      | wildcard => exact ⟨⟨hst, hpa, hc, hnx⟩, hs, hp, fun _ => hname (by simp)⟩

theorem named_leaf (s : Bytes) (k : NodeKind) (name : Option Bytes) :
    Named (leaf s k name : Node H M) := by
  simp [leaf, Named, findSibling]

theorem Named.child_paramName {n : Node H M} (h : Named n) {seg : Bytes}
    (hk : segmentKind seg ≠ .static) (hfound : n.child (segOf seg) ≠ null) :
    (n.child (segOf seg)).paramName.isSome := by
  cases n with
  | null => exact absurd (child_null _) hfound
  | mk =>
      unfold segOf at hfound ⊢
      cases hseg : segmentKind seg with
      | static => exact absurd hseg hk
      | param => rw [hseg] at hfound; exact h.2.2.1 hfound
      | wildcard => rw [hseg] at hfound; exact h.2.2.2 hfound

/-- **Insertion keeps the siblings different and the nodes named.** -/
theorem named_insert (rt : Route H M) : ∀ (segments : List Bytes) {n : Node H M}, Named n →
    Named (insert rt segments n)
  | [], null, _ => trivial
  | [], mk .., h => h
  | seg :: rest, n, h => by
      simp only [insert, findChild_eq_child]
      by_cases hfound : n.child (segOf seg) = null
      · rw [if_pos (isNull_iff.mpr hfound)]
        obtain ⟨-, hseg, hname, -⟩ := insert_head rt rest
          (leaf_ne_null (H := H) (M := M) seg (segmentKind seg) (segmentParamName seg))
        refine h.attachChild (named_insert rt rest (named_leaf ..)) (fun hk => ?_) fun hk => ?_
        · rw [hseg]
          simpa [segOf, hk, child, leaf, segment] using hfound
        · rw [hname]
          unfold segmentParamName
          cases hseg' : segmentKind seg with
          | static => exact absurd hseg' hk
          | param => rfl
          | wildcard => rfl
      · rw [if_neg (by simpa using isNull_false_iff.mpr hfound)]
        obtain ⟨-, hseg, hname, -⟩ := insert_head rt rest hfound
        refine h.updateChild (named_insert rt rest (h.child _)) (fun hk => ?_) fun hk => ?_
        · rw [hseg]
          simp only [segOf, hk, child] at hfound ⊢
          exact findSibling_segment hfound
        · rw [hname]
          exact h.child_paramName hk hfound

end Node

namespace Router

variable {H M : Type}

theorem named_rootFor {self : Router H M} {m : Method} (h : (self.trees m).Named) :
    (self.rootFor m).Named := by
  unfold rootFor
  split
  · exact Node.named_leaf ..
  · exact h

theorem named_build (calls : List (Call H M)) (m : Method) : ((build calls).trees m).Named := by
  induction calls using List.reverseRecOn with
  | nil => trivial
  | append_singleton calls c ih =>
      rw [build_concat]
      simp only [insertRoute]
      by_cases hm : m = c.method
      · subst hm
        rw [if_pos rfl]
        exact Node.named_insert _ _ (named_rootFor ih)
      · rw [if_neg hm]
        exact ih

theorem matchIn_does (calls : List (Call H M)) (m : Method) (path : Bytes)
    (segments : List (Bytes × ℕ)) (req : Request) :
    (Node.Room req.config.maxParamCount (segments.map Prod.fst) ((build calls).trees m) req.params →
      matchIn (build calls) m path segments req =
        .ok ((((build calls).trees m).search (segments.map Prod.fst)).bind
            fun p => ((build calls).trees m).lookup p)
          (req.setParams (Edit.run (Node.edits path segments ((build calls).trees m)) req.params))) ∧
      (¬Node.Room req.config.maxParamCount (segments.map Prod.fst) ((build calls).trees m)
          req.params →
        ∃ req', matchIn (build calls) m path segments req = .error (.err .tooManyParams) req') := by
  obtain ⟨hok, hfull⟩ := Node.matchRecursive_does path segments _ req (named_build calls m)
  unfold matchIn
  cases hnull : ((build calls).trees m).isNull with
  | true =>
      rw [Node.isNull_iff.mp hnull]
      refine ⟨fun _ => ?_, fun hno => absurd (Node.room_null ..) hno⟩
      rw [if_pos rfl, Node.search_null, Node.edits_null]
      rfl
  | false =>
      rw [if_neg (by simp)]
      constructor
      · intro hroom
        rw [Act.bind_ok (hok hroom)]
        cases ((build calls).trees m).search (segments.map Prod.fst) with
        | none => rfl
        | some p =>
            show EStateM.Result.ok _ _ = _
            rw [Option.bind_some, Node.lookup_eq_route]
      · intro hno
        obtain ⟨req', hrun⟩ := hfull hno
        refine ⟨req', ?_⟩
        rw [Act.bind_run, hrun]

end Router

/-! ### What a search that finds no route leaves behind -/

namespace Node

variable {H M : Type}

/-- A search from `n` that ends without a route leaves the parameters as they are: the names
tried in vain are not bound, and if the search stops at a wildcard node, everything it does
on the way is already so. -/
def Traceless (path : Bytes) (segments : List (Bytes × ℕ)) (n : Node H M) (params : StringMap) :
    Prop :=
  (search n (segments.map Prod.fst) = none →
    ∀ name ∈ tried (segments.map Prod.fst) n, name ∉ params) ∧
  ∀ p, search n (segments.map Prod.fst) = some p →
    ∀ name o, Edit.settled name (approach path p segments n) = some o → params.lookup name = o

theorem run_edits_eq_self_iff (path : Bytes) (segments : List (Bytes × ℕ)) (n : Node H M)
    (params : StringMap) :
    Edit.run (edits path segments n) params = params ↔ Traceless path segments n params := by
  unfold Traceless edits
  cases search n (segments.map Prod.fst) with
  | none => simp [Edit.run_drops_eq_self_iff]
  | some p => simp [Edit.run_eq_self_iff]

end Node

namespace Router

variable {H M : Type}

/-- **When a failed search leaves no trace.**  For every table, every node of a tree of it,
every rest of the segments and all parameters. -/
theorem search_traceless_iff (calls : List (Call H M)) (m : Method) (path : Bytes)
    (segments : List (Bytes × ℕ)) (req : Request) :
    (∀ p res req',
      Node.matchRecursive path segments (((build calls).trees m).nodeAt p) req = .ok res req' →
        res.bind Node.route = none →
          (req'.params = req.params ↔
            (((build calls).trees m).nodeAt p).Traceless path segments req.params)) ∧
      ∀ req', matchIn (build calls) m path segments req = .ok none req' →
        (req'.params = req.params ↔
          ((build calls).trees m).Traceless path segments req.params) := by
  constructor
  · intro p res req' hrun _
    obtain ⟨hok, hfull⟩ :=
      Node.matchRecursive_does path segments _ req ((named_build calls m).nodeAt p)
    by_cases hroom : Node.Room req.config.maxParamCount (segments.map Prod.fst)
        (((build calls).trees m).nodeAt p) req.params
    · rw [hok hroom] at hrun
      cases hrun
      exact Node.run_edits_eq_self_iff path segments _ req.params
    · obtain ⟨req'', herr⟩ := hfull hroom
      rw [herr] at hrun
      cases hrun
  · intro req' hrun
    obtain ⟨hok, hfull⟩ := matchIn_does calls m path segments req
    by_cases hroom : Node.Room req.config.maxParamCount (segments.map Prod.fst)
        ((build calls).trees m) req.params
    · rw [hok hroom] at hrun
      injection hrun with _ hrun
      rw [← hrun]
      exact Node.run_edits_eq_self_iff path segments _ req.params
    · obtain ⟨req'', herr⟩ := hfull hroom
      rw [herr] at hrun
      cases hrun

/-- One pattern that names two parameters alike. -/
def repeatedName : List (Call ℕ ℕ) := [⟨ascii "/:id/a/:id/b", .get, 1, []⟩]

/-- A request whose first segment was bound to `id`. -/
def boundRequest : Request := { params := (∅ : StringMap).insert (ascii "id") (ascii "1") }

/-- Below `/:id/a` the segment `c` leads nowhere, and trying it costs the outer `id`. -/
theorem search_drops_binding :
    ∃ req', Node.matchRecursive (ascii "/1/a/c") [(ascii "c", 5)]
        (((build repeatedName).trees .get).nodeAt [.param, .static (ascii "a")]) boundRequest =
          .ok none req' ∧ req'.params ≠ boundRequest.params := by
  have hrun : Act.yields (fun res req' => res.isNone && (req'.params.lookup (ascii "id")).isNone)
      (Node.matchRecursive (ascii "/1/a/c") [(ascii "c", 5)]
        (((build repeatedName).trees .get).nodeAt [.param, .static (ascii "a")]))
          boundRequest = true := by decide_cbv
  obtain ⟨res, req', hrun, htest⟩ := Act.yields_iff.mp hrun
  obtain ⟨hres, hid⟩ := Bool.and_eq_true_iff.mp htest
  obtain rfl : res = none := by simpa using hres
  refine ⟨req', hrun, fun heq => ?_⟩
  rw [heq] at hid
  exact absurd hid (by decide)

/-- From the root the same search leaves nothing behind. -/
theorem search_traceless_iff_sample :
    ∃ req', matchIn (build repeatedName) .get (ascii "/1/a/c")
        [(ascii "1", 1), (ascii "a", 3), (ascii "c", 5)] {} = .ok none req' ∧
      req'.params = ∅ := by
  have hrun : Act.gives none (matchIn (build repeatedName) .get (ascii "/1/a/c")
      [(ascii "1", 1), (ascii "a", 3), (ascii "c", 5)]) {} = true := by decide_cbv
  obtain ⟨req', hrun⟩ := Act.gives_iff.mp hrun
  have hnone : ((build repeatedName).trees .get).search [ascii "1", ascii "a", ascii "c"] =
      none := by decide_cbv
  refine ⟨req', hrun, ((search_traceless_iff repeatedName .get (ascii "/1/a/c") _ {}).2 req'
    hrun).mpr ⟨fun _ name _ => Finmap.notMem_empty, ?_⟩⟩
  intro p hp
  rw [show List.map Prod.fst [(ascii "1", 1), (ascii "a", 3), (ascii "c", 5)] =
    [ascii "1", ascii "a", ascii "c"] from rfl, hnone] at hp
  cases hp

end Router
end Dusty
