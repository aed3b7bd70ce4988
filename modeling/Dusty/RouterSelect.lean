import Dusty.RouterTree

/-! # Which route a request gets

The backtracking search of `matchRecursive` computes `Seg.select` on the table the tree
stores, as long as the parameters of a path fit in `max_param_count`.  With what insertion
does to that table, `findHandler` is described by the list of `insertRoute` calls alone. -/

namespace Dusty

open Seg

namespace StringMap

theorem count_le_of_keys_subset {m m' : StringMap} (h : m.keys ⊆ m'.keys) : m.count ≤ m'.count :=
  Finset.card_le_card h

end StringMap

namespace Node

variable {H M : Type}

/-! ### The search of one tree -/

/-- The search `x` returns a node with the route `want`, or none, and touches only the
parameters; a failed search leaves no new name behind. -/
def Finds (x : Act Request (Option (Node H M))) (want : Option (Route H M)) (req : Request) :
    Prop :=
  ∃ res params, x req = .ok res (req.setParams params) ∧ res.bind route = want ∧
    (res.isSome → want.isSome) ∧ (res = none → params.keys ⊆ req.params.keys)

theorem finds_none (req : Request) :
    Finds (pure none : Act Request (Option (Node H M))) none req :=
  ⟨none, req.params, rfl, rfl, by simp, fun _ => Finset.Subset.refl _⟩

/-- Two searches, the second made when the first found nothing. -/
theorem Finds.orElse {x y : Act Request (Option (Node H M))} {a b : Option (Route H M)}
    {req : Request} (hx : Finds x a req)
    (hy : ∀ params : StringMap, params.keys ⊆ req.params.keys →
      Finds y b (req.setParams params)) :
    Finds (do match ← x with | some r => pure (some r) | none => y) (a.or b) req := by
  obtain ⟨res, params, hrun, rfl, hsome, hnone⟩ := hx
  cases res with
  | some n =>
      obtain ⟨r, hr⟩ := Option.isSome_iff_exists.mp (hsome rfl)
      refine ⟨some n, params, by rw [Act.bind_ok hrun]; rfl, ?_, fun _ => ?_, by simp⟩
      · rw [hr, Option.some_or]
      · rw [hr, Option.some_or, Option.isSome_some]
  | none =>
      obtain ⟨res', params', hrun', rfl, hsome', hnone'⟩ := hy params (hnone rfl)
      refine ⟨res', params', (Act.bind_ok hrun).trans hrun', by simp, by simpa using hsome', ?_⟩
      intro h
      exact (hnone' h).trans (hnone rfl)

section branches
variable {descend : Node H M → Act Request (Option (Node H M))}

theorem tryStatic_absent (segment : Bytes) :
    ∀ n : Node H M, findSibling segment n = null → tryStatic descend segment n = pure none
  | null, _ => rfl
  | mk s k name st pa wi nx rt, h => by
      simp only [findSibling] at h
      split at h
      · exact absurd h (by simp)
      · case isFalse hs =>
          rw [tryStatic, if_neg hs]
          exact tryStatic_absent segment nx h

/-- The siblings have different segments, so at most one is descended into. -/
theorem tryStatic_run (segment : Bytes) (req : Request) : ∀ n : Node H M, WF n →
    findSibling segment n ≠ null →
      tryStatic descend segment n req = descend (findSibling segment n) req
  | null, _, h => absurd rfl h
  | mk s k name st pa wi nx rt, hwf, h => by
      simp only [findSibling] at h ⊢
      rw [tryStatic]
      split at h
      · case isTrue hs =>
          have habsent : tryStatic descend segment nx = pure none :=
            tryStatic_absent segment nx (hs ▸ hwf.2.1)
          rw [if_pos hs, if_pos hs, habsent, Act.bind_run]
          cases descend (mk s k name st pa wi nx rt) req with
          | error => rfl
          | ok res req' => cases res <;> rfl
      · case isFalse hs =>
          rw [if_neg hs, if_neg hs]
          exact tryStatic_run segment req nx hwf.1.2.2.2 h

theorem checkParamCount_run {req : Request} (h : req.params.count < req.config.maxParamCount) :
    checkParamCount req = .ok () req := by
  simp [checkParamCount, Act.bind_run, Nat.not_le.mpr h]

theorem requireName_run {c : Node H M} {name : Bytes} (h : c.paramName = some name)
    (req : Request) : requireName c req = .ok name req := by
  simp [requireName, h]

theorem finds_tryParam {c : Node H M} {segment : Bytes} {want : Option (Route H M)}
    {req : Request} (hname : c ≠ null → c.paramName.isSome)
    (hroom : c ≠ null → req.params.count < req.config.maxParamCount)
    (hnull : c = null → want = none)
    (hdescend : ∀ name, c ≠ null →
      Finds (descend c) want (req.setParams (req.params.insert name segment))) :
    Finds (tryParam descend segment c) want req := by
  unfold tryParam
  by_cases hc : c = null
  · rw [if_pos (isNull_iff.mpr hc), hnull hc]
    exact finds_none req
  · rw [if_neg (by simpa [isNull_iff] using hc)]
    obtain ⟨name, hsome⟩ := Option.isSome_iff_exists.mp (hname hc)
    obtain ⟨res, params, hrun, hwant, himp, hkeys⟩ := hdescend name hc
    unfold Finds
    simp only [Act.bind_ok (checkParamCount_run (hroom hc)), Act.bind_ok (requireName_run hsome req),
      Act.bind_ok (Act.modify_run ..), Act.bind_ok hrun]
    cases res with
    | some n => exact ⟨some n, params, rfl, hwant, himp, by simp⟩
    | none =>
        refine ⟨none, params.erase name, rfl, hwant, by simp, fun _ => ?_⟩
        have hsub : params.keys ⊆ Insert.insert name req.params.keys := by
          simpa [StringMap.keys_insert] using hkeys rfl
        rw [Finmap.keys_erase]
        exact (Finset.erase_subset_erase name hsub).trans (Finset.erase_insert_subset ..)

theorem finds_tryWildcard {c : Node H M} {remaining : Bytes} {req : Request}
    (hname : c ≠ null → c.paramName.isSome ∧ c.route.isSome)
    (hroom : c ≠ null → req.params.count < req.config.maxParamCount) :
    Finds (tryWildcard remaining c) c.route req := by
  unfold tryWildcard
  by_cases hc : c = null
  · rw [if_pos (isNull_iff.mpr hc), hc]
    exact finds_none req
  · rw [if_neg (by simpa [isNull_iff] using hc)]
    obtain ⟨name, hsome⟩ := Option.isSome_iff_exists.mp (hname hc).1
    unfold Finds
    simp only [Act.bind_ok (checkParamCount_run (hroom hc)), Act.bind_ok (requireName_run hsome req),
      Act.bind_ok (Act.modify_run ..)]
    exact ⟨some c, req.params.insert name remaining, rfl, rfl, fun _ => (hname hc).2, by simp⟩

end branches

theorem dynDepth_staticChild (n : Node H M) (a : Bytes) :
    (n.child (.static a)).dynDepth ≤ n.dynDepth := by
  cases n with
  | null => simp [child, staticChildren, findSibling]
  | mk s k name st pa wi nx rt =>
      have := dynDepth_findSibling a st
      simp only [child, staticChildren, dynDepth]
      omega

theorem dynDepth_paramChild {n : Node H M} (h : n.paramChild ≠ null) :
    n.paramChild.dynDepth < n.dynDepth := by
  cases n with
  | null => exact absurd rfl h
  | mk s k name st pa wi nx rt =>
      simp only [paramChild, dynDepth] at h ⊢
      rw [isNull_false_iff.mpr h]
      simp

theorem dynDepth_wildcardChild {n : Node H M} (h : n.wildcardChild ≠ null) : 0 < n.dynDepth := by
  cases n with
  | null => exact absurd rfl h
  | mk s k name st pa wi nx rt =>
      simp only [wildcardChild, dynDepth] at h ⊢
      rw [isNull_false_iff.mpr h]
      simp

theorem WF.paramName {n : Node H M} (h : WF n) (hc : n.paramChild ≠ null) :
    n.paramChild.paramName.isSome := by
  cases n with
  | null => exact absurd rfl hc
  | mk => exact h.2.2.1 hc

theorem WF.wildcard {n : Node H M} (h : WF n) (hc : n.wildcardChild ≠ null) :
    n.wildcardChild.paramName.isSome ∧ n.wildcardChild.route.isSome := by
  cases n with
  | null => exact absurd rfl hc
  | mk => exact h.2.2.2 hc

/-- **The backtracking search computes `select`** on the table of the tree. -/
theorem matchRecursive_finds (path : Bytes) : ∀ (segments : List (Bytes × ℕ)) (node : Node H M)
    (req : Request), WF node → req.params.count + node.dynDepth ≤ req.config.maxParamCount →
      Finds (matchRecursive path segments node)
        (select (fun p => lookup p node) (segments.map Prod.fst)) req
  | [], node, req, _, _ => by
      refine ⟨if node.route.isNone then none else some node, req.params, rfl, ?_, ?_, fun _ => ?_⟩
      · cases h : node.route <;> simp [select, lookup, h]
      · cases h : node.route <;> simp [select, lookup, h]
      · exact Finset.Subset.refl _
  | (segment, offset) :: rest, node, req, hwf, hroom => by
      rw [matchRecursive, List.map_cons, select]
      have ih := matchRecursive_finds path rest
      refine Finds.orElse ?_ fun params hparams => Finds.orElse ?_ fun params' hparams' => ?_
      · -- static children
        have hdepth := dynDepth_staticChild node segment
        have hchild := ih (node.child (.static segment)) req (hwf.child _) (by omega)
        by_cases hc : node.child (.static segment) = null
        · rw [tryStatic_absent segment _ hc]
          simpa [lookup, hc, select_none] using finds_none (H := H) (M := M) req
        · have hst : WF node.staticChildren := by
            cases node with
            | null => trivial
            | mk => exact hwf.1.1
          unfold Finds
          rw [tryStatic_run segment req _ hst hc]
          exact hchild
      · -- parameter child
        have hcount := StringMap.count_le_of_keys_subset hparams
        refine finds_tryParam hwf.paramName (fun hc => ?_) (fun hc => ?_) fun name hc => ?_
        · have := dynDepth_paramChild hc
          simp only [Request.setParams_params, Request.setParams_config]
          omega
        · show select (fun p => lookup p node.paramChild) _ = none
          simp [hc, select_none]
        · have hdepth := dynDepth_paramChild hc
          have hinsert := StringMap.count_insert_le params name segment
          refine ih node.paramChild _ (hwf.child .param) ?_
          simp only [Request.setParams_params, Request.setParams_config]
          omega
      · -- wildcard child
        have hcount := StringMap.count_le_of_keys_subset (hparams'.trans hparams)
        refine finds_tryWildcard hwf.wildcard fun hc => ?_
        have := dynDepth_wildcardChild hc
        simp only [Request.setParams_params, Request.setParams_config]
        omega

end Node

/-! ### The table a sequence of registrations builds -/

/-- One `insertRoute` call. -/
structure Call (H M : Type) where
  path : Bytes
  method : Method
  handler : H
  middlewares : List M

namespace Call

variable {H M : Type}

def route (c : Call H M) : Route H M := ⟨c.handler, c.middlewares⟩

/-- The pattern a call registers. -/
def pattern (c : Call H M) : List (Seg Bytes) := shape (pathSegments c.path)

/-- The call registers `p` for `m`. -/
def registers (m : Method) (p : List (Seg Bytes)) (c : Call H M) : Bool :=
  decide (c.method = m ∧ c.pattern = p)

/-- The call's pattern is one of method `m` that matches the segments. -/
def applies (m : Method) (segments : List Bytes) (c : Call H M) : Bool :=
  decide (c.method = m) && Matches c.pattern segments

end Call

namespace Router

variable {H M : Type}

/-- The router after a sequence of `insertRoute` calls. -/
def build (calls : List (Call H M)) : Router H M :=
  calls.foldl (fun self c => self.insertRoute c.path c.method c.handler c.middlewares) init

/-- The route of the last call that registers `p` for `m`. -/
def registered (calls : List (Call H M)) (m : Method) (p : List (Seg Bytes)) :
    Option (Route H M) :=
  ((calls.filter (Call.registers m p)).getLast?).map Call.route

/-- The method whose table answers a request: `GET` for a `HEAD` request no `HEAD` pattern
matches. -/
def tableFor (calls : List (Call H M)) (m : Method) (segments : List Bytes) : Method :=
  if m = .head ∧ calls.any (Call.applies .head segments) = false then .get else m

/-- The URL before the first `?`. -/
def urlPath (req : Request) : Bytes := req.url.bytes.takeWhile (· ≠ 63)

/-- `r` is the route of the matching pattern of least precedence, as registered last. -/
def IsAnswer (calls : List (Call H M)) (m : Method) (segments : List Bytes) (r : Route H M) :
    Prop :=
  ∃ pre c post, calls = pre ++ c :: post ∧ r = c.route ∧ c.applies m segments = true ∧
    (∀ d ∈ calls, d.applies m segments = true → ranks c.pattern ≤ ranks d.pattern) ∧
    ∀ d ∈ post, d.method = m → d.pattern ≠ c.pattern

/-- Two sequences that register the patterns of each method and shape in the same order. -/
def SameUpToShapes (calls calls' : List (Call H M)) : Prop :=
  ∀ m p, calls.filter (Call.registers m p) = calls'.filter (Call.registers m p)

@[simp] theorem build_nil : (build [] : Router H M) = init := rfl

theorem build_concat (calls : List (Call H M)) (c : Call H M) :
    build (calls ++ [c]) =
      (build calls).insertRoute c.path c.method c.handler c.middlewares := by
  simp [build]

theorem rootFor_ne_null (self : Router H M) (m : Method) : self.rootFor m ≠ .null := by
  unfold rootFor
  split
  · exact Node.leaf_ne_null _ _ _
  · case isFalse h => exact Node.isNull_false_iff.mp (by simpa using h)

theorem lookup_rootFor (self : Router H M) (m : Method) (p : List (Seg Bytes)) :
    (self.rootFor m).lookup p = (self.trees m).lookup p := by
  unfold rootFor
  split
  · case isTrue h => rw [Node.isNull_iff.mp h, Node.lookup_leaf, Node.lookup_null]
  · rfl

theorem wf_rootFor {self : Router H M} {m : Method} (h : (self.trees m).WF) :
    (self.rootFor m).WF := by
  unfold rootFor
  split
  · exact Node.wf_leaf ..
  · exact h

theorem dynDepth_rootFor (self : Router H M) (m : Method) :
    (self.rootFor m).dynDepth ≤ (self.trees m).dynDepth := by
  unfold rootFor
  split
  · simp [Node.leaf, Node.dynDepth, Node.isNull]
  · exact le_rfl

theorem registered_concat (calls : List (Call H M)) (c : Call H M) (m : Method)
    (p : List (Seg Bytes)) :
    registered (calls ++ [c]) m p =
      if c.method = m ∧ c.pattern = p then some c.route else registered calls m p := by
  unfold registered
  rw [List.filter_append]
  by_cases h : c.method = m ∧ c.pattern = p
  · have hc : c.registers m p = true := by simpa [Call.registers] using h
    simp [hc, h]
  · have hc : c.registers m p = false := by simpa [Call.registers] using h
    simp [hc, h]

/-- The table of a method holds what the last call for each pattern registered. -/
theorem lookup_build (calls : List (Call H M)) (m : Method) (p : List (Seg Bytes)) :
    ((build calls).trees m).lookup p = registered calls m p := by
  induction calls using List.reverseRecOn with
  | nil => simp [init, registered]
  | append_singleton calls c ih =>
      rw [build_concat, registered_concat]
      simp only [insertRoute]
      by_cases hm : m = c.method
      · subst hm
        rw [if_pos rfl, Node.lookup_insert _ _ (rootFor_ne_null _ _), lookup_rootFor, ih]
        by_cases hp : p = c.pattern
        · subst hp
          simp [Call.pattern, Call.route]
        · have hp' : p ≠ shape (pathSegments c.path) := hp
          simp [hp', Ne.symm hp]
      · rw [if_neg hm, ih, if_neg fun h => hm h.1.symm]

theorem wf_build {calls : List (Call H M)} (h : ∀ c ∈ calls, WildcardLast (pathSegments c.path))
    (m : Method) : ((build calls).trees m).WF := by
  induction calls using List.reverseRecOn with
  | nil => trivial
  | append_singleton calls c ih =>
      have ih := ih fun d hd => h d (by simp [hd])
      rw [build_concat]
      simp only [insertRoute]
      by_cases hm : m = c.method
      · subst hm
        rw [if_pos rfl]
        exact Node.wf_insert _ _ (wf_rootFor ih) (h c (by simp))
      · rw [if_neg hm]
        exact ih

theorem dynDepth_build {calls : List (Call H M)} {bound : ℕ}
    (h : ∀ c ∈ calls, dynCount (pathSegments c.path) ≤ bound) (m : Method) :
    ((build calls).trees m).dynDepth ≤ bound := by
  induction calls using List.reverseRecOn with
  | nil => exact Nat.zero_le _
  | append_singleton calls c ih =>
      have ih := ih fun d hd => h d (by simp [hd])
      have hc := h c (by simp)
      rw [build_concat]
      simp only [insertRoute]
      by_cases hm : m = c.method
      · subst hm
        rw [if_pos rfl]
        refine (Node.dynDepth_insert _ _ _).trans ?_
        have := dynDepth_rootFor (build calls) c.method
        omega
      · rw [if_neg hm]
        exact ih

/-! ### What is selected -/

theorem exists_of_registered {calls : List (Call H M)} {m : Method} {p : List (Seg Bytes)}
    {r : Route H M} (h : registered calls m p = some r) :
    ∃ pre c post, calls = pre ++ c :: post ∧ r = c.route ∧ c.method = m ∧ c.pattern = p ∧
      ∀ d ∈ post, d.method = m → d.pattern ≠ p := by
  induction calls using List.reverseRecOn with
  | nil => simp [registered] at h
  | append_singleton calls c ih =>
      rw [registered_concat] at h
      by_cases hc : c.method = m ∧ c.pattern = p
      · rw [if_pos hc] at h
        exact ⟨calls, c, [], rfl, by simpa using h.symm, hc.1, hc.2, by simp⟩
      · rw [if_neg hc] at h
        obtain ⟨pre, d, post, rfl, hr, hm, hp, hpost⟩ := ih h
        refine ⟨pre, d, post ++ [c], by simp, hr, hm, hp, ?_⟩
        intro e he hem hep
        rcases List.mem_append.mp he with he | he
        · exact hpost e he hem hep
        · obtain rfl : e = c := by simpa using he
          exact hc ⟨hem, hep⟩

theorem registered_ne_none {calls : List (Call H M)} {c : Call H M} (hc : c ∈ calls) :
    registered calls c.method c.pattern ≠ none := by
  have hmem : c ∈ calls.filter (Call.registers c.method c.pattern) := by
    simp [hc, Call.registers]
  unfold registered
  intro h
  rw [Option.map_eq_none_iff, List.getLast?_eq_none_iff] at h
  rw [h] at hmem
  exact absurd hmem (by simp)

theorem select_registered_eq_none (calls : List (Call H M)) (m : Method) (segments : List Bytes) :
    select (registered calls m) segments = none ↔ calls.any (Call.applies m segments) = false := by
  rw [select_eq_none, List.any_eq_false]
  constructor
  · intro h c hc happ
    obtain ⟨rfl, hmatch⟩ : c.method = m ∧ Matches c.pattern segments = true := by
      simpa [Call.applies] using happ
    exact registered_ne_none hc (h c.pattern hmatch)
  · intro h p hp
    by_contra hne
    obtain ⟨r, hr⟩ := Option.ne_none_iff_exists'.mp hne
    obtain ⟨pre, c, post, rfl, -, hm, rfl, -⟩ := exists_of_registered hr
    exact h c (by simp) (by simp [Call.applies, hm, hp])

theorem select_registered_eq_some {calls : List (Call H M)} {m : Method} {segments : List Bytes}
    {r : Route H M} (h : select (registered calls m) segments = some r) :
    IsAnswer calls m segments r := by
  obtain ⟨p, hp, hmatch, -, hleast⟩ := select_eq_some h
  obtain ⟨pre, c, post, rfl, hr, hm, rfl, hpost⟩ := exists_of_registered hp
  refine ⟨pre, c, post, rfl, hr, by simp [Call.applies, hm, hmatch], ?_, hpost⟩
  intro d hd happ
  obtain ⟨rfl, hmatch'⟩ : d.method = m ∧ Matches d.pattern segments = true := by
    simpa [Call.applies] using happ
  exact hleast d.pattern hmatch' (registered_ne_none hd)

/-! ### The whole lookup -/

theorem urlUnescape_ok {σ : Type} {input out : Bytes} {s s' : σ}
    (h : Request.urlUnescape input s = .ok out s') : s' = s := by
  unfold Request.urlUnescape at h
  cases hm : Request.measureEscapes input with
  | none => simp [hm] at h
  | some m =>
      simp only [hm] at h
      split at h
      · injection h with _ h
        exact h.symm
      · cases hf : Request.fillUnescaped m.2 input with
        | none => simp [hf] at h
        | some o =>
            simp only [hf] at h
            injection h with _ h
            exact h.symm

theorem putAssumeCapacity_ok {reserved : ℕ} {m m' : StringMap} {key value : Bytes}
    {req req' : Request} (h : Request.putAssumeCapacity reserved m key value req = .ok m' req') :
    req' = req := by
  unfold Request.putAssumeCapacity at h
  split at h
  · injection h with _ h
    exact h.symm
  · simp at h

theorem parsePair_ok {pair : Bytes} {kv : Bytes × Bytes} {req req' : Request}
    (h : Request.parsePair pair req = .ok kv req') : req' = req := by
  unfold Request.parsePair at h
  cases hi : indexOfScalar pair 61 with
  | some sep =>
      simp only [hi] at h
      obtain ⟨key, s₁, h₁, h⟩ := Act.bind_eq_ok.mp h
      obtain ⟨value, s₂, h₂, h⟩ := Act.bind_eq_ok.mp h
      injection h with _ h
      rw [← h, urlUnescape_ok h₂, urlUnescape_ok h₁]
  | none =>
      simp only [hi] at h
      obtain ⟨key, s₁, h₁, h⟩ := Act.bind_eq_ok.mp h
      injection h with _ h
      rw [← h, urlUnescape_ok h₁]

theorem parsePairs_ok (reserved : ℕ) : ∀ (pairs : List Bytes) {req req' : Request},
    Request.parsePairs reserved pairs req = .ok () req' → req' = req.setQuery req'.query
  | [], req, req', h => by
      obtain rfl : req = req' := by simpa [Request.parsePairs] using h
      rfl
  | pair :: rest, req, req', h => by
      rw [Request.parsePairs] at h
      split at h
      · exact parsePairs_ok reserved rest h
      · obtain ⟨r, s₁, hget, h⟩ := Act.bind_eq_ok.mp h
        obtain ⟨rfl, rfl⟩ : req = r ∧ req = s₁ := by simpa using hget
        split at h
        · simp at h
        · obtain ⟨kv, s₂, hpair, h₂⟩ := Act.bind_eq_ok.mp h
          obtain ⟨query, s₃, hput, h₃⟩ := Act.bind_eq_ok.mp h₂
          obtain ⟨u, s₄, hmod, h₄⟩ := Act.bind_eq_ok.mp h₃
          obtain rfl : s₃.setQuery query = s₄ := by simpa using hmod
          rw [parsePairs_ok reserved rest h₄, putAssumeCapacity_ok hput, parsePair_ok hpair]
          rfl

theorem parseQueryString_ok {queryString : Bytes} {req req' : Request}
    (h : Request.parseQueryString queryString req = .ok () req') :
    req' = req.setQuery req'.query := by
  unfold Request.parseQueryString at h
  split at h
  · obtain rfl : req = req' := by simpa using h
    rfl
  · obtain ⟨r, s₁, hget, h⟩ := Act.bind_eq_ok.mp h
    obtain ⟨rfl, rfl⟩ : req = r ∧ req = s₁ := by simpa using hget
    obtain ⟨u, s₂, hassert, h⟩ := Act.bind_eq_ok.mp h
    rw [Act.assert_run] at hassert
    split at hassert
    · obtain rfl : req = s₂ := by simpa using hassert
      exact parsePairs_ok _ _ h
    · simp at hassert

theorem take_indexOfScalar (s : Bytes) (b : UInt8) :
    (match indexOfScalar s b with | some i => s.take i | none => s) = s.takeWhile (· ≠ b) := by
  unfold indexOfScalar
  induction s with
  | nil => rfl
  | cons a s ih =>
      rw [List.findIdx?_cons]
      by_cases h : a = b
      · simp [h]
      · have hb : (a == b) = false := by simpa using h
        rw [List.takeWhile_cons_of_pos (by simpa using h), ← ih, hb]
        cases List.findIdx? (fun x => x == b) s <;> simp

/-- The path of a request whose query string parses. -/
theorem splitUrl_ok {req req' : Request} {path : Bytes} (h : splitUrl req = .ok path req') :
    path = urlPath req ∧ req' = req.setQuery req'.query := by
  have hpath := take_indexOfScalar req.url.bytes 63
  unfold splitUrl at h
  obtain ⟨u, s₁, hmod, h⟩ := Act.bind_eq_ok.mp h
  obtain rfl : req.setQuery ∅ = s₁ := by simpa using hmod
  obtain ⟨r, s₂, hget, h⟩ := Act.bind_eq_ok.mp h
  obtain ⟨rfl, rfl⟩ : req.setQuery ∅ = r ∧ req.setQuery ∅ = s₂ := by simpa using hget
  cases hi : indexOfScalar req.url.bytes 63 with
  | some i =>
      have hi' : indexOfScalar (req.setQuery ∅).url.bytes 63 = some i := hi
      simp only [hi'] at h
      obtain ⟨u, s₃, hparse, h⟩ := Act.bind_eq_ok.mp h
      injection h with hp hs
      subst hs hp
      rw [hi] at hpath
      have hquery := parseQueryString_ok hparse
      exact ⟨hpath, hquery⟩
  | none =>
      have hi' : indexOfScalar (req.setQuery ∅).url.bytes 63 = none := hi
      simp only [hi'] at h
      injection h with hp hs
      subst hs hp
      rw [hi] at hpath
      exact ⟨hpath, rfl⟩

theorem segmentsFrom_fst (offset : ℕ) (pieces : List Bytes) :
    (segmentsFrom offset pieces).map Prod.fst = pieces.filter fun s => s.length ≠ 0 := by
  induction pieces generalizing offset with
  | nil => rfl
  | cons piece rest ih =>
      rw [segmentsFrom]
      by_cases h : piece.length > 0
      · have hne : piece.length ≠ 0 := by omega
        rw [if_pos h, List.map_cons, ih, List.filter_cons_of_pos (by simpa using hne)]
      · have he : piece.length = 0 := by omega
        rw [if_neg h, ih, List.filter_cons_of_neg (by simpa using he)]

theorem matchIn_run {calls : List (Call H M)} {req : Request} (m : Method) (path : Bytes)
    (hlast : ∀ c ∈ calls, WildcardLast (pathSegments c.path))
    (hmax : ∀ c ∈ calls, dynCount (pathSegments c.path) ≤ req.config.maxParamCount)
    (hcount : req.params.count = 0) :
    ∃ params, matchIn (build calls) m path (segmentsFrom 0 (splitScalar path 47)) req =
        .ok (select (registered calls m) (pathSegments path)) (req.setParams params) ∧
      (select (registered calls m) (pathSegments path) = none → params.count = 0) := by
  have hselect : select (fun p => Node.lookup p ((build calls).trees m)) (pathSegments path) =
      select (registered calls m) (pathSegments path) := by
    congr 1
    funext p
    exact lookup_build calls m p
  unfold matchIn
  by_cases hnull : (build calls).trees m = .null
  · rw [if_pos (Node.isNull_iff.mpr hnull)]
    rw [hnull] at hselect
    simp only [Node.lookup_null, select_none] at hselect
    refine ⟨req.params, ?_, fun _ => hcount⟩
    rw [← hselect]
    rfl
  · rw [if_neg (by simpa [Node.isNull_iff] using hnull)]
    have hdepth := dynDepth_build hmax m
    obtain ⟨res, params, hrun, hres, hsome, hkeys⟩ := Node.matchRecursive_finds path
      (segmentsFrom 0 (splitScalar path 47)) ((build calls).trees m) req (wf_build hlast m)
      (by omega)
    have hsegs : (segmentsFrom 0 (splitScalar path 47)).map Prod.fst = pathSegments path :=
      segmentsFrom_fst 0 _
    rw [hsegs, hselect] at hres hsome
    refine ⟨params, ?_, fun hnone => ?_⟩
    · rw [Act.bind_ok hrun, ← hres]
      cases res <;> rfl
    · have hres' : res = none := by
        cases res with
        | none => rfl
        | some n => simp [hnone] at hsome
      have := StringMap.count_le_of_keys_subset (hkeys hres')
      omega

theorem tableFor_of_some {calls : List (Call H M)} {m : Method} {segments : List Bytes}
    {r : Route H M} (h : select (registered calls m) segments = some r) :
    tableFor calls m segments = m := by
  unfold tableFor
  by_cases hm : m = .head
  · subst hm
    have hany : calls.any (Call.applies .head segments) ≠ false := by
      rw [Ne, ← select_registered_eq_none, h]
      simp
    rw [if_neg fun hc => hany hc.2]
  · rw [if_neg fun hc => hm hc.1]

theorem tableFor_head {calls : List (Call H M)} {segments : List Bytes}
    (h : select (registered calls .head) segments = none) :
    tableFor calls .head segments = .get := by
  unfold tableFor
  rw [if_pos ⟨rfl, (select_registered_eq_none ..).mp h⟩]

theorem tableFor_ne_head (calls : List (Call H M)) {m : Method} (segments : List Bytes)
    (h : m ≠ .head) : tableFor calls m segments = m := by
  unfold tableFor
  rw [if_neg fun hc => h hc.1]

/-- `findHandler` consults the table of the request's method, or that of `GET`. -/
theorem findHandler_run {calls : List (Call H M)} {req : Request}
    (hlast : ∀ c ∈ calls, WildcardLast (pathSegments c.path)) (hparams : req.params = ∅)
    (hmax : ∀ c ∈ calls, dynCount (pathSegments c.path) ≤ req.config.maxParamCount)
    (hquery : ∃ path req', splitUrl req = .ok path req') :
    ∃ req', findHandler (build calls) req =
      .ok (select (registered calls (tableFor calls req.method (pathSegments (urlPath req))))
        (pathSegments (urlPath req))) req' := by
  obtain ⟨path, req₁, hsplit⟩ := hquery
  obtain ⟨rfl, hreq₁⟩ := splitUrl_ok hsplit
  have hmethod : req₁.method = req.method := by rw [hreq₁]; rfl
  have hconfig : req₁.config = req.config := by rw [hreq₁]; rfl
  have hcount : req₁.params.count = 0 := by
    have : req₁.params = ∅ := by rw [hreq₁]; exact hparams
    rw [this]
    rfl
  rw [← hconfig] at hmax
  obtain ⟨params, hrun, hempty⟩ := matchIn_run req.method (urlPath req) hlast hmax hcount
  unfold findHandler
  rw [Act.bind_ok hsplit, Act.bind_ok (Act.get_run req₁), hmethod, Act.bind_ok hrun]
  cases hsel : select (registered calls req.method) (pathSegments (urlPath req)) with
  | some r =>
      rw [tableFor_of_some hsel, hsel]
      exact ⟨_, rfl⟩
  | none =>
      by_cases hhead : req.method = .head
      · have hmax' : ∀ c ∈ calls, dynCount (pathSegments c.path) ≤
            (req₁.setParams params).config.maxParamCount := hmax
        obtain ⟨params', hrun', -⟩ := matchIn_run .get (urlPath req) hlast hmax' (hempty hsel)
        rw [hhead] at hsel ⊢
        rw [tableFor_head hsel]
        exact ⟨_, hrun'⟩
      · rw [tableFor_ne_head calls _ hhead, hsel]
        simp only [if_neg hhead]
        exact ⟨_, rfl⟩

theorem SameUpToShapes.registered_eq {calls calls' : List (Call H M)}
    (h : SameUpToShapes calls calls') (m : Method) : registered calls m = registered calls' m := by
  funext p
  unfold registered
  rw [h m p]

theorem SameUpToShapes.mem {calls calls' : List (Call H M)} (h : SameUpToShapes calls calls')
    {c : Call H M} (hc : c ∈ calls') : c ∈ calls := by
  have hmem : c ∈ calls'.filter (Call.registers c.method c.pattern) := by
    simp [hc, Call.registers]
  rw [← h] at hmem
  exact List.mem_of_mem_filter hmem

theorem SameUpToShapes.tableFor_eq {calls calls' : List (Call H M)}
    (h : SameUpToShapes calls calls') (m : Method) (segments : List Bytes) :
    tableFor calls m segments = tableFor calls' m segments := by
  have hany : calls.any (Call.applies .head segments) = false ↔
      calls'.any (Call.applies .head segments) = false := by
    rw [← select_registered_eq_none, ← select_registered_eq_none, h.registered_eq]
  unfold tableFor
  by_cases hc : m = .head ∧ calls.any (Call.applies .head segments) = false
  · rw [if_pos hc, if_pos ⟨hc.1, hany.mp hc.2⟩]
  · rw [if_neg hc, if_neg fun hc' => hc ⟨hc'.1, hany.mpr hc'.2⟩]

/-- **Route selection.**  The lookup returns no route exactly when no pattern of the table
consulted matches, and otherwise the route of the least matching pattern as registered last;
the order of registrations of different patterns plays no part. -/
theorem findHandler_selects {calls : List (Call H M)} {req : Request}
    (hlast : ∀ c ∈ calls, WildcardLast (pathSegments c.path)) (hparams : req.params = ∅)
    (hmax : ∀ c ∈ calls, dynCount (pathSegments c.path) ≤ req.config.maxParamCount)
    (hquery : ∃ path req', splitUrl req = .ok path req') :
    ∃ res req', findHandler (build calls) req = .ok res req' ∧
      (res = none ↔ calls.any
        (Call.applies (tableFor calls req.method (pathSegments (urlPath req)))
          (pathSegments (urlPath req))) = false) ∧
      (∀ r, res = some r →
        IsAnswer calls (tableFor calls req.method (pathSegments (urlPath req)))
          (pathSegments (urlPath req)) r) ∧
      ∀ calls', SameUpToShapes calls calls' →
        ∃ req'', findHandler (build calls') req = .ok res req'' := by
  obtain ⟨req', hrun⟩ := findHandler_run hlast hparams hmax hquery
  refine ⟨_, req', hrun, select_registered_eq_none .., fun r => select_registered_eq_some, ?_⟩
  intro calls' hsame
  obtain ⟨req'', hrun'⟩ := findHandler_run (fun c hc => hlast c (hsame.mem hc)) hparams
    (fun c hc => hmax c (hsame.mem hc)) hquery
  rw [← hsame.tableFor_eq, ← hsame.registered_eq] at hrun'
  exact ⟨req'', hrun'⟩

/-- Three overlapping `GET` patterns. -/
def sampleCalls : List (Call ℕ ℕ) :=
  [⟨ascii "/users/*rest", .get, 1, []⟩, ⟨ascii "/users/:id", .get, 2, []⟩,
    ⟨ascii "/users/me", .get, 3, []⟩]

/-- A `HEAD` request, for which no pattern of its own is registered. -/
def sampleRequest : Request :=
  { method := .head, url := ⟨0, ascii "/users/me?tab=1"⟩ }

theorem findHandler_selects_sample : ∃ r req',
    findHandler (build sampleCalls) sampleRequest = .ok (some r) req' ∧
      IsAnswer sampleCalls .get [ascii "users", ascii "me"] r := by
  have hpath : pathSegments (urlPath sampleRequest) = [ascii "users", ascii "me"] := by decide
  have htable : tableFor sampleCalls sampleRequest.method
      (pathSegments (urlPath sampleRequest)) = .get := by decide
  have hlast : ∀ c ∈ sampleCalls, WildcardLast (pathSegments c.path) := by decide
  have hmax : ∀ c ∈ sampleCalls,
      dynCount (pathSegments c.path) ≤ sampleRequest.config.maxParamCount := by decide
  have hquery : Act.returns splitUrl sampleRequest = true := by decide +kernel
  obtain ⟨res, req', hrun, hnone, hsome, -⟩ :=
    findHandler_selects hlast rfl hmax (Act.returns_iff.mp hquery)
  rw [htable, hpath] at hnone hsome
  cases res with
  | none => exact absurd (hnone.mp rfl) (by decide)
  | some r => exact ⟨r, req', hrun, hsome r rfl⟩

end Router
end Dusty