import Dusty.Client

/-! # The pool

What `acquire` takes out of the pool and what `release` puts into it, as the critical sections that
they are. -/

namespace Dusty

/-- The connection may be handed out at the time. -/
def ClientConnection.Fresh {L : Llhttp} (conn : ClientConnection L) (now : ℕ) : Prop :=
  ∀ deadline ∈ conn.idleDeadline, now < deadline

namespace ClientConnection

variable {L : Llhttp}

theorem fits_front {conn : ClientConnection L} (h : conn.inbound.reader.data.length ≤ conn.readBuffer) :
    0 + conn.inbound.reader.data.length ≤ conn.readBuffer := by
  rwa [Nat.zero_add]

/-- The connection behind a `reset`: the unread bytes are at the front of the buffer. -/
def renewed (conn : ClientConnection L) (h : conn.inbound.reader.data.length ≤ conn.readBuffer) :
    ClientConnection L :=
  { conn with
    closing := false
    inbound :=
      { conn.inbound with
        parser := .init { headers := .init conn.maxResponseHeaders }
        reader := { cap := conn.readBuffer, data := conn.inbound.reader.data, fits := fits_front h } } }

theorem reset_cases (conn : ClientConnection L) :
    (∃ h, reset conn = .ok () (conn.renewed h)) ∨ reset conn = .error (.panic .assertion) conn := by
  unfold reset
  rw [Act.bind_ok (Act.get_run conn)]
  split
  · next h => exact .inl ⟨h, rfl⟩
  · exact .inr rfl

theorem reset_eq_ok {conn fresh : ClientConnection L} (h : reset conn = .ok () fresh) :
    ∃ hfits, fresh = conn.renewed hfits := by
  rcases reset_cases conn with ⟨hfits, hreset⟩ | hreset
  · rw [hreset] at h
    cases h
    exact ⟨hfits, rfl⟩
  · rw [hreset] at h
    cases h

end ClientConnection

namespace ConnectionPool

variable {L : Llhttp}

/-! ### The search -/

theorem not_expired_iff {now : ℕ} {conn : ClientConnection L} :
    expired now conn = false ↔ conn.Fresh now := by
  unfold expired ClientConnection.Fresh
  cases conn.idleDeadline <;> simp

/-- What the loop of `acquire` finds, unlinks and leaves. -/
theorem search_spec (now : ℕ) (wanted : ClientConnection L → Bool) (l : List (ClientConnection L)) :
    match search now wanted l with
    | (some c, gone, kept) => ∃ pre post, l = pre ++ c :: post ∧ wanted c = true ∧
        expired now c = false ∧ (∀ d ∈ pre, wanted d = true → expired now d = true) ∧
        gone = pre.filter wanted ∧ kept = pre.filter (fun d => !wanted d) ++ post
    | (none, gone, kept) => (∀ d ∈ l, wanted d = true → expired now d = true) ∧
        gone = l.filter wanted ∧ kept = l.filter fun d => !wanted d := by
  induction l with
  | nil => simp [search]
  | cons c l ih =>
      unfold search
      rcases hsearch : search now wanted l with ⟨found, gone, kept⟩
      rw [hsearch] at ih
      by_cases hw : wanted c = true
      · rw [if_pos hw]
        by_cases he : expired now c = true
        · rw [if_pos he]
          cases found with
          | none =>
              obtain ⟨hall, rfl, rfl⟩ := ih
              exact ⟨by simpa [he] using hall, by simp [hw], by simp [hw]⟩
          | some d =>
              obtain ⟨pre, post, rfl, hwd, hed, hpre, rfl, rfl⟩ := ih
              exact ⟨c :: pre, post, rfl, hwd, hed, by simpa [he] using hpre, by simp [hw],
                by simp [hw]⟩
        · rw [if_neg he]
          exact ⟨[], l, rfl, hw, by simpa using he, by simp, rfl, rfl⟩
      · rw [if_neg hw]
        cases found with
        | none =>
            obtain ⟨hall, rfl, rfl⟩ := ih
            exact ⟨by simpa [hw] using hall, by simp [hw], by simp [hw]⟩
        | some d =>
            obtain ⟨pre, post, rfl, hwd, hed, hpre, rfl, rfl⟩ := ih
            exact ⟨c :: pre, post, rfl, hwd, hed, by simpa [hw] using hpre, by simp [hw],
              by simp [hw]⟩

/-- The loop of `acquire` neither loses nor copies a connection. -/
theorem search_perm (now : ℕ) (wanted : ClientConnection L → Bool) (l : List (ClientConnection L)) :
    ((search now wanted l).2.2 ++ ((search now wanted l).2.1 ++ (search now wanted l).1.toList)).Perm
      l := by
  have hspec := search_spec now wanted l
  have hparts : ∀ pre : List (ClientConnection L),
      (pre.filter (fun d => !wanted d) ++ pre.filter wanted).Perm pre := fun pre =>
    List.perm_append_comm.trans (List.filter_append_perm wanted pre)
  generalize search now wanted l = result at hspec ⊢
  rcases result with ⟨_ | c, gone, kept⟩
  · obtain ⟨-, rfl, rfl⟩ := hspec
    simpa using hparts l
  · obtain ⟨pre, post, rfl, -, -, -, rfl, rfl⟩ := hspec
    have hmove : (pre.filter (fun d => !wanted d) ++ post ++ (pre.filter wanted ++ [c])).Perm
        (pre.filter (fun d => !wanted d) ++ pre.filter wanted ++ c :: post) := by
      rw [List.append_assoc, List.append_assoc]
      refine List.Perm.append_left _ (List.perm_append_comm.trans ?_)
      rw [List.append_assoc]
      rfl
    exact hmove.trans ((hparts pre).append_right _)

theorem search_sublist (now : ℕ) (wanted : ClientConnection L → Bool)
    (l : List (ClientConnection L)) : List.Sublist (search now wanted l).2.2 l := by
  have hspec := search_spec now wanted l
  generalize search now wanted l = result at hspec ⊢
  rcases result with ⟨_ | c, gone, kept⟩
  · obtain ⟨-, rfl, rfl⟩ := hspec
    exact List.filter_sublist
  · obtain ⟨pre, post, rfl, -, -, -, rfl, rfl⟩ := hspec
    exact List.filter_sublist.append (List.sublist_cons_self c post)

/-- What was found is the first that may be handed out. -/
theorem search_eq_some {now : ℕ} {wanted : ClientConnection L → Bool}
    {l : List (ClientConnection L)} {c : ClientConnection L}
    (h : (search now wanted l).1 = some c) : ∃ pre post, l = pre ++ c :: post ∧ wanted c = true ∧
      expired now c = false ∧ ∀ d ∈ pre, wanted d = true → expired now d = true := by
  have hspec := search_spec now wanted l
  generalize search now wanted l = result at hspec h
  rcases result with ⟨_ | d, gone, kept⟩
  · cases h
  · obtain ⟨pre, post, hl, hw, he, hpre, -, -⟩ := hspec
    cases h
    exact ⟨pre, post, hl, hw, he, hpre⟩

/-! ### The critical sections -/

/-- The critical section of `acquire`: the connection found, and those unlinked as expired. -/
def take (self : ConnectionPool L) (now : ℕ) (wanted : ClientConnection L → Bool) :
    Option (ClientConnection L) × List (ClientConnection L) × ConnectionPool L :=
  let (found, gone, kept) := search now wanted self.idle.reverse
  (found, gone,
    { self with
      idle := kept.reverse
      idleLen := self.idleLen - (gone.length + found.toList.length) })

/-- The critical section of `release`: the connection evicted, if any. -/
def put (self : ConnectionPool L) (conn : ClientConnection L) :
    Option (ClientConnection L) × ConnectionPool L :=
  let (old, pool) :=
    if self.maxIdle ≤ self.idleLen then
      match self.idle with
      | [] => (none, self)
      | old :: rest => (some old, { self with idle := rest, idleLen := self.idleLen - 1 })
    else (none, self)
  (old, { pool with idle := pool.idle ++ [conn], idleLen := pool.idleLen + 1 })

/-- Undisturbed, `acquire` is its critical section and the closing of what expired. -/
theorem acquire_eq_take (self : ConnectionPool L) (now : ℕ) (wanted : ClientConnection L → Bool) :
    self.acquire now wanted =
      ((self.take now wanted).1, (self.take now wanted).2.1.foldl destroy (self.take now wanted).2.2) :=
  rfl

/-- Undisturbed, a release is its critical section and the closing of what was evicted. -/
theorem append_eq_put (self : ConnectionPool L) (conn : ClientConnection L) :
    self.append conn = (self.put conn).1.toList.foldl destroy (self.put conn).2 := by
  unfold append evict put
  by_cases hfull : self.maxIdle ≤ self.idleLen
  · rw [if_pos hfull, if_pos hfull]
    cases self.idle <;> rfl
  · rw [if_neg hfull, if_neg hfull]
    rfl

theorem put_room (self : ConnectionPool L) (conn : ClientConnection L)
    (hroom : self.idleLen < self.maxIdle) :
    self.put conn =
      (none, { self with idle := self.idle ++ [conn], idleLen := self.idleLen + 1 }) := by
  unfold put
  rw [if_neg (by omega)]

theorem put_full (self : ConnectionPool L) (conn : ClientConnection L) {old rest}
    (hfull : self.maxIdle ≤ self.idleLen) (hidle : self.idle = old :: rest) :
    self.put conn =
      (some old, { self with idle := rest ++ [conn], idleLen := self.idleLen - 1 + 1 }) := by
  unfold put
  rw [if_pos hfull, hidle]

/-! ### What is idle -/

/-- The closing of connections touches nothing else. -/
theorem foldl_destroy (gone : List (ClientConnection L)) (self : ConnectionPool L) :
    gone.foldl destroy self = { self with destroyed := self.destroyed ++ gone.map (·.id) } := by
  induction gone generalizing self with
  | nil => simp
  | cons conn gone ih =>
      rw [List.foldl_cons, ih]
      simp [destroy]

theorem mem_of_mem_acquire {self : ConnectionPool L} {now : ℕ} {wanted : ClientConnection L → Bool}
    {conn : ClientConnection L} (h : conn ∈ (self.acquire now wanted).2.idle) :
    conn ∈ self.idle := by
  rw [acquire_eq_take, foldl_destroy] at h
  have hmem := (search_sublist now wanted self.idle.reverse).subset (List.mem_reverse.mp h)
  exact List.mem_reverse.mp hmem

theorem acquire_enlisted (self : ConnectionPool L) (now : ℕ) (wanted : ClientConnection L → Bool) :
    (self.acquire now wanted).2.enlisted = self.enlisted := by
  rw [acquire_eq_take, foldl_destroy]
  rfl

/-- What is in the pool after a release was there or is what was released. -/
theorem mem_of_mem_append {self : ConnectionPool L} {conn fresh : ClientConnection L}
    (h : conn ∈ (self.append fresh).idle) : conn ∈ self.idle ∨ conn = fresh := by
  rw [append_eq_put, foldl_destroy] at h
  unfold put at h
  by_cases hfull : self.maxIdle ≤ self.idleLen
  · rw [if_pos hfull] at h
    cases hidle : self.idle with
    | nil =>
        rw [hidle] at h
        simpa [hidle] using h
    | cons old rest =>
        rw [hidle] at h
        rcases List.mem_append.mp h with h | h
        · exact .inl (List.mem_cons_of_mem _ h)
        · exact .inr (List.mem_singleton.mp h)
  · rw [if_neg hfull] at h
    simpa using h

theorem append_enlisted (self : ConnectionPool L) (conn : ClientConnection L) :
    (self.append conn).enlisted = self.enlisted := by
  rw [append_eq_put, foldl_destroy]
  unfold put
  by_cases hfull : self.maxIdle ≤ self.idleLen
  · rw [if_pos hfull]
    cases self.idle <;> rfl
  · rw [if_neg hfull]

end ConnectionPool
end Dusty
