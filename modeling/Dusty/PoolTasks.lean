import Dusty.Http1
import Dusty.Pool

/-! # Tasks that share the pool

`ConnectionPool.acquire` and `release` in steps: what a task does between two locks touches only
what it holds, and each critical section is one step.  Any number of tasks take their steps in
any order.  The invariant says where every connection is, and in which order the idle ones were
released. -/

namespace Dusty

/-! ### Tasks -/

/-- Where a task is in a call of the pool. -/
inductive Doing (L : Llhttp) where
  | ready
  /-- `acquire` has read the clock and waits for the lock. -/
  | acquiring (e : Endpoint) (now : ℕ)
  /-- `release` was called. -/
  | releasing (conn : ClientConnection L)
  /-- `release` has reset the connection and waits for the lock. -/
  | pooling (conn fresh : ClientConnection L)
  /-- The lock is dropped; these connections are left to close before the call returns. -/
  | closing (gone : List (ClientConnection L)) (result : Option (ClientConnection L))

structure PoolTask (L : Llhttp) where
  held : List (ClientConnection L) := []
  doing : Doing L := .ready

/-- The connections a call has in hand. -/
def Doing.conns {L : Llhttp} : Doing L → List (ClientConnection L)
  | .ready => []
  | .acquiring .. => []
  | .releasing conn => [conn]
  | .pooling _ fresh => [fresh]
  | .closing gone result => gone ++ result.toList

/-- The connections a task holds. -/
def PoolTask.conns {L : Llhttp} (t : PoolTask L) : List (ClientConnection L) :=
  t.held ++ t.doing.conns

/-- What the tasks share: the pool, and how many connections there were so far. -/
structure SharedPool (L : Llhttp) where
  pool : ConnectionPool L
  created : ℕ := 0

/-- What a step does inside the lock, if anything. -/
inductive PoolEvent (L : Llhttp) where
  | unlocked
  | took (e : Endpoint) (now : ℕ) (found : Option (ClientConnection L))
  | put (fresh : ClientConnection L) (old : Option (ClientConnection L))

open ConnectionPool in
/-- One step of one task. -/
inductive TaskStep {L : Llhttp} :
    SharedPool L → PoolTask L → PoolEvent L → SharedPool L → PoolTask L → Prop
  | create (s held conn) (hid : conn.id = s.created) :
      TaskStep s ⟨held, .ready⟩ .unlocked { s with created := s.created + 1 } ⟨conn :: held, .ready⟩
  | use (s pre conn conn' post) (hid : conn'.id = conn.id) :
      TaskStep s ⟨pre ++ conn :: post, .ready⟩ .unlocked s ⟨pre ++ conn' :: post, .ready⟩
  | discard (s pre conn post) :
      TaskStep s ⟨pre ++ conn :: post, .ready⟩ .unlocked s ⟨pre ++ post, .closing [conn] none⟩
  | acquire (s held e now) :
      TaskStep s ⟨held, .ready⟩ .unlocked s ⟨held, .acquiring e now⟩
  | take (s held e now) :
      TaskStep s ⟨held, .acquiring e now⟩ (.took e now (s.pool.take now (·.serves e)).1)
        { s with pool := (s.pool.take now (·.serves e)).2.2 }
        ⟨held, .closing (s.pool.take now (·.serves e)).2.1 (s.pool.take now (·.serves e)).1⟩
  | release (s pre conn post) :
      TaskStep s ⟨pre ++ conn :: post, .ready⟩ .unlocked s ⟨pre ++ post, .releasing conn⟩
  | refuse (s held conn) (h : conn.closing = true ∨ s.pool.maxIdle = 0) :
      TaskStep s ⟨held, .releasing conn⟩ .unlocked s ⟨held, .closing [conn] none⟩
  | resetFails (s held conn) (h : conn.closing = false) (hmax : s.pool.maxIdle ≠ 0) :
      TaskStep s ⟨held, .releasing conn⟩ .unlocked s ⟨held, .closing [conn] none⟩
  | reset (s held conn fresh) (h : conn.closing = false) (hmax : s.pool.maxIdle ≠ 0)
      (hreset : ClientConnection.reset conn = .ok () fresh) :
      TaskStep s ⟨held, .releasing conn⟩ .unlocked s ⟨held, .pooling conn fresh⟩
  | put (s held conn fresh) :
      TaskStep s ⟨held, .pooling conn fresh⟩ (.put fresh ((s.pool.enlist conn).put fresh).1)
        { s with pool := ((s.pool.enlist conn).put fresh).2 }
        ⟨held, .closing ((s.pool.enlist conn).put fresh).1.toList none⟩
  | close (s held conn gone result) :
      TaskStep s ⟨held, .closing (conn :: gone) result⟩ .unlocked
        { s with pool := s.pool.destroy conn } ⟨held, .closing gone result⟩
  | done (s held result) :
      TaskStep s ⟨held, .closing [] result⟩ .unlocked s ⟨result.toList ++ held, .ready⟩

/-- The pool and the tasks that use it. -/
structure PoolTasks (L : Llhttp) where
  shared : SharedPool L
  tasks : List (PoolTask L)

/-- One task takes a step, or a new one starts. -/
inductive PoolStep {L : Llhttp} : PoolTasks L → PoolEvent L → PoolTasks L → Prop
  | task (before after) {s t event s' t'} (h : TaskStep s t event s' t') :
      PoolStep ⟨s, before ++ t :: after⟩ event ⟨s', before ++ t' :: after⟩
  | spawn (s tasks) : PoolStep ⟨s, tasks⟩ .unlocked ⟨s, tasks ++ [⟨[], .ready⟩]⟩

/-- The states that any order of steps leads to from an empty pool. -/
inductive PoolReach {L : Llhttp} (maxIdle : ℕ) : PoolTasks L → Prop
  | start : PoolReach maxIdle ⟨{ pool := { maxIdle := maxIdle } }, []⟩
  | step {s event s'} (h : PoolReach maxIdle s) (hs : PoolStep s event s') : PoolReach maxIdle s'

/-! ### The invariant -/

/-- The last release of `a` is older than that of `b`. -/
def ReleasedBefore (log : List ℕ) (a b : ℕ) : Prop :=
  ∃ pre post, log = pre ++ b :: post ∧ a ∈ pre ∧ a ∉ b :: post

theorem ReleasedBefore.append {log : List ℕ} {a b : ℕ} (h : ReleasedBefore log a b) {x : ℕ}
    (hx : a ≠ x) : ReleasedBefore (log ++ [x]) a b := by
  obtain ⟨pre, post, rfl, hpre, hpost⟩ := h
  refine ⟨pre, post ++ [x], by simp, hpre, ?_⟩
  simpa [hx] using hpost

theorem releasedBefore_last {log : List ℕ} {a x : ℕ} (ha : a ∈ log) (hx : a ≠ x) :
    ReleasedBefore (log ++ [x]) a x :=
  ⟨log, [], rfl, ha, by simpa using hx⟩

section ids
variable {L : Llhttp}

/-- The connections by their numbers. -/
def idsOf (conns : List (ClientConnection L)) : List ℕ := conns.map (·.id)

@[simp] theorem idsOf_nil : idsOf ([] : List (ClientConnection L)) = [] := rfl

@[simp] theorem idsOf_cons (conn : ClientConnection L) (conns : List (ClientConnection L)) :
    idsOf (conn :: conns) = conn.id :: idsOf conns := rfl

@[simp] theorem idsOf_append (a b : List (ClientConnection L)) :
    idsOf (a ++ b) = idsOf a ++ idsOf b := List.map_append

end ids

namespace SharedPool

variable {L : Llhttp}

/-- The numbers of the connections released to the pool, in order. -/
def log (s : SharedPool L) : List ℕ := idsOf s.pool.enlisted

/-- The counter is right, and the idle connections stand in the order of their releases. -/
structure Ordered (maxIdle : ℕ) (s : SharedPool L) : Prop where
  maxIdle_eq : s.pool.maxIdle = maxIdle
  idleLen : s.pool.idleLen = s.pool.idle.length
  bound : s.pool.idleLen ≤ maxIdle
  order : s.pool.idle.Pairwise fun a b => ReleasedBefore s.log a.id b.id
  logged : ∀ conn ∈ s.pool.idle, conn.id ∈ s.log

end SharedPool

namespace PoolTasks

variable {L : Llhttp}

/-- The numbers of all the connections, wherever they are. -/
def everywhere (s : PoolTasks L) : List ℕ :=
  idsOf s.shared.pool.idle ++ (s.tasks.flatMap fun t => idsOf t.conns) ++ s.shared.pool.destroyed

/-- A connection about to be pooled is the one that was reset, and the pool keeps some. -/
def Pooling (maxIdle : ℕ) (t : PoolTask L) : Prop :=
  ∀ conn fresh, t.doing = .pooling conn fresh → fresh.id = conn.id ∧ maxIdle ≠ 0

/-- What holds whatever the tasks do. -/
structure Owned (maxIdle : ℕ) (s : PoolTasks L) : Prop extends s.shared.Ordered maxIdle where
  once : s.everywhere.Perm (List.range s.shared.created)
  pooling : ∀ t ∈ s.tasks, Pooling maxIdle t

end PoolTasks

theorem reset_id {L : Llhttp} {conn fresh : ClientConnection L}
    (h : ClientConnection.reset conn = .ok () fresh) : fresh.id = conn.id := by
  obtain ⟨-, rfl⟩ := ClientConnection.reset_eq_ok h
  rfl

theorem ConnectionPool.put_perm {L : Llhttp} (self : ConnectionPool L) (conn : ClientConnection L) :
    (idsOf (self.put conn).2.idle ++ idsOf (self.put conn).1.toList).Perm
      (idsOf self.idle ++ [conn.id]) := by
  unfold put
  by_cases hfull : self.maxIdle ≤ self.idleLen
  · rw [if_pos hfull]
    cases hidle : self.idle with
    | nil => simp [hidle]
    | cons old rest =>
        show (idsOf (rest ++ [conn]) ++ [old.id]).Perm ([old.id] ++ (idsOf rest ++ [conn.id]))
        rw [idsOf_append]
        exact List.perm_append_comm
  · rw [if_neg hfull]
    simp

theorem ConnectionPool.put_destroyed {L : Llhttp} (self : ConnectionPool L)
    (conn : ClientConnection L) : (self.put conn).2.destroyed = self.destroyed := by
  unfold put
  by_cases hfull : self.maxIdle ≤ self.idleLen
  · rw [if_pos hfull]
    cases self.idle <;> rfl
  · rw [if_neg hfull]

theorem ConnectionPool.take_perm {L : Llhttp} (self : ConnectionPool L) (now : ℕ)
    (wanted : ClientConnection L → Bool) :
    (idsOf (self.take now wanted).2.2.idle ++
      idsOf ((self.take now wanted).2.1 ++ (self.take now wanted).1.toList)).Perm
        (idsOf self.idle) := by
  have h := ((search_perm now wanted self.idle.reverse).trans (List.reverse_perm _)).map (·.id)
  rw [List.map_append] at h
  refine .trans ?_ h
  exact ((List.reverse_perm _).map _).append_right _

/-- What a step does to the connections of the pool and of its task: one may be new. -/
theorem TaskStep.perm {L : Llhttp} {s s' : SharedPool L} {t t' : PoolTask L} {event : PoolEvent L}
    (h : TaskStep s t event s' t') :
    ∃ new, (idsOf s'.pool.idle ++ idsOf t'.conns ++ s'.pool.destroyed).Perm
        (idsOf s.pool.idle ++ idsOf t.conns ++ s.pool.destroyed ++ new) ∧
      List.range s'.created = List.range s.created ++ new := by
  cases h with
  | create held conn hid =>
      refine ⟨[s.created], ?_, List.range_succ⟩
      rw [List.perm_iff_count]
      intro a
      simp only [PoolTask.conns, Doing.conns, idsOf_append, idsOf_cons, idsOf_nil, hid,
        List.count_append, List.count_cons, List.count_nil]
      omega
  | use pre conn conn' post hid =>
      exact ⟨[], by simp [PoolTask.conns, Doing.conns, hid], by simp⟩
  | discard pre conn post =>
      refine ⟨[], ?_, by simp⟩
      rw [List.perm_iff_count]
      intro a
      simp only [PoolTask.conns, Doing.conns, idsOf_append, idsOf_cons, idsOf_nil,
        List.count_append, List.count_cons, List.count_nil, Option.toList_none]
      omega
  | acquire held e now => exact ⟨[], by simp [PoolTask.conns, Doing.conns], by simp⟩
  | take held e now =>
      refine ⟨[], ?_, by simp⟩
      have h := (List.perm_iff_count.mp (s.pool.take_perm now (·.serves e)))
      rw [List.perm_iff_count]
      intro a
      have ha := h a
      simp only [PoolTask.conns, Doing.conns, idsOf_append, idsOf_nil, List.count_append,
        List.count_nil] at ha ⊢
      show _ + _ + List.count a s.pool.destroyed = _
      omega
  | release pre conn post =>
      refine ⟨[], ?_, by simp⟩
      rw [List.perm_iff_count]
      intro a
      simp only [PoolTask.conns, Doing.conns, idsOf_append, idsOf_cons, idsOf_nil,
        List.count_append, List.count_cons, List.count_nil]
      omega
  | refuse held conn h => exact ⟨[], by simp [PoolTask.conns, Doing.conns], by simp⟩
  | resetFails held conn h hmax => exact ⟨[], by simp [PoolTask.conns, Doing.conns], by simp⟩
  | reset held conn fresh h hmax hreset =>
      exact ⟨[], by simp [PoolTask.conns, Doing.conns, reset_id hreset], by simp⟩
  | put held conn fresh =>
      refine ⟨[], ?_, by simp⟩
      have h := (List.perm_iff_count.mp ((s.pool.enlist conn).put_perm fresh))
      rw [List.perm_iff_count]
      intro a
      have ha : List.count a _ = List.count a (idsOf s.pool.idle ++ [fresh.id]) := h a
      have hd : ((s.pool.enlist conn).put fresh).2.destroyed = s.pool.destroyed :=
        ConnectionPool.put_destroyed _ _
      simp only [PoolTask.conns, Doing.conns, idsOf_append, idsOf_cons, idsOf_nil, hd,
        List.count_append, List.count_cons, List.count_nil, Option.toList_none] at ha ⊢
      omega
  | close held conn gone result =>
      refine ⟨[], ?_, by simp⟩
      rw [List.perm_iff_count]
      intro a
      simp only [PoolTask.conns, Doing.conns, ConnectionPool.destroy, idsOf_append, idsOf_cons,
        List.cons_append, List.count_append, List.count_cons, List.count_nil]
      omega
  | done held result =>
      refine ⟨[], ?_, by simp⟩
      rw [List.perm_iff_count]
      intro a
      simp only [PoolTask.conns, Doing.conns, idsOf_append, idsOf_nil, List.nil_append,
        List.count_append, List.count_nil]
      omega

/-! ### Its steps -/

namespace SharedPool

variable {L : Llhttp} {maxIdle : ℕ} {s : SharedPool L}

theorem Ordered.oldest (h : s.Ordered maxIdle) (hmax : maxIdle ≠ 0)
    (hfull : s.pool.maxIdle ≤ s.pool.idleLen) : ∃ old rest, s.pool.idle = old :: rest := by
  have hpos : 0 < s.pool.idle.length := by
    have := h.maxIdle_eq
    have := h.idleLen
    omega
  obtain ⟨old, rest, hidle⟩ := List.exists_cons_of_length_pos hpos
  exact ⟨old, rest, hidle⟩

/-- A connection that is put at the end is the one released last. -/
theorem Ordered.order_put (h : s.Ordered maxIdle) {rest : List (ClientConnection L)}
    (hsub : rest.Sublist s.pool.idle) {fresh : ClientConnection L}
    (hnew : fresh.id ∉ idsOf s.pool.idle) :
    (rest ++ [fresh]).Pairwise fun a b => ReleasedBefore (s.log ++ [fresh.id]) a.id b.id := by
  have hne : ∀ a ∈ rest, a.id ≠ fresh.id := by
    intro a ha heq
    exact hnew (heq ▸ List.mem_map_of_mem (hsub.subset ha))
  rw [List.pairwise_append]
  refine ⟨?_, List.pairwise_singleton _ _, ?_⟩
  · exact (h.order.sublist hsub).imp_of_mem fun ha _ hab => hab.append (hne _ ha)
  · intro a ha b hb
    obtain rfl := List.mem_singleton.mp hb
    exact releasedBefore_last (h.logged a (hsub.subset ha)) (hne a ha)

/-- The critical section of `acquire` keeps count and order. -/
theorem Ordered.take (h : s.Ordered maxIdle) (now : ℕ) (wanted : ClientConnection L → Bool) :
    Ordered maxIdle { s with pool := (s.pool.take now wanted).2.2 } := by
  have hsub : (s.pool.take now wanted).2.2.idle.Sublist s.pool.idle := by
    have := (ConnectionPool.search_sublist now wanted s.pool.idle.reverse).reverse
    rwa [List.reverse_reverse] at this
  have hlen := (ConnectionPool.search_perm now wanted s.pool.idle.reverse).length_eq
  simp only [List.length_append, List.length_reverse] at hlen
  have hidleLen := h.idleLen
  have hbound := h.bound
  refine ⟨h.maxIdle_eq, ?_, ?_, h.order.sublist hsub, fun conn hc => h.logged conn (hsub.subset hc)⟩
  · have htake : s.pool.idleLen - ((ConnectionPool.search now wanted s.pool.idle.reverse).2.1.length +
        (ConnectionPool.search now wanted s.pool.idle.reverse).1.toList.length) =
          (ConnectionPool.search now wanted s.pool.idle.reverse).2.2.length := by
      omega
    exact htake.trans List.length_reverse.symm
  · exact (Nat.sub_le _ _).trans hbound

/-- The critical section of `release` keeps count and order. -/
theorem Ordered.put (h : s.Ordered maxIdle) (hmax : maxIdle ≠ 0) {conn fresh : ClientConnection L}
    (hid : fresh.id = conn.id) (hnew : fresh.id ∉ idsOf s.pool.idle) :
    Ordered maxIdle { s with pool := ((s.pool.enlist conn).put fresh).2 } := by
  have hlog : idsOf (s.pool.enlisted ++ [conn]) = s.log ++ [fresh.id] := by
    rw [hid, idsOf_append]
    rfl
  have hlogged : ∀ rest : List (ClientConnection L), rest.Sublist s.pool.idle →
      ∀ c ∈ rest ++ [fresh], c.id ∈ s.log ++ [fresh.id] := by
    intro rest hsub c hc
    rcases List.mem_append.mp hc with hc | hc
    · exact List.mem_append_left _ (h.logged c (hsub.subset hc))
    · obtain rfl := List.mem_singleton.mp hc
      exact List.mem_append_right _ (List.mem_singleton_self _)
  have hmaxIdle := h.maxIdle_eq
  have hidleLen := h.idleLen
  have hbound := h.bound
  by_cases hfull : s.pool.maxIdle ≤ s.pool.idleLen
  · obtain ⟨old, rest, hidle⟩ := h.oldest hmax hfull
    have hsub : rest.Sublist s.pool.idle := hidle ▸ List.sublist_cons_self old rest
    rw [ConnectionPool.put_full (s.pool.enlist conn) fresh hfull hidle]
    rw [hidle, List.length_cons] at hidleLen
    refine ⟨hmaxIdle, ?_, ?_, ?_, ?_⟩
    · show s.pool.idleLen - 1 + 1 = _
      simp only [List.length_append, List.length_singleton]
      omega
    · show s.pool.idleLen - 1 + 1 ≤ maxIdle
      omega
    · unfold log
      show (rest ++ [fresh]).Pairwise fun a b =>
        ReleasedBefore (idsOf (s.pool.enlisted ++ [conn])) a.id b.id
      rw [hlog]
      exact h.order_put hsub hnew
    · show ∀ c ∈ rest ++ [fresh], c.id ∈ idsOf (s.pool.enlisted ++ [conn])
      rw [hlog]
      exact hlogged rest hsub
  · rw [ConnectionPool.put_room (s.pool.enlist conn) fresh (by
      show s.pool.idleLen < s.pool.maxIdle
      omega)]
    refine ⟨hmaxIdle, ?_, ?_, ?_, ?_⟩
    · show s.pool.idleLen + 1 = (s.pool.idle ++ [fresh]).length
      rw [List.length_append, List.length_singleton, hidleLen]
    · show s.pool.idleLen + 1 ≤ maxIdle
      omega
    · show (s.pool.idle ++ [fresh]).Pairwise fun a b =>
        ReleasedBefore (idsOf (s.pool.enlisted ++ [conn])) a.id b.id
      rw [hlog]
      exact h.order_put (List.Sublist.refl _) hnew
    · show ∀ c ∈ s.pool.idle ++ [fresh], c.id ∈ idsOf (s.pool.enlisted ++ [conn])
      rw [hlog]
      exact hlogged s.pool.idle (List.Sublist.refl _)

end SharedPool

/-- A step keeps count and order; a connection that is about to be pooled is not idle. -/
theorem TaskStep.ordered {L : Llhttp} {maxIdle : ℕ} {s s' : SharedPool L} {t t' : PoolTask L}
    {event : PoolEvent L} (h : TaskStep s t event s' t') (hord : s.Ordered maxIdle)
    (hpool : PoolTasks.Pooling maxIdle t)
    (hapart : ∀ conn ∈ t.conns, conn.id ∉ idsOf s.pool.idle) : s'.Ordered maxIdle := by
  cases h with
  | create | use | discard | acquire | release | refuse | resetFails | reset | done =>
      exact ⟨hord.1, hord.2, hord.3, hord.4, hord.5⟩
  | take held e now => exact hord.take now (·.serves e)
  | put held conn fresh =>
      obtain ⟨hid, hmax⟩ := hpool conn fresh rfl
      exact hord.put hmax hid (hapart fresh (by simp [PoolTask.conns, Doing.conns]))
  | close => exact ⟨hord.1, hord.2, hord.3, hord.4, hord.5⟩

/-- A task is about to pool only what it has reset. -/
theorem TaskStep.pooling {L : Llhttp} {maxIdle : ℕ} {s s' : SharedPool L} {t t' : PoolTask L}
    {event : PoolEvent L} (h : TaskStep s t event s' t') (hord : s.Ordered maxIdle) :
    PoolTasks.Pooling maxIdle t' := by
  intro conn fresh hdoing
  cases h with
  | reset held conn fresh h hmax hreset =>
      cases hdoing
      exact ⟨reset_id hreset, hord.maxIdle_eq ▸ hmax⟩
  | _ => cases hdoing

namespace PoolTasks

variable {L : Llhttp} {maxIdle : ℕ}

/-- The numbers that the tasks before and after one hold stay where they are. -/
theorem everywhere_task {s s' : SharedPool L} {t t' : PoolTask L} {event : PoolEvent L}
    (h : TaskStep s t event s' t') (before after : List (PoolTask L))
    (honce : (PoolTasks.everywhere ⟨s, before ++ t :: after⟩).Perm (List.range s.created)) :
    (PoolTasks.everywhere ⟨s', before ++ t' :: after⟩).Perm (List.range s'.created) := by
  obtain ⟨new, hperm, hrange⟩ := h.perm
  rw [hrange]
  rw [List.perm_iff_count] at honce hperm ⊢
  intro a
  have ha := honce a
  have hnew := hperm a
  simp only [everywhere, List.flatMap_append, List.flatMap_cons, List.count_append] at ha hnew ⊢
  omega

/-- Every step keeps what is known of the connections. -/
theorem Owned.step {s s' : PoolTasks L} {event : PoolEvent L} (h : s.Owned maxIdle)
    (hs : PoolStep s event s') : s'.Owned maxIdle := by
  cases hs with
  | @task before after s t event s' t' hstep =>
      have hnodup : (everywhere ⟨s, before ++ t :: after⟩).Nodup :=
        h.once.nodup_iff.mpr List.nodup_range
      have hapart : ∀ conn ∈ t.conns, conn.id ∉ idsOf s.pool.idle := by
        intro conn hc hidle
        rw [everywhere, List.append_assoc, List.nodup_append] at hnodup
        refine hnodup.2.2 _ hidle _ (List.mem_append_left _ ?_) rfl
        exact List.mem_flatMap.mpr ⟨t, by simp, List.mem_map_of_mem hc⟩
      refine ⟨hstep.ordered h.toOrdered (h.pooling t (by simp)) hapart,
        everywhere_task hstep before after h.once, ?_⟩
      intro t₁ ht₁
      rcases List.mem_append.mp ht₁ with hb | ha
      · exact h.pooling t₁ (List.mem_append_left _ hb)
      · rcases List.mem_cons.mp ha with rfl | ha
        · exact hstep.pooling h.toOrdered
        · exact h.pooling t₁ (List.mem_append_right _ (List.mem_cons_of_mem _ ha))
  | spawn s tasks =>
      refine ⟨h.toOrdered, ?_, ?_⟩
      · have honce := h.once
        simp only [everywhere, List.flatMap_append, List.flatMap_cons, List.flatMap_nil,
          PoolTask.conns, Doing.conns, idsOf_nil, List.append_nil] at honce ⊢
        exact honce
      · intro t ht
        rcases List.mem_append.mp ht with ht | ht
        · exact h.pooling t ht
        · obtain rfl := List.mem_singleton.mp ht
          intro conn fresh hdoing
          cases hdoing

/-- What is known of the connections holds in every state. -/
theorem Owned.of_reach {s : PoolTasks L} (h : PoolReach maxIdle s) : s.Owned maxIdle := by
  induction h with
  | start =>
      exact ⟨⟨rfl, rfl, Nat.zero_le _, List.Pairwise.nil, by simp⟩, by simp [everywhere], by simp⟩
  | step _ hs ih => exact ih.step hs

end PoolTasks

/-! ### Where a connection is -/

/-- The places a connection can be in. -/
inductive Place where
  | idle
  | held (task : ℕ)
  | destroyed
deriving DecidableEq

namespace PoolTasks

variable {L : Llhttp} {maxIdle : ℕ}

/-- The connection is in the place. -/
def Holds (s : PoolTasks L) (id : ℕ) : Place → Prop
  | .idle => id ∈ idsOf s.shared.pool.idle
  | .held task => ∃ t, s.tasks[task]? = some t ∧ id ∈ idsOf t.conns
  | .destroyed => id ∈ s.shared.pool.destroyed

theorem holder_unique {tasks : List (PoolTask L)}
    (hnodup : (tasks.flatMap fun t => idsOf t.conns).Nodup) {i j : ℕ} {t u : PoolTask L} {id : ℕ}
    (ht : tasks[i]? = some t) (hu : tasks[j]? = some u) (hit : id ∈ idsOf t.conns)
    (hiu : id ∈ idsOf u.conns) : i = j := by
  have hpair := (List.nodup_flatMap.mp hnodup).2
  rw [List.pairwise_iff_getElem] at hpair
  obtain ⟨hi, rfl⟩ := List.getElem?_eq_some_iff.mp ht
  obtain ⟨hj, rfl⟩ := List.getElem?_eq_some_iff.mp hu
  rcases lt_trichotomy i j with hlt | heq | hgt
  · exact absurd hiu (hpair i j hi hj hlt hit)
  · exact heq
  · exact absurd hit (hpair j i hj hi hgt hiu)

theorem Owned.place {s : PoolTasks L} (h : s.Owned maxIdle) {id : ℕ} (hid : id < s.shared.created) :
    ∃! place, s.Holds id place := by
  have hnodup : s.everywhere.Nodup := h.once.nodup_iff.mpr List.nodup_range
  have hmem : id ∈ s.everywhere := h.once.mem_iff.mpr (List.mem_range.mpr hid)
  rw [everywhere, List.nodup_append, List.nodup_append] at hnodup
  obtain ⟨⟨-, htasks, hapart⟩, -, hgone⟩ := hnodup
  have hidle : ∀ (i : ℕ) (t : PoolTask L), s.tasks[i]? = some t → id ∈ idsOf t.conns →
      id ∈ s.tasks.flatMap fun t => idsOf t.conns := fun i t ht hit =>
    List.mem_flatMap.mpr ⟨t, List.mem_of_getElem? ht, hit⟩
  rw [everywhere, List.mem_append, List.mem_append] at hmem
  rcases hmem with (hmem | hmem) | hmem
  · refine ⟨.idle, hmem, ?_⟩
    rintro (_ | i | _) hplace
    · rfl
    · obtain ⟨t, ht, hit⟩ := hplace
      exact absurd rfl (hapart id hmem id (hidle i t ht hit))
    · exact absurd rfl (hgone id (List.mem_append_left _ hmem) id hplace)
  · obtain ⟨t, htm, hit⟩ := List.mem_flatMap.mp hmem
    obtain ⟨i, ht⟩ := List.mem_iff_getElem?.mp htm
    refine ⟨.held i, ⟨t, ht, hit⟩, ?_⟩
    rintro (_ | j | _) hplace
    · exact absurd rfl (hapart id hplace id hmem)
    · obtain ⟨u, hu, hiu⟩ := hplace
      rw [holder_unique htasks ht hu hit hiu]
    · exact absurd rfl (hgone id (List.mem_append_right _ hmem) id hplace)
  · refine ⟨.destroyed, hmem, ?_⟩
    rintro (_ | j | _) hplace
    · exact absurd rfl (hgone id (List.mem_append_left _ hplace) id hmem)
    · obtain ⟨u, hu, hiu⟩ := hplace
      exact absurd rfl (hgone id (List.mem_append_right _ (hidle j u hu hiu)) id hmem)
    · rfl

end PoolTasks

/-! ### What the critical sections do -/

/-- What a critical section does in a state, and what it leaves its task to do. -/
def PoolEvent.Right {L : Llhttp} (s : SharedPool L) (t' : PoolTask L) (s' : SharedPool L) :
    PoolEvent L → Prop
  | .unlocked => s'.pool.idle = s.pool.idle
  | .took e now (some conn) =>
      conn ∈ s.pool.idle ∧ conn.serves e = true ∧ conn.Fresh now ∧
        (∃ gone, t'.doing = .closing gone (some conn)) ∧
        ∀ d ∈ s.pool.idle, d.serves e = true → d.Fresh now →
          d = conn ∨ ReleasedBefore s.log d.id conn.id
  | .took e now none =>
      (∃ gone, t'.doing = .closing gone none) ∧
        ∀ d ∈ s.pool.idle, d.serves e = true → ¬ d.Fresh now
  | .put fresh old =>
      0 < s.pool.maxIdle ∧ t'.doing = .closing old.toList none ∧
        if s.pool.idleLen < s.pool.maxIdle then
          old = none ∧ s'.pool.idle = s.pool.idle ++ [fresh]
        else ∃ oldest rest, old = some oldest ∧ s.pool.idle = oldest :: rest ∧
          s'.pool.idle = rest ++ [fresh] ∧ ∀ d ∈ rest, ReleasedBefore s.log oldest.id d.id

theorem SharedPool.Ordered.took {L : Llhttp} {maxIdle : ℕ} {s : SharedPool L}
    (h : s.Ordered maxIdle) (held : List (ClientConnection L)) (e : Endpoint) (now : ℕ)
    (s' : SharedPool L) :
    (PoolEvent.took e now (s.pool.take now (·.serves e)).1).Right s
      ⟨held, .closing (s.pool.take now (·.serves e)).2.1 (s.pool.take now (·.serves e)).1⟩ s' := by
  have hspec := ConnectionPool.search_spec now (·.serves e) s.pool.idle.reverse
  have htook : (s.pool.take now (·.serves e)).1 =
      (ConnectionPool.search now (·.serves e) s.pool.idle.reverse).1 := rfl
  generalize ConnectionPool.search now (·.serves e) s.pool.idle.reverse = result at hspec htook
  rw [htook]
  rcases result with ⟨_ | conn, gone, kept⟩
  · refine ⟨⟨_, rfl⟩, fun d hd hw hfresh => ?_⟩
    have hexp := hspec.1 d (List.mem_reverse.mpr hd) hw
    rw [ConnectionPool.not_expired_iff.mpr hfresh] at hexp
    cases hexp
  · obtain ⟨pre, post, hl, hw, he, hpre, -, -⟩ := hspec
    have hidle : s.pool.idle = post.reverse ++ conn :: pre.reverse := by
      have := congrArg List.reverse hl
      simpa using this
    refine ⟨by simp [hidle], hw, ConnectionPool.not_expired_iff.mp he, ⟨_, rfl⟩, ?_⟩
    intro d hd hwd hfresh
    have horder := h.order
    rw [hidle] at hd horder
    rcases List.mem_append.mp hd with hd | hd
    · exact .inr ((List.pairwise_append.mp horder).2.2 d hd conn List.mem_cons_self)
    · rcases List.mem_cons.mp hd with rfl | hd
      · exact .inl rfl
      · have hexp := hpre d (List.mem_reverse.mp hd) hwd
        rw [ConnectionPool.not_expired_iff.mpr hfresh] at hexp
        cases hexp

theorem SharedPool.Ordered.putRight {L : Llhttp} {maxIdle : ℕ} {s : SharedPool L}
    (h : s.Ordered maxIdle) (hmax : maxIdle ≠ 0) (held : List (ClientConnection L))
    (conn fresh : ClientConnection L) :
    (PoolEvent.put fresh ((s.pool.enlist conn).put fresh).1).Right s
      ⟨held, .closing ((s.pool.enlist conn).put fresh).1.toList none⟩
      { s with pool := ((s.pool.enlist conn).put fresh).2 } := by
  refine ⟨by have := h.maxIdle_eq; omega, rfl, ?_⟩
  by_cases hroom : s.pool.idleLen < s.pool.maxIdle
  · rw [if_pos hroom, ConnectionPool.put_room (s.pool.enlist conn) fresh hroom]
    exact ⟨rfl, rfl⟩
  · rw [if_neg hroom]
    have hfull : s.pool.maxIdle ≤ s.pool.idleLen := by omega
    obtain ⟨old, rest, hidle⟩ := h.oldest hmax hfull
    rw [ConnectionPool.put_full (s.pool.enlist conn) fresh hfull hidle]
    have horder := h.order
    rw [hidle, List.pairwise_cons] at horder
    exact ⟨old, rest, rfl, hidle, rfl, horder.1⟩

theorem TaskStep.right {L : Llhttp} {maxIdle : ℕ} {s s' : SharedPool L} {t t' : PoolTask L}
    {event : PoolEvent L} (h : TaskStep s t event s' t') (hord : s.Ordered maxIdle)
    (hpool : PoolTasks.Pooling maxIdle t) : event.Right s t' s' := by
  cases h with
  | take held e now => exact hord.took held e now _
  | put held conn fresh => exact hord.putRight (hpool conn fresh rfl).2 held conn fresh
  | _ => exact rfl

/-- **The pool owns what is idle**: whatever the order in which the tasks take their steps, the
counter is right, every connection is in one place and there once, and the critical sections of
`acquire` and `release` take the connection released last and evict the one released first. -/
theorem pool_owned {L : Llhttp} {maxIdle : ℕ} {s : PoolTasks L} (h : PoolReach maxIdle s) :
    (s.shared.pool.idleLen = s.shared.pool.idle.length ∧ s.shared.pool.idleLen ≤ maxIdle) ∧
      (∀ id < s.shared.created, ∃! place, s.Holds id place) ∧ s.everywhere.Nodup ∧
      (∀ t ∈ s.tasks, ∀ event s' t', TaskStep s.shared t event s' t' →
        event.Right s.shared t' s') ∧
      (maxIdle = 0 → s.shared.pool.idle = []) := by
  have howned := PoolTasks.Owned.of_reach h
  have hbound := howned.bound
  have hlen := howned.idleLen
  refine ⟨⟨hlen, hbound⟩, fun id hid => howned.place hid,
    howned.once.nodup_iff.mpr List.nodup_range,
    fun t ht event s' t' hstep => hstep.right howned.toOrdered (howned.pooling t ht), ?_⟩
  intro hmax
  exact List.length_eq_zero_iff.mp (by omega)

/-- The connections of a client, all to one place. -/
def connectionOf (id : ℕ) : ClientConnection (Http1.llhttp true) :=
  Client.connect { pool := { maxIdle := 1 }, nextId := id } {} (ascii "a.example") 80 .http none

theorem connectionOf_fits (id : ℕ) :
    (connectionOf id).inbound.reader.data.length ≤ (connectionOf id).readBuffer := Nat.zero_le _

/-- Such a connection as it comes into the pool. -/
def idleOf (id : ℕ) : ClientConnection (Http1.llhttp true) := (connectionOf id).renewed (connectionOf_fits id)

theorem reset_connectionOf (id : ℕ) : ClientConnection.reset (connectionOf id) = .ok () (idleOf id) := rfl

/-- One task has put its connection into a pool for one, and another is about to. -/
def crowded : PoolTasks (Http1.llhttp true) :=
  ⟨⟨{ maxIdle := 1, idle := [idleOf 0], idleLen := 1, enlisted := [connectionOf 0] }, 2⟩,
    [⟨[], .ready⟩, ⟨[], .pooling (connectionOf 1) (idleOf 1)⟩]⟩

/-- The second has made room for its own, and the first asks for a connection. -/
def contended : PoolTasks (Http1.llhttp true) :=
  ⟨⟨{ maxIdle := 1, idle := [idleOf 1], idleLen := 1, enlisted := [connectionOf 0, connectionOf 1] }, 2⟩,
    [⟨[], .acquiring ⟨ascii "a.example", 80, .http, none⟩ 7⟩, ⟨[], .closing [idleOf 0] none⟩]⟩

/-- The first has got it, and the second has closed what was in its place. -/
def settled : PoolTasks (Http1.llhttp true) :=
  ⟨⟨{ maxIdle := 1, destroyed := [0], enlisted := [connectionOf 0, connectionOf 1] }, 2⟩,
    [⟨[], .closing [] (some (idleOf 1))⟩, ⟨[], .closing [] none⟩]⟩

theorem crowded_reach : PoolReach 1 crowded := by
  have hspawned : PoolReach 1 (L := Http1.llhttp true) ⟨⟨{ maxIdle := 1 }, 0⟩, [⟨[], .ready⟩, ⟨[], .ready⟩]⟩ :=
    (PoolReach.start.step (.spawn _ [])).step (.spawn _ [⟨[], .ready⟩])
  have hmade : PoolReach 1 (L := Http1.llhttp true)
      ⟨⟨{ maxIdle := 1 }, 2⟩, [⟨[connectionOf 0], .ready⟩, ⟨[connectionOf 1], .ready⟩]⟩ :=
    (hspawned.step (.task [] [⟨[], .ready⟩] (.create _ [] (connectionOf 0) rfl))).step
      (.task [⟨[connectionOf 0], .ready⟩] [] (.create _ [] (connectionOf 1) rfl))
  have hleft : PoolReach 1 (L := Http1.llhttp true)
      ⟨⟨{ maxIdle := 1 }, 2⟩, [⟨[], .releasing (connectionOf 0)⟩, ⟨[], .releasing (connectionOf 1)⟩]⟩ :=
    (hmade.step (.task [] [⟨[connectionOf 1], .ready⟩] (.release _ [] (connectionOf 0) []))).step
      (.task [⟨[], .releasing (connectionOf 0)⟩] [] (.release _ [] (connectionOf 1) []))
  have hreset : PoolReach 1 (L := Http1.llhttp true)
      ⟨⟨{ maxIdle := 1 }, 2⟩, [⟨[], .pooling (connectionOf 0) (idleOf 0)⟩,
        ⟨[], .pooling (connectionOf 1) (idleOf 1)⟩]⟩ :=
    (hleft.step (.task [] [⟨[], .releasing (connectionOf 1)⟩]
      (.reset _ _ _ _ rfl Nat.one_ne_zero (reset_connectionOf 0)))).step
        (.task [⟨[], .pooling (connectionOf 0) (idleOf 0)⟩] []
          (.reset _ _ _ _ rfl Nat.one_ne_zero (reset_connectionOf 1)))
  exact (hreset.step (.task [] [⟨[], .pooling (connectionOf 1) (idleOf 1)⟩] (.put _ _ _ _))).step
    (.task [] [⟨[], .pooling (connectionOf 1) (idleOf 1)⟩] (.done _ [] none))

theorem contended_reach : PoolReach 1 contended :=
  (crowded_reach.step (.task [⟨[], .ready⟩] [] (.put _ [] (connectionOf 1) (idleOf 1)))).step
    (.task [] [⟨[], .closing [idleOf 0] none⟩] (.acquire _ [] ⟨ascii "a.example", 80, .http, none⟩ 7))

theorem settled_reach : PoolReach 1 settled :=
  (contended_reach.step (.task [] [⟨[], .closing [idleOf 0] none⟩]
    (.take _ [] ⟨ascii "a.example", 80, .http, none⟩ 7))).step
      (.task [⟨[], .closing [] (some (idleOf 1))⟩] [] (.close _ [] (idleOf 0) [] none))

/-- Two tasks share a pool for one connection: the second release evicts the connection of the first, and the
first task gets the second connection. -/
theorem pool_owned_sample :
    (PoolEvent.put (idleOf 1) (some (idleOf 0))).Right crowded.shared ⟨[], .closing [idleOf 0] none⟩ contended.shared ∧
      (PoolEvent.took ⟨ascii "a.example", 80, .http, none⟩ 7 (some (idleOf 1))).Right contended.shared
        ⟨[], .closing [] (some (idleOf 1))⟩ ⟨{ settled.shared.pool with destroyed := [] }, 2⟩ ∧
      (settled.shared.pool.idleLen = settled.shared.pool.idle.length ∧ settled.shared.pool.idleLen ≤ 1) ∧
      (∃! place, settled.Holds 0 place) ∧ ∃! place, settled.Holds 1 place :=
  ⟨(pool_owned crowded_reach).2.2.2.1 _ (List.mem_cons_of_mem _ List.mem_cons_self) _ _ _ (.put _ _ _ _),
    (pool_owned contended_reach).2.2.2.1 _ List.mem_cons_self _ _ _ (.take _ _ _ _),
    (pool_owned settled_reach).1, (pool_owned settled_reach).2.1 0 (by decide),
    (pool_owned settled_reach).2.1 1 (by decide)⟩

end Dusty
