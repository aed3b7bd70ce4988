import Dusty.Http1
import Dusty.Releases
import Mathlib.Logic.Relation

/-! # The request budget of a connection

A `Keep-Alive` header may limit the number of requests on a connection.  `Connection.release` counts them,
in 16 bits; a release to the pool that is none of its own does not, so that the limit is kept in the runs in
which neither happens to the connection (`budget_kept`). -/

namespace Dusty

open Act

variable {L : Llhttp}

/-- How many of the connections have this number. -/
def copies (c : ℕ) (conns : List (ClientConnection L)) : ℕ := conns.countP (·.id == c)

section copies
variable {c : ℕ} {conns others : List (ClientConnection L)} {conn : ClientConnection L}

theorem copies_append : copies c (conns ++ others) = copies c conns + copies c others := List.countP_append

theorem copies_own (h : conn.id = c) : copies c (conn :: conns) = copies c conns + 1 :=
  List.countP_cons_of_pos (beq_iff_eq.mpr h)

theorem copies_other (h : conn.id ≠ c) : copies c (conn :: conns) = copies c conns :=
  List.countP_cons_of_neg (by rwa [beq_iff_eq])

theorem copies_le (h : List.Subperm conns others) : copies c conns ≤ copies c others := h.countP_le _

theorem copies_eq_zero : copies c conns = 0 ↔ ∀ conn ∈ conns, conn.id ≠ c := by
  unfold copies
  rw [List.countP_eq_zero]
  exact forall₂_congr fun conn _ => not_congr beq_iff_eq

end copies

/-! ### The pool -/

namespace ConnectionPool

variable {now : ℕ} {wanted : ClientConnection L → Bool}

theorem acquire_subperm (self : ConnectionPool L) :
    List.Subperm ((self.acquire now wanted).1.toList ++ (self.acquire now wanted).2.idle) self.idle := by
  have hperm := search_perm now wanted self.idle.reverse
  rw [acquire_eq_take, foldl_destroy]
  show List.Subperm ((search now wanted self.idle.reverse).1.toList ++
    (search now wanted self.idle.reverse).2.2.reverse) self.idle
  generalize search now wanted self.idle.reverse = result at hperm ⊢
  obtain ⟨found, gone, kept⟩ := result
  have hsub : List.Subperm (found.toList ++ kept.reverse) (kept ++ (gone ++ found.toList)) := by
    have hback : (found.toList ++ kept.reverse).Perm (kept ++ found.toList) :=
      List.perm_append_comm.trans ((List.reverse_perm kept).append_right _)
    exact hback.subperm.trans ((List.sublist_append_right gone _).append_left kept).subperm
  exact hsub.trans (hperm.trans (List.reverse_perm _)).subperm

theorem append_sublist (self : ConnectionPool L) (conn : ClientConnection L) :
    List.Sublist (self.append conn).idle (self.idle ++ [conn]) := by
  rw [append_eq_put, foldl_destroy]
  show List.Sublist (self.put conn).2.idle (self.idle ++ [conn])
  by_cases hfull : self.maxIdle ≤ self.idleLen
  · cases hidle : self.idle with
    | nil =>
        unfold put
        rw [if_pos hfull, hidle]
        show List.Sublist (self.idle ++ [conn]) [conn]
        rw [hidle]
        exact List.Sublist.refl _
    | cons old rest =>
        rw [put_full self conn hfull hidle]
        exact (List.sublist_cons_self old rest).append_right [conn]
  · rw [put_room self conn (Nat.lt_of_not_le hfull)]

end ConnectionPool

/-! ### The books of a connection -/

namespace Client

/-- How often the pool has handed the connection out. -/
def handouts (c : ℕ) (client : Client L) : ℕ := client.handed.countP (·.conn.id == c)

/-- The requests on a connection: one when it is made, and one for every time that it is handed out.  A call sends
no more than these (`fetch_accounted`). -/
def requestsOn (c : ℕ) (client : Client L) : ℕ := client.handouts c + 1

/-- The books on a connection, some of them in these hands, whose limit may have been read. -/
structure Ledger (c : ℕ) (limit : Option ℕ) (hands : List (ClientConnection L)) (client : Client L) : Prop where
  single : copies c (client.pool.idle ++ hands) ≤ if c < client.nextId then 1 else 0
  unmade : client.nextId ≤ c → client.handouts c = 0
  idle : ∀ conn ∈ client.pool.idle, conn.id = c → conn.requestCount = client.handouts c + 1 ∧
    ∀ max ∈ limit, conn.keepAlive.max = some max ∧ conn.requestCount < max
  held : ∀ conn ∈ hands, conn.id = c → conn.requestCount = client.handouts c ∧
    ∀ max ∈ limit, conn.keepAlive.max = some max ∧ conn.requestCount ≠ 0
  spent : ∀ max ∈ limit, c < client.nextId ∧ client.requestsOn c ≤ max

namespace Ledger

variable {c : ℕ} {limit : Option ℕ} {hands : List (ClientConnection L)} {self other : Client L}
  {conn : ClientConnection L}

theorem congr (h : self.Ledger c limit hands) (hidle : other.pool.idle = self.pool.idle)
    (hhanded : other.handed = self.handed) (hnext : other.nextId = self.nextId) : other.Ledger c limit hands := by
  have hcount : other.handouts c = self.handouts c := congrArg (List.countP _) hhanded
  have hrequests : other.requestsOn c = self.requestsOn c := congrArg (· + 1) hcount
  refine ⟨?_, ?_, ?_, ?_, ?_⟩
  · rw [hidle, hnext]
    exact h.single
  · rw [hnext, hcount]
    exact h.unmade
  · rw [hidle, hcount]
    exact h.idle
  · rw [hcount]
    exact h.held
  · rw [hnext, hrequests]
    exact h.spent

theorem mono {hands' : List (ClientConnection L)} (h : self.Ledger c limit hands)
    (hsub : List.Subperm hands' hands) : self.Ledger c limit hands' := by
  refine ⟨?_, h.unmade, h.idle, fun conn hconn => h.held conn (hsub.subset hconn), h.spent⟩
  exact Nat.le_trans (copies_le ((List.subperm_append_left _).mpr hsub)) h.single

theorem drop (h : self.Ledger c limit (conn :: hands)) : self.Ledger c limit hands :=
  h.mono (List.sublist_cons_self conn hands).subperm

theorem alone (h : self.Ledger c limit (conn :: hands)) (hid : conn.id = c) :
    (∀ other ∈ self.pool.idle, other.id ≠ c) ∧ (∀ other ∈ hands, other.id ≠ c) ∧ c < self.nextId := by
  have hsingle := h.single
  rw [copies_append, copies_own hid] at hsingle
  by_cases hmade : c < self.nextId
  · rw [if_pos hmade] at hsingle
    exact ⟨copies_eq_zero.mp (by omega), copies_eq_zero.mp (by omega), hmade⟩
  · rw [if_neg hmade] at hsingle
    omega

end Ledger

/-- What the books look at. -/
structure SameBooks (conn conn' : ClientConnection L) : Prop where
  id : conn'.id = conn.id
  count : conn'.requestCount = conn.requestCount
  read : conn'.keepAlive = conn.keepAlive

theorem steady_sameBooks (conn : ClientConnection L) : ClientConnection.Steady (SameBooks conn) where
  inbound _ h := ⟨h.1, h.2, h.3⟩
  writer _ h := ⟨h.1, h.2, h.3⟩
  close h := ⟨h.1, h.2, h.3⟩

namespace Ledger

variable {c : ℕ} {limit : Option ℕ} {hands : List (ClientConnection L)} {self other : Client L}
  {conn conn' : ClientConnection L}

theorem use (h : self.Ledger c limit (conn :: hands)) (hsame : SameBooks conn conn') :
    self.Ledger c limit (conn' :: hands) := by
  have hcopies : copies c (conn' :: hands) = copies c (conn :: hands) := by
    by_cases hid : conn.id = c
    · rw [copies_own hid, copies_own (hsame.id.trans hid)]
    · rw [copies_other hid, copies_other (hsame.id ▸ hid)]
  refine ⟨?_, h.unmade, h.idle, fun other hother hid => ?_, h.spent⟩
  · have hsingle := h.single
    rw [copies_append] at hsingle ⊢
    rwa [hcopies]
  · rcases List.mem_cons.mp hother with rfl | hother
    · rw [hsame.count, hsame.read]
      exact h.held conn List.mem_cons_self (hsame.id ▸ hid)
    · exact h.held other (List.mem_cons_of_mem _ hother) hid

theorem hand (h : self.Ledger c limit hands) {pool : ConnectionPool L} {e : Handout L} (hconn : e.conn = conn)
    (hsub : List.Subperm (conn :: pool.idle) self.pool.idle) :
    ((self.setPool pool).hands e).Ledger c limit (conn :: hands) := by
  have hmem : ∀ other ∈ conn :: pool.idle, other ∈ self.pool.idle := fun other hother => hsub.subset hother
  have hhands : ((self.setPool pool).hands e).handouts c = self.handouts c + if conn.id = c then 1 else 0 := by
    show (self.handed ++ [e]).countP _ = _
    rw [List.countP_append, List.countP_singleton, hconn]
    by_cases hid : conn.id = c
    · rw [if_pos hid, if_pos (beq_iff_eq.mpr hid)]
      rfl
    · rw [if_neg hid, if_neg (by rwa [beq_iff_eq])]
      rfl
  have hsingle : copies c (pool.idle ++ conn :: hands) ≤ if c < self.nextId then 1 else 0 := by
    have hle : copies c (conn :: pool.idle) ≤ copies c self.pool.idle := copies_le hsub
    have hold := h.single
    have hmove : copies c (pool.idle ++ conn :: hands) = copies c (conn :: pool.idle) + copies c hands := by
      rw [← copies_append]
      exact List.perm_middle.countP_eq _
    rw [copies_append] at hold
    omega
  by_cases hid : conn.id = c
  · rw [if_pos hid] at hhands
    obtain ⟨hcount, hlimit⟩ := h.idle conn (hmem conn List.mem_cons_self) hid
    have hmade : c < self.nextId := by
      by_contra hunmade
      rw [if_neg hunmade, copies_append, copies_own hid] at hsingle
      omega
    rw [if_pos hmade, copies_append, copies_own hid] at hsingle
    have hidle : ∀ other ∈ pool.idle, other.id ≠ c := copies_eq_zero.mp (by omega)
    have hheld : ∀ other ∈ hands, other.id ≠ c := copies_eq_zero.mp (by omega)
    refine ⟨?_, fun hunmade => absurd hmade (Nat.not_lt.mpr hunmade), fun other hother hown => ?_,
      fun other hother hown => ?_, fun max hmax => ⟨hmade, ?_⟩⟩
    · show copies c (pool.idle ++ conn :: hands) ≤ if c < self.nextId then 1 else 0
      rw [if_pos hmade, copies_append, copies_own hid]
      exact hsingle
    · exact absurd hown (hidle other hother)
    · rcases List.mem_cons.mp hother with rfl | hother
      · rw [hhands]
        exact ⟨hcount, fun max hmax => ⟨(hlimit max hmax).1, by omega⟩⟩
      · exact absurd hown (hheld other hother)
    · have hless := (hlimit max hmax).2
      unfold requestsOn
      omega
  · rw [if_neg hid] at hhands
    refine ⟨hsingle, fun hunmade => hhands.trans (h.unmade hunmade), fun other hother hown => ?_,
      fun other hother hown => ?_, fun max hmax => ?_⟩
    · rw [hhands]
      exact h.idle other (hmem other (List.mem_cons_of_mem conn hother)) hown
    · rw [hhands]
      rcases List.mem_cons.mp hother with rfl | hother
      · exact absurd hown hid
      · exact h.held other hother hown
    · unfold requestsOn
      rw [hhands]
      exact h.spent max hmax

theorem dial (h : self.Ledger c limit hands) (hid : conn.id = self.nextId) (hcount : conn.requestCount = 0)
    {dials : List (Except Error Dial)} :
    { self with dials := dials, nextId := self.nextId + 1 }.Ledger c limit (conn :: hands) := by
  by_cases hown : conn.id = c
  · have hunmade : ¬c < self.nextId := by omega
    have hzero := h.unmade (by omega)
    have hnone : copies c (self.pool.idle ++ hands) = 0 := by
      have hsingle := h.single
      rw [if_neg hunmade] at hsingle
      omega
    have hfree := copies_eq_zero.mp hnone
    refine ⟨?_, fun hnot => ?_, fun other hother hsame => ?_, fun other hother hsame => ?_, fun max hmax => ?_⟩
    · show copies c (self.pool.idle ++ conn :: hands) ≤ if c < self.nextId + 1 then 1 else 0
      rw [copies_append] at hnone
      rw [copies_append, copies_own hown, if_pos (by omega)]
      omega
    · exact hzero
    · exact absurd hsame (hfree other (List.mem_append_left _ hother))
    · rcases List.mem_cons.mp hother with rfl | hother
      · refine ⟨hcount.trans hzero.symm, fun max hmax => absurd (h.spent max hmax).1 hunmade⟩
      · exact absurd hsame (hfree other (List.mem_append_right _ hother))
    · exact absurd (h.spent max hmax).1 hunmade
  · refine ⟨?_, fun hnot => h.unmade (Nat.le_of_succ_le hnot), h.idle, fun other hother hsame => ?_, fun max hmax => ?_⟩
    · show copies c (self.pool.idle ++ conn :: hands) ≤ if c < self.nextId + 1 then 1 else 0
      have hsingle := h.single
      rw [copies_append] at hsingle ⊢
      rw [copies_other hown]
      split at hsingle <;> split <;> omega
    · rcases List.mem_cons.mp hother with rfl | hother
      · exact absurd hsame hown
      · exact h.held other hother hsame
    · exact ⟨Nat.lt_succ_of_lt (h.spent max hmax).1, (h.spent max hmax).2⟩

theorem file (h : self.Ledger c limit hands) {released fresh : ClientConnection L} (hid : fresh.id ≠ c)
    (hpool : other.pool = (self.pool.enlist released).append fresh) (hhanded : other.handed = self.handed)
    (hnext : other.nextId = self.nextId) : other.Ledger c limit hands := by
  have hsub : List.Sublist other.pool.idle (self.pool.idle ++ [fresh]) := by
    rw [hpool]
    exact ConnectionPool.append_sublist _ fresh
  have hcount : other.handouts c = self.handouts c := congrArg (List.countP _) hhanded
  refine ⟨?_, ?_, fun conn hconn hown => ?_, ?_, ?_⟩
  · have hle : copies c other.pool.idle ≤ copies c (self.pool.idle ++ [fresh]) := copies_le hsub.subperm
    have hsingle := h.single
    rw [copies_append, copies_other hid] at hle
    rw [copies_append] at hsingle ⊢
    rw [hnext]
    exact Nat.le_trans (Nat.add_le_add_right hle _) hsingle
  · rw [hnext, hcount]
    exact h.unmade
  · rw [hcount]
    rcases List.mem_append.mp (hsub.subset hconn) with hconn | hconn
    · exact h.idle conn hconn hown
    · obtain rfl := List.mem_singleton.mp hconn
      exact absurd hown hid
  · rw [hcount]
    exact h.held
  · unfold requestsOn
    rw [hnext, hcount]
    exact h.spent

/-- The connection itself comes into the pool, counted. -/
theorem fileOwn (h : self.Ledger c limit (conn :: hands)) {limit' : Option ℕ} {now : ℕ}
    {released fresh : ClientConnection L} (hid : conn.id = c) (hfiled : Filed now conn fresh)
    (hcount : conn.requestCount < 65535)
    (hlimit : ∀ max ∈ limit', self.requestsOn c ≤ max ∧ fresh.keepAlive.max = some max)
    (hpool : other.pool = (self.pool.enlist released).append fresh) (hhanded : other.handed = self.handed)
    (hnext : other.nextId = self.nextId) : other.Ledger c limit' hands := by
  obtain ⟨hidle, hheld, hmade⟩ := h.alone hid
  have hsub : List.Sublist other.pool.idle (self.pool.idle ++ [fresh]) := by
    rw [hpool]
    exact ConnectionPool.append_sublist _ fresh
  have hhandouts : other.handouts c = self.handouts c := congrArg (List.countP _) hhanded
  have hnow : fresh.requestCount = self.handouts c + 1 := by
    have hheld := (h.held conn List.mem_cons_self hid).1
    have hfresh := hfiled.count
    omega
  refine ⟨?_, fun hunmade => absurd hmade (by omega), fun conn' hconn' hown => ?_,
    fun conn' hconn' hown => absurd hown (hheld conn' hconn'), fun max hmax => ⟨hnext ▸ hmade, ?_⟩⟩
  · have hle : copies c other.pool.idle ≤ copies c (self.pool.idle ++ [fresh]) := copies_le hsub.subperm
    rw [copies_append, copies_eq_zero.mpr hidle, copies_own (hfiled.id.trans hid)] at hle
    rw [copies_append, copies_eq_zero.mpr hheld, hnext, if_pos hmade]
    exact hle
  · rw [hhandouts]
    rcases List.mem_append.mp (hsub.subset hconn') with hconn' | hconn'
    · exact absurd hown (hidle conn' hconn')
    · obtain rfl := List.mem_singleton.mp hconn'
      exact ⟨hnow, fun max hmax => ⟨(hlimit max hmax).2, hfiled.capped max (hlimit max hmax).2⟩⟩
  · unfold requestsOn
    rw [hhandouts]
    exact (hlimit max hmax).1

end Ledger

/-! ### Calls -/

/-- The books, as long as the pool has not been given the connection again. -/
structure Spent (c n : ℕ) (limit : Option ℕ) (hands : List (ClientConnection L)) (client : Client L) : Prop where
  grown : n ≤ copies c client.pool.enlisted
  books : copies c client.pool.enlisted = n → client.Ledger c limit hands

section spent
variable {c n : ℕ} {limit : Option ℕ} {hands : List (ClientConnection L)}

theorem Spent.map {self other : Client L} {hands' : List (ClientConnection L)} (h : self.Spent c n limit hands)
    (henlisted : other.pool.enlisted = self.pool.enlisted)
    (hbooks : self.Ledger c limit hands → other.Ledger c limit hands') : other.Spent c n limit hands' := by
  refine ⟨?_, fun hsame => hbooks (h.books ?_)⟩
  · rw [henlisted]
    exact h.grown
  · rw [← henlisted]
    exact hsame

theorem Spent.drop {self : Client L} {conn : ClientConnection L} (h : self.Spent c n limit (conn :: hands)) :
    self.Spent c n limit hands :=
  h.map rfl Ledger.drop

theorem Spent.alike {self other : Client L} (h : self.Spent c n limit hands) (halike : Alike self other) :
    other.Spent c n limit hands :=
  h.map (by rw [halike.pool]) fun h => h.congr (by rw [halike.pool]) halike.handed halike.nextId

/-- A connection is taken into the hands. -/
def Taken (c n : ℕ) (limit : Option ℕ) (hands : List (ClientConnection L)) (conn : ClientConnection L)
    (self : Client L) : Prop :=
  self.Spent c n limit (conn :: hands)

/-- **A connection is acquired.** -/
theorem acquireConnection_spent (host : Bytes) (port : ℕ) (protocol : Protocol) (unixSocketPath : Option Bytes) :
    Triple (Spent c n limit hands)
      (acquireConnection host port protocol unixSocketPath : Act (Client L) (ClientConnection L))
      (Taken c n limit hands) fun _ => Spent c n limit hands := by
  have hsub := fun self : Client L => fun t =>
    @ConnectionPool.acquire_subperm L t (·.accepts host port protocol unixSocketPath) self.pool
  refine triple_acquireConnection Spent.alike (fun self t conn h hfound => ?_) (fun self t h hnone => ?_)
    fun _ _ _ h => h.map rfl fun h => h.dial rfl rfl
  · have hsub := hsub self t
    rw [hfound] at hsub
    exact h.map (self.pool.acquire_enlisted t _) fun h => h.hand rfl hsub
  · have hsub := hsub self t
    rw [hnone] at hsub
    refine h.map (self.pool.acquire_enlisted t _) fun h => ?_
    refine ⟨?_, h.unmade, fun conn hconn => h.idle conn (hsub.subset hconn), h.held, h.spent⟩
    exact Nat.le_trans (copies_le ((List.subperm_append_right hands).mpr hsub)) h.single

/-- **A release to the pool** keeps the books, unless the connection itself comes there. -/
theorem releaseToPool_spent (conn : ClientConnection L) :
    Triple (Spent c n limit (conn :: hands)) (releaseToPool conn) (fun _ => Spent c n limit hands)
      fun _ => Spent c n limit hands := by
  refine (triple_releaseToPool (R := Spent c n limit hands) Spent.alike
    (fun _ h => h.drop.map rfl fun h => h.congr rfl rfl rfl) fun self fresh hself _ hreset => ?_).weaken
    (fun _ h => h) (fun _ _ h => h) fun _ _ h => h.2.drop
  obtain ⟨-, -, -, hid⟩ := ClientConnection.reset_keeps hreset
  have henlisted : copies c ((self.pool.enlist conn).append fresh).enlisted =
      copies c self.pool.enlisted + copies c [conn] := by
    rw [ConnectionPool.append_enlisted]
    exact copies_append
  have hgrown := hself.grown
  refine ⟨?_, fun hsame => ?_⟩
  · show n ≤ copies c ((self.pool.enlist conn).append fresh).enlisted
    omega
  · change copies c ((self.pool.enlist conn).append fresh).enlisted = n at hsame
    have hother : conn.id ≠ c := by
      intro hown
      rw [copies_own hown] at henlisted
      omega
    have hbooks := hself.books (by omega)
    exact hbooks.drop.file (hid ▸ hother) rfl rfl rfl

/-- What one request returns. -/
def Answers (c n : ℕ) (limit : Option ℕ) (hands : List (ClientConnection L)) :
    ClientResponse L ⊕ FetchState → Client L → Prop
  | .inl response => Spent c n limit (response.conn :: hands)
  | .inr _ => Spent c n limit hands

theorem afterExchange_spent (state : FetchState) (host : Bytes) (maxResponseSize : ℕ)
    (result : Except Error (Option RedirectTarget) × ClientConnection L) :
    Triple (Spent c n limit (result.2 :: hands)) (afterExchange state host maxResponseSize result)
      (Answers c n limit hands) fun _ => Spent c n limit hands := by
  obtain ⟨r, conn⟩ := result
  cases r with
  | error e =>
      rw [afterExchange]
      exact Triple.bind (releaseToPool_spent conn) fun _ => triple_fail fun _ h => h
  | ok target =>
      cases target with
      | none =>
          rw [afterExchange]
          exact triple_pure fun self hself => hself
      | some target =>
          rw [afterExchange]
          exact Triple.bind (releaseToPool_spent conn) fun _ => Triple.bind (keeps_orFail _) fun next =>
            triple_pure fun self hself => hself

theorem onConn_spent {α : Type} {x : Act (ClientConnection L) α} {conn : ClientConnection L}
    (hx : Keeps (SameBooks conn) x) :
    Triple (Spent c n limit (conn :: hands)) (onConn x conn)
      (fun result => Spent c n limit (result.2 :: hands)) fun _ => Spent c n limit hands :=
  (onConn_ran x conn).weaken (fun _ h => h)
    (fun _ _ h => h.1.map rfl fun books => books.use (h.2.keeps hx ⟨rfl, rfl, rfl⟩)) fun _ _ h => h.drop

/-- **One request.** -/
theorem fetchHop_spent (state : FetchState) (redirectsRemaining : ℕ) :
    Triple (Spent c n limit hands) (fetchHop state redirectsRemaining : Act (Client L) _)
      (Answers c n limit hands) fun _ => Spent c n limit hands := by
  refine Triple.bind (keeps_orFail _) fun host => Triple.bind (keeps_prepareTls Spent.alike _) fun _ =>
    Triple.bind (acquireConnection_spent _ _ _ _) fun conn => triple_get_bind fun self => ?_
  split
  · refine Triple.bind (Q := fun _ => Spent c n limit hands) ?_ fun _ => triple_fail fun _ h => h
    exact (releaseToPool_spent conn.close).weaken
      (fun _ h => h.1.map rfl fun books => books.use ((steady_sameBooks conn).close ⟨rfl, rfl, rfl⟩))
      (fun _ _ h => h) fun _ _ h => h
  · refine Triple.bind (Q := fun _ => Taken c n limit hands conn)
      (triple_modify fun _ h => h.1.map rfl fun books => books.congr rfl rfl rfl) fun _ => ?_
    exact Triple.bind (onConn_spent ((steady_sameBooks conn).exchange _ _ _)) fun result =>
      afterExchange_spent state host _ result

theorem fetchInternal_spent (redirectsRemaining : ℕ) (state : FetchState) :
    Triple (Spent c n limit hands) (fetchInternal redirectsRemaining state : Act (Client L) _)
      (fun response => Taken c n limit hands response.conn) fun _ => Spent c n limit hands := by
  induction redirectsRemaining generalizing state with
  | zero =>
      refine Triple.bind (fetchHop_spent state 0) fun result => ?_
      cases result with
      | inl response => exact triple_pure fun _ h => h
      | inr next => exact triple_die fun _ h => h
  | succ redirectsRemaining ih =>
      refine Triple.bind (fetchHop_spent state _) fun result => ?_
      cases result with
      | inl response => exact triple_pure fun _ h => h
      | inr next => exact ih next

/-- **A fetch.** -/
theorem fetch_spent (url : Bytes) (options : FetchOptions) :
    Triple (Spent c n limit hands) (fetch url options : Act (Client L) _)
      (fun response => Taken c n limit hands response.conn) fun _ => Spent c n limit hands := by
  unfold fetch
  split
  · exact triple_fail fun _ h => h
  · refine Triple.bind (keeps_orFail _) fun info => triple_get_bind fun self => ?_
    exact (fetchInternal_spent _ _).weaken (fun _ h => h.1) (fun _ _ h => h) fun _ _ h => h

/-- **A WebSocket connection.** -/
theorem connectWebSocket_spent (url : Bytes) (options : WebSocketUpgradeOptions) (random : Bytes) :
    Triple (Spent c n limit hands) (connectWebSocket url options random : Act (Client L) _)
      (fun _ => Spent c n limit hands) fun _ => Spent c n limit hands := by
  unfold connectWebSocket
  split
  · exact triple_fail fun _ h => h
  · refine Triple.bind (keeps_orFail _) fun info => Triple.bind (keeps_orFail _) fun host =>
      Triple.bind (keeps_prepareTls Spent.alike _) fun _ => Triple.bind (Q := fun _ => Spent c n limit hands) ?_ fun _ => ?_
    · unfold validateHost
      split
      · exact triple_pure fun _ h => h
      · exact triple_fail fun _ h => h
    · refine Triple.bind (acquireConnection_spent _ _ _ _) fun conn =>
        Triple.bind (onConn_spent ((steady_sameBooks conn).upgrade _ _)) fun result => ?_
      obtain ⟨r, conn'⟩ := result
      cases r with
      | ok u => exact triple_pure fun _ h => h.drop
      | error e =>
          exact Triple.bind (Q := fun _ => Spent c n limit hands)
            (triple_modify fun _ h => h.drop.map rfl fun books => books.congr rfl rfl rfl)
            fun _ => triple_fail fun _ h => h

end spent

/-! ### What is counted -/

/-- Up to so many requests more than connections were made and handed out. -/
def Accounted (n : ℕ) (client : Client L) : Prop :=
  client.requests.length ≤ client.nextId + client.handed.length + n

section accounted
variable {n : ℕ}

theorem Accounted.alike {self other : Client L} (h : self.Accounted n) (halike : Alike self other) :
    other.Accounted n := by
  unfold Accounted
  rw [halike.requests, halike.nextId, halike.handed]
  exact h

theorem acquireConnection_accounted (host : Bytes) (port : ℕ) (protocol : Protocol) (unixSocketPath : Option Bytes) :
    Triple (Accounted n) (acquireConnection host port protocol unixSocketPath : Act (Client L) (ClientConnection L))
      (fun _ self => self.requests.length + 1 ≤ self.nextId + self.handed.length + n) fun _ => Accounted n := by
  refine triple_acquireConnection Accounted.alike (fun self t conn h _ => ?_) (fun _ _ h _ => h)
    fun self dial rest h => ?_
  · show self.requests.length + 1 ≤ self.nextId + (self.handed ++ [_]).length + n
    have h : self.requests.length ≤ self.nextId + self.handed.length + n := h
    rw [List.length_append, List.length_singleton]
    omega
  · show self.requests.length + 1 ≤ self.nextId + 1 + self.handed.length + n
    have h : self.requests.length ≤ self.nextId + self.handed.length + n := h
    omega

theorem releaseToPool_accounted (conn : ClientConnection L) :
    Keeps (Accounted n) (releaseToPool conn : Act (Client L) Unit) :=
  (triple_releaseToPool Accounted.alike (fun _ h => h) fun _ _ h _ _ => h).weaken (fun _ h => h) (fun _ _ h => h)
    fun _ _ h => h.2

theorem fetchHop_accounted (state : FetchState) (redirectsRemaining : ℕ) :
    Keeps (Accounted n) (fetchHop state redirectsRemaining : Act (Client L) _) := by
  refine Triple.bind (keeps_orFail _) fun host => Triple.bind (keeps_prepareTls Accounted.alike _) fun _ =>
    Triple.bind (acquireConnection_accounted _ _ _ _) fun conn => triple_get_bind fun self => ?_
  split
  · refine Triple.bind ((releaseToPool_accounted conn.close).weaken (fun self h => ?_) (fun _ _ h => h) fun _ _ h => h)
      fun _ => triple_fail fun _ h => h
    exact Nat.le_of_succ_le h.1
  · refine Triple.bind (Q := fun _ => Accounted n) (triple_modify fun self h => ?_) fun _ =>
      Triple.bind ((onConn_ran _ conn).weaken (fun _ h => h) (fun _ _ h => h.1) fun _ _ h => h) fun result => ?_
    · show (self.requests ++ [_]).length ≤ _
      rw [List.length_append, List.length_singleton]
      exact h.1
    · obtain ⟨r, conn'⟩ := result
      cases r with
      | error e =>
          rw [afterExchange]
          exact Triple.bind (releaseToPool_accounted conn') fun _ => triple_fail fun _ h => h
      | ok target =>
          cases target with
          | none => exact keeps_pure _
          | some target =>
              rw [afterExchange]
              exact Triple.bind (releaseToPool_accounted conn') fun _ => Triple.bind (keeps_orFail _) fun next =>
                triple_pure fun _ h => h

theorem fetchInternal_accounted (redirectsRemaining : ℕ) (state : FetchState) :
    Keeps (Accounted n) (fetchInternal redirectsRemaining state : Act (Client L) _) := by
  induction redirectsRemaining generalizing state with
  | zero =>
      refine Triple.bind (fetchHop_accounted state 0) fun result => ?_
      cases result with
      | inl response => exact triple_pure fun _ h => h
      | inr next => exact triple_die fun _ h => h
  | succ redirectsRemaining ih =>
      refine Triple.bind (fetchHop_accounted state _) fun result => ?_
      cases result with
      | inl response => exact triple_pure fun _ h => h
      | inr next => exact ih next

/-- **Every request is counted**: a fetch sends no more requests than it makes connections and is handed them. -/
theorem fetch_accounted (url : Bytes) (options : FetchOptions) :
    Keeps (Accounted n) (fetch url options : Act (Client L) _) := by
  unfold fetch
  split
  · exact triple_fail fun _ h => h
  · refine Triple.bind (keeps_orFail _) fun info => triple_get_bind fun self => ?_
    exact (fetchInternal_accounted _ _).weaken (fun _ h => h.1) (fun _ _ h => h) fun _ _ h => h

end accounted

end Client

/-! ### Runs -/

/-- A call that leaves the limit of the connection alone: the pool is not given the connection, unless a
response releases it whose count is not at its largest value. -/
inductive Thrifty (c : ℕ) : ClientRun L → ClientRun L → Prop
  | kept {s s' : ClientRun L} (hs : ClientStep s s')
      (hsame : copies c s'.client.pool.enlisted = copies c s.client.pool.enlisted) : Thrifty c s s'
  | deinit {client : Client L} {pre : List (ClientResponse L)} {response : ClientResponse L}
      {post : List (ClientResponse L)} {client' : Client L} (h : Client.deinit response client = .ok () client')
      (hcount : response.conn.id = c → response.conn.requestCount < 65535) :
      Thrifty c ⟨client, pre ++ response :: post⟩ ⟨client', pre ++ post⟩

namespace ClientRun

open Client

variable {c : ℕ} {limit : Option ℕ}

/-- The connections of the responses. -/
def hands (s : ClientRun L) : List (ClientConnection L) := s.responses.map (·.conn)

/-- The books of a run. -/
def Booked (c : ℕ) (limit : Option ℕ) (s : ClientRun L) : Prop := s.client.Ledger c limit s.hands

theorem hands_middle {client : Client L} {pre post : List (ClientResponse L)} {response : ClientResponse L} :
    (hands ⟨client, pre ++ response :: post⟩).Perm (response.conn :: hands ⟨client, pre ++ post⟩) := by
  unfold hands
  rw [List.map_append, List.map_append, List.map_cons]
  exact List.perm_middle

theorem Booked.middle {client : Client L} {pre post : List (ClientResponse L)} {response : ClientResponse L}
    (h : Booked c limit ⟨client, pre ++ response :: post⟩) :
    client.Ledger c limit (response.conn :: hands ⟨client, pre ++ post⟩) :=
  Ledger.mono h hands_middle.symm.subperm

theorem booked_start {client : Client L} (hpool : client.pool = { maxIdle := client.pool.maxIdle })
    (hhanded : client.handed = []) : Booked c none ⟨client, []⟩ := by
  have hzero : client.handouts c = 0 := by
    unfold handouts
    rw [hhanded]
    rfl
  refine ⟨?_, fun _ => hzero, ?_, fun conn hconn => ?_, fun max hmax => ?_⟩
  · rw [hpool]
    exact Nat.zero_le _
  · rw [hpool]
    exact fun conn hconn => absurd hconn List.not_mem_nil
  · exact absurd hconn List.not_mem_nil
  · cases hmax

/-- A response that is released, its connection counted or another's. -/
theorem Booked.deinit {client client' : Client L} {pre post : List (ClientResponse L)}
    {response : ClientResponse L} (h : Booked c limit ⟨client, pre ++ response :: post⟩)
    (hdeinit : Client.deinit response client = .ok () client')
    (hcount : response.conn.id = c → response.conn.requestCount < 65535) :
    Booked c limit ⟨client', pre ++ post⟩ := by
  obtain ⟨hsettled, hhanded, hnext⟩ := release_ok hdeinit
  have hbooks := h.middle
  cases hsettled with
  | destroyed hidle henlisted => exact hbooks.drop.congr hidle hhanded hnext
  | filed released fresh hid hfiled hpool =>
      by_cases hown : response.conn.id = c
      · obtain ⟨hheld, hlimit⟩ := hbooks.held _ List.mem_cons_self hown
        refine hbooks.fileOwn hown hfiled (hcount hown) (fun max hmax => ⟨(hbooks.spent max hmax).2, ?_⟩) hpool hhanded hnext
        obtain ⟨hmax, hlater⟩ := hlimit max hmax
        rw [hfiled.read, if_neg (by omega)]
        exact hmax
      · exact hbooks.drop.file (hfiled.id ▸ hown) hpool hhanded hnext

/-- **The first response**: its limit is read. -/
theorem Booked.first {client client' : Client L} {pre post : List (ClientResponse L)} {response : ClientResponse L}
    (h : Booked c none ⟨client, pre ++ response :: post⟩) (hown : response.conn.id = c)
    (hfirst : response.conn.requestCount = 0) {value : Bytes} {max : ℕ}
    (hheader : response.conn.parsedResponse.headers.get (ascii "Keep-Alive") = some value)
    (hmax : (parseKeepAliveHeader value).max = some max) (hpos : 1 ≤ max)
    (hdeinit : Client.deinit response client = .ok () client') : Booked c (some max) ⟨client', pre ++ post⟩ := by
  obtain ⟨hsettled, hhanded, hnext⟩ := release_ok hdeinit
  have hbooks := h.middle
  obtain ⟨hidle, hheld, hmade⟩ := hbooks.alone hown
  have hone : client.requestsOn c = 1 := by
    have hcount := (hbooks.held _ List.mem_cons_self hown).1
    unfold requestsOn
    omega
  cases hsettled with
  | destroyed hidle' henlisted =>
      refine Ledger.congr ?_ hidle' hhanded hnext
      refine ⟨hbooks.drop.single, hbooks.unmade, fun conn hconn hid => absurd hid (hidle conn hconn),
        fun conn hconn hid => absurd hid (hheld conn hconn), fun limit hlimit => ⟨hmade, ?_⟩⟩
      obtain rfl := Option.some.inj hlimit
      rw [hone]
      exact hpos
  | filed released fresh hid hfiled hpool =>
      refine hbooks.fileOwn hown hfiled (by omega) (fun limit hlimit => ?_) hpool hhanded hnext
      obtain rfl := Option.some.inj hlimit
      refine ⟨hone ▸ hpos, ?_⟩
      rw [hfiled.read, if_pos (by omega), hheader]
      exact hmax

/-- **Every thrifty call** keeps the books. -/
theorem Booked.step {s s' : ClientRun L} (h : Booked c limit s) (hs : Thrifty c s s') : Booked c limit s' := by
  cases hs with
  | deinit hdeinit hcount => exact h.deinit hdeinit hcount
  | kept hs hsame =>
      have hspent : s.client.Spent c (copies c s.client.pool.enlisted) limit s.hands := ⟨le_rfl, fun _ => h⟩
      cases hs with
      | @fetched _ url options response client hfetch =>
          have hbooks := ((fetch_spent _ _).ok hspent hfetch).books hsame
          have hhands : (hands ⟨client, s.responses ++ [response]⟩).Perm (response.conn :: s.hands) := by
            unfold hands
            rw [List.map_append]
            exact List.perm_append_comm
          exact Ledger.mono hbooks hhands.subperm
      | failed hfetch => exact ((fetch_spent _ _).error hspent hfetch).books hsame
      | connected hconnect => exact ((connectWebSocket_spent _ _ _).ok hspent hconnect).books hsame
      | refused hconnect => exact ((connectWebSocket_spent _ _ _).error hspent hconnect).books hsame
      | read client pre response post inbound =>
          have hbooks := h.middle.use ((steady_sameBooks response.conn).inbound inbound ⟨rfl, rfl, rfl⟩)
          refine Ledger.mono hbooks (List.Perm.subperm ?_)
          exact @hands_middle L client pre post _
      | @deinit client pre response post client' hdeinit =>
          obtain ⟨hsettled, hhanded, hnext⟩ := release_ok hdeinit
          have hbooks := h.middle
          cases hsettled with
          | destroyed hidle henlisted => exact hbooks.drop.congr hidle hhanded hnext
          | filed released fresh hid hfiled hpool =>
              have hother : response.conn.id ≠ c := by
                intro hown
                change copies c client'.pool.enlisted = copies c client.pool.enlisted at hsame
                have hmore : copies c client'.pool.enlisted = copies c client.pool.enlisted + copies c [released] := by
                  rw [hpool, ConnectionPool.append_enlisted]
                  exact copies_append
                rw [copies_own (hid.trans hown)] at hmore
                omega
              exact hbooks.drop.file (hfiled.id ▸ hother) hpool hhanded hnext

/-- **Every thrifty run** keeps the books. -/
theorem Booked.run {s s' : ClientRun L} (h : Booked c limit s) (hrun : Relation.ReflTransGen (Thrifty c) s s') :
    Booked c limit s' := by
  induction hrun with
  | refl => exact h
  | tail _ hs ih => exact ih.step hs

/-- **The request budget.**  A run comes to the release of the first response on a connection, whose header
limits the number of requests.  However it goes on, the requests on the connection are no more than that, if
all its calls are thrifty. -/
theorem budget_kept {start client client' : Client L} {pre post : List (ClientResponse L)}
    {response : ClientResponse L} {value : Bytes} {max : ℕ} {s : ClientRun L}
    (hpool : start.pool = { maxIdle := start.pool.maxIdle }) (hhanded : start.handed = [])
    (hbefore : Relation.ReflTransGen (Thrifty response.conn.id) ⟨start, []⟩ ⟨client, pre ++ response :: post⟩)
    (hfirst : response.conn.requestCount = 0)
    (hheader : response.conn.parsedResponse.headers.get (ascii "Keep-Alive") = some value)
    (hmax : (parseKeepAliveHeader value).max = some max) (hpos : 1 ≤ max)
    (hdeinit : Client.deinit response client = .ok () client')
    (hafter : Relation.ReflTransGen (Thrifty response.conn.id) ⟨client', pre ++ post⟩ s) :
    client.requestsOn response.conn.id = 1 ∧ s.client.requestsOn response.conn.id ≤ max := by
  have hbooked := (booked_start hpool hhanded).run hbefore
  have hcount := (hbooked.middle.held _ List.mem_cons_self rfl).1
  have hlast := (hbooked.first rfl hfirst hheader hmax hpos hdeinit).run hafter
  refine ⟨?_, (hlast.spent max rfl).2⟩
  unfold requestsOn
  omega

/-- The first answer limits the connection to one request, and redirects. -/
def redirectedOnce : Client (Http1.llhttp true) :=
  answered [[ascii "HTTP/1.1 302 Found\r\nLocation: /b\r\nContent-Length: 0\r\nKeep-Alive: max=1\r\n\r\n",
    ascii "HTTP/1.1 200 OK\r\nContent-Length: 0\r\n\r\n"]]

/-- The redirect is followed on the same connection, which is the only one. -/
theorem budget_overrun : (parseKeepAliveHeader (ascii "max=1")).max = some 1 ∧
    yields (fun _ client => decide (client.nextId = 1) && decide (client.requests.length = 2) &&
      decide (client.requestsOn 0 = 2)) (fetch (ascii "http://a/") {}) redirectedOnce = true :=
  ⟨by decide +kernel, by decide +kernel⟩

/-- The first answer limits the connection to two requests. -/
def limitedTwice : Client (Http1.llhttp true) :=
  answered [[ascii "HTTP/1.1 200 OK\r\nContent-Length: 0\r\nKeep-Alive: max=2\r\n\r\n",
    ascii "HTTP/1.1 200 OK\r\nContent-Length: 0\r\n\r\n"]]

theorem budget_kept_sample : ∃ (first last : ClientResponse (Http1.llhttp true)) (client₁ client₂ client₃ : Client _),
    fetch (ascii "http://a/") {} limitedTwice = .ok first client₁ ∧ Client.deinit first client₁ = .ok () client₂ ∧
      fetch (ascii "http://a/") {} client₂ = .ok last client₃ ∧ client₃.requestsOn 0 ≤ 2 := by
  have hrun : yields (fun first client₁ => yields (fun _ client₂ => yields (fun _ client₃ =>
      decide (first.conn.id = 0) && decide (first.conn.requestCount = 0) &&
        decide (first.conn.parsedResponse.headers.get (ascii "Keep-Alive") = some (ascii "max=2")) &&
        decide (copies 0 client₁.pool.enlisted = 0) &&
        decide (copies 0 client₃.pool.enlisted = copies 0 client₂.pool.enlisted))
        (fetch (ascii "http://a/") {}) client₂) (Client.deinit first) client₁)
      (fetch (ascii "http://a/") {}) limitedTwice = true := by
    decide +kernel
  obtain ⟨first, client₁, hfetch, hrun⟩ := yields_iff.mp hrun
  obtain ⟨⟨⟩, client₂, hdeinit, hrun⟩ := yields_iff.mp hrun
  obtain ⟨last, client₃, hagain, htests⟩ := yields_iff.mp hrun
  simp only [Bool.and_eq_true, decide_eq_true_eq] at htests
  obtain ⟨⟨⟨⟨hid, hcount⟩, hheader⟩, hnone⟩, hsame⟩ := htests
  refine ⟨first, last, client₁, client₂, client₃, hfetch, hdeinit, hagain, ?_⟩
  have hbudget := @budget_kept (Http1.llhttp true) _ client₁ client₂ [] [] first (ascii "max=2") 2 ⟨client₃, [last]⟩
    rfl rfl (.single (.kept (.fetched hfetch) ?_)) hcount hheader (by decide +kernel) (by decide) hdeinit
    (.single (.kept (.fetched hagain) ?_))
  · rw [hid] at hbudget
    exact hbudget.2
  · rw [hid]
    exact hnone
  · rw [hid]
    exact hsame

end ClientRun
end Dusty
