import Dusty.ClientWebSocket
import Dusty.Hoare
import Dusty.Pool

/-! # Runs of a client

Any number of calls of `fetch` and `connectWebSocket`, of responses that are read and released,
in any order.  What a run keeps: a connection remembers what it was made for, what is idle came
into the pool through `reset`, and what the pool hands out was idle. -/

namespace Dusty

open Act

/-! ### Connections in use -/

namespace ClientConnection

variable {L : Llhttp}

/-- The property looks at nothing that a use of the connection changes. -/
structure Steady (K : ClientConnection L → Prop) : Prop where
  inbound : ∀ {conn} inbound, K conn → K (conn.setInbound inbound)
  writer : ∀ {conn} writer, K conn → K (conn.setWriter writer)
  close : ∀ {conn}, K conn → K conn.close

/-- The connection is filed under what it was made for. -/
structure Stamped (conn : ClientConnection L) : Prop where
  protocol : conn.protocol = conn.dialed.protocol
  port : conn.port = conn.dialed.port
  host : conn.host = conn.dialed.host.take 255
  unixPath : conn.unixPath = conn.dialed.unixSocketPath.filter (· ≠ [])

theorem steady_stamped : Steady (L := L) Stamped where
  inbound _ h := ⟨h.1, h.2, h.3, h.4⟩
  writer _ h := ⟨h.1, h.2, h.3, h.4⟩
  close h := ⟨h.1, h.2, h.3, h.4⟩

namespace Steady

variable {K : ClientConnection L → Prop} (h : Steady K)
include h

theorem onInbound {α : Type} (x : Act (Inbound L ParsedResponse) α) :
    Keeps K (ClientConnection.onInbound x) :=
  keeps_zoom fun conn hconn _ _ => by
    cases x _ <;> exact h.inbound _ hconn

theorem onWriter {α : Type} (x : Act Conn α) :
    Keeps K (ClientConnection.onWriter x : Act (ClientConnection L) α) :=
  keeps_zoom fun conn hconn _ _ => by
    cases x _ <;> exact h.writer _ hconn

theorem closeIf {conn : ClientConnection L} (hconn : K conn) (b : Bool) : K (conn.closeIf b) := by
  unfold ClientConnection.closeIf
  split
  · exact h.close hconn
  · exact hconn

theorem closes : Keeps K (modify ClientConnection.close) := keeps_modify fun _ => h.close

theorem receiveHeaders : Keeps K (Client.receiveHeaders : Act (ClientConnection L) Unit) := by
  refine (h.onInbound _).attempt.bind fun r => ?_
  cases r with
  | ok u => exact keeps_pure _
  | error e =>
      exact h.closes.bind fun _ => keeps_get_bind fun _ _ => keeps_fail _

theorem drainRedirect : Keeps K (Client.drainRedirect : Act (ClientConnection L) Unit) := by
  refine keeps_get_bind fun self _ => Keeps.bind (Keeps.when ?_ _) fun _ =>
    keeps_get_bind fun self _ => keeps_modify fun _ hconn => h.closeIf hconn _
  refine (h.onInbound _).attempt.bind fun r => ?_
  cases r with
  | ok n => exact keeps_get_bind fun self _ => keeps_modify fun _ hconn => h.closeIf hconn _
  | error e =>
      exact h.closes.bind fun _ => keeps_get_bind fun _ _ => keeps_fail _

theorem findRedirect (state : FetchState) (redirectsRemaining : ℕ) :
    Keeps K (Client.findRedirect state redirectsRemaining : Act (ClientConnection L) _) := by
  refine keeps_get_bind fun self _ => ?_
  dsimp only
  split
  · split
    · exact keeps_pure _
    · next location _ =>
        refine Keeps.bind ?_ fun target => h.drainRedirect.bind fun _ => keeps_pure _
        cases Client.locate state.uri location with
        | ok target => exact keeps_pure _
        | error e => exact keeps_fail _
  · exact keeps_pure _

/-- An exchange keeps what no use of the connection changes. -/
theorem exchange (state : FetchState) (opts : WriteRequestOptions) (redirectsRemaining : ℕ) :
    Keeps K (Client.exchange state opts redirectsRemaining : Act (ClientConnection L) _) := by
  refine ((h.onWriter _).onError fun _ => h.close).bind fun _ =>
    ((h.onWriter _).onError fun _ => h.close).bind fun _ =>
      h.receiveHeaders.bind fun _ => keeps_get_bind fun self _ => ?_
  split
  · exact (keeps_modify fun _ hconn => h.closeIf hconn _).bind fun _ => keeps_fail _
  · exact h.findRedirect state redirectsRemaining

theorem upgrade (opts : WriteRequestOptions) (key : Bytes) :
    Keeps K (Client.upgrade opts key : Act (ClientConnection L) Unit) := by
  refine (h.onWriter _).bind fun _ => (h.onWriter _).bind fun _ =>
    (h.onInbound _).attempt.bind fun r => ?_
  cases r with
  | ok u =>
      refine keeps_get_bind fun self _ => ?_
      split
      · exact keeps_pure _
      · exact keeps_fail _
  | error e => exact keeps_get_bind fun self _ => keeps_fail _

end Steady

theorem Stamped.reset {conn fresh : ClientConnection L} (h : conn.Stamped)
    (hreset : ClientConnection.reset conn = .ok () fresh) : fresh.Stamped := by
  obtain ⟨-, rfl⟩ := reset_eq_ok hreset
  exact ⟨h.1, h.2, h.3, h.4⟩

theorem Stamped.settle {conn : ClientConnection L} (h : conn.Stamped) :
    (Client.settle conn).Stamped := by
  have hclosed : ∀ b, (conn.closeIf b).Stamped := fun b => steady_stamped.closeIf h b
  have hcounted : ∀ n, { conn.closeIf (!conn.isBodyComplete) with requestCount := n }.Stamped :=
    fun _ => ⟨(hclosed _).1, (hclosed _).2, (hclosed _).3, (hclosed _).4⟩
  unfold Client.settle
  dsimp only
  split
  · exact steady_stamped.close (hcounted _)
  · split
    · split
      · exact ⟨(hclosed _).1, (hclosed _).2, (hclosed _).3, (hclosed _).4⟩
      · exact hcounted _
    · exact hcounted _

end ClientConnection

/-! ### The parts of a call -/

namespace Client

variable {L : Llhttp}

/-- The clients have the same connections and have sent the same requests. -/
structure Alike (c c' : Client L) : Prop where
  pool : c'.pool = c.pool
  nextId : c'.nextId = c.nextId
  requests : c'.requests = c.requests
  handed : c'.handed = c.handed

theorem keeps_orFail {P : Client L → Prop} {α : Type} (r : Except Error α) :
    Keeps P (orFail r : Act (Client L) α) := by
  cases r with
  | ok a => exact keeps_pure _
  | error e => exact keeps_fail _

section parts
variable {P : Client L → Prop} {Q : ClientConnection L → Client L → Prop}
  (hP : ∀ {self other : Client L}, P self → Alike self other → P other)
include hP

theorem keeps_prepareTls (protocol : Protocol) : Keeps P (prepareTls protocol : Act (Client L) Unit) := by
  refine keeps_get_bind fun self _ => Keeps.when ?_ _
  split
  · exact keeps_fail _
  · refine keeps_get_bind fun self _ => ?_
    split
    · exact keeps_pure _
    · split
      · exact keeps_fail _
      · exact keeps_modify fun _ h => hP h ⟨rfl, rfl, rfl, rfl⟩

theorem keeps_now : Keeps P (now : Act (Client L) ℕ) :=
  keeps_get_bind fun _ _ => Keeps.bind (keeps_modify fun _ h => hP h ⟨rfl, rfl, rfl, rfl⟩) fun _ => keeps_pure _

theorem triple_dialNew {host : Bytes} {port : ℕ} {protocol : Protocol} {unixSocketPath : Option Bytes}
    (hdialed : ∀ (self : Client L) dial rest, P self → Q (self.connect dial host port protocol unixSocketPath)
      { self with dials := rest, nextId := self.nextId + 1 }) :
    Triple P (dialNew host port protocol unixSocketPath) Q fun _ => P := by
  refine triple_get_bind fun self => ?_
  split
  · exact triple_fail fun _ h => h.1
  · split
    · exact triple_fail fun _ h => h.1
    · exact Triple.bind (Q := fun _ => P) (triple_modify fun _ h => hP h.1 ⟨rfl, rfl, rfl, rfl⟩) fun _ =>
        triple_fail fun _ h => h
    · next dial rest _ =>
        refine Triple.bind (Q := fun _ => Q (self.connect dial host port protocol unixSocketPath))
          (triple_modify fun client h => ?_) fun _ => triple_pure fun _ h => h
        obtain ⟨h, rfl⟩ := h
        exact hdialed client dial rest h

/-- **A connection is acquired**: it is one of the pool's, or a new one. -/
theorem triple_acquireConnection {host : Bytes} {port : ℕ} {protocol : Protocol} {unixSocketPath : Option Bytes}
    (hfound : ∀ (self : Client L) t conn, P self →
      (self.pool.acquire t (·.accepts host port protocol unixSocketPath)).1 = some conn →
      Q conn ((self.setPool (self.pool.acquire t (·.accepts host port protocol unixSocketPath)).2).hands
        ⟨⟨host, port, protocol, unixSocketPath⟩, t, self.pool.idle, conn⟩))
    (hnone : ∀ (self : Client L) t, P self →
      (self.pool.acquire t (·.accepts host port protocol unixSocketPath)).1 = none →
      P (self.setPool (self.pool.acquire t (·.accepts host port protocol unixSocketPath)).2))
    (hdialed : ∀ (self : Client L) dial rest, P self → Q (self.connect dial host port protocol unixSocketPath)
      { self with dials := rest, nextId := self.nextId + 1 }) :
    Triple P (acquireConnection host port protocol unixSocketPath) Q fun _ => P := by
  refine Triple.bind (keeps_now hP) fun t => ?_
  intro self hself
  rw [bind_ok (get_run self)]
  have hfound := fun conn => hfound self t conn hself
  have hnone := hnone self t hself
  generalize self.pool.acquire t (·.accepts host port protocol unixSocketPath) = result at hfound hnone ⊢
  obtain ⟨found, pool⟩ := result
  dsimp only at hfound hnone ⊢
  rw [bind_ok (modify_run _ _)]
  cases found with
  | none => exact triple_dialNew hP hdialed _ (hnone rfl)
  | some conn => exact hfound conn rfl

/-- **A connection is given back**: it is closed, or reset and put into the pool. -/
theorem triple_releaseToPool {R : Client L → Prop} {conn : ClientConnection L}
    (hdestroyed : ∀ self, P self → R (self.setPool (self.pool.destroy conn)))
    (hfiled : ∀ self fresh, P self → conn.closing = false → ClientConnection.reset conn = .ok () fresh →
      R (self.setPool ((self.pool.enlist conn).append fresh))) :
    Triple P (releaseToPool conn) (fun _ => R) fun f self => f = .panic .assertion ∧ P self := by
  refine triple_get_bind fun self => ?_
  split
  · exact triple_modify fun client h => hdestroyed client h.1
  · next hkept =>
      have hopen : conn.closing = false := by
        cases hclosing : conn.closing with
        | false => rfl
        | true => exact absurd (by rw [hclosing]; rfl) hkept
      have hnext : Triple (fun client => P client ∧ client = self) nextReset (fun _ => P)
          fun f client => f = .panic .assertion ∧ P client :=
        triple_get_bind fun _ => Triple.bind (Q := fun _ => P)
          (triple_modify fun _ h => hP h.1.1 ⟨rfl, rfl, rfl, rfl⟩) fun _ => triple_pure fun _ h => h
      refine Triple.bind hnext fun r => ?_
      cases r with
      | some e => exact triple_modify hdestroyed
      | none =>
          intro client hclient
          rcases ClientConnection.reset_cases conn with ⟨hfits, hreset⟩ | hreset
          · have hran : onConn ClientConnection.reset conn client = .ok (.ok (), conn.renewed hfits) client := by
              unfold onConn
              rw [hreset]
            dsimp only
            rw [bind_ok hran]
            exact hfiled client _ hclient hopen hreset
          · have hran : onConn ClientConnection.reset conn client = .error (.panic .assertion) client := by
              unfold onConn
              rw [hreset]
            dsimp only
            rw [bind_error hran]
            exact ⟨rfl, hclient⟩

end parts

end Client

/-! ### What a client keeps -/

/-- The connection came into the pool through `reset`. -/
structure Pooled {L : Llhttp} (enlisted : List (ClientConnection L)) (conn : ClientConnection L) :
    Prop where
  stamped : conn.Stamped
  released : ∃ released ∈ enlisted, ClientConnection.reset released = .ok () conn

theorem Pooled.append {L : Llhttp} {enlisted : List (ClientConnection L)}
    {conn : ClientConnection L} (h : Pooled enlisted conn) (more : List (ClientConnection L)) :
    Pooled (enlisted ++ more) conn := by
  obtain ⟨released, hmem, hreset⟩ := h.released
  exact ⟨h.stamped, released, List.mem_append_left _ hmem, hreset⟩

/-- The connection is the one that the loop of `acquire` finds. -/
def Handout.Chosen {L : Llhttp} (e : Handout L) : Prop :=
  (ConnectionPool.search e.now (·.serves e.wanted) e.idle.reverse).1 = some e.conn

namespace Client

variable {L : Llhttp}

/-- What is idle, and what was, came into the pool through `reset`. -/
structure Sound (client : Client L) : Prop where
  idle : ∀ conn ∈ client.pool.idle, Pooled client.pool.enlisted conn
  handed : ∀ e ∈ client.handed, e.Chosen ∧ ∀ conn ∈ e.idle, Pooled client.pool.enlisted conn

/-- The client is as it was, but for what `Sound` does not look at. -/
theorem Sound.congr {self other : Client L} (h : self.Sound)
    (hidle : other.pool.idle = self.pool.idle) (henlisted : other.pool.enlisted = self.pool.enlisted)
    (hhanded : other.handed = self.handed) : other.Sound := by
  refine ⟨?_, ?_⟩
  · rw [hidle, henlisted]
    exact h.idle
  · rw [hhanded, henlisted]
    exact h.handed

theorem Sound.alike {self other : Client L} (h : self.Sound) (halike : Alike self other) : other.Sound :=
  h.congr (by rw [halike.pool]) (by rw [halike.pool]) halike.handed

/-- The client is sound, and so is the connection. -/
def With (conn : ClientConnection L) (self : Client L) : Prop := self.Sound ∧ conn.Stamped

/-- What the pool hands out leaves the client sound. -/
theorem Sound.acquire {self : Client L} (h : self.Sound) (t : ℕ) (wanted : ClientConnection L → Bool) :
    (self.setPool (self.pool.acquire t wanted).2).Sound := by
  have henlisted := self.pool.acquire_enlisted t wanted
  refine ⟨?_, ?_⟩
  · show ∀ conn ∈ (self.pool.acquire t wanted).2.idle, Pooled (self.pool.acquire t wanted).2.enlisted conn
    rw [henlisted]
    exact fun conn hconn => h.idle conn (ConnectionPool.mem_of_mem_acquire hconn)
  · show ∀ e ∈ self.handed, e.Chosen ∧ ∀ conn ∈ e.idle, Pooled (self.pool.acquire t wanted).2.enlisted conn
    rw [henlisted]
    exact h.handed

theorem found_idle {self : Client L} {t : ℕ} {wanted : ClientConnection L → Bool} {conn : ClientConnection L}
    (h : (self.pool.acquire t wanted).1 = some conn) : conn ∈ self.pool.idle := by
  obtain ⟨pre, post, hl, -⟩ := ConnectionPool.search_eq_some h
  exact List.mem_reverse.mp (hl ▸ List.mem_append_right _ List.mem_cons_self)

/-- **What is acquired is sound.** -/
theorem acquireConnection_sound (host : Bytes) (port : ℕ) (protocol : Protocol)
    (unixSocketPath : Option Bytes) :
    Triple Sound (acquireConnection host port protocol unixSocketPath :
      Act (Client L) (ClientConnection L)) With fun _ => Sound := by
  refine triple_acquireConnection Sound.alike (fun self t conn h hfound => ?_) (fun self t h _ => h.acquire t _)
    fun self dial rest h => ⟨h.congr rfl rfl rfl, rfl, rfl, rfl, rfl⟩
  have hset := h.acquire t (·.accepts host port protocol unixSocketPath)
  refine ⟨⟨hset.idle, fun e he => ?_⟩, (h.idle conn (found_idle hfound)).stamped⟩
  rcases List.mem_append.mp he with he | he
  · exact hset.handed e he
  · obtain rfl := List.mem_singleton.mp he
    refine ⟨hfound, fun c hc => ?_⟩
    show Pooled (self.pool.acquire t _).2.enlisted c
    rw [self.pool.acquire_enlisted]
    exact h.idle c hc

/-- What an action on a held connection comes to. -/
def Ran {α : Type} (x : Act (ClientConnection L) α) (conn : ClientConnection L) :
    Except Error α × ClientConnection L → Prop
  | (.ok a, conn') => x conn = .ok a conn'
  | (.error e, conn') => x conn = .error (.err e) conn'

theorem onConn_ran {P : Client L → Prop} {α : Type} (x : Act (ClientConnection L) α)
    (conn : ClientConnection L) :
    Triple P (onConn x conn) (fun result self => P self ∧ Ran x conn result) fun _ => P := by
  intro self hself
  unfold onConn
  cases hrun : x conn with
  | ok a conn' => exact ⟨hself, hrun⟩
  | error e conn' =>
      cases e with
      | err e => exact ⟨hself, hrun⟩
      | panic p => exact hself

theorem Ran.keeps {K : ClientConnection L → Prop} {α : Type} {x : Act (ClientConnection L) α}
    (hx : Keeps K x) {conn : ClientConnection L} (hconn : K conn)
    {result : Except Error α × ClientConnection L} (h : Ran x conn result) : K result.2 := by
  obtain ⟨r, conn'⟩ := result
  cases r with
  | ok a => exact hx.ok hconn h
  | error e => exact hx.error hconn h

/-- **A release is sound.** -/
theorem releaseToPool_sound {conn : ClientConnection L} (hconn : conn.Stamped) :
    Keeps Sound (releaseToPool conn) := by
  refine Triple.weaken (triple_releaseToPool Sound.alike (fun _ h => h.congr rfl rfl rfl)
    fun self fresh h _ hreset => ?_) (fun _ h => h) (fun _ _ h => h) fun _ _ h => h.2
  have hfresh : Pooled (self.pool.enlist conn).enlisted fresh :=
    ⟨hconn.reset hreset, conn, List.mem_append_right _ (List.mem_singleton_self _), hreset⟩
  refine ⟨fun c hc => ?_, fun e he => ⟨(h.handed e he).1, fun c hc => ?_⟩⟩
  · show Pooled ((self.pool.enlist conn).append fresh).enlisted c
    rw [ConnectionPool.append_enlisted]
    rcases ConnectionPool.mem_of_mem_append hc with hc | rfl
    · exact (h.idle c hc).append _
    · exact hfresh
  · show Pooled ((self.pool.enlist conn).append fresh).enlisted c
    rw [ConnectionPool.append_enlisted]
    exact ((h.handed e he).2 c hc).append _

/-! ### Calls -/

/-- What a call returns is sound. -/
def Returned (result : ClientResponse L ⊕ FetchState) (self : Client L) : Prop :=
  self.Sound ∧ ∀ response, result = .inl response → response.conn.Stamped

theorem afterExchange_sound (state : FetchState) (host : Bytes) (maxResponseSize : ℕ)
    {result : Except Error (Option RedirectTarget) × ClientConnection L}
    (hconn : result.2.Stamped) :
    Triple Sound (afterExchange state host maxResponseSize result) Returned fun _ => Sound := by
  obtain ⟨r, conn⟩ := result
  cases r with
  | error e =>
      rw [afterExchange]
      exact Triple.bind (releaseToPool_sound hconn) fun _ => triple_fail fun _ h => h
  | ok target =>
      cases target with
      | none =>
          rw [afterExchange]
          refine triple_pure fun self hself => ⟨hself, fun response heq => ?_⟩
          cases heq
          exact hconn
      | some target =>
          rw [afterExchange]
          refine Triple.bind (releaseToPool_sound hconn) fun _ =>
            Triple.bind (keeps_orFail _) fun next => ?_
          exact triple_pure fun self hself => ⟨hself, fun response heq => nomatch heq⟩

/-- **One request is sound.** -/
theorem fetchHop_sound (state : FetchState) (redirectsRemaining : ℕ) :
    Triple Sound (fetchHop state redirectsRemaining : Act (Client L) _) Returned
      fun _ => Sound := by
  refine Triple.bind (keeps_orFail _) fun host => Triple.bind (keeps_prepareTls Sound.alike _) fun _ =>
    Triple.bind (acquireConnection_sound _ _ _ _) fun conn => triple_get_bind fun self => ?_
  split
  · refine Triple.bind (Q := fun _ => Sound) ?_ fun _ => triple_fail fun _ h => h
    intro client h
    exact releaseToPool_sound (ClientConnection.steady_stamped.close h.1.2) client h.1.1
  · refine Triple.bind (Q := fun _ client => With conn client)
      (triple_modify fun _ h => ⟨h.1.1.congr rfl rfl rfl, h.1.2⟩) fun _ => ?_
    refine Triple.bind ((onConn_ran _ conn).weaken (fun _ h => h) (fun _ _ h => h)
      fun _ _ h => h.1) fun result => ?_
    intro client h
    obtain ⟨⟨hclient, hconn⟩, hran⟩ := h
    exact afterExchange_sound state host _
      (hran.keeps (ClientConnection.steady_stamped.exchange _ _ _) hconn) client hclient

/-- What the caller gets is sound. -/
def Got (response : ClientResponse L) (self : Client L) : Prop :=
  self.Sound ∧ response.conn.Stamped

theorem fetchInternal_sound (redirectsRemaining : ℕ) (state : FetchState) :
    Triple Sound (fetchInternal redirectsRemaining state : Act (Client L) _) Got
      fun _ => Sound := by
  induction redirectsRemaining generalizing state with
  | zero =>
      refine Triple.bind (fetchHop_sound state 0) fun result => ?_
      cases result with
      | inl response => exact triple_pure fun _ h => ⟨h.1, h.2 response rfl⟩
      | inr next => exact triple_die fun _ h => h.1
  | succ redirectsRemaining ih =>
      refine Triple.bind (fetchHop_sound state _) fun result => ?_
      cases result with
      | inl response => exact triple_pure fun _ h => ⟨h.1, h.2 response rfl⟩
      | inr next => exact (ih next).weaken (fun _ h => h.1) (fun _ _ h => h) fun _ _ h => h

/-- **A fetch is sound.** -/
theorem fetch_sound (url : Bytes) (options : FetchOptions) :
    Triple Sound (fetch url options : Act (Client L) _) Got fun _ => Sound := by
  unfold fetch
  split
  · exact triple_fail fun _ h => h
  · refine Triple.bind (keeps_orFail _) fun info => triple_get_bind fun self => ?_
    exact (fetchInternal_sound _ _).weaken (fun _ h => h.1) (fun _ _ h => h) fun _ _ h => h

/-- **A released response is sound.** -/
theorem release_sound {conn : ClientConnection L} (hconn : conn.Stamped) :
    Keeps Sound (release conn) := by
  have hsettle := hconn.settle
  have hdated : ∀ d, { settle conn with idleDeadline := d }.Stamped := fun d =>
    ⟨hsettle.1, hsettle.2, hsettle.3, hsettle.4⟩
  unfold release
  dsimp only
  split
  · exact releaseToPool_sound hsettle
  · split
    · refine (keeps_now Sound.alike).bind fun t => releaseToPool_sound ?_
      split
      · exact ClientConnection.steady_stamped.closeIf (hdated _) _
      · exact hdated _
    · refine releaseToPool_sound ?_
      split
      · exact ClientConnection.steady_stamped.closeIf hsettle _
      · exact hsettle

/-- **A WebSocket connection is sound.** -/
theorem connectWebSocket_sound (url : Bytes) (options : WebSocketUpgradeOptions) (random : Bytes) :
    Triple Sound (connectWebSocket url options random : Act (Client L) _) (fun _ => Sound)
      fun _ => Sound := by
  unfold connectWebSocket
  split
  · exact triple_fail fun _ h => h
  · refine Triple.bind (keeps_orFail _) fun info => Triple.bind (keeps_orFail _) fun host =>
      Triple.bind (keeps_prepareTls Sound.alike _) fun _ => Triple.bind (Q := fun _ => Sound) ?_ fun _ => ?_
    · unfold validateHost
      split
      · exact triple_pure fun _ h => h
      · exact triple_fail fun _ h => h
    · refine Triple.bind (acquireConnection_sound _ _ _ _) fun conn =>
        Triple.bind ((onConn_ran _ conn).weaken (fun _ h => h.1) (fun _ _ h => h.1)
          fun _ _ h => h) fun result => ?_
      obtain ⟨r, conn'⟩ := result
      cases r with
      | ok u => exact triple_pure fun _ h => h
      | error e =>
          exact Triple.bind (Q := fun _ => Sound) (triple_modify fun _ h => h.congr rfl rfl rfl)
            fun _ => triple_fail fun _ h => h

end Client

/-! ### Runs -/

/-- A client and the responses that its callers hold. -/
structure ClientRun (L : Llhttp) where
  client : Client L
  responses : List (ClientResponse L) := []

/-- One call: of `fetch`, of `connectWebSocket`, to read a response or to release it. -/
inductive ClientStep {L : Llhttp} : ClientRun L → ClientRun L → Prop
  | fetched {s url options response client}
      (h : Client.fetch url options s.client = .ok response client) :
      ClientStep s ⟨client, s.responses ++ [response]⟩
  | failed {s url options e client}
      (h : Client.fetch url options s.client = .error (.err e) client) :
      ClientStep s ⟨client, s.responses⟩
  | connected {s url options random conn client}
      (h : Client.connectWebSocket url options random s.client = .ok conn client) :
      ClientStep s ⟨client, s.responses⟩
  | refused {s url options random e client}
      (h : Client.connectWebSocket url options random s.client = .error (.err e) client) :
      ClientStep s ⟨client, s.responses⟩
  | read (client pre response post inbound) :
      ClientStep ⟨client, pre ++ response :: post⟩
        ⟨client, pre ++ { response with conn := response.conn.setInbound inbound } :: post⟩
  | deinit {client pre response post client'} (h : Client.deinit response client = .ok () client') :
      ClientStep ⟨client, pre ++ response :: post⟩ ⟨client', pre ++ post⟩

/-- The states that the calls lead to from a client that has made no connection. -/
inductive ClientReach {L : Llhttp} : ClientRun L → Prop
  | start {client : Client L} (hpool : client.pool = { maxIdle := client.pool.maxIdle })
      (hhanded : client.handed = []) : ClientReach ⟨client, []⟩
  | step {s s'} (h : ClientReach s) (hs : ClientStep s s') : ClientReach s'

namespace ClientRun

variable {L : Llhttp}

/-- The client is sound, and so are the responses. -/
structure Sound (s : ClientRun L) : Prop where
  client : s.client.Sound
  responses : ∀ response ∈ s.responses, response.conn.Stamped

/-- **Every call is sound.** -/
theorem Sound.step {s s' : ClientRun L} (h : s.Sound) (hs : ClientStep s s') : s'.Sound := by
  cases hs with
  | fetched hfetch =>
      have hgot := (Client.fetch_sound _ _).ok h.client hfetch
      refine ⟨hgot.1, fun response hmem => ?_⟩
      rcases List.mem_append.mp hmem with hmem | hmem
      · exact h.responses response hmem
      · obtain rfl := List.mem_singleton.mp hmem
        exact hgot.2
  | failed hfetch => exact ⟨(Client.fetch_sound _ _).error h.client hfetch, h.responses⟩
  | connected hconnect =>
      exact ⟨(Client.connectWebSocket_sound _ _ _).ok h.client hconnect, h.responses⟩
  | refused hconnect =>
      exact ⟨(Client.connectWebSocket_sound _ _ _).error h.client hconnect, h.responses⟩
  | read client pre response post inbound =>
      refine ⟨h.client, fun other hmem => ?_⟩
      rcases List.mem_append.mp hmem with hmem | hmem
      · exact h.responses other (List.mem_append_left _ hmem)
      · rcases List.mem_cons.mp hmem with rfl | hmem
        · exact ClientConnection.steady_stamped.inbound inbound (h.responses response (by simp))
        · exact h.responses other (by simp [hmem])
  | @deinit client pre response post client' hdeinit =>
      refine ⟨(Client.release_sound (h.responses response (by simp))).ok h.client hdeinit,
        fun other hmem => h.responses other ?_⟩
      rcases List.mem_append.mp hmem with hmem | hmem
      · exact List.mem_append_left _ hmem
      · exact List.mem_append_right _ (List.mem_cons_of_mem _ hmem)

/-- **Every run is sound.** -/
theorem Sound.of_reach {s : ClientRun L} (h : ClientReach s) : s.Sound := by
  induction h with
  | start hpool hhanded =>
      refine ⟨⟨?_, ?_⟩, by simp⟩
      · rw [hpool]
        simp
      · rw [hhanded]
        simp
  | step _ hs ih => exact ih.step hs

end ClientRun
/-- Two requests; the first response is released before the second request. -/
def Client.fetchTwice {L : Llhttp} (first second : Bytes) (options : FetchOptions) :
    Act (Client L) (ClientResponse L) := do
  let response ← fetch first options
  deinit response
  fetch second options

theorem reach_fetchTwice {L : Llhttp} {first second : Bytes} {options : FetchOptions}
    {answers : List (List Bytes)} {response : ClientResponse L} {client : Client L}
    (h : Client.fetchTwice first second options (Client.answered answers) = .ok response client) :
    ClientReach ⟨client, [response]⟩ := by
  obtain ⟨first, c₁, hfirst, h⟩ := bind_eq_ok.mp h
  obtain ⟨u, c₂, hdeinit, hsecond⟩ := bind_eq_ok.mp h
  have hstart : ClientReach (L := L) ⟨Client.answered answers, []⟩ := .start rfl rfl
  have hfetched : ClientReach ⟨c₁, [] ++ first :: []⟩ := hstart.step (.fetched hfirst)
  have hreleased : ClientReach ⟨c₂, [] ++ []⟩ := hfetched.step (.deinit hdeinit)
  exact hreleased.step (.fetched hsecond)

end Dusty
