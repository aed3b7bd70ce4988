import Dusty.ClientRuns

/-! # The requests of a call

A call of `fetch` is one request after the other, and a request is first a connection, then the
exchange up to the end of the response's header section, then what is done about it.  The
connection is always at the start of a message. -/

namespace Dusty

open Act

namespace ClientConnection

variable {L : Llhttp}

/-- The parser is new, and the unread bytes stand at the front of the buffer. -/
structure Ready (conn : ClientConnection L) : Prop where
  parser : conn.inbound.parser = .init { headers := .init conn.maxResponseHeaders }
  base : conn.inbound.reader.base = 0
  seek : conn.inbound.reader.seek = 0

theorem reset_ready {conn fresh : ClientConnection L}
    (h : ClientConnection.reset conn = .ok () fresh) : fresh.Ready := by
  obtain ⟨-, rfl⟩ := reset_eq_ok h
  exact ⟨rfl, rfl, rfl⟩

end ClientConnection

namespace Client

variable {L : Llhttp}

open ClientConnection

/-- **What is acquired is at the start of a message.** -/
theorem acquireConnection_ready (host : Bytes) (port : ℕ) (protocol : Protocol)
    (unixSocketPath : Option Bytes) :
    Triple Sound (acquireConnection host port protocol unixSocketPath :
      Act (Client L) (ClientConnection L)) (fun conn _ => conn.Ready) fun _ _ => True := by
  have hready : Triple Sound (acquireConnection host port protocol unixSocketPath :
      Act (Client L) (ClientConnection L)) (fun conn _ => conn.Ready) fun _ => Sound := by
    refine triple_acquireConnection Sound.alike (fun self t conn h hfound => ?_) (fun self t h _ => h.acquire t _)
      fun _ _ _ _ => ⟨rfl, rfl, rfl⟩
    obtain ⟨released, -, hreset⟩ := (h.idle conn (found_idle hfound)).released
    exact reset_ready hreset
  exact hready.weaken (fun _ h => h) (fun _ _ h => h) fun _ _ _ => trivial

/-! ### One request -/

/-- The first part of a request: the host and the connection. -/
def startHop (state : FetchState) : Act (Client L) (Bytes × ClientConnection L) := do
  let host ← orFail (uriHost state.uri)
  prepareTls state.protocol
  let conn ← acquireConnection host state.port state.protocol state.options.unixSocketPath
  pure (host, conn)

/-- The second part: the request is sent, and the response read up to its body. -/
def requestHead (opts : WriteRequestOptions) : Act (ClientConnection L) Unit := do
  Act.onError close (onWriter opts.writeRequest)
  Act.onError close (onWriter Conn.flush)
  receiveHeaders

theorem onWriter_run {α : Type} (x : Act Conn α) (conn : ClientConnection L) :
    onWriter x conn = match x conn.writer with
      | .ok a writer => .ok a (conn.setWriter writer)
      | .error f writer => .error f (conn.setWriter writer) := by
  unfold onWriter zoom
  cases x conn.writer <;> rfl

theorem onError_ok {σ α : Type} {x : Act σ α} {f : σ → σ} {s s' : σ} {a : α} :
    Act.onError f x s = .ok a s' ↔ x s = .ok a s' := by
  unfold Act.onError
  cases x s with
  | ok b t => exact Iff.rfl
  | error e t =>
      constructor
      · intro h
        cases e <;> cases h
      · intro h
        cases h

/-- A response has been read up to its body when its header section has been read. -/
theorem receiveHeaders_ok {conn conn' : ClientConnection L} :
    receiveHeaders conn = .ok () conn' ↔
      ∃ inbound, Inbound.parseResponseHeaders conn.inbound = .ok () inbound ∧
        conn' = conn.setInbound inbound := by
  have hrun : onInbound Inbound.parseResponseHeaders conn =
      match Inbound.parseResponseHeaders conn.inbound with
      | .ok () inbound => .ok () (conn.setInbound inbound)
      | .error f inbound => .error f (conn.setInbound inbound) := by
    unfold onInbound zoom
    cases Inbound.parseResponseHeaders conn.inbound <;> rfl
  constructor
  · intro h
    obtain ⟨r, c₁, hattempt, h₁⟩ := bind_eq_ok.mp h
    cases r with
    | error e =>
        obtain ⟨u₂, c₂, -, h₂⟩ := bind_eq_ok.mp h₁
        obtain ⟨self, c₃, -, h₃⟩ := bind_eq_ok.mp h₂
        cases h₃
    | ok u =>
        cases h₁
        rw [attempt_eq_ok, hrun] at hattempt
        cases hparse : Inbound.parseResponseHeaders conn.inbound with
        | error f s =>
            rw [hparse] at hattempt
            cases hattempt
        | ok u s =>
            rw [hparse] at hattempt
            cases hattempt
            exact ⟨s, rfl, rfl⟩
  · rintro ⟨inbound, hparse, rfl⟩
    rw [hparse] at hrun
    unfold receiveHeaders
    rw [bind_ok (attempt_ok hrun)]
    rfl

/-- A request has been answered when it has been sent and the header section of the response has
been read. -/
theorem requestHead_ok {opts : WriteRequestOptions} {conn conn' : ClientConnection L} :
    requestHead opts conn = .ok () conn' ↔
      ∃ writer, (opts.writeRequest >>= fun _ => Conn.flush) conn.writer = .ok () writer ∧
        receiveHeaders (conn.setWriter writer) = .ok () conn' := by
  have hwriter : ∀ {x : Act Conn Unit} {c c' : ClientConnection L},
      Act.onError close (onWriter x) c = .ok () c' ↔
        ∃ writer, x c.writer = .ok () writer ∧ c' = c.setWriter writer := by
    intro x c c'
    rw [onError_ok, onWriter_run]
    cases x c.writer with
    | error f writer => simp
    | ok u writer =>
        constructor
        · intro h
          cases h
          exact ⟨writer, rfl, rfl⟩
        · rintro ⟨writer', hrun, rfl⟩
          cases hrun
          rfl
  constructor
  · intro h
    obtain ⟨u₁, c₁, hrequest, h₁⟩ := bind_eq_ok.mp h
    obtain ⟨u₂, c₂, hflush, h₂⟩ := bind_eq_ok.mp h₁
    obtain ⟨w₁, hw₁, rfl⟩ := hwriter.mp hrequest
    obtain ⟨w₂, hw₂, rfl⟩ := hwriter.mp hflush
    exact ⟨w₂, (bind_ok hw₁).trans hw₂, h₂⟩
  · rintro ⟨writer, hsent, hreceive⟩
    obtain ⟨u, w₁, hw₁, hw₂⟩ := bind_eq_ok.mp hsent
    unfold requestHead
    rw [bind_ok (hwriter.mpr ⟨w₁, hw₁, rfl⟩), bind_ok (hwriter.mpr ⟨writer, hw₂, rfl⟩)]
    exact hreceive

/-- The third part, on the connection. -/
def considerHead (state : FetchState) (redirectsRemaining : ℕ) :
    Act (ClientConnection L) (Option RedirectTarget) := do
  let self ← get
  if state.options.decompress && self.parsedResponse.contentEncoding == .unknown then do
    modify fun self => self.closeIf (!self.isBodyComplete)
    Act.fail .unsupportedContentEncoding
  else findRedirect state redirectsRemaining

theorem exchange_eq (state : FetchState) (opts : WriteRequestOptions) (redirectsRemaining : ℕ) :
    (exchange state opts redirectsRemaining : Act (ClientConnection L) _) =
      (requestHead opts >>= fun _ => considerHead state redirectsRemaining) := by
  unfold exchange requestHead considerHead
  simp only [bind_assoc]

/-- What follows the first part. -/
def finishHop (state : FetchState) (redirectsRemaining : ℕ) :
    Bytes × ClientConnection L → Act (Client L) (ClientResponse L ⊕ FetchState)
  | (host, conn) => do
      let self ← get
      if conn.httpVersion = .http2 then do
        releaseToPool conn.close
        Act.fail .http2NotImplemented
      else
        let opts := requestOptions state host self.config.userAgent
        modify fun self => self.sends opts conn.writer
        let result ← onConn (exchange state opts redirectsRemaining) conn
        afterExchange state host self.config.maxResponseSize result

theorem fetchHop_eq (state : FetchState) (redirectsRemaining : ℕ) :
    (fetchHop state redirectsRemaining : Act (Client L) _) =
      (startHop state >>= finishHop state redirectsRemaining) := by
  unfold fetchHop startHop
  simp only [bind_assoc, pure_bind, finishHop]

/-- **The connection of a request is at the start of a message.** -/
theorem startHop_ready (state : FetchState) :
    Triple Sound (startHop state : Act (Client L) _) (fun start _ => start.2.Ready)
      fun _ _ => True := by
  refine Triple.bind ((keeps_orFail _).weaken (fun _ h => h) (fun _ _ h => h) fun _ _ _ => trivial)
    fun host => Triple.bind ((keeps_prepareTls Sound.alike _).weaken (fun _ h => h) (fun _ _ h => h)
      fun _ _ _ => trivial) fun _ => ?_
  exact Triple.bind (acquireConnection_ready _ _ _ _) fun conn => triple_pure fun _ h => h

/-- A request and the first reading of its response, and the connection before and behind that. -/
def ask (state : FetchState) :
    Act (Client L) (Bytes × ClientConnection L × ClientConnection L) := do
  let (host, conn) ← startHop state
  let self ← get
  let (result, conn') ← onConn (requestHead (requestOptions state host self.config.userAgent)) conn
  let _ ← orFail result
  pure (host, conn, conn')

theorem ask_ok {state : FetchState} {c c' : Client L} {host : Bytes}
    {conn conn' : ClientConnection L} (h : ask state c = .ok (host, conn, conn') c') :
    startHop state c = .ok (host, conn) c' ∧
      requestHead (requestOptions state host c'.config.userAgent) conn = .ok () conn' := by
  obtain ⟨⟨host₁, conn₁⟩, c₁, hstart, h₁⟩ := bind_eq_ok.mp h
  obtain ⟨r, c₂, hget, h₂⟩ := bind_eq_ok.mp h₁
  cases hget
  obtain ⟨⟨result, conn₂⟩, c₃, hran, h₃⟩ := bind_eq_ok.mp h₂
  obtain ⟨hclient, hrequest⟩ := (onConn_ran (P := fun c => c = c₁) _ conn₁).ok rfl hran
  subst hclient
  obtain ⟨u, c₄, hresult, h₄⟩ := bind_eq_ok.mp h₃
  cases result with
  | error e => cases hresult
  | ok u =>
      cases hresult
      cases h₄
      exact ⟨hstart, hrequest⟩

/-! ### Letting go of a connection -/

theorem closeIf_inbound (conn : ClientConnection L) (b : Bool) :
    (conn.closeIf b).inbound = conn.inbound := by
  cases b <;> rfl

theorem settle_inbound (conn : ClientConnection L) : (settle conn).inbound = conn.inbound := by
  unfold settle
  dsimp only
  split
  · exact closeIf_inbound conn _
  · split
    · split <;> exact closeIf_inbound conn _
    · exact closeIf_inbound conn _

/-- The requests of a call: the state each begins with, how many redirects are left, and the
client. -/
inductive Hops (url : Bytes) (options : FetchOptions) (client : Client L) :
    FetchState → ℕ → Client L → Prop
  | first {uri port protocol} (hparse : Uri.parse url = some uri)
      (hinfo : uriPortAndProtocol uri = .ok (port, protocol)) :
      Hops url options client
        { uri := uri, port := port, protocol := protocol, options := options }
        (options.maxRedirects.getD client.config.maxRedirects) client
  | next {state redirectsRemaining c next c'} (h : Hops url options client state redirectsRemaining c)
      (hhop : fetchHop state redirectsRemaining c = .ok (.inr next) c') :
      Hops url options client next (redirectsRemaining - 1) c'

theorem Hops.sound {url : Bytes} {options : FetchOptions} {client c : Client L} {state : FetchState}
    {redirectsRemaining : ℕ} (h : Hops url options client state redirectsRemaining c)
    (hclient : client.Sound) : c.Sound := by
  induction h with
  | first => exact hclient
  | next _ hhop ih => exact ((fetchHop_sound _ _).ok ih hhop).1

/-- A redirect leads to a state of the next request. -/
theorem fetchHop_redirects {state next : FetchState} {redirectsRemaining : ℕ} {c c' : Client L}
    (h : fetchHop state redirectsRemaining c = .ok (.inr next) c') :
    ∃ host target, redirectState state host target = .ok next := by
  rw [fetchHop_eq] at h
  obtain ⟨⟨host, conn⟩, c₁, -, h⟩ := bind_eq_ok.mp h
  obtain ⟨r, c₂, hget, h⟩ := bind_eq_ok.mp h
  split at h
  · obtain ⟨u, c₃, -, h⟩ := bind_eq_ok.mp h
    cases h
  · obtain ⟨u, c₃, -, h⟩ := bind_eq_ok.mp h
    obtain ⟨⟨result, conn'⟩, c₄, -, h⟩ := bind_eq_ok.mp h
    cases result with
    | error e =>
        obtain ⟨u, c₅, -, h⟩ := bind_eq_ok.mp h
        cases h
    | ok target =>
        cases target with
        | none => cases h
        | some target =>
            obtain ⟨u, c₅, -, h⟩ := bind_eq_ok.mp h
            obtain ⟨next', c₆, hnext, h⟩ := bind_eq_ok.mp h
            cases h
            refine ⟨host, target, ?_⟩
            cases hstate : redirectState state host target with
            | error e =>
                rw [hstate] at hnext
                cases hnext
            | ok next' =>
                rw [hstate] at hnext
                cases hnext
                rfl

/-- The requests of a call with `HEAD` are all such requests. -/
theorem Hops.head {url : Bytes} {options : FetchOptions} {client c : Client L} {state : FetchState}
    {redirectsRemaining : ℕ} (h : Hops url options client state redirectsRemaining c)
    (hhead : options.method = .head) : state.options.method = .head := by
  induction h with
  | first => exact hhead
  | @next state _ _ next _ _ hhop ih =>
      obtain ⟨host, target, hnext⟩ := fetchHop_redirects hhop
      have hmethod : (redirectOptions state.options target.statusCode).method = .head := by
        unfold redirectOptions
        split
        · rw [if_neg (by simp [ih])]
          split <;> exact ih
        · exact ih
      unfold redirectState at hnext
      cases hhost : uriHost target.uri with
      | error e =>
          rw [hhost] at hnext
          cases hnext
      | ok redirectHost =>
          rw [hhost] at hnext
          cases hnext
          exact hmethod

end Client
end Dusty
