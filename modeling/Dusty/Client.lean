import Dusty.ClientRequest
import Dusty.Reader

/-! # The client

`Client.fetch` of `client.zig` with the pool of its connections.  A connection that is not in the
pool belongs to the call or the response that holds it, so it is passed around as a value.  What
the network does is given in advance: what each connection attempt comes to, what the peer sends
on it, and what the clock shows. -/

namespace Dusty

/-! ### Connections -/

/-- `HttpVersion`. -/
inductive HttpVersion where
  | http11 | http2
deriving DecidableEq, Repr

/-- `fromAlpn`. -/
def HttpVersion.fromAlpn (alpn : Option Bytes) : HttpVersion :=
  if alpn = some (ascii "h2") then .http2 else .http11

/-- `KeepAliveParams`. -/
structure KeepAliveParams where
  timeout : Option ℕ := none
  max : Option ℕ := none
deriving DecidableEq, Repr

/-- `parseKeepAliveHeader`. -/
def parseKeepAliveHeader (value : Bytes) : KeepAliveParams :=
  (splitScalar value 44).foldl (fun params part =>
    let trimmed := trimBlanks part
    if ascii "timeout=" <+: trimmed then
      { params with timeout := parseInt u32Bound 10 (trimmed.drop 8) }
    else if ascii "max=" <+: trimmed then
      { params with max := parseInt u32Bound 10 (trimmed.drop 4) }
    else params) {}

/-- What a connection is wanted for. -/
structure Endpoint where
  host : Bytes
  port : ℕ
  protocol : Protocol
  unixSocketPath : Option Bytes := none
deriving DecidableEq, Repr

/-- `Connection`.  `id` tells it from the others, and `dialed` is what it was made for; TLS has
checked the server for the name in it. -/
structure ClientConnection (L : Llhttp) where
  id : ℕ
  dialed : Endpoint
  inbound : Inbound L ParsedResponse
  writer : Conn
  readBuffer : ℕ
  maxResponseHeaders : ℕ
  protocol : Protocol
  httpVersion : HttpVersion := .http11
  host : Bytes
  port : ℕ
  unixPath : Option Bytes := none
  closing : Bool := false
  requestCount : ℕ := 0
  keepAlive : KeepAliveParams := {}
  idleDeadline : Option ℕ := none

namespace ClientConnection

variable {L : Llhttp}

def setInbound (self : ClientConnection L) (inbound : Inbound L ParsedResponse) :
    ClientConnection L := { self with inbound := inbound }

def setWriter (self : ClientConnection L) (writer : Conn) : ClientConnection L :=
  { self with writer := writer }

/-- The connection is not to be used again. -/
def close (self : ClientConnection L) : ClientConnection L := { self with closing := true }

/-- The connection is not to be used again if the condition holds. -/
def closeIf (self : ClientConnection L) (b : Bool) : ClientConnection L :=
  if b then self.close else self

def onInbound {α : Type} (x : Act (Inbound L ParsedResponse) α) : Act (ClientConnection L) α :=
  Act.zoom (·.inbound) (fun inbound self => self.setInbound inbound) x

def onWriter {α : Type} (x : Act Conn α) : Act (ClientConnection L) α :=
  Act.zoom (·.writer) (fun writer self => self.setWriter writer) x

/-- `isBodyComplete` of the parser. -/
def isBodyComplete (self : ClientConnection L) : Bool := self.inbound.parser.isBodyComplete

/-- `shouldKeepAlive` of the parser. -/
def shouldKeepAlive (self : ClientConnection L) : Bool := self.inbound.parser.shouldKeepAlive

/-- `parsed_response`. -/
def parsedResponse (self : ClientConnection L) : ParsedResponse := self.inbound.parser.msg

/-- `tcp_reader.err orelse error.ReadFailed`. -/
def readError (self : ClientConnection L) : Error := self.inbound.readErr.getD .readFailed

/-- `matches`. -/
def accepts (self : ClientConnection L) (host : Bytes) (port : ℕ) (protocol : Protocol)
    (unixSocketPath : Option Bytes) : Bool :=
  match unixSocketPath with
  | some path => self.protocol == protocol && self.unixPath == some path
  | none => self.unixPath.isNone && self.protocol == protocol && self.port == port &&
      eqlIgnoreCase self.host host

/-- `matches` for what is wanted. -/
def serves (self : ClientConnection L) (e : Endpoint) : Bool :=
  self.accepts e.host e.port e.protocol e.unixSocketPath

/-- `reset`, unless it fails: a new message, and the buffer as it was in the beginning, with the
unread bytes in front. -/
def reset : Act (ClientConnection L) Unit := do
  let self ← get
  if h : self.inbound.reader.data.length ≤ self.readBuffer then
    modify fun conn =>
      { conn with
        closing := false
        inbound :=
          { conn.inbound with
            parser := .init { headers := .init self.maxResponseHeaders }
            reader :=
              { cap := self.readBuffer, data := self.inbound.reader.data, fits := by omega } } }
  else Act.die .assertion

end ClientConnection

/-! ### The pool -/

/-- `ConnectionPool`; the connection that was used last is at the end.  `destroyed` are the
connections that were closed, and `enlisted` those that were put into the pool, as they were
before `reset`; both are there for statements only. -/
structure ConnectionPool (L : Llhttp) where
  idle : List (ClientConnection L) := []
  idleLen : ℕ := 0
  maxIdle : ℕ
  destroyed : List ℕ := []
  enlisted : List (ClientConnection L) := []

namespace ConnectionPool

variable {L : Llhttp}

/-- `deinit` of a connection and its memory. -/
def destroy (self : ConnectionPool L) (conn : ClientConnection L) : ConnectionPool L :=
  { self with destroyed := self.destroyed ++ [conn.id] }

/-- The connection has waited for too long. -/
def expired (now : ℕ) (conn : ClientConnection L) : Bool :=
  match conn.idleDeadline with
  | some deadline => decide (deadline ≤ now)
  | none => false

/-- The loop of `acquire`, from the end of the list: the connection that was found, those that
have expired on the way, and those that stay. -/
def search (now : ℕ) (wanted : ClientConnection L → Bool) : List (ClientConnection L) →
    Option (ClientConnection L) × List (ClientConnection L) × List (ClientConnection L)
  | [] => (none, [], [])
  | conn :: rest =>
      if wanted conn then
        if expired now conn then
          let (found, gone, kept) := search now wanted rest
          (found, conn :: gone, kept)
        else (some conn, [], rest)
      else
        let (found, gone, kept) := search now wanted rest
        (found, gone, conn :: kept)

/-- `acquire`. -/
def acquire (self : ConnectionPool L) (now : ℕ) (wanted : ClientConnection L → Bool) :
    Option (ClientConnection L) × ConnectionPool L :=
  let (found, gone, kept) := search now wanted self.idle.reverse
  (found, gone.foldl destroy
    { self with
      idle := kept.reverse
      idleLen := self.idleLen - (gone.length + found.toList.length) })

/-- The oldest connection makes room for another if the pool is full. -/
def evict (self : ConnectionPool L) : ConnectionPool L :=
  if self.maxIdle ≤ self.idleLen then
    match self.idle with
    | [] => self
    | old :: rest => { self with idle := rest, idleLen := self.idleLen - 1 }.destroy old
  else self

/-- A connection is put into the pool. -/
def append (self : ConnectionPool L) (conn : ClientConnection L) : ConnectionPool L :=
  { self.evict with idle := self.evict.idle ++ [conn], idleLen := self.evict.idleLen + 1 }

/-- The connection is noted as one that was put into the pool. -/
def enlist (self : ConnectionPool L) (conn : ClientConnection L) : ConnectionPool L :=
  { self with enlisted := self.enlisted ++ [conn] }

end ConnectionPool

/-! ### The client -/

/-- `ClientConfig`. -/
structure ClientConfig where
  maxRedirects : ℕ := 10
  maxResponseSize : ℕ := 10485760
  maxIdleConnections : ℕ := 8
  bufferSize : ℕ := 4096
  useSystemCaBundle : Bool := true
  maxResponseHeaderCount : ℕ := 64
  userAgent : Option Bytes := some (ascii "dusty/0.1.0")

/-- `FetchOptions`. -/
structure FetchOptions where
  method : Method := .get
  headers : Option Headers := none
  body : Option Bytes := none
  maxRedirects : Option ℕ := none
  decompress : Bool := true
  unixSocketPath : Option Bytes := none

/-- `FetchState`, without `redirects_remaining`. -/
structure FetchState where
  uri : Uri
  port : ℕ
  protocol : Protocol
  options : FetchOptions
  initialHost : Bytes := []
  stripSensitiveHeaders : Bool := false
  stripBodyHeaders : Bool := false
  referer : Option Bytes := none

/-- What a new connection comes to: what the peer will send, where writes will fail, and the
protocol the TLS handshake agreed on. -/
structure Dial where
  net : Net := {}
  faults : List (Option (ℕ × Error)) := []
  alpn : Option Bytes := none

/-- A request that was sent: what `writeRequest` was called with, and the state the writer was
in. -/
structure Hop where
  opts : WriteRequestOptions
  writer : Conn

/-- A connection that the pool handed out: what was wanted, when, and what was idle. -/
structure Handout (L : Llhttp) where
  wanted : Endpoint
  now : ℕ
  idle : List (ClientConnection L)
  conn : ClientConnection L

/-- `Client`, with the options it was built with and what the world around it does: the outcome of
a scan for certificates, of each attempt to connect and of each `reset`, and what the clock
shows.  `requests` and `handed` are there for statements only. -/
structure Client (L : Llhttp) where
  config : ClientConfig := {}
  pool : ConnectionPool L
  caBundleLoaded : Bool := false
  useTls : Bool := true
  caScan : Option Error := none
  dials : List (Except Error Dial) := []
  resets : List (Option Error) := []
  clock : ℕ → ℕ := id
  ticks : ℕ := 0
  nextId : ℕ := 0
  requests : List Hop := []
  handed : List (Handout L) := []

/-- `ClientResponse`: it holds its connection. -/
structure ClientResponse (L : Llhttp) where
  conn : ClientConnection L
  maxResponseSize : ℕ
  decompress : Bool

/-- Where a redirect leads. -/
structure RedirectTarget where
  statusCode : ℕ
  uri : Uri
  port : ℕ
  protocol : Protocol

namespace Client

variable {L : Llhttp}

def setPool (self : Client L) (pool : ConnectionPool L) : Client L := { self with pool := pool }

/-- A request is about to be written. -/
def sends (self : Client L) (opts : WriteRequestOptions) (writer : Conn) : Client L :=
  { self with requests := self.requests ++ [⟨opts, writer⟩] }

/-- The pool has handed out a connection. -/
def hands (self : Client L) (handout : Handout L) : Client L :=
  { self with handed := self.handed ++ [handout] }

/-- `std.Io.Timestamp.now`. -/
def now : Act (Client L) ℕ := do
  let self ← get
  modify fun self => { self with ticks := self.ticks + 1 }
  pure (self.clock self.ticks)

/-- Run an action on a connection that is held. -/
def onConn {α : Type} (x : Act (ClientConnection L) α) (conn : ClientConnection L) :
    Act (Client L) (Except Error α × ClientConnection L) := fun self =>
  match x conn with
  | .ok a conn => .ok (.ok a, conn) self
  | .error (.err e) conn => .ok (.error e, conn) self
  | .error (.panic p) _ => .error (.panic p) self

/-- Return a value or fail. -/
def orFail {σ α : Type} : Except Error α → Act σ α
  | .ok a => pure a
  | .error e => Act.fail e

/-! ### Acquiring and releasing -/

/-- What the next `reset` comes to. -/
def nextReset : Act (Client L) (Option Error) := do
  let self ← get
  modify fun self => { self with resets := self.resets.tail }
  pure (self.resets.head?.join)

/-- `ConnectionPool.release`. -/
def releaseToPool (conn : ClientConnection L) : Act (Client L) Unit := do
  let self ← get
  if conn.closing || self.pool.maxIdle == 0 then
    modify fun self => self.setPool (self.pool.destroy conn)
  else
    match ← nextReset with
    | some _ => modify fun self => self.setPool (self.pool.destroy conn)
    | none => do
        match ← onConn ClientConnection.reset conn with
        | (.error _, conn) => modify fun self => self.setPool (self.pool.destroy conn)
        | (.ok (), fresh) =>
            modify fun self => self.setPool ((self.pool.enlist conn).append fresh)

/-- What `Connection.release` does before it hands the connection to the pool, but for the
deadline. -/
def settle (conn : ClientConnection L) : ClientConnection L :=
  let conn := conn.closeIf (!conn.isBodyComplete)
  let conn := { conn with requestCount := min (conn.requestCount + 1) 65535 }
  if !conn.shouldKeepAlive then conn.close
  else if conn.requestCount = 1 then
    match conn.parsedResponse.headers.get (ascii "Keep-Alive") with
    | some keepAlive => { conn with keepAlive := parseKeepAliveHeader keepAlive }
    | none => conn
  else conn

/-- `Connection.release`. -/
def release (conn : ClientConnection L) : Act (Client L) Unit := do
  let conn := settle conn
  if !conn.shouldKeepAlive then releaseToPool conn
  else do
    let conn ← match conn.keepAlive.timeout with
      | some timeout => do
          let now ← now
          pure { conn with idleDeadline := some (now + timeout * 1000000) }
      | none => pure conn
    releaseToPool (match conn.keepAlive.max with
      | some max => conn.closeIf (decide (max ≤ conn.requestCount))
      | none => conn)

/-- `ensureCaBundle`. -/
def ensureCaBundle : Act (Client L) Unit := do
  let self ← get
  if self.caBundleLoaded then pure ()
  else match self.caScan with
    | some e => Act.fail e
    | none => modify fun self => { self with caBundleLoaded := true }

/-- `Connection.init` on what a connection attempt came to. -/
def connect (self : Client L) (dial : Dial) (host : Bytes) (port : ℕ) (protocol : Protocol)
    (unixSocketPath : Option Bytes) : ClientConnection L where
  id := self.nextId
  dialed := ⟨host, port, protocol, unixSocketPath⟩
  inbound :=
    { parser := .init { headers := .init self.config.maxResponseHeaderCount }
      reader := .fresh (self.config.bufferSize + 1024)
      net := dial.net }
  writer := { faults := dial.faults }
  readBuffer := self.config.bufferSize + 1024
  maxResponseHeaders := self.config.maxResponseHeaderCount
  protocol := protocol
  httpVersion := if protocol = .https then .fromAlpn dial.alpn else .http11
  host := host.take 255
  port := port
  unixPath := unixSocketPath.filter (· ≠ [])

/-- A connection that the pool did not have. -/
def dialNew (host : Bytes) (port : ℕ) (protocol : Protocol) (unixSocketPath : Option Bytes) :
    Act (Client L) (ClientConnection L) := do
  let self ← get
  if unixSocketPath.any (108 < ·.length) then Act.fail .nameTooLong
  else match self.dials with
    | [] => Act.fail .connectionRefused
    | .error e :: rest => do
        modify fun self => { self with dials := rest }
        Act.fail e
    | .ok dial :: rest => do
        modify fun self => { self with dials := rest, nextId := self.nextId + 1 }
        pure (self.connect dial host port protocol unixSocketPath)

/-- `acquireConnection`. -/
def acquireConnection (host : Bytes) (port : ℕ) (protocol : Protocol)
    (unixSocketPath : Option Bytes) : Act (Client L) (ClientConnection L) := do
  let now ← now
  let self ← get
  let (found, pool) := self.pool.acquire now (·.accepts host port protocol unixSocketPath)
  modify fun self => self.setPool pool
  match found with
  | some conn => do
      modify fun client =>
        client.hands ⟨⟨host, port, protocol, unixSocketPath⟩, now, self.pool.idle, conn⟩
      pure conn
  | none => dialNew host port protocol unixSocketPath

/-! ### One request -/

/-- The options `writeRequest` is called with. -/
def requestOptions (state : FetchState) (host : Bytes) (userAgent : Option Bytes) :
    WriteRequestOptions where
  method := state.options.method
  uri := state.uri
  host := host
  port := state.port
  protocol := state.protocol
  headers := state.options.headers
  body := state.options.body
  decompress := state.options.decompress
  stripSensitiveHeaders := state.stripSensitiveHeaders
  stripBodyHeaders := state.stripBodyHeaders
  referer := state.referer
  userAgent := userAgent

open ClientConnection

/-- The response is read up to its body.  What fails here leaves the connection nowhere. -/
def receiveHeaders : Act (ClientConnection L) Unit := do
  match ← Act.attempt (onInbound Inbound.parseResponseHeaders) with
  | .ok () => pure ()
  | .error e => do
      modify close
      let self ← get
      Act.fail (if e = .readFailed then self.readError else e)

/-- Drain a small body and see whether the connection can be used again. -/
def drainRedirect : Act (ClientConnection L) Unit := do
  let self ← get
  Act.when (!self.isBodyComplete) do
    match ← Act.attempt (onInbound (Inbound.discardShort .response 1024 2049)) with
    | .error _ => do
        modify close
        let self ← get
        Act.fail self.readError
    | .ok _ => modify fun self => self.closeIf (!self.isBodyComplete)
  modify fun self => self.closeIf (!self.shouldKeepAlive)

/-- Where the `Location` header leads. -/
def locate (uri : Uri) (location : Bytes) : Except Error (Uri × ℕ × Protocol) :=
  if 2048 < location.length then .error .invalidUrl
  else match uri.resolveInPlace location 2048 with
    | none => .error .invalidUrl
    | some target => (uriPortAndProtocol target).map fun info => (target, info.1, info.2)

/-- The redirect that the response asks for, if it is one that is followed. -/
def findRedirect (state : FetchState) (redirectsRemaining : ℕ) :
    Act (ClientConnection L) (Option RedirectTarget) := do
  let self ← get
  let statusCode := self.parsedResponse.status.code
  if 300 ≤ statusCode ∧ statusCode < 400 ∧ 0 < redirectsRemaining then
    match self.parsedResponse.headers.get (ascii "Location") with
    | none => pure none
    | some location => do
        let (uri, port, protocol) ← orFail (locate state.uri location)
        drainRedirect
        pure (some ⟨statusCode, uri, port, protocol⟩)
  else pure none

/-- The body of `fetchInternal` from `writeRequest` to where it lets go of the connection. -/
def exchange (state : FetchState) (opts : WriteRequestOptions) (redirectsRemaining : ℕ) :
    Act (ClientConnection L) (Option RedirectTarget) := do
  Act.onError close (onWriter opts.writeRequest)
  Act.onError close (onWriter Conn.flush)
  receiveHeaders
  let self ← get
  if state.options.decompress && self.parsedResponse.contentEncoding == .unknown then do
    modify fun self => self.closeIf (!self.isBodyComplete)
    Act.fail .unsupportedContentEncoding
  else findRedirect state redirectsRemaining

/-- The options of the next request: `GET` and no body, unless the status keeps them. -/
def redirectOptions (options : FetchOptions) (statusCode : ℕ) : FetchOptions :=
  if statusCode = 301 ∨ statusCode = 302 ∨ statusCode = 303 then
    if options.method ≠ .get ∧ options.method ≠ .head then
      { options with method := .get, body := none }
    else if statusCode = 303 then { options with body := none }
    else options
  else options

/-- The `Referer` of the next request. -/
def redirectReferer (state : FetchState) (options : FetchOptions) (protocol : Protocol) :
    Option Bytes :=
  if state.protocol = .https ∧ protocol = .http then none
  else match options.headers.bind (·.get (ascii "Referer")) with
    | some existing => some existing
    | none => if state.uri.text.length ≤ 2048 then some state.uri.text else none

/-- The state of the next call. -/
def redirectState (state : FetchState) (host : Bytes) (target : RedirectTarget) :
    Except Error FetchState :=
  let options := redirectOptions state.options target.statusCode
  (uriHost target.uri).map fun redirectHost =>
    let effectiveInitialHost := if state.initialHost.length = 0 then host else state.initialHost
    { uri := target.uri
      port := target.port
      protocol := target.protocol
      options := options
      initialHost := effectiveInitialHost
      stripSensitiveHeaders := state.stripSensitiveHeaders ||
        !isDomainOrSubdomain redirectHost effectiveInitialHost ||
        (state.protocol == .https && target.protocol == .http)
      stripBodyHeaders := options.body.isNone
      referer := redirectReferer state options target.protocol }

/-- The CA bundle, which only a TLS connection needs. -/
def prepareTls (protocol : Protocol) : Act (Client L) Unit := do
  let self ← get
  Act.when (protocol == .https) do
    if !self.useTls || !self.config.useSystemCaBundle then Act.fail .tlsNotConfigured
    else ensureCaBundle

/-- What becomes of the connection after the exchange: an error releases it, a response holds it,
and a redirect lets go of it before the next request. -/
def afterExchange (state : FetchState) (host : Bytes) (maxResponseSize : ℕ) :
    Except Error (Option RedirectTarget) × ClientConnection L →
      Act (Client L) (ClientResponse L ⊕ FetchState)
  | (.error e, conn) => do
      releaseToPool conn
      Act.fail e
  | (.ok none, conn) => pure (.inl
      { conn := conn, maxResponseSize := maxResponseSize, decompress := state.options.decompress })
  | (.ok (some target), conn) => do
      releaseToPool conn
      let next ← orFail (redirectState state host target)
      pure (.inr next)

/-- `fetchInternal` up to its recursive call: the response, or the state to go on with. -/
def fetchHop (state : FetchState) (redirectsRemaining : ℕ) :
    Act (Client L) (ClientResponse L ⊕ FetchState) := do
  let host ← orFail (uriHost state.uri)
  prepareTls state.protocol
  let conn ← acquireConnection host state.port state.protocol state.options.unixSocketPath
  let self ← get
  if conn.httpVersion = .http2 then do
    releaseToPool conn.close
    Act.fail .http2NotImplemented
  else
    let opts := requestOptions state host self.config.userAgent
    modify fun self => self.sends opts conn.writer
    let result ← onConn (exchange state opts redirectsRemaining) conn
    afterExchange state host self.config.maxResponseSize result

/-- `fetchInternal`. -/
def fetchInternal : ℕ → FetchState → Act (Client L) (ClientResponse L)
  | 0, state => do
      match ← fetchHop state 0 with
      | .inl response => pure response
      | .inr _ => Act.die .assertion
  | redirectsRemaining + 1, state => do
      match ← fetchHop state (redirectsRemaining + 1) with
      | .inl response => pure response
      | .inr next => fetchInternal redirectsRemaining next

/-- `fetch`. -/
def fetch (url : Bytes) (options : FetchOptions) : Act (Client L) (ClientResponse L) := do
  match Uri.parse url with
  | none => Act.fail .invalidUrl
  | some uri => do
      let (port, protocol) ← orFail (uriPortAndProtocol uri)
      let self ← get
      fetchInternal (options.maxRedirects.getD self.config.maxRedirects)
        { uri := uri, port := port, protocol := protocol, options := options }

/-- `ClientResponse.deinit`. -/
def deinit (response : ClientResponse L) : Act (Client L) Unit := release response.conn

/-- A client whose connections get these answers, in these pieces. -/
def answered (answers : List (List Bytes)) : Client L where
  pool := { maxIdle := 8 }
  dials := answers.map fun chunks => .ok { net := { chunks := chunks } }

end Client
end Dusty
