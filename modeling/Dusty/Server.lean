import Dusty.Exchange
import Dusty.Router

/-! # The server

The loop of `handleRequests` in `server.zig`: parse a header section, let the application answer,
deal with what is left of the body, write the response, and go round if the connection can carry
another request. -/

namespace Dusty

/-- `ServerConfig`, as far as the loop reads it. -/
structure ServerConfig where
  request : RequestConfig := {}
  requestCount : Option ℕ := none

/-- `Server`: its configuration, its routes and the middlewares of requests without a route. -/
structure Server (H M : Type) where
  config : ServerConfig := {}
  router : Router H M
  middlewares : List M := []

/-- What the application does with one request, and whether the server is being shut down by the
time it is done. -/
structure Visit where
  steps : List Step
  outcome : Option Error := none
  shuttingDown : Bool := false

/-- Whether the loop goes round. -/
inductive Next where
  | close | again
deriving DecidableEq, Repr

namespace Exchange

variable {L : Llhttp}

/-- The connection a server has accepted. -/
def accept (config : ServerConfig) (net : Net) (conn : Conn) : Exchange L :=
  { inbound :=
      { parser := .init { config := config.request }
        reader := .fresh (config.request.bufferSize + 1024)
        net := net }
    st := { res := .init conn config.request.maxHeaderCount } }

/-- No request after this one. -/
def noKeepalive : Act (Exchange L) Unit := onRes (modify Response.noKeepalive)

/-- `Response.init` and the line behind it. -/
def begin (config : ServerConfig) (self : Exchange L) : Exchange L :=
  { self with
    st := { res :=
      { Response.init self.res.conn config.request.maxHeaderCount with
        head := decide (self.request.method = .head) } }
    reader := false
    socket := none }

/-! ### Before the handler -/

/-- The client expects something the server does not know. -/
def expectsUnknown (request : Request) : Bool :=
  match request.headers.get (ascii "Expect") with
  | some expect => !eqlIgnoreCase expect (ascii "100-continue")
  | none => false

/-- The client waits for an interim response. -/
def noteExpect (self : Exchange L) : Exchange L :=
  match self.request.headers.get (ascii "Expect") with
  | some _ => self.setRequest { self.request with expectsContinue := true }
  | none => self

/-- The reply to an unknown expectation. -/
def refuse : Act (Exchange L) Unit := do
  onRes (modify fun res => { res with status := .expectationFailed, keepalive := false })
  onRes Response.write

/-- The request is the last one the connection may carry. -/
def isLast (config : ServerConfig) (requestCount : ℕ) (self : Exchange L) : Bool :=
  !self.inbound.parser.shouldKeepAlive ||
    match config.requestCount with
    | some maxCount => decide (requestCount ≥ maxCount)
    | none => false

/-- The checks whether the connection may carry another request. -/
def limitKeepalive (config : ServerConfig) (requestCount : ℕ) : Act (Exchange L) Unit := do
  let self ← get
  Act.when (self.isLast config requestCount) noKeepalive

/-! ### Behind the handler -/

/-- The rest of the body is worth reading. -/
def drainable (config : RequestConfig) (request : Request) : Bool :=
  match (request.headers.get (ascii "Content-Length")).bind (parseInt usizeBound 10) with
  | some n => decide (n ≤ config.maxBodySize)
  | none => false

/-- Read what is left of the body, through a reader that does not belong to the request. -/
def discardBody (config : RequestConfig) : Act (Exchange L) Unit := do
  Act.assert (decide (config.maxBodySize + 1 < usizeBound))
  match ← Act.attempt (onInbound (Inbound.discardShort .request 4096 (config.maxBodySize + 1))) with
  | .ok consumed => Act.when (decide (consumed > config.maxBodySize)) noKeepalive
  | .error _ => do
      let self ← get
      if self.inbound.getReadError = some .canceled then Act.fail .canceled else noKeepalive

/-- What is done about a body the handler has left unread. -/
def drain (config : RequestConfig) : Act (Exchange L) Unit := do
  let self ← get
  if self.inbound.parser.isBodyComplete then pure ()
  else if drainable config self.request then discardBody config
  else noKeepalive

/-- `parser.reset` and `request.reset`. -/
def resetMessage (self : Exchange L) : Exchange L :=
  self.setInbound (self.inbound.setParser (self.inbound.parser.reset.setMsg self.request.reset))

/-- The end of the loop's body, as far as it looks at the connection. -/
def goRound : Act (Exchange L) Next := do
  let self ← get
  if !self.res.keepalive then pure .close
  else do
    modify resetMessage
    let self ← get
    pure (if self.inbound.reader.bufferedLen > 0 then .close else .again)

/-- The cause of a failed transport takes the place of the general error. -/
def nameCause {α : Type} (x : Act (Exchange L) α) : Act (Exchange L) α := do
  match ← Act.attempt x with
  | .ok a => pure a
  | .error e => do
      let self ← get
      Act.fail (match e with
        | .readFailed => self.inbound.getReadError.getD .readFailed
        | .writeFailed => self.res.conn.getWriteError.getD .writeFailed
        | e => e)

/-! ### One request -/

variable {H M : Type}

/-- The visit of a request: the middlewares are those of the route, or else the global ones. -/
def visit (server : Server H M) (app : Option H → List M → Visit) (found : Option (Route H M)) :
    Visit :=
  match found with
  | some route => app (some route.action) route.middlewares
  | none => app none server.middlewares

/-- What happens behind the handler. -/
def finish (config : RequestConfig) (shuttingDown : Bool) : Act (Exchange L) Next := do
  drain config
  Act.when shuttingDown noKeepalive
  onRes Response.write
  goRound

/-- A request is handed to the application and answered. -/
def respond (server : Server H M) (requestCount : ℕ) (app : Option H → List M → Visit) :
    Act (Exchange L) Next := do
  limitKeepalive server.config requestCount
  let found ← onRequest server.router.findHandler
  nameCause (execute (visit server app found).steps (visit server app found).outcome)
  finish server.config.request (visit server app found).shuttingDown

/-- The loop's body behind `parseHeaders`. -/
def serve (server : Server H M) (requestCount : ℕ) (app : Option H → List M → Visit) :
    Act (Exchange L) Next := do
  modify (begin server.config)
  let self ← get
  if expectsUnknown self.request then do
    refuse
    pure .close
  else do
    modify noteExpect
    respond server requestCount app

/-! ### The loop -/

/-- A fresh buffer. -/
def freshBuffer (config : RequestConfig) (self : Exchange L) : Exchange L :=
  self.setInbound (self.inbound.setReader (.fresh (config.bufferSize + 1024)))

/-- `Connection.isPeerGone`. -/
def isPeerGone (e : Error) : Bool :=
  e = .endOfStream || e = .connectionResetByPeer || e = .brokenPipe

/-- The wait for the next request: whether there is one. -/
def awaitNext (config : RequestConfig) : Act (Exchange L) Bool := do
  modify (freshBuffer config)
  match ← Act.attempt (onInbound Inbound.fillMore) with
  | .ok () => pure true
  | .error .endOfStream => pure false
  | .error _ => do
      let self ← get
      let e := self.inbound.getReadError.getD .readFailed
      if isPeerGone e then pure false else Act.fail e

/-- `parseHeaders` and the handling of its errors: whether there is a request. -/
def awaitRequest : Act (Exchange L) Bool := do
  match ← Act.attempt (onInbound Inbound.parseHeaders) with
  | .ok () => pure true
  | .error .endOfStream => pure false
  | .error .readFailed => do
      let self ← get
      Act.fail (self.inbound.getReadError.getD .readFailed)
  | .error e => Act.fail e

/-- `handleRequests`, for as many requests as `apps` says what the application does with. -/
def handleRequests (server : Server H M) :
    ℕ → List (Option H → List M → Visit) → Act (Exchange L) Unit
  | _, [] => pure ()
  | requestCount, app :: apps => do
      let parsed ← awaitRequest
      if !parsed then pure ()
      else
        let next ← serve server (requestCount + 1) app
        if next = .close then pure ()
        else
          let more ← awaitNext server.config.request
          if !more then pure () else handleRequests server (requestCount + 1) apps

end Exchange
end Dusty
