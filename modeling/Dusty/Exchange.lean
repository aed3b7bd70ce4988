import Dusty.AcceptKey
import Dusty.Handler
import Dusty.Reader
import Dusty.WebSocket

/-! # A request being answered

What a handler holds while it answers a request: the request, whose body is still to be read
from the connection, the response, and the WebSocket it may turn the connection into.  A handler
is a sequence of steps on these, each of which may fail without stopping it. -/

namespace Dusty

/-- A connection with a request under way.  `waits` are the states the response was in whenever
the connection was read from for the request; they are there for statements only.  What a
WebSocket waits for once the connection is one is not among them. -/
structure Exchange (L : Llhttp) where
  inbound : Inbound L Request
  st : HandlerState
  reader : Bool := false
  socket : Option WebSocket := none
  waits : List Response := []

/-- What a handler can do with the WebSocket it was given. -/
inductive SocketOp where
  | send (type : MessageType) (data : Bytes)
  | ping (data : Bytes)
  | close (code : CloseCode) (reason : Bytes)
  | receive

/-- What a handler or a middleware can do.  `room` is what the memory a body is read into offers
for the next read. -/
inductive Step where
  | res (op : Op)
  | setKeepalive (keepalive : Bool)
  | reader
  | read (dest : ℕ)
  | body (room : ℕ → ℕ)
  | upgradeWebSocket
  | socket (op : SocketOp)

namespace Inbound

variable {L : Llhttp}

/-- What is left of pieces after `n` bytes: as much of the piece they end in as a buffer of size
`cap` takes, and the rest. -/
def afterPieces (cap : ℕ) : ℕ → List Bytes → Bytes × List Bytes
  | _, [] => ([], [])
  | n, chunk :: rest =>
      if n = 0 then ([], chunk :: rest)
      else if chunk.length ≤ n then afterPieces cap (n - chunk.length) rest
      else ((chunk.drop n).take cap,
        if (chunk.drop n).length ≤ cap then rest else (chunk.drop n).drop cap :: rest)

theorem length_afterPieces (cap n : ℕ) (chunks : List Bytes) :
    (afterPieces cap n chunks).1.length ≤ cap := by
  fun_induction afterPieces cap n chunks with
  | case1 n => exact Nat.zero_le _
  | case2 chunk rest => exact Nat.zero_le _
  | case3 n chunk rest _ _ ih => exact ih
  | case4 n chunk rest => exact List.length_take_le _ _

/-- The next `n` bytes are read into memory of the caller's; what comes along with them goes to
the buffer. -/
def readSlice (n : ℕ) (self : Inbound L Request) : Inbound L Request :=
  if h : n ≤ self.reader.data.length then self.setReader (self.reader.advance n h)
  else
    let left := afterPieces self.reader.cap (n - self.reader.data.length) self.net.chunks
    (self.setReader
      { self.reader with
        seek := 0
        data := left.1
        fits := by rw [Nat.zero_add]; exact length_afterPieces _ _ _ }).setNet
      { self.net with chunks := left.2 }

/-- Everything the peer will have sent. -/
def unread (self : Inbound L Request) : Bytes := self.reader.data ++ self.net.chunks.flatten

/-- A read failed at the end of the connection. -/
def noteFailure (self : Inbound L Request) : Inbound L Request :=
  { self with readErr := self.net.failure }

end Inbound

namespace Exchange

variable {L : Llhttp} {α : Type}

/-- The request. -/
def request (self : Exchange L) : Request := self.inbound.parser.msg

/-- The response. -/
def res (self : Exchange L) : Response := self.st.res

def setInbound (self : Exchange L) (inbound : Inbound L Request) : Exchange L :=
  { self with inbound := inbound }

def setRequest (self : Exchange L) (request : Request) : Exchange L :=
  self.setInbound (self.inbound.setParser (self.inbound.parser.setMsg request))

def setState (self : Exchange L) (st : HandlerState) : Exchange L := { self with st := st }

/-- The connection was read from. -/
def waited (self : Exchange L) (inbound : Inbound L Request) : Exchange L :=
  { self with
    inbound := inbound
    waits := self.waits ++ List.replicate (inbound.waits - self.inbound.waits) self.res }

/-- Run an action on the request. -/
def onRequest (x : Act Request α) : Act (Exchange L) α :=
  Act.zoom (·.request) (fun request self => self.setRequest request) x

/-- Run an action on the response and what was handed out for it. -/
def onState (x : Act HandlerState α) : Act (Exchange L) α :=
  Act.zoom (·.st) (fun st self => self.setState st) x

/-- Run an action on the response. -/
def onRes (x : Act Response α) : Act (Exchange L) α := onState (HandlerState.onRes x)

/-- Run an action on the connection's reader and the parser behind it. -/
def onInbound (x : Act (Inbound L Request) α) : Act (Exchange L) α :=
  Act.zoom (·.inbound) (fun inbound self => self.waited inbound) x

/-! ### The body of the request -/

/-- The interim response a client may wait for. -/
def interim : Bytes := ascii "HTTP/1.1 100 Continue\r\n\r\n"

/-- The first lines of `BodyReader.stream`: a client that waits is told to go on. -/
def sendContinue : Act (Exchange L) Unit := do
  let self ← get
  Act.when self.request.expectsContinue do
    modify fun self => self.setRequest { self.request with expectsContinue := false }
    onRes (Response.onConn (Conn.writeAll .interim interim))
    onRes (Response.onConn Conn.flush)

/-- `BodyReader.stream` of a reader that belongs to the request. -/
def readBody (dest : ℕ) : Act (Exchange L) Bytes := do
  sendContinue
  onInbound (Inbound.stream .request dest)

/-- The loop of `allocRemaining`. -/
def bodyLoop (room : ℕ → ℕ) : ℕ → ℕ → Bytes → Act (Exchange L) Bytes
  | 0, _, _ => Act.die .outOfFuel
  | fuel + 1, remaining, got =>
      if remaining = 0 then Act.fail .bodyTooBig
      else do
        match ← Act.attempt (readBody (min remaining (room got.length + 1))) with
        | .error .endOfStream => pure got
        | .error .writeFailed => Act.fail .outOfMemory
        | .error e => Act.fail e
        | .ok part => bodyLoop room fuel (remaining - part.length) (got ++ part)

/-- The body was read. -/
def storeBody (body : Bytes) (self : Exchange L) : Exchange L :=
  self.setRequest
    { self.request with bodyRead := true, cachedBody := if body.length = 0 then none else some body }

/-- `Request.body`. -/
def body (room : ℕ → ℕ) : Act (Exchange L) (Option Bytes) := do
  let self ← get
  if self.request.bodyRead then pure self.request.cachedBody
  else do
    let max := self.request.config.maxBodySize
    let result ← bodyLoop room (max + self.inbound.net.weight + 1) max []
    modify (storeBody result)
    let self ← get
    pure self.request.cachedBody

/-! ### Upgrading the connection -/

/-- The checks of `upgradeWebSocket`: the key of a request that may be upgraded. -/
def upgradeKey (request : Request) : Option Bytes :=
  match request.headers.get (ascii "Upgrade"), request.headers.get (ascii "Connection"),
      request.headers.get (ascii "Sec-WebSocket-Version") with
  | some upgrade, some connection, some version =>
      if eqlIgnoreCase upgrade (ascii "websocket") ∧
          containsIgnoreCase connection (ascii "upgrade") ∧ version = ascii "13" then
        request.headers.get (ascii "Sec-WebSocket-Key")
      else none
  | _, _, _ => none

/-- The response to a request that is upgraded. -/
def acceptUpgrade (key : Bytes) : Act Response Unit := do
  modify fun res => { res with status := .switchingProtocols }
  Response.header (ascii "Upgrade") (ascii "websocket")
  Response.header (ascii "Connection") (ascii "Upgrade")
  Response.header (ascii "Sec-WebSocket-Accept") (computeAcceptKey key)
  modify fun res => { res with streaming := true }
  Response.writeHeader
  Response.onConn Conn.flush

/-- The WebSocket on the connection; as a server it draws no masks. -/
def openSocket (self : Exchange L) : Exchange L :=
  { self with
    socket := some
      { conn := self.res.conn, incoming := [], masks := fun _ => .ofBytes [] } }

/-- `Response.upgradeWebSocket`: whether there is a WebSocket now. -/
def upgradeWebSocket : Act (Exchange L) Bool := do
  let self ← get
  match upgradeKey self.request with
  | none => pure false
  | some key => do
      onRes (acceptUpgrade key)
      modify openSocket
      pure true

/-- The WebSocket as the connection is now. -/
def attachSocket (self : Exchange L) (ws : WebSocket) : WebSocket :=
  { ws with
    conn := self.res.conn
    incoming := self.inbound.unread
    failure := self.inbound.net.failure.map fun _ => .readFailed }

/-- What the WebSocket wrote and read is written and read on the connection. -/
def detachSocket (ws : WebSocket) (self : Exchange L) : Exchange L :=
  { (self.setInbound (self.inbound.readSlice (self.inbound.unread.length - ws.incoming.length))).setState
      (self.st.setRes (self.res.setConn ws.conn)) with
    socket := some ws }

/-- A call on the WebSocket. -/
def socketCall : SocketOp → Act WebSocket Unit
  | .send type data => WebSocket.send type data
  | .ping data => WebSocket.ping data
  | .close code reason => WebSocket.close code reason
  | .receive => do
      let _ ← WebSocket.receive

/-- A call on the WebSocket, if there is one. -/
def onSocket (op : SocketOp) : Act (Exchange L) Unit := do
  let self ← get
  match self.socket with
  | none => pure ()
  | some ws =>
      match ← Act.attempt (Act.zoom (fun self => self.attachSocket ws) detachSocket (socketCall op)) with
      | .ok () => pure ()
      | .error e => do
          modify fun self =>
            if e = .readFailed then self.setInbound self.inbound.noteFailure else self
          Act.fail e

/-! ### Handlers -/

/-- `Request.reader`: it reads from the connection unless the body was read before.  A reader that
was taken earlier stays. -/
def takeReader (self : Exchange L) : Exchange L :=
  { self with reader := self.reader || !self.request.bodyRead }

/-- A read from the connection, through a reader the handler took. -/
def read (dest : ℕ) : Act (Exchange L) Unit := do
  let self ← get
  Act.when self.reader do
    let _ ← readBody dest

/-- One step. -/
def perform : Step → Act (Exchange L) Unit
  | .res op => onState (Executor.exec op)
  | .setKeepalive keepalive => onRes (modify fun res => { res with keepalive := keepalive })
  | .reader => modify takeReader
  | .read dest => read dest
  | .body room => do
      let _ ← body room
  | .upgradeWebSocket => do
      let _ ← upgradeWebSocket
  | .socket op => onSocket op

/-- A sequence of steps and what each of them returned. -/
def performAll : List Step → Act (Exchange L) (List (Except Error Unit))
  | [] => pure []
  | step :: rest => do
      let result ← Act.attempt (perform step)
      let results ← performAll rest
      pure (result :: results)

/-- `Executor.run` of a handler that performs `steps` and returns `outcome`. -/
def execute (steps : List Step) (outcome : Option Error) : Act (Exchange L) Unit := do
  let _ ← performAll steps
  onState (Executor.conclude outcome)

end Exchange
end Dusty
