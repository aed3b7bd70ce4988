import Dusty.Conn
import Dusty.Cookie
import Dusty.Http

/-! # The response

The fields of `Response` in `response.zig` and the functions a handler calls to build one.
`writeHeader` puts the header block on the wire and `write`, called by the server when the
handler is done, whatever is left to send. -/

namespace Dusty

structure Response where
  conn : Conn
  headers : Headers
  status : Status := .ok
  body : Bytes := []
  contentType : Option ContentType := none
  buffer : Bytes := []
  written : Bool := false
  headersWritten : Bool := false
  keepalive : Bool := true
  chunked : Bool := false
  streaming : Bool := false
  head : Bool := false
  bodyWriterOpen : Bool := false
  contentLength : Option ℕ := none
  bodySent : ℕ := 0
deriving DecidableEq

namespace Response

/-- `Response.init`. -/
def init (conn : Conn) (maxHeaders : ℕ) : Response := { conn := conn, headers := .init maxHeaders }

def setConn (self : Response) (conn : Conn) : Response := { self with conn := conn }

def setHeaders (self : Response) (headers : Headers) : Response := { self with headers := headers }

/-- The response is on the wire, or is not to be written any more. -/
def markWritten (self : Response) : Response := { self with written := true }

/-- A body writer is handed out. -/
def openBody (self : Response) : Response := { self with bodyWriterOpen := true }

/-- The body writer handed out is not in use any more. -/
def closeBody (self : Response) : Response := { self with bodyWriterOpen := false }

/-- The body will have the length that was declared. -/
def declareLength (self : Response) (n : ℕ) : Response := { self with contentLength := some n }

/-- The body will be sent in chunks. -/
def useChunks (self : Response) : Response := { self with chunked := true }

/-- The connection cannot carry another response. -/
def noKeepalive (self : Response) : Response := { self with keepalive := false }

section setters
variable (self : Response)

@[simp] theorem setConn_conn (conn : Conn) : (self.setConn conn).conn = conn := rfl

@[simp] theorem markWritten_conn : self.markWritten.conn = self.conn := rfl

@[simp] theorem markWritten_chunked : self.markWritten.chunked = self.chunked := rfl

@[simp] theorem markWritten_head : self.markWritten.head = self.head := rfl

end setters

/-- Run an action on the connection. -/
def onConn {α : Type} (x : Act Conn α) : Act Response α :=
  Act.zoom (·.conn) (fun conn self => self.setConn conn) x

/-! ### Header fields -/

/-- `Response.header`. -/
def header (name value : Bytes) : Act Response Unit := do
  let self ← get
  if self.headersWritten then Act.fail .headersAlreadySent
  else if !validHeaderName name then Act.fail .invalidHeaderName
  else if !validHeaderValue value then Act.fail .invalidHeaderValue
  else match self.headers.put name value with
    | .error e => Act.fail e
    | .ok headers => modify fun self => self.setHeaders headers

/-- `Response.setCookie`. -/
def setCookie (name value : Bytes) (opts : CookieOpts) : Act Response Unit := do
  let self ← get
  if self.headersWritten then Act.fail .headersAlreadySent
  else
    let serialized ← Cookie.serializeCookie name value opts
    if !validHeaderValue serialized then Act.fail .invalidHeaderValue
    else match self.headers.add (ascii "Set-Cookie") serialized with
      | .error e => Act.fail e
      | .ok headers => modify fun self => self.setHeaders headers

/-! ### The header block -/

/-- `HTTP/1.1 {d} {f}`. -/
def statusLine (status : Status) : Bytes :=
  ascii "HTTP/1.1 " ++ fmtNat 10 status.code ++ [32] ++ status.name

/-- `{s}: {s}`. -/
def fieldLine (name value : Bytes) : Bytes := name ++ ascii ": " ++ value

/-- Write one line of the header block. -/
def writeLine (line : Bytes) : Act Response Unit := onConn (Conn.writeAll .head (line ++ crlf))

/-- The loop over the header fields. -/
def writeFields : List HeaderEntry → Act Response Unit
  | [] => pure ()
  | entry :: rest => do
      writeLine (fieldLine entry.key entry.value)
      writeFields rest

/-- The length `writeHeader` announces for a body that is not streamed. -/
def bodyLength (self : Response) : ℕ :=
  if self.buffer.length > 0 then self.buffer.length else self.body.length

/-- `Transfer-Encoding` or `Content-Length`, unless the response is an open-ended stream. -/
def writeFraming (self : Response) : Act Response Unit :=
  if self.chunked then writeLine (ascii "Transfer-Encoding: chunked")
  else if !self.streaming then
    if (self.headers.get (ascii "Content-Length")).isNone then
      writeLine (fieldLine (ascii "Content-Length") (fmtNat 10 self.bodyLength))
    else pure ()
  else pure ()

/-- The content type goes through the same door as every other field. -/
def putContentType : Act Response Unit := do
  let self ← get
  match self.contentType with
  | some contentType => header (ascii "Content-Type") contentType.toContentType
  | none => pure ()

/-- `Response.writeHeader`. -/
def writeHeader : Act Response Unit := do
  let self ← get
  if self.headersWritten then pure ()
  else
    putContentType
    modify fun self => { self with headersWritten := true }
    let self ← get
    writeLine (statusLine self.status)
    writeFields self.headers.entries
    Act.when (!self.keepalive) (writeLine (ascii "Connection: close"))
    writeFraming self
    writeLine []

/-! ### The body -/

/-- `Response.startBody`. -/
def startBody : Act Response Unit := do
  let self ← get
  Act.assert (!self.bodyWriterOpen)
  Act.assert (!self.headersWritten)
  Act.assert (self.body.length == 0 && self.buffer.length == 0)
  modify openBody

/-- `Response.writer`. -/
def writer : Act Response Unit := startBody

/-- A write through a `BodyWriter`. -/
def bodyWrite (bytes : Bytes) : Act Response Unit :=
  modify fun self => { self with buffer := self.buffer ++ bytes }

/-- `BodyWriter.end`.  The writer is unbuffered, so its flush has nothing to do. -/
def bodyEnd : Act Response Unit := do
  let self ← get
  if !self.bodyWriterOpen then pure ()
  else modify closeBody

/-- `Response.clearWriter`. -/
def clearWriter : Act Response Unit := modify fun self => { self with buffer := [] }

/-- `Response.resetBody`. -/
def resetBody : Act Response Unit := do
  let self ← get
  Act.assert (!self.headersWritten)
  clearWriter
  modify fun self =>
    { self with body := [], bodyWriterOpen := false, contentType := none
                headers := ((self.headers.remove (ascii "Content-Type")).1.remove
                  (ascii "Content-Length")).1 }

/-- `Response.json` of a value with the given text. -/
def json (text : Bytes) : Act Response Unit := do
  bodyWrite text
  header (ascii "Content-Type") (ascii "application/json; charset=UTF-8")

/-- How `stream` frames the body: by a `Content-Length` that is already set, or chunked. -/
def decideFraming : Act Response Unit := do
  let self ← get
  match self.headers.get (ascii "Content-Length") with
  | some value =>
      match parseInt usizeBound 10 value with
      | some n => modify fun self => self.declareLength n
      | none => Act.fail .invalidContentLength
  | none => modify useChunks

/-- `Response.stream`, up to the creation of the writer. -/
def stream : Act Response Unit := do
  startBody
  decideFraming
  writeHeader

/-- `Response.startEventStream`: whether the events go into a sink. -/
def startEventStream : Act Response Bool := do
  header (ascii "Content-Type") (ascii "text/event-stream")
  header (ascii "Cache-Control") (ascii "no-cache")
  modify fun self => { self with keepalive := false, streaming := true }
  writeHeader
  onConn Conn.flush
  let self ← get
  pure self.head

/-! ### Finishing -/

/-- The last chunk, which is body framing and so is not sent for a HEAD. -/
def writeTerminator (self : Response) : Act Response Unit :=
  Act.when (!self.head) (onConn (Conn.writeAll .body (ascii "0\r\n\r\n")))

/-- What the framing of an abandoned body needs: the last chunk, or the end of the connection
when the length that was declared is not the one that was sent. -/
def settleAbandoned (self : Response) : Act Response Unit :=
  if self.chunked then writeTerminator self
  else match self.contentLength with
    | some declared =>
        Act.when (self.bodySent != declared) (modify noKeepalive)
    | none => pure ()

/-- The branch of `write` for a streaming body whose writer was abandoned. -/
def finishAbandoned (self : Response) : Act Response Unit := do
  settleAbandoned self
  onConn Conn.flush
  modify markWritten

/-- The body from the buffer, or else from the field. -/
def writeBody (self : Response) : Act Response Unit :=
  onConn (Conn.writeAll .body (if self.buffer.length > 0 then self.buffer else self.body))

/-- The rest of `write`: headers and body, or what a finished stream still lacks. -/
def finishBuffered : Act Response Unit := do
  modify markWritten
  let self ← get
  if self.chunked then do
    writeTerminator self
    onConn Conn.flush
  else do
    writeHeader
    let self ← get
    Act.when (!self.head) (writeBody self)
    onConn Conn.flush

/-- `Response.write`. -/
def write : Act Response Unit := do
  let self ← get
  if self.written then pure ()
  else if self.bodyWriterOpen then do
    modify closeBody
    if self.headersWritten then finishAbandoned self else finishBuffered
  else finishBuffered

end Response
end Dusty
