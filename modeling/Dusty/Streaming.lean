import Dusty.Response

/-! # Streaming bodies and event streams

`StreamingBodyWriter`, `EventStream` and `EventWriter` of `response.zig`.  A writer works on
the response it belongs to and on its own state, a value of `Attached`.  What the library
takes from `std.Io.Writer` is the buffering in front of `drain`: a write that fits is kept, a
write that does not is drained together with what was kept. -/

namespace Dusty

/-- A response and a writer that points to it. -/
structure Attached (W : Type) where
  res : Response
  w : W

def Attached.setRes {W : Type} (self : Attached W) (res : Response) : Attached W :=
  ⟨res, self.w⟩

/-- Run an action on the response. -/
def Attached.onRes {W α : Type} (x : Act Response α) : Act (Attached W) α :=
  Act.zoom (·.res) (fun res self => self.setRes res) x

/-- Write body bytes to the connection. -/
def Attached.emit {W : Type} (bytes : Bytes) : Act (Attached W) Unit :=
  Attached.onRes (Response.onConn (Conn.writeAll .body bytes))

/-- Flush the connection. -/
def Attached.flushConn {W : Type} : Act (Attached W) Unit :=
  Attached.onRes (Response.onConn Conn.flush)

/-- What `StreamingBodyWriter` keeps besides its response: the bytes in its buffer, the
buffer's size and the cause of the last failure. -/
structure StreamingBodyWriter where
  cap : ℕ
  buffered : Bytes := []
  err : Option Error := none
deriving DecidableEq, Repr

namespace StreamingBodyWriter

abbrev Self := Attached StreamingBodyWriter

/-- `StreamingBodyWriter.record`. -/
def record (result : Act Self Unit) : Act Self Unit := do
  match ← Act.attempt result with
  | .ok () => pure ()
  | .error e => do
      let self ← get
      let cause := if e = .writeFailed then self.res.conn.getWriteError.getD e else e
      modify fun self => { self with w := { self.w with err := some cause } }
      Act.fail .writeFailed

/-- `StreamingBodyWriter.commit`. -/
def commit (result : Act Self Unit) : Act Self Unit := do
  match ← Act.attempt (record result) with
  | .ok () => pure ()
  | .error e => do
      let self ← get
      Act.fail (self.w.err.getD e)

/-- Write pieces one after the other. -/
def writePieces : List Bytes → Act Self Unit
  | [] => pure ()
  | piece :: rest => do
      Attached.emit piece
      writePieces rest

/-- `writeParts`: what is pending, the slices, and the last one `splat` times. -/
def writeParts (pending : Bytes) (data : List Bytes) (pattern : Bytes) (splat : ℕ) :
    Act Self Unit := do
  Attached.emit pending
  writePieces data
  writePieces (List.replicate splat pattern)

/-- `StreamingBodyWriter.writeBody`. -/
def writeBody (pending : Bytes) (data : List Bytes) (pattern : Bytes) (splat : ℕ) :
    Act Self Unit := do
  writeParts pending data pattern splat
  Attached.flushConn

/-- `StreamingBodyWriter.writeChunk`. -/
def writeChunk (pending : Bytes) (data : List Bytes) (pattern : Bytes) (splat total : ℕ) :
    Act Self Unit := do
  Attached.emit (fmtNat 16 total ++ crlf)
  writeParts pending data pattern splat
  Attached.emit crlf
  Attached.flushConn

/-- `Writer.countSplat`. -/
def countSplat (data : List Bytes) (pattern : Bytes) (splat : ℕ) : ℕ :=
  data.flatten.length + pattern.length * splat

/-- The bytes are accounted for and leave the buffer. -/
def consume (total : ℕ) (self : Self) : Self :=
  { res := { self.res with bodySent := self.res.bodySent + total }
    w := { self.w with buffered := [] } }

/-- How many bytes a drain is about: those pending and those given. -/
def drainTotal (self : Self) (data : List Bytes) (pattern : Bytes) (splat : ℕ) : ℕ :=
  self.w.buffered.length + countSplat data pattern splat

/-- The two framings of a body. -/
def writeFramed (self : Self) (data : List Bytes) (pattern : Bytes) (splat : ℕ) : Act Self Unit :=
  if self.res.chunked then
    writeChunk self.w.buffered data pattern splat (drainTotal self data pattern splat)
  else writeBody self.w.buffered data pattern splat

/-- `StreamingBodyWriter.drain`. -/
def drain (data : List Bytes) (pattern : Bytes) (splat : ℕ) : Act Self Unit := do
  let self ← get
  if drainTotal self data pattern splat = 0 then pure ()
  else if self.res.head then modify (consume (drainTotal self data pattern splat))
  else
    record (writeFramed self data pattern splat)
    modify (consume (drainTotal self data pattern splat))

/-- `interface.writeSplatAll`. -/
def writeSplatAll (data : List Bytes) (pattern : Bytes) (splat : ℕ) : Act Self Unit := do
  let self ← get
  if drainTotal self data pattern splat > self.w.cap then
    drain data pattern splat
  else
    let kept := data.flatten ++ (List.replicate splat pattern).flatten
    modify fun self => { self with w := { self.w with buffered := self.w.buffered ++ kept } }

/-- `interface.writeAll`. -/
def writeAll (bytes : Bytes) : Act Self Unit :=
  if bytes.length = 0 then pure () else writeSplatAll [] bytes 1

/-- `interface.flush`. -/
def flush : Act Self Unit := do
  let self ← get
  Act.when (self.w.buffered.length != 0) (drain [] [] 1)

/-- `StreamingBodyWriter.end`. -/
def finish : Act Self Unit := do
  let self ← get
  if !self.res.bodyWriterOpen then pure ()
  else
    modify fun self => self.setRes self.res.closeBody.markWritten
    Act.onError (fun self => self.setRes self.res.noKeepalive) do
      commit flush
      Act.when (self.res.chunked && !self.res.head) (commit (Attached.emit (ascii "0\r\n\r\n")))
      commit Attached.flushConn
      let self ← get
      match self.res.contentLength with
      | some declared =>
          Act.when (self.res.bodySent != declared) (Act.fail .contentLengthMismatch)
      | none => pure ()

end StreamingBodyWriter

/-! ### Event streams -/

/-- `EventStream`, and what `startSend` makes of it: where it writes, and whether a `data`
line was begun and not finished. -/
structure EventWriter where
  discard : Bool
  lineInProgress : Bool := false
deriving DecidableEq, Repr

/-- `EventStream.Options`. -/
structure EventOptions where
  event : Option Bytes := none
  id : Option Bytes := none
  retry : Option ℕ := none
deriving DecidableEq, Repr

namespace EventWriter

abbrev Self := Attached EventWriter

/-- Write to the connection, or to the sink of a HEAD request. -/
def emit (bytes : Bytes) : Act Self Unit := do
  let self ← get
  Act.when (!self.w.discard) (Attached.emit bytes)

def flushConn : Act Self Unit := do
  let self ← get
  Act.when (!self.w.discard) Attached.flushConn

def setLineInProgress (b : Bool) : Act Self Unit :=
  modify fun self => { self with w := { self.w with lineInProgress := b } }

/-- A carriage return or a line feed in a field that must be one line. -/
def breaksLine (field : Option Bytes) : Bool := (field.getD []).any fun b => b == 13 || b == 10

/-- The line of an optional field. -/
def emitField (name : Bytes) : Option Bytes → Act Self Unit
  | none => pure ()
  | some value => emit (name ++ value ++ [10])

/-- The checks and the first lines shared by `startSend` and `send`. -/
def startSend (opts : EventOptions) : Act Self Unit := do
  if breaksLine opts.event then Act.fail .invalidEventField
  else if breaksLine opts.id then Act.fail .invalidEventField
  else
    emitField (ascii "event: ") opts.event
    emitField (ascii "id: ") opts.id
    emitField (ascii "retry: ") (opts.retry.map (fmtNat 10))

/-- A line without the carriage return before its line feed. -/
def stripCr (line : Bytes) : Bytes := if line.getLast? = some 13 then line.dropLast else line

/-- The loop of `send` over the lines of the data. -/
def sendLines : List Bytes → Act Self Unit
  | [] => pure ()
  | line :: rest => do
      emit (ascii "data: " ++ stripCr line ++ [10])
      sendLines rest

/-- `EventStream.send`. -/
def send (data : Bytes) (opts : EventOptions) : Act Self Unit := do
  startSend opts
  sendLines (splitScalar data 10)
  emit [10]
  flushConn

/-- Begin a `data` line if none is under way. -/
def openLine : Act Self Unit := do
  let self ← get
  Act.when (!self.w.lineInProgress) (emit (ascii "data: "))

/-- Begin a `data` line that stays open. -/
def keepLine : Act Self Unit := do
  let self ← get
  Act.when (!self.w.lineInProgress) do
    emit (ascii "data: ")
    setLineInProgress true

/-- `EventWriter.writeLines` on the pieces between the line feeds. -/
def writeLines : List Bytes → Act Self Unit
  | [] => pure ()
  | [rest] =>
      Act.when (rest.length > 0) do
        keepLine
        emit rest
  | line :: rest => do
      openLine
      emit (stripCr line)
      emit [10]
      setLineInProgress false
      writeLines rest

/-- A write through the unbuffered interface of an `EventWriter`. -/
def writeAll (bytes : Bytes) : Act Self Unit :=
  if bytes.length = 0 then pure () else writeLines (splitScalar bytes 10)

/-- The slices of a drain, one after the other. -/
def writeSlices : List Bytes → Act Self Unit
  | [] => pure ()
  | segment :: rest => do
      writeLines (splitScalar segment 10)
      writeSlices rest

/-- `EventWriter.drain`, and how many bytes it took: the slices, and the last one at most once. -/
def drain (data : List Bytes) (pattern : Bytes) (splat : ℕ) : Act Self ℕ := do
  writeSlices data
  if splat > 0 then do
    writeLines (splitScalar pattern 10)
    pure (data.flatten.length + pattern.length)
  else pure data.flatten.length

/-- The repetitions that are left are drained again. -/
def drainRest (pattern : Bytes) : ℕ → Act Self Unit
  | 0 => pure ()
  | splat + 1 => do
      let _ ← drain [] pattern (splat + 1)
      drainRest pattern splat

/-- `interface.writeSplatAll`, unbuffered. -/
def writeSplatAll (data : List Bytes) (pattern : Bytes) (splat : ℕ) : Act Self Unit :=
  if StreamingBodyWriter.countSplat data pattern splat = 0 then pure ()
  else do
    let _ ← drain data pattern splat
    drainRest pattern (splat - 1)

/-- `EventWriter.end`. -/
def finish : Act Self Unit := do
  let self ← get
  Act.when self.w.lineInProgress (emit [10])
  emit [10]
  flushConn

end EventWriter
end Dusty
