import Dusty.Streaming

/-! # Handlers and the executor

A handler is what it does to its response: a sequence of operations, each of which may fail
without stopping it, and the error it returns in the end, if any.  Middleware is part of the
sequence.  `Executor.run` of `middleware.zig` turns the outcome into what the server writes. -/

namespace Dusty

/-- The response and the writers a handler was given for it. -/
structure HandlerState where
  res : Response
  bodyWriter : Bool := false
  stream : Option StreamingBodyWriter := none
  events : Option Bool := none
  eventWriters : List EventWriter := []

/-- What a handler or a middleware can do with its response.  `handleNotFound` is what the
executor does when the chain of middlewares ends and no route was found. -/
inductive Op where
  | setStatus (status : Status)
  | setBody (body : Bytes)
  | setContentType (contentType : Option ContentType)
  | header (name value : Bytes)
  | setCookie (name value : Bytes) (opts : CookieOpts)
  | json (text : Bytes)
  | writer
  | bodyWrite (bytes : Bytes)
  | bodyEnd
  | clearWriter
  | resetBody
  | stream (cap : ℕ)
  | streamWrite (bytes : Bytes)
  | streamSplat (data : List Bytes) (pattern : Bytes) (splat : ℕ)
  | streamFlush
  | streamEnd
  | writeHeader
  | startEventStream
  | send (data : Bytes) (opts : EventOptions)
  | startSend (opts : EventOptions)
  | eventWrite (i : ℕ) (bytes : Bytes)
  | eventEnd (i : ℕ)
  | handleNotFound

namespace HandlerState

def setRes (st : HandlerState) (res : Response) : HandlerState := { st with res := res }

/-- An operation on the response. -/
def onRes {α : Type} (x : Act Response α) : Act HandlerState α :=
  Act.zoom (·.res) (fun res st => st.setRes res) x

/-- An operation on the `BodyWriter`, if there is one. -/
def onBodyWriter (x : Act Response Unit) : Act HandlerState Unit := do
  let st ← get
  Act.when st.bodyWriter (onRes x)

/-- An operation on the `StreamingBodyWriter`, if there is one. -/
def onStream (x : Act StreamingBodyWriter.Self Unit) : Act HandlerState Unit := do
  let st ← get
  match st.stream with
  | none => pure ()
  | some w =>
      Act.zoom (fun st => ⟨st.res, (st.stream.getD w)⟩)
        (fun self st => { st with res := self.res, stream := some self.w }) x

/-- An operation on the `EventStream`, if there is one. -/
def onEvents (x : Act EventWriter.Self Unit) : Act HandlerState Unit := do
  let st ← get
  match st.events with
  | none => pure ()
  | some discard =>
      Act.zoom (fun st => ⟨st.res, ⟨discard, false⟩⟩) (fun self st => st.setRes self.res) x

/-- An operation on the `i`-th `EventWriter`, if there is one. -/
def onEventWriter (i : ℕ) (x : Act EventWriter.Self Unit) : Act HandlerState Unit := do
  let st ← get
  match st.eventWriters[i]? with
  | none => pure ()
  | some w =>
      Act.zoom (fun st => ⟨st.res, st.eventWriters.getD i w⟩)
        (fun self st =>
          { st with res := self.res, eventWriters := st.eventWriters.set i self.w }) x

end HandlerState

namespace Executor

open HandlerState

/-- `handleNotFound`, for an application without a `notFound` of its own. -/
def handleNotFound : Act Response Unit := do
  let res ← get
  Act.when (!res.headersWritten) Response.resetBody
  modify fun res =>
    { res with status := .notFound, contentType := some .text, body := ascii "404 Not Found\n" }

/-- The body of the replacement `handleError` prepares. -/
def errorBody : Bytes := ascii "500 Internal Server Error\n"

/-- `handleError`, for an application without an `uncaughtError` of its own. -/
def handleError : Act Response Unit := do
  Response.resetBody
  modify fun res =>
    { res with status := .internalServerError, contentType := some .text, body := errorBody }

/-- One operation. -/
def exec : Op → Act HandlerState Unit
  | .setStatus status => onRes (modify fun res => { res with status := status })
  | .setBody body => onRes (modify fun res => { res with body := body })
  | .setContentType contentType => onRes (modify fun res => { res with contentType := contentType })
  | .header name value => onRes (Response.header name value)
  | .setCookie name value opts => onRes (Response.setCookie name value opts)
  | .json text => onRes (Response.json text)
  | .writer => do
      onRes Response.writer
      modify fun st => { st with bodyWriter := true }
  | .bodyWrite bytes => onBodyWriter (Response.bodyWrite bytes)
  | .bodyEnd => onBodyWriter Response.bodyEnd
  | .clearWriter => onRes Response.clearWriter
  | .resetBody => onRes Response.resetBody
  | .stream cap => do
      onRes Response.stream
      modify fun st => { st with stream := some { cap := cap } }
  | .streamWrite bytes => onStream (StreamingBodyWriter.writeAll bytes)
  | .streamSplat data pattern splat => onStream (StreamingBodyWriter.writeSplatAll data pattern splat)
  | .streamFlush => onStream StreamingBodyWriter.flush
  | .streamEnd => onStream StreamingBodyWriter.finish
  | .writeHeader => onRes Response.writeHeader
  | .startEventStream => do
      let discard ← onRes Response.startEventStream
      modify fun st => { st with events := some discard }
  | .send data opts => onEvents (EventWriter.send data opts)
  | .startSend opts => do
      onEvents (EventWriter.startSend opts)
      modify fun st =>
        { st with eventWriters := st.eventWriters ++ (st.events.map fun d => ⟨d, false⟩).toList }
  | .eventWrite i bytes => onEventWriter i (EventWriter.writeAll bytes)
  | .eventEnd i => onEventWriter i EventWriter.finish
  | .handleNotFound => onRes handleNotFound

/-- A sequence of operations and what each of them returned. -/
def runOps : List Op → Act HandlerState (List (Except Error Unit))
  | [] => pure []
  | op :: rest => do
      let result ← Act.attempt (exec op)
      let results ← runOps rest
      pure (result :: results)

/-- The errors `Executor.run` passes on: no response can be produced any more. -/
def isTransport : Error → Bool
  | .readFailed | .writeFailed | .canceled => true
  | _ => false

/-- What `Executor.run` does with the handler's outcome. -/
def conclude : Option Error → Act HandlerState Unit
  | none => pure ()
  | some err =>
      if isTransport err then Act.fail err
      else do
        let st ← get
        if st.res.headersWritten then Act.fail err else onRes handleError

/-- `Executor.run` of a handler that performs `ops` and returns `outcome`. -/
def run (ops : List Op) (outcome : Option Error) : Act HandlerState (List (Except Error Unit)) := do
  let results ← runOps ops
  conclude outcome
  pure results

/-- The executor's run and the server's `write` after it. -/
def respond (ops : List Op) (outcome : Option Error) :
    Act HandlerState (List (Except Error Unit)) := do
  let results ← run ops outcome
  onRes Response.write
  pure results

end Executor
end Dusty
