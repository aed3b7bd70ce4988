import Dusty.Llhttp
import Dusty.Request

/-! # The parsers

`RequestParser` and `ResponseParser` of `parser.zig`.  The two have the same callbacks up to
the fields of the message they fill, so they are one definition over a `Target`: what the
callbacks of `M` do.

A span is taken byte by byte, where `llhttp` hands over one slice when the span or the input
ends.  The slices come out the same, and so does the assertion of `appendSlice`, which holds
for a slice exactly when it holds for its first byte. -/

namespace Dusty

/-- `ParsedResponse`. -/
structure ParsedResponse where
  status : Status := .ok
  versionMajor : ℕ := 0
  versionMinor : ℕ := 0
  headers : Headers := .init 0
  contentType : Option ContentType := none
  contentEncoding : ContentEncoding := .identity
deriving DecidableEq

/-- The part of the callbacks that depends on the message. -/
structure Target (M : Type) where
  onMethod : Method → M → M
  onVersion : ℕ → ℕ → M → M
  /-- `none` where the callback returns -1. -/
  onStatusComplete : ℕ → M → Option M
  url : M → Slice
  setUrl : Slice → M → M
  headers : M → Headers
  setHeaders : Headers → M → M
  onHeadersComplete : M → M

/-- The callbacks of `RequestParser`; it has none for the status. -/
def Target.request : Target Request where
  onMethod m req := { req with method := m }
  onVersion major minor req := { req with versionMajor := major, versionMinor := minor }
  onStatusComplete _ req := some req
  url req := req.url
  setUrl url req := { req with url := url }
  headers req := req.headers
  setHeaders headers req := { req with headers := headers }
  onHeadersComplete req :=
    match req.headers.get (ascii "Content-Type") with
    | some contentType => { req with contentType := some (.fromContentType contentType) }
    | none => req

/-- `onHeadersComplete` of `ResponseParser`, for the content type. -/
def ParsedResponse.takeContentType (res : ParsedResponse) : ParsedResponse :=
  match res.headers.get (ascii "Content-Type") with
  | some contentType => { res with contentType := some (.fromContentType contentType) }
  | none => res

/-- `onHeadersComplete` of `ResponseParser`, for the coding. -/
def ParsedResponse.takeContentEncoding (res : ParsedResponse) : ParsedResponse :=
  match res.headers.get (ascii "Content-Encoding") with
  | some contentEncoding => { res with contentEncoding := .fromString contentEncoding }
  | none => res

/-- The callbacks of `ResponseParser`; it has none for the method and the URL. -/
def Target.response : Target ParsedResponse where
  onMethod _ res := res
  onVersion major minor res := { res with versionMajor := major, versionMinor := minor }
  onStatusComplete code res := (Status.fromCode code).map fun status => { res with status := status }
  url _ := ⟨0, []⟩
  setUrl _ res := res
  headers res := res.headers
  setHeaders headers res := { res with headers := headers }
  onHeadersComplete res := res.takeContentType.takeContentEncoding

/-- `State`, as far as it is read.  `bodyDest` is the size of `body_dest_buf`, `body` what
`onBody` has put there. -/
structure ParserState where
  hasHeaderField : Bool := false
  headerField : Slice := ⟨0, []⟩
  headerValue : Slice := ⟨0, []⟩
  headersComplete : Bool := false
  messageComplete : Bool := false
  bodyDest : ℕ := 0
  body : Bytes := []
deriving DecidableEq, Repr

/-- A parser and the message its callbacks fill.  `errno` and `errorPos` are those of `llhttp`,
`pending` is what the automaton has to do before it looks at another byte, `span` the span that
is open. -/
structure Parser (L : Llhttp) (M : Type) where
  core : L.State
  pending : List Event := []
  errno : Option Halt := none
  errorPos : ℕ := 0
  span : Option Span := none
  state : ParserState := {}
  msg : M

/-- `RequestParser`. -/
abbrev RequestParser (L : Llhttp) := Parser L Request

/-- `ResponseParser`. -/
abbrev ResponseParser (L : Llhttp) := Parser L ParsedResponse

/-- `appendSlice`. -/
def appendSlice {σ : Type} (target : Slice) (ptr : ℕ) (bytes : Bytes) : Act σ Slice :=
  if target.bytes.length = 0 then pure ⟨ptr, bytes⟩
  else do
    Act.assert (target.ptr + target.bytes.length == ptr)
    pure ⟨target.ptr, target.bytes ++ bytes⟩

namespace Parser

variable {L : Llhttp} {M : Type}

/-- `init`: a parser for the message. -/
def init (msg : M) : Parser L M := { core := L.init, msg := msg }

/-- `reset`. -/
def reset (self : Parser L M) : Parser L M := { core := L.init, msg := self.msg }

def setState (self : Parser L M) (state : ParserState) : Parser L M := { self with state := state }

def setMsg (self : Parser L M) (msg : M) : Parser L M := { self with msg := msg }

/-- Stop at an address. -/
def stop (self : Parser L M) (halt : Halt) (pos : ℕ) : Parser L M :=
  { self with errno := some halt, errorPos := pos }

/-- The automaton is in a state, with a span open or none. -/
def enter (self : Parser L M) (core : L.State) (span : Option Span) : Parser L M :=
  { self with core := core, span := span }

/-- `isBodyComplete`. -/
def isBodyComplete (self : Parser L M) : Bool := self.state.messageComplete

/-- `shouldKeepAlive`. -/
def shouldKeepAlive (self : Parser L M) : Bool := L.shouldKeepAlive self.core

/-- `resumeParsing`. -/
def resumeParsing (self : Parser L M) : Parser L M :=
  if self.errno = some .paused then { self with errno := none } else self

/-- `prepareBodyRead`. -/
def prepareBodyRead (self : Parser L M) (dest : ℕ) : Parser L M :=
  self.setState { self.state with bodyDest := dest, body := [] }

/-- `getConsumedBytes`. -/
def getConsumedBytes (self : Parser L M) (bufStart : ℕ) : ℕ := self.errorPos - bufStart

/-! ### The callbacks -/

variable (T : Target M)

/-- `onHeaderFieldComplete`. -/
def onHeaderFieldComplete : Act (Parser L M) Unit := do
  let self ← get
  Act.assert (self.state.headerField.bytes.length > 0)
  modify fun self => self.setState { self.state with hasHeaderField := true }

/-- `onHeaderValueComplete`. -/
def onHeaderValueComplete (pos : ℕ) : Act (Parser L M) Unit := do
  let self ← get
  Act.assert self.state.hasHeaderField
  match (T.headers self.msg).add self.state.headerField.bytes self.state.headerValue.bytes with
  | .error _ => modify fun self => self.stop (.error .cbHeaderValueComplete) pos
  | .ok headers =>
      modify fun self =>
        (self.setMsg (T.setHeaders headers self.msg)).setState
          { self.state with
            headerValue := ⟨0, []⟩, headerField := ⟨0, []⟩, hasHeaderField := false }

/-- The callbacks without data.  A callback that returns -1 stops the parser. -/
def onMark (pos : ℕ) : Mark → Act (Parser L M) Unit
  | .method m => modify fun self => self.setMsg (T.onMethod m self.msg)
  | .version major minor => modify fun self => self.setMsg (T.onVersion major minor self.msg)
  | .urlComplete => pure ()
  | .statusComplete code =>
      modify fun self => match T.onStatusComplete code self.msg with
        | some msg => self.setMsg msg
        | none => self.stop (.error .cbStatusComplete) pos
  | .headerFieldComplete => onHeaderFieldComplete
  | .headerValueComplete => onHeaderValueComplete T pos

/-- `onHeadersComplete`. -/
def onHeadersComplete (self : Parser L M) : Parser L M :=
  (self.setMsg (T.onHeadersComplete self.msg)).setState
    { self.state with headersComplete := true }

/-- `onMessageComplete`. -/
def onMessageComplete (self : Parser L M) : Parser L M :=
  self.setState { self.state with messageComplete := true }

/-- What happens between two bytes, at the address of the second. -/
def onEvent (pos : ℕ) : Event → Act (Parser L M) Unit
  | .mark m => onMark T pos m
  | .headersComplete => modify fun self => (self.onHeadersComplete T).stop .paused pos
  | .messageComplete => modify fun self => self.onMessageComplete.stop .paused pos
  | .fail e => modify fun self => self.stop (.error e) pos

/-- Events up to the first that stops the parser; the others stay pending. -/
def runEvents (pos : ℕ) : List Event → Act (Parser L M) Unit
  | [] => pure ()
  | e :: rest => do
      onEvent T pos e
      let self ← get
      if self.errno.isSome then modify fun self => { self with pending := rest }
      else runEvents pos rest

/-- A byte of a span: `onUrl`, `onHeaderField`, `onHeaderValue` or `onBody`. -/
def onSpanByte (pos : ℕ) (b : UInt8) : Span → Act (Parser L M) Unit
  | .url => do
      let self ← get
      let url ← appendSlice (T.url self.msg) pos [b]
      modify fun self => self.setMsg (T.setUrl url self.msg)
  | .headerField => do
      let self ← get
      let field ← appendSlice self.state.headerField pos [b]
      modify fun self => self.setState { self.state with headerField := field }
  | .headerValue => do
      let self ← get
      let value ← appendSlice self.state.headerValue pos [b]
      modify fun self => self.setState { self.state with headerValue := value }
  | .body =>
      modify fun self =>
        if self.state.body.length < self.state.bodyDest then
          self.setState { self.state with body := self.state.body ++ [b] }
        else self

/-- The byte of a span, if the byte belongs to one. -/
def onByte (pos : ℕ) (b : UInt8) : Option Span → Act (Parser L M) Unit
  | none => pure ()
  | some span => onSpanByte T pos b span

/-- What is stored of a span; the bytes of a body are not. -/
def stored (self : Parser L M) : Span → Option Slice
  | .url => some (T.url self.msg)
  | .headerField => some self.state.headerField
  | .headerValue => some self.state.headerValue
  | .body => none

/-- Go on with the open span at a new address: what is stored of it has to end there. -/
def restartSpan (pos : ℕ) : Act (Parser L M) Unit := do
  let self ← get
  match self.span.bind (self.stored T) with
  | none => pure ()
  | some slice => do
      let _ ← appendSlice slice pos []

/-! ### Feeding -/

/-- One byte, unless the parser has stopped. -/
def eatByte (pos : ℕ) (b : UInt8) : Act (Parser L M) Unit := do
  let self ← get
  if self.errno.isSome then pure ()
  else
    let r := L.step self.core b
    runEvents T pos (r.before.map .mark)
    let self ← get
    if self.errno.isSome then pure ()
    else
      onByte T pos b r.span
      modify fun self => self.enter r.next (if r.closes then none else r.span)
      runEvents T (pos + 1) r.after

/-- The bytes from an address on. -/
def eat : ℕ → Bytes → Act (Parser L M) Unit
  | _, [] => pure ()
  | pos, b :: rest => do
      eatByte T pos b
      eat (pos + 1) rest

/-- What was left to do when the parser paused. -/
def catchUp (pos : ℕ) : Act (Parser L M) Unit := do
  let self ← get
  modify fun self => { self with pending := [] }
  runEvents T pos self.pending

/-- `llhttp_execute`. -/
def execute (pos : ℕ) (data : Bytes) : Act (Parser L M) Unit := do
  let self ← get
  if self.errno.isSome then pure ()
  else
    restartSpan T pos
    catchUp T pos
    eat T pos data

/-- `feed`: whether the parser paused. -/
def feed (pos : ℕ) (data : Bytes) : Act (Parser L M) Bool := do
  execute T pos data
  let self ← get
  match self.errno with
  | none => pure false
  | some .paused => pure true
  | some (.error e) => Act.fail (mapError e)

/-- `finish`.  A pause of `on_message_complete` is no error here. -/
def finish : Act (Parser L M) Unit := do
  let self ← get
  if self.errno.isSome then pure ()
  else match L.finish self.core with
    | .safe => pure ()
    | .safeWithCb => modify onMessageComplete
    | .unfinished => Act.fail .parseFailed

end Parser
end Dusty
