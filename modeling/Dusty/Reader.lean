import Dusty.Parser

/-! # Reading a message

The connection's reader, the loops that parse a header section out of it, and the body reader.
A `Reader` is a window of the connection's buffer; addresses count from the start of the
allocation, so that a slice stored by the parser can be told from the bytes that moved.  What
the peer sends arrives in pieces (`Net`), and a piece that does not fit is taken in parts. -/

namespace Dusty

/-- `std.Io.Reader`: a buffer at `base` of `cap` bytes with the unread bytes `data` from `seek`
on. -/
structure Reader where
  base : ℕ := 0
  cap : ℕ
  seek : ℕ := 0
  data : Bytes := []
  fits : seek + data.length ≤ cap
deriving DecidableEq

namespace Reader

/-- An empty reader on a fresh buffer. -/
def fresh (cap : ℕ) : Reader := { cap := cap, fits := Nat.zero_le _ }

/-- The address of the first unread byte. -/
def pos (self : Reader) : ℕ := self.base + self.seek

/-- `bufferedLen`. -/
def bufferedLen (self : Reader) : ℕ := self.data.length

/-- The bytes the buffer has behind the unread ones. -/
def room (self : Reader) : ℕ := self.cap - (self.seek + self.data.length)

/-- `rebase`, for one more byte: the unread bytes move to the front if there is no room behind
them. -/
def rebase (self : Reader) : Reader :=
  if self.seek + self.data.length < self.cap then self
  else { self with seek := 0, fits := by have := self.fits; omega }

/-- The reader with more bytes behind the unread ones. -/
def append (self : Reader) (bytes : Bytes) (h : bytes.length ≤ self.room) : Reader :=
  { self with
    data := self.data ++ bytes
    fits := by
      have := self.fits
      rw [room] at h
      rw [List.length_append]
      omega }

/-- The reader without its first `n` unread bytes. -/
def advance (self : Reader) (n : ℕ) (h : n ≤ self.data.length) : Reader :=
  { self with
    seek := self.seek + n
    data := self.data.drop n
    fits := by
      have := self.fits
      rw [List.length_drop]
      omega }

/-- What lies before `seek` is cut off the buffer. -/
def shorten (self : Reader) : Reader :=
  { base := self.base + self.seek
    cap := self.cap - self.seek
    seek := 0
    data := self.data
    fits := by
      have := self.fits
      omega }

end Reader

/-- What the peer sends and how it ends: with the end of the stream, or with an error. -/
structure Net where
  chunks : List Bytes := []
  failure : Option Error := none
deriving DecidableEq, Repr

/-- A bound on the number of reads that can succeed. -/
def Net.weight (net : Net) : ℕ := (net.chunks.map fun chunk => chunk.length + 1).sum

/-- The parser and what feeds it.  `waits` counts how often the connection was read from; it is
there for statements only. -/
structure Inbound (L : Llhttp) (M : Type) where
  parser : Parser L M
  reader : Reader
  net : Net := {}
  readErr : Option Error := none
  waits : ℕ := 0

namespace Inbound

variable {L : Llhttp} {M : Type}

def setParser (self : Inbound L M) (parser : Parser L M) : Inbound L M := { self with parser := parser }

def setReader (self : Inbound L M) (reader : Reader) : Inbound L M := { self with reader := reader }

def setNet (self : Inbound L M) (net : Net) : Inbound L M := { self with net := net }

/-- `getReadError`. -/
def getReadError (self : Inbound L M) : Option Error := self.readErr

/-- Run an action on the parser. -/
def onParser {α : Type} (x : Act (Parser L M) α) : Act (Inbound L M) α :=
  Act.zoom (·.parser) (fun parser self => self.setParser parser) x

/-- `toss`. -/
def toss (n : ℕ) : Act (Inbound L M) Unit := do
  let self ← get
  if h : n ≤ self.reader.data.length then modify fun self' => self'.setReader (self.reader.advance n h)
  else Act.die .assertion

/-- A piece of what the peer sends, as much of it as there is room for. -/
def receive (chunk : Bytes) (rest : List Bytes) (self : Inbound L M) : Inbound L M :=
  (self.setReader (self.reader.append (chunk.take self.reader.room) (List.length_take_le _ _))).setNet
    { self.net with
      chunks := if chunk.length ≤ self.reader.room then rest
        else chunk.drop self.reader.room :: rest }

/-- The reader waits for the peer. -/
def awaits (self : Inbound L M) : Inbound L M :=
  { self with reader := self.reader.rebase, waits := self.waits + 1 }

/-- `fillMore`. -/
def fillMore : Act (Inbound L M) Unit := do
  let self ← get
  if self.reader.cap ≤ self.reader.data.length then Act.die .fillMoreCapacity
  else
    modify awaits
    match self.net.chunks with
    | chunk :: rest => modify (receive chunk rest)
    | [] =>
        match self.net.failure with
        | none => Act.fail .endOfStream
        | some e => do
            modify fun self => { self with readErr := some e }
            Act.fail .readFailed

/-! ### The header section -/

variable (T : Target M)

/-- What `fillMore` failing means in the middle of a header section. -/
def endOfHead (incomplete : Error) (parsedLen : ℕ) : Act (Inbound L M) Unit → Act (Inbound L M) Unit :=
  fun x => do
    match ← Act.attempt x with
    | .ok () => pure ()
    | .error .endOfStream => Act.fail (if parsedLen = 0 then .endOfStream else incomplete)
    | .error e => Act.fail e

/-- Feed what is buffered and not parsed: how much of it the parser took. -/
def feedUnparsed (parsedLen : ℕ) (unparsed : Bytes) : Act (Inbound L M) ℕ := do
  let self ← get
  let paused ← onParser (Parser.feed T (self.reader.pos + parsedLen) unparsed)
  let self' ← get
  pure (if paused then self'.parser.getConsumedBytes (self.reader.pos + parsedLen)
    else unparsed.length)

/-- The loop of `parseHeaders` and `parseResponseHeaders`. -/
def parseLoop (incomplete : Error) : ℕ → ℕ → Act (Inbound L M) ℕ
  | 0, _ => Act.die .outOfFuel
  | fuel + 1, parsedLen => do
      let self ← get
      if self.parser.state.headersComplete then pure parsedLen
      else if (self.reader.data.drop parsedLen).length > 0 then do
        let taken ← feedUnparsed T parsedLen (self.reader.data.drop parsedLen)
        parseLoop incomplete fuel (parsedLen + taken)
      else do
        endOfHead incomplete parsedLen fillMore
        parseLoop incomplete fuel parsedLen

/-- What follows the loop: the buffer is cut behind the header section, and the parser goes on
to where the body begins. -/
def enterBody (parsedLen : ℕ) : Act (Inbound L M) Unit := do
  toss parsedLen
  modify fun self => self.setParser self.parser.resumeParsing
  let self ← get
  Act.assert (self.reader.seek == parsedLen)
  modify fun self => self.setReader self.reader.shorten
  let _ ← onParser (Parser.feed T 0 [])

/-- Enough turns for the loop. -/
def headFuel (self : Inbound L M) : ℕ := 2 * self.net.weight + 3

/-- The common part of the two functions. -/
def parseHead (incomplete : Error) : Act (Inbound L M) Unit := do
  let self ← get
  let parsedLen ← parseLoop T incomplete self.headFuel 0
  enterBody T parsedLen

/-- `parseHeaders`. -/
def parseHeaders : Act (Inbound L Request) Unit := do
  modify fun self => self.setParser (self.parser.setMsg
    { self.parser.msg with headers := .init self.parser.msg.config.maxHeaderCount })
  parseHead .request .incompleteRequest

/-- `parseResponseHeaders`. -/
def parseResponseHeaders : Act (Inbound L ParsedResponse) Unit :=
  parseHead .response .incompleteResponse

/-! ### The body -/

/-- The connection ends in the middle of a body: that may be the end of the message. -/
def endOfBody : Act (Inbound L M) Unit := do
  match ← Act.attempt (onParser Parser.finish) with
  | .error _ => Act.fail .readFailed
  | .ok () => do
      let self ← get
      if self.parser.isBodyComplete then Act.fail .endOfStream else Act.fail .readFailed

/-- Have at least a byte buffered. -/
def fillBody : Act (Inbound L M) Unit := do
  let self ← get
  Act.when (self.reader.bufferedLen == 0) do
    match ← Act.attempt fillMore with
    | .ok () => pure ()
    | .error .endOfStream => endOfBody
    | .error _ => Act.fail .readFailed

/-- Feed the parser no more than the destination has room for. -/
def feedBody (toFeed : ℕ) : Act (Inbound L M) Unit := do
  let self ← get
  match ← Act.attempt (onParser (Parser.feed T self.reader.pos (self.reader.data.take toFeed))) with
  | .ok false => toss toFeed
  | .ok true => do
      let self' ← get
      toss (self'.parser.getConsumedBytes self.reader.pos)
  | .error _ => Act.fail .readFailed

/-- The loop of `BodyReader.stream`: the bytes for the destination. -/
def streamLoop (dest : ℕ) : ℕ → Act (Inbound L M) Bytes
  | 0 => Act.die .outOfFuel
  | fuel + 1 => do
      let self ← get
      if self.parser.state.body.length > 0 then pure self.parser.state.body
      else if self.parser.isBodyComplete then Act.fail .endOfStream
      else do
        fillBody
        let self ← get
        if self.reader.data.length = 0 then pure []
        else do
          feedBody T (min self.reader.data.length (dest - self.parser.state.body.length))
          streamLoop dest fuel

/-- Enough turns for the loop. -/
def bodyFuel (self : Inbound L M) : ℕ := self.net.weight + self.reader.data.length + 2

/-- `BodyReader.stream` into a destination of a size, without the request it may belong to. -/
def stream (dest : ℕ) : Act (Inbound L M) Bytes := do
  if dest = 0 then pure []
  else
    let self ← get
    if self.parser.isBodyComplete then Act.fail .endOfStream
    else
      modify fun self => self.setParser (self.parser.prepareBodyRead dest)
      let self ← get
      streamLoop T dest self.bodyFuel

/-- The loop of `discardShort`, through a buffer of the given size: how many of the `n` bytes were
there. -/
def discardLoop (bufferSize n : ℕ) : ℕ → ℕ → Act (Inbound L M) ℕ
  | 0, _ => Act.die .outOfFuel
  | fuel + 1, remaining => do
      match ← Act.attempt (stream T (min bufferSize remaining)) with
      | .error .endOfStream => pure (n - remaining)
      | .error _ => Act.fail .readFailed
      | .ok part =>
          if remaining - part.length = 0 then pure n
          else discardLoop bufferSize n fuel (remaining - part.length)

/-- `std.Io.Reader.discardShort` on a body reader with nothing buffered. -/
def discardShort (bufferSize n : ℕ) : Act (Inbound L M) ℕ := do
  if n = 0 then pure 0
  else
    let self ← get
    discardLoop T bufferSize n (n + self.net.weight + 1) n

end Inbound
end Dusty
