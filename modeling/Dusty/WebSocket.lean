import Dusty.BigEndian
import Dusty.Conn

/-! # WebSocket

`WebSocket` of `websocket.zig`: reading and writing frames, and `receive`, which puts messages
together.  The mask keys come from a sequence nothing is known about, as the library's random
numbers do, and taking the write lock fails when the schedule of cancellations says so. -/

namespace Dusty

/-- `std.unicode.utf8ValidateSlice`. -/
def utf8ValidateSlice : Bytes → Bool
  | [] => true
  | a :: rest =>
      if a < 0x80 then utf8ValidateSlice rest
      else match rest with
        | [] => false
        | b :: rest =>
            if 0xC2 ≤ a ∧ a ≤ 0xDF then tail b && utf8ValidateSlice rest
            else match rest with
              | [] => false
              | c :: rest =>
                  if 0xE0 ≤ a ∧ a ≤ 0xEF then
                    decide ((if a = 0xE0 then 0xA0 else 0x80) ≤ b) &&
                      decide (b ≤ if a = 0xED then 0x9F else 0xBF) && tail c &&
                        utf8ValidateSlice rest
                  else match rest with
                    | [] => false
                    | d :: rest =>
                        decide (0xF0 ≤ a) && decide (a ≤ 0xF4) &&
                          decide ((if a = 0xF0 then 0x90 else 0x80) ≤ b) &&
                            decide (b ≤ if a = 0xF4 then 0x8F else 0xBF) && tail c && tail d &&
                              utf8ValidateSlice rest
where
  /-- A continuation byte. -/
  tail (b : UInt8) : Bool := decide (0x80 ≤ b) && decide (b ≤ 0xBF)

example : utf8ValidateSlice (ascii "aä€𝄞") = true := by decide
example : utf8ValidateSlice [0xC0, 0x80] = false := by decide

/-- `MessageType`, the opcodes of four bits: those with a name, and the five reserved ones of
each kind. -/
inductive MessageType where
  | continuation | text | binary | close | ping | pong
  | reserved (control : Bool) (index : Fin 5)
deriving DecidableEq, Repr

namespace MessageType

/-- `@intFromEnum`. -/
def code : MessageType → UInt8
  | .continuation => 0x0
  | .text => 0x1
  | .binary => 0x2
  | .close => 0x8
  | .ping => 0x9
  | .pong => 0xA
  | .reserved control index => (if control then 0xB else 0x3) + index.val.toUInt8

/-- `@enumFromInt` of the low four bits. -/
def ofCode (b : UInt8) : MessageType :=
  match (b &&& 0x0F).toNat with
  | 0x0 => .continuation
  | 0x1 => .text
  | 0x2 => .binary
  | 0x8 => .close
  | 0x9 => .ping
  | 0xA => .pong
  | n => .reserved (decide (0xB ≤ n)) (Fin.ofNat 5 (if 0xB ≤ n then n - 0xB else n - 0x3))

/-- The frame types `readFrame` takes for control frames. -/
def isControl : MessageType → Bool
  | .close | .ping | .pong => true
  | _ => false

end MessageType

/-- `CloseCode`. -/
abbrev CloseCode := UInt16

/-- `CloseCode.normal`. -/
def CloseCode.normal : CloseCode := 1000

/-- `Message`. -/
structure Message where
  type : MessageType
  data : Bytes
  closeCode : Option CloseCode := none
deriving DecidableEq, Repr

/-- `Frame`. -/
structure Frame where
  fin : Bool
  opcode : MessageType
  payload : Bytes
deriving DecidableEq, Repr

/-- A mask key. -/
structure Mask where
  k0 : UInt8
  k1 : UInt8
  k2 : UInt8
  k3 : UInt8
deriving DecidableEq, Repr

namespace Mask

def bytes (key : Mask) : Bytes := [key.k0, key.k1, key.k2, key.k3]

/-- `mask_key[i % 4]`. -/
def byteAt (key : Mask) (i : ℕ) : UInt8 := key.bytes.getD (i % 4) 0

/-- The key in four bytes. -/
def ofBytes (bytes : Bytes) : Mask :=
  ⟨bytes.getD 0 0, bytes.getD 1 0, bytes.getD 2 0, bytes.getD 3 0⟩

/-- Every byte is combined with the key byte for its position. -/
def apply (key : Mask) (data : Bytes) : Bytes := data.mapIdx fun i b => b ^^^ key.byteAt i

end Mask

/-- `WebSocket`.  `incoming` is what the peer will have sent, `failure` how reading ends when
there is nothing more, `masks` the keys to be drawn. -/
structure WebSocket where
  conn : Conn
  incoming : Bytes
  failure : Option Error := none
  isClient : Bool := false
  masks : ℕ → Mask
  drawn : ℕ := 0
  cancels : List Bool := []
  maxMessageSize : UInt64 := 16777216
  closed : Bool := false
  autoResponded : Bool := false
  fragmentedType : Option MessageType := none
  fragmentedData : Bytes := []

namespace WebSocket

def setConn (self : WebSocket) (conn : Conn) : WebSocket := { self with conn := conn }

def setIncoming (self : WebSocket) (incoming : Bytes) : WebSocket :=
  { self with incoming := incoming }

/-- No frame is written any more. -/
def markClosed (self : WebSocket) : WebSocket := { self with closed := true }

/-- A control frame was answered. -/
def markResponded (self : WebSocket) : WebSocket := { self with autoResponded := true }

/-- A fragmented message is under way, or none. -/
def setFragment (self : WebSocket) (type : Option MessageType) (data : Bytes) : WebSocket :=
  { self with fragmentedType := type, fragmentedData := data }

/-- The next mask key is used up. -/
def draw (self : WebSocket) : WebSocket := { self with drawn := self.drawn + 1 }

section setters
variable (self : WebSocket) (incoming : Bytes)

@[simp] theorem setIncoming_incoming : (self.setIncoming incoming).incoming = incoming := rfl

@[simp] theorem setIncoming_maxMessageSize :
    (self.setIncoming incoming).maxMessageSize = self.maxMessageSize := rfl

@[simp] theorem setIncoming_isClient : (self.setIncoming incoming).isClient = self.isClient := rfl

end setters

/-- Run an action on the connection's writer. -/
def onConn {α : Type} (x : Act Conn α) : Act WebSocket α :=
  Act.zoom (·.conn) (fun conn self => self.setConn conn) x

/-! ### Reading -/

/-- `reader.readSliceAll`. -/
def readSliceAll (n : ℕ) : Act WebSocket Bytes := do
  let self ← get
  if n ≤ self.incoming.length then do
    modify fun self => self.setIncoming (self.incoming.drop n)
    pure (self.incoming.take n)
  else do
    modify fun self => self.setIncoming []
    Act.fail (self.failure.getD .endOfStream)

/-- The payload length: seven bits, or the two or eight bytes they call for. -/
def readLength (short : ℕ) : Act WebSocket ℕ :=
  if short = 126 then do
    let bytes ← readSliceAll 2
    pure (readBigEndian bytes)
  else if short = 127 then do
    let bytes ← readSliceAll 8
    pure (readBigEndian bytes)
  else pure short

/-- The mask key, if there is one. -/
def readMask (masked : Bool) : Act WebSocket (Option Mask) :=
  if masked then do
    let bytes ← readSliceAll 4
    pure (some (.ofBytes bytes))
  else pure none

/-- What a key makes of a payload; without one it stays as it is. -/
def unmask (key : Option Mask) (payload : Bytes) : Bytes :=
  match key with
  | some key => key.apply payload
  | none => payload

/-- The part of `readFrame` behind the checks of the two header bytes. -/
def readRest (fin : Bool) (opcode : MessageType) (masked : Bool) (short : ℕ) :
    Act WebSocket Frame := do
  let payloadLen ← readLength short
  let key ← readMask masked
  let self ← get
  if payloadLen > self.maxMessageSize.toNat then Act.fail .messageTooLarge
  else do
    let payload ← readSliceAll payloadLen
    pure ⟨fin, opcode, unmask key payload⟩

/-- The part of `readFrame` behind the first two bytes. -/
def readHeader (byte0 byte1 : UInt8) : Act WebSocket Frame := do
  let self ← get
  let opcode := MessageType.ofCode byte0
  let masked := byte1 &&& 0x80 != 0
  let short := (byte1 &&& 0x7F).toNat
  if byte0 &&& 0x70 != 0 then Act.fail .reservedFlags
  else if !self.isClient && !masked then Act.fail .unmaskedClientFrame
  else if self.isClient && masked then Act.fail .maskedServerFrame
  else if opcode.isControl && decide (short > 125) then Act.fail .largeControlFrame
  else readRest (byte0 &&& 0x80 != 0) opcode masked short

/-- `readFrame`. -/
def readFrame : Act WebSocket Frame := do
  let header ← readSliceAll 2
  readHeader (header.getD 0 0) (header.getD 1 0)

/-! ### Writing -/

/-- Write a piece of a frame. -/
def emit (bytes : Bytes) : Act WebSocket Unit := onConn (Conn.writeAll .frame bytes)

/-- The mask bit and the payload length. -/
def writeLength (maskBit : UInt8) (len : ℕ) : Act WebSocket Unit :=
  if len < 126 then emit [maskBit ||| len.toUInt8]
  else if len ≤ 65535 then do
    emit [maskBit ||| 126]
    emit (bigEndian 2 len)
  else do
    emit [maskBit ||| 127]
    emit (bigEndian 8 len)

/-- Write bytes one after the other. -/
def emitEach : Bytes → Act WebSocket Unit
  | [] => pure ()
  | b :: rest => do
      emit [b]
      emitEach rest

/-- A payload under the next mask key, and the key before it. -/
def writeMasked (data : Bytes) : Act WebSocket Unit := do
  let self ← get
  modify draw
  emit (self.masks self.drawn).bytes
  emitEach ((self.masks self.drawn).apply data)

/-- What follows the head of a frame: a client masks its payload. -/
def writePayload (isClient : Bool) (data : Bytes) : Act WebSocket Unit :=
  if isClient then writeMasked data else emit data

/-- The bits a client sets on the length of what it sends. -/
def maskBit (isClient : Bool) : UInt8 := if isClient then 0x80 else 0x00

/-- `writeFrameLocked`. -/
def writeFrameLocked (opcode : MessageType) (data : Bytes) (fin : Bool) : Act WebSocket Unit :=
  Act.onError markClosed do
    emit [(if fin then 0x80 else 0x00) ||| opcode.code]
    let self ← get
    writeLength (maskBit self.isClient) data.length
    writePayload self.isClient data
    onConn Conn.flush

/-- `write_mutex.lock`. -/
def lock : Act WebSocket Unit := do
  let self ← get
  modify fun self => { self with cancels := self.cancels.tail }
  if self.cancels.head? = some true then Act.fail .canceled else pure ()

/-- `writeFrame`. -/
def writeFrame (opcode : MessageType) (data : Bytes) (fin : Bool) : Act WebSocket Unit := do
  lock
  let self ← get
  if self.closed then Act.fail .endOfStream else writeFrameLocked opcode data fin

/-- `writeClose`. -/
def writeClose (code : CloseCode) (reason : Bytes) : Act WebSocket Unit := do
  lock
  let self ← get
  if self.closed then pure ()
  else do
    modify markClosed
    writeFrameLocked .close (bigEndian 2 code.toNat ++ reason.take 123) true

/-- `send`. -/
def send (type : MessageType) (data : Bytes) : Act WebSocket Unit :=
  if type ≠ .text ∧ type ≠ .binary then Act.fail .invalidOpcode else writeFrame type data true

/-- `ping`. -/
def ping (data : Bytes) : Act WebSocket Unit :=
  if data.length > 125 then Act.fail .largeControlFrame else writeFrame .ping data true

/-- `close`. -/
def close (code : CloseCode) (reason : Bytes) : Act WebSocket Unit := writeClose code reason

/-! ### Messages -/

/-- The code in a close frame, if there is room for one. -/
def closeCodeOf (payload : Bytes) : Option CloseCode :=
  if payload.length ≥ 2 then some (readBigEndian (payload.take 2)).toUInt16 else none

/-- The reason in a close frame. -/
def closeReasonOf (payload : Bytes) : Bytes := if payload.length ≥ 2 then payload.drop 2 else []

/-- A close frame is echoed. -/
def onClose (payload : Bytes) : Act WebSocket (Option Message) := do
  writeClose ((closeCodeOf payload).getD .normal) (closeReasonOf payload)
  modify markResponded
  pure (some { type := .close, data := closeReasonOf payload, closeCode := closeCodeOf payload })

/-- A message that is complete. -/
def deliver (type : MessageType) (data : Bytes) : Act WebSocket (Option Message) :=
  if type = .text ∧ utf8ValidateSlice data = false then Act.fail .invalidUtf8
  else pure (some { type := type, data := data })

/-- A continuation frame. -/
def onContinuation (fin : Bool) (payload : Bytes) : Act WebSocket (Option Message) := do
  let self ← get
  match self.fragmentedType with
  | none => Act.fail .unexpectedContinuation
  | some type =>
      if self.fragmentedData.length + payload.length > self.maxMessageSize.toNat then
        Act.fail .messageTooLarge
      else if fin then do
        modify fun self => self.setFragment none []
        deliver type (self.fragmentedData ++ payload)
      else do
        modify fun self => self.setFragment type (self.fragmentedData ++ payload)
        pure none

/-- A text or binary frame. -/
def onData (fin : Bool) (opcode : MessageType) (payload : Bytes) :
    Act WebSocket (Option Message) := do
  let self ← get
  if fin then deliver opcode payload
  else if self.fragmentedType.isSome then Act.fail .nestedFragment
  else if payload.length > self.maxMessageSize.toNat then Act.fail .messageTooLarge
  else do
    modify fun self => self.setFragment opcode payload
    pure none

/-- What `receive` does with a frame; `none` where it goes on to the next. -/
def onFrame (frame : Frame) : Act WebSocket (Option Message) :=
  match frame.opcode with
  | .ping => do
      writeFrame .pong frame.payload true
      modify markResponded
      pure none
  | .pong => pure none
  | .close => onClose frame.payload
  | .continuation => onContinuation frame.fin frame.payload
  | .text => onData frame.fin .text frame.payload
  | .binary => onData frame.fin .binary frame.payload
  | .reserved _ _ => Act.fail .invalidOpcode

/-- The loop of `receive`. -/
def receiveLoop : ℕ → Act WebSocket Message
  | 0 => Act.die .outOfFuel
  | fuel + 1 => do
      let frame ← readFrame
      match ← onFrame frame with
      | some message => pure message
      | none => receiveLoop fuel

/-- What `receive` starts from. -/
def beginReceive (self : WebSocket) : WebSocket :=
  { self.setFragment none [] with autoResponded := false }

/-- `receive`.  Every turn of its loop takes a frame, so as many turns as there are bytes are
enough. -/
def receive : Act WebSocket Message := do
  modify beginReceive
  let self ← get
  receiveLoop (self.incoming.length + 1)

end WebSocket
end Dusty
