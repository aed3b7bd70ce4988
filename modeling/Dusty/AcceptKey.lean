import Dusty.BigEndian
import Dusty.Http

/-! # The accept key of a WebSocket handshake

`std.crypto.hash.Sha1`, `std.base64.standard` and what `computeAcceptKey` of `websocket.zig`
makes of them. -/

namespace Dusty

namespace Sha1

/-- The chaining value: five words. -/
structure Digest where
  a : UInt32
  b : UInt32
  c : UInt32
  d : UInt32
  e : UInt32
deriving DecidableEq, Repr

def Digest.init : Digest := ⟨0x67452301, 0xEFCDAB89, 0x98BADCFE, 0x10325476, 0xC3D2E1F0⟩

def Digest.add (h k : Digest) : Digest := ⟨h.a + k.a, h.b + k.b, h.c + k.c, h.d + k.d, h.e + k.e⟩

/-- The digest as bytes. -/
def Digest.bytes (h : Digest) : Bytes := [h.a, h.b, h.c, h.d, h.e].flatMap fun w => bigEndian 4 w.toNat

def rotl (w : UInt32) (n : UInt32) : UInt32 := (w <<< n) ||| (w >>> (32 - n))

/-- The function of a round and its constant. -/
def roundOf (t : ℕ) (h : Digest) : UInt32 × UInt32 :=
  if t < 20 then ((h.b &&& h.c) ||| (~~~h.b &&& h.d), 0x5A827999)
  else if t < 40 then (h.b ^^^ h.c ^^^ h.d, 0x6ED9EBA1)
  else if t < 60 then ((h.b &&& h.c) ||| (h.b &&& h.d) ||| (h.c &&& h.d), 0x8F1BBCDC)
  else (h.b ^^^ h.c ^^^ h.d, 0xCA62C1D6)

def round (t : ℕ) (w : UInt32) (h : Digest) : Digest :=
  let (f, k) := roundOf t h
  ⟨rotl h.a 5 + f + h.e + k + w, h.a, rotl h.b 30, h.c, h.d⟩

/-- The rounds on a window of sixteen words of the schedule. -/
def rounds : ℕ → ℕ → List UInt32 → Digest → Digest
  | 0, _, _, h => h
  | n + 1, t, window, h =>
      let w := window.headD 0
      let next := rotl (window.getD 13 0 ^^^ window.getD 8 0 ^^^ window.getD 2 0 ^^^ w) 1
      rounds n (t + 1) (window.tail ++ [next]) (round t w h)

/-- The first `n` words of a block. -/
def words : ℕ → Bytes → List UInt32
  | 0, _ => []
  | n + 1, block => (readBigEndian (block.take 4)).toUInt32 :: words n (block.drop 4)

/-- The message with its padding, a whole number of blocks. -/
def pad (message : Bytes) : Bytes :=
  let zeros := (119 - message.length % 64) % 64
  message ++ [0x80] ++ List.replicate zeros 0 ++ bigEndian 8 (8 * message.length)

/-- The blocks, one after the other. -/
def compress : ℕ → Bytes → Digest → Digest
  | 0, _, h => h
  | n + 1, message, h =>
      compress n (message.drop 64) (h.add (rounds 80 0 (words 16 (message.take 64)) h))

/-- `std.crypto.hash.Sha1.hash`. -/
def hash (message : Bytes) : Bytes :=
  (compress ((pad message).length / 64) (pad message) .init).bytes

end Sha1

namespace Base64

/-- The standard alphabet. -/
def alphabet : Bytes := ascii "ABCDEFGHIJKLMNOPQRSTUVWXYZabcdefghijklmnopqrstuvwxyz0123456789+/"

/-- The digit for six bits. -/
def digit (n : ℕ) : UInt8 := alphabet.getD (n % 64) 61

/-- `std.base64.standard.Encoder.encode`. -/
def encode : Bytes → Bytes
  | [] => []
  | [a] =>
      let n := a.toNat * 16
      [digit (n / 64), digit n, 61, 61]
  | [a, b] =>
      let n := (a.toNat * 256 + b.toNat) * 4
      [digit (n / 4096), digit (n / 64), digit n, 61]
  | a :: b :: c :: rest =>
      let n := (a.toNat * 256 + b.toNat) * 256 + c.toNat
      digit (n / 262144) :: digit (n / 4096) :: digit (n / 64) :: digit n :: encode rest

end Base64

/-- `WebSocket.GUID`. -/
def webSocketGuid : Bytes := ascii "258EAFA5-E914-47DA-95CA-C5AB0DC85B11"

/-- `WebSocket.computeAcceptKey`. -/
def computeAcceptKey (clientKey : Bytes) : Bytes :=
  Base64.encode (Sha1.hash (clientKey ++ webSocketGuid))

example : computeAcceptKey (ascii "dGhlIHNhbXBsZSBub25jZQ==") =
    ascii "s3pPLMBiTxaQ9kYGzzhZRbK+xOo=" := by decide +kernel

end Dusty
