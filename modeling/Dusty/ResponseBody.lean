import Dusty.Client
import Dusty.ReadRoom

/-! # The body of a response

`ClientResponse.body`.  What `std.compress.flate` makes of a coded body is not in the repository,
and is given from outside. -/

namespace Dusty

open Act

/-- `std.compress.flate.Decompress`: what reading everything through it comes to, from a body with
a coding up to a limit. -/
structure Decompressor (L : Llhttp) where
  read : ContentEncoding → ℕ → Act (Inbound L ParsedResponse) Bytes

/-- A stream that ends before it has begun is an error, and nothing is read. -/
def Decompressor.NeedsBytes {L : Llhttp} (D : Decompressor L) : Prop :=
  ∀ encoding limit s, s.parser.isBodyComplete = true →
    D.read encoding limit s = .error (.err .readFailed) s

namespace Inbound

variable {L : Llhttp}

/-- The loop of `allocRemaining`, up to a limit, where the list grows by `room` of its length. -/
def allocLoop (room : ℕ → ℕ) : ℕ → ℕ → Bytes → Act (Inbound L ParsedResponse) Bytes
  | 0, _, _ => Act.die .outOfFuel
  | fuel + 1, remaining, got => do
      if remaining = 0 then Act.fail .responseTooLarge
      else
        match ← Act.attempt (stream .response (min (room got.length + 1) remaining)) with
        | .error .endOfStream => pure got
        | .error e => Act.fail e
        | .ok part => allocLoop room fuel (remaining - part.length) (got ++ part)

/-- `allocRemaining`. -/
def allocRemaining (room : ℕ → ℕ) (limit : ℕ) : Act (Inbound L ParsedResponse) Bytes := do
  let self ← get
  allocLoop room (self.bodyFuel + 1) limit []

end Inbound

namespace ClientResponse

variable {L : Llhttp}

/-- The body goes through the decompressor. -/
def compressed (self : ClientResponse L) : Bool :=
  self.decompress && self.conn.parsedResponse.contentEncoding != .identity

def onInbound {α : Type} (x : Act (Inbound L ParsedResponse) α) : Act (ClientResponse L) α :=
  Act.zoom (·.conn.inbound)
    (fun inbound self => { self with conn := self.conn.setInbound inbound }) x

/-- `body`, the first time. -/
def body (D : Decompressor L) (room : ℕ → ℕ) : Act (ClientResponse L) (Option Bytes) := do
  let self ← get
  let result ← onInbound
    (if self.compressed then D.read self.conn.parsedResponse.contentEncoding self.maxResponseSize
      else Inbound.allocRemaining room self.maxResponseSize)
  pure (if result = [] then none else some result)

theorem allocRemaining_complete (room : ℕ → ℕ) {limit : ℕ} (hlimit : limit ≠ 0)
    {s : Inbound L ParsedResponse} (h : s.parser.isBodyComplete = true) :
    Inbound.allocRemaining room limit s = .ok [] s := by
  have hstream : Inbound.stream .response (min (room ([] : Bytes).length + 1) limit) s =
      .error (.err .endOfStream) s := Inbound.stream_done .response h (by omega)
  rw [Inbound.allocRemaining, bind_ok (get_run s), Inbound.allocLoop, if_neg hlimit,
    bind_ok (attempt_error hstream)]
  rfl

theorem onInbound_run {α : Type} (x : Act (Inbound L ParsedResponse) α) (self : ClientResponse L) :
    onInbound x self = match x self.conn.inbound with
      | .ok a inbound => .ok a { self with conn := self.conn.setInbound inbound }
      | .error f inbound => .error f { self with conn := self.conn.setInbound inbound } := by
  unfold onInbound zoom
  cases x self.conn.inbound <;> rfl

/-- When the message is complete before its body is read, there is no body, unless there is no
limit to stay below or a coding to undo. -/
theorem body_complete {D : Decompressor L} (hD : D.NeedsBytes) (room : ℕ → ℕ)
    {self : ClientResponse L} (h : self.conn.isBodyComplete = true) :
    body D room self = .ok none self ↔ self.compressed = false ∧ 0 < self.maxResponseSize := by
  unfold body
  rw [bind_ok (get_run self), bind_run, onInbound_run]
  by_cases hcompressed : self.compressed = true
  · rw [if_pos hcompressed, hD _ _ _ h]
    simp [hcompressed]
  · rw [if_neg hcompressed]
    by_cases hlimit : self.maxResponseSize = 0
    · have hfail : Inbound.allocRemaining room self.maxResponseSize self.conn.inbound =
          .error (.err .responseTooLarge) self.conn.inbound := by
        rw [Inbound.allocRemaining, bind_ok (get_run _), Inbound.allocLoop, if_pos hlimit]
        rfl
      rw [hfail]
      simp [hlimit]
    · rw [allocRemaining_complete room hlimit h]
      simp only [Bool.not_eq_true] at hcompressed
      exact ⟨fun _ => ⟨hcompressed, Nat.pos_of_ne_zero hlimit⟩, fun _ => rfl⟩

end ClientResponse
end Dusty
