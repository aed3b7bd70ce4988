import Dusty.AllocRemaining
import Dusty.BodyKeeps
import Dusty.BodyRead
import Dusty.ResponseBody

/-! # The body of a response, again and again

`ClientResponse.body` with what it keeps from one call to the next.  It is a function that caches what it
has read (`body_attempts`), out of the connection or out of a decompressor, which is not in the
repository and is given from outside. -/

namespace Dusty

open Act

/-- `std.compress.flate.Container`, where `reader` asks for one. -/
inductive FlateContainer where
  | gzip | zlib
deriving DecidableEq, Repr

/-- `std.compress.flate.Decompress` over the reader of a body: what it keeps, its buffers with it, and one
read from it. -/
structure Inflater (L : Llhttp) where
  State : Type
  init : FlateContainer → State
  stream : ℕ → Act (Inbound L ParsedResponse × State) Bytes

/-- A `ClientResponse` with its `_body`, `_body_read` and `_decompressor`.  The reader under the
decompressor has nothing of its own to keep. -/
structure OpenResponse {L : Llhttp} (F : Inflater L) where
  response : ClientResponse L
  cachedBody : Option Bytes := none
  bodyRead : Bool := false
  decompressor : Option F.State := none

namespace OpenResponse

variable {L : Llhttp} {F : Inflater L} {whole : Prop} {max n : ℕ} {text : Bytes}

def inbound (self : OpenResponse F) : Inbound L ParsedResponse := self.response.conn.inbound

def setInbound (self : OpenResponse F) (inbound : Inbound L ParsedResponse) : OpenResponse F :=
  { self with response := { self.response with conn := self.response.conn.setInbound inbound } }

/-- The container of the coded body. -/
def container (self : OpenResponse F) : FlateContainer :=
  if self.response.conn.parsedResponse.contentEncoding = .gzip then .gzip else .zlib

/-- `reader`, as long as the body was not read: a decompressor is put in front if one is needed. -/
def openReader (self : OpenResponse F) : OpenResponse F :=
  if self.response.compressed = true ∧ self.decompressor.isNone = true then
    { self with decompressor := some (F.init self.container) }
  else self

/-- One read from the reader. -/
def stream (dest : ℕ) : Act (OpenResponse F) Bytes := do
  let self ← get
  match self.decompressor with
  | some state =>
      Act.zoom (fun self => (self.inbound, state))
        (fun s self => { self.setInbound s.1 with decompressor := some s.2 }) (F.stream dest)
  | none => Act.zoom inbound (fun inbound self => self.setInbound inbound) (Inbound.stream .response dest)

/-- What was read is kept. -/
def storeBody (result : Bytes) (self : OpenResponse F) : OpenResponse F :=
  { self with bodyRead := true, cachedBody := if result.length = 0 then none else some result }

/-- `body`, with as many turns of its loop as there is fuel. -/
def body (fuel : ℕ) (room : ℕ → ℕ) : Act (OpenResponse F) (Option Bytes) := do
  let self ← get
  if self.bodyRead = true then pure self.cachedBody
  else do
    modify openReader
    let result ← allocRemaining stream .responseTooLarge room fuel self.response.maxResponseSize []
    modify (storeBody result)
    let self ← get
    pure self.cachedBody

/-! ### The calls -/

/-- The body was not read. -/
structure Unread (max : ℕ) (r : OpenResponse F) : Prop where
  unread : r.bodyRead = false
  limit : r.response.maxResponseSize = max

theorem openReader_unread {self : OpenResponse F} (h : self.Unread max) : self.openReader.Unread max := by
  unfold openReader
  split
  · exact ⟨h.unread, h.limit⟩
  · exact h

theorem stream_unread (dest : ℕ) : Keeps (Unread max) (stream dest : Act (OpenResponse F) Bytes) := by
  refine keeps_get_bind fun self _ => ?_
  cases self.decompressor with
  | none =>
      refine keeps_zoom fun self hself s _ => ?_
      cases Inbound.stream .response dest s <;> exact ⟨hself.unread, hself.limit⟩
  | some state =>
      refine keeps_zoom fun self hself s _ => ?_
      cases F.stream dest s <;> exact ⟨hself.unread, hself.limit⟩

/-- A response whose body was not returned yet, and what reading from its reader comes to; it stays the
reader that it is. -/
structure Open (whole : Prop) (max fuel n : ℕ) (text : Bytes) (r : OpenResponse F) : Prop where
  unread : r.Unread max
  reads : Reads (fun r => r.openReader = r) stream whole n text r.openReader
  fuel : max + n < fuel

theorem body_stored (fuel : ℕ) (self : OpenResponse F) (text : Bytes) (room : ℕ → ℕ) :
    body fuel room (storeBody text self) = .ok (stored text) (storeBody text self) := by
  unfold body
  rw [bind_ok (get_run _)]
  rfl

/-- **A call of `body`.** -/
theorem body_attempts (fuel : ℕ) : Attempts (body (F := F) fuel) whole max (Open whole max fuel) := by
  intro n text self hopen room
  have hreads := hopen.reads.keeping stream_unread (openReader_unread hopen.unread)
  have hbody : body fuel room self = (do
      let result ← allocRemaining stream .responseTooLarge room fuel max []
      modify (storeBody result)
      let self ← get
      pure self.cachedBody) self.openReader := by
    unfold body
    rw [bind_ok (get_run self), hopen.unread.unread, if_neg Bool.false_ne_true, bind_ok (modify_run _ _),
      hopen.unread.limit]
  rw [hbody]
  rcases @allocRemaining_run _ _ _ _ .responseTooLarge room fuel max [] n text _ hreads hopen.fuel with
    ⟨hwhole, hless, n', s', hend, hok⟩ | ⟨e, taken, rest, n', s', herror, htaken, hend, hle⟩
  · refine .inl ⟨hwhole, hless, storeBody text s', ?_, body_stored fuel s' text⟩
    rw [bind_ok hok]
    rfl
  · have hsame : s'.openReader = s' := hend.keeps.1
    refine .inr ⟨e, taken, rest, n', s', ?_, ⟨hend.keeps.2, ?_, ?_⟩,
      fun hwhole => ⟨(htaken hwhole).1, .inl ⟨(htaken hwhole).2, hle⟩⟩⟩
    · rw [bind_error herror]
    · rw [hsame]
      exact hend.weaken fun s h => h.1
    · exact Nat.lt_of_le_of_lt (Nat.add_le_add_left hle max) hopen.fuel

theorem stream_plain {self : OpenResponse F} (h : self.decompressor = none) (dest : ℕ) :
    stream dest self =
      Act.zoom inbound (fun inbound self => self.setInbound inbound) (Inbound.stream .response dest) self := by
  unfold stream
  rw [bind_ok (get_run self), h]

theorem stream_inflated {self : OpenResponse F} {state : F.State} (h : self.decompressor = some state)
    (dest : ℕ) :
    stream dest self =
      Act.zoom (fun self => (self.inbound, state))
        (fun s self => { self.setInbound s.1 with decompressor := some s.2 }) (F.stream dest) self := by
  unfold stream
  rw [bind_ok (get_run self), h]

/-- Where nothing is decompressed, reading from the reader is reading from the connection. -/
theorem Open.of_rest {final : Error} {after : Bytes} {self : OpenResponse F} {fuel : ℕ}
    (hunread : self.Unread max) (hplain : self.response.decompress = false) (hnone : self.decompressor = none)
    (hrest : Inbound.Rest final after text self.inbound) (hfuel : max < fuel) :
    Open (final = .endOfStream) max fuel 0 text self := by
  have hopened : ∀ {self : OpenResponse F}, self.response.decompress = false → self.openReader = self := by
    intro self hplain
    unfold openReader ClientResponse.compressed
    rw [hplain]
    rfl
  refine ⟨hunread, ?_, hfuel⟩
  rw [hopened hplain]
  refine ⟨fun n text self => n = 0 ∧ Inbound.Rest final after text self.inbound ∧
    self.response.decompress = false ∧ self.decompressor = none, ⟨rfl, hrest, hplain, hnone⟩, ?_⟩
  rintro n text self ⟨rfl, hrest, hplain, hnone⟩
  refine ⟨hopened hplain, fun dest hdest => ?_⟩
  rcases Inbound.stream_run .response hdest hrest with ⟨part, rest, s', hrun, hpart, hfits, htext, hrest'⟩ |
    ⟨htext, s', hrun, hrest', -⟩
  · refine .inl ⟨part, rest, 0, self.setInbound s', ?_, hfits, fun _ => htext, ⟨rfl, hrest', hplain, hnone⟩,
      le_rfl, fun hnil => absurd hnil hpart⟩
    rw [stream_plain hnone]
    unfold zoom
    rw [hrun]
  · refine .inr ⟨final, [], self.setInbound s', ?_, fun _ => ⟨htext, rfl⟩, ⟨rfl, hrest', hplain, hnone⟩,
      Iff.rfl⟩
    rw [stream_plain hnone]
    unfold zoom
    rw [hrun]

/-- Where the body is decompressed, reading from the reader is reading from the decompressor. -/
theorem Open.of_inflated {self : OpenResponse F} {fuel : ℕ} (hunread : self.Unread max)
    (hcompressed : self.response.compressed = true) (hnone : self.decompressor = none)
    (h : Reads (fun _ => True) F.stream whole n text (self.inbound, F.init self.container))
    (hfuel : max + n < fuel) : Open whole max fuel n text self := by
  refine ⟨hunread, ?_, hfuel⟩
  have hopened : self.openReader.decompressor = some (F.init self.container) := by
    unfold openReader
    rw [if_pos ⟨hcompressed, by rw [hnone]; rfl⟩]
  have hinbound : self.openReader.inbound = self.inbound := by
    unfold openReader
    split <;> rfl
  refine ⟨fun n text self => ∃ state, self.decompressor = some state ∧
    Reads (fun _ => True) F.stream whole n text (self.inbound, state), ⟨_, hopened, hinbound ▸ h⟩, ?_⟩
  rintro n text self ⟨state, hstate, h⟩
  refine ⟨?_, fun dest hdest => ?_⟩
  · show self.openReader = self
    unfold openReader
    rw [hstate, if_neg fun hboth => Bool.false_ne_true hboth.2]
  rcases h.next dest hdest with
    ⟨part, rest, n', s', hrun, hfits, htext, hrest, hless⟩ | ⟨e, rest, s', hrun, htext, hrest, hwhole⟩
  · refine .inl ⟨part, rest, n', { self.setInbound s'.1 with decompressor := some s'.2 }, ?_, hfits, htext,
      ⟨s'.2, rfl, hrest⟩, hless⟩
    rw [stream_inflated hstate]
    unfold zoom
    rw [hrun]
  · refine .inr ⟨e, rest, { self.setInbound s'.1 with decompressor := some s'.2 }, ?_, htext,
      ⟨s'.2, rfl, hrest⟩, hwhole⟩
    rw [stream_inflated hstate]
    unfold zoom
    rw [hrun]

end OpenResponse
end Dusty
