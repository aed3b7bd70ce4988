import Dusty.WebSocketFrames

/-! # Messages in fragments

What a peer sends when it keeps to RFC 6455: messages cut into fragments, with pings and pongs
before any of them.  `receive` returns the messages in their order and answers every ping
(`receiveAll_messages`). -/

namespace Dusty

open Act

/-! ### What the peer sends -/

/-- A ping or a pong. -/
structure Beat where
  ping : Bool
  payload : Bytes
deriving DecidableEq, Repr

/-- The frame of a ping or a pong. -/
def Beat.frame (b : Beat) : Frame := ⟨true, if b.ping then .ping else .pong, b.payload⟩

/-- The payloads of the pings. -/
def pingsOf (beats : List Beat) : List Bytes := (beats.filter (·.ping)).map (·.payload)

/-- A fragment and what comes before it. -/
structure Fragment where
  before : List Beat := []
  payload : Bytes
deriving DecidableEq, Repr

/-- The frames of a fragment. -/
def Fragment.frames (fragment : Fragment) (opcode : MessageType) (fin : Bool) : List Frame :=
  fragment.before.map Beat.frame ++ [⟨fin, opcode, fragment.payload⟩]

/-- The frames of the fragments behind the first. -/
def continuations : List Fragment → List Frame
  | [] => []
  | fragment :: rest => fragment.frames .continuation rest.isEmpty ++ continuations rest

/-- A text or binary message in its fragments. -/
structure PeerMessage where
  text : Bool
  first : Fragment
  rest : List Fragment := []
deriving DecidableEq, Repr

namespace PeerMessage

/-- The opcode of the first frame. -/
def type (m : PeerMessage) : MessageType := if m.text then .text else .binary

def frames (m : PeerMessage) : List Frame :=
  m.first.frames m.type m.rest.isEmpty ++ continuations m.rest

/-- The payloads of the fragments, put together. -/
def payload (m : PeerMessage) : Bytes := m.first.payload ++ m.rest.flatMap Fragment.payload

/-- The pings and pongs among the fragments. -/
def beats (m : PeerMessage) : List Beat := m.first.before ++ m.rest.flatMap Fragment.before

/-- Nothing of it is too long for a reader with the given limit. -/
def Fits (limit : ℕ) (m : PeerMessage) : Prop :=
  m.payload.length ≤ limit ∧ ∀ b ∈ m.beats, b.payload.length ≤ limit

instance (limit : ℕ) (m : PeerMessage) : Decidable (m.Fits limit) :=
  inferInstanceAs (Decidable (_ ∧ _))

end PeerMessage

/-- What a message that is complete comes to. -/
def verdict (type : MessageType) (data : Bytes) : Except Error Message :=
  if type = .text ∧ utf8ValidateSlice data = false then .error .invalidUtf8
  else .ok { type := type, data := data }

/-- What `receive` is to return for a message that fits. -/
def PeerMessage.result (m : PeerMessage) : Except Error Message := verdict m.type m.payload

theorem pingsOf_append (xs ys : List Beat) : pingsOf (xs ++ ys) = pingsOf xs ++ pingsOf ys := by
  simp [pingsOf]

/-- A frame under a mask key or none. -/
def Frame.wire (f : Frame) (mask : Option Mask) : WireFrame :=
  { fin := f.fin, opcode := f.opcode, mask := mask, payload := f.payload }

/-- Bytes that carry the frames to a reader with the given role, each under any mask key. -/
inductive Carries (isClient : Bool) : List Frame → Bytes → Prop where
  | nil : Carries isClient [] []
  | cons {f : Frame} {mask : Option Mask} {frames : List Frame} {bytes : Bytes} :
      WebSocket.Accepted isClient (f.wire mask) → f.payload.length < 2 ^ 64 →
      Carries isClient frames bytes → Carries isClient (f :: frames) ((f.wire mask).bytes ++ bytes)

theorem Carries.split {isClient : Bool} {xs ys : List Frame} {bytes : Bytes}
    (h : Carries isClient (xs ++ ys) bytes) :
    ∃ b₁ b₂, bytes = b₁ ++ b₂ ∧ Carries isClient xs b₁ ∧ Carries isClient ys b₂ := by
  induction xs generalizing bytes with
  | nil => exact ⟨[], bytes, rfl, .nil, h⟩
  | cons f xs ih =>
      cases h with
      | cons hf hlen hrest =>
          obtain ⟨b₁, b₂, rfl, h₁, h₂⟩ := ih hrest
          exact ⟨_, b₂, (List.append_assoc ..).symm, .cons hf hlen h₁, h₂⟩

theorem Carries.length_le {isClient : Bool} {frames : List Frame} {bytes : Bytes}
    (h : Carries isClient frames bytes) : frames.length ≤ bytes.length := by
  induction h with
  | nil => exact Nat.le_refl _
  | cons hf hlen hrest ih =>
      simp only [WireFrame.bytes, List.length_cons, List.length_append]
      omega

namespace WebSocket

open WireFrame

/-! ### One turn -/

/-- The socket is open and its writes succeed. -/
structure Ready (w : WebSocket) : Prop where
  open_ : w.closed = false
  faults : w.conn.faults = []
  cancels : w.cancels = []

/-- A pong of this side. -/
def Pong (isClient : Bool) (f : WireFrame) : Prop :=
  f.fin = true ∧ f.rsv = 0 ∧ f.opcode = .pong ∧ f.mask.isSome = isClient

/-- The socket has read something and answered the given pings. -/
structure Answered (w : WebSocket) (pings : List Bytes) (w' : WebSocket) : Prop where
  ready : Ready w'
  isClient : w'.isClient = w.isClient
  limit : w'.maxMessageSize = w.maxMessageSize
  failure : w'.failure = w.failure
  out : ∃ pongs : List WireFrame, w'.conn.out = w.conn.out ++ pongs.flatMap WireFrame.bytes ∧
    pongs.map WireFrame.payload = pings ∧ ∀ f ∈ pongs, Pong w.isClient f

theorem Answered.trans {w w₁ w₂ : WebSocket} {ps qs : List Bytes} (h : Answered w ps w₁)
    (h' : Answered w₁ qs w₂) : Answered w (ps ++ qs) w₂ := by
  obtain ⟨pongs, hout, hmap, hpongs⟩ := h.out
  obtain ⟨pongs', hout', hmap', hpongs'⟩ := h'.out
  refine ⟨h'.ready, h'.isClient.trans h.isClient, h'.limit.trans h.limit,
    h'.failure.trans h.failure, pongs ++ pongs', ?_, ?_, ?_⟩
  · rw [hout', hout, List.append_assoc, List.flatMap_append]
  · rw [List.map_append, hmap, hmap']
  · intro f hf
    rw [h.isClient] at hpongs'
    rcases List.mem_append.mp hf with hf | hf
    · exact hpongs f hf
    · exact hpongs' f hf

theorem answered_none {w w' : WebSocket} (h : Ready w) (hconn : w'.conn = w.conn)
    (hclosed : w'.closed = w.closed) (hcancels : w'.cancels = w.cancels)
    (hrole : w'.isClient = w.isClient) (hlimit : w'.maxMessageSize = w.maxMessageSize)
    (hfailure : w'.failure = w.failure) : Answered w [] w' := by
  refine ⟨⟨hclosed.trans h.open_, ?_, hcancels.trans h.cancels⟩, hrole, hlimit, hfailure, [], ?_,
    rfl, by simp⟩
  · rw [hconn]
    exact h.faults
  · rw [hconn]
    exact (List.append_nil _).symm

/-- A turn of the loop: a frame that is not too long is handled. -/
theorem receiveLoop_frame {w : WebSocket} {f : Frame} {mask : Option Mask}
    (hf : Accepted w.isClient (f.wire mask)) (hlen : f.payload.length < 2 ^ 64) (fuel : ℕ)
    (rest : Bytes) :
    receiveLoop (fuel + 1) (w.setIncoming ((f.wire mask).bytes ++ rest)) =
      if f.payload.length > w.maxMessageSize.toNat then
        .error (.err .messageTooLarge) (w.setIncoming (unmask mask f.payload ++ rest))
      else (onFrame f >>= fun r => match r with
        | some message => pure message
        | none => receiveLoop fuel) (w.setIncoming rest) := by
  have hread := readFrame_bytes w hf hlen rest
  rw [receiveLoop, bind_run, hread]
  by_cases hlarge : f.payload.length > w.maxMessageSize.toNat
  · rw [if_pos hlarge]
    have h : (f.wire mask).payload.length > w.maxMessageSize.toNat := hlarge
    rw [if_pos h]
    rfl
  · rw [if_neg hlarge]
    have h : ¬(f.wire mask).payload.length > w.maxMessageSize.toNat := hlarge
    rw [if_neg h]
    rfl

theorem lock_ready {w : WebSocket} (h : Ready w) : lock w = .ok () w := by
  rw [lock, bind_ok (get_run w), bind_ok (modify_run ..), h.cancels]
  show EStateM.Result.ok () { w with cancels := [] } = _
  rw [← h.cancels]

theorem writeFrame_ready {w : WebSocket} (h : Ready w) (opcode : MessageType) (data : Bytes) :
    ∃ w', writeFrame opcode data true w = .ok () w' ∧
      Wrote w (w.frameOf opcode data true).bytes w' ∧ w'.conn.flushed = w'.conn.out.length := by
  have hopen : ¬w.closed = true := by simp [h.open_]
  obtain ⟨w', hrun, hwrote⟩ := writeFrameLocked_works h.faults opcode data true
  exact ⟨w', by rw [writeFrame, bind_ok (lock_ready h), bind_ok (get_run w), if_neg hopen, hrun], hwrote⟩

theorem onFrame_beat {w : WebSocket} (h : Ready w) (b : Beat) :
    ∃ w', onFrame b.frame w = .ok none w' ∧ Answered w (pingsOf [b]) w' ∧
      w'.incoming = w.incoming ∧ w'.fragmentedType = w.fragmentedType ∧
      w'.fragmentedData = w.fragmentedData := by
  cases hb : b.ping with
  | false =>
      refine ⟨w, ?_, ?_, rfl, rfl, rfl⟩
      · simp [onFrame, Beat.frame, hb]
      · simp only [pingsOf, List.filter, hb, List.map_nil]
        exact answered_none h rfl rfl rfl rfl rfl rfl
  | true =>
      obtain ⟨w', hrun, hwrote, -⟩ := writeFrame_ready h .pong b.payload
      refine ⟨w'.markResponded, ?_, ⟨⟨?_, hwrote.faults h.faults, ?_⟩, ?_, ?_, ?_, ?_⟩, ?_, ?_, ?_⟩
      · simp only [onFrame, Beat.frame, hb, if_true]
        rw [bind_ok hrun]
        rfl
      · show w'.closed = false
        rw [hwrote.same]
        exact h.open_
      · show w'.cancels = []
        rw [hwrote.same]
        exact h.cancels
      · show w'.isClient = w.isClient
        rw [hwrote.same]
      · show w'.maxMessageSize = w.maxMessageSize
        rw [hwrote.same]
      · show w'.failure = w.failure
        rw [hwrote.same]
      · refine ⟨[w.frameOf .pong b.payload true], ?_, ?_, ?_⟩
        · show w'.conn.out = _
          rw [hwrote.out]
          simp
        · simp [pingsOf, List.filter, hb, frameOf]
        · intro f hf
          obtain rfl := List.mem_singleton.mp hf
          refine ⟨rfl, rfl, rfl, ?_⟩
          unfold frameOf
          cases w.isClient <;> rfl
      · show w'.incoming = w.incoming
        rw [hwrote.same]
      · show w'.fragmentedType = w.fragmentedType
        rw [hwrote.same]
      · show w'.fragmentedData = w.fragmentedData
        rw [hwrote.same]

theorem Ready.setIncoming {w : WebSocket} (h : Ready w) (incoming : Bytes) :
    Ready (w.setIncoming incoming) := ⟨h.open_, h.faults, h.cancels⟩

theorem Ready.setFragment {w : WebSocket} (h : Ready w) (type : Option MessageType) (data : Bytes) :
    Ready (w.setFragment type data) := ⟨h.open_, h.faults, h.cancels⟩

/-- What a socket has answered does not depend on what it read and put together. -/
theorem Answered.from {w v w' : WebSocket} {ps : List Bytes} (h : Answered v ps w')
    (hconn : v.conn = w.conn) (hrole : v.isClient = w.isClient)
    (hlimit : v.maxMessageSize = w.maxMessageSize) (hfailure : v.failure = w.failure) :
    Answered w ps w' := by
  obtain ⟨pongs, hout, hmap, hpongs⟩ := h.out
  refine ⟨h.ready, h.isClient.trans hrole, h.limit.trans hlimit, h.failure.trans hfailure, pongs,
    ?_, hmap, ?_⟩
  · rw [← hconn]
    exact hout
  · rw [← hrole]
    exact hpongs

/-- What follows without writing anything changes nothing about the answers. -/
theorem Answered.aside {w w₁ w' : WebSocket} {ps : List Bytes} (h : Answered w ps w₁)
    (hconn : w'.conn = w₁.conn) (hclosed : w'.closed = w₁.closed)
    (hcancels : w'.cancels = w₁.cancels) (hrole : w'.isClient = w₁.isClient)
    (hlimit : w'.maxMessageSize = w₁.maxMessageSize) (hfailure : w'.failure = w₁.failure) :
    Answered w ps w' := by
  have hend := h.trans (answered_none h.ready hconn hclosed hcancels hrole hlimit hfailure)
  rwa [List.append_nil] at hend

theorem Answered.carries {w w' : WebSocket} {ps : List Bytes} (h : Answered w ps w')
    {frames : List Frame} {bytes : Bytes} (hc : Carries w.isClient frames bytes) :
    Carries w'.isClient frames bytes := by
  rw [h.isClient]
  exact hc

theorem receiveLoop_beats {w : WebSocket} (h : Ready w) (beats : List Beat) {bytes : Bytes}
    (hc : Carries w.isClient (beats.map Beat.frame) bytes)
    (hfits : ∀ b ∈ beats, b.payload.length ≤ w.maxMessageSize.toNat) (fuel : ℕ) (rest : Bytes) :
    ∃ w', Answered w (pingsOf beats) w' ∧ w'.fragmentedType = w.fragmentedType ∧
      w'.fragmentedData = w.fragmentedData ∧
      receiveLoop (fuel + beats.length) (w.setIncoming (bytes ++ rest)) =
        receiveLoop fuel (w'.setIncoming rest) := by
  induction beats generalizing w bytes with
  | nil =>
      cases hc
      exact ⟨w, answered_none h rfl rfl rfl rfl rfl rfl, rfl, rfl, rfl⟩
  | cons b beats ih =>
      cases hc with
      | @cons f mask frames bytes hf hlen hrest =>
          obtain ⟨w₁, hrun, hw₁, hinc, htype, hdata⟩ :=
            onFrame_beat (h.setIncoming (bytes ++ rest)) b
          replace hw₁ := hw₁.from (w := w) rfl rfl rfl rfl
          have hfits' : ∀ b ∈ beats, b.payload.length ≤ w₁.maxMessageSize.toNat := by
            rw [hw₁.limit]
            exact fun b hb => hfits b (List.mem_cons_of_mem _ hb)
          obtain ⟨w', hw', htype', hdata', hloop⟩ := ih hw₁.ready (hw₁.carries hrest) hfits'
          have hshort : ¬b.frame.payload.length > w.maxMessageSize.toNat := by
            have := hfits b List.mem_cons_self
            show ¬b.payload.length > w.maxMessageSize.toNat
            omega
          have hsame : w₁.setIncoming (bytes ++ rest) = w₁ := by
            show { w₁ with incoming := bytes ++ rest } = w₁
            rw [← show w₁.incoming = bytes ++ rest from hinc]
          refine ⟨w', ?_, htype'.trans htype, hdata'.trans hdata, ?_⟩
          · rw [show b :: beats = [b] ++ beats from rfl, pingsOf_append]
            exact hw₁.trans hw'
          · rw [List.length_cons, ← Nat.add_assoc, List.append_assoc,
              receiveLoop_frame hf hlen, if_neg hshort, bind_ok hrun, ← hloop, hsame]

theorem receiveLoop_beats_large {w : WebSocket} (h : Ready w) (beats : List Beat) {bytes : Bytes}
    (hc : Carries w.isClient (beats.map Beat.frame) bytes)
    (hlarge : ∃ b ∈ beats, w.maxMessageSize.toNat < b.payload.length) (fuel : ℕ) (rest : Bytes) :
    ∃ w' pings, pings <+: pingsOf beats ∧ Answered w pings w' ∧
      receiveLoop (fuel + beats.length) (w.setIncoming (bytes ++ rest)) =
        .error (.err .messageTooLarge) w' := by
  induction beats generalizing w bytes with
  | nil =>
      obtain ⟨b, hb, -⟩ := hlarge
      cases hb
  | cons b beats ih =>
      cases hc with
      | @cons f mask frames bytes hf hlen hrest =>
          rw [List.length_cons, ← Nat.add_assoc, List.append_assoc, receiveLoop_frame hf hlen]
          by_cases hb : b.frame.payload.length > w.maxMessageSize.toNat
          · rw [if_pos hb]
            exact ⟨w.setIncoming (unmask mask b.payload ++ (bytes ++ rest)), [], List.nil_prefix,
              answered_none h rfl rfl rfl rfl rfl rfl, rfl⟩
          · obtain ⟨w₁, hrun, hw₁, hinc, -, -⟩ := onFrame_beat (h.setIncoming (bytes ++ rest)) b
            replace hw₁ := hw₁.from (w := w) rfl rfl rfl rfl
            have hlarge' : ∃ b ∈ beats, w₁.maxMessageSize.toNat < b.payload.length := by
              obtain ⟨c, hmem, hcl⟩ := hlarge
              rcases List.mem_cons.mp hmem with rfl | hmem
              · exact absurd hcl hb
              · refine ⟨c, hmem, ?_⟩
                rw [hw₁.limit]
                exact hcl
            obtain ⟨w', pings, hpings, hw', hloop⟩ := ih hw₁.ready (hw₁.carries hrest) hlarge'
            have hsame : w₁.setIncoming (bytes ++ rest) = w₁ := by
              show { w₁ with incoming := bytes ++ rest } = w₁
              rw [← show w₁.incoming = bytes ++ rest from hinc]
            refine ⟨w', pingsOf [b] ++ pings, ?_, hw₁.trans hw', ?_⟩
            · rw [show b :: beats = [b] ++ beats from rfl, pingsOf_append]
              exact (List.prefix_append_right_inj _).mpr hpings
            · rw [if_neg hb, bind_ok hrun, ← hloop, hsame]

/-- What the loop makes of the outcome of a frame. -/
def goOn (fuel : ℕ) (r : Option Message) : Act WebSocket Message :=
  match r with
  | some message => pure message
  | none => receiveLoop fuel

theorem attempt_deliver (type : MessageType) (data : Bytes) (fuel : ℕ) (w : WebSocket) :
    attempt (deliver type data >>= goOn fuel) w = .ok (verdict type data) w := by
  unfold deliver verdict
  split
  · rfl
  · rfl

theorem onFrame_continuation (fin : Bool) (payload : Bytes) :
    onFrame ⟨fin, .continuation, payload⟩ = onContinuation fin payload := rfl

theorem onFrame_type (m : PeerMessage) (fin : Bool) (payload : Bytes) :
    onFrame ⟨fin, m.type, payload⟩ = onData fin m.type payload := by
  unfold PeerMessage.type
  split
  · rfl
  · rfl

theorem onContinuation_run {w : WebSocket} {type : MessageType}
    (htype : w.fragmentedType = some type) (fin : Bool) (payload : Bytes) :
    onContinuation fin payload w =
      if w.fragmentedData.length + payload.length > w.maxMessageSize.toNat then
        .error (.err .messageTooLarge) w
      else if fin then deliver type (w.fragmentedData ++ payload) (w.setFragment none [])
      else .ok none (w.setFragment type (w.fragmentedData ++ payload)) := by
  rw [onContinuation, bind_ok (get_run w), htype]
  simp only
  by_cases hlarge : w.fragmentedData.length + payload.length > w.maxMessageSize.toNat
  · rw [if_pos hlarge, if_pos hlarge]
    rfl
  · rw [if_neg hlarge, if_neg hlarge]
    cases fin <;> rfl

/-- Nothing of a fragment is longer than the limit. -/
def ShortFragment (limit : ℕ) (fragment : Fragment) : Prop :=
  fragment.payload.length ≤ limit ∧ ∀ b ∈ fragment.before, b.payload.length ≤ limit

/-- A fragment that is short enough by itself: what comes before it is answered, and the frame
is handled. -/
theorem receiveLoop_fragment {w : WebSocket} (h : Ready w) {fragment : Fragment}
    (hshort : ShortFragment w.maxMessageSize.toNat fragment) {opcode : MessageType} {fin : Bool}
    {frames : List Frame} {bytes : Bytes}
    (hc : Carries w.isClient (fragment.frames opcode fin ++ frames) bytes) (fuel : ℕ)
    (tail : Bytes) :
    ∃ w₁ b, Answered w (pingsOf fragment.before) w₁ ∧ w₁.fragmentedType = w.fragmentedType ∧
      w₁.fragmentedData = w.fragmentedData ∧ Carries w₁.isClient frames b ∧
      receiveLoop (fuel + 1 + fragment.before.length) (w.setIncoming (bytes ++ tail)) =
        (onFrame ⟨fin, opcode, fragment.payload⟩ >>= goOn fuel) (w₁.setIncoming (b ++ tail)) := by
  rw [Fragment.frames, List.append_assoc] at hc
  obtain ⟨b₁, b₂, rfl, hc₁, hc₂⟩ := hc.split
  cases hc₂ with
  | @cons f mask frames b hf hlen hrest =>
      obtain ⟨w₁, hw₁, htype₁, hdata₁, hloop⟩ := receiveLoop_beats h fragment.before hc₁ hshort.2
        (fuel + 1) ((Frame.wire ⟨fin, opcode, fragment.payload⟩ mask).bytes ++ b ++ tail)
      refine ⟨w₁, b, hw₁, htype₁, hdata₁, hw₁.carries hrest, ?_⟩
      have hnot : ¬fragment.payload.length > w₁.maxMessageSize.toNat := by
        have := hshort.1
        rw [hw₁.limit]
        omega
      rw [← hw₁.isClient] at hf
      rw [List.append_assoc, hloop, List.append_assoc, receiveLoop_frame hf hlen, if_neg hnot]
      rfl

/-- A fragment that is too long, or comes after a ping or pong that is. -/
theorem receiveLoop_fragment_large {w : WebSocket} (h : Ready w) {fragment : Fragment}
    (hlarge : ¬ShortFragment w.maxMessageSize.toNat fragment) {opcode : MessageType} {fin : Bool}
    {frames : List Frame} {bytes : Bytes}
    (hc : Carries w.isClient (fragment.frames opcode fin ++ frames) bytes) (fuel : ℕ)
    (tail : Bytes) :
    ∃ w' pings, pings <+: pingsOf fragment.before ∧ Answered w pings w' ∧
      receiveLoop (fuel + 1 + fragment.before.length) (w.setIncoming (bytes ++ tail)) =
        .error (.err .messageTooLarge) w' := by
  rw [Fragment.frames, List.append_assoc] at hc
  obtain ⟨b₁, b₂, rfl, hc₁, hc₂⟩ := hc.split
  rw [List.append_assoc]
  by_cases hbeats : ∀ b ∈ fragment.before, b.payload.length ≤ w.maxMessageSize.toNat
  · cases hc₂ with
    | @cons f mask frames b hf hlen hrest =>
        obtain ⟨w₁, hw₁, -, -, hloop⟩ := receiveLoop_beats h fragment.before hc₁ hbeats
          (fuel + 1) ((Frame.wire ⟨fin, opcode, fragment.payload⟩ mask).bytes ++ b ++ tail)
        have htoo : fragment.payload.length > w₁.maxMessageSize.toNat := by
          rw [hw₁.limit]
          by_contra hle
          exact hlarge ⟨by omega, hbeats⟩
        rw [← hw₁.isClient] at hf
        refine ⟨w₁.setIncoming (unmask mask fragment.payload ++ (b ++ tail)), _, List.prefix_rfl,
          hw₁.aside rfl rfl rfl rfl rfl rfl, ?_⟩
        rw [hloop, List.append_assoc, receiveLoop_frame hf hlen, if_pos htoo]
  · push Not at hbeats
    exact receiveLoop_beats_large h fragment.before hc₁ hbeats (fuel + 1) (b₂ ++ tail)

/-! ### The continuations -/

theorem length_continuations (fragment : Fragment) (rest : List Fragment) :
    (continuations (fragment :: rest)).length =
      (continuations rest).length + 1 + fragment.before.length := by
  simp only [continuations, Fragment.frames, List.length_append, List.length_map,
    List.length_singleton]
  omega

/-- The fragments that are still to come fit behind what is there. -/
def RestFits (limit : ℕ) (data : Bytes) (rest : List Fragment) : Prop :=
  (data ++ rest.flatMap Fragment.payload).length ≤ limit ∧
    ∀ b ∈ rest.flatMap Fragment.before, b.payload.length ≤ limit

theorem RestFits.cons {limit : ℕ} {data : Bytes} {fragment : Fragment} {rest : List Fragment} :
    RestFits limit data (fragment :: rest) ↔
      ShortFragment limit fragment ∧ data.length + fragment.payload.length ≤ limit ∧
        RestFits limit (data ++ fragment.payload) rest := by
  unfold RestFits ShortFragment
  simp only [List.flatMap_cons, List.length_append, List.mem_append]
  constructor
  · rintro ⟨hlen, hbeats⟩
    refine ⟨⟨by omega, fun b hb => hbeats b (.inl hb)⟩, by omega, by omega, ?_⟩
    exact fun b hb => hbeats b (.inr hb)
  · rintro ⟨⟨-, hbefore⟩, -, hlen, hbeats⟩
    refine ⟨by omega, fun b hb => ?_⟩
    rcases hb with hb | hb
    · exact hbefore b hb
    · exact hbeats b hb

theorem receiveLoop_continuations (rest : List Fragment) {w : WebSocket} (h : Ready w)
    {type : MessageType} (htype : w.fragmentedType = some type) (hne : rest ≠ []) {bytes : Bytes}
    (hc : Carries w.isClient (continuations rest) bytes)
    (hfits : RestFits w.maxMessageSize.toNat w.fragmentedData rest)
    {fuel : ℕ} (hfuel : (continuations rest).length ≤ fuel) (tail : Bytes) :
    ∃ w', Answered w (pingsOf (rest.flatMap Fragment.before)) w' ∧
      attempt (receiveLoop fuel) (w.setIncoming (bytes ++ tail)) =
        .ok (verdict type (w.fragmentedData ++ rest.flatMap Fragment.payload))
          (w'.setIncoming tail) := by
  induction rest generalizing w bytes fuel with
  | nil => exact absurd rfl hne
  | cons fragment rest ih =>
      rw [length_continuations] at hfuel
      obtain ⟨fuel, rfl⟩ : ∃ n, fuel = n + 1 + fragment.before.length :=
        ⟨fuel - 1 - fragment.before.length, by omega⟩
      obtain ⟨hshort, hsize, hrestFits⟩ := RestFits.cons.mp hfits
      obtain ⟨w₁, b, hw₁, htype₁, hdata₁, hrest, hloop⟩ :=
        receiveLoop_fragment h hshort hc fuel tail
      have hsum : ¬(w₁.setIncoming (b ++ tail)).fragmentedData.length +
          fragment.payload.length > (w₁.setIncoming (b ++ tail)).maxMessageSize.toNat := by
        show ¬w₁.fragmentedData.length + fragment.payload.length > w₁.maxMessageSize.toNat
        rw [hw₁.limit, hdata₁]
        omega
      have hcont := onContinuation_run (w := w₁.setIncoming (b ++ tail))
        (htype₁.trans htype) rest.isEmpty fragment.payload
      rw [if_neg hsum] at hcont
      rw [attempt_congr hloop]
      cases rest with
      | nil =>
          cases hrest
          refine ⟨w₁.setFragment none [], ?_, ?_⟩
          · simp only [List.flatMap_cons, List.flatMap_nil, List.append_nil]
            exact hw₁.aside rfl rfl rfl rfl rfl rfl
          · have hrun : (onFrame ⟨([] : List Fragment).isEmpty, .continuation, fragment.payload⟩ >>=
                goOn fuel) (w₁.setIncoming ([] ++ tail)) =
                (deliver type (w₁.fragmentedData ++ fragment.payload) >>= goOn fuel)
                  ((w₁.setFragment none []).setIncoming tail) := by
              rw [bind_run, onFrame_continuation, hcont, bind_run]
              rfl
            rw [attempt_congr hrun, attempt_deliver, hdata₁]
            simp
      | cons next rest =>
          let v := w₁.setFragment type (w₁.fragmentedData ++ fragment.payload)
          have hdata : v.fragmentedData = w.fragmentedData ++ fragment.payload := by
            rw [← hdata₁]
            rfl
          have hlimit : v.maxMessageSize = w.maxMessageSize := hw₁.limit
          obtain ⟨w', hw', hend⟩ := ih (w := v) (hw₁.ready.setFragment _ _) rfl (by simp) hrest
            (by rwa [hdata, hlimit])
            (Nat.le_of_add_le_add_right (Nat.le_of_add_le_add_right hfuel))
          have hrun : (onFrame ⟨(next :: rest).isEmpty, .continuation, fragment.payload⟩ >>=
              goOn fuel) (w₁.setIncoming (b ++ tail)) =
              receiveLoop fuel (v.setIncoming (b ++ tail)) := by
            rw [bind_run, onFrame_continuation, hcont]
            rfl
          refine ⟨w', ?_, ?_⟩
          · rw [List.flatMap_cons, pingsOf_append]
            exact hw₁.trans (hw'.from rfl rfl rfl rfl)
          · rw [attempt_congr hrun, hend, hdata, List.append_assoc]
            rfl

theorem receiveLoop_continuations_large (rest : List Fragment) {w : WebSocket} (h : Ready w)
    {type : MessageType} (htype : w.fragmentedType = some type) {bytes : Bytes}
    (hc : Carries w.isClient (continuations rest) bytes)
    (hdata : w.fragmentedData.length ≤ w.maxMessageSize.toNat)
    (hlarge : ¬RestFits w.maxMessageSize.toNat w.fragmentedData rest)
    {fuel : ℕ} (hfuel : (continuations rest).length ≤ fuel) (tail : Bytes) :
    ∃ w' pings, pings <+: pingsOf (rest.flatMap Fragment.before) ∧ Answered w pings w' ∧
      receiveLoop fuel (w.setIncoming (bytes ++ tail)) = .error (.err .messageTooLarge) w' := by
  induction rest generalizing w bytes fuel with
  | nil => exact absurd ⟨by simpa using hdata, by simp⟩ hlarge
  | cons fragment rest ih =>
      rw [length_continuations] at hfuel
      obtain ⟨fuel, rfl⟩ : ∃ n, fuel = n + 1 + fragment.before.length :=
        ⟨fuel - 1 - fragment.before.length, by omega⟩
      rw [List.flatMap_cons, pingsOf_append]
      by_cases hshort : ShortFragment w.maxMessageSize.toNat fragment
      · obtain ⟨w₁, b, hw₁, htype₁, hdata₁, hrest, hloop⟩ :=
          receiveLoop_fragment h hshort hc fuel tail
        have hcont := onContinuation_run (w := w₁.setIncoming (b ++ tail))
          (htype₁.trans htype) rest.isEmpty fragment.payload
        rw [hloop]
        by_cases hsize : w.fragmentedData.length + fragment.payload.length ≤
            w.maxMessageSize.toNat
        · have hsum : ¬(w₁.setIncoming (b ++ tail)).fragmentedData.length +
              fragment.payload.length > (w₁.setIncoming (b ++ tail)).maxMessageSize.toNat := by
            show ¬w₁.fragmentedData.length + fragment.payload.length > w₁.maxMessageSize.toNat
            rw [hw₁.limit, hdata₁]
            omega
          rw [if_neg hsum] at hcont
          have hrestLarge : ¬RestFits w.maxMessageSize.toNat
              (w.fragmentedData ++ fragment.payload) rest :=
            fun hrestFits => hlarge (RestFits.cons.mpr ⟨hshort, hsize, hrestFits⟩)
          cases rest with
          | nil =>
              refine absurd ⟨?_, by simp⟩ hrestLarge
              simpa using hsize
          | cons next rest =>
              let v := w₁.setFragment type (w₁.fragmentedData ++ fragment.payload)
              have hvdata : v.fragmentedData = w.fragmentedData ++ fragment.payload := by
                rw [← hdata₁]
                rfl
              have hlimit : v.maxMessageSize = w.maxMessageSize := hw₁.limit
              obtain ⟨w', pings, hpings, hw', hend⟩ := ih (w := v) (hw₁.ready.setFragment _ _) rfl
                hrest (by rwa [hvdata, hlimit, List.length_append]) (by rwa [hvdata, hlimit])
                (Nat.le_of_add_le_add_right (Nat.le_of_add_le_add_right hfuel))
              refine ⟨w', _, (List.prefix_append_right_inj _).mpr hpings,
                hw₁.trans (hw'.from rfl rfl rfl rfl), ?_⟩
              rw [bind_run, onFrame_continuation, hcont]
              exact hend
        · have hsum : (w₁.setIncoming (b ++ tail)).fragmentedData.length +
              fragment.payload.length > (w₁.setIncoming (b ++ tail)).maxMessageSize.toNat := by
            show w₁.fragmentedData.length + fragment.payload.length > w₁.maxMessageSize.toNat
            rw [hw₁.limit, hdata₁]
            omega
          rw [if_pos hsum] at hcont
          refine ⟨w₁.setIncoming (b ++ tail), _, List.prefix_append _ _,
            hw₁.aside rfl rfl rfl rfl rfl rfl, ?_⟩
          rw [bind_run, onFrame_continuation, hcont]
      · obtain ⟨w', pings, hpings, hw', hloop⟩ :=
          receiveLoop_fragment_large h hshort hc fuel tail
        exact ⟨w', pings, hpings.trans (List.prefix_append _ _), hw', hloop⟩

/-! ### One call -/

theorem onData_first {w : WebSocket} (hnone : w.fragmentedType = none) (fin : Bool)
    (opcode : MessageType) {payload : Bytes} (hle : payload.length ≤ w.maxMessageSize.toNat) :
    onData fin opcode payload w =
      if fin then deliver opcode payload w else .ok none (w.setFragment opcode payload) := by
  rw [onData, bind_ok (get_run w)]
  cases fin with
  | true => rfl
  | false =>
      have hnot : ¬payload.length > w.maxMessageSize.toNat := by omega
      rw [if_neg Bool.false_ne_true, hnone, if_neg Bool.false_ne_true, if_neg hnot]
      rfl

theorem receive_run (w : WebSocket) :
    receive w = receiveLoop (w.incoming.length + 1) w.beginReceive := rfl

theorem fits_iff {limit : ℕ} (m : PeerMessage) :
    m.Fits limit ↔ ShortFragment limit m.first ∧ RestFits limit m.first.payload m.rest := by
  unfold PeerMessage.Fits ShortFragment RestFits PeerMessage.payload PeerMessage.beats
  simp only [List.length_append, List.mem_append]
  constructor
  · rintro ⟨hlen, hbeats⟩
    exact ⟨⟨by omega, fun b hb => hbeats b (.inl hb)⟩, hlen, fun b hb => hbeats b (.inr hb)⟩
  · rintro ⟨⟨-, hbefore⟩, hlen, hrest⟩
    refine ⟨hlen, fun b hb => ?_⟩
    rcases hb with hb | hb
    · exact hbefore b hb
    · exact hrest b hb

theorem length_frames (m : PeerMessage) :
    m.frames.length = (continuations m.rest).length + 1 + m.first.before.length := by
  simp only [PeerMessage.frames, Fragment.frames, List.length_append, List.length_map,
    List.length_singleton]
  omega

/-- The bytes of a message are turns enough for the message. -/
theorem exists_fuel {isClient : Bool} {m : PeerMessage} {frames : List Frame} {bytes : Bytes}
    (hc : Carries isClient (m.frames ++ frames) bytes) (tail : Bytes) :
    ∃ fuel, (bytes ++ tail).length + 1 = fuel + 1 + m.first.before.length ∧
      (continuations m.rest).length ≤ fuel := by
  have hlen := hc.length_le
  rw [List.length_append, length_frames] at hlen
  refine ⟨bytes.length + tail.length - m.first.before.length, ?_, ?_⟩
  · rw [List.length_append]
    omega
  · omega

/-- A message that fits is returned by the next call, whatever comes behind it. -/
theorem receive_message {w : WebSocket} (h : Ready w) {m : PeerMessage}
    (hfits : m.Fits w.maxMessageSize.toNat) {frames : List Frame} {bytes : Bytes}
    (hc : Carries w.isClient (m.frames ++ frames) bytes) (tail : Bytes) :
    ∃ w' b, Answered w (pingsOf m.beats) w' ∧ Carries w'.isClient frames b ∧
      attempt receive (w.setIncoming (bytes ++ tail)) =
        .ok m.result (w'.setIncoming (b ++ tail)) := by
  obtain ⟨hshort, hrestFits⟩ := (fits_iff m).mp hfits
  obtain ⟨fuel, hfuel, hcont⟩ := exists_fuel hc tail
  rw [PeerMessage.frames, List.append_assoc] at hc
  have hbegin : Answered w [] w.beginReceive := answered_none h rfl rfl rfl rfl rfl rfl
  obtain ⟨w₁, b₁, hw₁, htype₁, -, hrest, hloop⟩ := receiveLoop_fragment hbegin.ready hshort
    hc fuel tail
  have hle : m.first.payload.length ≤ w₁.maxMessageSize.toNat := by
    rw [hw₁.limit]
    exact hshort.1
  have hfirst := onData_first (w := w₁.setIncoming (b₁ ++ tail)) htype₁ m.rest.isEmpty m.type hle
  have hreceive : receive (w.setIncoming (bytes ++ tail)) =
      (onFrame ⟨m.rest.isEmpty, m.type, m.first.payload⟩ >>= goOn fuel)
        (w₁.setIncoming (b₁ ++ tail)) := by
    rw [receive_run, setIncoming_incoming, hfuel, ← hloop]
    rfl
  have hbefore := hbegin.trans hw₁
  rw [List.nil_append] at hbefore
  rw [attempt_congr hreceive]
  cases hm : m.rest with
  | nil =>
      -- the only frame of the message
      rw [hm] at hrest hfirst
      refine ⟨w₁, b₁, ?_, hrest, ?_⟩
      · rw [PeerMessage.beats, hm, List.flatMap_nil, List.append_nil]
        exact hbefore
      · have hrun : (onFrame ⟨([] : List Fragment).isEmpty, m.type, m.first.payload⟩ >>=
            goOn fuel) (w₁.setIncoming (b₁ ++ tail)) =
            (deliver m.type m.first.payload >>= goOn fuel) (w₁.setIncoming (b₁ ++ tail)) := by
          rw [bind_run, onFrame_type, hfirst, bind_run]
          rfl
        rw [attempt_congr hrun, attempt_deliver, PeerMessage.result, PeerMessage.payload, hm,
          List.flatMap_nil, List.append_nil]
  | cons next rest =>
      rw [hm] at hrest hfirst hcont hrestFits
      obtain ⟨b₂, b₃, rfl, hc₂, hc₃⟩ := hrest.split
      let v := w₁.setFragment m.type m.first.payload
      have hlimit : v.maxMessageSize = w.maxMessageSize := hw₁.limit
      obtain ⟨w', hw', hend⟩ := receiveLoop_continuations (next :: rest) (w := v)
        (hw₁.ready.setFragment _ _) rfl (by simp) hc₂ (by rwa [hlimit]) hcont (b₃ ++ tail)
      have hrun : (onFrame ⟨(next :: rest).isEmpty, m.type, m.first.payload⟩ >>=
          goOn fuel) (w₁.setIncoming (b₂ ++ b₃ ++ tail)) =
          receiveLoop fuel (v.setIncoming (b₂ ++ (b₃ ++ tail))) := by
        rw [bind_run, onFrame_type, hfirst, ← List.append_assoc]
        rfl
      refine ⟨w', b₃, ?_, (hw'.from (w := w₁) rfl rfl rfl rfl).carries hc₃, ?_⟩
      · rw [PeerMessage.beats, hm, pingsOf_append]
        exact hbefore.trans (hw'.from rfl rfl rfl rfl)
      · rw [attempt_congr hrun, hend, PeerMessage.result, PeerMessage.payload, hm]
        rfl

theorem receive_message_large {w : WebSocket} (h : Ready w) {m : PeerMessage}
    (hlarge : ¬m.Fits w.maxMessageSize.toNat) {frames : List Frame} {bytes : Bytes}
    (hc : Carries w.isClient (m.frames ++ frames) bytes) (tail : Bytes) :
    ∃ w' pings, pings <+: pingsOf m.beats ∧ Answered w pings w' ∧
      receive (w.setIncoming (bytes ++ tail)) = .error (.err .messageTooLarge) w' := by
  obtain ⟨fuel, hfuel, hcont⟩ := exists_fuel hc tail
  rw [PeerMessage.frames, List.append_assoc] at hc
  have hbegin : Answered w [] w.beginReceive := answered_none h rfl rfl rfl rfl rfl rfl
  have hstart : receive (w.setIncoming (bytes ++ tail)) =
      receiveLoop (fuel + 1 + m.first.before.length)
        (w.beginReceive.setIncoming (bytes ++ tail)) := by
    rw [receive_run, setIncoming_incoming, hfuel]
    rfl
  rw [hstart, PeerMessage.beats, pingsOf_append]
  by_cases hshort : ShortFragment w.maxMessageSize.toNat m.first
  · obtain ⟨w₁, b₁, hw₁, htype₁, -, hrest, hloop⟩ := receiveLoop_fragment hbegin.ready hshort
      hc fuel tail
    have hle : m.first.payload.length ≤ w₁.maxMessageSize.toNat := by
      rw [hw₁.limit]
      exact hshort.1
    have hfirst := onData_first (w := w₁.setIncoming (b₁ ++ tail)) htype₁ m.rest.isEmpty m.type hle
    have hrestLarge : ¬RestFits w.maxMessageSize.toNat m.first.payload m.rest :=
      fun hrest => hlarge ((fits_iff m).mpr ⟨hshort, hrest⟩)
    rw [hloop]
    cases hm : m.rest with
    | nil =>
        rw [hm] at hrestLarge
        exact absurd ⟨by simpa using hshort.1, by simp⟩ hrestLarge
    | cons next rest =>
        rw [hm] at hrest hfirst hcont hrestLarge
        obtain ⟨b₂, b₃, rfl, hc₂, -⟩ := hrest.split
        let v := w₁.setFragment m.type m.first.payload
        have hlimit : v.maxMessageSize = w.maxMessageSize := hw₁.limit
        obtain ⟨w', pings, hpings, hw', hend⟩ := receiveLoop_continuations_large (next :: rest)
          (w := v) (hw₁.ready.setFragment _ _) rfl hc₂ (by rw [hlimit]; exact hshort.1)
          (by rwa [hlimit]) hcont (b₃ ++ tail)
        refine ⟨w', _, (List.prefix_append_right_inj _).mpr hpings,
          hbegin.trans (hw₁.trans (hw'.from rfl rfl rfl rfl)), ?_⟩
        rw [bind_run, onFrame_type, hfirst, List.append_assoc]
        exact hend
  · obtain ⟨w', pings, hpings, hw', hloop⟩ :=
      receiveLoop_fragment_large hbegin.ready hshort hc fuel tail
    exact ⟨w', _, hpings.trans (List.prefix_append _ _), hbegin.trans hw', hloop⟩

/-- Where the stream ends behind pings and pongs, these are answered. -/
theorem receive_rest {w : WebSocket} (h : Ready w) (beats : List Beat) {bytes : Bytes}
    (hc : Carries w.isClient (beats.map Beat.frame) bytes)
    (hfits : ∀ b ∈ beats, b.payload.length ≤ w.maxMessageSize.toNat) :
    ∃ w', Answered w (pingsOf beats) w' ∧
      receive (w.setIncoming bytes) = .error (.err (w.failure.getD .endOfStream)) w' := by
  have hlen := hc.length_le
  rw [List.length_map] at hlen
  have hbegin : Answered w [] w.beginReceive := answered_none h rfl rfl rfl rfl rfl rfl
  obtain ⟨w', hw', -, -, hloop⟩ := receiveLoop_beats hbegin.ready beats hc hfits
    (bytes.length - beats.length + 1) []
  refine ⟨w'.setIncoming [], hbegin.trans (hw'.aside rfl rfl rfl rfl rfl rfl), ?_⟩
  have hfuel : bytes.length + 1 = bytes.length - beats.length + 1 + beats.length := by omega
  have hstart : receive (w.setIncoming bytes) =
      receiveLoop (bytes.length - beats.length + 1) (w'.setIncoming []) := by
    rw [receive_run, setIncoming_incoming, hfuel, ← hloop, List.append_nil]
    rfl
  rw [hstart, ← show w'.failure = w.failure from hw'.failure]
  rfl

/-! ### Call after call -/

/-- As many calls of `receive`, and what each of them came to. -/
def receiveAll : ℕ → Act WebSocket (List (Except Error Message))
  | 0 => pure []
  | n + 1 => do
      let outcome ← attempt receive
      let rest ← receiveAll n
      pure (outcome :: rest)

/-- **Reassembly.**  Messages that fit are returned one by one, whatever their fragments are and
whatever comes behind them, with a pong for every ping.  A message that does not fit fails the
call it is read by, and where the stream ends behind pings and pongs these are answered still. -/
theorem receiveAll_messages {w : WebSocket} (h : Ready w) (messages : List PeerMessage)
    (hfits : ∀ m ∈ messages, m.Fits w.maxMessageSize.toNat) {frames : List Frame} {bytes : Bytes}
    (hc : Carries w.isClient (messages.flatMap PeerMessage.frames ++ frames) bytes)
    (tail : Bytes) :
    ∃ w' b, receiveAll messages.length (w.setIncoming (bytes ++ tail)) =
        .ok (messages.map PeerMessage.result) (w'.setIncoming (b ++ tail)) ∧
      Answered w (pingsOf (messages.flatMap PeerMessage.beats)) w' ∧
      Carries w'.isClient frames b ∧
      (∀ (m : PeerMessage) more, frames = m.frames ++ more → ¬m.Fits w.maxMessageSize.toNat →
        ∃ w'' pings, receive (w'.setIncoming (b ++ tail)) = .error (.err .messageTooLarge) w'' ∧
          Answered w' pings w'' ∧ pings <+: pingsOf m.beats) ∧
      (∀ beats, frames = beats.map Beat.frame → tail = [] →
        (∀ beat ∈ beats, beat.payload.length ≤ w.maxMessageSize.toNat) →
        ∃ w'', receive (w'.setIncoming (b ++ tail)) =
            .error (.err (w.failure.getD .endOfStream)) w'' ∧
          Answered w' (pingsOf beats) w'') := by
  induction messages generalizing w bytes with
  | nil =>
      refine ⟨w, bytes, rfl, answered_none h rfl rfl rfl rfl rfl rfl, hc, ?_, ?_⟩
      · rintro m more rfl hlarge
        obtain ⟨w'', pings, hpings, hw'', hrun⟩ := receive_message_large h hlarge hc tail
        exact ⟨w'', pings, hrun, hw'', hpings⟩
      · rintro beats rfl rfl hshort
        obtain ⟨w'', hw'', hrun⟩ := receive_rest h beats hc hshort
        exact ⟨w'', by rwa [List.append_nil], hw''⟩
  | cons m messages ih =>
      rw [List.flatMap_cons, List.append_assoc] at hc
      obtain ⟨w₁, b₁, hw₁, hc₁, hrun₁⟩ :=
        receive_message h (hfits m List.mem_cons_self) hc tail
      have hfits' : ∀ m ∈ messages, m.Fits w₁.maxMessageSize.toNat := by
        rw [hw₁.limit]
        exact fun m hm => hfits m (List.mem_cons_of_mem _ hm)
      obtain ⟨w', b, hrun, hw', hcb, hlarge, hend⟩ := ih hw₁.ready hfits' hc₁
      rw [hw₁.limit] at hlarge hend
      rw [hw₁.failure] at hend
      refine ⟨w', b, ?_, ?_, hcb, hlarge, hend⟩
      · rw [List.length_cons, receiveAll, bind_ok hrun₁, bind_ok hrun]
        rfl
      · rw [List.flatMap_cons, pingsOf_append]
        exact hw₁.trans hw'

theorem carries_plain {isClient : Bool} {f : Frame} {frames : List Frame} {bytes : Bytes}
    (h : Accepted isClient (f.wire none)) (hlen : f.payload.length < 2 ^ 64)
    (hrest : Carries isClient frames bytes) :
    Carries isClient (f :: frames) ((f.wire none).bytes ++ bytes) := .cons h hlen hrest

/-- Two fragments with a ping between them, under no mask. -/
def greeting : PeerMessage :=
  { text := true, first := { payload := ascii "he" },
    rest := [{ before := [⟨true, ascii "p"⟩], payload := ascii "y" }] }

theorem receiveAll_messages_sample :
    ∃ (bytes : Bytes) (w' : WebSocket), receiveAll 1 ((fresh true []).setIncoming bytes) =
      .ok [.ok { type := .text, data := ascii "hey" }] (w'.setIncoming []) := by
  have hc : Carries true (greeting.frames ++ []) _ :=
    carries_plain ⟨rfl, by decide, by decide⟩ (by decide)
      (carries_plain ⟨rfl, by decide, by decide⟩ (by decide)
        (carries_plain ⟨rfl, by decide, by decide⟩ (by decide) .nil))
  obtain ⟨w', b, hrun, -, hb, -⟩ := receiveAll_messages (w := fresh true [])
    ⟨rfl, rfl, rfl⟩ [greeting] (by decide) hc []
  cases hb
  exact ⟨_, w', hrun⟩

/-- A ping longer than the limit, and a message that is not. -/
def longPing : PeerMessage :=
  { text := true,
    first := { before := [⟨true, List.replicate 50 0⟩], payload := ascii "hi" } }

/-- The limit holds for every frame: a message below it is refused for the ping before it. -/
theorem receive_long_ping :
    ¬∀ (w : WebSocket) (m : PeerMessage) (frames : List Frame) (bytes : Bytes), Ready w →
      Carries w.isClient (m.frames ++ frames) bytes →
      ((∃ w', receive (w.setIncoming bytes) = .error (.err .messageTooLarge) w') ↔
        w.maxMessageSize.toNat < m.payload.length) := by
  intro hall
  have hc : Carries true (longPing.frames ++ []) _ :=
    carries_plain ⟨rfl, by decide, by decide⟩ (by decide)
      (carries_plain ⟨rfl, by decide, by decide⟩ (by decide) .nil)
  let w := { fresh true [] with maxMessageSize := 10 }
  have hready : Ready w := ⟨rfl, rfl, rfl⟩
  obtain ⟨w', -, -, -, hrun⟩ := receive_message_large (w := w) hready (m := longPing) (by decide)
    hc []
  rw [List.append_nil] at hrun
  have hlt := (hall w longPing [] _ hready hc).mp ⟨w', hrun⟩
  exact absurd hlt (by decide)

end WebSocket
end Dusty
