import Dusty.WebSocketRejects

/-! # The closing handshake

One task receives until it has the close message, while other tasks send, ping and close whenever they
like.  The pong for a ping goes through the gate a local close has shut, so that `receive` fails on a ping
behind it; otherwise the task gets all the peer has sent (`handshake_iff`). -/

namespace Dusty

open Act WireFrame

/-- The receiving task: whether it is inside of `receive`, the frame it has read and not yet handled, the
messages it was given, and what made it give up. -/
structure Receiver where
  ws : WebSocket
  inside : Bool := false
  frame : Option Frame := none
  got : List Message := []
  failed : Option Fault := none

/-- The receiving task takes its next step, or another task does something. -/
inductive Move where
  | task
  | send (type : MessageType) (data : Bytes)
  | ping (data : Bytes)
  | close (code : CloseCode) (reason : Bytes)
deriving DecidableEq

namespace Receiver

def setWs (self : Receiver) (ws : WebSocket) : Receiver := { self with ws := ws }

/-- `receive` has failed. -/
def fail (self : Receiver) (f : Fault) : Receiver := { self with failed := some f, frame := none }

/-- The task needs nothing more: it has the close message, or an error. -/
def finished (self : Receiver) : Bool := self.failed.isSome || self.got.any fun message => message.type = .close

/-- The task reads a frame. -/
def read (self : Receiver) : Receiver :=
  match WebSocket.readFrame self.ws with
  | .ok frame ws => { self with ws := ws, frame := some frame }
  | .error f ws => (self.setWs ws).fail f

/-- The task handles a frame; a message ends the call. -/
def handle (self : Receiver) (frame : Frame) : Receiver :=
  match WebSocket.onFrame frame self.ws with
  | .ok (some message) ws =>
      { self with ws := ws, frame := none, inside := false, got := self.got ++ [message] }
  | .ok none ws => { self with ws := ws, frame := none }
  | .error f ws => (self.setWs ws).fail f

/-- The next step of the task: it calls `receive`, reads a frame, or handles one. -/
def advance (self : Receiver) : Receiver :=
  if self.finished then self
  else if self.inside then
    match self.frame with
    | none => self.read
    | some frame => self.handle frame
  else { self with ws := self.ws.beginReceive, inside := true }

def exec (self : Receiver) : Move → Receiver
  | .task => self.advance
  | .send type data => self.setWs (final (WebSocket.send type data) self.ws)
  | .ping data => self.setWs (final (WebSocket.ping data) self.ws)
  | .close code reason => self.setWs (final (WebSocket.close code reason) self.ws)

def run (moves : List Move) (self : Receiver) : Receiver := moves.foldl exec self

end Receiver

/-! ### What the peer sends -/

/-- Legal frames that a reader with the given limit has room for, with a close frame at the end, and the
messages they make. -/
inductive Conversation (isClient : Bool) (limit : ℕ) : Pending → List WireFrame → List Message → Prop where
  | farewell {pending : Pending} {f : WireFrame} :
      f.opcode = .close → ¬f.Offends isClient pending.isSome → f.payload.length ≤ limit →
      Conversation isClient limit pending [f] [WebSocket.closing f.payload]
  | frame {pending : Pending} {f : WireFrame} {frames : List WireFrame} {message : Option Message}
      {messages : List Message} :
      f.opcode ≠ .close → ¬f.Offends isClient pending.isSome → f.payload.length ≤ limit →
      (f.opcode = .continuation → ∀ p ∈ pending, p.2.length + f.payload.length ≤ limit) →
      (meaning pending f).2 = message.map .ok →
      Conversation isClient limit (meaning pending f).1 frames messages →
      Conversation isClient limit pending (f :: frames) (message.toList ++ messages)

namespace WebSocket

/-! ### Steps on a transport that works -/

/-- The transport works, and nobody is cancelled. -/
structure Steady (w : WebSocket) : Prop where
  faults : w.conn.faults = []
  cancels : w.cancels = []

/-- The reader is where it was, and the transport still works. -/
def Kept (w w' : WebSocket) : Prop := SameReader w w' ∧ Steady w'

theorem Steady.lock {w : WebSocket} (h : Steady w) : lock w = .ok () w := by
  rw [WebSocket.lock, bind_ok (get_run w), bind_ok (modify_run ..), h.cancels]
  show EStateM.Result.ok () { w with cancels := [] } = _
  rw [← h.cancels]

theorem Steady.kept {w : WebSocket} (h : Steady w) : Kept w w := ⟨SameReader.refl w, h⟩

theorem Wrote.kept {w w' : WebSocket} {bytes : Bytes} (hwrote : Wrote w bytes w') (h : Steady w) : Kept w w' := by
  refine ⟨hwrote.sameReader, hwrote.faults h.faults, ?_⟩
  rw [hwrote.same]
  exact h.cancels

/-- A frame is written unless the socket is closed. -/
theorem Steady.writeFrame {w : WebSocket} (h : Steady w) (opcode : MessageType) (data : Bytes) (fin : Bool) :
    (w.closed = true ∧ writeFrame opcode data fin w = .error (.err .endOfStream) w) ∨
      w.closed = false ∧ ∃ w', writeFrame opcode data fin w = .ok () w' ∧ Kept w w' := by
  unfold WebSocket.writeFrame
  rw [bind_ok h.lock, bind_ok (get_run w)]
  cases hclosed : w.closed with
  | true =>
      rw [if_pos rfl]
      exact .inl ⟨rfl, rfl⟩
  | false =>
      rw [if_neg Bool.false_ne_true]
      obtain ⟨w', hrun, hwrote, -⟩ := writeFrameLocked_works h.faults opcode data fin
      exact .inr ⟨rfl, w', hrun, hwrote.kept h⟩

/-- A close frame is written unless the socket is closed; then nothing happens. -/
theorem Steady.writeClose {w : WebSocket} (h : Steady w) (code : CloseCode) (reason : Bytes) :
    ∃ w', writeClose code reason w = .ok () w' ∧ Kept w w' := by
  unfold WebSocket.writeClose
  rw [bind_ok h.lock, bind_ok (get_run w)]
  cases hclosed : w.closed with
  | true =>
      rw [if_pos rfl]
      exact ⟨w, rfl, h.kept⟩
  | false =>
      rw [if_neg Bool.false_ne_true, bind_ok (modify_run ..)]
      have hmarked : Steady w.markClosed := ⟨h.faults, h.cancels⟩
      obtain ⟨w', hrun, hwrote, -⟩ := writeFrameLocked_works hmarked.faults .close
        (bigEndian 2 code.toNat ++ reason.take 123) true
      obtain ⟨hreader, hsteady⟩ := hwrote.kept hmarked
      exact ⟨w', hrun, ⟨hreader.incoming, hreader.isClient, hreader.limit, hreader.fragmentedType,
        hreader.fragmentedData⟩, hsteady⟩

theorem Steady.writes {w : WebSocket} (h : Steady w) (opcode : MessageType) (data : Bytes) (fin : Bool) :
    Kept w (final (WebSocket.writeFrame opcode data fin) w) := by
  rcases h.writeFrame opcode data fin with ⟨-, hrun⟩ | ⟨-, w', hrun, hkept⟩
  · rw [final_of_error hrun]
    exact h.kept
  · rw [final_of_ok hrun]
    exact hkept

/-- What a legal frame means happens. -/
def Happens (w : WebSocket) (x : Act WebSocket (Option Message))
    (meant : Pending × Option (Except Error Message)) : Prop :=
  ∃ w', attempt x w = .ok (turned meant.2) w' ∧ Steady w' ∧ Turned w meant w.incoming w'

theorem happens_deliver {w w₁ : WebSocket} {x : Act WebSocket (Option Message)} {type : MessageType} {data : Bytes}
    (hrun : x w = deliver type data w₁) (hsteady : Steady w₁) (hincoming : w₁.incoming = w.incoming)
    (hrole : w₁.isClient = w.isClient) (hlimit : w₁.maxMessageSize = w.maxMessageSize) :
    Happens w x (none, some (verdict type data)) := by
  refine ⟨w₁, ?_, hsteady, nofun, hincoming, hrole, hlimit⟩
  rw [attempt_congr hrun, attempt_deliver_turned]

theorem happens_setFragment {w : WebSocket} (h : Steady w) {x : Act WebSocket (Option Message)}
    {type : MessageType} {data : Bytes} (hrun : x w = .ok none (w.setFragment type data)) :
    Happens w x (some (type, data), none) := by
  refine ⟨_, attempt_ok hrun, ⟨h.faults, h.cancels⟩, fun _ => ⟨rfl, ?_⟩, rfl, rfl, rfl⟩
  rintro p ⟨⟩
  rfl

theorem happens_kept {w w' : WebSocket} (hkept : Kept w w') {x : Act WebSocket (Option Message)}
    {pending : Pending} {message : Option Message} (hrun : x w = .ok message w'.markResponded)
    (hholds : message = none → Holds w pending) : Happens w x (pending, message.map .ok) := by
  obtain ⟨hreader, hsteady⟩ := hkept
  refine ⟨w'.markResponded, ?_, ⟨hsteady.faults, hsteady.cancels⟩, ?_, hreader.incoming, hreader.isClient,
    hreader.limit⟩
  · rw [attempt_ok hrun]
    cases message <;> rfl
  · intro hnone
    have hheld := hreader.holds (hholds (Option.map_eq_none_iff.mp hnone))
    exact ⟨hheld.type, hheld.data⟩

theorem onData_happens {w : WebSocket} (hsteady : Steady w) (hholds : Holds w none) (opcode : MessageType)
    {f : WireFrame} (hfits : f.payload.length ≤ w.maxMessageSize.toNat) :
    Happens w (onData f.fin opcode f.payload) (meaning.whole f opcode) := by
  have hrun := onData_first hholds.type f.fin opcode hfits
  unfold meaning.whole
  cases hfin : f.fin with
  | true =>
      rw [hfin] at hrun
      exact happens_deliver hrun hsteady rfl rfl rfl
  | false =>
      rw [hfin] at hrun
      exact happens_setFragment hsteady hrun

theorem onContinuation_happens {w : WebSocket} (hsteady : Steady w) {type : MessageType} {data : Bytes}
    (hholds : Holds w (some (type, data))) {f : WireFrame}
    (hfits : data.length + f.payload.length ≤ w.maxMessageSize.toNat) :
    Happens w (onContinuation f.fin f.payload)
      (if f.fin then (none, some (verdict type (data ++ f.payload))) else (some (type, data ++ f.payload), none)) := by
  have hdata : w.fragmentedData = data := hholds.data _ rfl
  have hrun := onContinuation_run hholds.type f.fin f.payload
  rw [hdata, if_neg (Nat.not_lt.mpr hfits)] at hrun
  cases hfin : f.fin with
  | true =>
      rw [hfin] at hrun
      exact happens_deliver hrun ⟨hsteady.faults, hsteady.cancels⟩ rfl rfl rfl
  | false =>
      rw [hfin] at hrun
      exact happens_setFragment hsteady hrun

/-- **A legal frame** is handled as it is meant, unless it is a ping and the socket is closed. -/
theorem onFrame_happens {w : WebSocket} {pending : Pending} {f : WireFrame} (hsteady : Steady w)
    (hf : ¬f.Offends w.isClient pending.isSome) (hholds : Holds w pending)
    (hfits : f.payload.length ≤ w.maxMessageSize.toNat)
    (hcont : f.opcode = .continuation → ∀ p ∈ pending, p.2.length + f.payload.length ≤ w.maxMessageSize.toNat)
    (hping : f.opcode = .ping → w.closed = false) :
    Happens w (onFrame ⟨f.fin, f.opcode, f.payload⟩) (meaning pending f) := by
  unfold Offends at hf
  push Not at hf
  obtain ⟨-, -, hreserved, -, hdata, hunfinished, -⟩ := hf
  unfold meaning
  cases hop : f.opcode with
  | reserved control index =>
      rw [hop] at hreserved
      exact absurd rfl hreserved
  | ping =>
      rcases hsteady.writeFrame .pong f.payload true with ⟨hclosed, -⟩ | ⟨-, w', hrun, hkept⟩
      · cases hclosed.symm.trans (hping hop)
      · exact @happens_kept w w' hkept (onFrame ⟨f.fin, .ping, f.payload⟩) pending none (bind_ok hrun) fun _ => hholds
  | pong => exact ⟨w, rfl, hsteady, fun _ => hholds, rfl, rfl, rfl⟩
  | close =>
      obtain ⟨w', hrun, hkept⟩ := hsteady.writeClose ((closeCodeOf f.payload).getD .normal) (closeReasonOf f.payload)
      exact @happens_kept w w' hkept (onFrame ⟨f.fin, .close, f.payload⟩) none (some (closing f.payload))
        (bind_ok hrun) nofun
  | continuation =>
      cases pending with
      | none => exact absurd rfl (hunfinished hop)
      | some p => exact onContinuation_happens hsteady hholds (hcont hop p rfl)
  | text =>
      cases pending with
      | none => exact onData_happens hsteady hholds .text hfits
      | some p => exact absurd rfl (hdata (by rw [hop]; rfl))
  | binary =>
      cases pending with
      | none => exact onData_happens hsteady hholds .binary hfits
      | some p => exact absurd rfl (hdata (by rw [hop]; rfl))

/-- A ping on a closed socket makes `receive` fail. -/
theorem onFrame_ping_closed {w : WebSocket} (hsteady : Steady w) (hclosed : w.closed = true) (fin : Bool)
    (payload : Bytes) : onFrame ⟨fin, .ping, payload⟩ w = .error (.err .endOfStream) w := by
  rcases hsteady.writeFrame .pong payload true with ⟨-, hrun⟩ | ⟨hopen, -⟩
  · exact bind_error hrun
  · cases hclosed.symm.trans hopen

end WebSocket
/-! ### The invariant -/

/-- What is under way is no close frame. -/
def Plain (pending : Pending) : Prop := ∀ p ∈ pending, p.1 ≠ .close

theorem plain_none : Plain none := nofun

theorem verdict_ok {type : MessageType} {data : Bytes} {message : Message} (h : verdict type data = .ok message) :
    message.type = type := by
  unfold verdict at h
  split at h
  · cases h
  · cases h
    rfl

theorem meaning_plain {pending : Pending} {f : WireFrame} (hplain : Plain pending) (hne : f.opcode ≠ .close) :
    Plain (meaning pending f).1 ∧ ∀ message, (meaning pending f).2 = some (.ok message) → message.type ≠ .close := by
  have hwhole : ∀ type : MessageType, type ≠ .close → Plain (meaning.whole f type).1 ∧
      ∀ message, (meaning.whole f type).2 = some (.ok message) → message.type ≠ .close := by
    intro type htype
    unfold meaning.whole
    cases f.fin with
    | true => exact ⟨plain_none, fun message h => verdict_ok (Option.some.inj h) ▸ htype⟩
    | false =>
        refine ⟨?_, fun message h => by cases h⟩
        rintro p ⟨⟩
        exact htype
  unfold meaning
  cases hop : f.opcode with
  | text => exact hwhole .text (by decide)
  | binary => exact hwhole .binary (by decide)
  | close => exact absurd hop hne
  | continuation =>
      cases pending with
      | none => exact ⟨plain_none, fun message h => by cases h⟩
      | some p =>
          have hp : p.1 ≠ .close := hplain p rfl
          simp only
          cases f.fin with
          | true => exact ⟨plain_none, fun message h => verdict_ok (Option.some.inj h) ▸ hp⟩
          | false =>
              refine ⟨?_, fun message h => by cases h⟩
              rintro q ⟨⟩
              exact hp
  | ping => exact ⟨hplain, fun message h => by cases h⟩
  | pong => exact ⟨hplain, fun message h => by cases h⟩
  | reserved control index => exact ⟨hplain, fun message h => by cases h⟩

namespace Receiver

open WebSocket

/-- The task has received a part of the messages, and none of them was the close message. -/
structure Halfway (limit : ℕ) (messages rest : List Message) (s : Receiver) : Prop where
  failed : s.failed = none
  got : s.got ++ rest = messages
  plain : ∀ message ∈ s.got, message.type ≠ .close
  steady : Steady s.ws
  limit : s.ws.maxMessageSize.toNat = limit

/-- The invariant: what is still to come makes the messages that are missing, and takes the given number of
steps of the task. -/
inductive Going (limit : ℕ) (messages : List Message) : ℕ → Receiver → Prop where
  | idle {s : Receiver} {frames : List WireFrame} {rest : List Message} {tail : Bytes} :
      Halfway limit messages rest s → s.inside = false → s.frame = none →
      s.ws.incoming = frames.flatMap WireFrame.bytes ++ tail →
      Conversation s.ws.isClient limit none frames rest →
      Going limit messages (2 * frames.length + rest.length) s
  | reading {s : Receiver} {pending : Pending} {frames : List WireFrame} {rest : List Message} {tail : Bytes} :
      Halfway limit messages rest s → s.inside = true → s.frame = none →
      s.ws.incoming = frames.flatMap WireFrame.bytes ++ tail → Holds s.ws pending → Plain pending →
      Conversation s.ws.isClient limit pending frames rest →
      Going limit messages (2 * frames.length + rest.length - 1) s
  | handling {s : Receiver} {pending : Pending} {f : WireFrame} {frames : List WireFrame} {rest : List Message}
      {tail : Bytes} :
      Halfway limit messages rest s → s.inside = true → s.frame = some ⟨f.fin, f.opcode, f.payload⟩ →
      s.ws.incoming = frames.flatMap WireFrame.bytes ++ tail → Holds s.ws pending → Plain pending →
      Conversation s.ws.isClient limit pending (f :: frames) rest →
      Going limit messages (2 * frames.length + rest.length) s
  | done {s : Receiver} :
      s.failed = none → s.frame = none → s.got = messages → s.finished = true → Going limit messages 0 s

/-- The task is about to handle a ping. -/
def Pinged (s : Receiver) : Prop := ∃ frame ∈ s.frame, frame.opcode = .ping

section steps
variable {limit n : ℕ} {messages rest : List Message} {s : Receiver}

theorem Halfway.not_over (h : Halfway limit messages rest s) : s.finished = false := by
  unfold finished
  rw [h.failed, Option.isSome_none, Bool.false_or, List.any_eq_false]
  intro message hmem
  rw [decide_eq_true_iff]
  exact h.plain message hmem

theorem Halfway.other (h : Halfway limit messages rest s) {w : WebSocket} (hkept : Kept s.ws w) :
    Halfway limit messages rest (s.setWs w) :=
  ⟨h.failed, h.got, h.plain, hkept.2, (congrArg UInt64.toNat hkept.1.limit).trans h.limit⟩

theorem Going.other (h : Going limit messages n s) {w : WebSocket} (hkept : Steady s.ws → Kept s.ws w) :
    Going limit messages n (s.setWs w) := by
  cases h with
  | idle hhalf hinside hframe hincoming hconv =>
      have hw := hkept hhalf.steady
      refine .idle (hhalf.other hw) hinside hframe (hw.1.incoming.trans hincoming) ?_
      exact hw.1.isClient.symm ▸ hconv
  | reading hhalf hinside hframe hincoming hholds hplain hconv =>
      have hw := hkept hhalf.steady
      refine .reading (hhalf.other hw) hinside hframe (hw.1.incoming.trans hincoming) (hw.1.holds hholds) hplain ?_
      exact hw.1.isClient.symm ▸ hconv
  | handling hhalf hinside hframe hincoming hholds hplain hconv =>
      have hw := hkept hhalf.steady
      refine .handling (hhalf.other hw) hinside hframe (hw.1.incoming.trans hincoming) (hw.1.holds hholds) hplain ?_
      exact hw.1.isClient.symm ▸ hconv
  | done hfailed hframe hgot hover => exact .done hfailed hframe hgot hover

theorem conversation_cons {isClient : Bool} {pending : Pending} {frames : List WireFrame}
    (h : Conversation isClient limit pending frames rest) :
    ∃ f frames', frames = f :: frames' ∧ ¬f.Offends isClient pending.isSome ∧ f.payload.length ≤ limit ∧
      (f.opcode = .continuation → ∀ p ∈ pending, p.2.length + f.payload.length ≤ limit) := by
  cases h with
  | @farewell pending f hclose hoffends hfits =>
      refine ⟨f, [], rfl, hoffends, hfits, fun hcont => ?_⟩
      cases hcont.symm.trans hclose
  | @frame pending f frames message messages hne hoffends hfits hcont hmeant hrest =>
      exact ⟨f, frames, rfl, hoffends, hfits, hcont⟩

theorem Going.read {pending : Pending} {frames : List WireFrame} {tail : Bytes} (h : Halfway limit messages rest s)
    (hinside : s.inside = true) (hincoming : s.ws.incoming = frames.flatMap WireFrame.bytes ++ tail)
    (hholds : Holds s.ws pending) (hplain : Plain pending)
    (hconv : Conversation s.ws.isClient limit pending frames rest) :
    Going limit messages (2 * frames.length + rest.length - 1 - 1) s.read := by
  obtain ⟨f, frames, rfl, hoffends, hfits, -⟩ := conversation_cons hconv
  have hlen : f.payload.length < 2 ^ 64 := by
    have hlimit := s.ws.maxMessageSize.toNat_lt
    rw [h.limit] at hlimit
    omega
  have hread : readFrame s.ws =
      .ok ⟨f.fin, f.opcode, f.payload⟩ (s.ws.setIncoming (frames.flatMap WireFrame.bytes ++ tail)) := by
    have hbytes : s.ws = s.ws.setIncoming (f.bytes ++ (frames.flatMap WireFrame.bytes ++ tail)) := by
      rw [← List.append_assoc, ← List.flatMap_cons, ← hincoming]
      rfl
    have hrun := readFrame_bytes s.ws (accepted_of_not_offends hoffends) hlen (frames.flatMap WireFrame.bytes ++ tail)
    rw [← hbytes, h.limit, if_neg (Nat.not_lt.mpr hfits)] at hrun
    exact hrun
  have hcount : 2 * (f :: frames).length + rest.length - 1 - 1 = 2 * frames.length + rest.length := by
    rw [List.length_cons]
    omega
  unfold Receiver.read
  rw [hread, hcount]
  exact .handling ⟨h.failed, h.got, h.plain, ⟨h.steady.faults, h.steady.cancels⟩, h.limit⟩ hinside rfl rfl
    ⟨hholds.type, hholds.data⟩ hplain hconv

theorem Going.handle {pending : Pending} {f : WireFrame} {frames : List WireFrame} {tail : Bytes}
    (h : Halfway limit messages rest s) (hinside : s.inside = true)
    (hincoming : s.ws.incoming = frames.flatMap WireFrame.bytes ++ tail) (hholds : Holds s.ws pending)
    (hplain : Plain pending) (hconv : Conversation s.ws.isClient limit pending (f :: frames) rest)
    (hping : f.opcode = .ping → s.ws.closed = false) :
    Going limit messages (2 * frames.length + rest.length - 1) (s.handle ⟨f.fin, f.opcode, f.payload⟩) := by
  obtain ⟨_, _, ⟨⟩, hoffends, hfits, hcont⟩ := conversation_cons hconv
  rw [← h.limit] at hfits hcont
  obtain ⟨w', hrun, hsteady, hturned⟩ := onFrame_happens h.steady hoffends hholds hfits hcont hping
  have hlimit : w'.maxMessageSize.toNat = limit := (congrArg UInt64.toNat hturned.limit).trans h.limit
  unfold Receiver.handle
  cases hconv with
  | farewell hclose hoffends hfits' =>
      have hmeant : (meaning pending f).2 = some (.ok (closing f.payload)) := by
        unfold meaning
        rw [hclose]
        rfl
      rw [hmeant] at hrun
      rw [attempt_eq_ok.mp hrun]
      refine .done h.failed rfl h.got ?_
      unfold finished
      rw [List.any_append, List.any_cons]
      show (_ || (_ || (true || _))) = true
      rw [Bool.true_or, Bool.or_true, Bool.or_true]
  | @frame pending f frames message messages' hne hoffends hfits' hcont' hmeant hrest =>
      obtain ⟨hplain', hmessage⟩ := meaning_plain hplain hne
      rw [hmeant] at hrun
      cases message with
      | none =>
          rw [attempt_eq_ok.mp hrun]
          refine .reading ⟨h.failed, h.got, h.plain, hsteady, hlimit⟩ hinside rfl
            (hturned.incoming.trans hincoming) (hturned.holds hmeant) hplain' ?_
          exact hturned.isClient.symm ▸ hrest
      | some message =>
          rw [attempt_eq_ok.mp hrun]
          have hnone : (meaning pending f).1 = none := meaning_done hmeant
          rw [hnone] at hrest
          have hgot : (s.got ++ [message]) ++ messages' = messages := by
            rw [List.append_assoc]
            exact h.got
          have hcount : 2 * frames.length + ((some message).toList ++ messages').length - 1 =
              2 * frames.length + messages'.length := by
            rw [List.length_append]
            show _ + (1 + _) - 1 = _
            omega
          rw [hcount]
          refine .idle ⟨h.failed, hgot, ?_, hsteady, hlimit⟩ rfl rfl (hturned.incoming.trans hincoming) ?_
          · intro other hmem
            rcases List.mem_append.mp hmem with hmem | hmem
            · exact h.plain other hmem
            · rw [List.mem_singleton.mp hmem]
              exact hmessage message hmeant
          · exact hturned.isClient.symm ▸ hrest

/-- **A step of the task**, unless it is stopped by a ping. -/
theorem Going.task (h : Going limit messages n s) (hping : s.Pinged → s.ws.closed = false) :
    Going limit messages (n - 1) s.advance := by
  unfold advance
  cases h with
  | @idle s frames rest tail hhalf hinside hframe hincoming hconv =>
      rw [hhalf.not_over, hinside, if_neg Bool.false_ne_true, if_neg Bool.false_ne_true]
      exact .reading ⟨hhalf.failed, hhalf.got, hhalf.plain, ⟨hhalf.steady.faults, hhalf.steady.cancels⟩, hhalf.limit⟩
        rfl hframe hincoming ⟨rfl, fun p hp => absurd hp (Option.not_mem_none p)⟩ plain_none hconv
  | reading hhalf hinside hframe hincoming hholds hplain hconv =>
      rw [hhalf.not_over, hinside, if_neg Bool.false_ne_true, if_pos rfl, hframe]
      exact Going.read hhalf hinside hincoming hholds hplain hconv
  | @handling s pending f frames rest tail hhalf hinside hframe hincoming hholds hplain hconv =>
      rw [hhalf.not_over, hinside, if_neg Bool.false_ne_true, if_pos rfl, hframe]
      exact Going.handle hhalf hinside hincoming hholds hplain hconv fun hop => hping ⟨_, hframe, hop⟩
  | done hfailed hframe hgot hover =>
      rw [if_pos hover]
      exact .done hfailed hframe hgot hover

theorem Going.stopped (h : Going limit messages n s) (hping : s.Pinged) (hclosed : s.ws.closed = true) :
    s.advance.failed ≠ none ∧ s.advance.got = s.got := by
  obtain ⟨frame, hmem, hop⟩ := hping
  cases h with
  | idle hhalf hinside hframe hincoming hconv =>
      rw [hframe] at hmem
      cases hmem
  | reading hhalf hinside hframe hincoming hholds hplain hconv =>
      rw [hframe] at hmem
      cases hmem
  | @handling s pending f frames rest tail hhalf hinside hframe hincoming hholds hplain hconv =>
      rw [hframe] at hmem
      cases hmem
      unfold advance
      rw [hhalf.not_over, hinside, if_neg Bool.false_ne_true, if_pos rfl, hframe]
      simp only
      unfold Receiver.handle
      rw [show f.opcode = .ping from hop, onFrame_ping_closed hhalf.steady hclosed]
      exact ⟨Option.some_ne_none _, rfl⟩
  | done hfailed hframe hgot hover =>
      rw [hframe] at hmem
      cases hmem

end steps

/-! ### Runs -/

/-- Whenever the task handles a ping, the socket is open. -/
def Unhindered : List Move → Receiver → Prop
  | [], _ => True
  | move :: rest, s => (move = .task → s.Pinged → s.ws.closed = false) ∧ Unhindered rest (s.exec move)

section runs
variable {limit n : ℕ} {messages : List Message} {s : Receiver}

theorem kept_local {w : WebSocket} (h : Steady w) :
    (∀ type data, Kept w (final (WebSocket.send type data) w)) ∧ (∀ data, Kept w (final (WebSocket.ping data) w)) ∧
      ∀ code reason, Kept w (final (WebSocket.close code reason) w) := by
  refine ⟨fun type data => ?_, fun data => ?_, fun code reason => ?_⟩
  · unfold WebSocket.send
    split
    · exact h.kept
    · exact h.writes type data true
  · unfold WebSocket.ping
    split
    · exact h.kept
    · exact h.writes .ping data true
  · obtain ⟨w', hrun, hkept⟩ := h.writeClose code reason
    have hclose : WebSocket.close code reason w = .ok () w' := hrun
    rw [final_of_ok hclose]
    exact hkept

/-- **One step** of any task. -/
theorem Going.exec (h : Going limit messages n s) {move : Move}
    (hopen : move = .task → s.Pinged → s.ws.closed = false) :
    Going limit messages (n - [move].count .task) (s.exec move) := by
  cases move with
  | task => exact h.task (hopen rfl)
  | send type data => exact h.other fun hsteady => (kept_local hsteady).1 type data
  | ping data => exact h.other fun hsteady => (kept_local hsteady).2.1 data
  | close code reason => exact h.other fun hsteady => (kept_local hsteady).2.2 code reason

theorem Going.run {moves : List Move} (h : Going limit messages n s) (hopen : Unhindered moves s) :
    Going limit messages (n - moves.count .task) (s.run moves) := by
  induction moves generalizing n s with
  | nil => exact h
  | cons move rest ih =>
      have hcount : n - (move :: rest).count .task = n - [move].count .task - rest.count .task := by
        rw [← List.singleton_append, List.count_append]
        omega
      rw [hcount]
      exact ih (h.exec hopen.1) hopen.2

theorem run_failed (moves : List Move) (h : s.failed ≠ none) :
    (s.run moves).failed ≠ none ∧ (s.run moves).got = s.got := by
  induction moves generalizing s with
  | nil => exact ⟨h, rfl⟩
  | cons move rest ih =>
      have hexec : (s.exec move).failed = s.failed ∧ (s.exec move).got = s.got := by
        cases move with
        | task =>
            have hover : s.finished = true := by
              unfold finished
              rw [Option.isSome_iff_ne_none.mpr h, Bool.true_or]
            have hrun : s.exec .task = s := if_pos hover
            rw [hrun]
            exact ⟨rfl, rfl⟩
        | send type data => exact ⟨rfl, rfl⟩
        | ping data => exact ⟨rfl, rfl⟩
        | close code reason => exact ⟨rfl, rfl⟩
      obtain ⟨hfailed, hgot⟩ := ih (hexec.1 ▸ h)
      exact ⟨hfailed, hgot.trans hexec.2⟩

theorem Going.beginning (h : Going limit messages n s) : s.got <+: messages := by
  cases h with
  | idle hhalf => exact ⟨_, hhalf.got⟩
  | reading hhalf => exact ⟨_, hhalf.got⟩
  | handling hhalf => exact ⟨_, hhalf.got⟩
  | done _ _ hgot => exact ⟨[], (List.append_nil _).trans hgot⟩

theorem Going.failed (h : Going limit messages n s) : s.failed = none := by
  cases h with
  | idle hhalf => exact hhalf.failed
  | reading hhalf => exact hhalf.failed
  | handling hhalf => exact hhalf.failed
  | done hfailed => exact hfailed

/-- The task fails only at a ping, and what it has received stays. -/
theorem Going.hindered {moves : List Move} (h : Going limit messages n s) (hnot : ¬Unhindered moves s) :
    (s.run moves).failed ≠ none ∧ (s.run moves).got <+: messages := by
  induction moves generalizing n s with
  | nil => exact absurd trivial hnot
  | cons move rest ih =>
      by_cases hopen : move = .task → s.Pinged → s.ws.closed = false
      · exact ih (h.exec hopen) fun hrest => hnot ⟨hopen, hrest⟩
      · push Not at hopen
        obtain ⟨rfl, hping, hclosed⟩ := hopen
        obtain ⟨hfailed, hgot⟩ := h.stopped hping (eq_true_of_ne_false hclosed)
        obtain ⟨hfailed', hgot'⟩ := run_failed rest hfailed
        refine ⟨hfailed', ?_⟩
        show (s.advance.run rest).got <+: messages
        rw [hgot', hgot]
        exact h.beginning

theorem length_pos_of_conversation {isClient : Bool} {pending : Pending} {frames : List WireFrame}
    {rest : List Message} (h : Conversation isClient limit pending frames rest) :
    0 < frames.length ∧ 0 < rest.length := by
  induction h with
  | farewell => exact ⟨Nat.zero_lt_one, Nat.zero_lt_one⟩
  | frame _ _ _ _ _ _ ih =>
      refine ⟨Nat.succ_pos _, ?_⟩
      rw [List.length_append]
      omega

theorem Going.got_all (h : Going limit messages n s) (hzero : n = 0) : s.got = messages := by
  cases h with
  | idle _ _ _ _ hconv =>
      have hpos := length_pos_of_conversation hconv
      omega
  | reading _ _ _ _ _ _ hconv =>
      have hpos := length_pos_of_conversation hconv
      omega
  | handling _ _ _ _ _ _ hconv =>
      have hpos := length_pos_of_conversation hconv
      omega
  | done _ _ hgot => exact hgot

end runs

/-! ### The task alone -/

/-- **The task alone** does what `receive` does. -/
theorem run_receiveLoop {fuel : ℕ} {s : Receiver} {message : Message} {w' : WebSocket} (hover : s.finished = false)
    (hinside : s.inside = true) (hframe : s.frame = none) (h : receiveLoop fuel s.ws = .ok message w') :
    ∃ n, s.run (List.replicate n .task) =
      { s with ws := w', inside := false, got := s.got ++ [message] } := by
  induction fuel generalizing s with
  | zero => cases h
  | succ fuel ih =>
      obtain ⟨frame, w₁, hread, h⟩ := bind_eq_ok.mp h
      obtain ⟨reply, w₂, hon, h⟩ := bind_eq_ok.mp h
      have hfirst : s.advance = { s with ws := w₁, frame := some frame } := by
        unfold advance Receiver.read
        rw [hover, hinside, if_neg Bool.false_ne_true, if_pos rfl, hframe, hread]
      have hsecond : s.advance.advance = Receiver.handle { s with ws := w₁, frame := some frame } frame := by
        rw [hfirst]
        unfold advance
        rw [show finished { s with ws := w₁, frame := some frame } = false from hover, if_neg Bool.false_ne_true]
        exact if_pos hinside
      unfold Receiver.handle at hsecond
      rw [show onFrame frame w₁ = .ok reply w₂ from hon] at hsecond
      cases reply with
      | some message' =>
          cases h
          refine ⟨2, hsecond.trans ?_⟩
          rw [hframe]
      | none =>
          have hsame : s.advance.advance = s.setWs w₂ := hsecond.trans (by rw [← hframe]; rfl)
          obtain ⟨n, hrun⟩ := ih (s := s.setWs w₂) hover hinside hframe h
          refine ⟨n + 2, ?_⟩
          show (s.advance.advance).run (List.replicate n .task) = _
          rw [hsame, hrun]
          rfl

/-- Between two calls, a call of `receive` is what so many steps of the task do. -/
def Receives (s : Receiver) : Prop :=
  ∀ message w', s.finished = false → s.inside = false → s.frame = none → receive s.ws = .ok message w' →
    ∃ n, s.run (List.replicate n .task) = { s with ws := w', got := s.got ++ [message] }

theorem run_receive (s : Receiver) : s.Receives := by
  intro message w' hover hinside hframe h
  have hfirst : s.advance = { s with ws := s.ws.beginReceive, inside := true } := by
    unfold advance
    rw [hover, hinside, if_neg Bool.false_ne_true, if_neg Bool.false_ne_true]
  obtain ⟨n, hrun⟩ := @run_receiveLoop _ { s with ws := s.ws.beginReceive, inside := true } _ _ hover rfl hframe h
  refine ⟨n + 1, ?_⟩
  show (s.advance).run (List.replicate n .task) = _
  rw [hfirst, hrun, ← hinside]

/-! ### The handshake -/

/-- **The closing handshake.**  Whatever the tasks do, the receiving task has at any time the first of the
peer's messages; it does not fail exactly if every ping it handles finds the socket open, and then has all of
them, the close message at the end, once it was given the steps for it.  A call of `receive` is what so many of its
steps do. -/
theorem handshake_iff {w : WebSocket} {frames : List WireFrame} {messages : List Message} {tail : Bytes}
    (hsteady : Steady w) (hincoming : w.incoming = frames.flatMap WireFrame.bytes ++ tail)
    (hconv : Conversation w.isClient w.maxMessageSize.toNat none frames messages) (moves : List Move) :
    ((run moves { ws := w }).failed = none ↔ Unhindered moves { ws := w }) ∧
      (run moves { ws := w }).got <+: messages ∧
      ((run moves { ws := w }).failed = none → 2 * frames.length + messages.length ≤ moves.count .task →
        (run moves { ws := w }).got = messages) ∧
      (run moves { ws := w }).Receives := by
  have hstart : Going w.maxMessageSize.toNat messages (2 * frames.length + messages.length) { ws := w } :=
    .idle ⟨rfl, rfl, nofun, hsteady, rfl⟩ rfl rfl hincoming hconv
  by_cases hopen : Unhindered moves { ws := w }
  · have hend := hstart.run hopen
    refine ⟨iff_of_true hend.failed hopen, hend.beginning, fun _ hsteps => ?_, run_receive _⟩
    exact hend.got_all (Nat.sub_eq_zero_of_le hsteps)
  · obtain ⟨hfailed, hgot⟩ := hstart.hindered hopen
    exact ⟨iff_of_false hfailed hopen, hgot, fun hnone => absurd hnone hfailed, run_receive _⟩

/-! ### A ping behind the close -/

/-- A ping and a close frame of a client. -/
def pingAndClose : List WireFrame :=
  [⟨true, 0, .ping, some ⟨0, 0, 0, 0⟩, []⟩, ⟨true, 0, .close, some ⟨0, 0, 0, 0⟩, [0x03, 0xE8]⟩]

theorem pingAndClose_conversation :
    Conversation false 16777216 none pingAndClose [closing [0x03, 0xE8]] := by
  show Conversation false 16777216 none pingAndClose ((none : Option Message).toList ++ [closing [0x03, 0xE8]])
  exact .frame (by decide) (by decide) (by decide) (by decide) (by decide)
    (.farewell (by decide) (by decide) (by decide))

/-- The local side closes, and the peer's ping makes `receive` fail. -/
theorem handshake_fails :
    (run [.close 1000 [], .task, .task, .task, .task, .task]
      { ws := fresh false (pingAndClose.flatMap WireFrame.bytes) }).failed = some (.err .endOfStream) ∧
    (run [.close 1000 [], .task, .task, .task, .task, .task]
      { ws := fresh false (pingAndClose.flatMap WireFrame.bytes) }).got = [] := by
  decide +kernel

theorem handshake_iff_sample :
    (run [.task, .task, .task, .close 1000 [], .task, .task]
      { ws := fresh false (pingAndClose.flatMap WireFrame.bytes) }).got = [closing [0x03, 0xE8]] := by
  have h := @handshake_iff (fresh false (pingAndClose.flatMap WireFrame.bytes)) pingAndClose
    [closing [0x03, 0xE8]] [] ⟨rfl, rfl⟩ (List.append_nil _).symm pingAndClose_conversation
    [.task, .task, .task, .close 1000 [], .task, .task]
  exact h.2.2.1 (by decide +kernel) (by decide)

end Receiver
end Dusty
