import Dusty.Duplex
import Dusty.WebSocketCloses
import Dusty.WebSocketHandshake

/-! # The dialogue of two endpoints

What the two ends of a WebSocket are for, frame by frame: every end has a queue of whole frames to read, a task that
receives, and callers that send, ping and close.  Bytes, masks and buffers are left to the endpoints that do this
(`simulates`).  In every run an end has got the first of the messages the other end sent (`Linked`), the two
tasks come to rest (`tires`), and then nothing is on the way any more, and both ends are closed if one is
(`Linked.at_rest`). -/

namespace Dusty

/-- What an application is told of a frame. -/
def Frame.spoken (f : Frame) : List Message :=
  match f.opcode with
  | .text => [{ type := .text, data := f.payload }]
  | .binary => [{ type := .binary, data := f.payload }]
  | .close => [WebSocket.closing f.payload]
  | _ => []

/-- A frame of the kinds the library sends: a whole message, or a control frame of the size allowed. -/
structure Frame.Sendable (f : Frame) : Prop where
  fin : f.fin = true
  opcode : f.opcode.isControl = true ∨ f.opcode.isData = true
  control : f.opcode.isControl = true → f.payload.length ≤ 125
  short : f.payload.length < 2 ^ 64

/-- One end of the dialogue. -/
structure Party where
  limit : ℕ
  inbox : List Frame := []
  inside : Bool := false
  frame : Option Frame := none
  got : List Message := []
  sent : List Message := []
  closed : Bool := false
  failed : Bool := false
  cancels : List Bool := []

namespace Party

/-- A task gets the lock. -/
def free (self : Party) : Bool := decide (self.cancels.head? ≠ some true)

/-- A frame goes out. -/
def speaks (self : Party) : Bool := self.free && !self.closed

/-- A task has asked for the lock. -/
def turn (self : Party) : Party := { self with cancels := self.cancels.tail }

/-- `receive` has failed. -/
def fail (self : Party) : Party := { self with failed := true, frame := none }

/-- The task needs nothing more. -/
def finished (self : Party) : Bool := self.failed || self.got.any fun message => message.type = .close

/-- A message ends the call of `receive`. -/
def deliver (self : Party) (message : Message) : Party :=
  { self with frame := none, inside := false, got := self.got ++ [message] }

/-- A frame is written, or not; it may mark the end closed. -/
def write (self : Party) (f : Frame) : Party × List Frame :=
  if self.speaks then
    ({ self.turn with closed := decide (f.opcode = .close), sent := self.sent ++ f.spoken }, [f])
  else (self.turn, [])

/-- A message of a single frame is complete. -/
def complete (self : Party) (type : MessageType) (data : Bytes) : Party :=
  match verdict type data with
  | .ok message => self.deliver message
  | .error _ => self.fail

/-- The task handles a frame. -/
def handle (self : Party) (f : Frame) : Party × List Frame :=
  match f.opcode with
  | .ping =>
      if self.speaks then ({ self.turn with frame := none }, [⟨true, .pong, f.payload⟩]) else (self.turn.fail, [])
  | .pong => ({ self with frame := none }, [])
  | .close =>
      if self.free then
        let written := self.write ⟨true, .close, closePayload ((WebSocket.closeCodeOf f.payload).getD .normal)
          (WebSocket.closeReasonOf f.payload)⟩
        (written.1.deliver (WebSocket.closing f.payload), written.2)
      else (self.turn.fail, [])
  | .text => (self.complete .text f.payload, [])
  | .binary => (self.complete .binary f.payload, [])
  | _ => (self.fail, [])

/-- The task reads a frame, if there is one. -/
def read (self : Party) : Party :=
  match self.inbox with
  | [] => self
  | f :: rest =>
      if f.payload.length > self.limit then self.fail else { self with frame := some f, inbox := rest }

/-- The next step of the task. -/
def advance (self : Party) : Party × List Frame :=
  if self.finished then (self, [])
  else if self.inside then
    match self.frame with
    | none => (self.read, [])
    | some f => self.handle f
  else ({ self with inside := true }, [])

def send (self : Party) (type : MessageType) (data : Bytes) : Party × List Frame :=
  if type ≠ .text ∧ type ≠ .binary then (self, []) else self.write ⟨true, type, data⟩

def ping (self : Party) (data : Bytes) : Party × List Frame :=
  if data.length > 125 then (self, []) else self.write ⟨true, .ping, data⟩

def close (self : Party) (code : CloseCode) (reason : Bytes) : Party × List Frame :=
  self.write ⟨true, .close, closePayload code reason⟩

/-- A move, and the frames it puts on the way. -/
def act (self : Party) : Move → Party × List Frame
  | .task => self.advance
  | .send type data => self.send type data
  | .ping data => self.ping data
  | .close code reason => self.close code reason

/-- Frames arrive. -/
def hear (self : Party) (frames : List Frame) : Party := { self with inbox := self.inbox ++ frames }

/-- What is on the way to the application. -/
def pending (self : Party) : List Message := (self.frame.toList ++ self.inbox).flatMap Frame.spoken

end Party

/-- How an end behaves. -/
def dialogue : Duplex.Behaviour Party Move Frame where
  step move party := (party.act move).1
  said move party := (party.act move).2
  hear frames party := party.hear frames

/-! ### What a move says -/

namespace Party

section moves
variable {s s' : Party} {f : Frame} {frames : List Frame}

/-- What an end says with a move: nothing, or a frame as long as it is not closed. -/
inductive Spoke (s : Party) : Party → List Frame → Prop where
  | nothing {s' : Party} : s'.sent = s.sent → s'.closed = s.closed → Spoke s s' []
  | frame {s' : Party} {f : Frame} : s.closed = false → f.Sendable → s'.sent = s.sent ++ f.spoken →
      s'.closed = decide (f.opcode = .close) → Spoke s s' [f]

/-- The frames an end has yet to handle. -/
def queue (self : Party) : List Frame := self.frame.toList ++ self.inbox

theorem sendable_close (code : CloseCode) (reason : Bytes) :
    Frame.Sendable ⟨true, .close, closePayload code reason⟩ := by
  have hlength := length_closePayload code reason
  have hshort : (closePayload code reason).length ≤ 125 := by omega
  refine ⟨rfl, .inl rfl, fun _ => hshort, ?_⟩
  show (closePayload code reason).length < 2 ^ 64
  omega

theorem sendable_control {type : MessageType} {data : Bytes} (htype : type.isControl = true) (h : data.length ≤ 125) :
    Frame.Sendable ⟨true, type, data⟩ := by
  refine ⟨rfl, .inl htype, fun _ => h, ?_⟩
  show data.length < 2 ^ 64
  omega

theorem sendable_data {type : MessageType} {data : Bytes} (htype : type.isData = true) (h : data.length < 2 ^ 64) :
    Frame.Sendable ⟨true, type, data⟩ := by
  refine ⟨rfl, .inr htype, fun hcontrol => ?_, h⟩
  cases type with
  | text => cases hcontrol
  | binary => cases hcontrol
  | _ => cases htype

theorem write_spoke (hf : f.Sendable) : Spoke s (s.write f).1 (s.write f).2 := by
  unfold write
  split
  · rename_i hspeaks
    unfold speaks at hspeaks
    rw [Bool.and_eq_true, Bool.not_eq_true'] at hspeaks
    exact .frame hspeaks.2 hf rfl rfl
  · exact .nothing rfl rfl

theorem complete_sent (type : MessageType) (data : Bytes) :
    (s.complete type data).sent = s.sent ∧ (s.complete type data).closed = s.closed := by
  unfold complete
  split
  · exact ⟨rfl, rfl⟩
  · exact ⟨rfl, rfl⟩

theorem read_sent : s.read.sent = s.sent ∧ s.read.closed = s.closed := by
  unfold read
  split
  · exact ⟨rfl, rfl⟩
  · split
    · exact ⟨rfl, rfl⟩
    · exact ⟨rfl, rfl⟩

theorem handle_spoke (hf : f.Sendable) : Spoke s (s.handle f).1 (s.handle f).2 := by
  unfold handle
  split
  · rename_i hping
    split
    · rename_i hspeaks
      unfold speaks at hspeaks
      rw [Bool.and_eq_true, Bool.not_eq_true'] at hspeaks
      refine .frame hspeaks.2 (sendable_control rfl (hf.control (by rw [hping]; rfl))) (List.append_nil _).symm ?_
      exact hspeaks.2
    · exact .nothing rfl rfl
  · exact .nothing rfl rfl
  · split
    · have hwrite := @write_spoke s _
        (sendable_close ((WebSocket.closeCodeOf f.payload).getD .normal) (WebSocket.closeReasonOf f.payload))
      revert hwrite
      dsimp only
      generalize s.write _ = written
      intro hwrite
      obtain ⟨s', frames⟩ := written
      cases hwrite with
      | nothing hsent hclosed => exact .nothing hsent hclosed
      | frame hopen hsendable hsent hclosed => exact .frame hopen hsendable hsent hclosed
    · exact .nothing rfl rfl
  · exact .nothing (complete_sent ..).1 (complete_sent ..).2
  · exact .nothing (complete_sent ..).1 (complete_sent ..).2
  · exact .nothing rfl rfl

/-- A slice has a length of 64 bits. -/
def Short : Move → Prop
  | .send _ data => data.length < 2 ^ 64
  | _ => True

/-- **What a move says.** -/
theorem act_spoke {move : Move} (hmove : Short move) (hframe : ∀ f ∈ s.queue, f.Sendable) :
    Spoke s (s.act move).1 (s.act move).2 := by
  cases move with
  | task =>
      show Spoke s s.advance.1 s.advance.2
      unfold advance
      split
      · exact .nothing rfl rfl
      · split
        · split
          · exact .nothing read_sent.1 read_sent.2
          · rename_i f hf
            refine handle_spoke (hframe f ?_)
            unfold queue
            rw [hf]
            exact List.mem_append_left _ List.mem_cons_self
        · exact .nothing rfl rfl
  | send type data =>
      show Spoke s (s.send type data).1 (s.send type data).2
      unfold Party.send
      split
      · exact .nothing rfl rfl
      · rename_i htype
        refine write_spoke (sendable_data ?_ hmove)
        cases type with
        | text => rfl
        | binary => rfl
        | _ => exact absurd ⟨nofun, nofun⟩ htype
  | ping data =>
      show Spoke s (s.ping data).1 (s.ping data).2
      unfold Party.ping
      split
      · exact .nothing rfl rfl
      · rename_i hlength
        exact write_spoke (sendable_control rfl (Nat.le_of_not_lt hlength))
  | close code reason => exact write_spoke (sendable_close code reason)

/-! ### What a move takes in -/

/-- What a move does with what an end is told: nothing on the way is lost unless `receive` fails, and who has been told
of the close has closed. -/
structure Listened (s s' : Party) : Prop where
  got : s.got <+: s'.got
  gone : s'.failed = true → s'.got = s.got
  kept : s'.failed = false → s.failed = false ∧ s'.got ++ s'.pending = s.got ++ s.pending
  queue : ∀ f ∈ s'.queue, f ∈ s.queue
  echoed : ∀ message ∈ s'.got, message.type = .close → message ∈ s.got ∨ s'.closed = true

theorem failed_of_finished (h : s.finished = false) : s.failed = false := by
  unfold finished at h
  rw [Bool.or_eq_false_iff] at h
  exact h.1

theorem listened_same (hgot : s'.got = s.got) (hfailed : s'.failed = s.failed) (hqueue : s'.queue = s.queue) :
    Listened s s' := by
  have hpending : s'.pending = s.pending := congrArg (List.flatMap Frame.spoken) hqueue
  refine ⟨hgot ▸ List.prefix_rfl, fun _ => hgot, fun h => ⟨hfailed ▸ h, by rw [hgot, hpending]⟩, fun f hf => hqueue ▸ hf, ?_⟩
  intro message hmem _
  exact .inl (hgot ▸ hmem)

theorem listened_fail (hgot : s'.got = s.got) (hfailed : s'.failed = true) (hqueue : ∀ f ∈ s'.queue, f ∈ s.queue) :
    Listened s s' := by
  refine ⟨hgot ▸ List.prefix_rfl, fun _ => hgot, fun h => absurd (hfailed.symm.trans h) (by decide), hqueue, ?_⟩
  intro message hmem _
  exact .inl (hgot ▸ hmem)

theorem mem_spoken_close {message : Message} (hmem : message ∈ f.spoken) (htype : message.type = .close) :
    f.opcode = .close := by
  unfold Frame.spoken at hmem
  split at hmem
  · obtain rfl := List.mem_singleton.mp hmem
    cases htype
  · obtain rfl := List.mem_singleton.mp hmem
    cases htype
  · assumption
  · cases hmem

theorem listened_done (hfine : s.failed = false) (hframe : s.frame = some f) (hframe' : s'.frame = none)
    (hinbox : s'.inbox = s.inbox) (hgot : s'.got = s.got ++ f.spoken) (hfailed : s'.failed = s.failed)
    (hclosed : f.opcode = .close → s'.closed = true) : Listened s s' := by
  have hqueue : s.queue = f :: s'.queue := by
    unfold queue
    rw [hframe, hframe', hinbox]
    rfl
  refine ⟨hgot ▸ List.prefix_append _ _, fun h => ?_, fun h => ⟨hfailed ▸ h, ?_⟩, fun g hg => ?_,
    fun message hmem htype => ?_⟩
  · cases hfine.symm.trans (hfailed.symm.trans h)
  · show s'.got ++ s'.queue.flatMap Frame.spoken = s.got ++ s.queue.flatMap Frame.spoken
    rw [hgot, hqueue, List.flatMap_cons, List.append_assoc]
  · rw [hqueue]
    exact List.mem_cons_of_mem _ hg
  · rw [hgot] at hmem
    rcases List.mem_append.mp hmem with hmem | hmem
    · exact .inl hmem
    · exact .inr (hclosed (mem_spoken_close hmem htype))

theorem queue_fail : ∀ f ∈ s.fail.queue, f ∈ s.queue := by
  intro f hf
  exact List.mem_append_right _ hf

theorem write_same (f : Frame) : (s.write f).1.got = s.got ∧ (s.write f).1.failed = s.failed ∧
    (s.write f).1.frame = s.frame ∧ (s.write f).1.inbox = s.inbox := by
  unfold write
  split
  · exact ⟨rfl, rfl, rfl, rfl⟩
  · exact ⟨rfl, rfl, rfl, rfl⟩

theorem write_nothing (h : s.speaks = false) (f : Frame) : s.write f = (s.turn, []) := by
  unfold write
  rw [h]
  exact if_neg Bool.false_ne_true

theorem write_listened (f : Frame) : Listened s (s.write f).1 := by
  obtain ⟨hgot, hfailed, hframe, hinbox⟩ := @write_same s f
  refine listened_same hgot hfailed ?_
  unfold queue
  rw [hframe, hinbox]

/-- Who gets the lock to write a close frame is closed afterwards. -/
theorem write_close (hfree : s.free = true) (payload : Bytes) : (s.write ⟨true, .close, payload⟩).1.closed = true := by
  unfold write
  split
  · rfl
  · rename_i hspeaks
    unfold speaks at hspeaks
    rw [hfree, Bool.true_and, Bool.not_eq_true', Bool.not_eq_false] at hspeaks
    exact hspeaks

theorem complete_listened {type : MessageType} (hfine : s.failed = false) (hframe : s.frame = some f)
    (hspoken : f.spoken = [{ type := type, data := f.payload }]) (hopcode : f.opcode ≠ .close) :
    Listened s (s.complete type f.payload) := by
  unfold complete verdict
  split
  · rename_i message hverdict
    split at hverdict
    · cases hverdict
    · cases hverdict
      exact listened_done hfine hframe rfl rfl (congrArg (s.got ++ ·) hspoken.symm) rfl fun h => absurd h hopcode
  · exact listened_fail rfl rfl queue_fail

theorem handle_listened (hfine : s.failed = false) (hframe : s.frame = some f) : Listened s (s.handle f).1 := by
  have hnothing : ∀ {opcode : MessageType}, f.opcode = opcode → opcode ≠ .text → opcode ≠ .binary → opcode ≠ .close →
      s.got = s.got ++ f.spoken := by
    intro opcode hopcode htext hbinary hclose
    unfold Frame.spoken
    rw [hopcode]
    cases opcode with
    | text => exact absurd rfl htext
    | binary => exact absurd rfl hbinary
    | close => exact absurd rfl hclose
    | _ => exact (List.append_nil _).symm
  unfold handle
  split
  · rename_i hping
    split
    · refine listened_done hfine hframe rfl rfl (hnothing hping nofun nofun nofun) rfl fun h => ?_
      cases hping.symm.trans h
    · exact listened_fail rfl rfl queue_fail
  · rename_i hpong
    refine listened_done hfine hframe rfl rfl (hnothing hpong nofun nofun nofun) rfl fun h => ?_
    cases hpong.symm.trans h
  · rename_i hclose
    split
    · rename_i hfree
      obtain ⟨hgot, hfailed, -, hinbox⟩ := @write_same s ⟨true, .close, closePayload
        ((WebSocket.closeCodeOf f.payload).getD .normal) (WebSocket.closeReasonOf f.payload)⟩
      refine listened_done hfine hframe rfl hinbox ?_ hfailed fun _ => write_close hfree _
      have hspoken : f.spoken = [WebSocket.closing f.payload] := by
        unfold Frame.spoken
        rw [hclose]
      show _ ++ [WebSocket.closing f.payload] = _
      rw [hgot, hspoken]
    · exact listened_fail rfl rfl queue_fail
  · rename_i htext
    show Listened s (s.complete .text f.payload)
    refine complete_listened hfine hframe ?_ fun h => by cases htext.symm.trans h
    unfold Frame.spoken
    rw [htext]
  · rename_i hbinary
    show Listened s (s.complete .binary f.payload)
    refine complete_listened hfine hframe ?_ fun h => by cases hbinary.symm.trans h
    unfold Frame.spoken
    rw [hbinary]
  · exact listened_fail rfl rfl queue_fail

theorem read_listened (hframe : s.frame = none) : Listened s s.read := by
  unfold read
  split
  · exact listened_same rfl rfl rfl
  · rename_i f rest hinbox
    split
    · exact listened_fail rfl rfl queue_fail
    · refine listened_same rfl rfl ?_
      unfold queue
      rw [hframe, hinbox]
      rfl

/-- **What a move takes in.** -/
theorem act_listened (move : Move) : Listened s (s.act move).1 := by
  cases move with
  | task =>
      show Listened s s.advance.1
      unfold advance
      split
      · exact listened_same rfl rfl rfl
      · rename_i hover
        have hfine : s.failed = false := failed_of_finished (eq_false_of_ne_true hover)
        split
        · split
          · rename_i hframe
            exact read_listened hframe
          · rename_i f hframe
            exact handle_listened hfine hframe
        · exact listened_same rfl rfl rfl
  | send type data =>
      show Listened s (s.send type data).1
      unfold Party.send
      split
      · exact listened_same rfl rfl rfl
      · exact write_listened _
  | ping data =>
      show Listened s (s.ping data).1
      unfold Party.ping
      split
      · exact listened_same rfl rfl rfl
      · exact write_listened _
  | close code reason => exact write_listened _

end moves

/-! ### Speaker and listener -/

/-- An end has sent a close message if it is closed, and nothing behind it. -/
def Parted (s : Party) : Prop :=
  (s.closed = false → ∀ message ∈ s.sent, message.type ≠ .close) ∧
    (s.closed = true → ∃ before last, s.sent = before ++ [last] ∧ last.type = .close ∧
      ∀ message ∈ before, message.type ≠ .close)

/-- The listener has got the first of the speaker's messages, and unless it has failed the others are on the way. -/
structure Linked (speaker listener : Party) : Prop where
  got : listener.got <+: speaker.sent
  pending : listener.failed = false → speaker.sent = listener.got ++ listener.pending
  parted : Parted speaker
  echoed : ∀ message ∈ listener.got, message.type = .close → listener.closed = true
  speaker : ∀ f ∈ speaker.queue, f.Sendable
  listener : ∀ f ∈ listener.queue, f.Sendable

section linked
variable {s s' r : Party} {frames : List Frame}

theorem Spoke.sent (h : Spoke s s' frames) : s'.sent = s.sent ++ frames.flatMap Frame.spoken := by
  cases h with
  | nothing hsent hclosed => rw [hsent, List.flatMap_nil, List.append_nil]
  | frame hopen hsendable hsent hclosed => rw [hsent, List.flatMap_singleton]

theorem Spoke.sendable (h : Spoke s s' frames) : ∀ f ∈ frames, f.Sendable := by
  cases h with
  | nothing hsent hclosed => exact nofun
  | frame hopen hsendable hsent hclosed =>
      intro f hf
      obtain rfl := List.mem_singleton.mp hf
      exact hsendable

theorem Spoke.closed (h : Spoke s s' frames) (hclosed : s.closed = true) : s'.closed = true := by
  cases h with
  | nothing hsent hsame => exact hsame.trans hclosed
  | frame hopen hsendable hsent hsame => cases hopen.symm.trans hclosed

theorem Spoke.parted (h : Spoke s s' frames) (hs : Parted s) : Parted s' := by
  cases h with
  | nothing hsent hclosed =>
      unfold Parted
      rw [hsent, hclosed]
      exact hs
  | @frame f hopen hsendable hsent hclosed =>
      have hbefore := hs.1 hopen
      by_cases hclose : f.opcode = .close
      · refine ⟨fun h => ?_, fun _ => ⟨s.sent, WebSocket.closing f.payload, ?_, rfl, hbefore⟩⟩
        · rw [hclosed, decide_eq_true hclose] at h
          cases h
        · rw [hsent]
          unfold Frame.spoken
          rw [hclose]
      · refine ⟨fun _ message hmem => ?_, fun h => ?_⟩
        · rw [hsent] at hmem
          rcases List.mem_append.mp hmem with hmem | hmem
          · exact hbefore message hmem
          · exact fun htype => hclose (mem_spoken_close hmem htype)
        · rw [hclosed, decide_eq_false hclose] at h
          cases h

theorem queue_hear (frames : List Frame) : (r.hear frames).queue = r.queue ++ frames :=
  (List.append_assoc ..).symm

theorem pending_hear (frames : List Frame) : (r.hear frames).pending = r.pending ++ frames.flatMap Frame.spoken := by
  show (r.hear frames).queue.flatMap Frame.spoken = r.queue.flatMap Frame.spoken ++ _
  rw [queue_hear, List.flatMap_append]

theorem sendable_hear (hr : ∀ f ∈ r.queue, f.Sendable) (hframes : ∀ f ∈ frames, f.Sendable) :
    ∀ f ∈ (r.hear frames).queue, f.Sendable := by
  intro f hf
  rw [queue_hear] at hf
  rcases List.mem_append.mp hf with hf | hf
  · exact hr f hf
  · exact hframes f hf

theorem Linked.speaks (h : Linked s r) {move : Move} (hmove : Short move) :
    Linked (s.act move).1 (r.hear (s.act move).2) := by
  have hspoke := act_spoke hmove h.speaker
  have hlistened := @act_listened s move
  refine ⟨?_, fun hfine => ?_, hspoke.parted h.parted, h.echoed, fun f hf => h.speaker f (hlistened.queue f hf),
    sendable_hear h.listener hspoke.sendable⟩
  · rw [hspoke.sent]
    exact h.got.trans (List.prefix_append _ _)
  · rw [hspoke.sent, pending_hear, h.pending hfine, List.append_assoc]
    rfl

theorem Linked.listens (h : Linked s r) {move : Move} (hmove : Short move) :
    Linked (s.hear (r.act move).2) (r.act move).1 := by
  have hspoke := act_spoke hmove h.listener
  have hlistened := @act_listened r move
  have hpending : (r.act move).1.failed = false → s.sent = (r.act move).1.got ++ (r.act move).1.pending := by
    intro hfine
    obtain ⟨hfine', hkept⟩ := hlistened.kept hfine
    rw [hkept]
    exact h.pending hfine'
  refine ⟨?_, hpending, h.parted, fun message hmem htype => ?_, sendable_hear h.speaker hspoke.sendable,
    fun f hf => h.listener f (hlistened.queue f hf)⟩
  · show (r.act move).1.got <+: s.sent
    cases hfailed : (r.act move).1.failed with
    | true =>
        rw [hlistened.gone hfailed]
        exact h.got
    | false => exact ⟨_, (hpending hfailed).symm⟩
  · rcases hlistened.echoed message hmem htype with hold | hnew
    · exact hspoke.closed (h.echoed message hold htype)
    · exact hnew

/-- **The order of the messages** is kept by whatever either end does. -/
theorem upholds_linked : Duplex.Upholds dialogue Short Linked where
  speaks hmove h := h.speaks hmove
  listens hmove h := h.listens hmove

end linked

/-! ### Coming to rest -/

/-- The task is done, or it waits for a frame. -/
def rests (self : Party) : Bool := self.finished || self.inside && self.frame.isNone && self.inbox.isEmpty

section rest
variable {s r : Party}

/-- **At rest** the listener has got all the messages there are, and is closed if the speaker is. -/
theorem Linked.at_rest (h : Linked s r) (hrest : r.rests = true) (hfine : r.failed = false) :
    r.got = s.sent ∧ (s.closed = true → r.closed = true ∧ ∃ before last, r.got = before ++ [last] ∧ last.type = .close) := by
  have hsent := h.pending hfine
  have hall : r.got = s.sent := by
    unfold rests finished at hrest
    rw [hfine, Bool.false_or, Bool.or_eq_true] at hrest
    rcases hrest with hclose | hwait
    · obtain ⟨message, hmem, htype⟩ := List.any_eq_true.mp hclose
      rw [decide_eq_true_eq] at htype
      have hclosed : s.closed = true := by
        by_contra hopen
        refine h.parted.1 (eq_false_of_ne_true hopen) message ?_ htype
        rw [hsent]
        exact List.mem_append_left _ hmem
      obtain ⟨before, last, heq, -, hbefore⟩ := h.parted.2 hclosed
      have hpart : r.got <+: before ++ [last] := heq ▸ h.got
      rcases List.prefix_concat_iff.mp hpart with hwhole | hshort
      · rw [hwhole, heq]
      · exact absurd htype (hbefore message (hshort.subset hmem))
    · rw [Bool.and_eq_true, Bool.and_eq_true, Option.isNone_iff_eq_none, List.isEmpty_iff] at hwait
      obtain ⟨⟨-, hframe⟩, hinbox⟩ := hwait
      rw [hsent]
      unfold Party.pending
      rw [hframe, hinbox]
      exact (List.append_nil _).symm
  refine ⟨hall, fun hclosed => ?_⟩
  obtain ⟨before, last, heq, htype, -⟩ := h.parted.2 hclosed
  have hgot : r.got = before ++ [last] := hall.trans heq
  refine ⟨h.echoed last ?_ htype, before, last, hgot, htype⟩
  rw [hgot]
  exact List.mem_append_right _ List.mem_cons_self

/-- What a frame costs the tasks: it is read and handled, a message is asked for again, and a ping is answered. -/
def frameCost (f : Frame) : ℕ :=
  match f.opcode with
  | .ping => 4
  | .pong => 2
  | .close => 2
  | _ => 3

/-- What the task has yet to do. -/
def work (self : Party) : ℕ :=
  (self.queue.map frameCost).sum + (if self.inside then 0 else 1) + (if self.frame.isNone then 1 else 0)

/-- A bound for the steps of the task; an end that is not closed may have a close frame to answer. -/
def cost (self : Party) : ℕ := (if self.finished then 0 else self.work) + (if self.closed then 0 else 2)

theorem cost_le : s.cost ≤ s.work + (if s.closed then 0 else 2) := by
  unfold cost
  split
  · omega
  · exact Nat.le_refl _

theorem cost_finished (h : s.finished = true) : s.cost = if s.closed then 0 else 2 := by
  unfold cost
  rw [if_pos h, Nat.zero_add]

theorem cost_hear (r : Party) (frames : List Frame) : (r.hear frames).cost ≤ r.cost + (frames.map frameCost).sum := by
  have hwork : (r.hear frames).work = r.work + (frames.map frameCost).sum := by
    unfold work
    rw [queue_hear, List.map_append, List.sum_append]
    show _ + _ + (if r.inside then 0 else 1) + (if r.frame.isNone then 1 else 0) = _
    omega
  have hover : (r.hear frames).finished = r.finished := rfl
  unfold cost
  rw [hover, hwork]
  show (if r.finished then 0 else _) + (if r.closed then 0 else 2) ≤ _
  split <;> omega

theorem two_le_frameCost (f : Frame) : 2 ≤ frameCost f := by
  unfold frameCost
  split <;> decide

/-- The step costs more than what it leaves to be done. -/
def Lowers (s : Party) (step : Party × List Frame) : Prop :=
  step.1.cost + (step.2.map frameCost).sum < s.work + if s.closed then 0 else 2

theorem work_frame {f : Frame} (hframe : s.frame = some f) (hinside : s.inside = true) :
    s.work = frameCost f + (s.inbox.map frameCost).sum := by
  unfold work queue
  rw [hframe, hinside]
  rfl

theorem lowers_fail {s' : Party} (hwork : 2 ≤ s.work) (hclosed : s'.closed = s.closed) (hfailed : s'.failed = true) :
    Lowers s (s', []) := by
  have hover : s'.finished = true := by
    unfold finished
    rw [hfailed, Bool.true_or]
  unfold Lowers
  rw [cost_finished hover, hclosed]
  show (if s.closed then 0 else 2) + 0 < _
  omega

theorem lowers_work {s' : Party} (hwork : s'.work < s.work) (hclosed : s'.closed = s.closed) : Lowers s (s', []) := by
  have hcost := @cost_le s'
  unfold Lowers
  rw [hclosed] at hcost
  show s'.cost + 0 < _
  omega

theorem complete_lowers {type : MessageType} {f : Frame} (hframe : s.frame = some f) (hinside : s.inside = true)
    (hcost : frameCost f = 3) : Lowers s (s.complete type f.payload, []) := by
  have hwork := work_frame hframe hinside
  unfold complete
  split
  · refine lowers_work ?_ rfl
    rw [hwork, hcost]
    show (s.inbox.map frameCost).sum + 1 + 1 < _
    omega
  · exact lowers_fail (by omega) rfl rfl

theorem handle_lowers {f : Frame} (hframe : s.frame = some f) (hinside : s.inside = true) : Lowers s (s.handle f) := by
  have hwork := work_frame hframe hinside
  have htwo := two_le_frameCost f
  unfold handle
  split
  · rename_i hping
    split
    · have hcost : frameCost f = 4 := by
        unfold frameCost
        rw [hping]
      have hle := @cost_le { s.turn with frame := none }
      have hless : Party.work { s.turn with frame := none } = (s.inbox.map frameCost).sum + 1 := by
        unfold work
        show (s.inbox.map frameCost).sum + (if s.inside then 0 else 1) + 1 = _
        rw [hinside]
        rfl
      unfold Lowers
      rw [hless] at hle
      rw [hwork, hcost]
      show Party.cost { s.turn with frame := none } + 2 < _
      change _ ≤ _ + (if s.closed then 0 else 2) at hle
      omega
    · exact lowers_fail (by omega) rfl rfl
  · rename_i hpong
    refine lowers_work ?_ rfl
    rw [hwork]
    unfold work
    show (s.inbox.map frameCost).sum + (if s.inside then 0 else 1) + 1 < _
    rw [hinside]
    show (s.inbox.map frameCost).sum + 0 + 1 < _
    omega
  · split
    · rename_i hfree
      have hclosed := write_close hfree (closePayload ((WebSocket.closeCodeOf f.payload).getD .normal)
        (WebSocket.closeReasonOf f.payload))
      have hframes : (((s.write ⟨true, .close, closePayload ((WebSocket.closeCodeOf f.payload).getD .normal)
          (WebSocket.closeReasonOf f.payload)⟩).2.map frameCost).sum ≤ if s.closed then 0 else 2) := by
        unfold write speaks
        split
        · rename_i hspeaks
          rw [Bool.and_eq_true, Bool.not_eq_true'] at hspeaks
          rw [hspeaks.2]
          exact Nat.le_refl 2
        · exact Nat.zero_le _
      revert hclosed hframes
      dsimp only
      generalize s.write _ = written
      intro hclosed hframes
      have hover : (written.1.deliver (WebSocket.closing f.payload)).finished = true := by
        unfold finished
        rw [Bool.or_eq_true]
        exact .inr (List.any_eq_true.mpr ⟨_, List.mem_append_right _ List.mem_cons_self, rfl⟩)
      unfold Lowers
      rw [cost_finished hover]
      show (if written.1.closed then 0 else 2) + _ < _
      rw [hclosed, if_pos rfl]
      show 0 + (written.2.map frameCost).sum < _
      omega
    · exact lowers_fail (by omega) rfl rfl
  · rename_i htext
    refine complete_lowers hframe hinside ?_
    unfold frameCost
    rw [htext]
  · rename_i hbinary
    refine complete_lowers hframe hinside ?_
    unfold frameCost
    rw [hbinary]
  · exact lowers_fail (by omega) rfl rfl

theorem read_lowers (hframe : s.frame = none) {f : Frame} {rest : List Frame} (hinbox : s.inbox = f :: rest) :
    Lowers s (s.read, []) := by
  have htwo := two_le_frameCost f
  have hwork : s.work = frameCost f + (rest.map frameCost).sum + (if s.inside then 0 else 1) + 1 := by
    unfold work queue
    rw [hframe, hinbox]
    rfl
  unfold read
  rw [hinbox]
  dsimp only
  split
  · exact lowers_fail (by omega) rfl rfl
  · refine lowers_work ?_ rfl
    rw [hwork]
    show frameCost f + (rest.map frameCost).sum + (if s.inside then 0 else 1) + 0 < _
    omega

/-- **A step of a task** that does not rest leaves less to be done. -/
theorem advance_lowers (hbusy : s.rests = false) : s.advance.1.cost + (s.advance.2.map frameCost).sum < s.cost := by
  unfold rests at hbusy
  rw [Bool.or_eq_false_iff] at hbusy
  obtain ⟨hover, hwait⟩ := hbusy
  suffices h : Lowers s s.advance by
    unfold Lowers at h
    unfold cost at h ⊢
    rw [hover]
    exact h
  unfold advance
  rw [hover, if_neg Bool.false_ne_true]
  cases hinside : s.inside with
  | false =>
      rw [if_neg Bool.false_ne_true]
      refine lowers_work ?_ rfl
      unfold work
      rw [hinside]
      show (s.queue.map frameCost).sum + 0 + (if s.frame.isNone then 1 else 0) <
        (s.queue.map frameCost).sum + 1 + if s.frame.isNone then 1 else 0
      omega
  | true =>
      rw [if_pos rfl]
      cases hframe : s.frame with
      | none =>
          cases hinbox : s.inbox with
          | nil =>
              rw [hinside, hframe, hinbox] at hwait
              cases hwait
          | cons f rest => exact read_lowers hframe hinbox
      | some f => exact handle_lowers hframe hinside

theorem idle_of_rests (h : s.rests = true) : Duplex.Idle dialogue .task s := by
  have hadvance : s.advance = (s, []) := by
    unfold advance
    split
    · rfl
    · rename_i hover
      unfold rests at h
      rw [eq_false_of_ne_true hover, Bool.false_or, Bool.and_eq_true, Bool.and_eq_true, Option.isNone_iff_eq_none,
        List.isEmpty_iff] at h
      obtain ⟨⟨hinside, hframe⟩, hinbox⟩ := h
      rw [hinside, if_pos rfl, hframe]
      dsimp only
      unfold read
      rw [hinbox]
  exact ⟨congrArg Prod.fst hadvance, congrArg Prod.snd hadvance⟩

theorem rests_of_idle (h : Duplex.Idle dialogue .task s) : s.rests = true := by
  by_contra hbusy
  have hlower := advance_lowers (eq_false_of_ne_true hbusy)
  obtain ⟨hstep, hsaid⟩ := h
  have hstep' : s.advance.1 = s := hstep
  rw [hstep'] at hlower
  omega

/-- **The tasks tire**: whatever one of them does, less is left to be done. -/
theorem tires : Duplex.Tires dialogue .task cost where
  silent s := by
    show { s with inbox := s.inbox ++ [] } = s
    rw [List.append_nil]
  lower := by
    intro s hbusy r
    have hnot : s.rests = false := eq_false_of_ne_true fun hrest => hbusy (idle_of_rests hrest)
    have hlower := advance_lowers hnot
    have hheard := cost_hear r s.advance.2
    show s.advance.1.cost + (r.hear s.advance.2).cost < _
    omega

end rest

/-! ### Why a task fails -/

/-- The end takes the message. -/
def Takes (self : Party) (message : Message) : Prop :=
  message.data.length ≤ self.limit ∧ (message.type = .text → utf8ValidateSlice message.data = true)

section reasons
variable {s s' r : Party}

/-- The limit stays, and nobody is cancelled who was not to be. -/
def Tied (s s' : Party) : Prop := s'.limit = s.limit ∧ (s.cancels = [] → s'.cancels = [])

theorem tied_turn : Tied s s.turn := by
  refine ⟨rfl, fun h => ?_⟩
  show s.cancels.tail = []
  rw [h]
  rfl

theorem write_tied (f : Frame) : Tied s (s.write f).1 := by
  unfold write
  split
  · exact ⟨rfl, (@tied_turn s).2⟩
  · exact ⟨rfl, (@tied_turn s).2⟩

theorem complete_tied (type : MessageType) (data : Bytes) : Tied s (s.complete type data) := by
  unfold complete
  split
  · exact ⟨rfl, id⟩
  · exact ⟨rfl, id⟩

theorem handle_tied (f : Frame) : Tied s (s.handle f).1 := by
  unfold handle
  split
  · split
    · exact ⟨rfl, (@tied_turn s).2⟩
    · exact ⟨rfl, (@tied_turn s).2⟩
  · exact ⟨rfl, id⟩
  · split
    · exact write_tied _
    · exact ⟨rfl, (@tied_turn s).2⟩
  · exact complete_tied ..
  · exact complete_tied ..
  · exact ⟨rfl, id⟩

theorem read_tied : Tied s s.read := by
  unfold read
  split
  · exact ⟨rfl, id⟩
  · split
    · exact ⟨rfl, id⟩
    · exact ⟨rfl, id⟩

theorem act_tied (move : Move) : Tied s (s.act move).1 := by
  cases move with
  | task =>
      show Tied s s.advance.1
      unfold advance
      split
      · exact ⟨rfl, id⟩
      · split
        · split
          · exact read_tied
          · exact handle_tied _
        · exact ⟨rfl, id⟩
  | send type data =>
      show Tied s (s.send type data).1
      unfold Party.send
      split
      · exact ⟨rfl, id⟩
      · exact write_tied _
  | ping data =>
      show Tied s (s.ping data).1
      unfold Party.ping
      split
      · exact ⟨rfl, id⟩
      · exact write_tied _
  | close code reason => exact write_tied _

theorem free_of_cancels (h : s.cancels = []) : s.free = true := by
  unfold free
  rw [h]
  rfl

/-- What stops an end that reads a frame or has it in hand. -/
def Stops (s : Party) : Prop := s.closed = true ∨ ∃ message ∈ s.pending, ¬s.Takes message

theorem spoken_data {f : Frame} (hf : f.opcode.isData = true) :
    f.spoken = [{ type := f.opcode, data := f.payload }] := by
  unfold Frame.spoken
  cases hopcode : f.opcode with
  | text => rfl
  | binary => rfl
  | _ => cases (congrArg MessageType.isData hopcode).symm.trans hf

theorem mem_pending {f : Frame} {message : Message} (hf : f ∈ s.queue) (hmem : message ∈ f.spoken) :
    message ∈ s.pending := List.mem_flatMap_of_mem hf hmem

theorem complete_stops {f : Frame} {type : MessageType} (hfine : s.failed = false) (hf : f ∈ s.queue)
    (hopcode : f.opcode = type) (hdata : type.isData = true) (hfailed : (s.complete type f.payload).failed = true) :
    Stops s := by
  unfold complete verdict at hfailed
  split at hfailed
  · cases hfine.symm.trans hfailed
  · rename_i error hverdict
    split at hverdict
    · rename_i hbad
      have hspoken := spoken_data (hopcode ▸ hdata)
      refine .inr ⟨_, mem_pending hf (hspoken ▸ List.mem_cons_self), fun htakes => ?_⟩
      have hgood := htakes.2 (hopcode.trans hbad.1)
      cases hbad.2.symm.trans hgood
    · cases hverdict

theorem handle_stops {f : Frame} (hfine : s.failed = false) (hfree : s.free = true) (hf : f ∈ s.queue)
    (hsendable : f.Sendable) (hfailed : (s.handle f).1.failed = true) : Stops s := by
  unfold handle at hfailed
  split at hfailed
  · split at hfailed
    · cases hfine.symm.trans hfailed
    · rename_i hspeaks
      unfold speaks at hspeaks
      rw [hfree, Bool.true_and, Bool.not_eq_true', Bool.not_eq_false] at hspeaks
      exact .inl hspeaks
  · cases hfine.symm.trans hfailed
  · rw [if_pos hfree] at hfailed
    have hsame := (@write_same s ⟨true, .close, closePayload ((WebSocket.closeCodeOf f.payload).getD .normal)
      (WebSocket.closeReasonOf f.payload)⟩).2.1
    cases hfine.symm.trans (hsame.symm.trans hfailed)
  · rename_i htext
    exact complete_stops hfine hf htext rfl hfailed
  · rename_i hbinary
    exact complete_stops hfine hf hbinary rfl hfailed
  · rename_i hping hpong hclose htext hbinary
    rcases hsendable.opcode with hcontrol | hdata
    · cases hopcode : f.opcode with
      | ping => exact absurd hopcode hping
      | pong => exact absurd hopcode hpong
      | close => exact absurd hopcode hclose
      | _ => cases (congrArg MessageType.isControl hopcode).symm.trans hcontrol
    · cases hopcode : f.opcode with
      | text => exact absurd hopcode htext
      | binary => exact absurd hopcode hbinary
      | _ => cases (congrArg MessageType.isData hopcode).symm.trans hdata

theorem read_stops (hfine : s.failed = false) (hlimit : 125 ≤ s.limit) (hsendable : ∀ f ∈ s.queue, f.Sendable)
    (hfailed : s.read.failed = true) : Stops s := by
  unfold read at hfailed
  split at hfailed
  · cases hfine.symm.trans hfailed
  · rename_i f rest hinbox
    have hf : f ∈ s.queue := by
      unfold queue
      rw [hinbox]
      exact List.mem_append_right _ List.mem_cons_self
    split at hfailed
    · rename_i hlarge
      rcases (hsendable f hf).opcode with hcontrol | hdata
      · have hsmall := (hsendable f hf).control hcontrol
        omega
      · have hspoken := spoken_data hdata
        refine .inr ⟨_, mem_pending hf (hspoken ▸ List.mem_cons_self), fun htakes => ?_⟩
        exact absurd htakes.1 (Nat.not_le.mpr hlarge)
    · cases hfine.symm.trans hfailed

theorem act_stops {move : Move} (hfine : s.failed = false) (hcancels : s.cancels = []) (hlimit : 125 ≤ s.limit)
    (hsendable : ∀ f ∈ s.queue, f.Sendable) (hfailed : (s.act move).1.failed = true) : Stops s := by
  have hwrite : ∀ f, (s.write f).1.failed = true → Stops s := by
    intro f hf
    cases hfine.symm.trans ((@write_same s f).2.1.symm.trans hf)
  cases move with
  | task =>
      replace hfailed : s.advance.1.failed = true := hfailed
      unfold advance at hfailed
      split at hfailed
      · cases hfine.symm.trans hfailed
      · split at hfailed
        · split at hfailed
          · exact read_stops hfine hlimit hsendable hfailed
          · rename_i f hframe
            have hf : f ∈ s.queue := by
              unfold queue
              rw [hframe]
              exact List.mem_append_left _ List.mem_cons_self
            exact handle_stops hfine (free_of_cancels hcancels) hf (hsendable f hf) hfailed
        · cases hfine.symm.trans hfailed
  | send type data =>
      replace hfailed : (s.send type data).1.failed = true := hfailed
      unfold Party.send at hfailed
      split at hfailed
      · cases hfine.symm.trans hfailed
      · exact hwrite _ hfailed
  | ping data =>
      replace hfailed : (s.ping data).1.failed = true := hfailed
      unfold Party.ping at hfailed
      split at hfailed
      · cases hfine.symm.trans hfailed
      · exact hwrite _ hfailed
  | close code reason => exact hwrite _ hfailed

/-- The listener has failed only because it is closed or because it was sent what it does not take. -/
structure Blamed (speaker listener : Party) : Prop where
  linked : Linked speaker listener
  cancels : listener.cancels = []
  limit : 125 ≤ listener.limit
  reason : listener.failed = true → listener.closed = true ∨ ∃ message ∈ speaker.sent, ¬listener.Takes message

theorem Tied.takes (h : Tied s s') {message : Message} : s'.Takes message ↔ s.Takes message := by
  unfold Takes
  rw [h.1]

theorem Blamed.speaks (h : Blamed s r) {move : Move} (hmove : Short move) :
    Blamed (s.act move).1 (r.hear (s.act move).2) := by
  refine ⟨h.linked.speaks hmove, h.cancels, h.limit, fun hfailed => (h.reason hfailed).imp_right ?_⟩
  rintro ⟨message, hmem, htakes⟩
  refine ⟨message, ?_, htakes⟩
  rw [(act_spoke hmove h.linked.speaker).sent]
  exact List.mem_append_left _ hmem

theorem Blamed.listens (h : Blamed s r) {move : Move} (hmove : Short move) :
    Blamed (s.hear (r.act move).2) (r.act move).1 := by
  have htied := @act_tied r move
  have hclosed := (act_spoke hmove h.linked.listener).closed
  refine ⟨h.linked.listens hmove, htied.2 h.cancels, htied.1.symm ▸ h.limit, fun hfailed => ?_⟩
  show _ ∨ ∃ message ∈ s.sent, ¬(r.act move).1.Takes message
  simp only [htied.takes]
  cases hfine : r.failed with
  | true => exact (h.reason hfine).imp_left hclosed
  | false =>
      rcases act_stops hfine h.cancels h.limit h.linked.listener hfailed with hshut | ⟨message, hmem, htakes⟩
      · exact .inl (hclosed hshut)
      · refine .inr ⟨message, ?_, htakes⟩
        rw [h.linked.pending hfine]
        exact List.mem_append_right _ hmem

theorem upholds_blamed : Duplex.Upholds dialogue Short Blamed where
  speaks hmove h := h.speaks hmove
  listens hmove h := h.listens hmove

end reasons
end Party
end Dusty
