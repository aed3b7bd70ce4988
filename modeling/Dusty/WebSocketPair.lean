import Dusty.Dialogue

/-! # Two endpoints on a connection

The client and the server of a WebSocket on one connection: what one of them has flushed the other reads, and a task
that reads waits as long as nothing has arrived.  Any number of callers send, ping and close at either end, in any order
and between any two steps of the tasks, and may be cancelled when they ask for the lock.  The endpoints do what the
dialogue of frames does (`simulates`); so messages arrive whole, once and in order (`in_order`), the tasks
come to rest with everything received and both ends closed or none (`settles`), and a task fails only behind a close of
its own or when it is sent what it does not take (`fails_only`). -/

namespace Dusty

open Act WireFrame Duplex

theorem Carries.append {isClient : Bool} {xs ys : List Frame} {b₁ b₂ : Bytes} (h : Carries isClient xs b₁)
    (h' : Carries isClient ys b₂) : Carries isClient (xs ++ ys) (b₁ ++ b₂) := by
  induction h with
  | nil => exact h'
  | cons haccepted hshort hrest ih =>
      rw [List.append_assoc]
      exact .cons haccepted hshort ih

theorem Carries.isEmpty_eq {isClient : Bool} {frames : List Frame} {bytes : Bytes} (h : Carries isClient frames bytes) :
    bytes.isEmpty = frames.isEmpty := by
  cases h with
  | nil => rfl
  | cons haccepted hshort hrest => rfl

/-- The client is the left party. -/
def isClientRole : Role → Bool
  | .left => true
  | .right => false

/-- An endpoint: the receiving task, and the messages its callers have sent. -/
structure Peer where
  task : Receiver
  sent : List Message := []

namespace Peer

open WebSocket

def ws (self : Peer) : WebSocket := self.task.ws

/-- A call tells the peer a message if it returns and the socket was open. -/
def told (ws : WebSocket) (x : Act WebSocket Unit) (message : Message) : List Message :=
  if returns x ws && !ws.closed then [message] else []

/-- The message a close is for the peer. -/
def farewell (code : CloseCode) (reason : Bytes) : Message :=
  { type := .close, data := reason.take 123, closeCode := some code }

/-- The frame the task handles in its next step. -/
def handles (self : Peer) : Option Frame :=
  if self.task.finished then none else if self.task.inside then self.task.frame else none

/-- What a move tells the peer. -/
def tells (self : Peer) : Move → List Message
  | .task =>
      match self.handles with
      | none => []
      | some f =>
          if f.opcode = .close then
            told self.ws (writeClose ((closeCodeOf f.payload).getD .normal) (closeReasonOf f.payload))
              (farewell ((closeCodeOf f.payload).getD .normal) (closeReasonOf f.payload))
          else []
  | .send type data => told self.ws (WebSocket.send type data) { type := type, data := data }
  | .ping _ => []
  | .close code reason => told self.ws (WebSocket.close code reason) (farewell code reason)

/-- The task reads, and nothing has arrived. -/
def waits (self : Peer) : Bool :=
  !self.task.finished && self.task.inside && self.task.frame.isNone && self.ws.incoming.isEmpty

/-- A move; a task that waits makes none. -/
def step (move : Move) (self : Peer) : Peer :=
  if move = .task ∧ self.waits = true then self else ⟨self.task.exec move, self.sent ++ self.tells move⟩

/-- What was flushed from one state to another. -/
def handed (w w' : WebSocket) : Bytes := (w'.conn.out.take w'.conn.flushed).drop w.conn.flushed

/-- Bytes arrive. -/
def hear (bytes : Bytes) (self : Peer) : Peer :=
  { self with task := self.task.setWs (self.ws.setIncoming (self.ws.incoming ++ bytes)) }

end Peer

/-- How an endpoint behaves. -/
def peer : Behaviour Peer Move UInt8 where
  step := Peer.step
  said move self := Peer.handed self.ws (self.step move).ws
  hear := Peer.hear

namespace WebSocket

/-! ### A frame is written -/

/-- A task has asked for the lock. -/
def unlocked (self : WebSocket) : WebSocket := { self with cancels := self.cancels.tail }

/-- An open socket on a transport that works, or a closed one, is that of a party, and so are the bytes on the way to
it. -/
structure Models (isClient : Bool) (w : WebSocket) (p : Party) : Prop where
  role : w.isClient = isClient
  faults : w.conn.faults = []
  flushed : w.conn.flushed = w.conn.out.length
  limit : w.maxMessageSize.toNat = p.limit
  closed : w.closed = p.closed
  cancels : w.cancels = p.cancels
  incoming : p.failed = false → Dusty.Carries isClient p.inbox w.incoming

/-- What an endpoint hears. -/
def Heard (isClient : Bool) (bytes : Bytes) (frames : List Frame) : Prop :=
  Dusty.Carries isClient frames bytes ∧ ∀ f ∈ frames, f.Sendable

section models
variable {isClient : Bool} {w w' : WebSocket} {p : Party}

theorem lock_run (w : WebSocket) :
    lock w = if w.cancels.head? = some true then .error (.err .canceled) w.unlocked else .ok () w.unlocked := by
  rw [lock, bind_ok (get_run w), bind_ok (modify_run ..)]
  split
  · rfl
  · rfl

theorem Models.unlocked (h : Models isClient w p) : Models isClient w.unlocked p.turn := by
  refine ⟨h.role, h.faults, h.flushed, h.limit, h.closed, ?_, h.incoming⟩
  exact congrArg List.tail h.cancels

theorem Models.wrote (h : Models isClient w p) {bytes : Bytes} (hwrote : Wrote w bytes w')
    (hflushed : w'.conn.flushed = w'.conn.out.length) :
    Models isClient w' p ∧ Peer.handed w w' = bytes := by
  have hsame := hwrote.same
  refine ⟨⟨?_, hwrote.faults h.faults, hflushed, ?_, ?_, ?_, fun hfine => ?_⟩, ?_⟩
  · rw [hsame]
    exact h.role
  · rw [hsame]
    exact h.limit
  · rw [hsame]
    exact h.closed
  · rw [hsame]
    exact h.cancels
  · rw [hsame]
    exact h.incoming hfine
  · unfold Peer.handed
    rw [hflushed, List.take_length, h.flushed, hwrote.out, List.drop_left]

theorem Models.congr {p' : Party} (h : Models isClient w p) (hlimit : p'.limit = p.limit) (hclosed : p'.closed = p.closed)
    (hcancels : p'.cancels = p.cancels) (hinbox : p'.failed = false → p.failed = false ∧ p'.inbox = p.inbox) :
    Models isClient w p' := by
  refine ⟨h.role, h.faults, h.flushed, h.limit.trans hlimit.symm, h.closed.trans hclosed.symm,
    h.cancels.trans hcancels.symm, fun hfine => ?_⟩
  obtain ⟨hfine', hsame⟩ := hinbox hfine
  rw [hsame]
  exact h.incoming hfine'

theorem Models.responded (h : Models isClient w p) : Models isClient w.markResponded p :=
  ⟨h.role, h.faults, h.flushed, h.limit, h.closed, h.cancels, h.incoming⟩

theorem Models.silent (h : Models isClient w p) (hconn : w'.conn = w.conn) : Peer.handed w w' = [] := by
  unfold Peer.handed
  rw [hconn, h.flushed, List.take_length, List.drop_length]

theorem heard_nil : Heard isClient [] [] := ⟨.nil, nofun⟩

theorem heard_frame (hrole : w.isClient = isClient) {type : MessageType} {data : Bytes}
    (hf : Frame.Sendable ⟨true, type, data⟩) :
    Heard (!isClient) (w.frameOf type data true).bytes [⟨true, type, data⟩] := by
  have hrole' : (!isClient) = !w.isClient := by rw [hrole]
  refine ⟨?_, fun f hmem => ?_⟩
  · have haccepted : Accepted (!isClient) (w.frameOf type data true) := by
      refine ⟨rfl, ?_, hf.control⟩
      rw [hrole']
      unfold frameOf
      cases w.isClient <;> rfl
    have hcarries := Dusty.Carries.cons (f := ⟨true, type, data⟩) haccepted hf.short Dusty.Carries.nil
    rw [List.append_nil] at hcarries
    exact hcarries
  · obtain rfl := List.mem_singleton.mp hmem
    exact hf

theorem free_iff (h : Models isClient w p) : p.free = true ↔ ¬w.cancels.head? = some true := by
  unfold Party.free
  rw [decide_eq_true_eq, h.cancels]

/-- What has come of an attempt to write a frame. -/
structure Written (isClient : Bool) (w : WebSocket) (x : Act WebSocket Unit) (good : Bool)
    (outcome : Party × List Frame) : Prop where
  models : Models isClient (final x w) outcome.1
  heard : Heard (!isClient) (Peer.handed w (final x w)) outcome.2
  returns : returns x w = good
  error : good = false → ∃ e, x w = .error (.err e) (final x w)

theorem Written.ok {x : Act WebSocket Unit} {outcome : Party × List Frame} (h : Written isClient w x true outcome) :
    x w = .ok () (final x w) := by
  obtain ⟨u, w', hrun⟩ := returns_iff.mp h.returns
  rw [final_of_ok hrun]
  exact hrun

/-- The lock was not to be had, or the socket is closed: nothing is written. -/
theorem written_nothing (h : Models isClient w p) {x : Act WebSocket Unit} {e : Error}
    (hrun : x w = .error (.err e) w.unlocked) : Written isClient w x false (p.turn, []) := by
  have hfinal : final x w = w.unlocked := final_of_error hrun
  refine ⟨hfinal ▸ h.unlocked, ?_, ?_, fun _ => ⟨e, hfinal ▸ hrun⟩⟩
  · rw [hfinal, h.silent (show w.unlocked.conn = w.conn from rfl)]
    exact heard_nil
  · unfold returns
    rw [hrun]

/-- **A frame is written** if the lock is free and the socket is open. -/
theorem written_writeFrame (h : Models isClient w p) {type : MessageType} {data : Bytes}
    (hf : Frame.Sendable ⟨true, type, data⟩) (hclose : type ≠ .close) :
    Written isClient w (writeFrame type data true) p.speaks (p.write ⟨true, type, data⟩) := by
  have hlock := lock_run w
  by_cases hcancel : w.cancels.head? = some true
  · rw [if_pos hcancel] at hlock
    have hspeaks : p.speaks = false := by
      unfold Party.speaks
      rw [eq_false_of_ne_true fun hfree => (free_iff h).mp hfree hcancel, Bool.false_and]
    rw [Party.write_nothing hspeaks, hspeaks]
    exact written_nothing h (bind_error hlock)
  · rw [if_neg hcancel] at hlock
    have hfree := (free_iff h).mpr hcancel
    have hrun : writeFrame type data true w = (if w.closed then fail .endOfStream else writeFrameLocked type data true)
        w.unlocked := by
      unfold writeFrame
      rw [bind_ok hlock, bind_ok (get_run _)]
      rfl
    cases hclosed : w.closed with
    | true =>
        rw [hclosed, if_pos rfl] at hrun
        have hspeaks : p.speaks = false := by
          unfold Party.speaks
          rw [← h.closed, hclosed, Bool.not_true, Bool.and_false]
        rw [Party.write_nothing hspeaks, hspeaks]
        exact written_nothing h hrun
    | false =>
        rw [hclosed, if_neg Bool.false_ne_true] at hrun
        have hspeaks : p.speaks = true := by
          unfold Party.speaks
          rw [hfree, ← h.closed, hclosed]
          rfl
        obtain ⟨w', hwrite, hwrote, hflushed⟩ := writeFrameLocked_works h.unlocked.faults type data true
        obtain ⟨hmodels, hhanded⟩ := h.unlocked.wrote hwrote hflushed
        have hfinal : final (writeFrame type data true) w = w' := final_of_ok (hrun.trans hwrite)
        rw [hspeaks]
        unfold Party.write
        rw [hspeaks, if_pos rfl]
        refine ⟨?_, ?_, returns_iff.mpr ⟨(), w', hrun.trans hwrite⟩, nofun⟩
        · rw [hfinal]
          refine ⟨hmodels.role, hmodels.faults, hmodels.flushed, hmodels.limit, ?_, hmodels.cancels, hmodels.incoming⟩
          rw [hmodels.closed]
          show p.closed = decide (type = .close)
          rw [decide_eq_false hclose, ← h.closed, hclosed]
        · rw [hfinal]
          show Heard (!isClient) (Peer.handed w.unlocked w') _
          rw [hhanded]
          exact heard_frame h.role hf

/-- **A close frame is written** if the socket is open. -/
theorem written_writeClose (h : Models isClient w p) (code : CloseCode) (reason : Bytes) :
    Written isClient w (writeClose code reason) p.free (p.write ⟨true, .close, closePayload code reason⟩) := by
  have hlock := lock_run w
  by_cases hcancel : w.cancels.head? = some true
  · rw [if_pos hcancel] at hlock
    have hfree : p.free = false := eq_false_of_ne_true fun hfree => (free_iff h).mp hfree hcancel
    have hspeaks : p.speaks = false := by
      unfold Party.speaks
      rw [hfree, Bool.false_and]
    rw [Party.write_nothing hspeaks, hfree]
    exact written_nothing h (bind_error hlock)
  · rw [if_neg hcancel] at hlock
    have hfree := (free_iff h).mpr hcancel
    have hrun : writeClose code reason w = (if w.closed then pure () else do
        modify markClosed
        writeFrameLocked .close (closePayload code reason) true) w.unlocked := by
      unfold writeClose
      rw [bind_ok hlock, bind_ok (get_run _)]
      rfl
    rw [hfree]
    cases hclosed : w.closed with
    | true =>
        rw [hclosed, if_pos rfl] at hrun
        have hspeaks : p.speaks = false := by
          unfold Party.speaks
          rw [← h.closed, hclosed, Bool.not_true, Bool.and_false]
        have hfinal : final (writeClose code reason) w = w.unlocked := final_of_ok hrun
        rw [Party.write_nothing hspeaks]
        refine ⟨hfinal ▸ h.unlocked, ?_, returns_iff.mpr ⟨(), _, hrun⟩, nofun⟩
        rw [hfinal, h.silent (show w.unlocked.conn = w.conn from rfl)]
        exact heard_nil
    | false =>
        rw [hclosed, if_neg Bool.false_ne_true, bind_ok (modify_run ..)] at hrun
        have hspeaks : p.speaks = true := by
          unfold Party.speaks
          rw [hfree, ← h.closed, hclosed]
          rfl
        have hmarked : Models isClient w.unlocked.markClosed { p.turn with closed := true } :=
          ⟨h.unlocked.role, h.unlocked.faults, h.unlocked.flushed, h.unlocked.limit, rfl, h.unlocked.cancels,
            h.unlocked.incoming⟩
        obtain ⟨w', hwrite, hwrote, hflushed⟩ := writeFrameLocked_works hmarked.faults .close (closePayload code reason) true
        obtain ⟨hmodels, hhanded⟩ := hmarked.wrote hwrote hflushed
        have hfinal : final (writeClose code reason) w = w' := final_of_ok (hrun.trans hwrite)
        unfold Party.write
        rw [hspeaks, if_pos rfl]
        refine ⟨?_, ?_, returns_iff.mpr ⟨(), w', hrun.trans hwrite⟩, nofun⟩
        · rw [hfinal]
          exact ⟨hmodels.role, hmodels.faults, hmodels.flushed, hmodels.limit, hmodels.closed, hmodels.cancels,
            hmodels.incoming⟩
        · rw [hfinal]
          show Heard (!isClient) (Peer.handed w.unlocked.markClosed w') _
          rw [hhanded]
          exact heard_frame (w := w.unlocked.markClosed) h.role (Party.sendable_close code reason)

end models
end WebSocket

/-! ### The endpoint and the party -/

namespace Peer

open WebSocket

/-- The endpoint with a role is a party. -/
structure Shows (role : Role) (e : Peer) (p : Party) : Prop where
  models : Models (isClientRole role) e.ws p
  inside : e.task.inside = p.inside
  frame : e.task.frame = p.frame
  got : e.task.got = p.got
  failed : e.task.failed.isSome = p.failed
  sent : e.sent = p.sent
  sendable : ∀ f ∈ p.queue, f.Sendable

section shows
variable {role : Role} {e : Peer} {p : Party}

theorem isClientRole_other (role : Role) : isClientRole role.other = !isClientRole role := by
  cases role <;> rfl

theorem write_sent (f : Frame) : (p.write f).1.sent = p.sent ++ if p.speaks then f.spoken else [] := by
  unfold Party.write
  cases p.speaks with
  | true => rfl
  | false => exact (List.append_nil _).symm

theorem Shows.queue_write (h : Shows role e p) (f : Frame) : ∀ g ∈ (p.write f).1.queue, g.Sendable :=
  fun g hg => h.sendable g ((Party.write_listened f).queue g hg)

theorem write_inside (f : Frame) : (p.write f).1.inside = p.inside := by
  unfold Party.write
  split
  · rfl
  · rfl

theorem Shows.call (h : Shows role e p) {x : Act WebSocket Unit} {good : Bool} {f : Frame} {said : List Message}
    (hwritten : Written (isClientRole role) e.ws x good (p.write f))
    (hsaid : said = if p.speaks then f.spoken else []) :
    Shows role ⟨e.task.setWs (final x e.ws), e.sent ++ said⟩ (p.write f).1 ∧
      Heard (isClientRole role.other) (handed e.ws (final x e.ws)) (p.write f).2 := by
  obtain ⟨hgot, hfailed, hframe, -⟩ := @Party.write_same p f
  refine ⟨⟨hwritten.models, ?_, ?_, ?_, ?_, ?_, h.queue_write f⟩, ?_⟩
  · exact h.inside.trans (write_inside f).symm
  · exact h.frame.trans hframe.symm
  · exact h.got.trans hgot.symm
  · exact h.failed.trans hfailed.symm
  · rw [write_sent, hsaid, h.sent]
  · rw [isClientRole_other]
    exact hwritten.heard

theorem Shows.idle (h : Shows role e p) : Heard (isClientRole role.other) (handed e.ws e.ws) [] := by
  rw [h.models.silent rfl]
  exact heard_nil

theorem told_eq {w : WebSocket} {x : Act WebSocket Unit} {message : Message} {good : Bool} (hreturns : returns x w = good) :
    told w x message = if good && !w.closed then [message] else [] := by
  unfold told
  rw [hreturns]

theorem speaks_and (h : Shows role e p) : (p.speaks && !e.ws.closed) = p.speaks := by
  unfold Party.speaks
  rw [h.models.closed, Bool.and_assoc, Bool.and_self]

theorem Shows.send (h : Shows role e p) {type : MessageType} {data : Bytes} (hdata : data.length < 2 ^ 64) :
    Shows role (e.step (.send type data)) (p.send type data).1 ∧
      Heard (isClientRole role.other) (handed e.ws (e.step (.send type data)).ws) (p.send type data).2 := by
  have hstep : e.step (.send type data) = ⟨e.task.setWs (final (WebSocket.send type data) e.ws),
      e.sent ++ told e.ws (WebSocket.send type data) { type := type, data := data }⟩ := rfl
  rw [hstep]
  unfold Party.send WebSocket.send
  by_cases htype : type ≠ .text ∧ type ≠ .binary
  · rw [if_pos htype, if_pos htype]
    have htold : told e.ws (fail .invalidOpcode) { type := type, data := data } = [] := rfl
    rw [htold, List.append_nil]
    exact ⟨h, h.idle⟩
  · rw [if_neg htype, if_neg htype]
    have hisData : type.isData = true := by
      cases type with
      | text => rfl
      | binary => rfl
      | _ => exact absurd ⟨nofun, nofun⟩ htype
    have hclose : type ≠ .close := by
      rintro rfl
      cases hisData
    have hwritten := written_writeFrame h.models (Party.sendable_data hisData hdata) hclose
    refine h.call hwritten ?_
    rw [told_eq hwritten.returns, speaks_and h]
    exact congrArg (fun spoken => if p.speaks then spoken else []) (Party.spoken_data (f := ⟨true, type, data⟩) hisData).symm

theorem Shows.ping (h : Shows role e p) (data : Bytes) :
    Shows role (e.step (.ping data)) (p.ping data).1 ∧
      Heard (isClientRole role.other) (handed e.ws (e.step (.ping data)).ws) (p.ping data).2 := by
  have hstep : e.step (.ping data) = ⟨e.task.setWs (final (WebSocket.ping data) e.ws), e.sent ++ []⟩ := rfl
  rw [hstep]
  unfold Party.ping WebSocket.ping
  by_cases hlength : data.length > 125
  · rw [if_pos hlength, if_pos hlength, List.append_nil]
    exact ⟨h, h.idle⟩
  · rw [if_neg hlength, if_neg hlength]
    refine h.call (written_writeFrame h.models (Party.sendable_control rfl (Nat.le_of_not_lt hlength)) nofun) ?_
    exact (ite_self _).symm

theorem spoken_close (code : CloseCode) (reason : Bytes) :
    Frame.spoken ⟨true, .close, closePayload code reason⟩ = [farewell code reason] := by
  show [closing (closePayload code reason)] = [farewell code reason]
  unfold closing farewell
  rw [closeCodeOf_closePayload, closeReasonOf_closePayload]

theorem told_close (h : Shows role e p) {x : Act WebSocket Unit} {outcome : Party × List Frame} (code : CloseCode)
    (reason : Bytes) (hwritten : Written (isClientRole role) e.ws x p.free outcome) :
    told e.ws x (farewell code reason) =
      if p.speaks then Frame.spoken ⟨true, .close, closePayload code reason⟩ else [] := by
  rw [told_eq hwritten.returns, h.models.closed, spoken_close]
  rfl

theorem Shows.close (h : Shows role e p) (code : CloseCode) (reason : Bytes) :
    Shows role (e.step (.close code reason)) (p.close code reason).1 ∧
      Heard (isClientRole role.other) (handed e.ws (e.step (.close code reason)).ws) (p.close code reason).2 := by
  have hwritten := written_writeClose h.models code reason
  exact h.call hwritten (told_close h code reason hwritten)

/-! ### The task -/

theorem Shows.finished (h : Shows role e p) : e.task.finished = p.finished := by
  unfold Receiver.finished Party.finished
  rw [h.failed, h.got]

theorem step_task (h : e.waits = false) : e.step .task = ⟨e.task.advance, e.sent ++ e.tells .task⟩ := by
  unfold step
  rw [if_neg fun hwaits => Bool.false_ne_true (h.symm.trans hwaits.2)]
  rfl

theorem Shows.quiet (h : Shows role e p) {task : Receiver} {p' : Party}
    (hmodels : Models (isClientRole role) task.ws p') (hconn : task.ws.conn = e.ws.conn)
    (hinside : task.inside = p'.inside) (hframe : task.frame = p'.frame) (hgot : task.got = p'.got)
    (hfailed : task.failed.isSome = p'.failed) (hsent : p'.sent = p.sent) (hqueue : ∀ f ∈ p'.queue, f ∈ p.queue) :
    Shows role ⟨task, e.sent ++ []⟩ p' ∧ Heard (isClientRole role.other) (handed e.ws task.ws) [] := by
  refine ⟨⟨hmodels, hinside, hframe, hgot, hfailed, ?_, fun f hf => h.sendable f (hqueue f hf)⟩, ?_⟩
  · rw [List.append_nil, hsent]
    exact h.sent
  · rw [h.models.silent hconn]
    exact heard_nil

theorem Shows.quiet_fail (h : Shows role e p) {w : WebSocket} {f : Fault} (hmodels : Models (isClientRole role) w p.fail)
    (hconn : w.conn = e.ws.conn) :
    Shows role ⟨(e.task.setWs w).fail f, e.sent ++ []⟩ p.fail ∧
      Heard (isClientRole role.other) (handed e.ws ((e.task.setWs w).fail f).ws) [] :=
  h.quiet hmodels hconn h.inside rfl h.got rfl rfl Party.queue_fail

theorem Shows.read (h : Shows role e p) (hfine : p.failed = false) (hframe : p.frame = none) {f : Frame}
    {rest : List Frame} (hinbox : p.inbox = f :: rest) :
    Shows role ⟨e.task.read, e.sent ++ []⟩ p.read ∧
      Heard (isClientRole role.other) (handed e.ws e.task.read.ws) [] := by
  have hcarries := h.models.incoming hfine
  rw [hinbox] at hcarries
  generalize hbytes : e.ws.incoming = bytes at hcarries
  cases hcarries with
  | @cons _ mask _ tail haccepted hshort hrest =>
      have hread := readFrame_bytes e.ws (f := f.wire mask) (h.models.role.symm ▸ haccepted) hshort tail
      have hsame : e.ws.setIncoming ((f.wire mask).bytes ++ tail) = e.task.ws := congrArg e.ws.setIncoming hbytes.symm
      rw [hsame, h.models.limit] at hread
      unfold Party.read
      rw [hinbox]
      dsimp only
      by_cases hlarge : f.payload.length > p.limit
      · rw [if_pos (show (f.wire mask).payload.length > p.limit from hlarge)] at hread
        have hstep : e.task.read = (e.task.setWs (e.ws.setIncoming (unmask mask f.payload ++ tail))).fail
            (.err .messageTooLarge) := by
          unfold Receiver.read
          rw [hread]
          rfl
        rw [if_pos hlarge, hstep]
        refine h.quiet_fail ⟨h.models.role, h.models.faults, h.models.flushed, h.models.limit, h.models.closed,
          h.models.cancels, nofun⟩ rfl
      · rw [if_neg (show ¬(f.wire mask).payload.length > p.limit from hlarge)] at hread
        have hfin : f.fin = true := by
          refine (h.sendable f ?_).fin
          unfold Party.queue
          rw [hinbox]
          exact List.mem_append_right _ List.mem_cons_self
        have hstep : e.task.read = { e.task with ws := e.ws.setIncoming tail, frame := some f } := by
          unfold Receiver.read
          rw [hread]
          rfl
        rw [if_neg hlarge, hstep]
        refine h.quiet ⟨h.models.role, h.models.faults, h.models.flushed, h.models.limit, h.models.closed,
          h.models.cancels, fun _ => hrest⟩ rfl h.inside rfl h.got h.failed rfl fun g hg => ?_
        unfold Party.queue
        rw [hframe, hinbox]
        exact hg

theorem Shows.complete (h : Shows role e p) {type : MessageType} {f : Frame}
    (hrun : onFrame f e.ws = WebSocket.deliver type f.payload e.ws) :
    Shows role ⟨e.task.handle f, e.sent ++ []⟩ (p.complete type f.payload) ∧
      Heard (isClientRole role.other) (handed e.ws (e.task.handle f).ws) [] := by
  unfold Party.complete verdict
  unfold WebSocket.deliver at hrun
  by_cases hbad : type = .text ∧ utf8ValidateSlice f.payload = false
  · rw [if_pos hbad] at hrun
    have hstep : e.task.handle f = (e.task.setWs e.ws).fail (.err .invalidUtf8) := by
      unfold Receiver.handle
      rw [show onFrame f e.task.ws = _ from hrun]
      rfl
    rw [if_pos hbad, hstep]
    exact h.quiet_fail (h.models.congr rfl rfl rfl nofun) rfl
  · rw [if_neg hbad] at hrun
    have hstep : e.task.handle f = { e.task with
        ws := e.ws, frame := none, inside := false, got := e.task.got ++ [{ type := type, data := f.payload }] } := by
      unfold Receiver.handle
      rw [show onFrame f e.task.ws = _ from hrun]
      rfl
    rw [if_neg hbad, hstep]
    refine h.quiet (h.models.congr rfl rfl rfl fun hfine => ⟨hfine, rfl⟩) rfl rfl rfl ?_ h.failed rfl fun g hg => ?_
    · exact congrArg (· ++ _) h.got
    · exact List.mem_append_right _ hg

theorem Shows.handle_ping (h : Shows role e p) {payload : Bytes} (hshort : payload.length ≤ 125)
    (hqueue : ∀ g ∈ p.inbox, g ∈ p.queue) :
    Shows role ⟨e.task.handle ⟨true, .ping, payload⟩, e.sent ++ []⟩ (p.handle ⟨true, .ping, payload⟩).1 ∧
      Heard (isClientRole role.other) (handed e.ws (e.task.handle ⟨true, .ping, payload⟩).ws)
        (p.handle ⟨true, .ping, payload⟩).2 := by
  have hpong : Frame.Sendable ⟨true, .pong, payload⟩ := Party.sendable_control rfl hshort
  have hwritten := written_writeFrame h.models hpong nofun
  have hheard := hwritten.heard
  rw [← isClientRole_other] at hheard
  have hmodels := hwritten.models
  unfold Party.handle
  dsimp only
  cases hspeaks : p.speaks with
  | true =>
      rw [hspeaks] at hwritten
      have hstep : e.task.handle ⟨true, .ping, payload⟩ =
          { e.task with ws := (final (writeFrame .pong payload true) e.ws).markResponded, frame := none } := by
        have hrun : onFrame ⟨true, .ping, payload⟩ e.task.ws =
            .ok none (final (writeFrame .pong payload true) e.ws).markResponded := bind_ok hwritten.ok
        unfold Receiver.handle
        rw [hrun]
      have hopen : p.closed = false := by
        unfold Party.speaks at hspeaks
        rw [Bool.and_eq_true, Bool.not_eq_true'] at hspeaks
        exact hspeaks.2
      unfold Party.write at hmodels hheard
      rw [hspeaks, if_pos rfl] at hmodels hheard
      rw [if_pos rfl, hstep]
      refine ⟨⟨hmodels.responded.congr rfl hopen rfl fun hfine => ⟨hfine, rfl⟩, h.inside, rfl, h.got, h.failed, ?_,
        fun g hg => h.sendable g (hqueue g hg)⟩, hheard⟩
      rw [List.append_nil]
      exact h.sent
  | false =>
      rw [hspeaks] at hwritten
      obtain ⟨error, hrun⟩ := hwritten.error rfl
      have hstep : e.task.handle ⟨true, .ping, payload⟩ =
          (e.task.setWs (final (writeFrame .pong payload true) e.ws)).fail (.err error) := by
        have hrun' : onFrame ⟨true, .ping, payload⟩ e.task.ws =
            .error (.err error) (final (writeFrame .pong payload true) e.ws) := bind_error hrun
        unfold Receiver.handle
        rw [hrun']
      rw [Party.write_nothing hspeaks] at hmodels hheard
      rw [if_neg Bool.false_ne_true, hstep]
      refine ⟨⟨hmodels.congr rfl rfl rfl nofun, h.inside, rfl, h.got, rfl, ?_,
        fun g hg => h.sendable g (hqueue g hg)⟩, hheard⟩
      rw [List.append_nil]
      exact h.sent

theorem Shows.handle_close (h : Shows role e p) {payload : Bytes} (hhandles : e.handles = some ⟨true, .close, payload⟩)
    (hqueue : ∀ g ∈ p.inbox, g ∈ p.queue) :
    Shows role ⟨e.task.handle ⟨true, .close, payload⟩, e.sent ++ e.tells .task⟩ (p.handle ⟨true, .close, payload⟩).1 ∧
      Heard (isClientRole role.other) (handed e.ws (e.task.handle ⟨true, .close, payload⟩).ws)
        (p.handle ⟨true, .close, payload⟩).2 := by
  have hwritten := written_writeClose h.models ((closeCodeOf payload).getD .normal) (closeReasonOf payload)
  have htells : e.tells .task = if p.speaks then
      Frame.spoken ⟨true, .close, closePayload ((closeCodeOf payload).getD .normal) (closeReasonOf payload)⟩ else [] := by
    unfold tells
    rw [hhandles]
    exact told_close h _ _ hwritten
  have hheard := hwritten.heard
  rw [← isClientRole_other] at hheard
  have hmodels := hwritten.models
  have hsame := @Party.write_same p
    ⟨true, .close, closePayload ((closeCodeOf payload).getD .normal) (closeReasonOf payload)⟩
  have hsent := @write_sent p
    ⟨true, .close, closePayload ((closeCodeOf payload).getD .normal) (closeReasonOf payload)⟩
  unfold Party.handle
  dsimp only
  cases hfree : p.free with
  | true =>
      rw [hfree] at hwritten
      have hstep : e.task.handle ⟨true, .close, payload⟩ = { e.task with
          ws := (final (writeClose ((closeCodeOf payload).getD .normal) (closeReasonOf payload)) e.ws).markResponded,
          frame := none, inside := false, got := e.task.got ++ [closing payload] } := by
        have hrun : onFrame ⟨true, .close, payload⟩ e.task.ws = .ok (some (closing payload))
            (final (writeClose ((closeCodeOf payload).getD .normal) (closeReasonOf payload)) e.ws).markResponded :=
          bind_ok hwritten.ok
        unfold Receiver.handle
        rw [hrun]
      rw [if_pos rfl, hstep]
      revert hmodels hheard hsame hsent
      generalize p.write _ = written
      intro hheard hmodels hsame hsent
      obtain ⟨hgot, hfailed, -, hinbox⟩ := hsame
      refine ⟨⟨hmodels.responded.congr rfl rfl rfl fun hfine => ⟨hfine, rfl⟩, rfl, rfl, ?_, h.failed.trans hfailed.symm, ?_,
        fun g hg => h.sendable g (hqueue g (hinbox ▸ hg))⟩, hheard⟩
      · show e.task.got ++ _ = written.1.got ++ _
        rw [h.got, hgot]
      · show e.sent ++ _ = written.1.sent
        rw [htells, hsent, h.sent]
  | false =>
      rw [hfree] at hwritten
      obtain ⟨error, hrun⟩ := hwritten.error rfl
      have hspeaks : p.speaks = false := by
        unfold Party.speaks
        rw [hfree, Bool.false_and]
      have hstep : e.task.handle ⟨true, .close, payload⟩ = (e.task.setWs
          (final (writeClose ((closeCodeOf payload).getD .normal) (closeReasonOf payload)) e.ws)).fail (.err error) := by
        have hrun' : onFrame ⟨true, .close, payload⟩ e.task.ws = .error (.err error)
            (final (writeClose ((closeCodeOf payload).getD .normal) (closeReasonOf payload)) e.ws) := bind_error hrun
        unfold Receiver.handle
        rw [hrun']
      rw [Party.write_nothing hspeaks] at hmodels hheard
      rw [if_neg Bool.false_ne_true, hstep, htells, hspeaks, if_neg Bool.false_ne_true, List.append_nil]
      exact ⟨⟨hmodels.congr rfl rfl rfl nofun, h.inside, rfl, h.got, rfl, h.sent,
        fun g hg => h.sendable g (hqueue g hg)⟩, hheard⟩

/-- **The task handles a frame.** -/
theorem Shows.handle (h : Shows role e p) {f : Frame} (hframe : p.frame = some f) (hhandles : e.handles = some f) :
    Shows role ⟨e.task.handle f, e.sent ++ e.tells .task⟩ (p.handle f).1 ∧
      Heard (isClientRole role.other) (handed e.ws (e.task.handle f).ws) (p.handle f).2 := by
  have hqueue : ∀ g ∈ p.inbox, g ∈ p.queue := fun g hg => List.mem_append_right _ hg
  have hsendable : f.Sendable := by
    refine h.sendable f ?_
    unfold Party.queue
    rw [hframe]
    exact List.mem_append_left _ List.mem_cons_self
  have htells : f.opcode ≠ .close → e.tells .task = [] := by
    intro hclose
    unfold tells
    rw [hhandles]
    exact if_neg hclose
  obtain ⟨fin, opcode, payload⟩ := f
  obtain rfl : fin = true := hsendable.fin
  cases opcode with
  | ping =>
      rw [htells nofun]
      exact h.handle_ping (hsendable.control rfl) hqueue
  | pong =>
      have hstep : e.task.handle ⟨true, .pong, payload⟩ = { e.task with frame := none } := rfl
      rw [htells nofun, hstep]
      exact h.quiet (h.models.congr rfl rfl rfl fun hfine => ⟨hfine, rfl⟩) rfl h.inside rfl h.got h.failed rfl hqueue
  | close => exact h.handle_close hhandles hqueue
  | text =>
      have hrun : onFrame ⟨true, .text, payload⟩ e.ws = WebSocket.deliver .text payload e.ws := rfl
      rw [htells nofun]
      exact h.complete hrun
  | binary =>
      have hrun : onFrame ⟨true, .binary, payload⟩ e.ws = WebSocket.deliver .binary payload e.ws := rfl
      rw [htells nofun]
      exact h.complete hrun
  | continuation => rcases hsendable.opcode with hopcode | hopcode <;> cases hopcode
  | reserved control index => rcases hsendable.opcode with hopcode | hopcode <;> cases hopcode

/-- **A step of the task.** -/
theorem Shows.task (h : Shows role e p) :
    Shows role (e.step .task) p.advance.1 ∧
      Heard (isClientRole role.other) (handed e.ws (e.step .task).ws) p.advance.2 := by
  have hover := h.finished
  unfold Party.advance
  cases hfinished : p.finished with
  | true =>
      rw [hfinished] at hover
      have hwaits : e.waits = false := by
        unfold waits
        rw [hover]
        rfl
      have htells : e.tells .task = [] := by
        unfold tells handles
        rw [hover, if_pos rfl]
      have hadvance : e.task.advance = e.task := by
        unfold Receiver.advance
        rw [hover, if_pos rfl]
      rw [step_task hwaits, htells, hadvance, List.append_nil, if_pos rfl]
      exact ⟨h, h.idle⟩
  | false =>
      rw [hfinished] at hover
      rw [if_neg Bool.false_ne_true]
      have hfine := Party.failed_of_finished hfinished
      cases hinside : p.inside with
      | false =>
          have hinside' : e.task.inside = false := h.inside.trans hinside
          have hwaits : e.waits = false := by
            unfold waits
            rw [hover, hinside']
            rfl
          have htells : e.tells .task = [] := by
            unfold tells handles
            rw [hover, hinside', if_neg Bool.false_ne_true, if_neg Bool.false_ne_true]
          have hadvance : e.task.advance = { e.task with ws := e.task.ws.beginReceive, inside := true } := by
            unfold Receiver.advance
            rw [hover, hinside', if_neg Bool.false_ne_true, if_neg Bool.false_ne_true]
          rw [step_task hwaits, htells, hadvance, if_neg Bool.false_ne_true]
          refine h.quiet ?_ rfl rfl h.frame h.got h.failed rfl fun f hf => hf
          exact ⟨h.models.role, h.models.faults, h.models.flushed, h.models.limit, h.models.closed, h.models.cancels,
            h.models.incoming⟩
      | true =>
          have hinside' : e.task.inside = true := h.inside.trans hinside
          rw [if_pos rfl]
          cases hframe : p.frame with
          | none =>
              have hframe' : e.task.frame = none := h.frame.trans hframe
              have hwaits : e.waits = e.ws.incoming.isEmpty := by
                unfold waits
                rw [hover, hinside', hframe']
                rfl
              cases hinbox : p.inbox with
              | nil =>
                  have hempty := (h.models.incoming hfine).isEmpty_eq
                  rw [hinbox] at hempty
                  have hstep : e.step .task = e := if_pos ⟨rfl, hwaits.trans hempty⟩
                  have hread : p.read = p := by
                    unfold Party.read
                    rw [hinbox]
                  rw [hstep]
                  dsimp only
                  rw [hread]
                  exact ⟨h, h.idle⟩
              | cons f rest =>
                  have hsome := (h.models.incoming hfine).isEmpty_eq
                  rw [hinbox] at hsome
                  have htells : e.tells .task = [] := by
                    unfold tells handles
                    rw [hover, hinside', hframe', if_neg Bool.false_ne_true, if_pos rfl]
                  have hadvance : e.task.advance = e.task.read := by
                    unfold Receiver.advance
                    rw [hover, hinside', hframe', if_neg Bool.false_ne_true, if_pos rfl]
                  rw [step_task (hwaits.trans hsome), htells, hadvance]
                  exact h.read hfine hframe hinbox
          | some f =>
              have hframe' : e.task.frame = some f := h.frame.trans hframe
              have hwaits : e.waits = false := by
                unfold waits
                rw [hover, hinside', hframe']
                rfl
              have hhandles : e.handles = some f := by
                unfold handles
                rw [hover, hinside', hframe', if_neg Bool.false_ne_true, if_pos rfl]
              have hadvance : e.task.advance = e.task.handle f := by
                unfold Receiver.advance
                rw [hover, hinside', hframe', if_neg Bool.false_ne_true, if_pos rfl]
              rw [step_task hwaits, hadvance]
              exact h.handle hframe hhandles

end shows

/-- **The endpoints do what the dialogue does**, whatever bytes, masks and buffers carry its frames. -/
theorem simulates : Simulates peer dialogue Party.Short Shows fun role => Heard (isClientRole role) where
  step := by
    intro role move e p hmove h
    cases move with
    | task => exact h.task
    | send type data => exact h.send hmove
    | ping data => exact h.ping data
    | close code reason => exact h.close code reason
  hear := by
    intro role bytes frames e p h hheard
    refine ⟨⟨h.models.role, h.models.faults, h.models.flushed, h.models.limit, h.models.closed, h.models.cancels,
      fun hfine => (h.models.incoming hfine).append hheard.1⟩, h.inside, h.frame, h.got, h.failed, h.sent,
      Party.sendable_hear h.sendable hheard.2⟩

/-! ### Runs -/

/-- An endpoint after the handshake: it is open, on a transport that works, and nothing has happened. -/
structure Fresh (role : Role) (e : Peer) : Prop where
  role : e.ws.isClient = isClientRole role
  faults : e.ws.conn.faults = []
  flushed : e.ws.conn.flushed = e.ws.conn.out.length
  incoming : e.ws.incoming = []
  opened : e.ws.closed = false
  inside : e.task.inside = false
  frame : e.task.frame = none
  got : e.task.got = []
  failed : e.task.failed = none
  sent : e.sent = []

/-- The party a fresh endpoint is. -/
def opening (e : Peer) : Party := { limit := e.ws.maxMessageSize.toNat, cancels := e.ws.cancels }

def openings (p : Pair Peer) : Pair Party := ⟨opening p.left, opening p.right⟩

theorem party_openings (p : Pair Peer) (role : Role) : (openings p).party role = opening (p.party role) := by
  cases role <;> rfl

theorem Fresh.shows {role : Role} {e : Peer} (h : Fresh role e) : Shows role e (opening e) := by
  refine ⟨⟨h.role, h.faults, h.flushed, rfl, h.opened, rfl, fun _ => ?_⟩, h.inside, h.frame, h.got, ?_, h.sent, nofun⟩
  · rw [h.incoming]
    exact .nil
  · rw [h.failed]
    rfl

/-- The task is done, or it waits. -/
def rests (self : Peer) : Bool := self.task.finished || self.waits

section runs
variable {p : Pair Peer} {moves : List (Role × Move)}

theorem shows_run (hfresh : ∀ role, Fresh role (p.party role)) (hshort : ∀ move ∈ moves, Party.Short move.2)
    (role : Role) : Shows role ((run peer moves p).party role) ((run dialogue moves (openings p)).party role) := by
  refine simulates.run hshort (fun role => ?_) role
  rw [party_openings]
  exact (hfresh role).shows

/-- **The two endpoints refine the dialogue.**  Whatever callers and tasks do at either end, and in whatever order, the
callers of the client and of the server see what those of the dialogue see, and the bytes that are on the way carry the
frames that are on the way there. -/
theorem refines_dialogue (hfresh : ∀ role, Fresh role (p.party role)) (hshort : ∀ move ∈ moves, Party.Short move.2)
    (role : Role) :
    ((run peer moves p).party role).task.got = ((run dialogue moves (openings p)).party role).got ∧
      ((run peer moves p).party role).sent = ((run dialogue moves (openings p)).party role).sent ∧
      ((run peer moves p).party role).task.failed.isSome = ((run dialogue moves (openings p)).party role).failed ∧
      ((run peer moves p).party role).ws.closed = ((run dialogue moves (openings p)).party role).closed ∧
      ((run peer moves p).party role).task.frame = ((run dialogue moves (openings p)).party role).frame ∧
      (((run peer moves p).party role).task.failed = none →
        Carries (isClientRole role) ((run dialogue moves (openings p)).party role).inbox
          ((run peer moves p).party role).ws.incoming) := by
  have hshows := shows_run hfresh hshort role
  refine ⟨hshows.got, hshows.sent, hshows.failed, hshows.models.closed, hshows.frame, fun hfine => ?_⟩
  refine hshows.models.incoming ?_
  rw [← hshows.failed, hfine]
  rfl

end runs

/-! ### What holds in every run -/

end Peer

theorem Party.linked_opening {e e' : Peer} : Party.Linked (Peer.opening e) (Peer.opening e') :=
  ⟨List.prefix_rfl, fun _ => rfl, ⟨fun _ => nofun, nofun⟩, nofun, nofun, nofun⟩

namespace Peer

section runs
variable {p : Pair Peer} {moves : List (Role × Move)}

theorem linked_run (hshort : ∀ move ∈ moves, Party.Short move.2) (role : Role) :
    Party.Linked ((run dialogue moves (openings p)).party role)
      ((run dialogue moves (openings p)).party role.other) := by
  refine Party.upholds_linked.run hshort (fun role => ?_) role
  rw [party_openings, party_openings]
  exact Party.linked_opening

theorem other_other (role : Role) : role.other.other = role := by
  cases role <;> rfl

/-- **Messages arrive once and in order.**  At any time an endpoint has got the first of the messages the other end has
sent; nothing is sent behind a close message, and an end has sent one exactly if it is closed. -/
theorem in_order (hfresh : ∀ role, Fresh role (p.party role)) (hshort : ∀ move ∈ moves, Party.Short move.2)
    (role : Role) :
    ((run peer moves p).party role).task.got <+: ((run peer moves p).party role.other).sent ∧
      (((run peer moves p).party role).ws.closed = true ↔
        ∃ message ∈ ((run peer moves p).party role).sent, message.type = .close) ∧
      ∀ before message after, ((run peer moves p).party role).sent = before ++ message :: after →
        message.type = .close → after = [] := by
  have hshows := @shows_run p moves hfresh hshort
  have hgot := (@linked_run p moves hshort role.other).got
  rw [other_other] at hgot
  have hparted := (@linked_run p moves hshort role).parted
  rw [(hshows role).got, (hshows role.other).sent, (hshows role).models.closed, (hshows role).sent]
  refine ⟨hgot, ⟨fun hclosed => ?_, ?_⟩, ?_⟩
  · obtain ⟨before, last, hsent, htype, -⟩ := hparted.2 hclosed
    rw [hsent]
    exact ⟨last, List.mem_append_right _ List.mem_cons_self, htype⟩
  · rintro ⟨message, hmem, htype⟩
    by_contra hopen
    exact hparted.1 (eq_false_of_ne_true hopen) message hmem htype
  · intro before message after hsent htype
    have hmem : message ∈ ((run dialogue moves (openings p)).party role).sent := by
      rw [hsent]
      exact List.mem_append_right _ List.mem_cons_self
    have hclosed : ((run dialogue moves (openings p)).party role).closed = true := by
      by_contra hopen
      exact hparted.1 (eq_false_of_ne_true hopen) message hmem htype
    obtain ⟨start, last, hlast, -, hstart⟩ := hparted.2 hclosed
    rcases List.eq_nil_or_concat after with rfl | ⟨rest, final, rfl⟩
    · rfl
    · have heq : start ++ [last] = (before ++ message :: rest) ++ [final] := by
        rw [← hlast, hsent, List.concat_eq_append, List.append_assoc, List.cons_append]
      have hstart' : start = before ++ message :: rest := (List.append_inj' heq rfl).1
      exact absurd htype (hstart message (hstart' ▸ List.mem_append_right _ List.mem_cons_self))

theorem Shows.rests {role : Role} {e : Peer} {q : Party} (h : Shows role e q) (hrest : q.rests = true) :
    e.rests = true := by
  unfold Peer.rests waits
  unfold Party.rests at hrest
  rw [h.finished, h.inside, h.frame]
  cases hover : q.finished with
  | true => rfl
  | false =>
      rw [hover, Bool.false_or, Bool.and_eq_true, Bool.and_eq_true] at hrest
      obtain ⟨⟨hinside, hframe⟩, hinbox⟩ := hrest
      have hincoming := (h.models.incoming (Party.failed_of_finished hover)).isEmpty_eq
      rw [hinside, hframe, hincoming, hinbox]
      rfl

/-- **The tasks come to rest.**  After any run, once both tasks have had some number of turns while the callers are
silent, either task is done or waits with nothing on the way; unless `receive` has failed, it has got all the other end
has sent, and if the other end is closed, so is this one, with the close message as the last it got. -/
theorem settles (hfresh : ∀ role, Fresh role (p.party role)) (hshort : ∀ move ∈ moves, Party.Short move.2) :
    ∃ n, ∀ rounds : List (List Role), (∀ round ∈ rounds, ∀ role, role ∈ round) → n ≤ rounds.length →
      ∀ role : Role,
        ((run peer (moves ++ turns .task rounds.flatten) p).party role).rests = true ∧
        (((run peer (moves ++ turns .task rounds.flatten) p).party role).task.failed = none →
          ((run peer (moves ++ turns .task rounds.flatten) p).party role).task.got =
            ((run peer (moves ++ turns .task rounds.flatten) p).party role.other).sent ∧
          (((run peer (moves ++ turns .task rounds.flatten) p).party role.other).ws.closed = true →
            ((run peer (moves ++ turns .task rounds.flatten) p).party role).ws.closed = true ∧
            ∃ before last, ((run peer (moves ++ turns .task rounds.flatten) p).party role).task.got = before ++ [last] ∧
              last.type = .close)) := by
  refine ⟨(run dialogue moves (openings p)).total Party.cost, fun rounds hfair hlong role => ?_⟩
  have hshort' : ∀ move ∈ moves ++ turns .task rounds.flatten, Party.Short move.2 := by
    intro move hmem
    rcases List.mem_append.mp hmem with hmem | hmem
    · exact hshort move hmem
    · obtain ⟨role, -, rfl⟩ := List.mem_map.mp hmem
      exact trivial
  have hshows := @shows_run p _ hfresh hshort'
  have hlinked := @linked_run p _ hshort' role.other
  have hrest := Party.tires.comes_to_rest hfair hlong role
  rw [← run_append] at hrest
  replace hrest := Party.rests_of_idle hrest
  rw [other_other] at hlinked
  refine ⟨(hshows role).rests hrest, fun hfine => ?_⟩
  have hfine' : ((run dialogue (moves ++ turns .task rounds.flatten) (openings p)).party role).failed = false := by
    rw [← (hshows role).failed, hfine]
    rfl
  rw [(hshows role).got, (hshows role.other).sent, (hshows role).models.closed, (hshows role.other).models.closed]
  exact hlinked.at_rest hrest hfine'

/-- **Why `receive` fails.**  While nobody is cancelled, the task of an endpoint with a limit of at least the size of a
control frame fails only if the endpoint is closed, or if it was sent a message above its limit or a text that is no
UTF-8. -/
theorem fails_only (hfresh : ∀ role, Fresh role (p.party role)) (hshort : ∀ move ∈ moves, Party.Short move.2)
    (hcancels : ∀ role, (p.party role).ws.cancels = []) (hlimit : ∀ role, 125 ≤ (p.party role).ws.maxMessageSize.toNat)
    {role : Role} (hfailed : ((run peer moves p).party role).task.failed ≠ none) :
    ((run peer moves p).party role).ws.closed = true ∨
      ∃ message ∈ ((run peer moves p).party role.other).sent,
        ((run peer moves p).party role).ws.maxMessageSize.toNat < message.data.length ∨
          message.type = .text ∧ utf8ValidateSlice message.data = false := by
  have hshows := @shows_run p moves hfresh hshort
  have hblamed := Party.upholds_blamed.run (p := openings p) hshort (fun role => ?_) role.other
  · rw [other_other] at hblamed
    have hfailed' : ((run dialogue moves (openings p)).party role).failed = true := by
      rw [← (hshows role).failed]
      exact Option.isSome_iff_ne_none.mpr hfailed
    rw [(hshows role).models.closed, (hshows role.other).sent, (hshows role).models.limit]
    refine (hblamed.reason hfailed').imp_right ?_
    rintro ⟨message, hmem, htakes⟩
    refine ⟨message, hmem, ?_⟩
    unfold Party.Takes at htakes
    by_cases hlarge : ((run dialogue moves (openings p)).party role).limit < message.data.length
    · exact .inl hlarge
    · right
      rw [not_and, Classical.not_imp] at htakes
      obtain ⟨htext, hbad⟩ := htakes (Nat.le_of_not_lt hlarge)
      exact ⟨htext, eq_false_of_ne_true hbad⟩
  · rw [party_openings, party_openings]
    exact ⟨Party.linked_opening, hcancels role.other, hlimit role.other, nofun⟩

end runs

/-! ### A conversation -/

/-- A client and a server. -/
def connected : Pair Peer := ⟨{ task := { ws := WebSocket.fresh true [] } }, { task := { ws := WebSocket.fresh false [] } }⟩

theorem fresh_connected (role : Role) : Fresh role (connected.party role) := by
  cases role with
  | left => exact ⟨rfl, rfl, rfl, rfl, rfl, rfl, rfl, rfl, rfl, rfl⟩
  | right => exact ⟨rfl, rfl, rfl, rfl, rfl, rfl, rfl, rfl, rfl, rfl⟩

/-- Both ends send, the client closes, and the server receives. -/
def conversation : List (Role × Move) :=
  [(.left, .send .text (ascii "hi")), (.right, .send .binary [7]), (.left, .ping []), (.left, .close 1000 []),
    (.right, .task), (.right, .task), (.right, .task), (.right, .task)]

theorem short_conversation : ∀ move ∈ conversation, Party.Short move.2 := by
  intro move hmem
  unfold conversation at hmem
  simp only [List.mem_cons, List.not_mem_nil, or_false] at hmem
  rcases hmem with rfl | rfl | rfl | rfl | rfl | rfl | rfl | rfl
  · show List.length _ < 2 ^ 64
    decide
  · show List.length _ < 2 ^ 64
    decide
  all_goals exact trivial

theorem refines_dialogue_sample :
    ((run peer conversation connected).party .right).task.got =
        ((run dialogue conversation (openings connected)).party .right).got ∧
      ((run dialogue conversation (openings connected)).party .right).got = [{ type := .text, data := ascii "hi" }] :=
  ⟨(refines_dialogue fresh_connected short_conversation .right).1, by decide +kernel⟩

theorem in_order_sample :
    ((run peer conversation connected).party .right).task.got <+: ((run peer conversation connected).party .left).sent ∧
      ((run peer conversation connected).party .right).task.got = [{ type := .text, data := ascii "hi" }] :=
  ⟨(in_order fresh_connected short_conversation .right).1, by decide +kernel⟩

theorem settles_sample :
    ∃ n, ∀ rounds : List (List Role), (∀ round ∈ rounds, ∀ role, role ∈ round) → n ≤ rounds.length →
      ((run peer (conversation ++ turns .task rounds.flatten) connected).party .right).rests = true := by
  obtain ⟨n, h⟩ := settles fresh_connected short_conversation
  exact ⟨n, fun rounds hfair hlong => (h rounds hfair hlong .right).1⟩

/-- The server closes, and the ping the client sends before it knows makes the server's `receive` fail. -/
def crossing : List (Role × Move) :=
  [(.right, .close 1000 []), (.left, .ping []), (.right, .task), (.right, .task), (.right, .task)]

theorem fails_only_sample : ((run peer crossing connected).party .right).ws.closed = true := by
  have hshort : ∀ move ∈ crossing, Party.Short move.2 := by
    intro move hmem
    unfold crossing at hmem
    simp only [List.mem_cons, List.not_mem_nil, or_false] at hmem
    rcases hmem with rfl | rfl | rfl | rfl | rfl
    all_goals exact trivial
  have hopen : ∀ role, (connected.party role).ws.cancels = [] := by
    intro role
    cases role <;> rfl
  have hlimit : ∀ role, 125 ≤ (connected.party role).ws.maxMessageSize.toNat := by
    intro role
    cases role <;> decide
  have hfailed : ((run peer crossing connected).party .right).task.failed ≠ none := by decide +kernel
  rcases fails_only fresh_connected hshort hopen hlimit hfailed with hclosed | ⟨message, hmem, -⟩
  · exact hclosed
  · have hnone : ((run peer crossing connected).party .left).sent = [] := by decide +kernel
    rw [show (Role.right.other : Role) = .left from rfl, hnone] at hmem
    cases hmem

end Peer
end Dusty
