import Dusty.WebSocketFrames

/-! # Several tasks on one WebSocket

Any number of tasks send, and one of them receives.  Between two sections under the write lock
anything may happen, so a run is any sequence of sections and of the steps of `receive`: its
beginning, the reading of a frame, and what the frame leads to.  Whatever the transport does,
what goes out is a sequence of frames that ends with a close frame or where a frame was cut off
(`wire_integrity`). -/

namespace Dusty

open Act

/-- A WebSocket, and the frame the receiving task has read and not yet handled. -/
structure Tasks where
  ws : WebSocket
  frame : Option Frame := none

namespace Tasks

def setWs (self : Tasks) (ws : WebSocket) : Tasks := { self with ws := ws }

def setFrame (self : Tasks) (frame : Option Frame) : Tasks := { self with frame := frame }

/-- Run an action on the WebSocket. -/
def onWs {α : Type} (x : Act WebSocket α) : Act Tasks α :=
  Act.zoom (·.ws) (fun ws self => self.setWs ws) x

/-- A step of some task. -/
inductive Step where
  | send (type : MessageType) (data : Bytes)
  | ping (data : Bytes)
  | close (code : CloseCode) (reason : Bytes)
  | receive
  | readFrame
  | onFrame
deriving DecidableEq, Repr

/-- The receiving task handles the frame it has read. -/
def handle : Act Tasks Unit := do
  let self ← get
  match self.frame with
  | none => pure ()
  | some frame => do
      modify fun self => self.setFrame none
      let _ ← onWs (WebSocket.onFrame frame)

/-- The receiving task reads a frame. -/
def read : Act Tasks Unit := do
  let frame ← onWs WebSocket.readFrame
  modify fun self => self.setFrame (some frame)

/-- One step. -/
def exec : Step → Act Tasks Unit
  | .send type data => onWs (WebSocket.send type data)
  | .ping data => onWs (WebSocket.ping data)
  | .close code reason => onWs (WebSocket.close code reason)
  | .receive => onWs (modify WebSocket.beginReceive)
  | .readFrame => read
  | .onFrame => handle

/-- Steps of any tasks in any order; a task that gets an error may go on. -/
def run : List Step → Act Tasks Unit
  | [] => pure ()
  | step :: rest => do
      let _ ← attempt (exec step)
      run rest

end Tasks

namespace WebSocket

/-! ### What the wire looks like -/

/-- The length of a slice fits the eight bytes that a frame has for it. -/
def Small (data : Bytes) : Prop := data.length < 2 ^ 64

instance (data : Bytes) : Decidable (Small data) := inferInstanceAs (Decidable (data.length < 2 ^ 64))

/-- A frame this side may send.  Its length is right if only slices are sent. -/
def Own (slices : Prop) (isClient : Bool) (f : WireFrame) : Prop :=
  f.rsv = 0 ∧ f.mask.isSome = isClient ∧ (slices → Small f.payload)

/-- Complete frames, none of them a close frame, and then at most one more thing: a close frame,
or the beginning of a frame. -/
def IsWire (slices : Prop) (isClient : Bool) (wire : Bytes) : Prop :=
  ∃ (frames : List WireFrame) (last : Bytes),
    wire = frames.flatMap WireFrame.bytes ++ last ∧
    (∀ f ∈ frames, Own slices isClient f ∧ f.opcode ≠ .close) ∧
    (last = [] ∨ ∃ f, Own slices isClient f ∧
      (last = f.bytes ∧ f.opcode = .close ∨ last <+: f.bytes ∧ last ≠ f.bytes))

/-- The invariant: complete frames, all of them flushed, and behind them, only if the socket is
closed, a part of a frame or all of it. -/
def Wired (base : Bytes) (slices : Prop) (isClient : Bool) (conn : Conn) (closed : Bool) : Prop :=
  ∃ (frames : List WireFrame) (last : Bytes),
    conn.out = base ++ (frames.flatMap WireFrame.bytes ++ last) ∧
    (∀ f ∈ frames, Own slices isClient f ∧ f.opcode ≠ .close) ∧
    base.length + (frames.flatMap WireFrame.bytes).length ≤ conn.flushed ∧
    (closed = false → last = []) ∧
    (last = [] ∨ ∃ f, Own slices isClient f ∧ last <+: f.bytes)

/-- What has reached the peer at any time: at least what was flushed, and nothing that was not
written. -/
theorem Wired.isWire {base : Bytes} {slices : Prop} {isClient : Bool} {conn : Conn} {closed : Bool}
    (h : Wired base slices isClient conn closed) {wire : Bytes} (hwire : wire <+: conn.out)
    (hflushed : conn.flushed ≤ wire.length) :
    ∃ sent, wire = base ++ sent ∧ IsWire slices isClient sent := by
  obtain ⟨frames, last, hout, hframes, hlen, -, hlast⟩ := h
  have hlong : (base ++ frames.flatMap WireFrame.bytes).length ≤ wire.length := by
    rw [List.length_append]
    omega
  rw [hout, ← List.append_assoc] at hwire
  have hprefix : base ++ frames.flatMap WireFrame.bytes <+: wire :=
    List.prefix_of_prefix_length_le (List.prefix_append _ last) hwire hlong
  obtain ⟨last', rfl⟩ := hprefix
  replace hwire : last' <+: last := (List.prefix_append_right_inj _).mp hwire
  refine ⟨frames.flatMap WireFrame.bytes ++ last', List.append_assoc .., ?_⟩
  rcases hlast with rfl | ⟨f, hown, hf⟩
  · obtain rfl := List.prefix_nil.mp hwire
    exact ⟨frames, [], rfl, hframes, .inl rfl⟩
  · have hpart : last' <+: f.bytes := hwire.trans hf
    by_cases hall : last' = f.bytes
    · by_cases hclose : f.opcode = .close
      · exact ⟨frames, last', rfl, hframes, .inr ⟨f, hown, .inl ⟨hall, hclose⟩⟩⟩
      · refine ⟨frames ++ [f], [], ?_, ?_, .inl rfl⟩
        · rw [hall, List.flatMap_append, List.append_nil]
          simp
        · intro g hg
          rcases List.mem_append.mp hg with hg | hg
          · exact hframes g hg
          · obtain rfl := List.mem_singleton.mp hg
            exact ⟨hown, hclose⟩
    · exact ⟨frames, last', rfl, hframes, .inr ⟨f, hown, .inr ⟨hpart, hall⟩⟩⟩

theorem own_frameOf {slices : Prop} (w : WebSocket) (opcode : MessageType) {data : Bytes}
    (hdata : slices → Small data) (fin : Bool) : Own slices w.isClient (w.frameOf opcode data fin) := by
  refine ⟨rfl, ?_, hdata⟩
  unfold frameOf
  cases w.isClient <;> rfl

theorem writeFrameLocked_wired {base : Bytes} {slices : Prop} {w : WebSocket}
    (h : Wired base slices w.isClient w.conn false) (opcode : MessageType) {data : Bytes}
    (hdata : slices → Small data) (fin : Bool) :
    match writeFrameLocked opcode data fin w with
    | .ok _ w' => w'.closed = w.closed ∧ Wired base slices w'.isClient w'.conn true ∧
        (opcode ≠ .close → Wired base slices w'.isClient w'.conn false)
    | .error _ w' => w'.closed = true ∧ Wired base slices w'.isClient w'.conn true := by
  obtain ⟨frames, last, hout, hframes, hlen, hopen, -⟩ := h
  obtain rfl := hopen rfl
  rw [List.append_nil] at hout
  have hown := own_frameOf w opcode hdata fin
  have hspec := writeFrameLocked_spec w opcode data fin
  cases hrun : writeFrameLocked opcode data fin w with
  | ok u w' =>
      rw [hrun] at hspec
      obtain ⟨hwrote, hflushed⟩ := hspec
      have hrole : w'.isClient = w.isClient := by rw [hwrote.same]
      have hout' := hwrote.out
      rw [hout, List.append_assoc] at hout'
      have hlen' : base.length + (frames.flatMap WireFrame.bytes).length ≤ w'.conn.flushed := by
        rw [hflushed, hout', List.length_append, List.length_append]
        omega
      refine ⟨by rw [hwrote.same], ?_, fun hne => ?_⟩
      · rw [hrole]
        exact ⟨frames, _, hout', hframes, hlen', nofun, .inr ⟨_, hown, List.prefix_rfl⟩⟩
      · rw [hrole]
        refine ⟨frames ++ [w.frameOf opcode data fin], [], ?_, ?_, ?_, fun _ => rfl, .inl rfl⟩
        · rw [hout', List.append_nil, List.flatMap_append]
          simp
        · intro g hg
          rcases List.mem_append.mp hg with hg | hg
          · exact hframes g hg
          · obtain rfl := List.mem_singleton.mp hg
            exact ⟨hown, hne⟩
        · rw [hflushed, hout', List.flatMap_append]
          simp
  | error f w' =>
      rw [hrun] at hspec
      obtain ⟨-, -, part, w₁, hpart, hwrote, hflushed, rfl⟩ := hspec
      have hrole : w₁.isClient = w.isClient := by rw [hwrote.same]
      have hout' := hwrote.out
      rw [hout, List.append_assoc] at hout'
      refine ⟨rfl, frames, part, hout', ?_, ?_, nofun, .inr ⟨_, ?_, hpart⟩⟩
      · show ∀ f ∈ frames, Own slices w₁.isClient f ∧ _
        rw [hrole]
        exact hframes
      · show _ ≤ w₁.conn.flushed
        rw [hflushed]
        exact hlen
      · show Own slices w₁.isClient _
        rw [hrole]
        exact hown

/-! ### The sections -/

/-- The invariant of a socket. -/
def Sound (base : Bytes) (slices : Prop) (w : WebSocket) : Prop := Wired base slices w.isClient w.conn w.closed

/-- A closed socket, and what it has written. -/
def Silent (out : Bytes) (w : WebSocket) : Prop := w.closed = true ∧ w.conn.out = out

/-- The action has nothing to do with writing. -/
def Aside {α : Type} (x : Act WebSocket α) : Prop :=
  ∀ conn closed isClient,
    Keeps (fun w => w.conn = conn ∧ w.closed = closed ∧ w.isClient = isClient) x

section aside
variable {α β : Type}

theorem aside_modify {f : WebSocket → WebSocket}
    (h : ∀ w, (f w).conn = w.conn ∧ (f w).closed = w.closed ∧ (f w).isClient = w.isClient) :
    Aside (modify f : Act WebSocket PUnit) := by
  rintro conn closed isClient w ⟨rfl, rfl, rfl⟩
  exact h w

theorem aside_pure (a : α) : Aside (pure a : Act WebSocket α) := fun _ _ _ => keeps_pure a

theorem aside_fail (e : Error) : Aside (fail e : Act WebSocket α) := fun _ _ _ => keeps_fail e

theorem aside_get : Aside (get : Act WebSocket WebSocket) := fun _ _ _ _ h => h

theorem Aside.bind {x : Act WebSocket α} {f : α → Act WebSocket β} (hx : Aside x)
    (hf : ∀ a, Aside (f a)) : Aside (x >>= f) :=
  fun conn closed isClient => (hx conn closed isClient).bind fun a => hf a conn closed isClient

theorem Aside.sound {base : Bytes} {slices : Prop} {x : Act WebSocket α} (h : Aside x) :
    Keeps (Sound base slices) x := by
  intro w hw
  have hrun := h w.conn w.closed w.isClient w ⟨rfl, rfl, rfl⟩
  cases hx : x w with
  | ok a w' =>
      rw [hx] at hrun
      obtain ⟨hconn, hclosed, hrole⟩ := hrun
      show Wired base slices w'.isClient w'.conn w'.closed
      rw [hconn, hclosed, hrole]
      exact hw
  | error f w' =>
      rw [hx] at hrun
      obtain ⟨hconn, hclosed, hrole⟩ := hrun
      show Wired base slices w'.isClient w'.conn w'.closed
      rw [hconn, hclosed, hrole]
      exact hw

theorem Aside.silent {out : Bytes} {x : Act WebSocket α} (h : Aside x) : Keeps (Silent out) x := by
  intro w hw
  have hrun := h w.conn w.closed w.isClient w ⟨rfl, rfl, rfl⟩
  cases hx : x w with
  | ok a w' =>
      rw [hx] at hrun
      exact ⟨hrun.2.1.trans hw.1, hrun.1 ▸ hw.2⟩
  | error f w' =>
      rw [hx] at hrun
      exact ⟨hrun.2.1.trans hw.1, hrun.1 ▸ hw.2⟩

theorem aside_lock : Aside lock := by
  refine aside_get.bind fun self => Aside.bind (aside_modify fun _ => ⟨rfl, rfl, rfl⟩) fun _ => ?_
  split
  · exact aside_fail _
  · exact aside_pure _

theorem aside_readSliceAll (n : ℕ) : Aside (readSliceAll n) := by
  refine aside_get.bind fun self => ?_
  split
  · exact Aside.bind (aside_modify fun _ => ⟨rfl, rfl, rfl⟩) fun _ => aside_pure _
  · exact Aside.bind (aside_modify fun _ => ⟨rfl, rfl, rfl⟩) fun _ => aside_fail _

theorem aside_readLength (short : ℕ) : Aside (readLength short) := by
  unfold readLength
  split
  · exact (aside_readSliceAll 2).bind fun _ => aside_pure _
  · split
    · exact (aside_readSliceAll 8).bind fun _ => aside_pure _
    · exact aside_pure _

theorem aside_readMask (masked : Bool) : Aside (readMask masked) := by
  unfold readMask
  split
  · exact (aside_readSliceAll 4).bind fun _ => aside_pure _
  · exact aside_pure _

theorem aside_readRest (fin : Bool) (opcode : MessageType) (masked : Bool) (short : ℕ) :
    Aside (readRest fin opcode masked short) := by
  refine (aside_readLength short).bind fun len => (aside_readMask masked).bind fun key =>
    aside_get.bind fun self => ?_
  split
  · exact aside_fail _
  · exact (aside_readSliceAll len).bind fun _ => aside_pure _

theorem aside_readHeader (byte0 byte1 : UInt8) : Aside (readHeader byte0 byte1) := by
  refine aside_get.bind fun self => ?_
  dsimp only
  split
  · exact aside_fail _
  split
  · exact aside_fail _
  split
  · exact aside_fail _
  split
  · exact aside_fail _
  · exact aside_readRest _ _ _ _

theorem aside_readFrame : Aside readFrame :=
  (aside_readSliceAll 2).bind fun _ => aside_readHeader _ _

theorem aside_deliver (type : MessageType) (data : Bytes) : Aside (deliver type data) := by
  unfold deliver
  split
  · exact aside_fail _
  · exact aside_pure _

theorem aside_onContinuation (fin : Bool) (payload : Bytes) :
    Aside (onContinuation fin payload) := by
  refine aside_get.bind fun self => ?_
  split
  · exact aside_fail _
  · split
    · exact aside_fail _
    · split
      · exact Aside.bind (aside_modify fun _ => ⟨rfl, rfl, rfl⟩) fun _ => aside_deliver _ _
      · exact Aside.bind (aside_modify fun _ => ⟨rfl, rfl, rfl⟩) fun _ => aside_pure _

theorem aside_onData (fin : Bool) (opcode : MessageType) (payload : Bytes) :
    Aside (onData fin opcode payload) := by
  refine aside_get.bind fun self => ?_
  split
  · exact aside_deliver _ _
  · split
    · exact aside_fail _
    · split
      · exact aside_fail _
      · exact Aside.bind (aside_modify fun _ => ⟨rfl, rfl, rfl⟩) fun _ => aside_pure _

end aside

section sections
variable {base out : Bytes} {slices : Prop}

theorem lock_ok {w w' : WebSocket} {u : Unit} (h : lock w = .ok u w') :
    w'.closed = w.closed ∧ w'.conn = w.conn ∧ w'.isClient = w.isClient := by
  obtain ⟨hconn, hclosed, hrole⟩ :=
    (aside_lock w.conn w.closed w.isClient).ok ⟨rfl, rfl, rfl⟩ h
  exact ⟨hclosed, hconn, hrole⟩

theorem Sound.opened {w : WebSocket} (h : Sound base slices w) (hclosed : ¬w.closed = true) :
    Wired base slices w.isClient w.conn false := by
  have hfalse : w.closed = false := by simpa using hclosed
  rw [← hfalse]
  exact h

/-- No frame but a close frame leaves an open socket with a part of a frame. -/
theorem keeps_writeFrame {opcode : MessageType} (hne : opcode ≠ .close) {data : Bytes}
    (hdata : slices → Small data) (fin : Bool) :
    Keeps (Sound base slices) (writeFrame opcode data fin) := by
  refine Keeps.bind aside_lock.sound fun _ => ?_
  intro w hw
  by_cases hclosed : w.closed = true
  · rw [bind_ok (get_run w), if_pos hclosed]
    exact hw
  · rw [bind_ok (get_run w), if_neg hclosed]
    have hspec := writeFrameLocked_wired (hw.opened hclosed) opcode hdata fin
    cases hrun : writeFrameLocked opcode data fin w with
    | ok u w' =>
        rw [hrun] at hspec
        have hfalse : w'.closed = false := by simpa [hspec.1] using hclosed
        show Wired base slices w'.isClient w'.conn w'.closed
        rw [hfalse]
        exact hspec.2.2 hne
    | error f w' =>
        rw [hrun] at hspec
        show Wired base slices w'.isClient w'.conn w'.closed
        rw [hspec.1]
        exact hspec.2

theorem keeps_writeClose (code : CloseCode) (reason : Bytes) :
    Keeps (Sound base slices) (writeClose code reason) := by
  refine Keeps.bind aside_lock.sound fun _ => ?_
  intro w hw
  by_cases hclosed : w.closed = true
  · rw [bind_ok (get_run w), if_pos hclosed]
    exact hw
  · rw [bind_ok (get_run w), if_neg hclosed, bind_ok (modify_run ..)]
    have hopen : Wired base slices w.markClosed.isClient w.markClosed.conn false := hw.opened hclosed
    have hsmall : Small (bigEndian 2 code.toNat ++ reason.take 123) := by
      unfold Small
      rw [List.length_append, length_bigEndian, List.length_take]
      omega
    have hspec := writeFrameLocked_wired hopen .close (fun _ => hsmall) true
    cases hrun : writeFrameLocked .close (bigEndian 2 code.toNat ++ reason.take 123) true
        w.markClosed with
    | ok u w' =>
        rw [hrun] at hspec
        show Wired base slices w'.isClient w'.conn w'.closed
        rw [hspec.1]
        exact hspec.2.1
    | error f w' =>
        rw [hrun] at hspec
        show Wired base slices w'.isClient w'.conn w'.closed
        rw [hspec.1]
        exact hspec.2

theorem silent_writeFrame (opcode : MessageType) (data : Bytes) (fin : Bool) :
    Keeps (Silent out) (writeFrame opcode data fin) := by
  refine Keeps.bind aside_lock.silent fun _ => keeps_get_bind fun w hw => ?_
  rw [if_pos hw.1]
  exact keeps_fail _

theorem silent_writeClose (code : CloseCode) (reason : Bytes) :
    Keeps (Silent out) (writeClose code reason) := by
  refine Keeps.bind aside_lock.silent fun _ => keeps_get_bind fun w hw => ?_
  rw [if_pos hw.1]
  exact keeps_pure _

/-- What a property has to survive: the two sections, and everything that writes nothing. -/
structure Survives (P : WebSocket → Prop) : Prop where
  aside : ∀ {α : Type} {x : Act WebSocket α}, Aside x → Keeps P x
  writeFrame : ∀ {opcode : MessageType}, opcode ≠ .close → ∀ data fin,
    Keeps P (writeFrame opcode data fin)
  writeClose : ∀ code reason, Keeps P (writeClose code reason)

theorem survives_silent : Survives (Silent out) :=
  ⟨fun h => h.silent, fun _ data fin => silent_writeFrame _ data fin, silent_writeClose⟩

/-- The same, where every payload that is sent has the property `W`, and every close frame that is asked for
the property `Q`. -/
structure SurvivesWhen (W : Bytes → Prop) (Q : CloseCode → Bytes → Prop) (P : WebSocket → Prop) : Prop where
  aside : ∀ {α : Type} {x : Act WebSocket α}, Aside x → Keeps P x
  writeFrame : ∀ {opcode : MessageType}, opcode ≠ .close → ∀ {data}, W data → ∀ fin,
    Keeps P (writeFrame opcode data fin)
  writeClose : ∀ {code reason}, Q code reason → Keeps P (writeClose code reason)

theorem survives_sound :
    SurvivesWhen (fun data => slices → Small data) (fun _ _ => True) (Sound base slices) :=
  ⟨fun h => h.sound, fun hne _ hdata fin => keeps_writeFrame hne hdata fin, fun _ => keeps_writeClose _ _⟩

end sections

theorem Survives.when {P : WebSocket → Prop} (h : Survives P) :
    SurvivesWhen (fun _ => True) (fun _ _ => True) P :=
  ⟨h.aside, fun hne data _ fin => h.writeFrame hne data fin, fun _ => h.writeClose _ _⟩

section survives
variable {W : Bytes → Prop} {Q : CloseCode → Bytes → Prop} {P : WebSocket → Prop} (hP : SurvivesWhen W Q P)
include hP

theorem keeps_send (type : MessageType) {data : Bytes} (hdata : W data) : Keeps P (send type data) := by
  unfold send
  split
  · exact keeps_fail _
  · case isFalse h =>
      refine hP.writeFrame ?_ hdata _
      rintro rfl
      exact h ⟨by simp, by simp⟩

theorem keeps_ping {data : Bytes} (hdata : W data) : Keeps P (ping data) := by
  unfold ping
  split
  · exact keeps_fail _
  · exact hP.writeFrame (by simp) hdata _

theorem keeps_onFrame {frame : Frame} (hping : frame.opcode = .ping → W frame.payload) (hclose : frame.opcode = .close →
    Q ((closeCodeOf frame.payload).getD .normal) (closeReasonOf frame.payload)) :
    Keeps P (onFrame frame) := by
  have hmark : Keeps P (modify markResponded) :=
    hP.aside (aside_modify fun _ => ⟨rfl, rfl, rfl⟩)
  unfold onFrame
  cases hop : frame.opcode with
  | ping =>
      exact Keeps.bind (hP.writeFrame (by simp) (hping hop) _) fun _ =>
        Keeps.bind hmark fun _ => keeps_pure _
  | pong => exact keeps_pure _
  | close =>
      exact Keeps.bind (hP.writeClose (hclose hop)) fun _ => Keeps.bind hmark fun _ => keeps_pure _
  | continuation => exact hP.aside (aside_onContinuation _ _)
  | text => exact hP.aside (aside_onData _ _ _)
  | binary => exact hP.aside (aside_onData _ _ _)
  | reserved control index => exact keeps_fail _

end survives

end WebSocket

namespace Tasks

open WebSocket

variable {W : Bytes → Prop} {Q : CloseCode → Bytes → Prop} {P : WebSocket → Prop}

/-- A payload that the step asks for has its property, and a close frame has its. -/
def Asks (W : Bytes → Prop) (Q : CloseCode → Bytes → Prop) (s : Tasks) : Step → Prop
  | .send _ data => W data
  | .ping data => W data
  | .close code reason => Q code reason
  | .onFrame => ∀ frame ∈ s.frame, (frame.opcode = .ping → W frame.payload) ∧ (frame.opcode = .close →
      Q ((closeCodeOf frame.payload).getD .normal) (closeReasonOf frame.payload))
  | _ => True

/-- So has every one in the run. -/
def AsksAll (W : Bytes → Prop) (Q : CloseCode → Bytes → Prop) : List Step → Tasks → Prop
  | [], _ => True
  | step :: rest, s => s.Asks W Q step ∧ AsksAll W Q rest (final (exec step) s)

/-- All payloads of the run are slices. -/
def Slices (s : Tasks) (steps : List Step) : Prop := s.AsksAll Small (fun _ _ => True) steps

theorem asksAll_true (steps : List Step) (s : Tasks) : AsksAll (fun _ => True) (fun _ _ => True) steps s := by
  induction steps generalizing s with
  | nil => trivial
  | cons step rest ih =>
      refine ⟨?_, ih _⟩
      cases step with
      | onFrame => exact fun _ _ => ⟨fun _ => trivial, fun _ => trivial⟩
      | _ => exact trivial

/-- Payloads that are slices if the run has no others. -/
theorem AsksAll.slices {steps : List Step} {s : Tasks} (h : AsksAll (fun _ => True) Q steps s) {slices : Prop}
    (hslices : slices → s.Slices steps) : AsksAll (fun data => slices → Small data) Q steps s := by
  induction steps generalizing s with
  | nil => trivial
  | cons step rest ih =>
      refine ⟨?_, ih h.2 fun hall => (hslices hall).2⟩
      cases step with
      | send type data => exact fun hall => (hslices hall).1
      | ping data => exact fun hall => (hslices hall).1
      | onFrame =>
          intro frame hframe
          exact ⟨fun hping hall => ((hslices hall).1 frame hframe).1 hping, (h.1 frame hframe).2⟩
      | close code reason => exact h.1
      | _ => exact trivial

theorem keeps_onWs {α : Type} {x : Act WebSocket α} (hx : Keeps P x) :
    Keeps (fun s : Tasks => P s.ws) (onWs x) := by
  refine keeps_zoom fun s hs => ?_
  rintro w rfl
  cases hrun : x s.ws with
  | ok a w' => exact hx.ok hs hrun
  | error f w' => exact hx.error hs hrun

theorem final_exec (hP : SurvivesWhen W Q P) {s : Tasks} (hs : P s.ws) {step : Step}
    (hasks : s.Asks W Q step) : P (final (exec step) s).ws := by
  have hfinal : ∀ {x : Act Tasks Unit}, Keeps (fun s : Tasks => P s.ws) x → P (final x s).ws :=
    fun hx => keeps_iff_final.mp hx s hs
  cases step with
  | send type data => exact hfinal (keeps_onWs (keeps_send hP type hasks))
  | ping data => exact hfinal (keeps_onWs (keeps_ping hP hasks))
  | close code reason => exact hfinal (keeps_onWs (hP.writeClose hasks))
  | receive => exact hfinal (keeps_onWs (hP.aside (aside_modify fun _ => ⟨rfl, rfl, rfl⟩)))
  | readFrame =>
      exact hfinal (Keeps.bind (keeps_onWs (hP.aside aside_readFrame)) fun _ =>
        keeps_modify fun _ hs => hs)
  | onFrame =>
      unfold exec handle
      cases hframe : s.frame with
      | none =>
          rw [final_bind_ok (get_run s), hframe]
          exact hs
      | some frame =>
          rw [final_bind_ok (get_run s), hframe]
          exact hfinal (Keeps.bind (keeps_modify fun _ hs => hs) fun _ =>
            Keeps.bind (keeps_onWs (keeps_onFrame hP (hasks frame hframe).1 (hasks frame hframe).2)) fun _ => keeps_pure _)

theorem final_run (hP : SurvivesWhen W Q P) {steps : List Step} {s : Tasks} (hs : P s.ws)
    (hasks : AsksAll W Q steps s) : P (final (run steps) s).ws := by
  induction steps generalizing s with
  | nil => exact hs
  | cons step rest ih =>
      have hstep := final_exec hP hs hasks.1
      unfold run
      cases hrun : attempt (exec step) s with
      | ok result s' =>
          obtain rfl := final_of_attempt hrun
          rw [final_bind_ok hrun]
          exact ih hstep hasks.2
      | error f s' =>
          rw [final_of_error (bind_error hrun), ← final_of_error hrun, final_attempt]
          exact hstep

/-- **The wire of a WebSocket.**  Any tasks take any steps in any order, on a transport that may
fail anywhere.  What has reached the peer then, between what was flushed and what was written,
is a sequence of complete frames and at most one more thing, a close frame or the beginning of a
frame; and once the socket is closed, nothing more is written, whatever steps follow.  Of slices, every
length is the right one. -/
theorem wire_integrity (s : Tasks)
    (hflushed : s.ws.conn.flushed = s.ws.conn.out.length) (steps : List Step) :
    let t := final (run steps) s
    (∀ wire, wire <+: t.ws.conn.out → t.ws.conn.flushed ≤ wire.length →
      ∃ sent, wire = s.ws.conn.out ++ sent ∧ IsWire (s.Slices steps) t.ws.isClient sent) ∧
    (t.ws.closed = false → ∃ frames : List WireFrame,
      t.ws.conn.out = s.ws.conn.out ++ frames.flatMap WireFrame.bytes ∧
      ∀ f ∈ frames, Own (s.Slices steps) t.ws.isClient f ∧ f.opcode ≠ .close) ∧
    (t.ws.closed = true → ∀ more, (final (run more) t).ws.conn.out = t.ws.conn.out) := by
  have hstart : Sound s.ws.conn.out (s.Slices steps) s.ws :=
    ⟨[], [], by simp, by simp, by simp [hflushed], fun _ => rfl, .inl rfl⟩
  have hend := final_run survives_sound hstart ((asksAll_true steps s).slices id)
  refine ⟨fun wire hwire hlen => hend.isWire hwire hlen, fun hopen => ?_, fun hshut more => ?_⟩
  · obtain ⟨frames, last, hout, hframes, -, hnil, -⟩ := hend
    obtain rfl := hnil hopen
    rw [List.append_nil] at hout
    exact ⟨frames, hout, hframes⟩
  · exact (final_run survives_silent.when ⟨hshut, rfl⟩ (asksAll_true more _)).2

theorem wire_integrity_sample :
    let s : Tasks := ⟨{ fresh false [] with conn := { faults := [none, none, none, none, none,
      some (1, .brokenPipe)] } }, none⟩
    let t := final (run [.send .text (ascii "hi"), .ping [], .close 1000 []]) s
    t.ws.conn.out = [0x81, 2, 104, 105, 0x89, 0] ∧
      IsWire (s.Slices [.send .text (ascii "hi"), .ping [], .close 1000 []]) false [0x81, 2, 104, 105, 0x89] ∧
      s.Slices [.send .text (ascii "hi"), .ping [], .close 1000 []] := by
  intro s t
  obtain ⟨sent, hsent, hwire⟩ := (wire_integrity s rfl
    [.send .text (ascii "hi"), .ping [], .close 1000 []]).1 [0x81, 2, 104, 105, 0x89]
      (by decide +kernel) (by decide +kernel)
  have hslices : s.Slices [.send .text (ascii "hi"), .ping [], .close 1000 []] :=
    ⟨show Small (ascii "hi") by decide, show Small [] by decide, trivial, trivial⟩
  refine ⟨by decide +kernel, ?_, hslices⟩
  obtain rfl : [0x81, 2, 104, 105, 0x89] = sent := hsent
  exact hwire

end Tasks
end Dusty
