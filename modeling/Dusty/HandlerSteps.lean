import Dusty.BodyKeeps
import Dusty.HandlerInv
import Dusty.Server
import Dusty.Transport
import Dusty.WebSocketWire

/-! # What the steps of a handler keep

A handler reads the body of its request, uses a WebSocket and operates on its response, in any order.
A property of the response that may depend on whether the client still waits for an interim response
is `Carried` by the steps when no operation breaks it, when the frames of a WebSocket do not break it
either, and when the interim response leads from the one case to the other (`keeps_performAll`). -/

namespace Dusty

open Act

/-- An action on a part, given what it leads to from that part. -/
theorem Act.triple_zoom {σ τ α : Type} {g : τ → σ} {put : σ → τ → τ} {x : Act σ α} {T : τ → Prop}
    {Q : α → τ → Prop} {E : Fault → τ → Prop}
    (h : ∀ t, T t → Triple (fun s => s = g t) x (fun a s => Q a (put s t)) (fun e s => E e (put s t))) :
    Triple T (zoom g put x) Q E := by
  intro t ht
  unfold zoom
  cases hx : x (g t) with
  | ok a s' => exact (h t ht).ok rfl hx
  | error e s' => exact (h t ht).error rfl hx

theorem Act.bind_eq_error {σ α β : Type} {x : Act σ α} {f : α → Act σ β} {s s' : σ} {e : Fault} :
    (x >>= f) s = .error e s' ↔ x s = .error e s' ∨ ∃ a s₁, x s = .ok a s₁ ∧ f a s₁ = .error e s' := by
  rw [bind_run]
  cases x s with
  | ok a s₁ =>
      constructor
      · exact fun h => .inr ⟨a, s₁, rfl, h⟩
      · rintro (h | ⟨_, _, h, hf⟩)
        · cases h
        · cases h
          exact hf
  | error e' s₁ =>
      constructor
      · intro h
        cases h
        exact .inl rfl
      · rintro (h | ⟨_, _, h, -⟩)
        · cases h
          rfl
        · cases h

theorem Act.spares_attempt {σ α : Type} (x : Act σ α) (e : Error) : Spares (.err e) (attempt x) := by
  intro s s' h
  unfold attempt at h
  cases hx : x s with
  | ok a s₁ => simp [hx] at h
  | error f s₁ => cases f <;> simp [hx] at h

theorem Act.Spares.when {σ : Type} {f : Fault} {x : Act σ Unit} (h : Spares f x) (b : Bool) : Spares f (when b x) := by
  cases b with
  | true => exact h
  | false => exact spares_pure _

theorem Act.triple_of_final {σ α : Type} {x : Act σ α} {P Q : σ → Prop} (h : ∀ s, P s → Q (final x s)) :
    Triple P x (fun _ => Q) (fun _ => Q) := by
  intro s hs
  have hfinal := h s hs
  unfold Act.final at hfinal
  cases hrun : x s with
  | ok a s' =>
      rw [hrun] at hfinal
      exact hfinal
  | error e s' =>
      rw [hrun] at hfinal
      exact hfinal

theorem Act.Triple.final {σ α : Type} {x : Act σ α} {P Q : σ → Prop} (h : Triple P x (fun _ => Q) (fun _ => Q)) {s : σ}
    (hs : P s) : Q (final x s) := by
  unfold Act.final
  cases hrun : x s with
  | ok a s' => exact h.ok hs hrun
  | error e s' => exact h.error hs hrun

theorem Act.Triple.both {σ α : Type} {x : Act σ α} {P P' : σ → Prop} {Q Q' : α → σ → Prop} {E E' : Fault → σ → Prop}
    (h : Triple P x Q E) (h' : Triple P' x Q' E') :
    Triple (fun s => P s ∧ P' s) x (fun a s => Q a s ∧ Q' a s) (fun e s => E e s ∧ E' e s) := by
  intro s hs
  cases hrun : x s with
  | ok a s' => exact ⟨h.ok hs.1 hrun, h'.ok hs.2 hrun⟩
  | error e s' => exact ⟨h.error hs.1 hrun, h'.error hs.2 hrun⟩

/-- The caller goes on from whatever a caught action leads to. -/
theorem Act.triple_attempt_bind {σ α β : Type} {x : Act σ α} {f : Except Error α → Act σ β} {P : σ → Prop}
    {Q : α → σ → Prop} {R : β → σ → Prop} {E E' : Fault → σ → Prop} (hx : Triple P x Q E')
    (hok : ∀ a, Triple (Q a) (f (.ok a)) R E) (herror : ∀ e, Triple (E' (.err e)) (f (.error e)) R E)
    (hpanic : ∀ p s, E' (.panic p) s → E (.panic p) s) : Triple P (attempt x >>= f) R E := by
  intro s hs
  cases hrun : x s with
  | ok a s' =>
      rw [bind_ok (attempt_ok hrun)]
      exact hok a s' (hx.ok hs hrun)
  | error e s' =>
      have he := hx.error hs hrun
      cases e with
      | err e =>
          rw [bind_ok (attempt_error hrun)]
          exact herror e s' he
      | panic p =>
          have hattempt : attempt x s = .error (.panic p) s' := by
            unfold attempt
            rw [hrun]
          rw [bind_error hattempt]
          exact hpanic p s' he

namespace WebSocket

/-- A property of the connection that frames and flushes keep. -/
theorem survives_of_conn {C : Conn → Prop} (hframe : ∀ bytes, Keeps C (Conn.writeAll .frame bytes))
    (hflush : Keeps C Conn.flush) : Survives (fun w => C w.conn) := by
  have haside : ∀ {α : Type} {x : Act WebSocket α}, Aside x → Keeps (fun w => C w.conn) x := by
    intro α x hx w hw
    have hrun := hx w.conn w.closed w.isClient w ⟨rfl, rfl, rfl⟩
    cases hrun' : x w with
    | ok a w' =>
        rw [hrun'] at hrun
        show C w'.conn
        rw [hrun.1]
        exact hw
    | error f w' =>
        rw [hrun'] at hrun
        show C w'.conn
        rw [hrun.1]
        exact hw
  have honConn : ∀ {x : Act Conn Unit}, Keeps C x → Keeps (fun w => C w.conn) (onConn x) := by
    intro x hx
    refine keeps_zoom fun w hw => ?_
    rintro c rfl
    cases hrun : x w.conn with
    | ok a c => exact hx.ok hw hrun
    | error f c => exact hx.error hw hrun
  have hemit : ∀ bytes, Keeps (fun w => C w.conn) (emit bytes) := fun bytes => honConn (hframe bytes)
  have hmark : Keeps (fun w => C w.conn) (modify markClosed) := keeps_modify fun _ hw => hw
  have heach : ∀ bytes, Keeps (fun w => C w.conn) (emitEach bytes) := by
    intro bytes
    induction bytes with
    | nil => exact keeps_pure _
    | cons b rest ih => exact (hemit [b]).bind fun _ => ih
  have hlength : ∀ bit n, Keeps (fun w => C w.conn) (writeLength bit n) := by
    intro bit n
    unfold writeLength
    split
    · exact hemit _
    · split <;> exact (hemit _).bind fun _ => hemit _
  have hpayload : ∀ isClient data, Keeps (fun w => C w.conn) (writePayload isClient data) := by
    intro isClient data
    unfold writePayload
    split
    · exact keeps_get_bind fun w _ => Keeps.bind (keeps_modify fun _ hw => hw) fun _ =>
        (hemit _).bind fun _ => heach _
    · exact hemit _
  have hlocked : ∀ opcode data fin, Keeps (fun w => C w.conn) (writeFrameLocked opcode data fin) := by
    intro opcode data fin
    refine Keeps.onError ?_ fun _ hw => hw
    refine (hemit _).bind fun _ => keeps_get_bind fun w _ => ?_
    exact (hlength _ _).bind fun _ => (hpayload _ _).bind fun _ => honConn hflush
  refine ⟨haside, fun _ data fin => ?_, fun code reason => ?_⟩
  · refine (haside aside_lock).bind fun _ => keeps_get_bind fun w _ => ?_
    split
    · exact keeps_fail _
    · exact hlocked _ _ _
  · refine (haside aside_lock).bind fun _ => keeps_get_bind fun w _ => ?_
    split
    · exact keeps_pure _
    · exact hmark.bind fun _ => hlocked _ _ _

theorem keeps_receive {P : WebSocket → Prop} (hP : Survives P) : Keeps P receive := by
  have hloop : ∀ fuel, Keeps P (receiveLoop fuel) := by
    intro fuel
    induction fuel with
    | zero => exact keeps_die _
    | succ fuel ih =>
        refine (hP.aside aside_readFrame).bind fun frame =>
          (keeps_onFrame hP.when (fun _ => trivial) fun _ => trivial).bind fun message => ?_
        cases message with
        | some message => exact keeps_pure _
        | none => exact ih
  refine Keeps.bind (hP.aside (aside_modify fun _ => ⟨rfl, rfl, rfl⟩)) fun _ => ?_
  exact keeps_get_bind fun _ _ => hloop _

end WebSocket

namespace Response

/-- The property also survives an upgrade and the frames that follow it. -/
structure Rides (P : Response → Prop) : Prop extends Kept P where
  streams : ∀ r, P r → P { r with streaming := true }
  frame : ∀ bytes, Keeps (fun r => P r ∧ Streams r) (onConn (Conn.writeAll .frame bytes))

variable {P Q : Response → Prop}

theorem Rides.and (h : Rides P) (h' : Rides Q) : Rides fun r => P r ∧ Q r where
  toKept := h.toKept.and h'.toKept
  streams r hr := ⟨h.streams r hr.1, h'.streams r hr.2⟩
  frame bytes := ((h.frame bytes).and (h'.frame bytes)).weaken (fun _ hr => ⟨⟨hr.1.1, hr.2⟩, hr.1.2, hr.2⟩)
    (fun _ _ hr => ⟨⟨hr.1.1, hr.2.1⟩, hr.1.2⟩) (fun _ _ hr => ⟨⟨hr.1.1, hr.2.1⟩, hr.1.2⟩)

theorem rides_of_forall (h : ∀ r, P r) : Rides P where
  toKept := kept_of_forall h
  streams _ _ := h _
  frame _ := (keeps_of_forall h).and (keeps_onConn_streams _)

theorem rides_streams : Rides Streams where
  toKept := kept_streams
  streams _ hr := ⟨hr.1, .inr (.inr rfl)⟩
  frame _ := (keeps_onConn_streams _).and (keeps_onConn_streams _)

theorem rides_delimited : Rides Delimited where
  toKept := kept_delimited
  streams _ hr := hr
  frame _ := (keeps_zoom fun _ hr c _ => by cases Conn.writeAll .frame _ c <;> exact hr).and (keeps_onConn_streams _)

theorem Rides.guard (h : Rides P) (o : Prop) : Rides fun r => o → P r := by
  by_cases ho : o
  · have hprop : (fun r => o → P r) = P := funext fun r => propext ⟨fun hr => hr ho, fun hr _ => hr⟩
    rw [hprop]
    exact h
  · exact rides_of_forall fun _ h => absurd h ho

/-- Writing the header block, given what its lines keep once the headers count as sent. -/
theorem keeps_writeHeader_lines {P : Response → Prop} (hheaders : ∀ r headers, P r → P (r.setHeaders headers))
    (hsent : ∀ r, P r → P { r with headersWritten := true })
    (hline : ∀ line, Keeps (fun r => P r ∧ r.headersWritten = true) (writeLine line)) : Keeps P writeHeader := by
  have hput : Keeps P putContentType := by
    refine keeps_get_bind fun r _ => ?_
    split
    · refine keeps_get_bind fun r _ => ?_
      split
      · exact keeps_fail _
      split
      · exact keeps_fail _
      split
      · exact keeps_fail _
      · split
        · exact keeps_fail _
        · exact keeps_modify fun r hr => hheaders r _ hr
    · exact keeps_pure _
  have hfields : ∀ entries, Keeps (fun r => P r ∧ r.headersWritten = true) (writeFields entries) := by
    intro entries
    induction entries with
    | nil => exact keeps_pure _
    | cons entry rest ih => exact (hline _).bind fun _ => ih
  have hframing : ∀ r : Response, Keeps (fun r => P r ∧ r.headersWritten = true) (writeFraming r) := by
    intro r
    unfold writeFraming
    split
    · exact hline _
    split
    · split
      · exact hline _
      · exact keeps_pure _
    · exact keeps_pure _
  refine keeps_get_bind fun r _ => ?_
  split
  · exact keeps_pure _
  · refine hput.bind fun _ => Triple.bind (Q := fun _ r => P r ∧ r.headersWritten = true)
      (triple_modify fun r hr => ⟨hsent r hr, rfl⟩) fun _ => ?_
    have hblock : Keeps (fun r => P r ∧ r.headersWritten = true) (do
        let r ← get
        writeLine (statusLine r.status)
        writeFields r.headers.entries
        Act.when (!r.keepalive) (writeLine (ascii "Connection: close"))
        writeFraming r
        writeLine []) :=
      keeps_get_bind fun r _ => (hline _).bind fun _ => (hfields _).bind fun _ => ((hline _).when _).bind fun _ =>
        (hframing r).bind fun _ => hline _
    exact hblock.weaken (fun _ hr => hr) (fun _ _ hr => hr.1) fun _ _ hr => hr.1

section conn
variable {C : Conn → Prop} (hwrite : ∀ part, part ≠ .interim → ∀ bytes, Keeps C (Conn.writeAll part bytes))
  (hflush : Keeps C Conn.flush)

theorem keeps_onConn {x : Act Conn Unit} (h : Keeps C x) : Keeps (fun r => C r.conn) (onConn x) :=
  keeps_zoom fun _ hr => h.weaken (fun _ hc => hc ▸ hr) (fun _ _ hc => hc) fun _ _ hc => hc

include hwrite in
theorem keeps_writeHeader_conn : Keeps (fun r => C r.conn) writeHeader :=
  keeps_writeHeader_lines (fun _ _ hr => hr) (fun _ hr => hr) fun _ =>
    (keeps_onConn (hwrite .head (by decide) _)).and (keeps_onConn_sent _)

include hwrite hflush

/-- **A property of the connection** that survives whatever is written to it, interim responses aside. -/
theorem rides_of_conn : Rides fun r => C r.conn where
  toKept := by
    refine Stable.kept ⟨fun hr hu => by rw [hu.conn]; exact hr, keeps_writeHeader_conn hwrite, fun bytes => ?_, ?_⟩
      (fun _ hr => hr) fun _ hr _ => hr
    · exact (keeps_onConn (hwrite .body (by decide) bytes)).and (keeps_onConn_streams _)
    · exact (keeps_onConn hflush).and (keeps_onConn_streams _)
  streams _ hr := hr
  frame bytes := (keeps_onConn (hwrite .frame (by decide) bytes)).and (keeps_onConn_streams _)

theorem keeps_write_conn : Keeps (fun r => C r.conn) write :=
  keeps_write_of (fun bytes => keeps_onConn (hwrite .body (by decide) bytes)) (keeps_onConn hflush)
    (keeps_writeHeader_conn hwrite) (fun _ hr => hr) (fun _ hr => hr) fun _ hr => hr

end conn

/-- What a call on a WebSocket keeps of the connection it writes to. -/
theorem Rides.survives (h : Rides P) (res : Response) :
    WebSocket.Survives fun w => P (res.setConn w.conn) ∧ Streams (res.setConn w.conn) := by
  have hconn : ∀ {x : Act Conn Unit}, Keeps (fun r => P r ∧ Streams r) (onConn x) →
      Keeps (fun c => P (res.setConn c) ∧ Streams (res.setConn c)) x := by
    intro x hx c hc
    cases hrun : x c with
    | ok a c' =>
        have honConn : onConn x (res.setConn c) = .ok a (res.setConn c') := by
          simp only [onConn, zoom, setConn_conn, hrun]
          rfl
        exact hx.ok hc honConn
    | error f c' =>
        have honConn : onConn x (res.setConn c) = .error f (res.setConn c') := by
          simp only [onConn, zoom, setConn_conn, hrun]
          rfl
        exact hx.error hc honConn
  exact WebSocket.survives_of_conn (fun bytes => hconn (h.frame bytes)) (hconn h.flush)

theorem Rides.acceptUpgrade (h : Rides P) (key : Bytes) : Keeps P (Exchange.acceptUpgrade key) := by
  refine Keeps.bind (h.blind.assign fun _ => ⟨rfl, rfl, rfl, rfl, rfl, id, fun _ => rfl, fun _ => ⟨rfl, rfl⟩⟩) fun _ => ?_
  refine (h.blind.header _ _).bind fun _ => (h.blind.header _ _).bind fun _ => (h.blind.header _ _).bind fun _ => ?_
  refine Triple.bind (Q := fun _ r => P r ∧ r.streaming = true)
    (triple_modify fun r hr => ⟨h.streams r hr, rfl⟩) fun _ => ?_
  refine Triple.bind (Q := fun _ r => P r ∧ Streams r) (Triple.weaken
    (writeHeader_sent (h.writeHeader.and keeps_writeHeader_streaming)) (fun _ hr => hr)
    (fun _ _ hr => ⟨hr.1.1, hr.2, .inr (.inr hr.1.2)⟩) fun _ _ hr => hr.1) fun _ => ?_
  exact Triple.weaken h.flush (fun _ hr => hr) (fun _ _ hr => hr.1) fun _ _ hr => hr.1

theorem acceptUpgrade_streams (key : Bytes) : Triple (fun _ => True) (Exchange.acceptUpgrade key)
    (fun _ r => Streams r) (fun _ _ => True) := by
  have hfree : ∀ {α : Type} {x : Act Response α}, Triple (fun _ => True) x (fun _ _ => True) (fun _ _ => True) :=
    keeps_of_forall fun _ => trivial
  refine hfree.bind fun _ => hfree.bind fun _ => hfree.bind fun _ => hfree.bind fun _ => ?_
  refine Triple.bind (triple_modify (Q := fun _ r => r.streaming = true) fun _ _ => rfl) fun _ => ?_
  refine Triple.bind (Q := fun _ r => Streams r) (Triple.weaken (writeHeader_sent keeps_writeHeader_streaming)
    (fun _ hr => hr) (fun _ _ hr => ⟨hr.2, .inr (.inr hr.1)⟩) fun _ _ _ => trivial) fun _ => ?_
  exact (keeps_onConn_streams Conn.flush).weaken (fun _ hr => hr) (fun _ _ hr => hr) fun _ _ _ => trivial

end Response

namespace HandlerState

open Response

/-- What an action on the response leads to, whatever was handed out. -/
theorem has_onRes {P Q : Response → Prop} {x : Act Response Unit} (h : Triple P x (fun _ => Q) (fun _ => Q))
    (hopened : ∀ o w : Prop, Keeps (fun r => (o → Streams r) ∧ (w → Delimited r)) x) :
    Triple (Has P) (onRes x) (fun _ => Has Q) (fun _ => Has Q) := by
  intro st hst
  unfold onRes zoom
  cases hrun : x st.res with
  | ok a r => exact ⟨h.ok hst.1 hrun, (hopened st.Opened (st.stream.isSome = true)).ok hst.2 hrun⟩
  | error e r => exact ⟨h.error hst.1 hrun, (hopened st.Opened (st.stream.isSome = true)).error hst.2 hrun⟩

end HandlerState

namespace Exchange

open Response HandlerState

variable {L : Llhttp} {P : Bool → Response → Prop} {G : Response → Prop}

/-- The response has the property that goes with whether the client waits, and it is open-ended if there is a
WebSocket. -/
def Holds (P : Bool → Response → Prop) (self : Exchange L) : Prop :=
  Has (fun r => P self.request.expectsContinue r ∧ (self.socket.isSome = true → Streams r)) self.st

/-- What a client that waits is sent. -/
def tell : Act Response Unit := do
  onConn (Conn.writeAll .interim interim)
  onConn Conn.flush

theorem onRes_tell : (do
    onRes (onConn (Conn.writeAll .interim interim))
    onRes (onConn Conn.flush) : Act (Exchange L) Unit) = onRes tell := by
  unfold onRes onState HandlerState.onRes tell
  rw [@zoom_bind Response HandlerState _ _ (·.res) (fun res st => st.setRes res) (fun _ _ => rfl) fun _ _ _ => rfl,
    @zoom_bind HandlerState (Exchange L) _ _ (·.st) (fun st self => self.setState st) (fun _ _ => rfl) fun _ _ _ => rfl]

/-- No step breaks the property, if an interim response is sent under the condition `G` only. -/
structure Carried (G : Response → Prop) (P : Bool → Response → Prop) : Prop where
  rides : ∀ waiting, Rides (P waiting)
  tell : Triple (fun r => P true r ∧ G r) tell (fun _ => P false) (fun _ => P false)

/-- If the client waits, the response meets the condition for telling it to go on. -/
def Ready (G : Response → Prop) (self : Exchange L) : Prop := self.request.expectsContinue = true → G self.res

theorem keeps_onState {α : Type} {x : Act HandlerState α}
    (h : ∀ (waiting : Bool) (o : Prop), Keeps (Has fun r => P waiting r ∧ (o → Streams r)) x) :
    Keeps (Holds (L := L) P) (onState x) :=
  keeps_zoom fun self hself =>
    (h self.request.expectsContinue (self.socket.isSome = true)).weaken (fun _ hs => hs ▸ hself) (fun _ _ hs => hs)
      fun _ _ hs => hs

/-- An action on the response, given what it keeps of the response. -/
theorem keeps_onRes {α : Type} {x : Act Response α} (h : ∀ waiting, Keeps (P waiting) x)
    (hstreams : Keeps Streams x) (hdelimited : Keeps Delimited x) : Keeps (Holds (L := L) P) (onRes x) := by
  have hguard : ∀ {Q : Response → Prop}, Keeps Q x → ∀ o : Prop, Keeps (fun r => o → Q r) x := by
    intro Q hQ o
    by_cases ho : o
    · exact hQ.weaken (fun _ hr => hr ho) (fun _ _ hr _ => hr) fun _ _ hr _ => hr
    · exact keeps_of_forall fun _ h => absurd h ho
  refine keeps_onState fun waiting o => HandlerState.keeps_onRes fun o' w => ?_
  exact ((h waiting).and (hguard hstreams o)).and ((hguard hstreams o').and (hguard hdelimited w))

/-! ### Reading the body -/

theorem waiting_leaves (waiting : Bool) : Target.request.Leaves fun req => req.expectsContinue = waiting where
  method _ _ h := h
  version _ _ _ h := h
  status _ _ _ h hstatus := by
    cases hstatus
    exact h
  url _ _ h := h
  header _ _ _ _ h _ := h
  complete req h := by
    unfold Target.request
    dsimp only
    split <;> exact h

/-- A client that was told to go on does not wait. -/
def Told (P : Bool → Response → Prop) (self : Exchange L) : Prop :=
  Holds P self ∧ self.request.expectsContinue = false

theorem Told.ready {self : Exchange L} (h : Told P self) : Holds P self ∧ Ready G self :=
  ⟨h.1, fun hwaits => by cases h.2.symm.trans hwaits⟩

/-- **A waiting client is told to go on**, and then it does not wait any more. -/
theorem sendContinue_holds (h : Carried G P) : Triple (fun self : Exchange L => Holds P self ∧ Ready G self) sendContinue
    (fun _ => Told P) (fun _ => Told P) := by
  intro self ⟨hself, hready⟩
  unfold sendContinue
  rw [bind_ok (get_run self)]
  cases hwaits : self.request.expectsContinue with
  | false => exact ⟨hself, hwaits⟩
  | true =>
      rw [when_true, bind_ok (modify_run _ _)]
      let told : Exchange L := self.setRequest { self.request with expectsContinue := false }
      have hheld : Has (fun r => (P true r ∧ G r) ∧ (self.socket.isSome = true → Streams r)) told.st := by
        have hholds := hself
        unfold Holds at hholds
        rw [hwaits] at hholds
        exact ⟨⟨⟨hholds.1.1, hready hwaits⟩, hholds.1.2⟩, hholds.2⟩
      have hopened : ∀ o w : Prop, Keeps (fun r => (o → Streams r) ∧ (w → Delimited r)) tell := by
        have hconn : ∀ (x : Act Conn Unit) (o w : Prop),
            Keeps (fun r => (o → Streams r) ∧ (w → Delimited r)) (onConn x) :=
          fun x o w => keeps_zoom fun _ hr c _ => by cases x c <;> exact hr
        exact fun o w => (hconn _ o w).bind fun _ => hconn _ o w
      have htell : Triple (fun r => (P true r ∧ G r) ∧ (self.socket.isSome = true → Streams r)) tell
          (fun _ r => P false r ∧ (self.socket.isSome = true → Streams r))
          (fun _ r => P false r ∧ (self.socket.isSome = true → Streams r)) :=
        h.tell.both ((hopened _ False).weaken (fun _ hr => ⟨hr, False.elim⟩) (fun _ _ hr => hr.1) fun _ _ hr => hr.1)
      rw [onRes_tell]
      have hrun : Triple (fun s => s = told) (onRes tell) (fun _ => Told P) (fun _ => Told P) := by
        refine triple_zoom fun s hs => ?_
        subst hs
        exact (has_onRes htell hopened).weaken (fun _ hst => hst ▸ hheld) (fun _ _ hst => ⟨hst, rfl⟩)
          fun _ _ hst => ⟨hst, rfl⟩
      exact hrun told rfl

/-- Reading from the connection changes neither the response nor whether the client waits. -/
theorem onInbound_holds {α : Type} {x : Act (Inbound L Request) α}
    (h : ∀ waiting, Keeps (fun s => s.parser.msg.expectsContinue = waiting) x) :
    Keeps (Holds P) (onInbound x) :=
  keeps_zoom fun self hself =>
    (h self.request.expectsContinue).weaken (fun s hs => hs ▸ rfl)
      (fun _ s hs => by
        show Has (fun r => P s.parser.msg.expectsContinue r ∧ _) _
        rw [hs]
        exact hself)
      (fun _ s hs => by
        show Has (fun r => P s.parser.msg.expectsContinue r ∧ _) _
        rw [hs]
        exact hself)

theorem readBody_holds (h : Carried G P) (dest : ℕ) : Triple (fun self : Exchange L => Holds P self ∧ Ready G self)
    (readBody dest) (fun _ => Told P) (fun _ => Told P) := by
  have hwaits : ∀ waiting, Keeps (fun s : Inbound L Request => s.parser.msg.expectsContinue = waiting)
      (Inbound.stream .request dest) := fun waiting => Inbound.stream_leaves (waiting_leaves waiting) dest
  exact (sendContinue_holds h).bind fun _ =>
    (onInbound_holds hwaits).and (onInbound_leaves (P := fun req => req.expectsContinue = false) (hwaits false))

theorem bodyLoop_told (h : Carried G P) (room : ℕ → ℕ) (fuel : ℕ) : ∀ remaining got,
    Keeps (Told (L := L) P) (bodyLoop room fuel remaining got) := by
  induction fuel with
  | zero => exact fun _ _ => keeps_die _
  | succ fuel ih =>
      intro remaining got
      unfold bodyLoop
      split
      · exact keeps_fail _
      · have hread : Keeps (Told (L := L) P) (readBody (min remaining (room got.length + 1))) :=
          (readBody_holds h _).weaken (fun _ hs => hs.ready) (fun _ _ hs => hs) fun _ _ hs => hs
        refine hread.attempt.bind fun result => ?_
        split
        · exact keeps_pure _
        · exact keeps_fail _
        · exact keeps_fail _
        · exact ih _ _

theorem bodyLoop_holds (h : Carried G P) (room : ℕ → ℕ) (fuel : ℕ) {remaining : ℕ} (hremaining : 0 < remaining)
    (got : Bytes) : Triple (fun self : Exchange L => Holds P self ∧ Ready G self) (bodyLoop room (fuel + 1) remaining got)
      (fun _ => Told P) (fun _ => Told P) := by
  unfold bodyLoop
  rw [if_neg (Nat.ne_of_gt hremaining)]
  refine triple_attempt_bind (readBody_holds h _) (fun part => bodyLoop_told h room fuel _ _) (fun e => ?_)
    fun _ _ hs => hs
  split
  · exact keeps_pure _
  · exact keeps_fail _
  · exact keeps_fail _
  · next heq => cases heq

theorem body_tells (h : Carried G P) (room : ℕ → ℕ) : Triple (fun self : Exchange L => Holds P self ∧
    self.request.bodyRead = false ∧ 0 < self.request.config.maxBodySize ∧ Ready G self) (body room)
    (fun _ => Told P) (fun _ => Told P) := by
  intro self ⟨hself, hread, hmax, hready⟩
  unfold body
  rw [bind_ok (get_run self), hread, if_neg (by decide)]
  have hstore : ∀ result, Keeps (Told (L := L) P) (do
      modify (storeBody result)
      let self ← get
      pure self.request.cachedBody) :=
    fun result => Keeps.bind (keeps_modify fun _ hs => hs) fun _ => keeps_get_bind fun _ _ => keeps_pure _
  exact (Triple.bind (bodyLoop_holds h room _ hmax _) hstore) self ⟨hself, hready⟩

theorem read_tells (h : Carried G P) (dest : ℕ) : Triple (fun self : Exchange L => Holds P self ∧
    self.reader = true ∧ Ready G self) (read dest) (fun _ => Told P) (fun _ => Told P) := by
  intro self ⟨hself, hreader, hready⟩
  unfold read
  rw [bind_ok (get_run self), hreader, when_true]
  exact (Triple.bind (readBody_holds h dest) fun _ => keeps_pure _) self ⟨hself, hready⟩

/-! ### WebSockets -/

theorem upgradeWebSocket_holds (h : ∀ waiting, Rides (P waiting)) :
    Keeps (Holds (L := L) P) upgradeWebSocket := by
  refine keeps_get_bind fun self _ => ?_
  split
  · exact keeps_pure _
  · next key _ =>
      have haccept : Keeps (Holds (L := L) P) (onRes (acceptUpgrade key)) :=
        keeps_onRes (fun waiting => (h waiting).acceptUpgrade key) (rides_streams.acceptUpgrade key)
          (rides_delimited.acceptUpgrade key)
      have hstreams : Triple (fun _ : Exchange L => True) (onRes (acceptUpgrade key)) (fun _ s => Streams s.res)
          (fun _ _ => True) := by
        refine triple_zoom fun s _ => triple_zoom fun st _ => ?_
        exact (acceptUpgrade_streams key).weaken (fun _ _ => trivial) (fun _ _ hr => hr) fun _ _ _ => trivial
      refine Triple.bind (Q := fun _ s => Holds P s ∧ Streams s.res) ?_ fun _ => ?_
      · exact (haccept.both hstreams).weaken (fun _ hs => ⟨hs, trivial⟩) (fun _ _ hs => hs) fun _ _ hs => hs.1
      · refine Triple.bind (triple_modify fun s hs => ?_) fun _ => keeps_pure _
        exact ⟨⟨hs.1.1.1, fun _ => hs.2⟩, hs.1.2⟩

/-- A call on a WebSocket keeps what frames and flushes keep. -/
theorem keeps_socketCall {W : WebSocket → Prop} (hW : WebSocket.Survives W) (op : SocketOp) :
    Keeps W (socketCall op) := by
  cases op with
  | send type data => exact WebSocket.keeps_send hW.when type trivial
  | ping data => exact WebSocket.keeps_ping hW.when trivial
  | close code reason => exact hW.writeClose code reason
  | receive => exact (WebSocket.keeps_receive hW).bind fun _ => keeps_pure _

theorem request_detachSocket (ws : WebSocket) (self : Exchange L) :
    (detachSocket ws self).request = self.request := by
  show (self.inbound.readSlice _).parser.msg = _
  unfold Inbound.readSlice
  split <;> rfl

theorem onSocket_holds (h : ∀ waiting, Rides (P waiting)) (op : SocketOp) :
    Keeps (Holds (L := L) P) (onSocket op) := by
  intro self hself
  unfold onSocket
  rw [bind_ok (get_run self)]
  cases hsocket : self.socket with
  | none => exact hself
  | some ws =>
      have hstreams : Streams self.res := hself.1.2 (by rw [hsocket]; rfl)
      have hcall : Triple (fun s => s = self)
          (zoom (fun self => self.attachSocket ws) detachSocket (socketCall op)) (fun _ => Holds P) (fun _ => Holds P) := by
        refine triple_zoom fun s hs => ?_
        subst hs
        have hsurvives := ((h s.request.expectsContinue).and
          (rides_delimited.guard (s.st.stream.isSome = true))).survives s.res
        have hlands : ∀ w : WebSocket, ((P s.request.expectsContinue (s.res.setConn w.conn) ∧
            (s.st.stream.isSome = true → Delimited (s.res.setConn w.conn))) ∧ Streams (s.res.setConn w.conn)) →
            Holds P (detachSocket w s) := by
          intro w hw
          unfold Holds
          rw [request_detachSocket]
          exact ⟨⟨hw.1.1, fun _ => hw.2⟩, fun _ => hw.2, hw.1.2⟩
        exact (keeps_socketCall hsurvives op).weaken
          (fun w hw => by
            subst hw
            exact ⟨⟨hself.1.1, hself.2.2⟩, hstreams⟩)
          (fun _ w hw => hlands w hw) fun _ w hw => hlands w hw
      dsimp only
      refine triple_attempt_bind hcall (fun _ => ?_) (fun e => ?_) (fun _ _ hs => hs) self rfl
      · exact keeps_pure _
      · refine Keeps.bind (keeps_modify fun s hs => ?_) fun _ => keeps_fail _
        split <;> exact hs

/-! ### Runs -/

/-- The step reads the body from the connection. -/
def readsBody (self : Exchange L) : Step → Bool
  | .read _ => self.reader
  | .body _ => !self.request.bodyRead && decide (0 < self.request.config.maxBodySize)
  | _ => false

/-- **A step that reads the body** tells a client that waits to go on. -/
theorem perform_tells (h : Carried G P) (step : Step) : Triple (fun self : Exchange L => Holds P self ∧
    self.readsBody step = true ∧ Ready G self) (perform step) (fun _ => Told P) (fun _ => Told P) := by
  cases step with
  | read dest => exact read_tells h dest
  | body room =>
      refine Triple.bind ((body_tells h room).weaken (fun self hs => ?_) (fun _ _ hs => hs) fun _ _ hs => hs)
        fun _ => keeps_pure _
      obtain ⟨hself, hreads, hready⟩ := hs
      have hboth : (!self.request.bodyRead && decide (0 < self.request.config.maxBodySize)) = true := hreads
      rw [Bool.and_eq_true, Bool.not_eq_true', decide_eq_true_eq] at hboth
      exact ⟨hself, hboth.1, hboth.2, hready⟩
  | _ =>
      intro self hs
      cases hs.2.1

theorem perform_quiet (h : ∀ waiting, Rides (P waiting)) {step : Step} {self : Exchange L} (hself : Holds P self)
    (hquiet : self.readsBody step = false) : Holds P (final (perform step) self) := by
  cases step with
  | res op =>
      exact (keeps_onState fun waiting o =>
        Executor.keeps_exec ((h waiting).and (rides_streams.guard o)).toKept op).final hself
  | setKeepalive keepalive =>
      have hassign : ∀ {Q : Response → Prop}, Rides Q → Keeps Q (modify fun res => { res with keepalive := keepalive }) :=
        fun hQ => hQ.blind.assign fun _ => ⟨rfl, rfl, rfl, rfl, rfl, id, fun _ => rfl, fun _ => ⟨rfl, rfl⟩⟩
      exact (keeps_onRes (fun waiting => hassign (h waiting)) (hassign rides_streams)
        (hassign rides_delimited)).final hself
  | reader => exact hself
  | read dest =>
      unfold perform read
      rw [final_bind_ok (get_run self), show self.reader = false from hquiet, when_false, final_of_ok (pure_run ..)]
      exact hself
  | body room =>
      unfold perform
      refine final_bind_of ?_ fun _ => keeps_pure _
      unfold body
      rw [final_bind_ok (get_run self)]
      cases hread : self.request.bodyRead with
      | true => exact hself
      | false =>
          -- nothing is read under a limit of no bytes at all
          have hmax : self.request.config.maxBodySize = 0 := by
            have hnone : (!self.request.bodyRead && decide (0 < self.request.config.maxBodySize)) = false := hquiet
            simpa [hread] using hnone
          rw [if_neg (by decide)]
          dsimp only
          rw [hmax, bodyLoop, if_pos rfl]
          exact hself
  | upgradeWebSocket => exact ((upgradeWebSocket_holds h).bind fun _ => keeps_pure _).final hself
  | socket op => exact (onSocket_holds h op).final hself

/-- **No step breaks the property**, if an interim response is sent under the condition only. -/
theorem perform_holds (h : Carried G P) {step : Step} {self : Exchange L} (hself : Holds P self)
    (hready : self.readsBody step = true → Ready G self) : Holds P (final (perform step) self) := by
  cases hreads : self.readsBody step with
  | true => exact ((perform_tells h step).final ⟨hself, hreads, hready hreads⟩).1
  | false => exact perform_quiet h.rides hself hreads

/-- In every step that reads the body, the response meets the condition if the client waits. -/
def AllReady (G : Response → Prop) : List Step → Exchange L → Prop
  | [], _ => True
  | step :: rest, self => (self.readsBody step = true → Ready G self) ∧
      ∀ result next, attempt (perform step) self = .ok result next → AllReady G rest next

theorem allReady_of_forall (hG : ∀ r, G r) (steps : List Step) (self : Exchange L) : AllReady G steps self := by
  induction steps generalizing self with
  | nil => trivial
  | cons step rest ih => exact ⟨fun _ _ => hG _, fun _ _ _ => ih _⟩

/-- **No run of steps breaks the property.** -/
theorem final_performAll (h : Carried G P) {steps : List Step} {self : Exchange L} (hself : Holds P self)
    (hready : AllReady G steps self) : Holds P (final (performAll steps) self) := by
  induction steps generalizing self with
  | nil => exact hself
  | cons step rest ih =>
      have hstep : Holds P (final (perform step) self) := perform_holds h hself hready.1
      unfold performAll
      cases hattempt : attempt (perform step) self with
      | ok result s =>
          have hnext := hready.2 result s hattempt
          obtain rfl := final_of_attempt hattempt
          rw [final_bind_ok hattempt]
          exact final_bind_of (ih hstep hnext) fun _ => keeps_pure _
      | error e s =>
          rw [final_of_error (bind_error hattempt), ← final_of_error hattempt, final_attempt]
          exact hstep

/-! ### Behind the steps -/

theorem conclude_holds (h : ∀ waiting, Rides (P waiting)) (outcome : Option Error) :
    Keeps (Holds (L := L) P) (onState (Executor.conclude outcome)) := by
  have herror : ∀ {Q : Response → Prop}, Rides Q → Keeps Q Executor.handleError := fun hQ => hQ.blind.handleError
  refine keeps_onState fun waiting o => ?_
  cases outcome with
  | none => exact keeps_pure _
  | some err =>
      unfold Executor.conclude
      dsimp only
      split
      · exact keeps_fail _
      · refine keeps_get_bind fun st _ => ?_
        split
        · exact keeps_fail _
        · refine HandlerState.keeps_onRes fun o' w => ?_
          exact ((herror (h waiting)).and (herror (rides_streams.guard o))).and
            ((herror (rides_streams.guard o')).and (herror (rides_delimited.guard w)))

theorem nameCause_holds {α : Type} {x : Act (Exchange L) α} {self : Exchange L} (h : Holds P (final x self)) :
    Holds P (final (nameCause x) self) := by
  unfold nameCause
  rw [← final_attempt] at h
  refine final_bind_of h fun result => ?_
  cases result with
  | ok a => exact keeps_pure _
  | error e => exact keeps_get_bind fun _ _ => keeps_fail _

theorem noKeepalive_holds (h : ∀ waiting, Rides (P waiting)) : Keeps (Holds (L := L) P) noKeepalive := by
  have hassign : ∀ {Q : Response → Prop}, Rides Q → Keeps Q (modify Response.noKeepalive) :=
    fun hQ => hQ.blind.assign fun _ => ⟨rfl, rfl, rfl, rfl, rfl, id, fun _ => rfl, fun _ => ⟨rfl, rfl⟩⟩
  exact keeps_onRes (fun waiting => hassign (h waiting)) (hassign rides_streams) (hassign rides_delimited)

end Exchange

namespace Inbound

variable {L : Llhttp} {M : Type} {T : Target M} {P : M → Prop}

/-- Discarding a body keeps what the callbacks keep of the message. -/
theorem discardShort_leaves (h : T.Leaves P) (bufferSize n : ℕ) :
    Keeps (fun s => P s.parser.msg) (discardShort T bufferSize n : Act (Inbound L M) ℕ) := by
  have hloop : ∀ fuel remaining, Keeps (fun s => P s.parser.msg)
      (discardLoop T bufferSize n fuel remaining : Act (Inbound L M) ℕ) := by
    intro fuel
    induction fuel with
    | zero => exact fun _ => keeps_die _
    | succ fuel ih =>
        intro remaining
        refine (stream_leaves h _).attempt.bind fun result => ?_
        split
        · exact keeps_pure _
        · exact keeps_fail _
        · split
          · exact keeps_pure _
          · exact ih _
  unfold discardShort
  split
  · exact keeps_pure _
  · exact keeps_get_bind fun _ _ => hloop _ _

end Inbound

namespace Exchange

open Response

variable {L : Llhttp} {P : Bool → Response → Prop}

/-- **The drain** reads, and says at most that the connection is to be closed. -/
theorem drain_holds (h : ∀ waiting, Rides (P waiting)) (config : RequestConfig) :
    Keeps (Holds (L := L) P) (drain config) := by
  refine keeps_get_bind fun self _ => ?_
  split
  · exact keeps_pure _
  split
  · refine (keeps_assert _).bind fun _ => ?_
    refine (onInbound_holds fun waiting => Inbound.discardShort_leaves (waiting_leaves waiting) 4096 _).attempt.bind
      fun result => ?_
    split
    · exact (noKeepalive_holds h).when _
    · refine keeps_get_bind fun self _ => ?_
      split
      · exact keeps_fail _
      · exact noKeepalive_holds h
  · exact noKeepalive_holds h

end Exchange

/-! ### Routing -/

namespace Request

/-- Routing changes nothing of the request but what it finds out from the URL. -/
structure Unrouted (P : Request → Prop) : Prop where
  query : ∀ req query, P req → P (req.setQuery query)
  params : ∀ req params, P req → P (req.setParams params)

variable {P : Request → Prop}

theorem keeps_urlUnescape (input : Bytes) : Keeps P (urlUnescape input : Act Request Bytes) := by
  unfold urlUnescape
  split
  · exact keeps_fail _
  · split
    · exact keeps_pure _
    · split
      · exact keeps_die _
      · exact keeps_pure _

theorem Unrouted.parsePairs (h : Unrouted P) (reserved : ℕ) : ∀ pairs : List Bytes,
    Keeps P (Request.parsePairs reserved pairs)
  | [] => keeps_pure _
  | pair :: rest => by
      have hpair : Keeps P (parsePair pair) := by
        unfold parsePair
        split
        · exact (keeps_urlUnescape _).bind fun _ => (keeps_urlUnescape _).bind fun _ => keeps_pure _
        · exact (keeps_urlUnescape _).bind fun _ => keeps_pure _
      unfold Request.parsePairs
      split
      · exact h.parsePairs reserved rest
      · refine keeps_get_bind fun req _ => ?_
        split
        · exact keeps_fail _
        · refine hpair.bind fun pair => Keeps.bind ?_ fun query =>
            Keeps.bind (keeps_modify fun req hreq => h.query req query hreq) fun _ => h.parsePairs reserved rest
          unfold putAssumeCapacity
          split
          · exact keeps_pure _
          · exact keeps_die _

theorem Unrouted.parseQueryString (h : Unrouted P) (queryString : Bytes) :
    Keeps P (Request.parseQueryString queryString) := by
  unfold Request.parseQueryString
  split
  · exact keeps_pure _
  · exact keeps_get_bind fun _ _ => (keeps_assert _).bind fun _ => h.parsePairs _ _

variable {H M : Type}

theorem keeps_checkParamCount : Keeps P Node.checkParamCount := by
  refine keeps_get_bind fun _ _ => ?_
  split
  · exact keeps_fail _
  · exact keeps_pure _

theorem keeps_requireName (c : Node H M) : Keeps P c.requireName := by
  unfold Node.requireName
  split
  · exact keeps_pure _
  · exact keeps_die _

theorem Unrouted.tryParam (h : Unrouted P) {descend : Node H M → Act Request (Option (Node H M))} (segment : Bytes)
    {c : Node H M} (hdescend : Keeps P (descend c)) : Keeps P (Node.tryParam descend segment c) := by
  unfold Node.tryParam
  split
  · exact keeps_pure _
  · refine keeps_checkParamCount.bind fun _ => (keeps_requireName c).bind fun name =>
      Keeps.bind (keeps_modify fun req hreq => h.params req _ hreq) fun _ => hdescend.bind fun result => ?_
    split
    · exact keeps_pure _
    · exact Keeps.bind (keeps_modify fun req hreq => h.params req _ hreq) fun _ => keeps_pure _

theorem Unrouted.tryWildcard (h : Unrouted P) (remaining : Bytes) (c : Node H M) :
    Keeps P (Node.tryWildcard remaining c) := by
  unfold Node.tryWildcard
  split
  · exact keeps_pure _
  · exact keeps_checkParamCount.bind fun _ => (keeps_requireName c).bind fun name =>
      Keeps.bind (keeps_modify fun req hreq => h.params req _ hreq) fun _ => keeps_pure _

theorem Unrouted.matchRecursive (h : Unrouted P) (path : Bytes) : ∀ (segments : List (Bytes × ℕ)) (node : Node H M),
    Keeps P (node.matchRecursive path segments) := by
  intro segments
  induction segments with
  | nil => exact fun _ => keeps_pure _
  | cons segment rest ih =>
      intro node
      have hstatic : ∀ c : Node H M, Keeps P (Node.tryStatic (Node.matchRecursive path rest) segment.1 c) := by
        intro c
        induction c with
        | null => exact keeps_pure _
        | mk s k n st pa wi nx rt ihst ihpa ihwi ihnx =>
            unfold Node.tryStatic
            split
            · refine (ih _).bind fun result => ?_
              split
              · exact keeps_pure _
              · exact ihnx
            · exact ihnx
      unfold Node.matchRecursive
      refine (hstatic _).bind fun result => ?_
      split
      · exact keeps_pure _
      · refine (h.tryParam segment.1 (ih _)).bind fun result => ?_
        split
        · exact keeps_pure _
        · exact h.tryWildcard _ _

/-- **Routing** changes the query and the parameters of a request only. -/
theorem Unrouted.findHandler (h : Unrouted P) (router : Router H M) : Keeps P router.findHandler := by
  have hmatch : ∀ m path segments, Keeps P (router.matchIn m path segments) := by
    intro m path segments
    unfold Router.matchIn
    split
    · exact keeps_pure _
    · refine (h.matchRecursive path segments _).bind fun node => ?_
      split <;> exact keeps_pure _
  have hsplit : Keeps P Router.splitUrl := by
    refine Keeps.bind (keeps_modify fun req hreq => h.query req ∅ hreq) fun _ => keeps_get_bind fun req _ => ?_
    split
    · exact (h.parseQueryString _).bind fun _ => keeps_pure _
    · exact keeps_pure _
  refine hsplit.bind fun path => keeps_get_bind fun req _ => (hmatch _ _ _).bind fun found => ?_
  split
  · exact keeps_pure _
  · split
    · exact hmatch _ _ _
    · exact keeps_pure _

end Request
namespace Exchange

open HandlerState

variable {L : Llhttp} {P : Bool → Response → Prop} {H M : Type}

theorem route_holds (router : Router H M) : Keeps (Holds (L := L) P) (onRequest router.findHandler) := by
  refine keeps_zoom fun self hself => ?_
  have hwaits : Request.Unrouted fun req => req.expectsContinue = self.request.expectsContinue :=
    ⟨fun _ _ h => h, fun _ _ h => h⟩
  have hstays : ∀ req : Request, req.expectsContinue = self.request.expectsContinue →
      Holds P (self.setRequest req) := by
    intro req hreq
    show Has (fun r => P req.expectsContinue r ∧ _) _
    rw [hreq]
    exact hself
  exact (hwaits.findHandler router).weaken (fun req hreq => hreq ▸ rfl) (fun _ req hreq => hstays req hreq)
    fun _ req hreq => hstays req hreq

end Exchange
end Dusty
