import Dusty.Kept

/-! # What a handler can reach

Every sequence of operations keeps `Reach`: the response is sound, and a streaming writer, an
event stream or an event writer exists only if the headers were sent. -/

namespace Dusty

open Act

namespace Response

variable {base : Response} {opened : Prop}

theorem Sound.unseen {r r' : Response} (h : Sound base opened r) (hu : Unseen r r') :
    Sound base opened r' := by
  refine ⟨by rw [hu.conn]; exact h.faults, hu.valid h.valid, fun hw => ?_,
    fun ho => hu.headersWritten.trans (h.sent ho), hu.head.trans h.head⟩
  have hopen : r.headersWritten = false := hu.headersWritten ▸ hw
  obtain ⟨hwritten, hstreaming, hsent, hconn⟩ := h.fresh hopen
  exact ⟨hu.written.trans hwritten, hu.streaming.trans hstreaming, (hu.fresh hopen).trans hsent,
    hu.conn.trans hconn⟩

/-- **No operation of a handler makes a response unsound.** -/
theorem kept_sound : Kept (Sound base opened) := by
  have hstable : Stable (Sound base opened) := by
    have hlive : ∀ {x : Act Response Unit}, Keeps (Sound base True) x → Keeps Streams x →
        Keeps (fun r => Sound base opened r ∧ Streams r) x := fun hx hs =>
      (hx.and hs).weaken (fun _ (hr : Sound base opened _ ∧ Streams _) =>
        ⟨hr.1.toOpened hr.2.1, hr.2⟩) (fun _ _ hr => ⟨hr.1.relax, hr.2⟩)
        fun _ _ hr => ⟨hr.1.relax, hr.2⟩
    exact ⟨Sound.unseen, keeps_writeHeader,
      fun bytes => hlive (keeps_writeAll .body bytes) (keeps_onConn_streams _),
      hlive keeps_flush (keeps_onConn_streams _)⟩
  have hmark : ∀ r, Sound base opened r → Streams r → Sound base opened r.markWritten := by
    intro r hr hw
    exact ⟨hr.faults, hr.valid, fun hw' => absurd hw.1 (by simp [markWritten] at hw'; simp [hw']),
      hr.sent, hr.head⟩
  refine ⟨hstable, ?_, ?_⟩
  · exact Triple.weaken startEventStream_triple (fun _ hr => hr) (fun _ _ hr => hr.1.relax)
      fun _ _ hr => hr
  · exact ((hstable.finish hmark).and keeps_finish_delimited).weaken
      (fun _ ha => ⟨⟨ha.1, ha.2.streams⟩, ha.2⟩) (fun _ _ ha => ⟨ha.1.1, ha.2⟩)
      fun _ _ ha => ⟨ha.1.1, ha.2⟩

theorem keeps_handleNotFound : Keeps (Sound base opened) Executor.handleNotFound :=
  kept_sound.blind.handleNotFound

theorem keeps_handleError : Keeps (Sound base opened) Executor.handleError := kept_sound.blind.handleError

end Response

namespace HandlerState

/-- What holds in every state of a handler. -/
def Reach (base : Response) (st : HandlerState) : Prop := Response.Sound base st.Opened st.res

variable {base : Response}

/-- What `onRes` returns is what the action returns. -/
theorem onRes_triple {α : Type} {x : Act Response α} {opened : Prop}
    {Q : α → Response → Prop} {E : Fault → Response → Prop} {st : HandlerState}
    (h : Triple (Response.Sound base opened) x Q E) (hst : Response.Sound base opened st.res) :
    match onRes x st with
    | .ok a st' => ∃ r, st' = st.setRes r ∧ Q a r
    | .error e st' => ∃ r, st' = st.setRes r ∧ E e r := by
  unfold onRes zoom
  cases hx : x st.res with
  | ok v r => exact ⟨r, rfl, h.ok hst hx⟩
  | error e r => exact ⟨r, rfl, h.error hst hx⟩

/-- The response a handler starts with: the server has set `head` and `keepalive`. -/
def start (conn : Conn) (maxHeaders : ℕ) (head keepalive : Bool) : HandlerState :=
  { res := { Response.init conn maxHeaders with head := head, keepalive := keepalive } }

theorem reach_start {conn : Conn} (h : conn.faults = []) (maxHeaders : ℕ)
    (head keepalive : Bool) :
    Reach (start conn maxHeaders head keepalive).res (start conn maxHeaders head keepalive) := by
  refine ⟨h, .init _, fun _ => ⟨rfl, rfl, rfl, rfl⟩, fun hopen => ?_, rfl⟩
  simp [Opened, start] at hopen

/-- What holds of the response a handler starts with; nothing was handed out yet. -/
theorem has_start {P : Response → Prop} {conn : Conn} {maxHeaders : ℕ} {head keepalive : Bool}
    (h : P (start conn maxHeaders head keepalive).res) : Has P (start conn maxHeaders head keepalive) := by
  refine ⟨h, fun hopen => ?_, fun hstream => ?_⟩
  · simp [Opened, start] at hopen
  · simp [start] at hstream

theorem has_sound_start {conn : Conn} (hconn : conn.faults = []) (maxHeaders : ℕ) (head keepalive : Bool) :
    Has (Response.Sound (start conn maxHeaders head keepalive).res False)
      (start conn maxHeaders head keepalive) :=
  has_start ⟨hconn, .init _, fun _ => ⟨rfl, rfl, rfl, rfl⟩, False.elim, rfl⟩

/-- **Every run of a handler keeps the invariant.** -/
theorem reach_of_runOps {conn : Conn} (hconn : conn.faults = []) {maxHeaders : ℕ}
    {head keepalive : Bool} {ops : List Op} {results : List (Except Error Unit)} {st : HandlerState}
    (h : Executor.runOps ops (start conn maxHeaders head keepalive) = .ok results st) :
    Reach (start conn maxHeaders head keepalive).res st := by
  obtain ⟨hres, hopened, -⟩ := (Executor.keeps_runOps Response.kept_sound ops).ok
    (has_sound_start hconn maxHeaders head keepalive) h
  exact ⟨hres.faults, hres.valid, hres.fresh, fun hopen => (hopened hopen).1, hres.head⟩

end HandlerState

/-! ### The server's `write` -/

namespace Response

/-- What `write` keeps: what its body bytes, its flushes and its header block keep, and its marks. -/
theorem keeps_write_of {P : Response → Prop} (hbody : ∀ bytes, Keeps P (onConn (Conn.writeAll .body bytes)))
    (hflush : Keeps P (onConn Conn.flush)) (hheader : Keeps P writeHeader)
    (hclose : ∀ r, P r → P r.closeBody) (hmark : ∀ r, P r → P r.markWritten)
    (hlost : ∀ r, P r → P r.noKeepalive) : Keeps P write := by
  have hterminator : ∀ self : Response, Keeps P (writeTerminator self) := fun self => (hbody _).when _
  have hbuffered : Keeps P finishBuffered := by
    refine Keeps.bind (keeps_modify hmark) fun _ => keeps_get_bind fun self _ => ?_
    split
    · exact (hterminator self).bind fun _ => hflush
    · refine hheader.bind fun _ => keeps_get_bind fun self _ => ?_
      exact Keeps.bind (Keeps.when (hbody _) _) fun _ => hflush
  have habandoned : ∀ self : Response, Keeps P (finishAbandoned self) := by
    intro self
    refine Keeps.bind ?_ fun _ => hflush.bind fun _ => keeps_modify hmark
    unfold settleAbandoned
    split
    · exact hterminator self
    split
    · exact Keeps.when (keeps_modify hlost) _
    · exact keeps_pure _
  refine keeps_get_bind fun self _ => ?_
  split
  · exact keeps_pure _
  split
  · refine Keeps.bind (keeps_modify hclose) fun _ => ?_
    split
    · exact habandoned self
    · exact hbuffered
  · exact hbuffered

end Response

/-! ### Invariants of runs -/

/-- The operation sends nothing and hands out no writer for what is sent. -/
def Op.prepares : Op → Bool
  | .setStatus _ | .setBody _ | .setContentType _ | .header .. | .setCookie .. | .json _ | .writer
  | .bodyWrite _ | .bodyEnd | .clearWriter | .resetBody | .handleNotFound => true
  | _ => false

namespace Executor

open HandlerState

/-- An action on the response keeps what it keeps of the response. -/
theorem keeps_onRes_of {α : Type} {P : Response → Prop} {x : Act Response α} (h : Keeps P x) :
    Keeps (fun st : HandlerState => P st.res) (onRes x) := by
  intro st hst
  unfold onRes zoom
  cases hrun : x st.res with
  | ok a res => exact h.ok hst hrun
  | error e res => exact h.error hst hrun

theorem keeps_onEvents_of {P : Response → Prop} {x : Act EventWriter.Self Unit}
    (h : Keeps (fun a => P a.res) x) : Keeps (fun st : HandlerState => P st.res) (onEvents x) := by
  refine keeps_get_bind fun st _ => ?_
  split
  · exact keeps_pure _
  · exact keeps_zoom fun st hst a ha => by
      subst ha
      cases hx : x _ with
      | ok u a => exact h.ok (s := ⟨st.res, _⟩) hst hx
      | error e a => exact h.error (s := ⟨st.res, _⟩) hst hx

theorem keeps_onEventWriter_of {P : Response → Prop} (i : ℕ) {x : Act EventWriter.Self Unit}
    (h : Keeps (fun a => P a.res) x) : Keeps (fun st : HandlerState => P st.res) (onEventWriter i x) := by
  refine keeps_get_bind fun st _ => ?_
  split
  · exact keeps_pure _
  · exact keeps_zoom fun st hst a ha => by
      subst ha
      cases hx : x _ with
      | ok u a => exact h.ok (s := ⟨st.res, _⟩) hst hx
      | error e a => exact h.error (s := ⟨st.res, _⟩) hst hx

/-- The state differs from one in the response and in whether there is a `BodyWriter` only. -/
def SameWriters (s st : HandlerState) : Prop :=
  st.stream = s.stream ∧ st.events = s.events ∧ st.eventWriters = s.eventWriters

theorem keeps_onRes_same {α : Type} {P : Response → Prop} {s : HandlerState} {x : Act Response α}
    (h : Keeps P x) : Keeps (fun st => P st.res ∧ SameWriters s st) (onRes x) := by
  intro st hst
  unfold onRes zoom
  cases hrun : x st.res with
  | ok a res => exact ⟨h.ok hst.1 hrun, hst.2⟩
  | error e res => exact ⟨h.error hst.1 hrun, hst.2⟩

/-- **An operation that sends nothing** keeps what does not look at what is not sent, and hands out no writer. -/
theorem keeps_prepares {op : Op} {P : Response → Prop} {s : HandlerState} (h : Response.Blind P)
    (hop : op.prepares = true) : Keeps (fun st => P st.res ∧ SameWriters s st) (exec op) := by
  have hassign : ∀ {f : Response → Response}, (∀ r, Response.Unseen r (f r)) →
      Keeps (fun st => P st.res ∧ SameWriters s st) (onRes (modify f)) :=
    fun hf => keeps_onRes_same (h.assign hf)
  have hbody : ∀ {x : Act Response Unit}, Keeps P x →
      Keeps (fun st => P st.res ∧ SameWriters s st) (onBodyWriter x) :=
    fun hx => keeps_get_bind fun _ _ => (keeps_onRes_same hx).when _
  cases op with
  | setStatus status =>
      exact hassign fun _ => ⟨rfl, rfl, rfl, rfl, rfl, id, fun _ => rfl, fun _ => ⟨rfl, rfl⟩⟩
  | setBody body =>
      exact hassign fun _ => ⟨rfl, rfl, rfl, rfl, rfl, id, fun _ => rfl, fun _ => ⟨rfl, rfl⟩⟩
  | setContentType contentType =>
      exact hassign fun _ => ⟨rfl, rfl, rfl, rfl, rfl, id, fun _ => rfl, fun _ => ⟨rfl, rfl⟩⟩
  | header name value => exact keeps_onRes_same (h.header name value)
  | setCookie name value opts => exact keeps_onRes_same (h.setCookie name value opts)
  | json text => exact keeps_onRes_same (h.json text)
  | writer =>
      refine Keeps.bind (keeps_onRes_same ?_) fun _ => keeps_modify fun _ hst => hst
      exact h.startBody.weaken (fun _ hr => hr) (fun _ _ hr => hr.1) fun _ _ hr => hr
  | bodyWrite bytes => exact hbody (h.bodyWrite bytes)
  | bodyEnd => exact hbody h.bodyEnd
  | clearWriter => exact keeps_onRes_same h.clearWriter
  | resetBody => exact keeps_onRes_same h.resetBody
  | handleNotFound => exact keeps_onRes_same h.handleNotFound
  | _ => cases hop

theorem keeps_runOps_of {P : HandlerState → Prop} : ∀ {ops : List Op}, (∀ op ∈ ops, Keeps P (exec op)) →
    Keeps P (runOps ops)
  | [], _ => keeps_pure _
  | op :: _, h =>
      (h op List.mem_cons_self).attempt.bind fun _ =>
        (keeps_runOps_of fun op hop => h op (List.mem_cons_of_mem _ hop)).bind fun _ => keeps_pure _

end Executor
end Dusty
