import Dusty.Hoare
import Dusty.Parser

/-! # Feeding a parser in pieces

Up to the end of the header section it makes no difference how the bytes are cut: feeding two
pieces one after the other is feeding them at once (`eat_append`).  `Running` is the state of a
parser between two bytes of a header section, `Stopped` that of one that paused or failed
there. -/

namespace Dusty

open Act

/-- A target whose URL, if it has one, changes with `onUrl` only. -/
structure Target.Lawful {M : Type} (T : Target M) : Prop where
  url_onMethod : ∀ m msg, T.url (T.onMethod m msg) = T.url msg
  url_onVersion : ∀ major minor msg, T.url (T.onVersion major minor msg) = T.url msg
  url_onStatusComplete : ∀ code msg msg', T.onStatusComplete code msg = some msg' →
    T.url msg' = T.url msg
  url_setHeaders : ∀ headers msg, T.url (T.setHeaders headers msg) = T.url msg
  url_setUrl : ∀ url msg, T.url (T.setUrl url msg) = url ∨ (T.url (T.setUrl url msg)).bytes = []

theorem Target.request_lawful : Target.request.Lawful := by
  refine ⟨fun _ _ => rfl, fun _ _ _ => rfl, ?_, fun _ _ => rfl, fun _ _ => .inl rfl⟩
  intro code msg msg' h
  cases h
  rfl

theorem Target.response_lawful : Target.response.Lawful :=
  ⟨fun _ _ => rfl, fun _ _ _ => rfl, fun _ _ _ _ => rfl, fun _ _ => rfl, fun _ _ => .inr rfl⟩

namespace Parser

variable {L : Llhttp} {M : Type} (T : Target M)

/-! ### Stopping -/

theorem eatByte_stopped {p : Parser L M} (h : p.errno ≠ none) (pos : ℕ) (b : UInt8) :
    eatByte T pos b p = .ok () p := by
  have hsome : p.errno.isSome = true := Option.isSome_iff_ne_none.mpr h
  rw [eatByte, bind_ok (get_run p), if_pos hsome]
  rfl

theorem eat_stopped {p : Parser L M} (h : p.errno ≠ none) (pos : ℕ) (data : Bytes) :
    eat T pos data p = .ok () p := by
  induction data generalizing pos with
  | nil => rfl
  | cons b rest ih => rw [eat, bind_ok (eatByte_stopped T h pos b), ih]

theorem eat_append (pos : ℕ) (xs ys : Bytes) :
    eat T pos (xs ++ ys) = ((eat T pos xs >>= fun _ => eat T (pos + xs.length) ys) :
      Act (Parser L M) Unit) := by
  induction xs generalizing pos with
  | nil => rfl
  | cons b rest ih =>
      rw [List.cons_append, eat, eat, ih, bind_assoc, List.length_cons,
        show pos + 1 + rest.length = pos + (rest.length + 1) by omega]

/-! ### The header section -/

/-- A slice that is empty or ends at an address. -/
def EndsAt (pos : ℕ) (slice : Slice) : Prop :=
  slice.bytes.length = 0 ∨ slice.ptr + slice.bytes.length = pos

/-- What is stored of the open span ends where the next byte is. -/
def Aligned (pos : ℕ) (p : Parser L M) : Prop :=
  ∀ slice, p.span.bind (p.stored T) = some slice → EndsAt pos slice

/-- The parser has not stopped, the automaton is in the given state, and the header section is
not over. -/
structure Running (pos : ℕ) (core : L.State) (p : Parser L M) : Prop where
  errno : p.errno = none
  pending : p.pending = []
  aligned : Aligned T pos p
  head : p.state.headersComplete = false
  core_eq : p.core = core

/-- The parser has stopped at an address; if it paused, the header section is over. -/
structure Stopped (pos : ℕ) (p : Parser L M) : Prop where
  errno : p.errno ≠ none
  errorPos : p.errorPos = pos
  paused : p.errno = some .paused → p.state.headersComplete = true

theorem restartSpan_aligned {pos : ℕ} {p : Parser L M} (h : Aligned T pos p) :
    restartSpan T pos p = .ok () p := by
  unfold restartSpan
  rw [bind_ok (get_run p)]
  cases hs : p.span.bind (p.stored T) with
  | none => rfl
  | some slice =>
      simp only [appendSlice]
      rcases h slice hs with hlen | hend
      · rw [if_pos hlen]
        rfl
      · split
        · rfl
        · rw [bind_run, bind_ok (assert_true (by simpa using hend) p)]
          rfl

/-- In the header section `llhttp_execute` has nothing to catch up with. -/
theorem execute_running {pos : ℕ} {core : L.State} {p : Parser L M} (h : Running T pos core p)
    (data : Bytes) : execute T pos data p = eat T pos data p := by
  have hnone : ¬p.errno.isSome = true := by simp [h.errno]
  have hcatch : catchUp T pos p = .ok () p := by
    have hp : { p with pending := [] } = p := by rw [← h.pending]
    rw [catchUp, bind_ok (get_run p), h.pending, bind_ok (modify_run ..), hp]
    rfl
  rw [execute, bind_ok (get_run p), if_neg hnone, bind_ok (restartSpan_aligned T h.aligned),
    bind_ok hcatch]

section running
variable {T} {pos : ℕ} {core : L.State}

theorem Running.setMsg {p : Parser L M} (h : Running T pos core p) {msg : M}
    (hurl : T.url msg = T.url p.msg) : Running T pos core (p.setMsg msg) := by
  refine ⟨h.errno, h.pending, fun slice hs => h.aligned slice ?_, h.head, h.core_eq⟩
  have hstored : (p.setMsg msg).stored T = p.stored T := by
    funext span
    cases span
    · exact congrArg some hurl
    · rfl
    · rfl
    · rfl
  rwa [hstored] at hs

theorem Running.setState {p : Parser L M} (h : Running T pos core p) {state : ParserState}
    (hfield : EndsAt pos p.state.headerField → EndsAt pos state.headerField)
    (hvalue : EndsAt pos p.state.headerValue → EndsAt pos state.headerValue)
    (hhead : state.headersComplete = false) : Running T pos core (p.setState state) := by
  refine ⟨h.errno, h.pending, fun slice hs => ?_, hhead, h.core_eq⟩
  have haligned := h.aligned
  unfold Aligned at haligned
  rw [show (p.setState state).span = p.span from rfl] at hs
  cases hspan : p.span with
  | none =>
      rw [hspan] at hs
      cases hs
  | some span =>
      rw [hspan] at hs haligned
      cases span with
      | url => exact haligned slice hs
      | headerField =>
          cases hs
          exact hfield (haligned _ rfl)
      | headerValue =>
          cases hs
          exact hvalue (haligned _ rfl)
      | body => cases hs

theorem stopped_stop (p : Parser L M) (e : Errno) : Stopped pos (p.stop (.error e) pos) :=
  ⟨by simp [stop], rfl, by simp [stop]⟩

theorem onMark_running (hT : T.Lawful) (m : Mark) :
    Triple (Running T pos core) (onMark T pos m)
      (fun _ p => Running T pos core p ∨ Stopped pos p) (fun f _ => f = .panic .assertion) := by
  cases m with
  | method m => exact triple_modify fun p h => .inl (h.setMsg (hT.url_onMethod _ _))
  | version major minor => exact triple_modify fun p h => .inl (h.setMsg (hT.url_onVersion _ _ _))
  | urlComplete => exact triple_pure fun p h => .inl h
  | statusComplete code =>
      refine triple_modify fun p h => ?_
      cases hstatus : T.onStatusComplete code p.msg with
      | some msg =>
          simp only
          exact .inl (h.setMsg (hT.url_onStatusComplete _ _ _ hstatus))
      | none =>
          simp only
          exact .inr (stopped_stop p _)
  | headerFieldComplete =>
      refine triple_get_bind fun p => ?_
      refine Triple.bind (triple_assert (Q := fun _ => Running T pos core)
        (fun s hs _ => hs.1) fun _ _ => rfl) fun _ => ?_
      exact triple_modify fun s hs => .inl (hs.setState id id hs.head)
  | headerValueComplete =>
      refine triple_get_bind fun p => ?_
      refine Triple.bind (triple_assert (Q := fun _ => Running T pos core)
        (fun s hs _ => hs.1) fun _ _ => rfl) fun _ => ?_
      split
      · exact triple_modify fun s hs => .inr (stopped_stop s _)
      · refine triple_modify fun s hs => .inl ?_
        refine (hs.setMsg (hT.url_setHeaders _ _)).setState ?_ ?_ hs.head
        · exact fun _ => .inl rfl
        · exact fun _ => .inl rfl

/-- What can happen between two bytes of a header section. -/
theorem onEvent_running (hT : T.Lawful) {e : Event} (he : e ≠ .messageComplete) :
    Triple (Running T pos core) (onEvent T pos e)
      (fun _ p => Running T pos core p ∧ e ≠ .headersComplete ∨ Stopped pos p)
      (fun f _ => f = .panic .assertion) := by
  cases e with
  | mark m =>
      refine (onMark_running hT m).weaken (fun _ h => h) (fun _ p h => ?_) fun _ _ h => h
      exact h.imp (fun h => ⟨h, by simp⟩) id
  | headersComplete => exact triple_modify fun p _ => .inr ⟨by simp [stop], rfl, fun _ => rfl⟩
  | messageComplete => exact absurd rfl he
  | fail e => exact triple_modify fun p _ => .inr (stopped_stop p e)

theorem runEvents_running (hT : T.Lawful) : ∀ events : List Event, headFirst events = true →
    Triple (Running T pos core) (runEvents T pos events)
      (fun _ p => Running T pos core p ∧ .headersComplete ∉ events ∨ Stopped pos p)
      (fun f _ => f = .panic .assertion)
  | [], _ => triple_pure fun p h => .inl ⟨h, by simp⟩
  | e :: rest, hfirst => by
      have he : e ≠ .messageComplete := by
        rintro rfl
        simp [headFirst] at hfirst
      refine Triple.bind (onEvent_running hT he) fun _ => triple_get_bind fun q => ?_
      by_cases hq : q.errno = none
      · have hnot : ¬q.errno.isSome = true := by simp [hq]
        rw [if_neg hnot]
        by_cases hhead : e = .headersComplete
        · rintro s ⟨⟨-, hne⟩ | hstopped, rfl⟩
          · exact absurd hhead hne
          · exact absurd hq hstopped.errno
        · have hrest : headFirst rest = true := by
            cases e with
            | headersComplete => exact absurd rfl hhead
            | messageComplete => exact absurd rfl he
            | mark m => exact hfirst
            | fail e => exact hfirst
          refine (runEvents_running hT rest hrest).weaken ?_ (fun _ p h => ?_) fun _ _ h => h
          · rintro s ⟨⟨h, -⟩ | hstopped, rfl⟩
            · exact h
            · exact absurd hq hstopped.errno
          · refine h.imp (fun h => ⟨h.1, ?_⟩) id
            simp only [List.mem_cons, not_or]
            exact ⟨fun heq => hhead heq.symm, h.2⟩
      · have hsome : q.errno.isSome = true := Option.isSome_iff_ne_none.mpr hq
        rw [if_pos hsome]
        refine triple_modify ?_
        rintro s ⟨⟨h, -⟩ | hstopped, rfl⟩
        · exact absurd h.errno hq
        · exact .inr ⟨hstopped.errno, hstopped.errorPos, hstopped.paused⟩

theorem appendSlice_byte {σ : Type} {P : σ → Prop} (target : Slice) (pos : ℕ) (b : UInt8) :
    Triple P (appendSlice target pos [b]) (fun slice s => P s ∧ EndsAt (pos + 1) slice)
      (fun f _ => f = .panic .assertion) := by
  unfold appendSlice
  split
  · exact triple_pure fun s hs => ⟨hs, .inr rfl⟩
  · refine Triple.bind (triple_assert
      (Q := fun _ s => P s ∧ (target.ptr + target.bytes.length == pos) = true)
      (fun s hs hb => ⟨hs, hb⟩) fun _ _ => rfl) fun _ => ?_
    refine triple_pure fun s hs => ⟨hs.1, .inr ?_⟩
    have hend : target.ptr + target.bytes.length = pos := by simpa using hs.2
    show target.ptr + (target.bytes ++ [b]).length = pos + 1
    rw [List.length_append, List.length_singleton]
    omega

/-- A byte of a span was stored: what is stored of the span ends behind it. -/
structure Stored (T : Target M) (pos : ℕ) (span : Option Span) (p : Parser L M) : Prop where
  errno : p.errno = none
  pending : p.pending = []
  head : p.state.headersComplete = false
  ends : ∀ slice, span.bind (p.stored T) = some slice → EndsAt pos slice

theorem Running.stored_body {p : Parser L M} (h : Running T pos core p) {span : Option Span}
    (hspan : span.bind (p.stored T) = none) : Stored T (pos + 1) span p := by
  refine ⟨h.errno, h.pending, h.head, fun slice hs => ?_⟩
  rw [hspan] at hs
  cases hs

theorem onByte_running (hT : T.Lawful) (b : UInt8) (span : Option Span) :
    Triple (Running T pos core) (onByte T pos b span)
      (fun _ p => Stored T (pos + 1) span p) (fun f _ => f = .panic .assertion) := by
  cases span with
  | none => exact triple_pure fun p h => h.stored_body rfl
  | some span =>
      cases span with
      | url =>
          refine triple_get_bind fun p => Triple.bind (appendSlice_byte _ _ _) fun slice => ?_
          refine triple_modify fun q hq => ⟨hq.1.1.errno, hq.1.1.pending, hq.1.1.head, ?_⟩
          intro slice' hs
          cases hs
          rcases hT.url_setUrl slice q.msg with hurl | hurl
          · show EndsAt _ (T.url (T.setUrl slice q.msg))
            rw [hurl]
            exact hq.2
          · exact .inl (congrArg List.length hurl)
      | headerField =>
          refine triple_get_bind fun p => Triple.bind (appendSlice_byte _ _ _) fun slice => ?_
          refine triple_modify fun q hq => ⟨hq.1.1.errno, hq.1.1.pending, hq.1.1.head, ?_⟩
          intro slice' hs
          cases hs
          exact hq.2
      | headerValue =>
          refine triple_get_bind fun p => Triple.bind (appendSlice_byte _ _ _) fun slice => ?_
          refine triple_modify fun q hq => ⟨hq.1.1.errno, hq.1.1.pending, hq.1.1.head, ?_⟩
          intro slice' hs
          cases hs
          exact hq.2
      | body =>
          refine triple_modify fun p h => ?_
          split
          · exact ⟨h.errno, h.pending, h.head, fun slice hs => by cases hs⟩
          · exact h.stored_body rfl

theorem headFirst_map_mark : ∀ marks : List Mark, headFirst (marks.map .mark) = true
  | [] => rfl
  | _ :: rest => headFirst_map_mark rest

/-- **One byte of a header section.**  The parser goes on with the next, or it has stopped. -/
theorem eatByte_running (hT : T.Lawful) (hcore : L.inHead core = true) (b : UInt8) :
    Triple (Running T pos core) (eatByte T pos b)
      (fun _ p => (∃ core', L.inHead core' = true ∧ Running T (pos + 1) core' p) ∨
        ∃ q, pos ≤ q ∧ q ≤ pos + 1 ∧ Stopped q p)
      (fun f _ => f = .panic .assertion) := by
  refine triple_get_bind fun p => ?_
  intro s hs
  obtain ⟨hrun, rfl⟩ := hs
  have hnot : ¬s.errno.isSome = true := by simp [hrun.errno]
  rw [if_neg hnot, hrun.core_eq]
  refine Triple.bind (P := Running T pos core)
    (runEvents_running hT _ (headFirst_map_mark (L.step core b).before)) (fun _ => ?_) s hrun
  refine triple_get_bind fun q => ?_
  rintro t ⟨ht, rfl⟩
  rcases ht with ⟨hrun', -⟩ | hstopped
  · have hnot' : ¬t.errno.isSome = true := by simp [hrun'.errno]
    rw [if_neg hnot']
    refine Triple.bind (onByte_running hT b (L.step core b).span) (fun _ => ?_) t hrun'
    refine Triple.bind (Q := fun _ => Running T (pos + 1) (L.step core b).next)
      (triple_modify fun r hr => ?_) fun _ => ?_
    · refine ⟨hr.errno, hr.pending, fun slice hslice => ?_, hr.head, rfl⟩
      by_cases hcloses : (L.step core b).closes = true
      · rw [enter, if_pos hcloses] at hslice
        cases hslice
      · rw [enter, if_neg hcloses] at hslice
        exact hr.ends slice hslice
    · refine (runEvents_running hT _ (L.headFirst_step core b hcore)).weaken (fun _ h => h)
        (fun _ r hr => ?_) fun _ _ h => h
      rcases hr with ⟨hr, hhead⟩ | hr
      · exact .inl ⟨_, L.inHead_step core b hcore hhead, hr⟩
      · exact .inr ⟨_, by omega, le_rfl, hr⟩
  · have hsome : t.errno.isSome = true := Option.isSome_iff_ne_none.mpr hstopped.errno
    rw [if_pos hsome]
    exact .inr ⟨pos, le_rfl, by omega, hstopped⟩

/-- **The bytes of a header section.** -/
theorem eat_running (hT : T.Lawful) (data : Bytes) (hcore : L.inHead core = true) :
    Triple (Running T pos core) (eat T pos data)
      (fun _ p => (∃ core', L.inHead core' = true ∧ Running T (pos + data.length) core' p) ∨
        ∃ q, pos ≤ q ∧ q ≤ pos + data.length ∧ Stopped q p)
      (fun f _ => f = .panic .assertion) := by
  induction data generalizing pos core with
  | nil => exact triple_pure fun p h => .inl ⟨core, hcore, h⟩
  | cons b rest ih =>
      rw [eat]
      refine Triple.bind (eatByte_running hT hcore b) fun _ => ?_
      rintro p (⟨core', hcore', hrun⟩ | ⟨q, hq, hq', hstopped⟩)
      · refine (ih hcore').weaken (fun _ h => h) (fun _ r hr => ?_) (fun _ _ h => h) p hrun
        rw [List.length_cons, show pos + (rest.length + 1) = pos + 1 + rest.length by omega]
        refine hr.imp id ?_
        rintro ⟨q, hq, hq', hr⟩
        exact ⟨q, by omega, hq', hr⟩
      · rw [eat_stopped T hstopped.errno]
        refine .inr ⟨q, hq, ?_, hstopped⟩
        rw [List.length_cons]
        omega

end running

end Parser
end Dusty
