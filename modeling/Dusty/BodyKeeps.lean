import Dusty.Exchange
import Dusty.Hoare

/-! # What reading a body keeps

A property of the message that no callback breaks survives whatever is fed to the parser
(`Target.Leaves`).  For a request that is all that `Request.body` can change before it stores what
it has read. -/

namespace Dusty

open Act

/-- No callback breaks the property. -/
structure Target.Leaves {M : Type} (T : Target M) (P : M → Prop) : Prop where
  method : ∀ m msg, P msg → P (T.onMethod m msg)
  version : ∀ major minor msg, P msg → P (T.onVersion major minor msg)
  status : ∀ code msg msg', P msg → T.onStatusComplete code msg = some msg' → P msg'
  url : ∀ url msg, P msg → P (T.setUrl url msg)
  header : ∀ name value headers msg, P msg → (T.headers msg).add name value = .ok headers →
    P (T.setHeaders headers msg)
  complete : ∀ msg, P msg → P (T.onHeadersComplete msg)

section
variable {L : Llhttp} {M : Type} {T : Target M} {P : M → Prop}

namespace Parser

theorem onMark_leaves (h : T.Leaves P) (pos : ℕ) (m : Mark) :
    Keeps (fun p => P p.msg) (onMark T pos m : Act (Parser L M) Unit) := by
  cases m with
  | method m => exact keeps_modify fun p hp => h.method m p.msg hp
  | version major minor => exact keeps_modify fun p hp => h.version major minor p.msg hp
  | urlComplete => exact keeps_pure _
  | statusComplete code =>
      refine keeps_modify fun p hp => ?_
      cases hstatus : T.onStatusComplete code p.msg with
      | none => exact hp
      | some msg => exact h.status code p.msg msg hp hstatus
  | headerFieldComplete =>
      exact keeps_get_bind fun _ _ => (keeps_assert _).bind fun _ => keeps_modify fun _ hp => hp
  | headerValueComplete =>
      refine triple_get_bind fun r => ?_
      -- the slots are those of the parser that is changed
      refine Triple.bind (Q := fun _ p => P p.msg ∧ p = r) ?_ fun _ => ?_
      · exact triple_assert (fun _ hp _ => hp) fun _ hp => hp.1
      · cases hadd : (T.headers r.msg).add r.state.headerField.bytes r.state.headerValue.bytes with
        | error e => exact triple_modify fun p hp => hp.1
        | ok headers =>
            refine triple_modify fun p hp => ?_
            obtain ⟨hp, rfl⟩ := hp
            exact h.header _ _ headers p.msg hp hadd

theorem onEvent_leaves (h : T.Leaves P) (pos : ℕ) (e : Event) :
    Keeps (fun p => P p.msg) (onEvent T pos e : Act (Parser L M) Unit) := by
  cases e with
  | mark m => exact onMark_leaves h pos m
  | headersComplete => exact keeps_modify fun p hp => h.complete p.msg hp
  | messageComplete => exact keeps_modify fun _ hp => hp
  | fail e => exact keeps_modify fun _ hp => hp

theorem runEvents_leaves (h : T.Leaves P) (pos : ℕ) (events : List Event) :
    Keeps (fun p => P p.msg) (runEvents T pos events : Act (Parser L M) Unit) := by
  induction events with
  | nil => exact keeps_pure _
  | cons e rest ih =>
      refine (onEvent_leaves h pos e).bind fun _ => keeps_get_bind fun p _ => ?_
      split
      · exact keeps_modify fun _ hp => hp
      · exact ih

theorem appendSlice_leaves (target : Slice) (pos : ℕ) (bytes : Bytes) {I : Parser L M → Prop} :
    Keeps I (appendSlice target pos bytes) := by
  unfold appendSlice
  split
  · exact keeps_pure _
  · exact (keeps_assert _).bind fun _ => keeps_pure _

theorem onByte_leaves (h : T.Leaves P) (pos : ℕ) (b : UInt8) (span : Option Span) :
    Keeps (fun p => P p.msg) (onByte T pos b span : Act (Parser L M) Unit) := by
  cases span with
  | none => exact keeps_pure _
  | some span =>
      cases span with
      | url =>
          exact keeps_get_bind fun _ _ => (appendSlice_leaves _ _ _).bind fun url =>
            keeps_modify fun p hp => h.url url p.msg hp
      | headerField =>
          exact keeps_get_bind fun _ _ => (appendSlice_leaves _ _ _).bind fun _ =>
            keeps_modify fun _ hp => hp
      | headerValue =>
          exact keeps_get_bind fun _ _ => (appendSlice_leaves _ _ _).bind fun _ =>
            keeps_modify fun _ hp => hp
      | body =>
          refine keeps_modify fun p hp => ?_
          split <;> exact hp

theorem eatByte_leaves (h : T.Leaves P) (pos : ℕ) (b : UInt8) :
    Keeps (fun p => P p.msg) (eatByte T pos b : Act (Parser L M) Unit) := by
  refine keeps_get_bind fun _ _ => ?_
  split
  · exact keeps_pure _
  · refine (runEvents_leaves h _ _).bind fun _ => keeps_get_bind fun _ _ => ?_
    split
    · exact keeps_pure _
    · exact (onByte_leaves h _ _ _).bind fun _ => Keeps.bind (keeps_modify fun _ hp => hp) fun _ =>
        runEvents_leaves h _ _

theorem eat_leaves (h : T.Leaves P) (data : Bytes) : ∀ pos : ℕ,
    Keeps (fun p => P p.msg) (eat T pos data : Act (Parser L M) Unit) := by
  induction data with
  | nil => exact fun _ => keeps_pure _
  | cons b rest ih => exact fun pos => (eatByte_leaves h pos b).bind fun _ => ih (pos + 1)

/-- **Whatever the parser is fed**, it keeps what its callbacks keep. -/
theorem feed_leaves (h : T.Leaves P) (pos : ℕ) (data : Bytes) :
    Keeps (fun p => P p.msg) (feed T pos data : Act (Parser L M) Bool) := by
  have hrestart : Keeps (fun p => P p.msg) (restartSpan T pos : Act (Parser L M) Unit) := by
    refine keeps_get_bind fun p _ => ?_
    split
    · exact keeps_pure _
    · exact (appendSlice_leaves _ _ _).bind fun _ => keeps_pure _
  have hexecute : Keeps (fun p => P p.msg) (execute T pos data : Act (Parser L M) Unit) := by
    refine keeps_get_bind fun _ _ => ?_
    split
    · exact keeps_pure _
    · refine hrestart.bind fun _ => Keeps.bind ?_ fun _ => eat_leaves h data pos
      exact keeps_get_bind fun _ _ => Keeps.bind (keeps_modify fun _ hp => hp) fun _ =>
        runEvents_leaves h _ _
  refine hexecute.bind fun _ => keeps_get_bind fun p _ => ?_
  split
  · exact keeps_pure _
  · exact keeps_pure _
  · exact keeps_fail _

theorem finish_leaves : Keeps (fun p => P p.msg) (finish : Act (Parser L M) Unit) := by
  refine keeps_get_bind fun p _ => ?_
  split
  · exact keeps_pure _
  · split
    · exact keeps_pure _
    · exact keeps_modify fun _ hp => hp
    · exact keeps_fail _

end Parser

namespace Inbound

theorem onParser_leaves {α : Type} {x : Act (Parser L M) α} (h : Keeps (fun p => P p.msg) x) :
    Keeps (fun s => P s.parser.msg) (onParser x : Act (Inbound L M) α) :=
  keeps_zoom fun _ ht => h.weaken (fun _ hs => hs ▸ ht) (fun _ _ hp => hp) fun _ _ hp => hp

theorem toss_leaves (n : ℕ) : Keeps (fun s => P s.parser.msg) (toss n : Act (Inbound L M) Unit) := by
  refine keeps_get_bind fun s _ => ?_
  split
  · exact keeps_modify fun _ hp => hp
  · exact keeps_die _

theorem fillMore_leaves : Keeps (fun s => P s.parser.msg) (fillMore : Act (Inbound L M) Unit) := by
  refine keeps_get_bind fun s _ => ?_
  split
  · exact keeps_die _
  · refine Keeps.bind (keeps_modify fun _ hp => hp) fun _ => ?_
    split
    · exact keeps_modify fun _ hp => hp
    · split
      · exact keeps_fail _
      · exact Keeps.bind (keeps_modify fun _ hp => hp) fun _ => keeps_fail _

theorem fillBody_leaves : Keeps (fun s => P s.parser.msg) (fillBody : Act (Inbound L M) Unit) := by
  have hend : Keeps (fun s => P s.parser.msg) (endOfBody : Act (Inbound L M) Unit) := by
    refine (onParser_leaves Parser.finish_leaves).attempt.bind fun r => ?_
    split
    · exact keeps_fail _
    · refine keeps_get_bind fun _ _ => ?_
      split <;> exact keeps_fail _
  refine keeps_get_bind fun _ _ => Keeps.when ?_ _
  refine fillMore_leaves.attempt.bind fun r => ?_
  split
  · exact keeps_pure _
  · exact hend
  · exact keeps_fail _

theorem feedBody_leaves (h : T.Leaves P) (toFeed : ℕ) :
    Keeps (fun s => P s.parser.msg) (feedBody T toFeed : Act (Inbound L M) Unit) := by
  refine keeps_get_bind fun s _ => (onParser_leaves (Parser.feed_leaves h _ _)).attempt.bind fun r => ?_
  split
  · exact toss_leaves _
  · exact keeps_get_bind fun _ _ => toss_leaves _
  · exact keeps_fail _

/-- **Reading a body** keeps what the callbacks keep of the message. -/
theorem stream_leaves (h : T.Leaves P) (dest : ℕ) :
    Keeps (fun s => P s.parser.msg) (stream T dest : Act (Inbound L M) Bytes) := by
  have hloop (fuel : ℕ) : Keeps (fun s => P s.parser.msg) (streamLoop T dest fuel : Act (Inbound L M) Bytes) := by
    induction fuel with
    | zero => exact keeps_die _
    | succ fuel ih =>
        refine keeps_get_bind fun _ _ => ?_
        split
        · exact keeps_pure _
        · split
          · exact keeps_fail _
          · refine fillBody_leaves.bind fun _ => keeps_get_bind fun _ _ => ?_
            split
            · exact keeps_pure _
            · exact (feedBody_leaves h _).bind fun _ => ih
  unfold stream
  split
  · exact keeps_pure _
  · refine keeps_get_bind fun _ _ => ?_
    split
    · exact keeps_fail _
    · exact Keeps.bind (keeps_modify fun _ hp => hp) fun _ => keeps_get_bind fun _ _ => hloop _

end Inbound

end

namespace Exchange

variable {L : Llhttp} {P : Request → Prop}

theorem onInbound_leaves {α : Type} {x : Act (Inbound L Request) α}
    (h : Keeps (fun s => P s.parser.msg) x) :
    Keeps (fun self : Exchange L => P self.request) (onInbound x) :=
  keeps_zoom fun _ ht => h.weaken (fun _ hs => hs ▸ ht) (fun _ _ hp => hp) fun _ _ hp => hp

theorem onRes_leaves {α : Type} {x : Act Response α} :
    Keeps (fun self : Exchange L => P self.request) (onRes x) := by
  refine keeps_zoom fun self ht => ?_
  intro s _
  cases HandlerState.onRes x s <;> exact ht

theorem sendContinue_leaves (hwaits : ∀ req, P req → P { req with expectsContinue := false }) :
    Keeps (fun self : Exchange L => P self.request) sendContinue := by
  refine keeps_get_bind fun _ _ => Keeps.when ?_ _
  exact Keeps.bind (keeps_modify fun self hp => hwaits self.request hp) fun _ =>
    onRes_leaves.bind fun _ => onRes_leaves

/-- **The loop over the body of a request** keeps what the callbacks keep of the request. -/
theorem bodyLoop_leaves (h : Target.request.Leaves P)
    (hwaits : ∀ req, P req → P { req with expectsContinue := false }) (room : ℕ → ℕ) (fuel : ℕ) :
    ∀ remaining got, Keeps (fun self : Exchange L => P self.request) (bodyLoop room fuel remaining got) := by
  induction fuel with
  | zero => exact fun _ _ => keeps_die _
  | succ fuel ih =>
      intro remaining got
      unfold bodyLoop
      split
      · exact keeps_fail _
      · have hread : Keeps (fun self : Exchange L => P self.request)
            (readBody (min remaining (room got.length + 1))) :=
          (sendContinue_leaves hwaits).bind fun _ => onInbound_leaves (Inbound.stream_leaves h _)
        refine hread.attempt.bind fun r => ?_
        split
        · exact keeps_pure _
        · exact keeps_fail _
        · exact keeps_fail _
        · exact ih _ _

/-- **A body that was read is cached**, and the request is what it was. -/
theorem body_cached (h : Target.request.Leaves P)
    (hwaits : ∀ req, P req → P { req with expectsContinue := false })
    (hstore : ∀ req cached, P req → P { req with bodyRead := true, cachedBody := cached })
    {room : ℕ → ℕ} {self self₁ : Exchange L} {b : Option Bytes} (hself : P self.request)
    (hbody : body room self = .ok b self₁) :
    P self₁.request ∧ self₁.request.bodyRead = true ∧ self₁.request.cachedBody = b := by
  unfold body at hbody
  rw [bind_ok (get_run self)] at hbody
  split at hbody
  · next hread =>
      cases hbody
      exact ⟨hself, hread, rfl⟩
  · obtain ⟨result, self₂, hloop, hrest⟩ := bind_eq_ok.mp hbody
    rw [bind_ok (modify_run _ _)] at hrest
    cases hrest
    exact ⟨hstore _ _ ((bodyLoop_leaves h hwaits room _ _ _).ok hself hloop), rfl, rfl⟩

end Exchange
end Dusty
