import Dusty.WebSocketMessages

/-! # Frames the protocol forbids

`Legal` follows a peer that keeps to the framing rules of RFC 6455 and says what its frames
mean; `Offends` are the frames that break a rule, where they come.  Three kinds of these are
never looked at (`Overlooked`).  Any other offending frame ends the call that reads it with an
error, from whatever state and whatever was read before (`receiveAll_rejects`). -/

namespace Dusty

open Act

/-! ### The rules -/

namespace MessageType

def isReserved : MessageType → Bool
  | .reserved _ _ => true
  | _ => false

/-- The opcodes that start a message. -/
def isData : MessageType → Bool
  | .text | .binary => true
  | _ => false

end MessageType

namespace WireFrame

/-- The frame breaks a rule, for a reader with the given role; `unfinished` says whether a
fragmented message is under way. -/
def Offends (isClient unfinished : Bool) (f : WireFrame) : Prop :=
  f.rsv ≠ 0 ∨ f.mask.isSome = isClient ∨ f.opcode.isReserved = true ∨
    (f.opcode.isControl = true ∧ (f.fin = false ∨ 125 < f.payload.length)) ∨
    (f.opcode.isData = true ∧ unfinished = true) ∨
    (f.opcode = .continuation ∧ unfinished = false) ∨
    (f.opcode = .close ∧ f.payload.length = 1)

/-- The frames nothing is wrong with but one of three things: a message of one frame inside
another message, a control frame that is not final, a close frame of one byte. -/
def Overlooked (limit : ℕ) (isClient unfinished : Bool) (f : WireFrame) : Prop :=
  WebSocket.Accepted isClient f ∧ f.payload.length ≤ limit ∧
    ((f.opcode.isData = true ∧ f.fin = true ∧ unfinished = true) ∨
      (f.opcode.isControl = true ∧ f.fin = false) ∨
      (f.opcode = .close ∧ f.payload.length = 1))

instance (isClient unfinished : Bool) (f : WireFrame) : Decidable (f.Offends isClient unfinished) :=
  inferInstanceAs (Decidable (_ ∨ _))

/-- A message under way: its type, and what there is of it. -/
abbrev Pending := Option (MessageType × Bytes)

/-- What a legal frame means: what is under way afterwards, and what is complete.  A close frame
ends what was under way. -/
def meaning (pending : Pending) (f : WireFrame) : Pending × Option (Except Error Message) :=
  match f.opcode with
  | .text => whole .text
  | .binary => whole .binary
  | .continuation =>
      match pending with
      | none => (none, none)
      | some (type, data) =>
          if f.fin then (none, some (verdict type (data ++ f.payload)))
          else (some (type, data ++ f.payload), none)
  | .close =>
      (none, some (.ok { type := .close, data := WebSocket.closeReasonOf f.payload,
                         closeCode := WebSocket.closeCodeOf f.payload }))
  | _ => (pending, none)
where
  /-- The first frame of a message. -/
  whole (type : MessageType) : Pending × Option (Except Error Message) :=
    if f.fin then (none, some (verdict type f.payload)) else (some (type, f.payload), none)

/-- Legal frames, what they complete, and what is under way behind them. -/
inductive Legal (isClient : Bool) :
    Pending → List WireFrame → List (Except Error Message) → Pending → Prop where
  | nil {pending : Pending} : Legal isClient pending [] [] pending
  | cons {pending pending' : Pending} {f : WireFrame} {frames : List WireFrame}
      {outcomes : List (Except Error Message)} :
      ¬f.Offends isClient pending.isSome → f.payload.length < 2 ^ 64 →
      Legal isClient (meaning pending f).1 frames outcomes pending' →
      Legal isClient pending (f :: frames) ((meaning pending f).2.toList ++ outcomes) pending'

theorem accepted_of_not_offends {isClient unfinished : Bool} {f : WireFrame}
    (h : ¬f.Offends isClient unfinished) : WebSocket.Accepted isClient f := by
  unfold Offends at h
  push Not at h
  obtain ⟨hrsv, hmask, -, hcontrol, -⟩ := h
  exact ⟨hrsv, Bool.eq_not.mpr hmask, fun hc => (hcontrol hc).2⟩

end WireFrame

namespace WebSocket

open WireFrame

/-! ### Writing from any state -/

/-- Nothing of what the reader knows is different. -/
structure SameReader (w w' : WebSocket) : Prop where
  incoming : w'.incoming = w.incoming
  isClient : w'.isClient = w.isClient
  limit : w'.maxMessageSize = w.maxMessageSize
  fragmentedType : w'.fragmentedType = w.fragmentedType
  fragmentedData : w'.fragmentedData = w.fragmentedData

theorem Wrote.sameReader {w w' : WebSocket} {bytes : Bytes} (h : Wrote w bytes w') :
    SameReader w w' := by
  have hsame := h.same
  constructor <;> rw [hsame]

theorem SameReader.refl (w : WebSocket) : SameReader w w := ⟨rfl, rfl, rfl, rfl, rfl⟩

theorem SameReader.trans {w w₁ w₂ : WebSocket} (h : SameReader w w₁) (h' : SameReader w₁ w₂) :
    SameReader w w₂ :=
  ⟨h'.incoming.trans h.incoming, h'.isClient.trans h.isClient, h'.limit.trans h.limit,
    h'.fragmentedType.trans h.fragmentedType, h'.fragmentedData.trans h.fragmentedData⟩

/-- An error, and not the one a legal message can cause. -/
def Refusal (f : Fault) : Prop := ∃ e, f = .err e ∧ e ≠ .invalidUtf8

/-- The action leaves the reader as it is in `v`, or refuses. -/
def Aloof {α : Type} (v : WebSocket) (x : Act WebSocket α) : Prop :=
  Triple (SameReader v) x (fun _ => SameReader v) (fun f _ => Refusal f)

theorem aloof_modify_bind {α : Type} {v : WebSocket} {f : WebSocket → WebSocket}
    {x : PUnit → Act WebSocket α} (h : ∀ w, SameReader w (f w)) (hx : ∀ u, Aloof v (x u)) :
    Aloof v (modify f >>= x) := fun w hw => hx ⟨⟩ (f w) (hw.trans (h w))

theorem aloof_get_bind {α : Type} {v : WebSocket} {f : WebSocket → Act WebSocket α}
    (h : ∀ w, Aloof v (f w)) : Aloof v (get >>= f) := fun w hw => h w w hw

theorem aloof_fail {α : Type} {v : WebSocket} {e : Error} (h : e ≠ .invalidUtf8) :
    Aloof v (fail e : Act WebSocket α) := triple_fail fun _ _ => ⟨e, rfl, h⟩

theorem aloof_writeFrameLocked (v : WebSocket) (opcode : MessageType) (data : Bytes) (fin : Bool) :
    Aloof v (writeFrameLocked opcode data fin) := by
  intro w hw
  have h := writeFrameLocked_spec w opcode data fin
  cases hrun : writeFrameLocked opcode data fin w with
  | ok u w' =>
      rw [hrun] at h
      exact hw.trans h.1.sameReader
  | error f w' =>
      rw [hrun] at h
      exact ⟨.writeFailed, h.1, by decide⟩

theorem aloof_lock (v : WebSocket) : Aloof v lock := by
  apply aloof_get_bind
  intro self
  refine aloof_modify_bind (fun w => ⟨rfl, rfl, rfl, rfl, rfl⟩) fun _ => ?_
  split
  · exact aloof_fail (by decide)
  · exact triple_pure fun _ hw => hw

theorem aloof_writeFrame (v : WebSocket) (opcode : MessageType) (data : Bytes) (fin : Bool) :
    Aloof v (writeFrame opcode data fin) := by
  apply Triple.bind (aloof_lock v)
  intro _
  apply aloof_get_bind
  intro self
  split
  · exact aloof_fail (by decide)
  · exact aloof_writeFrameLocked v opcode data fin

theorem aloof_writeClose (v : WebSocket) (code : CloseCode) (reason : Bytes) :
    Aloof v (writeClose code reason) := by
  apply Triple.bind (aloof_lock v)
  intro _
  apply aloof_get_bind
  intro self
  split
  · exact triple_pure fun _ hw => hw
  · refine aloof_modify_bind (fun w => ⟨rfl, rfl, rfl, rfl, rfl⟩) fun _ => ?_
    exact aloof_writeFrameLocked v _ _ _

/-- The action refuses, or returns the value and leaves the reader alone. -/
def Answers (v : WebSocket) (x : Act WebSocket (Option Message)) (r : Option Message) : Prop :=
  Triple (SameReader v) x (fun r' w => r' = r ∧ SameReader v w) (fun f _ => Refusal f)

theorem answers_responded (v : WebSocket) {x : Act WebSocket Unit} (h : Aloof v x)
    (r : Option Message) :
    Answers v (x >>= fun _ => modify markResponded >>= fun _ => pure r) r := by
  apply Triple.bind h
  intro _ w hw
  exact ⟨rfl, hw.trans ⟨rfl, rfl, rfl, rfl, rfl⟩⟩

theorem onPing_answers (v : WebSocket) (fin : Bool) (payload : Bytes) :
    Answers v (onFrame ⟨fin, .ping, payload⟩) none :=
  answers_responded v (aloof_writeFrame v _ _ _) none

/-- The message made of a close frame. -/
def closing (payload : Bytes) : Message :=
  { type := .close, data := closeReasonOf payload, closeCode := closeCodeOf payload }

theorem onClose_answers (v : WebSocket) (payload : Bytes) :
    Answers v (onClose payload) (some (closing payload)) :=
  answers_responded v (aloof_writeClose v _ _) _

/-! ### One frame -/

/-- The reader has put together what is under way. -/
structure Holds (w : WebSocket) (pending : Pending) : Prop where
  type : w.fragmentedType = pending.map Prod.fst
  data : ∀ p ∈ pending, w.fragmentedData = p.2

theorem SameReader.holds {w w' : WebSocket} {pending : Pending} (h : SameReader w w')
    (hw : Holds w pending) : Holds w' pending := by
  refine ⟨h.fragmentedType.trans hw.type, fun p hp => ?_⟩
  rw [h.fragmentedData]
  exact hw.data p hp

/-- A frame is read and handled. -/
def turn : Act WebSocket (Option Message) := readFrame >>= onFrame

theorem receiveLoop_turn (fuel : ℕ) : receiveLoop (fuel + 1) = turn >>= goOn fuel := by
  rw [turn, bind_assoc]
  rfl

/-- What a turn is to come to. -/
def turned (complete : Option (Except Error Message)) : Except Error (Option Message) :=
  match complete with
  | none => .ok none
  | some outcome => outcome.map some

/-- The reader is behind the frame and, unless the call is over, has put together what is now
under way. -/
structure Turned (w : WebSocket) (meant : Pending × Option (Except Error Message)) (rest : Bytes)
    (w' : WebSocket) : Prop where
  holds : meant.2 = none → Holds w' meant.1
  incoming : w'.incoming = rest
  isClient : w'.isClient = w.isClient
  limit : w'.maxMessageSize = w.maxMessageSize

theorem turned_setFragment (w : WebSocket) (type : MessageType) (data rest : Bytes) :
    Turned w (some (type, data), none) rest ((w.setIncoming rest).setFragment type data) := by
  refine ⟨fun _ => ⟨rfl, ?_⟩, rfl, rfl, rfl⟩
  rintro p ⟨⟩
  rfl

theorem attempt_deliver_turned (type : MessageType) (data : Bytes) (w : WebSocket) :
    attempt (deliver type data) w = .ok (turned (some (verdict type data))) w := by
  unfold deliver verdict
  split
  · rfl
  · rfl

/-- What handling a frame comes to: it is refused, or what it means happens. -/
def Does (w : WebSocket) (x : Act WebSocket (Option Message)) (rest : Bytes)
    (meant : Pending × Option (Except Error Message)) : Prop :=
  (∃ e w', x (w.setIncoming rest) = .error (.err e) w' ∧ e ≠ .invalidUtf8) ∨
    ∃ w', attempt x (w.setIncoming rest) = .ok (turned meant.2) w' ∧ Turned w meant rest w'

theorem Answers.does {w : WebSocket} {pending : Pending} {x : Act WebSocket (Option Message)}
    {rest : Bytes} {r : Option Message} (h : Answers (w.setIncoming rest) x r)
    (hw : r = none → Holds w pending) : Does w x rest (pending, r.map .ok) := by
  have hspec := h _ (SameReader.refl _)
  cases hrun : x (w.setIncoming rest) with
  | error f w' =>
      rw [hrun] at hspec
      obtain ⟨e, rfl, he⟩ := hspec
      exact .inl ⟨e, w', hrun, he⟩
  | ok r' w' =>
      rw [hrun] at hspec
      obtain ⟨rfl, hsame⟩ := hspec
      refine .inr ⟨w', ?_, ⟨fun hr => ?_, hsame.incoming, hsame.isClient, hsame.limit⟩⟩
      · rw [attempt_ok hrun]
        cases r' <;> rfl
      · have hnone : r' = none := Option.map_eq_none_iff.mp hr
        exact hsame.holds (w := w.setIncoming rest) ⟨(hw hnone).type, (hw hnone).data⟩

theorem does_deliver {w w₁ : WebSocket} (type : MessageType) (data rest : Bytes)
    {x : Act WebSocket (Option Message)} (hrun : x (w.setIncoming rest) = deliver type data w₁)
    (hincoming : w₁.incoming = rest) (hrole : w₁.isClient = w.isClient)
    (hlimit : w₁.maxMessageSize = w.maxMessageSize) :
    Does w x rest (none, some (verdict type data)) := by
  refine .inr ⟨w₁, ?_, nofun, hincoming, hrole, hlimit⟩
  rw [attempt_congr hrun, attempt_deliver_turned]

/-- The first frame of a message, while none is under way. -/
theorem onData_does {w : WebSocket} (hw : Holds w none) (opcode : MessageType) (f : WireFrame)
    (rest : Bytes) : Does w (onData f.fin opcode f.payload) rest (meaning.whole f opcode) := by
  have hnone : (w.setIncoming rest).fragmentedType = none := hw.type
  unfold meaning.whole
  by_cases hlarge : f.payload.length ≤ w.maxMessageSize.toNat
  · have hrun := onData_first hnone f.fin opcode hlarge
    cases hfin : f.fin with
    | true =>
        rw [hfin] at hrun
        exact does_deliver opcode f.payload rest hrun rfl rfl rfl
    | false =>
        rw [hfin] at hrun
        exact .inr ⟨_, attempt_ok hrun, turned_setFragment w opcode f.payload rest⟩
  · cases hfin : f.fin with
    | true =>
        exact does_deliver opcode f.payload rest rfl rfl rfl rfl
    | false =>
        have hgt : f.payload.length > (w.setIncoming rest).maxMessageSize.toNat := by
          show f.payload.length > w.maxMessageSize.toNat
          omega
        refine .inl ⟨.messageTooLarge, w.setIncoming rest, ?_, by decide⟩
        rw [onData, bind_ok (get_run _), if_neg Bool.false_ne_true, hnone]
        simp only [Option.isSome_none, Bool.false_eq_true, if_false]
        rw [if_pos hgt]
        rfl

theorem onContinuation_does {w : WebSocket} {type : MessageType} {data : Bytes}
    (hw : Holds w (some (type, data))) (f : WireFrame) (rest : Bytes) :
    Does w (onContinuation f.fin f.payload) rest
      (if f.fin then (none, some (verdict type (data ++ f.payload)))
        else (some (type, data ++ f.payload), none)) := by
  have hdata : (w.setIncoming rest).fragmentedData = data := hw.data _ rfl
  have htype : (w.setIncoming rest).fragmentedType = some type := hw.type
  have hrun := onContinuation_run htype f.fin f.payload
  rw [hdata] at hrun
  by_cases hlarge : data.length + f.payload.length > (w.setIncoming rest).maxMessageSize.toNat
  · rw [if_pos hlarge] at hrun
    exact .inl ⟨_, _, hrun, by decide⟩
  · rw [if_neg hlarge] at hrun
    cases hfin : f.fin with
    | true =>
        rw [hfin] at hrun
        exact does_deliver type (data ++ f.payload) rest hrun rfl rfl rfl
    | false =>
        rw [hfin] at hrun
        exact .inr ⟨_, attempt_ok hrun, turned_setFragment w type (data ++ f.payload) rest⟩

theorem onFrame_legal {w : WebSocket} {pending : Pending} {f : WireFrame}
    (hf : ¬f.Offends w.isClient pending.isSome) (hw : Holds w pending) (rest : Bytes) :
    Does w (onFrame ⟨f.fin, f.opcode, f.payload⟩) rest (meaning pending f) := by
  unfold Offends at hf
  push Not at hf
  obtain ⟨-, -, hreserved, -, hdata, hcont, -⟩ := hf
  unfold meaning
  cases hop : f.opcode with
  | reserved control index =>
      rw [hop] at hreserved
      exact absurd rfl hreserved
  | ping => exact (onPing_answers _ f.fin f.payload).does fun _ => hw
  | pong => exact .inr ⟨w.setIncoming rest, rfl, fun _ => ⟨hw.type, hw.data⟩, rfl, rfl, rfl⟩
  | close => exact (onClose_answers _ f.payload).does nofun
  | continuation =>
      cases pending with
      | none => exact absurd rfl (hcont hop)
      | some p => exact onContinuation_does hw f rest
  | text =>
      cases pending with
      | none => exact onData_does hw .text f rest
      | some p => exact absurd rfl (hdata (by rw [hop]; rfl))
  | binary =>
      cases pending with
      | none => exact onData_does hw .binary f rest
      | some p => exact absurd rfl (hdata (by rw [hop]; rfl))

theorem turn_run {w : WebSocket} {f : WireFrame} (hf : Accepted w.isClient f)
    (hlen : f.payload.length < 2 ^ 64) (rest : Bytes) :
    turn (w.setIncoming (f.bytes ++ rest)) =
      if f.payload.length > w.maxMessageSize.toNat then
        .error (.err .messageTooLarge) (w.setIncoming (unmask f.mask f.payload ++ rest))
      else onFrame ⟨f.fin, f.opcode, f.payload⟩ (w.setIncoming rest) := by
  rw [turn, bind_run, readFrame_bytes w hf hlen rest]
  by_cases hlarge : f.payload.length > w.maxMessageSize.toNat
  · rw [if_pos hlarge, if_pos hlarge]
  · rw [if_neg hlarge, if_neg hlarge]

theorem turn_legal {w : WebSocket} {pending : Pending} {f : WireFrame}
    (hf : ¬f.Offends w.isClient pending.isSome) (hlen : f.payload.length < 2 ^ 64)
    (hw : Holds w pending) (rest : Bytes) :
    (∃ e w', turn (w.setIncoming (f.bytes ++ rest)) = .error (.err e) w' ∧ e ≠ .invalidUtf8) ∨
      ∃ w', attempt turn (w.setIncoming (f.bytes ++ rest)) =
        .ok (turned (meaning pending f).2) w' ∧ Turned w (meaning pending f) rest w' := by
  have hrun := turn_run (accepted_of_not_offends hf) hlen rest
  by_cases hlarge : f.payload.length > w.maxMessageSize.toNat
  · rw [if_pos hlarge] at hrun
    exact .inl ⟨_, _, hrun, by decide⟩
  · rw [if_neg hlarge] at hrun
    rw [hrun, attempt_congr hrun]
    exact onFrame_legal hf hw rest

/-- A turn that meets a frame the header of which breaks a rule. -/
theorem turn_not_accepted {w : WebSocket} {bad : WireFrame} (h : ¬Accepted w.isClient bad)
    (rest : Bytes) :
    ∃ e w', turn (w.setIncoming (bad.bytes ++ rest)) = .error (.err e) w' ∧ e ≠ .invalidUtf8 := by
  have hread : ∃ e w', readFrame (w.setIncoming (bad.bytes ++ rest)) = .error (.err e) w' ∧
      e ≠ .invalidUtf8 := by
    rw [readFrame_header, readHeader_run, setIncoming_isClient]
    split
    · exact ⟨_, _, rfl, by decide⟩
    rename_i hrsv
    split
    · exact ⟨_, _, rfl, by decide⟩
    rename_i hserver
    split
    · exact ⟨_, _, rfl, by decide⟩
    rename_i hclient
    split
    · exact ⟨_, _, rfl, by decide⟩
    rename_i hcontrol
    refine absurd ⟨by simpa using hrsv, ?_, fun hc => ?_⟩ h
    · cases hrole : w.isClient <;> cases hmask : bad.mask.isSome <;> simp_all
    · have : ¬bad.payload.length > 125 := fun hlong => hcontrol ⟨hc, hlong⟩
      omega
  obtain ⟨e, w', hrun, he⟩ := hread
  exact ⟨e, w', bind_error hrun, he⟩

/-- **An offending frame.**  Unless it is one of those that are overlooked, the turn that meets
it fails, whatever is under way. -/
theorem turn_offends {w : WebSocket} {pending : Pending} {bad : WireFrame}
    (hbad : bad.Offends w.isClient pending.isSome)
    (hnot : ¬bad.Overlooked w.maxMessageSize.toNat w.isClient pending.isSome)
    (hlen : bad.payload.length < 2 ^ 64) (hw : Holds w pending) (rest : Bytes) :
    ∃ e w', turn (w.setIncoming (bad.bytes ++ rest)) = .error (.err e) w' ∧ e ≠ .invalidUtf8 := by
  by_cases hacc : Accepted w.isClient bad
  · rw [turn_run hacc hlen]
    by_cases hlarge : bad.payload.length > w.maxMessageSize.toNat
    · rw [if_pos hlarge]
      exact ⟨_, _, rfl, by decide⟩
    · rw [if_neg hlarge]
      have hkinds : ¬((bad.opcode.isData = true ∧ bad.fin = true ∧ pending.isSome = true) ∨
          (bad.opcode.isControl = true ∧ bad.fin = false) ∨
          (bad.opcode = .close ∧ bad.payload.length = 1)) :=
        fun h => hnot ⟨hacc, by omega, h⟩
      push Not at hkinds
      obtain ⟨hfinal, hcontrol, hclose⟩ := hkinds
      have hnested : ∀ opcode, bad.opcode.isData = true → pending.isSome = true →
          onData bad.fin opcode bad.payload (w.setIncoming rest) =
            .error (.err .nestedFragment) (w.setIncoming rest) := by
        intro opcode hd hp
        have hfin : bad.fin = false := by
          cases h : bad.fin with
          | false => rfl
          | true => exact absurd hp (hfinal hd h)
        have htype : (w.setIncoming rest).fragmentedType.isSome = true := by
          show w.fragmentedType.isSome = true
          rw [hw.type, Option.isSome_map]
          exact hp
        rw [hfin, onData, bind_ok (get_run _), if_neg Bool.false_ne_true, if_pos htype]
        rfl
      rcases hbad with h | h | h | ⟨hc, h⟩ | ⟨hd, hp⟩ | ⟨hcont, hp⟩ | ⟨hc, h⟩
      · exact absurd hacc.rsv h
      · rw [hacc.mask] at h
        exact absurd h (by cases w.isClient <;> decide)
      · cases hop : bad.opcode with
        | reserved control index => exact ⟨_, _, rfl, by decide⟩
        | _ => rw [hop] at h; cases h
      · rcases h with h | h
        · exact absurd h (hcontrol hc)
        · have := hacc.control hc
          omega
      · cases hop : bad.opcode with
        | text => exact ⟨_, _, hnested .text hd hp, by decide⟩
        | binary => exact ⟨_, _, hnested .binary hd hp, by decide⟩
        | _ => rw [hop] at hd; cases hd
      · have htype : (w.setIncoming rest).fragmentedType = none := by
          show w.fragmentedType = none
          have hnone : pending = none := by simpa using hp
          rw [hw.type, hnone]
          rfl
        refine ⟨.unexpectedContinuation, w.setIncoming rest, ?_, by decide⟩
        rw [hcont, onFrame_continuation, onContinuation, bind_ok (get_run _), htype]
        rfl
      · exact absurd h (hclose hc)
  · exact turn_not_accepted hacc rest

/-! ### One call -/

theorem meaning_done {pending : Pending} {f : WireFrame} {outcome : Except Error Message}
    (h : (meaning pending f).2 = some outcome) : (meaning pending f).1 = none := by
  unfold meaning meaning.whole at h ⊢
  cases hop : f.opcode with
  | continuation =>
      rw [hop] at h
      cases pending with
      | none => rfl
      | some p => cases hfin : f.fin <;> simp_all
  | close => rfl
  | text => cases hfin : f.fin <;> simp_all
  | binary => cases hfin : f.fin <;> simp_all
  | _ => simp [hop] at h

/-- What is read behind legal frames: the offending one, and anything. -/
def stream (frames : List WireFrame) (bad : WireFrame) (tail : Bytes) : Bytes :=
  frames.flatMap WireFrame.bytes ++ (bad.bytes ++ tail)

theorem stream_cons (f : WireFrame) (frames : List WireFrame) (bad : WireFrame) (tail : Bytes) :
    stream (f :: frames) bad tail = f.bytes ++ stream frames bad tail := by
  simp [stream, List.append_assoc]

theorem length_le_stream (frames : List WireFrame) (bad : WireFrame) (tail : Bytes) :
    frames.length < (stream frames bad tail).length + 1 := by
  induction frames with
  | nil => exact Nat.succ_pos _
  | cons f frames ih =>
      simp only [stream_cons, WireFrame.bytes, List.length_cons, List.length_append]
      omega

/-- The loop, up to the first message that is complete or the offending frame. -/
theorem receiveLoop_legal {isClient : Bool} {limit : UInt64} {pending pending' : Pending}
    {frames : List WireFrame} {outcomes : List (Except Error Message)}
    (h : Legal isClient pending frames outcomes pending') {bad : WireFrame}
    (hbad : bad.Offends isClient pending'.isSome)
    (hnot : ¬bad.Overlooked limit.toNat isClient pending'.isSome)
    (hlen : bad.payload.length < 2 ^ 64) {w : WebSocket} (hw : Holds w pending)
    (hrole : w.isClient = isClient) (hlimit : w.maxMessageSize = limit) (tail : Bytes) {fuel : ℕ}
    (hfuel : frames.length < fuel) :
    (∃ e w', attempt (receiveLoop fuel) (w.setIncoming (stream frames bad tail)) =
      .ok (.error e) w' ∧ e ≠ .invalidUtf8) ∨
    ∃ outcome outcomes' frames' w', outcomes = outcome :: outcomes' ∧
      Legal isClient none frames' outcomes' pending' ∧
      attempt (receiveLoop fuel) (w.setIncoming (stream frames bad tail)) = .ok outcome w' ∧
      w'.incoming = stream frames' bad tail ∧ w'.isClient = isClient ∧
      w'.maxMessageSize = limit := by
  induction h generalizing w fuel with
  | nil =>
      obtain ⟨fuel, rfl⟩ : ∃ n, fuel = n + 1 := ⟨fuel - 1, by omega⟩
      rw [← hrole] at hbad hnot
      rw [← hlimit] at hnot
      obtain ⟨e, w', hrun, he⟩ := turn_offends hbad hnot hlen hw tail
      left
      refine ⟨e, w', attempt_error ?_, he⟩
      rw [receiveLoop_turn]
      exact bind_error hrun
  | @cons pending pending' f frames outcomes hf hflen hrest ih =>
      obtain ⟨fuel, rfl⟩ : ∃ n, fuel = n + 1 := ⟨fuel - 1, by omega⟩
      rw [receiveLoop_turn, stream_cons]
      rw [← hrole] at hf
      rcases turn_legal hf hflen hw (stream frames bad tail) with
        ⟨e, w', hrun, he⟩ | ⟨w', hrun, hw'⟩
      · exact .inl ⟨e, w', attempt_error (bind_error hrun), he⟩
      · cases hdone : (meaning pending f).2 with
        | none =>
            -- the call goes on
            rw [hdone] at hrun
            have hloop := bind_ok (f := goOn fuel) (attempt_eq_ok.mp hrun)
            have hsame : w'.setIncoming (stream frames bad tail) = w' := by
              rw [← hw'.incoming]
              rfl
            have hnext := ih hbad hnot (hw'.holds hdone) (hw'.isClient.trans hrole)
              (hw'.limit.trans hlimit) (Nat.lt_of_succ_lt_succ hfuel)
            rw [hsame] at hnext
            rwa [attempt_congr hloop]
        | some outcome =>
            -- the call is over
            right
            rw [hdone] at hrun
            rw [meaning_done hdone] at hrest
            refine ⟨outcome, outcomes, frames, w', rfl, hrest, ?_, hw'.incoming,
              hw'.isClient.trans hrole, hw'.limit.trans hlimit⟩
            cases outcome with
            | ok message =>
                exact attempt_ok (bind_ok (f := goOn fuel) (attempt_eq_ok.mp hrun))
            | error e =>
                exact attempt_error (bind_error (attempt_eq_error.mp hrun))

/-! ### Every call returns -/

/-- The action takes at least so many bytes or fails, and does not panic. -/
def Calm {α : Type} (taken : ℕ) (x : Act WebSocket α) : Prop :=
  ∀ w, match x w with
    | .ok _ w' => w'.incoming.length + taken ≤ w.incoming.length
    | .error f _ => ∃ e, f = .err e

theorem Calm.bind {α β : Type} {k : ℕ} {x : Act WebSocket α} {f : α → Act WebSocket β}
    (hx : Calm k x) (hf : ∀ a, Calm 0 (f a)) : Calm k (x >>= f) := by
  intro w
  have h := hx w
  rw [bind_run]
  cases hrun : x w with
  | error e w₁ =>
      rw [hrun] at h
      exact h
  | ok a w₁ =>
      rw [hrun] at h
      have h' := hf a w₁
      simp only
      cases hrun' : f a w₁ with
      | error e w₂ =>
          rw [hrun'] at h'
          exact h'
      | ok b w₂ =>
          rw [hrun'] at h'
          exact Nat.le_trans (Nat.add_le_add_right h' k) h

theorem calm_fail {α : Type} (k : ℕ) (e : Error) : Calm k (fail e : Act WebSocket α) :=
  fun _ => ⟨e, rfl⟩

theorem calm_pure {α : Type} (a : α) : Calm 0 (pure a : Act WebSocket α) := fun _ => Nat.le_refl _

theorem calm_get_bind {α : Type} {k : ℕ} {f : WebSocket → Act WebSocket α}
    (h : ∀ w, Calm k (f w)) : Calm k (get >>= f) := fun w => h w w

theorem calm_modify_bind {α : Type} {f : WebSocket → WebSocket} {x : PUnit → Act WebSocket α}
    (hf : ∀ w, (f w).incoming = w.incoming) (hx : ∀ u, Calm 0 (x u)) :
    Calm 0 (modify f >>= x) := by
  intro w
  have h := hx ⟨⟩ (f w)
  rw [hf w] at h
  exact h

theorem calm_readSliceAll (k : ℕ) : Calm k (readSliceAll k) := by
  intro w
  rw [readSliceAll, bind_ok (get_run w)]
  by_cases h : k ≤ w.incoming.length
  · rw [if_pos h, bind_ok (modify_run ..)]
    show (w.incoming.drop k).length + k ≤ w.incoming.length
    rw [List.length_drop]
    omega
  · rw [if_neg h]
    exact ⟨_, rfl⟩

theorem Calm.mono {α : Type} {k m : ℕ} {x : Act WebSocket α} (h : Calm k x) (hle : m ≤ k) :
    Calm m x := by
  intro w
  have hw := h w
  cases hrun : x w with
  | error e w' =>
      rw [hrun] at hw
      exact hw
  | ok a w' =>
      rw [hrun] at hw
      exact Nat.le_trans (Nat.add_le_add_left hle _) hw

theorem calm_readSome {α : Type} {k : ℕ} {f : Bytes → Act WebSocket α} (h : ∀ bytes, Calm 0 (f bytes)) :
    Calm 0 (readSliceAll k >>= f) := ((calm_readSliceAll k).mono (Nat.zero_le k)).bind h

theorem calm_readLength (short : ℕ) : Calm 0 (readLength short) := by
  unfold readLength
  split
  · exact calm_readSome fun bytes => calm_pure _
  · split
    · exact calm_readSome fun bytes => calm_pure _
    · exact calm_pure _

theorem calm_readMask (masked : Bool) : Calm 0 (readMask masked) := by
  unfold readMask
  split
  · exact calm_readSome fun bytes => calm_pure _
  · exact calm_pure _

theorem calm_readRest (fin : Bool) (opcode : MessageType) (masked : Bool) (short : ℕ) :
    Calm 0 (readRest fin opcode masked short) := by
  apply (calm_readLength short).bind
  intro len
  apply (calm_readMask masked).bind
  intro key
  apply calm_get_bind
  intro self
  split
  · exact calm_fail 0 _
  · exact calm_readSome fun bytes => calm_pure _

theorem calm_readHeader (byte0 byte1 : UInt8) : Calm 0 (readHeader byte0 byte1) := by
  apply calm_get_bind
  intro self
  dsimp only
  split
  · exact calm_fail 0 _
  split
  · exact calm_fail 0 _
  split
  · exact calm_fail 0 _
  split
  · exact calm_fail 0 _
  · exact calm_readRest _ _ _ _

theorem calm_readFrame : Calm 2 readFrame :=
  (calm_readSliceAll 2).bind fun _ => calm_readHeader _ _

theorem Answers.calm {x : Act WebSocket (Option Message)} {r : Option Message}
    (h : ∀ v, Answers v x r) : Calm 0 x := by
  intro w
  have hspec := h w w (SameReader.refl w)
  cases hrun : x w with
  | error f w' =>
      rw [hrun] at hspec
      obtain ⟨e, he, -⟩ := hspec
      exact ⟨e, he⟩
  | ok r' w' =>
      rw [hrun] at hspec
      exact Nat.le_of_eq (congrArg List.length hspec.2.incoming)

theorem calm_deliver (type : MessageType) (data : Bytes) : Calm 0 (deliver type data) := by
  unfold deliver
  split
  · exact calm_fail 0 _
  · exact calm_pure _

theorem calm_onContinuation (fin : Bool) (payload : Bytes) : Calm 0 (onContinuation fin payload) := by
  apply calm_get_bind
  intro self
  split
  · exact calm_fail 0 _
  split
  · exact calm_fail 0 _
  split
  · exact calm_modify_bind (fun _ => rfl) fun _ => calm_deliver _ _
  · exact calm_modify_bind (fun _ => rfl) fun _ => calm_pure _

theorem calm_onData (fin : Bool) (opcode : MessageType) (payload : Bytes) :
    Calm 0 (onData fin opcode payload) := by
  apply calm_get_bind
  intro self
  split
  · exact calm_deliver _ _
  split
  · exact calm_fail 0 _
  split
  · exact calm_fail 0 _
  · exact calm_modify_bind (fun _ => rfl) fun _ => calm_pure _

theorem calm_onFrame (f : Frame) : Calm 0 (onFrame f) := by
  obtain ⟨fin, opcode, payload⟩ := f
  cases opcode with
  | ping => exact Answers.calm fun v => onPing_answers v fin payload
  | pong => exact calm_pure _
  | close => exact Answers.calm fun v => onClose_answers v payload
  | continuation => exact calm_onContinuation fin payload
  | text => exact calm_onData fin _ payload
  | binary => exact calm_onData fin _ payload
  | reserved control index => exact calm_fail 0 _

/-- Every turn takes two bytes, so a turn for every byte is enough. -/
theorem receiveLoop_returns (fuel : ℕ) {w : WebSocket} (h : w.incoming.length < fuel) :
    ∃ outcome w', attempt (receiveLoop fuel) w = .ok outcome w' := by
  induction fuel generalizing w with
  | zero => omega
  | succ fuel ih =>
      have hturn := calm_readFrame.bind calm_onFrame w
      rw [receiveLoop_turn]
      cases hrun : turn w with
      | error f w' =>
          rw [← turn, hrun] at hturn
          obtain ⟨e, rfl⟩ := hturn
          exact ⟨.error e, w', attempt_error (bind_error hrun)⟩
      | ok r w' =>
          rw [← turn, hrun] at hturn
          rw [attempt_congr (bind_ok hrun)]
          cases r with
          | some message => exact ⟨.ok message, w', rfl⟩
          | none =>
              have hless : w'.incoming.length + 2 ≤ w.incoming.length := hturn
              exact ih (by omega)

theorem receive_returns (w : WebSocket) : ∃ outcome w', attempt receive w = .ok outcome w' :=
  receiveLoop_returns (w := w.beginReceive) _ (Nat.lt_succ_self _)

theorem receiveAll_returns (n : ℕ) (w : WebSocket) :
    ∃ got w', receiveAll n w = .ok got w' ∧ got.length = n := by
  induction n generalizing w with
  | zero => exact ⟨[], w, rfl, rfl⟩
  | succ n ih =>
      obtain ⟨outcome, w₁, hrun⟩ := receive_returns w
      obtain ⟨got, w', hrest, hlen⟩ := ih w₁
      refine ⟨outcome :: got, w', ?_, congrArg Nat.succ hlen⟩
      rw [receiveAll, bind_ok hrun, bind_ok hrest]
      rfl

/-! ### Call after call -/

/-- The calls return what the legal frames mean, and what comes next, if anything, is an
error. -/
def Rejects (outcomes got : List (Except Error Message)) : Prop :=
  got <+: outcomes ∨
    ∃ before e after, got = before ++ .error e :: after ∧ before <+: outcomes ∧ e ≠ .invalidUtf8

theorem Rejects.cons {outcomes got : List (Except Error Message)} (h : Rejects outcomes got)
    (outcome : Except Error Message) : Rejects (outcome :: outcomes) (outcome :: got) := by
  rcases h with h | ⟨before, e, after, rfl, hbefore, he⟩
  · exact .inl ((List.prefix_cons_inj outcome).mpr h)
  · exact .inr ⟨outcome :: before, e, after, rfl, (List.prefix_cons_inj outcome).mpr hbefore, he⟩

/-- Any number of calls, on legal frames and an offending one behind them. -/
theorem receiveAll_rejects_aux {limit : UInt64} {isClient : Bool} {pending : Pending}
    {bad : WireFrame} (hbad : bad.Offends isClient pending.isSome)
    (hnot : ¬bad.Overlooked limit.toNat isClient pending.isSome)
    (hlen : bad.payload.length < 2 ^ 64) (tail : Bytes) (n : ℕ) {frames : List WireFrame}
    {outcomes : List (Except Error Message)} (h : Legal isClient none frames outcomes pending)
    {w : WebSocket} (hrole : w.isClient = isClient) (hlimit : w.maxMessageSize = limit)
    (hincoming : w.incoming = stream frames bad tail) :
    ∃ got w', receiveAll n w = .ok got w' ∧ got.length = n ∧ Rejects outcomes got := by
  induction n generalizing w frames outcomes with
  | zero => exact ⟨[], w, rfl, rfl, .inl List.nil_prefix⟩
  | succ n ih =>
      have hfuel : frames.length < w.incoming.length + 1 := by
        rw [hincoming]
        exact length_le_stream frames bad tail
      have hcall : attempt receive w = attempt (receiveLoop (w.incoming.length + 1))
          (w.beginReceive.setIncoming (stream frames bad tail)) := by
        rw [attempt_congr (receive_run w), ← hincoming]
        rfl
      have hholds : Holds w.beginReceive none := ⟨rfl, nofun⟩
      rcases receiveLoop_legal h hbad hnot hlen hholds hrole hlimit tail hfuel with
        ⟨e, w₁, hrun, he⟩ | ⟨outcome, outcomes', frames', w₁, rfl, hrest, hrun, hin₁, hrole₁, hlimit₁⟩
      · obtain ⟨got, w', hgot, hgotLen⟩ := receiveAll_returns n w₁
        refine ⟨.error e :: got, w', ?_, congrArg Nat.succ hgotLen, ?_⟩
        · rw [receiveAll, bind_ok (hcall.trans hrun), bind_ok hgot]
          rfl
        · exact .inr ⟨[], e, got, rfl, List.nil_prefix, he⟩
      · obtain ⟨got, w', hgot, hgotLen, hrejects⟩ := ih hrest hrole₁ hlimit₁ hin₁
        refine ⟨outcome :: got, w', ?_, congrArg Nat.succ hgotLen, hrejects.cons outcome⟩
        rw [receiveAll, bind_ok (hcall.trans hrun), bind_ok hgot]
        rfl

theorem onClose_ready {w : WebSocket} (h : Ready w) (payload : Bytes) :
    ∃ w', onClose payload w = .ok (some (closing payload)) w' := by
  have hopen : ¬w.closed = true := by simp [h.open_]
  let code := (closeCodeOf payload).getD .normal
  obtain ⟨w', hrun, -⟩ := writeFrameLocked_works (w := w.markClosed) h.faults .close
    (bigEndian 2 code.toNat ++ (closeReasonOf payload).take 123) true
  have hclose : writeClose code (closeReasonOf payload) w = .ok () w' := by
    rw [writeClose, bind_ok (lock_ready h), bind_ok (get_run w), if_neg hopen,
      bind_ok (modify_run ..), hrun]
  refine ⟨w'.markResponded, ?_⟩
  rw [onClose, bind_ok hclose]
  rfl

theorem onPing_ready {w : WebSocket} (h : Ready w) (fin : Bool) (payload : Bytes) :
    ∃ w', onFrame ⟨fin, .ping, payload⟩ w = .ok none w' := by
  obtain ⟨w', hrun, -⟩ := writeFrame_ready h .pong payload
  exact ⟨w'.markResponded, bind_ok (f := fun _ => modify markResponded >>= fun _ => pure none) hrun⟩

/-- What is overlooked is taken for what it looks like. -/
theorem turn_overlooked {w : WebSocket} (h : Ready w) {unfinished : Bool} {bad : WireFrame}
    (hbad : bad.Overlooked w.maxMessageSize.toNat w.isClient unfinished)
    (hlen : bad.payload.length < 2 ^ 64) (rest : Bytes) :
    ∃ outcome w', attempt turn (w.setIncoming (bad.bytes ++ rest)) = .ok outcome w' ∧
      ∀ e, outcome = .error e → e = .invalidUtf8 := by
  obtain ⟨hacc, hfits, hkind⟩ := hbad
  have hrun := turn_run hacc hlen rest
  rw [if_neg (by omega)] at hrun
  rw [attempt_congr hrun]
  have hready := h.setIncoming rest
  have hdata : ∀ opcode, bad.fin = true →
      ∃ outcome w', attempt (onData bad.fin opcode bad.payload) (w.setIncoming rest) =
        .ok outcome w' ∧ ∀ e, outcome = .error e → e = .invalidUtf8 := by
    intro opcode hfin
    have hdeliver : onData bad.fin opcode bad.payload (w.setIncoming rest) =
        deliver opcode bad.payload (w.setIncoming rest) := by
      rw [hfin]
      rfl
    refine ⟨_, _, (attempt_congr hdeliver).trans (attempt_deliver_turned ..), fun e he => ?_⟩
    unfold verdict at he
    split at he
    · cases he
      rfl
    · cases he
  have hreturns : ∀ {x : Act WebSocket (Option Message)} {r : Option Message},
      (∃ w', x (w.setIncoming rest) = .ok r w') →
      ∃ outcome w', attempt x (w.setIncoming rest) = .ok outcome w' ∧
        ∀ e, outcome = .error e → e = .invalidUtf8 := by
    rintro x r ⟨w', hx⟩
    exact ⟨.ok r, w', attempt_ok hx, fun e he => by cases he⟩
  rcases hkind with ⟨hd, hfin, -⟩ | ⟨hc, -⟩ | ⟨hclose, -⟩
  · cases hop : bad.opcode with
    | text => exact hdata .text hfin
    | binary => exact hdata .binary hfin
    | _ => rw [hop] at hd; cases hd
  · cases hop : bad.opcode with
    | ping => exact hreturns (onPing_ready hready _ _)
    | pong => exact hreturns ⟨_, rfl⟩
    | close => exact hreturns (onClose_ready hready _)
    | _ => rw [hop] at hc; cases hc
  · rw [hclose]
    exact hreturns (onClose_ready hready _)

/-- **Forbidden frames.**  Behind any legal frames, a frame that offends ends the call it is
read by with an error, whatever follows it and whatever the transport does, unless it is one of
those that are overlooked; such a one is taken where the writes succeed, whatever is under
way. -/
theorem receiveAll_rejects (w : WebSocket) {frames : List WireFrame}
    {outcomes : List (Except Error Message)} {pending : Pending}
    (h : Legal w.isClient none frames outcomes pending) {bad : WireFrame}
    (hbad : bad.Offends w.isClient pending.isSome) (hlen : bad.payload.length < 2 ^ 64)
    (tail : Bytes) :
    (¬bad.Overlooked w.maxMessageSize.toNat w.isClient pending.isSome → ∀ n,
      ∃ got w', receiveAll n (w.setIncoming (stream frames bad tail)) = .ok got w' ∧
        got.length = n ∧ Rejects outcomes got) ∧
    (bad.Overlooked w.maxMessageSize.toNat w.isClient pending.isSome →
      ∀ v : WebSocket, Ready v → v.isClient = w.isClient →
        v.maxMessageSize = w.maxMessageSize →
        ∃ outcome v', attempt turn (v.setIncoming (bad.bytes ++ tail)) = .ok outcome v' ∧
          ∀ e, outcome = .error e → e = .invalidUtf8) := by
  constructor
  · intro hnot n
    exact receiveAll_rejects_aux hbad hnot hlen tail n h
      (w := w.setIncoming (stream frames bad tail)) rfl rfl rfl
  · intro hover v hready hrole hlimit
    rw [← hrole, ← hlimit] at hover
    exact turn_overlooked hready hover hlen tail

/-- A frame of a server, of the given kind. -/
def plain (fin : Bool) (opcode : MessageType) (text : String) : WireFrame :=
  { fin := fin, opcode := opcode, mask := none, payload := ascii text }

theorem legal_begun : Legal true none [plain false .text "a"] [] (some (.text, ascii "a")) :=
  @Legal.cons true none _ (plain false .text "a") [] [] (by decide) (by decide) .nil

theorem receiveAll_rejects_sample :
    ∃ got w', receiveAll 2 ((fresh true []).setIncoming
        (stream [plain false .text "a"] (plain false .binary "b") [])) = .ok got w' ∧
      Rejects [] got := by
  have hbad : (plain false .binary "b").Offends true true := by decide
  obtain ⟨hrejects, -⟩ := receiveAll_rejects (fresh true []) legal_begun hbad (by decide) []
  obtain ⟨got, w', hrun, -, h⟩ := hrejects (by
    rintro ⟨-, -, ⟨-, hfin, -⟩ | ⟨hc, -⟩ | ⟨hclose, -⟩⟩
    · cases hfin
    · cases hc
    · cases hclose) 2
  exact ⟨got, w', hrun, h⟩

/-- A message that stands inside another message is returned. -/
theorem receive_overlooks :
    ¬∀ (w : WebSocket) (frames : List WireFrame) (outcomes got : List (Except Error Message))
      (pending : Pending) (bad : WireFrame) (tail : Bytes) (n : ℕ) (w' : WebSocket),
      Legal w.isClient none frames outcomes pending → bad.Offends w.isClient pending.isSome →
      receiveAll n (w.setIncoming (stream frames bad tail)) = .ok got w' →
      Rejects outcomes got := by
  intro hall
  obtain ⟨w', hrun⟩ := gives_iff.mp (show gives [.ok { type := .text, data := ascii "b" }]
    (receiveAll 1) ((fresh true []).setIncoming
      (stream [plain false .text "a"] (plain true .text "b") [])) = true by decide +kernel)
  have h := hall _ _ _ _ _ _ _ _ _ legal_begun (by decide) hrun
  rcases h with h | ⟨before, e, after, hgot, hbefore, -⟩
  · exact absurd (List.prefix_nil.mp h) (by simp)
  · obtain rfl := List.prefix_nil.mp hbefore
    cases hgot

end WebSocket
end Dusty
