import Dusty.Utf8
import Dusty.WebSocketWire

/-! # Close frames

A close frame is written because the application calls `close` or because the peer has sent one.  The
code goes out unchecked, and the reason is cut after 123 bytes wherever that falls, so that the frame is
legal only if the code and the cut are (`close_legal_iff`). -/

namespace Dusty

open Act

/-- RFC 6455 allows the status code in a frame. -/
def CloseCode.Allowed (code : CloseCode) : Prop :=
  1000 ≤ code ∧ code ≠ 1004 ∧ code ≠ 1005 ∧ code ≠ 1006 ∧ code ≠ 1015

instance (code : CloseCode) : Decidable code.Allowed :=
  inferInstanceAs (Decidable (1000 ≤ code ∧ code ≠ 1004 ∧ code ≠ 1005 ∧ code ≠ 1006 ∧ code ≠ 1015))

/-- The payload of a close frame is one RFC 6455 allows. -/
structure LegalPayload (payload : Bytes) : Prop where
  short : payload.length ≤ 125
  code : ∀ code ∈ WebSocket.closeCodeOf payload, CloseCode.Allowed code
  reason : utf8ValidateSlice (WebSocket.closeReasonOf payload) = true

/-- What goes into the frame: a code that is allowed, and a text that no character of is cut. -/
structure Proper (code : CloseCode) (reason : Bytes) : Prop where
  allowed : code.Allowed
  text : utf8ValidateSlice reason = true
  cut : ∀ b ∈ reason[123]?, isContinuation b = false

/-! ### The payload -/

/-- `buf[0 .. 2 + reason_len]`. -/
def closePayload (code : CloseCode) (reason : Bytes) : Bytes := bigEndian 2 code.toNat ++ reason.take 123

section payload
variable (code : CloseCode) (reason : Bytes)

theorem length_closePayload : (closePayload code reason).length = 2 + min 123 reason.length := by
  rw [closePayload, List.length_append, length_bigEndian, List.length_take]

theorem small_closePayload : WebSocket.Small (closePayload code reason) := by
  unfold WebSocket.Small
  rw [length_closePayload]
  omega

theorem closeCodeOf_closePayload : WebSocket.closeCodeOf (closePayload code reason) = some code := by
  have hlen := length_closePayload code reason
  have htwo : (closePayload code reason).take 2 = bigEndian 2 code.toNat :=
    List.take_left' (length_bigEndian 2 code.toNat)
  have hcode : readBigEndian (bigEndian 2 code.toNat) = code.toNat := readBigEndian_bigEndian code.toNat_lt
  unfold WebSocket.closeCodeOf
  rw [if_pos (by omega), htwo, hcode]
  exact congrArg some UInt16.ofNat_toNat

theorem closeReasonOf_closePayload : WebSocket.closeReasonOf (closePayload code reason) = reason.take 123 := by
  have hlen := length_closePayload code reason
  unfold WebSocket.closeReasonOf
  rw [if_pos (by omega)]
  exact List.drop_left' (length_bigEndian 2 code.toNat)

theorem legalPayload_iff :
    LegalPayload (closePayload code reason) ↔ code.Allowed ∧ utf8ValidateSlice (reason.take 123) = true := by
  have hlen := length_closePayload code reason
  constructor
  · intro h
    refine ⟨h.code code (closeCodeOf_closePayload code reason), ?_⟩
    rw [← closeReasonOf_closePayload code reason]
    exact h.reason
  · rintro ⟨hcode, hreason⟩
    refine ⟨by omega, ?_, ?_⟩
    · intro other hother
      rw [closeCodeOf_closePayload] at hother
      cases hother
      exact hcode
    · rw [closeReasonOf_closePayload]
      exact hreason

end payload

theorem Proper.legal {code : CloseCode} {reason : Bytes} (h : Proper code reason) :
    LegalPayload (closePayload code reason) :=
  (legalPayload_iff code reason).mpr ⟨h.allowed, (utf8ValidateSlice_take h.text 123).mpr h.cut⟩

/-! ### What makes a socket close -/

/-- The application calls `close`, or the peer has sent a close frame. -/
inductive CloseCause where
  | call (code : CloseCode) (reason : Bytes)
  | echo (payload : Bytes)

namespace CloseCause

/-- The code handed to `writeClose`. -/
def code : CloseCause → CloseCode
  | .call code _ => code
  | .echo payload => (WebSocket.closeCodeOf payload).getD .normal

/-- The reason handed to it. -/
def reason : CloseCause → Bytes
  | .call _ reason => reason
  | .echo payload => WebSocket.closeReasonOf payload

/-- What is done. -/
def exec : CloseCause → Act WebSocket Unit
  | .call code reason => WebSocket.close code reason
  | .echo payload => do
      let _ ← WebSocket.onClose payload

/-- An application closes with a text, and a close frame of the peer is no longer than a control frame may
be. -/
def Given : CloseCause → Prop
  | .call _ reason => utf8ValidateSlice reason = true
  | .echo payload => payload.length ≤ 125

theorem legal_iff {cause : CloseCause} (h : cause.Given) :
    LegalPayload (closePayload cause.code cause.reason) ↔ Proper cause.code cause.reason := by
  refine ⟨fun hlegal => ?_, Proper.legal⟩
  obtain ⟨hcode, htake⟩ := (legalPayload_iff _ _).mp hlegal
  cases cause with
  | call code reason => exact ⟨hcode, h, (utf8ValidateSlice_take h 123).mp htake⟩
  | echo payload =>
      have hlen : payload.length ≤ 125 := h
      have hshort : (WebSocket.closeReasonOf payload).length ≤ 123 := by
        unfold WebSocket.closeReasonOf
        split
        · rw [List.length_drop]
          omega
        · exact Nat.zero_le _
      have hwhole : (WebSocket.closeReasonOf payload).take 123 = WebSocket.closeReasonOf payload :=
        List.take_of_length_le hshort
      rw [show reason (.echo payload) = WebSocket.closeReasonOf payload from rfl] at htake ⊢
      rw [hwhole] at htake
      refine ⟨hcode, htake, fun b hb => ?_⟩
      rw [List.getElem?_eq_none hshort] at hb
      cases hb

end CloseCause

namespace WebSocket

/-! ### What is written -/

theorem writeFrameLocked_part (w : WebSocket) (opcode : MessageType) (data : Bytes) (fin : Bool) :
    ∃ part, part <+: (w.frameOf opcode data fin).bytes ∧
      (final (writeFrameLocked opcode data fin) w).conn.out = w.conn.out ++ part ∧
      (final (writeFrameLocked opcode data fin) w).isClient = w.isClient ∧
      ((∃ w', writeFrameLocked opcode data fin w = .ok () w') ∧
          (final (writeFrameLocked opcode data fin) w).closed = w.closed ∧
            part = (w.frameOf opcode data fin).bytes ∨
        (¬∃ w', writeFrameLocked opcode data fin w = .ok () w') ∧
          (final (writeFrameLocked opcode data fin) w).closed = true) := by
  have hspec := writeFrameLocked_spec w opcode data fin
  cases hrun : writeFrameLocked opcode data fin w with
  | ok u w' =>
      rw [hrun] at hspec
      obtain ⟨hwrote, -⟩ := hspec
      rw [final_of_ok hrun]
      exact ⟨_, List.prefix_rfl, hwrote.out, by rw [hwrote.same], .inl ⟨⟨w', rfl⟩, by rw [hwrote.same], rfl⟩⟩
  | error f w' =>
      rw [hrun] at hspec
      obtain ⟨-, -, part, w₁, hpart, hwrote, -, rfl⟩ := hspec
      rw [final_of_error hrun]
      refine ⟨part, hpart, hwrote.out, ?_, .inr ⟨?_, rfl⟩⟩
      · show w₁.isClient = _
        rw [hwrote.same]
      · rintro ⟨w', h⟩
        cases h

/-- **Closing an open socket** writes the frame, a part of it if writing fails, or nothing of it if the task
is cancelled before. -/
theorem writeClose_part {w : WebSocket} (hopen : w.closed = false) (code : CloseCode) (reason : Bytes) :
    ∃ part, part <+: (w.frameOf .close (closePayload code reason) true).bytes ∧
      (final (writeClose code reason) w).conn.out = w.conn.out ++ part ∧
      ((∃ w', writeClose code reason w = .ok () w') →
        part = (w.frameOf .close (closePayload code reason) true).bytes) := by
  cases hlock : lock w with
  | error f w' =>
      obtain ⟨hconn, -, -⟩ := (aside_lock w.conn w.closed w.isClient).error ⟨rfl, rfl, rfl⟩ hlock
      have hrun : writeClose code reason w = .error f w' := bind_error hlock
      refine ⟨[], List.nil_prefix, ?_, ?_⟩
      · rw [final_of_error hrun, hconn, List.append_nil]
      · rintro ⟨w'', h⟩
        rw [hrun] at h
        cases h
  | ok u w₁ =>
      obtain ⟨hclosed, hconn, -⟩ := lock_ok hlock
      have hframe : w₁.markClosed.frameOf .close (closePayload code reason) true =
          w.frameOf .close (closePayload code reason) true := by
        unfold lock at hlock
        rw [bind_ok (get_run w), bind_ok (modify_run ..)] at hlock
        split at hlock
        · cases hlock
        · cases hlock
          rfl
      have hrun : writeClose code reason w =
          writeFrameLocked .close (closePayload code reason) true w₁.markClosed := by
        unfold writeClose
        rw [bind_ok hlock, bind_ok (get_run w₁), hclosed, hopen]
        rfl
      obtain ⟨part, hpart, hout, -, hwhole⟩ :=
        writeFrameLocked_part w₁.markClosed .close (closePayload code reason) true
      rw [hframe] at hpart hwhole
      have hfinal : final (writeClose code reason) w =
          final (writeFrameLocked .close (closePayload code reason) true) w₁.markClosed := by
        unfold final
        rw [hrun]
      refine ⟨part, hpart, ?_, ?_⟩
      · rw [hfinal, hout]
        exact congrArg (fun conn => Conn.out conn ++ part) hconn
      · intro hok
        rw [hrun] at hok
        rcases hwhole with ⟨-, -, heq⟩ | ⟨hnot, -⟩
        · exact heq
        · exact absurd hok hnot

/-- Whatever the cause, `writeClose` does the writing. -/
theorem exec_writeClose (cause : CloseCause) (w : WebSocket) :
    (final cause.exec w).conn = (final (writeClose cause.code cause.reason) w).conn ∧
      ((∃ w', cause.exec w = .ok () w') → ∃ w', writeClose cause.code cause.reason w = .ok () w') := by
  cases cause with
  | call code reason => exact ⟨rfl, id⟩
  | echo payload =>
      cases hrun : writeClose (CloseCause.code (.echo payload)) (CloseCause.reason (.echo payload)) w with
      | ok u w' =>
          have hclose : onClose payload w = .ok _ w'.markResponded := bind_ok hrun
          have hexec : CloseCause.exec (.echo payload) w = .ok () w'.markResponded := bind_ok hclose
          rw [final_of_ok hexec, final_of_ok hrun]
          exact ⟨rfl, fun _ => ⟨w', rfl⟩⟩
      | error f w' =>
          have hexec : CloseCause.exec (.echo payload) w = .error f w' := bind_error (bind_error hrun)
          rw [final_of_error hexec, final_of_error hrun]
          refine ⟨rfl, ?_⟩
          rintro ⟨w'', h⟩
          cases hexec.symm.trans h

/-! ### Runs -/

/-- Frames that are no close frames, and at most one more thing behind them, which is a legal close frame if
it is a close frame or a part of one.  Their lengths are right if only slices are sent. -/
def ClosesLegally (slices : Prop) (wire : Bytes) : Prop :=
  ∃ (frames : List WireFrame) (last : Bytes), wire = frames.flatMap WireFrame.bytes ++ last ∧
    (∀ f ∈ frames, f.opcode ≠ .close ∧ (slices → Small f.payload)) ∧
    (last = [] ∨ ∃ f : WireFrame, last <+: f.bytes ∧ (slices → Small f.payload) ∧
      (f.opcode = .close → LegalPayload f.payload))

/-- The invariant: nothing but whole frames is on the wire while the socket is open. -/
def Traced (base : Bytes) (slices : Prop) (w : WebSocket) : Prop :=
  ∃ wire, w.conn.out = base ++ wire ∧ ClosesLegally slices wire ∧
    (w.closed = false → ∃ frames : List WireFrame, wire = frames.flatMap WireFrame.bytes ∧
      ∀ f ∈ frames, f.opcode ≠ .close ∧ (slices → Small f.payload))

section traced
variable {base : Bytes} {slices : Prop}

theorem Traced.next {w w' : WebSocket} (h : Traced base slices w) (hopen : w.closed = false) {f : WireFrame}
    {part : Bytes} (hpart : part <+: f.bytes) (hsmall : slices → Small f.payload) (hlegal : f.opcode = .close → LegalPayload f.payload)
    (hout : w'.conn.out = w.conn.out ++ part)
    (hclosed : w'.closed = false → part = f.bytes ∧ f.opcode ≠ .close) : Traced base slices w' := by
  obtain ⟨wire, hwire, -, hframes⟩ := h
  obtain ⟨frames, rfl, hne⟩ := hframes hopen
  refine ⟨frames.flatMap WireFrame.bytes ++ part, ?_, ⟨frames, part, rfl, hne, .inr ⟨f, hpart, hsmall, hlegal⟩⟩, ?_⟩
  · rw [hout, hwire, List.append_assoc]
  · intro hopen'
    obtain ⟨rfl, hother⟩ := hclosed hopen'
    refine ⟨frames ++ [f], ?_, ?_⟩
    · rw [List.flatMap_append, List.flatMap_singleton]
    · intro g hg
      rcases List.mem_append.mp hg with hg | hg
      · exact hne g hg
      · rw [List.mem_singleton.mp hg]
        exact ⟨hother, hsmall⟩

theorem Aside.traced {α : Type} {x : Act WebSocket α} (h : Aside x) : Keeps (Traced base slices) x := by
  refine keeps_iff_final.mpr fun w hw => ?_
  obtain ⟨hconn, hclosed, -⟩ :=
    keeps_iff_final.mp (h w.conn w.closed w.isClient) w ⟨rfl, rfl, rfl⟩
  obtain ⟨wire, hwire, hlegal, hframes⟩ := hw
  exact ⟨wire, hconn ▸ hwire, hlegal, fun hopen => hframes (hclosed.symm.trans hopen)⟩

theorem traced_writeFrame {opcode : MessageType} (hne : opcode ≠ .close) {data : Bytes}
    (hdata : slices → Small data) (fin : Bool) : Keeps (Traced base slices) (writeFrame opcode data fin) := by
  refine Keeps.bind aside_lock.traced fun _ => keeps_iff_final.mpr fun w hw => ?_
  rw [final_bind_ok (get_run w)]
  by_cases hclosed : w.closed = true
  · rw [if_pos hclosed]
    exact hw
  · rw [if_neg hclosed]
    obtain ⟨part, hpart, hout, -, hwhole⟩ := writeFrameLocked_part w opcode data fin
    refine hw.next (eq_false_of_ne_true hclosed) hpart hdata (fun h => absurd h hne) hout fun hopen => ?_
    rcases hwhole with ⟨-, -, heq⟩ | ⟨-, hshut⟩
    · exact ⟨heq, hne⟩
    · cases hshut.symm.trans hopen

theorem traced_writeClose {code : CloseCode} {reason : Bytes} (h : Proper code reason) :
    Keeps (Traced base slices) (writeClose code reason) := by
  refine Keeps.bind aside_lock.traced fun _ => keeps_iff_final.mpr fun w hw => ?_
  rw [final_bind_ok (get_run w)]
  by_cases hclosed : w.closed = true
  · rw [if_pos hclosed]
    exact hw
  · rw [if_neg hclosed, final_bind_ok (modify_run ..)]
    obtain ⟨part, hpart, hout, -, hwhole⟩ :=
      writeFrameLocked_part w.markClosed .close (closePayload code reason) true
    have hshut : (final (writeFrameLocked .close (closePayload code reason) true) w.markClosed).closed = true := by
      rcases hwhole with ⟨-, hkept, -⟩ | ⟨-, hshut⟩
      · exact hkept
      · exact hshut
    exact hw.next (eq_false_of_ne_true hclosed) hpart (fun _ => small_closePayload code reason) (fun _ => h.legal) hout fun hopen => by
      cases hshut.symm.trans hopen

theorem survives_traced : SurvivesWhen (fun data => slices → Small data) Proper (Traced base slices) :=
  ⟨fun h => h.traced, traced_writeFrame, traced_writeClose⟩

end traced

/-- **Close frames.**  On an open socket either cause of a close frame writes one, or a part of one if
writing fails, which is legal exactly if its code is allowed, its reason is a text, and the cut after
123 bytes falls between two characters.  So every close frame of a run is legal if that is true of
everything the run closes the socket with. -/
theorem close_legal_iff (cause : CloseCause) (w : WebSocket) (s : Tasks) (steps : List Tasks.Step) :
    (cause.Given → w.closed = false →
      ∃ (f : WireFrame) (part : Bytes), f.opcode = .close ∧ Own True w.isClient f ∧ part <+: f.bytes ∧
        (final cause.exec w).conn.out = w.conn.out ++ part ∧
        ((∃ w', cause.exec w = .ok () w') → part = f.bytes) ∧
        (LegalPayload f.payload ↔ Proper cause.code cause.reason)) ∧
      (s.AsksAll (fun _ => True) Proper steps →
        ∃ wire, (final (Tasks.run steps) s).ws.conn.out = s.ws.conn.out ++ wire ∧
          ClosesLegally (s.Slices steps) wire) := by
  constructor
  · intro hgiven hopen
    obtain ⟨part, hpart, hout, hwhole⟩ := writeClose_part hopen cause.code cause.reason
    obtain ⟨hconn, hok⟩ := exec_writeClose cause w
    refine ⟨_, part, rfl, own_frameOf w .close (fun _ => small_closePayload _ _) true, hpart, ?_, fun h => hwhole (hok h),
      CloseCause.legal_iff hgiven⟩
    rw [hconn]
    exact hout
  · intro hasks
    have hstart : Traced s.ws.conn.out (s.Slices steps) s.ws :=
      ⟨[], (List.append_nil _).symm, ⟨[], [], rfl, fun f hf => absurd hf List.not_mem_nil, .inl rfl⟩,
        fun _ => ⟨[], rfl, fun f hf => absurd hf List.not_mem_nil⟩⟩
    obtain ⟨wire, hwire, hlegal, -⟩ := Tasks.final_run survives_traced hstart (hasks.slices id)
    exact ⟨wire, hwire, hlegal⟩

/-- A peer closes with a code that must not be sent, and has it back. -/
theorem close_echoes : ∃ w', CloseCause.exec (.echo [0x03, 0xED]) (fresh false []) = .ok () w' ∧
    w'.conn.out = [0x88, 2, 0x03, 0xED] ∧ ¬LegalPayload [0x03, 0xED] := by
  refine ⟨final (CloseCause.exec (.echo [0x03, 0xED])) (fresh false []), by rfl, by decide +kernel,
    fun h => ?_⟩
  exact absurd (h.code 1005 (by decide)) (by decide)

/-- A text of 125 bytes whose 123rd byte ends a character. -/
def longReason : Bytes := List.replicate 121 97 ++ [0xC3, 0xA9, 0xC3, 0xA9]

/-- A peer's close frame is echoed, and a long reason is cut between two characters. -/
theorem close_legal_iff_sample : (∃ (f : WireFrame) (part : Bytes), f.opcode = .close ∧ part <+: f.bytes ∧
      (final (CloseCause.exec (.echo (bigEndian 2 1001 ++ ascii "bye"))) (fresh false [])).conn.out = part ∧
      LegalPayload f.payload) ∧
    ∃ wire, (final (Tasks.run [.ping [], .close 1000 longReason]) ⟨fresh false [], none⟩).ws.conn.out = wire ∧
      ClosesLegally (Tasks.Slices ⟨fresh false [], none⟩ [.ping [], .close 1000 longReason]) wire := by
  have hecho : Proper (CloseCause.code (.echo (bigEndian 2 1001 ++ ascii "bye")))
      (CloseCause.reason (.echo (bigEndian 2 1001 ++ ascii "bye"))) :=
    ⟨by decide, by decide +kernel, fun b hb => by cases hb⟩
  have hlong : Proper 1000 longReason := by
    refine ⟨by decide, by decide +kernel, fun b hb => ?_⟩
    obtain rfl := Option.some.inj (hb.symm.trans (show longReason[123]? = some 0xC3 by decide +kernel))
    rfl
  obtain ⟨hcause, hrun⟩ := close_legal_iff (.echo (bigEndian 2 1001 ++ ascii "bye")) (fresh false [])
    ⟨fresh false [], none⟩ [.ping [], .close 1000 longReason]
  have hgiven : (bigEndian 2 1001 ++ ascii "bye").length ≤ 125 := by decide
  obtain ⟨f, part, hop, -, hpart, hout, -, hlegal⟩ := hcause hgiven rfl
  obtain ⟨wire, hwire, hcloses⟩ := hrun ⟨trivial, hlong, trivial⟩
  exact ⟨⟨f, part, hop, hpart, hout, hlegal.mpr hecho⟩, wire, hwire, hcloses⟩

end WebSocket
end Dusty
