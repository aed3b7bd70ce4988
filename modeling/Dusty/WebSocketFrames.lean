import Dusty.Hoare
import Dusty.WebSocket

/-! # Frames on the wire

`WireFrame` is a frame as RFC 6455 lays it out, whoever sends it.  `writeFrameLocked` writes
such a frame (`writeFrameLocked_spec`), `readFrame` reads one (`readFrame_bytes`), and so a
sequence of written frames is read back as it was (`readFrames_writeFrames`). -/

namespace Dusty

open Act

/-- There are eight ways to set the reserved bits, `0` among them. -/
instance neZeroEight : NeZero 8 := ⟨by decide⟩

/-- A frame as it is sent. -/
structure WireFrame where
  fin : Bool
  rsv : Fin 8 := 0
  opcode : MessageType
  mask : Option Mask
  payload : Bytes
deriving DecidableEq, Repr

namespace WireFrame

/-- The first byte: the final bit, the reserved bits and the opcode. -/
def byte0 (fin : Bool) (rsv : Fin 8) (opcode : MessageType) : UInt8 :=
  (if fin then (0x80 : UInt8) else 0x00) ||| rsv.val.toUInt8 <<< 4 ||| opcode.code

/-- The seven bits for a payload length. -/
def short (len : ℕ) : ℕ := if len < 126 then len else if len ≤ 65535 then 126 else 127

/-- The bytes a payload length takes besides. -/
def extended (len : ℕ) : Bytes :=
  if len < 126 then [] else if len ≤ 65535 then bigEndian 2 len else bigEndian 8 len

/-- The second byte. -/
def byte1 (masked : Bool) (len : ℕ) : UInt8 :=
  WebSocket.maskBit masked ||| (short len).toUInt8

/-- The bytes of a mask key, if there is one. -/
def maskBytes (mask : Option Mask) : Bytes := (mask.map Mask.bytes).getD []

/-- What stands behind the first two bytes. -/
def tail (f : WireFrame) : Bytes :=
  extended f.payload.length ++ (maskBytes f.mask ++ WebSocket.unmask f.mask f.payload)

/-- The bytes of a frame. -/
def bytes (f : WireFrame) : Bytes :=
  byte0 f.fin f.rsv f.opcode :: byte1 f.mask.isSome f.payload.length :: f.tail

/-! ### The header bytes -/

theorem byte0_spec (fin : Bool) (rsv : Fin 8) (opcode : MessageType) :
    (byte0 fin rsv opcode &&& 0x80 != 0) = fin ∧
      (byte0 fin rsv opcode &&& 0x70 != 0) = decide (rsv ≠ 0) ∧
      MessageType.ofCode (byte0 fin rsv opcode) = opcode := by
  have hreserved : ∀ (fin : Bool) (rsv : Fin 8) (control : Bool) (index : Fin 5),
      (byte0 fin rsv (.reserved control index) &&& 0x80 != 0) = fin ∧
        (byte0 fin rsv (.reserved control index) &&& 0x70 != 0) = decide (rsv ≠ 0) ∧
        MessageType.ofCode (byte0 fin rsv (.reserved control index)) = .reserved control index := by
    decide +kernel
  cases opcode with
  | reserved control index => exact hreserved fin rsv control index
  | _ =>
      revert fin rsv
      decide +kernel

theorem short_lt (len : ℕ) : short len < 128 := by
  unfold short
  split
  · omega
  · split <;> omega

theorem byte1_spec (masked : Bool) (len : ℕ) :
    (byte1 masked len &&& 0x80 != 0) = masked ∧ (byte1 masked len &&& 0x7F).toNat = short len := by
  have h : ∀ (masked : Bool) (n : Fin 128),
      ((WebSocket.maskBit masked ||| n.val.toUInt8) &&& 0x80 != 0) = masked ∧
        ((WebSocket.maskBit masked ||| n.val.toUInt8) &&& 0x7F).toNat = n.val := by
    decide +kernel
  exact h masked ⟨short len, short_lt len⟩

/-! ### Masks -/

theorem apply_apply (key : Mask) (data : Bytes) : key.apply (key.apply data) = data := by
  unfold Mask.apply
  apply List.ext_getElem
  · simp
  · intro i h₁ h₂
    rw [List.getElem_mapIdx, List.getElem_mapIdx, UInt8.xor_assoc, UInt8.xor_self, UInt8.xor_zero]

theorem unmask_unmask (mask : Option Mask) (data : Bytes) :
    WebSocket.unmask mask (WebSocket.unmask mask data) = data := by
  cases mask with
  | none => rfl
  | some key => exact apply_apply key data

@[simp] theorem length_unmask (mask : Option Mask) (data : Bytes) :
    (WebSocket.unmask mask data).length = data.length := by
  cases mask with
  | none => rfl
  | some key => simp [WebSocket.unmask, Mask.apply]

end WireFrame

namespace WebSocket

open WireFrame

/-! ### Reading a frame -/

theorem readSliceAll_append (r : WebSocket) {n : ℕ} {taken rest : Bytes} (h : taken.length = n) :
    readSliceAll n (r.setIncoming (taken ++ rest)) = .ok taken (r.setIncoming rest) := by
  have hle : n ≤ (r.setIncoming (taken ++ rest)).incoming.length := by
    show n ≤ (taken ++ rest).length
    rw [List.length_append]
    omega
  rw [readSliceAll, bind_ok (get_run _), if_pos hle, bind_ok (modify_run ..), pure_run]
  show EStateM.Result.ok ((taken ++ rest).take n) (r.setIncoming ((taken ++ rest).drop n)) = _
  rw [← h, List.take_left, List.drop_left]

theorem readLength_short (r : WebSocket) {len : ℕ} (h : len < 2 ^ 64) (rest : Bytes) :
    readLength (short len) (r.setIncoming (extended len ++ rest)) = .ok len (r.setIncoming rest) := by
  unfold readLength short extended
  by_cases h₁ : len < 126
  · have h₂ : len ≠ 126 := by omega
    have h₃ : len ≠ 127 := by omega
    rw [if_pos h₁, if_neg h₂, if_neg h₃, if_pos h₁]
    rfl
  · rw [if_neg h₁, if_neg h₁]
    by_cases h₂ : len ≤ 65535
    · have hread : readBigEndian (bigEndian 2 len) = len := readBigEndian_bigEndian (by omega)
      rw [if_pos h₂, if_pos rfl, if_pos h₂, bind_ok (readSliceAll_append r (length_bigEndian 2 len)),
        pure_run, hread]
    · have hread : readBigEndian (bigEndian 8 len) = len := readBigEndian_bigEndian (by omega)
      rw [if_neg h₂, if_neg (by omega), if_pos rfl, if_neg h₂,
        bind_ok (readSliceAll_append r (length_bigEndian 8 len)), pure_run, hread]

theorem readMask_bytes (r : WebSocket) (mask : Option Mask) (rest : Bytes) :
    readMask mask.isSome (r.setIncoming (maskBytes mask ++ rest)) = .ok mask (r.setIncoming rest) := by
  cases mask with
  | none => rfl
  | some key =>
      have hread : readSliceAll 4 (r.setIncoming (key.bytes ++ rest)) = .ok key.bytes _ :=
        readSliceAll_append r rfl
      show readMask true (r.setIncoming (key.bytes ++ rest)) = _
      rw [readMask, if_pos rfl, bind_ok hread]
      rfl

/-- What the reader takes of a frame that passed the checks of its header. -/
theorem readRest_tail (r : WebSocket) (f : WireFrame) (hlen : f.payload.length < 2 ^ 64)
    (rest : Bytes) :
    readRest f.fin f.opcode f.mask.isSome (short f.payload.length)
        (r.setIncoming (f.tail ++ rest)) =
      if f.payload.length > r.maxMessageSize.toNat then
        .error (.err .messageTooLarge)
          (r.setIncoming (unmask f.mask f.payload ++ rest))
      else .ok ⟨f.fin, f.opcode, f.payload⟩ (r.setIncoming rest) := by
  have hlength := readLength_short r hlen (maskBytes f.mask ++ (unmask f.mask f.payload ++ rest))
  rw [readRest, tail, List.append_assoc, List.append_assoc, bind_ok hlength,
    bind_ok (readMask_bytes r f.mask _), bind_ok (get_run _), setIncoming_maxMessageSize]
  by_cases hlarge : f.payload.length > r.maxMessageSize.toNat
  · rw [if_pos hlarge, if_pos hlarge]
    rfl
  · have hread : readSliceAll f.payload.length (r.setIncoming (unmask f.mask f.payload ++ rest)) =
        .ok (unmask f.mask f.payload) (r.setIncoming rest) :=
      readSliceAll_append r (length_unmask f.mask f.payload)
    rw [if_neg hlarge, if_neg hlarge, bind_ok hread, unmask_unmask]
    rfl

/-- The frame is one the reader takes: no reserved bits, masked as its role asks for, and short
if it is a control frame. -/
structure Accepted (isClient : Bool) (f : WireFrame) : Prop where
  rsv : f.rsv = 0
  mask : f.mask.isSome = !isClient
  control : f.opcode.isControl = true → f.payload.length ≤ 125

theorem readFrame_header (r : WebSocket) (f : WireFrame) (rest : Bytes) :
    readFrame (r.setIncoming (f.bytes ++ rest)) =
      readHeader (byte0 f.fin f.rsv f.opcode) (byte1 f.mask.isSome f.payload.length)
        (r.setIncoming (f.tail ++ rest)) := by
  have hread : readSliceAll 2 (r.setIncoming (f.bytes ++ rest)) =
      .ok [byte0 f.fin f.rsv f.opcode, byte1 f.mask.isSome f.payload.length]
        (r.setIncoming (f.tail ++ rest)) :=
    @readSliceAll_append r 2 [byte0 f.fin f.rsv f.opcode, byte1 f.mask.isSome f.payload.length]
      (f.tail ++ rest) rfl
  rw [readFrame, bind_ok hread]
  rfl

/-- The checks of the header, in terms of the frame. -/
theorem readHeader_run (r : WebSocket) (f : WireFrame) :
    readHeader (byte0 f.fin f.rsv f.opcode) (byte1 f.mask.isSome f.payload.length) r =
      if f.rsv ≠ 0 then .error (.err .reservedFlags) r
      else if r.isClient = false ∧ f.mask.isSome = false then .error (.err .unmaskedClientFrame) r
      else if r.isClient = true ∧ f.mask.isSome = true then .error (.err .maskedServerFrame) r
      else if f.opcode.isControl = true ∧ f.payload.length > 125 then
        .error (.err .largeControlFrame) r
      else readRest f.fin f.opcode f.mask.isSome (short f.payload.length) r := by
  obtain ⟨hfin, hrsv, hopcode⟩ := byte0_spec f.fin f.rsv f.opcode
  obtain ⟨hmask, hshort⟩ := byte1_spec f.mask.isSome f.payload.length
  have hlong : short f.payload.length > 125 ↔ f.payload.length > 125 := by
    unfold short
    split
    · exact Iff.rfl
    · split <;> omega
  rw [readHeader, bind_ok (get_run r)]
  simp only [hfin, hrsv, hopcode, hmask, hshort]
  by_cases h₁ : f.rsv = 0
  · cases hclient : r.isClient with
    | false =>
        cases hm : f.mask.isSome with
        | false => simp [h₁]
        | true =>
            by_cases h₂ : f.opcode.isControl = true ∧ f.payload.length > 125
            · simp [h₁, h₂, hlong]
            · simp [h₁, h₂, hlong]
    | true =>
        cases hm : f.mask.isSome with
        | true => simp [h₁]
        | false =>
            by_cases h₂ : f.opcode.isControl = true ∧ f.payload.length > 125
            · simp [h₁, h₂, hlong]
            · simp [h₁, h₂, hlong]
  · simp [h₁]

/-- **Reading a frame**, whoever wrote it. -/
theorem readFrame_bytes (r : WebSocket) {f : WireFrame} (h : Accepted r.isClient f)
    (hlen : f.payload.length < 2 ^ 64) (rest : Bytes) :
    readFrame (r.setIncoming (f.bytes ++ rest)) =
      if f.payload.length > r.maxMessageSize.toNat then
        .error (.err .messageTooLarge)
          (r.setIncoming (unmask f.mask f.payload ++ rest))
      else .ok ⟨f.fin, f.opcode, f.payload⟩ (r.setIncoming rest) := by
  have hrsv : ¬f.rsv ≠ 0 := by simp [h.rsv]
  have hserver : ¬(r.isClient = false ∧ f.mask.isSome = false) := by
    rw [h.mask]
    cases r.isClient <;> simp
  have hclient : ¬(r.isClient = true ∧ f.mask.isSome = true) := by
    rw [h.mask]
    cases r.isClient <;> simp
  have hcontrol : ¬(f.opcode.isControl = true ∧ f.payload.length > 125) := by
    rintro ⟨hc, hlong⟩
    have := h.control hc
    omega
  rw [readFrame_header, readHeader_run, setIncoming_isClient, if_neg hrsv, if_neg hserver,
    if_neg hclient, if_neg hcontrol, readRest_tail r f hlen]

/-! ### Writing a frame -/

/-- The connection has accepted more bytes, and nothing else has changed. -/
structure Sent (w : WebSocket) (bytes : Bytes) (w' : WebSocket) : Prop where
  same : w' = w.setConn w'.conn
  out : w'.conn.out = w.conn.out ++ bytes
  flushed : w'.conn.flushed = w.conn.flushed
  faults : w.conn.faults = [] → w'.conn.faults = []

theorem Sent.refl (w : WebSocket) : Sent w [] w := ⟨rfl, by simp, rfl, id⟩

theorem Sent.trans {w w₁ w₂ : WebSocket} {xs ys : Bytes} (h : Sent w xs w₁) (h' : Sent w₁ ys w₂) :
    Sent w (xs ++ ys) w₂ := by
  refine ⟨?_, ?_, h'.flushed.trans h.flushed, fun hf => h'.faults (h.faults hf)⟩
  · rw [h'.same, h.same]
    rfl
  · rw [h'.out, h.out, List.append_assoc]

/-- The action writes the bytes; if the transport fails it has written some of them. -/
def Sends (bytes : Bytes) (x : Act WebSocket Unit) : Prop :=
  ∀ w, match x w with
    | .ok _ w' => Sent w bytes w'
    | .error f w' => f = .err .writeFailed ∧ w.conn.faults ≠ [] ∧ ∃ part, part <+: bytes ∧ Sent w part w'

theorem Sends.ok {bytes : Bytes} {x : Act WebSocket Unit} (h : Sends bytes x) {w w' : WebSocket}
    {u : Unit} (hx : x w = .ok u w') : Sent w bytes w' := by
  have := h w
  rwa [hx] at this

theorem Sends.error {bytes : Bytes} {x : Act WebSocket Unit} (h : Sends bytes x)
    {w w' : WebSocket} {f : Fault} (hx : x w = .error f w') :
    f = .err .writeFailed ∧ w.conn.faults ≠ [] ∧ ∃ part, part <+: bytes ∧ Sent w part w' := by
  have := h w
  rwa [hx] at this

theorem sends_pure : Sends [] (pure () : Act WebSocket Unit) := fun w => Sent.refl w

theorem sends_emit (bytes : Bytes) : Sends bytes (emit bytes) := by
  intro w
  unfold emit onConn zoom Conn.writeAll
  cases hf : w.conn.faults with
  | nil => exact ⟨rfl, Conn.out_wrote .., rfl, fun _ => hf⟩
  | cons fault faults =>
      cases fault with
      | none =>
          refine ⟨rfl, Conn.out_wrote .., rfl, fun h => ?_⟩
          rw [hf] at h
          cases h
      | some fault =>
          obtain ⟨accepted, cause⟩ := fault
          refine ⟨rfl, by simp, bytes.take accepted, List.take_prefix _ _, rfl, ?_, rfl, ?_⟩
          · exact Conn.out_wrote ..
          · intro h
            rw [hf] at h
            cases h

theorem Sends.bind {xs ys : Bytes} {x : Act WebSocket Unit} {y : Unit → Act WebSocket Unit}
    (hx : Sends xs x) (hy : ∀ u, Sends ys (y u)) : Sends (xs ++ ys) (x >>= y) := by
  intro w
  rw [bind_run]
  cases hrun : x w with
  | error f w₁ =>
      obtain ⟨hf, hfaults, part, hpart, hsent⟩ := hx.error hrun
      exact ⟨hf, hfaults, part, hpart.trans (List.prefix_append _ _), hsent⟩
  | ok u w₁ =>
      have hsent := hx.ok hrun
      simp only
      cases hrun₁ : y u w₁ with
      | ok v w₂ => exact hsent.trans ((hy u).ok hrun₁)
      | error f w₂ =>
          obtain ⟨hf, hfaults, part, hpart, hsent'⟩ := (hy u).error hrun₁
          refine ⟨hf, fun h => hfaults (hsent.faults h), xs ++ part, ?_, hsent.trans hsent'⟩
          exact (List.prefix_append_right_inj xs).mpr hpart

theorem sends_emitEach (bytes : Bytes) : Sends bytes (emitEach bytes) := by
  induction bytes with
  | nil => exact sends_pure
  | cons b rest ih => exact (sends_emit [b]).bind fun _ => ih

theorem sends_writeLength (isClient : Bool) (len : ℕ) :
    Sends (byte1 isClient len :: extended len) (writeLength (maskBit isClient) len) := by
  unfold writeLength extended byte1 short
  split
  · exact sends_emit _
  · split
    · exact (sends_emit [maskBit isClient ||| 126]).bind fun _ => sends_emit _
    · exact (sends_emit [maskBit isClient ||| 127]).bind fun _ => sends_emit _

/-- The frame the writer makes of a payload. -/
def frameOf (w : WebSocket) (opcode : MessageType) (data : Bytes) (fin : Bool) : WireFrame :=
  { fin := fin, opcode := opcode, payload := data
    mask := if w.isClient then some (w.masks w.drawn) else none }

/-- The first bytes of a frame. -/
def writeHead (isClient : Bool) (opcode : MessageType) (len : ℕ) (fin : Bool) : Act WebSocket Unit := do
  emit [(if fin then 0x80 else 0x00) ||| opcode.code]
  writeLength (maskBit isClient) len

theorem sends_writeHead (isClient : Bool) (opcode : MessageType) (len : ℕ) (fin : Bool) :
    Sends (byte0 fin 0 opcode :: byte1 isClient len :: extended len)
      (writeHead isClient opcode len fin) := by
  have hzero : byte0 fin 0 opcode = (if fin then 0x80 else 0x00) ||| opcode.code := by
    have h : ∀ b : UInt8, b ||| (0 : ℕ).toUInt8 <<< 4 = b := by
      intro b
      have hshift : (0 : ℕ).toUInt8 <<< 4 = 0 := by decide
      rw [hshift, UInt8.or_zero]
    exact congrArg (· ||| opcode.code) (h _)
  rw [hzero]
  exact (sends_emit [_]).bind fun _ => sends_writeLength isClient len

theorem writeFrameLocked_eq (opcode : MessageType) (data : Bytes) (fin : Bool) (w : WebSocket) :
    writeFrameLocked opcode data fin w = (onError markClosed do
      writeHead w.isClient opcode data.length fin
      writePayload w.isClient data
      onConn Conn.flush) w := by
  have h : (do
      emit [(if fin then 0x80 else 0x00) ||| opcode.code]
      let self ← get
      writeLength (maskBit self.isClient) data.length
      writePayload self.isClient data
      onConn Conn.flush : Act WebSocket Unit) w = (do
      writeHead w.isClient opcode data.length fin
      writePayload w.isClient data
      onConn Conn.flush) w := by
    unfold writeHead
    rw [bind_assoc, bind_run, bind_run (emit _)]
    cases hrun : emit [(if fin then 0x80 else 0x00) ||| opcode.code] w with
    | error f w' => rfl
    | ok u w' =>
        have hsame := ((sends_emit _).ok hrun).same
        simp only
        rw [bind_ok (get_run w'), hsame]
        rfl
  unfold writeFrameLocked onError
  rw [h]

/-- The writer after a frame or a part of it: only the connection and the number of keys drawn
are different. -/
structure Wrote (w : WebSocket) (bytes : Bytes) (w' : WebSocket) : Prop where
  same : w' = { w with conn := w'.conn, drawn := w'.drawn }
  out : w'.conn.out = w.conn.out ++ bytes
  faults : w.conn.faults = [] → w'.conn.faults = []

theorem Sent.wrote {w w' : WebSocket} {bytes : Bytes} (h : Sent w bytes w') : Wrote w bytes w' := by
  refine ⟨?_, h.out, h.faults⟩
  rw [h.same]
  rfl

theorem Wrote.trans {w w₁ w₂ : WebSocket} {xs ys : Bytes} (h : Wrote w xs w₁) (h' : Wrote w₁ ys w₂) :
    Wrote w (xs ++ ys) w₂ := by
  refine ⟨?_, ?_, fun hf => h'.faults (h.faults hf)⟩
  · rw [h'.same, h.same]
  · rw [h'.out, h.out, List.append_assoc]

theorem flush_spec (w : WebSocket) :
    match onConn Conn.flush w with
    | .ok _ w' => Wrote w [] w' ∧ w'.conn.flushed = w'.conn.out.length
    | .error f w' => f = .err .writeFailed ∧ w.conn.faults ≠ [] ∧ Wrote w [] w' ∧
        w'.conn.flushed = w.conn.flushed := by
  unfold onConn zoom Conn.flush
  cases hf : w.conn.faults with
  | nil => exact ⟨⟨rfl, (List.append_nil _).symm, fun _ => hf⟩, rfl⟩
  | cons fault faults =>
      have hne : w.conn.faults ≠ [] := by simp [hf]
      cases fault with
      | none => exact ⟨⟨rfl, (List.append_nil _).symm, fun h => absurd h hne⟩, rfl⟩
      | some fault =>
          exact ⟨rfl, by simp, ⟨rfl, (List.append_nil _).symm, fun h => absurd h hne⟩, rfl⟩

/-- The payload and, if it is masked, the key before it. -/
theorem writePayload_spec (w : WebSocket) (data : Bytes) :
    let mask := if w.isClient then some (w.masks w.drawn) else none
    match writePayload w.isClient data w with
    | .ok _ w' => Wrote w (maskBytes mask ++ unmask mask data) w' ∧
        w'.conn.flushed = w.conn.flushed
    | .error f w' => f = .err .writeFailed ∧ w.conn.faults ≠ [] ∧
        ∃ part, part <+: maskBytes mask ++ unmask mask data ∧ Wrote w part w' ∧
          w'.conn.flushed = w.conn.flushed := by
  unfold writePayload
  cases hclient : w.isClient with
  | false =>
      simp only [Bool.false_eq_true, if_false]
      cases hrun : emit data w with
      | ok u w' =>
          have hsent := (sends_emit data).ok hrun
          exact ⟨hsent.wrote, hsent.flushed⟩
      | error f w' =>
          obtain ⟨hf, hfaults, part, hpart, hsent⟩ := (sends_emit data).error hrun
          exact ⟨hf, hfaults, part, hpart, hsent.wrote, hsent.flushed⟩
  | true =>
      simp only [if_true]
      let key := w.masks w.drawn
      have hsends : Sends (key.bytes ++ key.apply data)
          (emit key.bytes >>= fun _ => emitEach (key.apply data)) :=
        (sends_emit _).bind fun _ => sends_emitEach _
      have hdraw : ∀ {bytes : Bytes} {w' : WebSocket}, Sent w.draw bytes w' → Wrote w bytes w' := by
        intro bytes w' hsent
        refine ⟨?_, hsent.out, hsent.faults⟩
        rw [hsent.same]
        rfl
      rw [show writeMasked data w = (emit key.bytes >>= fun _ => emitEach (key.apply data)) w.draw
        from rfl]
      cases hrun : (emit key.bytes >>= fun _ => emitEach (key.apply data)) w.draw with
      | ok u w' =>
          have hsent := hsends.ok hrun
          exact ⟨hdraw hsent, hsent.flushed⟩
      | error f w' =>
          obtain ⟨hf, hfaults, part, hpart, hsent⟩ := hsends.error hrun
          exact ⟨hf, hfaults, part, hpart, hdraw hsent, hsent.flushed⟩

/-- **Writing a frame.**  If it returns, the frame is on the wire and everything has been
flushed; if it fails, a part of it is, and the writer is closed. -/
theorem writeFrameLocked_spec (w : WebSocket) (opcode : MessageType) (data : Bytes) (fin : Bool) :
    match writeFrameLocked opcode data fin w with
    | .ok _ w' => Wrote w (w.frameOf opcode data fin).bytes w' ∧
        w'.conn.flushed = w'.conn.out.length
    | .error f w' => f = .err .writeFailed ∧ w.conn.faults ≠ [] ∧
        ∃ part w₁, part <+: (w.frameOf opcode data fin).bytes ∧ Wrote w part w₁ ∧
          w₁.conn.flushed = w.conn.flushed ∧ w' = w₁.markClosed := by
  have hbytes : (w.frameOf opcode data fin).bytes =
      (byte0 fin 0 opcode :: byte1 w.isClient data.length :: extended data.length) ++
        (maskBytes (w.frameOf opcode data fin).mask ++
          unmask (w.frameOf opcode data fin).mask data) := by
    have hmask : (w.frameOf opcode data fin).mask.isSome = w.isClient := by
      unfold frameOf
      cases w.isClient <;> rfl
    rw [WireFrame.bytes, hmask]
    rfl
  rw [writeFrameLocked_eq, hbytes]
  unfold onError
  rw [bind_run]
  have hhead := sends_writeHead w.isClient opcode data.length fin
  cases hrun : writeHead w.isClient opcode data.length fin w with
  | error f w₁ =>
      obtain ⟨hf, hfaults, part, hpart, hsent⟩ := hhead.error hrun
      exact ⟨hf, hfaults, part, w₁, hpart.trans (List.prefix_append _ _), hsent.wrote,
        hsent.flushed, rfl⟩
  | ok u w₁ =>
      have hsent := hhead.ok hrun
      have hclient : w.isClient = w₁.isClient := by rw [hsent.same]; rfl
      have hmask : (w.frameOf opcode data fin).mask =
          if w.isClient then some (w₁.masks w₁.drawn) else none := by
        rw [hsent.same]
        rfl
      have hpayload := writePayload_spec w₁ data
      rw [← hclient, ← hmask] at hpayload
      simp only
      rw [bind_run]
      cases hrun₁ : writePayload w.isClient data w₁ with
      | error f w₂ =>
          rw [hrun₁] at hpayload
          obtain ⟨hf, hfaults, part, hpart, hwrote, hflushed⟩ := hpayload
          exact ⟨hf, fun h => hfaults (hsent.faults h), _ ++ part, w₂,
            (List.prefix_append_right_inj _).mpr hpart, hsent.wrote.trans hwrote,
            hflushed.trans hsent.flushed, rfl⟩
      | ok v w₂ =>
          rw [hrun₁] at hpayload
          obtain ⟨hwrote, hflushed⟩ := hpayload
          have hall := hsent.wrote.trans hwrote
          have hflush := flush_spec w₂
          simp only
          cases hrun₂ : onConn Conn.flush w₂ with
          | ok u w₃ =>
              rw [hrun₂] at hflush
              obtain ⟨hsent', hdone⟩ := hflush
              have hend := hall.trans hsent'
              rw [List.append_nil] at hend
              exact ⟨hend, hdone⟩
          | error f w₃ =>
              rw [hrun₂] at hflush
              obtain ⟨hf, hfaults, hsent', hkept⟩ := hflush
              have hend := hall.trans hsent'
              rw [List.append_nil] at hend
              exact ⟨hf, fun h => hfaults (hall.faults h), _, w₃, List.prefix_rfl, hend,
                hkept.trans (hflushed.trans hsent.flushed), rfl⟩

/-! ### A sequence of frames -/

/-- Write frames one after the other. -/
def writeFrames : List Frame → Act WebSocket Unit
  | [] => pure ()
  | f :: rest => do
      writeFrameLocked f.opcode f.payload f.fin
      writeFrames rest

/-- Read a number of frames. -/
def readFrames : ℕ → Act WebSocket (List Frame)
  | 0 => pure []
  | n + 1 => do
      let f ← readFrame
      let rest ← readFrames n
      pure (f :: rest)

/-- A frame written by one side is accepted by the other. -/
theorem frameOf_accepted {w r : WebSocket} (hrole : r.isClient = !w.isClient) {f : Frame}
    (hcontrol : f.opcode.isControl = true → f.payload.length ≤ 125) :
    Accepted r.isClient (w.frameOf f.opcode f.payload f.fin) := by
  refine ⟨rfl, ?_, hcontrol⟩
  rw [hrole]
  unfold frameOf
  cases w.isClient <;> rfl

theorem readFrame_frameOf {w r : WebSocket} (hrole : r.isClient = !w.isClient) {f : Frame}
    (hlen : f.payload.length ≤ r.maxMessageSize.toNat)
    (hcontrol : f.opcode.isControl = true → f.payload.length ≤ 125) (rest : Bytes) :
    readFrame (r.setIncoming ((w.frameOf f.opcode f.payload f.fin).bytes ++ rest)) =
      .ok f (r.setIncoming rest) := by
  have hlt : f.payload.length < 2 ^ 64 := by
    have := r.maxMessageSize.toNat_lt
    omega
  have hnot : ¬(w.frameOf f.opcode f.payload f.fin).payload.length > r.maxMessageSize.toNat := by
    show ¬f.payload.length > r.maxMessageSize.toNat
    omega
  rw [readFrame_bytes r (frameOf_accepted hrole hcontrol) hlt rest, if_neg hnot]
  rfl

theorem writeFrameLocked_works {w : WebSocket} (h : w.conn.faults = []) (opcode : MessageType)
    (data : Bytes) (fin : Bool) :
    ∃ w', writeFrameLocked opcode data fin w = .ok () w' ∧
      Wrote w (w.frameOf opcode data fin).bytes w' ∧ w'.conn.flushed = w'.conn.out.length := by
  have hspec := writeFrameLocked_spec w opcode data fin
  cases hrun : writeFrameLocked opcode data fin w with
  | ok u w' =>
      rw [hrun] at hspec
      exact ⟨w', rfl, hspec⟩
  | error f w' =>
      rw [hrun] at hspec
      exact absurd h hspec.2.1

/-- **What one side writes the other reads.**  Frames with any final bits and opcodes and with
payloads of any length up to the reader's limit, control frames of at most 125 bytes, are read
back as they were written, under any mask keys, and reading takes exactly the bytes that were
written. -/
theorem readFrames_writeFrames (w r : WebSocket) (hrole : r.isClient = !w.isClient)
    (frames : List Frame)
    (hlen : ∀ f ∈ frames, f.payload.length ≤ r.maxMessageSize.toNat)
    (hcontrol : ∀ f ∈ frames, f.opcode.isControl = true → f.payload.length ≤ 125) :
    (w.conn.faults = [] → ∃ w', writeFrames frames w = .ok () w') ∧
    ∀ w', writeFrames frames w = .ok () w' →
      ∃ bytes, w'.conn.out = w.conn.out ++ bytes ∧
        ∀ rest, readFrames frames.length (r.setIncoming (bytes ++ rest)) =
          .ok frames (r.setIncoming rest) := by
  induction frames generalizing w with
  | nil =>
      refine ⟨fun _ => ⟨w, rfl⟩, fun w' h => ⟨[], ?_, fun rest => rfl⟩⟩
      cases h
      exact (List.append_nil _).symm
  | cons f frames ih =>
      have hlen' := fun g hg => hlen g (List.mem_cons_of_mem f hg)
      have hcontrol' := fun g hg => hcontrol g (List.mem_cons_of_mem f hg)
      have hrole' : ∀ {bytes : Bytes} {w₁ : WebSocket}, Wrote w bytes w₁ →
          r.isClient = !w₁.isClient := by
        intro bytes w₁ hwrote
        rw [hrole, hwrote.same]
      constructor
      · intro hfaults
        obtain ⟨w₁, hrun, hwrote, -⟩ := writeFrameLocked_works hfaults f.opcode f.payload f.fin
        obtain ⟨w', hrest⟩ := (ih w₁ (hrole' hwrote) hlen' hcontrol').1 (hwrote.faults hfaults)
        exact ⟨w', (bind_ok hrun).trans hrest⟩
      · intro w' h
        obtain ⟨u, w₁, hrun, hrest⟩ := bind_eq_ok.mp h
        have hspec := writeFrameLocked_spec w f.opcode f.payload f.fin
        rw [hrun] at hspec
        obtain ⟨hwrote, -⟩ := hspec
        obtain ⟨bytes, hout, hread⟩ := (ih w₁ (hrole' hwrote) hlen' hcontrol').2 w' hrest
        refine ⟨(w.frameOf f.opcode f.payload f.fin).bytes ++ bytes, ?_, fun rest => ?_⟩
        · rw [hout, hwrote.out, List.append_assoc]
        · have hfirst := readFrame_frameOf hrole (hlen f List.mem_cons_self)
            (hcontrol f List.mem_cons_self) (bytes ++ rest)
          rw [List.length_cons, readFrames, List.append_assoc, bind_ok hfirst,
            bind_ok (hread rest)]
          rfl

/-- An endpoint that has done nothing yet. -/
def fresh (isClient : Bool) (incoming : Bytes) : WebSocket :=
  { conn := {}, incoming := incoming, isClient := isClient, masks := fun _ => ⟨1, 2, 3, 4⟩ }

theorem readFrames_writeFrames_sample :
    ∃ w' bytes, writeFrames [⟨true, .text, ascii "hello"⟩, ⟨false, .ping, []⟩] (fresh true []) =
      .ok () w' ∧ w'.conn.out = bytes ∧ readFrames 2 ((fresh false []).setIncoming (bytes ++ [7])) =
        .ok [⟨true, .text, ascii "hello"⟩, ⟨false, .ping, []⟩] ((fresh false []).setIncoming [7]) := by
  have h := readFrames_writeFrames (fresh true []) (fresh false []) rfl
    [⟨true, .text, ascii "hello"⟩, ⟨false, .ping, []⟩] (by decide) (by decide)
  obtain ⟨w', hwrite⟩ := h.1 rfl
  obtain ⟨bytes, hout, hread⟩ := h.2 w' hwrite
  exact ⟨w', bytes, hwrite, hout, hread [7]⟩

end WebSocket
end Dusty
