import Dusty.EventSource
import Dusty.Streaming

/-! # What event streams write

The bytes `EventStream.send` and an `EventWriter` put on the wire (`send_spec`,
`sendInWrites_spec`), in terms of the data alone: a line feed in the data begins a new `data`
line, and a carriage return before it, or at the end of all the data, is left out. -/

namespace Dusty

open Act

namespace EventWriter

/-! ### Writing -/

/-- The state after a write, seen from the state before it. -/
structure Written (s : Self) (bytes : Bytes) (lineInProgress : Bool) (s' : Self) : Prop where
  out : s'.res.conn.out = s.res.conn.out ++ if s.w.discard then [] else bytes
  discard : s'.w.discard = s.w.discard
  line : s'.w.lineInProgress = lineInProgress
  faults : s.res.conn.faults = [] → s'.res.conn.faults = []

/-- Where a `data` line is under way or not, as `b` says, the action writes the bytes and leaves
`b'`; or the transport fails. -/
def Emits (b : Bool) (bytes : Bytes) (b' : Bool) (x : Act Self Unit) : Prop :=
  ∀ s, s.w.lineInProgress = b → match x s with
    | .ok _ s' => Written s bytes b' s'
    | .error f _ => f = .err .writeFailed ∧ s.res.conn.faults ≠ []

theorem emits_pure (b : Bool) : Emits b [] b (pure ()) := by
  intro s hs
  refine ⟨?_, rfl, hs, id⟩
  cases s.w.discard <;> simp

theorem Emits.bind {b b₁ b' : Bool} {xs ys : Bytes} {x : Act Self Unit} {y : Unit → Act Self Unit}
    (hx : Emits b xs b₁ x) (hy : ∀ u, Emits b₁ ys b' (y u)) : Emits b (xs ++ ys) b' (x >>= y) := by
  intro s hs
  have h := hx s hs
  rw [bind_run]
  cases hrun : x s with
  | error f s₁ =>
      rw [hrun] at h
      exact h
  | ok u s₁ =>
      rw [hrun] at h
      have h' := hy u s₁ h.line
      simp only
      cases hrun' : y u s₁ with
      | error f s₂ =>
          rw [hrun'] at h'
          exact ⟨h'.1, fun hf => h'.2 (h.faults hf)⟩
      | ok v s₂ =>
          rw [hrun'] at h'
          refine ⟨?_, h'.discard.trans h.discard, h'.line, fun hf => h'.faults (h.faults hf)⟩
          rw [h'.out, h.out, h.discard]
          cases s.w.discard <;> simp

theorem emits_get_bind {b b' : Bool} {bytes : Bytes} {x : Self → Act Self Unit}
    (h : ∀ s, s.w.lineInProgress = b → Emits b bytes b' (x s)) : Emits b bytes b' (get >>= x) :=
  fun s hs => h s hs s hs

theorem emits_setLine (b b' : Bool) : Emits b [] b' (setLineInProgress b') := by
  intro s hs
  refine ⟨?_, rfl, rfl, id⟩
  cases s.w.discard <;> simp

theorem emits_emit (b : Bool) (bytes : Bytes) : Emits b bytes b (emit bytes) := by
  intro s hs
  rw [emit, bind_ok (get_run s)]
  cases hdiscard : s.w.discard with
  | true => exact ⟨by simp [hdiscard], rfl, hs, id⟩
  | false =>
      simp only [Bool.not_false, when_true]
      unfold Attached.emit Attached.onRes Response.onConn zoom Conn.writeAll
      cases hf : s.res.conn.faults with
      | nil =>
          refine ⟨?_, rfl, hs, fun _ => hf⟩
          rw [hdiscard]
          exact Conn.out_wrote ..
      | cons fault faults =>
          cases fault with
          | none =>
              refine ⟨?_, rfl, hs, fun h => ?_⟩
              · rw [hdiscard]
                exact Conn.out_wrote ..
              · rw [hf] at h
                cases h
          | some fault => exact ⟨rfl, by simp⟩

theorem emits_flushConn (b : Bool) : Emits b [] b flushConn := by
  intro s hs
  rw [flushConn, bind_ok (get_run s)]
  cases hdiscard : s.w.discard with
  | true => exact ⟨by simp [hdiscard], rfl, hs, id⟩
  | false =>
      simp only [Bool.not_false, when_true]
      unfold Attached.flushConn Attached.onRes Response.onConn zoom Conn.flush
      cases hf : s.res.conn.faults with
      | nil => exact ⟨by simp [hdiscard]; rfl, rfl, hs, fun _ => hf⟩
      | cons fault faults =>
          cases fault with
          | none =>
              refine ⟨by simp [hdiscard]; rfl, rfl, hs, fun h => ?_⟩
              rw [hf] at h
              cases h
          | some fault => exact ⟨rfl, by simp⟩

/-! ### The fields -/

/-- The line of a field, if it is there. -/
def fieldBytes (name : Bytes) : Option Bytes → Bytes
  | none => []
  | some value => name ++ value ++ [10]

/-- The lines of the options. -/
def optionsBytes (opts : EventOptions) : Bytes :=
  fieldBytes (ascii "event: ") opts.event ++ (fieldBytes (ascii "id: ") opts.id ++
    fieldBytes (ascii "retry: ") (opts.retry.map (fmtNat 10)))

/-- `startSend` takes the options: no field has a line end in it. -/
def ValidOptions (opts : EventOptions) : Prop :=
  breaksLine opts.event = false ∧ breaksLine opts.id = false

instance (opts : EventOptions) : Decidable (ValidOptions opts) :=
  inferInstanceAs (Decidable (_ ∧ _))

theorem emits_emitField (b : Bool) (name : Bytes) (value : Option Bytes) :
    Emits b (fieldBytes name value) b (emitField name value) := by
  cases value with
  | none => exact emits_pure b
  | some value => exact emits_emit b _

theorem startSend_valid {opts : EventOptions} (h : ValidOptions opts) (b : Bool) :
    Emits b (optionsBytes opts) b (startSend opts) := by
  unfold startSend
  rw [if_neg (by simp [h.1]), if_neg (by simp [h.2])]
  exact (emits_emitField b _ _).bind fun _ =>
    (emits_emitField b _ _).bind fun _ => emits_emitField b _ _

theorem startSend_invalid {opts : EventOptions} (h : ¬ValidOptions opts) (s : Self) :
    startSend opts s = .error (.err .invalidEventField) s := by
  unfold startSend
  cases hevent : breaksLine opts.event with
  | true => rfl
  | false =>
      cases hid : breaksLine opts.id with
      | true => rfl
      | false => exact absurd ⟨hevent, hid⟩ h

/-! ### The data -/

/-- The start of a `data` line. -/
def dataField : Bytes := ascii "data: "

/-- What follows the start of the first `data` line. -/
def encode : Bytes → Bytes
  | [] => [10]
  | [13] => [10]
  | 13 :: 10 :: rest => 10 :: (dataField ++ encode rest)
  | 10 :: rest => 10 :: (dataField ++ encode rest)
  | b :: rest => b :: encode rest

/-- What `send` writes for the data. -/
def sendBytes (data : Bytes) : Bytes := dataField ++ encode data

/-- The lines of `send`. -/
def linesBytes (lines : List Bytes) : Bytes :=
  lines.flatMap fun line => dataField ++ stripCr line ++ [10]

theorem emits_sendLines (b : Bool) (lines : List Bytes) :
    Emits b (linesBytes lines) b (sendLines lines) := by
  induction lines with
  | nil => exact emits_pure b
  | cons line rest ih => exact (emits_emit b _).bind fun _ => ih

/-- A carriage return that is not the last byte of its line stays. -/
theorem stripCr_cons {b : UInt8} {line : Bytes} (h : b = 13 → line ≠ []) :
    stripCr (b :: line) = b :: stripCr line := by
  unfold stripCr
  cases line with
  | nil =>
      have hb : b ≠ 13 := fun hb => h hb rfl
      simp [hb]
  | cons c line =>
      rw [List.getLast?_cons_cons]
      split
      · rfl
      · rfl

theorem linesBytes_splitScalar (data : Bytes) :
    linesBytes (splitScalar data 10) = sendBytes data := by
  unfold sendBytes
  fun_induction encode data with
  | case1 => decide
  | case2 => decide
  | case3 rest ih =>
      -- a carriage return and a line feed
      obtain ⟨line, lines, hrest, hcons⟩ := splitScalar_cons (by decide : (13 : UInt8) ≠ 10) (10 :: rest)
      rw [splitScalar_delimiter] at hrest
      cases hrest
      rw [hcons, linesBytes, List.flatMap_cons]
      show dataField ++ stripCr [13] ++ [10] ++ linesBytes (splitScalar rest 10) = _
      rw [ih, show stripCr [13] = [] from rfl]
      simp
  | case4 rest ih =>
      rw [splitScalar_delimiter, linesBytes, List.flatMap_cons]
      show dataField ++ stripCr [] ++ [10] ++ linesBytes (splitScalar rest 10) = _
      rw [ih, show stripCr [] = [] from rfl]
      simp
  | case5 b rest h₁ h₂ h₃ ih =>
      have hb : b ≠ 10 := h₃
      obtain ⟨line, lines, hrest, hcons⟩ := splitScalar_cons hb rest
      have hstrip : stripCr (b :: line) = b :: stripCr line := by
        apply stripCr_cons
        rintro rfl rfl
        rcases splitScalar_head hrest with rfl | ⟨more, rfl⟩
        · exact h₁ rfl rfl
        · exact h₂ more rfl rfl
      rw [hrest, linesBytes, List.flatMap_cons] at ih
      rw [hcons, linesBytes, List.flatMap_cons, hstrip]
      have hline : stripCr line ++ [10] ++
          lines.flatMap (fun line => dataField ++ stripCr line ++ [10]) = encode rest := by
        apply (List.append_right_inj dataField).mp
        rw [← ih]
        simp [List.append_assoc]
      rw [← hline]
      simp [List.append_assoc]

/-- **What `send` writes**, if the options are taken. -/
theorem send_valid {opts : EventOptions} (h : ValidOptions opts) (data : Bytes) (b : Bool) :
    Emits b (optionsBytes opts ++ (sendBytes data ++ [10])) b (send data opts) := by
  have hend : Emits b ([10] ++ []) b (emit [10] >>= fun _ => flushConn) :=
    (emits_emit b [10]).bind fun _ => emits_flushConn b
  rw [← linesBytes_splitScalar]
  exact (startSend_valid h b).bind fun _ => (emits_sendLines b _).bind fun _ => hend

theorem send_invalid {opts : EventOptions} (h : ¬ValidOptions opts) (data : Bytes) (s : Self) :
    send data opts s = .error (.err .invalidEventField) s :=
  bind_error (startSend_invalid h s)

/-! ### An event in several writes -/

/-- A write through the interface: slices, and the last one a number of times. -/
structure Write where
  data : List Bytes := []
  pattern : Bytes
  splat : ℕ := 1
deriving DecidableEq, Repr

/-- What a write is about. -/
def Write.bytes (write : Write) : Bytes :=
  write.data.flatten ++ (List.replicate write.splat write.pattern).flatten

/-- Make the writes one after the other. -/
def writeEach : List Write → Act Self Unit
  | [] => pure ()
  | write :: rest => do
      writeSplatAll write.data write.pattern write.splat
      writeEach rest

/-- `startSend`, the writes, and `end`. -/
def sendInWrites (writes : List Write) (opts : EventOptions) : Act Self Unit := do
  startSend opts
  setLineInProgress false
  writeEach writes
  finish

/-- The start of a `data` line, if none is under way. -/
def opening (lineInProgress : Bool) : Bytes := if lineInProgress then [] else dataField

/-- What an `EventWriter` makes of data without carriage returns, and whether it leaves a line
open. -/
def feed : Bool → Bytes → Bytes × Bool
  | b, [] => ([], b)
  | b, c :: rest =>
      (opening b ++ c :: (feed (c != 10) rest).1, (feed (c != 10) rest).2)

theorem feed_append (b : Bool) (xs ys : Bytes) :
    feed b (xs ++ ys) =
      ((feed b xs).1 ++ (feed (feed b xs).2 ys).1, (feed (feed b xs).2 ys).2) := by
  induction xs generalizing b with
  | nil => rfl
  | cons c xs ih =>
      rw [List.cons_append, feed, ih, feed]
      simp [List.append_assoc]

theorem feed_text (b : Bool) {text : Bytes} (h : 10 ∉ text) :
    feed b text = if text = [] then ([], b) else (opening b ++ text, true) := by
  induction text generalizing b with
  | nil => rfl
  | cons c text ih =>
      obtain ⟨hc, htext⟩ : 10 ≠ c ∧ 10 ∉ text := by simpa using h
      have hne : (c != 10) = true := by simpa using Ne.symm hc
      rw [feed, hne, ih true htext, if_neg (List.cons_ne_nil c text)]
      by_cases hnil : text = []
      · simp [hnil]
      · simp [hnil, opening]

theorem emits_openLine (b : Bool) : Emits b (opening b) b openLine := by
  apply emits_get_bind
  intro s hs
  rw [hs]
  cases b with
  | true => exact emits_pure true
  | false => exact emits_emit false _

theorem emits_keepLine (b : Bool) : Emits b (opening b) true keepLine := by
  apply emits_get_bind
  intro s hs
  rw [hs]
  cases b with
  | true => exact emits_pure true
  | false =>
      have h := (emits_emit false (ascii "data: ")).bind fun _ => emits_setLine false true
      rwa [List.append_nil] at h

theorem stripCr_of_not_mem {line : Bytes} (h : 13 ∉ line) : stripCr line = line := by
  unfold stripCr
  rw [if_neg]
  intro hlast
  exact h (List.mem_of_getLast? hlast)

theorem emits_writeLines (b : Bool) (lines : List Bytes) (hne : lines ≠ [])
    (hlf : ∀ line ∈ lines, 10 ∉ line) (hcr : ∀ line ∈ lines, 13 ∉ line) :
    Emits b (feed b ([10].intercalate lines)).1 (feed b ([10].intercalate lines)).2
      (writeLines lines) := by
  induction lines generalizing b with
  | nil => exact absurd rfl hne
  | cons line rest ih =>
      have hline := hlf line List.mem_cons_self
      cases rest with
      | nil =>
          rw [List.intercalate_singleton, feed_text b hline, writeLines]
          by_cases hnil : line = []
          · subst hnil
            exact emits_pure b
          · have hpos : decide (line.length > 0) = true := by
              simpa using List.length_pos_iff.mpr hnil
            rw [if_neg hnil, hpos]
            exact (emits_keepLine b).bind fun _ => emits_emit true line
      | cons next rest =>
          have hfeed : feed b ([10].intercalate (line :: next :: rest)) =
              (opening b ++ line ++ [10] ++ (feed false ([10].intercalate (next :: rest))).1,
                (feed false ([10].intercalate (next :: rest))).2) := by
            rw [List.intercalate_cons_cons, List.append_assoc, feed_append, feed_text b hline]
            by_cases hnil : line = []
            · rw [if_pos hnil, hnil]
              simp [feed]
            · rw [if_neg hnil]
              simp [feed, opening]
          have hrest := ih false (by simp) (fun l hl => hlf l (List.mem_cons_of_mem _ hl))
            (fun l hl => hcr l (List.mem_cons_of_mem _ hl))
          have hstrip := stripCr_of_not_mem (hcr line List.mem_cons_self)
          rw [hfeed, writeLines, hstrip]
          · have h := (emits_openLine b).bind fun _ => (emits_emit b line).bind fun _ =>
              (emits_emit b [10]).bind fun _ => (emits_setLine b false).bind fun _ => hrest
            simpa [List.append_assoc] using h
          · simp

theorem emits_writeSlice (b : Bool) {bytes : Bytes} (hcr : 13 ∉ bytes) :
    Emits b (feed b bytes).1 (feed b bytes).2 (writeLines (splitScalar bytes 10)) := by
  have h := emits_writeLines b (splitScalar bytes 10) (List.splitOn_ne_nil 10 bytes)
    (fun line hl => (splitScalar_mem hl).1)
    (fun line hl hmem => hcr ((splitScalar_mem hl).2 13 hmem))
  rwa [splitScalar, List.intercalate_splitOn] at h

theorem emits_writeSlices (b : Bool) (data : List Bytes) (hcr : 13 ∉ data.flatten) :
    Emits b (feed b data.flatten).1 (feed b data.flatten).2 (writeSlices data) := by
  induction data generalizing b with
  | nil => exact emits_pure b
  | cons segment data ih =>
      obtain ⟨hsegment, hdata⟩ : 13 ∉ segment ∧ 13 ∉ data.flatten := by simpa using hcr
      rw [List.flatten_cons, feed_append]
      exact (emits_writeSlice b hsegment).bind fun _ => ih _ hdata

/-- A drain takes the slices and, if it is to be written at all, the pattern once. -/
theorem emits_drain_bind (b : Bool) (data : List Bytes) (pattern : Bytes) (splat : ℕ) {bytes : Bytes}
    (hbytes : bytes = data.flatten ++ if splat > 0 then pattern else []) (hcr : 13 ∉ bytes)
    {x : Act Self Unit} {ys : Bytes} {b' : Bool} (hx : Emits (feed b bytes).2 ys b' x) :
    Emits b ((feed b bytes).1 ++ ys) b' (drain data pattern splat >>= fun _ => x) := by
  subst hbytes
  obtain ⟨hdata, hpattern⟩ : 13 ∉ data.flatten ∧ 13 ∉ if splat > 0 then pattern else [] := by
    simpa only [List.mem_append, not_or] using hcr
  unfold drain
  rw [bind_assoc]
  rw [feed_append] at hx ⊢
  rw [List.append_assoc]
  apply (emits_writeSlices b data hdata).bind
  intro _
  by_cases hsplat : splat > 0
  · simp only [if_pos hsplat] at hpattern hx ⊢
    rw [bind_assoc]
    exact (emits_writeSlice _ hpattern).bind fun _ => hx
  · simp only [if_neg hsplat] at hx ⊢
    exact hx

theorem emits_drainRest (b : Bool) (pattern : Bytes) (splat : ℕ)
    (hcr : 13 ∉ (List.replicate splat pattern).flatten) :
    Emits b (feed b (List.replicate splat pattern).flatten).1
      (feed b (List.replicate splat pattern).flatten).2 (drainRest pattern splat) := by
  induction splat generalizing b with
  | zero => exact emits_pure b
  | succ splat ih =>
      rw [List.replicate_succ, List.flatten_cons] at hcr ⊢
      obtain ⟨hpattern, hrest⟩ : 13 ∉ pattern ∧ 13 ∉ (List.replicate splat pattern).flatten := by
        simpa only [List.mem_append, not_or] using hcr
      rw [feed_append]
      exact emits_drain_bind b [] pattern (splat + 1) (by simp) hpattern (ih _ hrest)

/-- **A write**, however it is cut into slices and repetitions. -/
theorem emits_write (b : Bool) (write : Write) (hcr : 13 ∉ write.bytes) :
    Emits b (feed b write.bytes).1 (feed b write.bytes).2
      (writeSplatAll write.data write.pattern write.splat) := by
  unfold writeSplatAll
  by_cases hcount : StreamingBodyWriter.countSplat write.data write.pattern write.splat = 0
  · have hnil : write.bytes = [] := by
      apply List.length_eq_zero_iff.mp
      rw [← hcount, Write.bytes, StreamingBodyWriter.countSplat, List.length_append]
      simp [Nat.mul_comm]
    rw [if_pos hcount, hnil]
    exact emits_pure b
  · rw [if_neg hcount]
    cases hsplat : write.splat with
    | zero =>
        have hbytes : write.bytes = write.data.flatten ++ if 0 > 0 then write.pattern else [] := by
          simp [Write.bytes, hsplat]
        have h := emits_drain_bind b write.data write.pattern 0 hbytes hcr
          (emits_drainRest _ write.pattern 0 (by simp))
        simpa [feed] using h
    | succ splat =>
        have hbytes : write.bytes = write.data.flatten ++ write.pattern ++
            (List.replicate splat write.pattern).flatten := by
          simp [Write.bytes, hsplat, List.replicate_succ, List.append_assoc]
        rw [hbytes] at hcr ⊢
        obtain ⟨hfirst, hrest⟩ : 13 ∉ write.data.flatten ++ write.pattern ∧
            13 ∉ (List.replicate splat write.pattern).flatten := by
          simpa only [List.mem_append, not_or] using hcr
        rw [feed_append]
        exact emits_drain_bind b write.data write.pattern (splat + 1) (by simp) hfirst
          (emits_drainRest _ write.pattern splat hrest)

theorem emits_writeEach (b : Bool) (writes : List Write) (hcr : 13 ∉ writes.flatMap Write.bytes) :
    Emits b (feed b (writes.flatMap Write.bytes)).1 (feed b (writes.flatMap Write.bytes)).2
      (writeEach writes) := by
  induction writes generalizing b with
  | nil => exact emits_pure b
  | cons write writes ih =>
      rw [List.flatMap_cons] at hcr ⊢
      obtain ⟨hwrite, hrest⟩ : 13 ∉ write.bytes ∧ 13 ∉ writes.flatMap Write.bytes := by
        simpa only [List.mem_append, not_or] using hcr
      rw [feed_append]
      exact (emits_write b write hwrite).bind fun _ => ih _ hrest

/-- The end of an open line. -/
def closing (lineInProgress : Bool) : Bytes := if lineInProgress then [10] else []

theorem emits_finish (b : Bool) : Emits b (closing b ++ [10]) b finish := by
  apply emits_get_bind
  intro s hs
  rw [hs]
  have hend : Emits b ([10] ++ []) b (emit [10] >>= fun _ => flushConn) :=
    (emits_emit b [10]).bind fun _ => emits_flushConn b
  cases b with
  | true => exact (emits_emit true [10]).bind fun _ => hend
  | false => exact hend

/-- What the writer makes of the whole data. -/
def streamBytes (data : Bytes) : Bytes :=
  (feed false data).1 ++ (closing (feed false data).2 ++ [10])

/-- **What the writes come to**: only what they amount to matters. -/
theorem sendInWrites_valid {opts : EventOptions} (h : ValidOptions opts) (writes : List Write)
    (hcr : 13 ∉ writes.flatMap Write.bytes) (b : Bool) :
    Emits b (optionsBytes opts ++ streamBytes (writes.flatMap Write.bytes))
      (feed false (writes.flatMap Write.bytes)).2 (sendInWrites writes opts) := by
  apply (startSend_valid h b).bind
  intro _
  exact (emits_setLine b false).bind fun _ =>
    (emits_writeEach false writes hcr).bind fun _ => emits_finish _

theorem sendInWrites_invalid {opts : EventOptions} (h : ¬ValidOptions opts) (writes : List Write)
    (s : Self) : sendInWrites writes opts s = .error (.err .invalidEventField) s :=
  bind_error (startSend_invalid h s)

/-! ### The two encodings -/

/-- Without its last byte, if that is a line feed. -/
def dropLf (data : Bytes) : Bytes := if data.getLast? = some 10 then data.dropLast else data

theorem dropLf_cons {b : UInt8} {rest : Bytes} (h : b = 10 → rest ≠ []) :
    dropLf (b :: rest) = b :: dropLf rest := by
  unfold dropLf
  cases rest with
  | nil =>
      have hb : b ≠ 10 := fun hb => h hb rfl
      simp [hb]
  | cons c rest =>
      rw [List.getLast?_cons_cons]
      split
      · rfl
      · rfl

theorem encode_cons {b : UInt8} (h : b ≠ 13 ∧ b ≠ 10) (rest : Bytes) :
    encode (b :: rest) = b :: encode rest := by
  rw [encode]
  · exact fun hb _ => h.1 hb
  · exact fun _ hb _ => h.1 hb
  · exact h.2

theorem feed_false {data : Bytes} (h : data ≠ []) :
    feed false data = (dataField ++ (feed true data).1, (feed true data).2) := by
  cases data with
  | nil => exact absurd rfl h
  | cons c rest => rfl

theorem feed_encode (data : Bytes) (hcr : 13 ∉ data) :
    (feed true data).1 ++ closing (feed true data).2 = encode (dropLf data) := by
  induction data with
  | nil => rfl
  | cons b rest ih =>
      obtain ⟨hb, hrest⟩ : 13 ≠ b ∧ 13 ∉ rest := by simpa using hcr
      by_cases hlf : b = 10
      · subst hlf
        by_cases hnil : rest = []
        · rw [hnil]
          rfl
        · have hfeed : feed true (10 :: rest) = (10 :: (feed false rest).1, (feed false rest).2) := rfl
          rw [hfeed, feed_false hnil, dropLf_cons fun _ => hnil, encode, ← ih hrest]
          simp
      · have hfeed : feed true (b :: rest) = (b :: (feed true rest).1, (feed true rest).2) := by
          have hne : (b != 10) = true := by simpa using hlf
          rw [feed, hne]
          rfl
        rw [hfeed, dropLf_cons fun h => absurd h hlf, encode_cons ⟨Ne.symm hb, hlf⟩, ← ih hrest]
        rfl

/-- The writer's bytes are those of `send` without the line feed the data end with. -/
theorem streamBytes_eq {data : Bytes} (hcr : 13 ∉ data) :
    streamBytes data = if data = [] then [10] else sendBytes (dropLf data) ++ [10] := by
  by_cases h : data = []
  · rw [if_pos h, h]
    rfl
  · rw [if_neg h, streamBytes, feed_false h, sendBytes, ← feed_encode data hcr]
    simp [List.append_assoc]

end EventWriter
end Dusty
