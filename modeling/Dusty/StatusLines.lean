import Dusty.ErrorReply
import Dusty.Transport

/-! # One status line

Whatever a handler does and whatever the transport takes of it, at most one header block is begun for a
response: `writeHeader` notes that it was called before it writes the first line, and no other line reads like
the first one. -/

namespace Dusty

open Act

namespace Conn

/-- The piece begins a header block. -/
def startsHead (piece : Part × Bytes) : Bool :=
  decide (piece.1 = .head) && decide (piece.2.take 5 = ascii "HTTP/")

/-- How many header blocks were begun.  A status line of which the transport took less than five bytes does not
count. -/
def statusLines (c : Conn) : ℕ := c.log.countP startsHead

theorem log_writeAll (part : Part) (bytes : Bytes) (c : Conn) :
    ∃ taken, (final (writeAll part bytes) c).log = c.log ++ [(part, bytes.take taken)] := by
  have hall : bytes.take bytes.length = bytes := List.take_length
  obtain ⟨log, flushed, faults, writeErr⟩ := c
  match faults with
  | [] => exact ⟨bytes.length, by rw [hall]; rfl⟩
  | none :: _ => exact ⟨bytes.length, by rw [hall]; rfl⟩
  | some (taken, cause) :: _ => exact ⟨taken, rfl⟩

theorem log_flush (c : Conn) : (final flush c).log = c.log := by
  obtain ⟨log, flushed, faults, writeErr⟩ := c
  match faults with
  | [] => rfl
  | none :: _ => rfl
  | some (taken, cause) :: _ => rfl

/-- What was taken of a line begins a header block only if the line does. -/
theorem startsHead_take {part : Part} {bytes : Bytes} {taken : ℕ}
    (h : startsHead (part, bytes.take taken) = true) : startsHead (part, bytes) = true := by
  simp only [startsHead, Bool.and_eq_true, decide_eq_true_eq] at h ⊢
  refine ⟨h.1, ?_⟩
  have hmin := h.2
  rw [List.take_take] at hmin
  have hlength := congrArg List.length hmin
  rw [List.length_take] at hlength
  have hfive : (ascii "HTTP/").length = 5 := rfl
  rwa [show min 5 taken = 5 by omega] at hmin

theorem statusLines_writeAll_le (part : Part) (bytes : Bytes) (c : Conn) :
    (final (writeAll part bytes) c).statusLines ≤
      c.statusLines + (if startsHead (part, bytes) then 1 else 0) := by
  obtain ⟨taken, hlog⟩ := log_writeAll part bytes c
  unfold statusLines
  rw [hlog, List.countP_append, List.countP_singleton]
  refine Nat.add_le_add_left ?_ _
  by_cases htaken : startsHead (part, bytes.take taken) = true
  · rw [if_pos htaken, if_pos (startsHead_take htaken)]
  · rw [if_neg htaken]
    exact Nat.zero_le _

theorem statusLines_flush (c : Conn) : (final flush c).statusLines = c.statusLines := by
  unfold statusLines
  rw [log_flush]

end Conn

namespace Response

/-! ### Lines that do not begin a header block -/

theorem startsHead_fieldLine {name : Bytes} (hn : validHeaderName name = true) (value : Bytes) :
    Conn.startsHead (.head, fieldLine name value ++ crlf) = false := by
  rw [Bool.eq_false_iff]
  intro h
  simp only [Conn.startsHead, Bool.and_eq_true, decide_eq_true_eq] at h
  -- a name has no solidus, and ends at the first colon
  have hname : fieldName (fieldLine name value ++ crlf) = name := by
    rw [show fieldLine name value ++ crlf = fieldLine name (value ++ crlf) from List.append_assoc ..]
    exact fieldName_fieldLine hn
  rw [← List.take_append_drop 5 (fieldLine name value ++ crlf), h.2] at hname
  have hmem : (47 : UInt8) ∈ name := by
    rw [← hname]
    have hsolidus : (47 : UInt8) ∈ (ascii "HTTP/").takeWhile (· ≠ 58) := by decide
    unfold fieldName
    rw [List.takeWhile_append_of_pos (by decide)]
    exact List.mem_append_left _ (by decide)
  simp only [validHeaderName, Bool.and_eq_true, List.all_eq_true] at hn
  have hallowed : (47 : UInt8) ∈ allowedHeaderNameBytes := by simpa using hn.2 47 hmem
  exact absurd hallowed (by decide)

/-! ### The invariant -/

/-- The fields are valid, and no more than so many header blocks were begun. -/
def Begun (n : ℕ) (r : Response) : Prop := HeadersValid r.headers ∧ r.conn.statusLines ≤ n

/-- What `onConn` leaves is what the action leaves of the connection. -/
theorem final_onConn {α : Type} (x : Act Conn α) (r : Response) :
    final (onConn x) r = r.setConn (final x r.conn) := by
  unfold final onConn zoom
  cases x r.conn <;> rfl

theorem keeps_onConn_begun {n : ℕ} {x : Act Conn Unit}
    (h : ∀ c, (final x c).statusLines ≤ c.statusLines) : Keeps (Begun n) (onConn x) := by
  refine keeps_iff_final.mpr fun r hr => ?_
  rw [final_onConn]
  exact ⟨hr.1, (h r.conn).trans hr.2⟩

theorem keeps_writeLine_begun {n : ℕ} {line : Bytes}
    (h : Conn.startsHead (.head, line ++ crlf) = false) : Keeps (Begun n) (writeLine line) :=
  keeps_onConn_begun fun c => by
    have hle := Conn.statusLines_writeAll_le .head (line ++ crlf) c
    rwa [h, if_neg Bool.false_ne_true, Nat.add_zero] at hle

theorem keeps_writeFields_begun {n : ℕ} {entries : List HeaderEntry}
    (h : ∀ entry ∈ entries, validHeaderName entry.key = true) : Keeps (Begun n) (writeFields entries) := by
  induction entries with
  | nil => exact keeps_pure _
  | cons entry rest ih =>
      refine (keeps_writeLine_begun (startsHead_fieldLine (h entry List.mem_cons_self) _)).bind fun _ => ?_
      exact ih fun e he => h e (List.mem_cons_of_mem _ he)

theorem keeps_writeFraming_begun {n : ℕ} (self : Response) : Keeps (Begun n) (writeFraming self) := by
  unfold writeFraming
  split
  · exact keeps_writeLine_begun (by decide)
  split
  · split
    · exact keeps_writeLine_begun (startsHead_fieldLine (by decide) _)
    · exact keeps_pure _
  · exact keeps_pure _

/-- At most `n` header blocks were begun before, and one if the headers are sent. -/
def OneHead (n : ℕ) (r : Response) : Prop := Begun (n + r.headersWritten.toNat) r

/-- **The header block** is begun once. -/
theorem keeps_writeHeader_oneHead (n : ℕ) : Keeps (OneHead n) writeHeader := by
  refine keeps_iff_final.mpr fun r hr => ?_
  cases hw : r.headersWritten with
  | true =>
      rw [final_of_ok (writeHeader_done hw)]
      exact hr
  | false =>
      have hput := putContentType_run hw
      cases hsettled : r.settledHeaders with
      | error e =>
          rw [hsettled] at hput
          have hrun : writeHeader r = .error (.err e) r := by
            unfold writeHeader
            rw [bind_ok (get_run r), if_neg (by simp [hw])]
            exact bind_error hput
          rw [final_of_error hrun]
          exact hr
      | ok headers =>
          rw [hsettled] at hput
          have hvalid : HeadersValid headers := settledHeaders_valid hr.1 hsettled
          have hcount : r.conn.statusLines ≤ n := by simpa [OneHead, Begun, hw] using hr.2
          let r₁ : Response := { r.setHeaders headers with headersWritten := true }
          have hfinal : final writeHeader r = final (do
              writeLine (statusLine r₁.status)
              writeFields r₁.headers.entries
              Act.when (!r₁.keepalive) (writeLine (ascii "Connection: close"))
              writeFraming r₁
              writeLine []) r₁ := by
            unfold writeHeader
            rw [final_bind_ok (get_run r), if_neg (by simp [hw]), final_bind_ok hput,
              final_bind_ok (modify_run ..), final_bind_ok (get_run _)]
          have hsent : (final writeHeader r).headersWritten = true := by
            rw [hfinal]
            exact keeps_iff_final.mp (keeps_block keeps_onConn_sent r₁) r₁ rfl
          unfold OneHead
          rw [hsent, hfinal]
          refine final_bind_of (P := Begun (n + 1)) ?_ fun _ => ?_
          · rw [writeLine, final_onConn]
            refine ⟨hvalid, ?_⟩
            have hle := Conn.statusLines_writeAll_le .head (statusLine r₁.status ++ crlf) r₁.conn
            have hconn : r₁.conn = r.conn := rfl
            rw [hconn] at hle ⊢
            show (final (Conn.writeAll .head (statusLine r₁.status ++ crlf)) r.conn).statusLines ≤ n + 1
            split at hle
            · omega
            · omega
          · refine (keeps_writeFields_begun fun entry he => (hvalid entry he).1).bind fun _ => ?_
            refine (Keeps.when (keeps_writeLine_begun (by decide)) _).bind fun _ => ?_
            exact (keeps_writeFraming_begun r₁).bind fun _ => keeps_writeLine_begun (by decide)

theorem keeps_onConn_oneHead {n : ℕ} {x : Act Conn Unit}
    (h : ∀ c, (final x c).statusLines ≤ c.statusLines) : Keeps (OneHead n) (onConn x) := by
  refine keeps_iff_final.mpr fun r hr => ?_
  rw [final_onConn]
  exact ⟨hr.1, (h r.conn).trans hr.2⟩

theorem keeps_body_oneHead (n : ℕ) (bytes : Bytes) : Keeps (OneHead n) (onConn (Conn.writeAll .body bytes)) :=
  keeps_onConn_oneHead fun c => Conn.statusLines_writeAll_le .body bytes c

theorem keeps_flush_oneHead (n : ℕ) : Keeps (OneHead n) (onConn Conn.flush) :=
  keeps_onConn_oneHead fun c => (Conn.statusLines_flush c).le

/-- **No operation begins another header block.** -/
theorem kept_oneHead (n : ℕ) : Kept (OneHead n) := by
  refine Stable.kept ⟨?_, keeps_writeHeader_oneHead n,
    fun bytes => (keeps_body_oneHead n bytes).and (keeps_onConn_streams _),
    (keeps_flush_oneHead n).and (keeps_onConn_streams _)⟩ (fun _ hr => hr) fun _ hr _ => hr
  intro r r' hr hu
  unfold OneHead
  rw [hu.headersWritten]
  exact ⟨hu.valid hr.1, by rw [hu.conn]; exact hr.2⟩

theorem keeps_write_oneHead (n : ℕ) : Keeps (OneHead n) write :=
  keeps_write_of (keeps_body_oneHead n) (keeps_flush_oneHead n) (keeps_writeHeader_oneHead n)
    (fun _ hr => hr) (fun _ hr => hr) fun _ hr => hr

end Response
end Dusty
