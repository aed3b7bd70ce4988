import Dusty.HeaderLines

/-! # How a buffered response is framed

A response that is not streamed has its length in a `Content-Length` field, which `writeHeader` adds unless
there is one.  So it is framed correctly exactly when the handler has left no `Transfer-Encoding` and no
`Content-Length` that is wrong: `buffered_framing_iff`. -/

namespace Dusty

open Act HandlerState

/-- The operations that build a body, or a header, in the response. -/
def Op.buffered : Op → Bool
  | .stream .. | .streamWrite .. | .streamSplat .. | .streamFlush | .streamEnd | .writeHeader
  | .startEventStream | .send .. | .startSend .. | .eventWrite .. | .eventEnd .. => false
  | _ => true

namespace Headers

/-! ### One field of a name -/

/-- No field is there twice, but for cookies. -/
def Single (h : Headers) : Prop :=
  ∀ name, eqlIgnoreCase name (ascii "Set-Cookie") = false →
    (h.entries.filter (·.isFor name)).length ≤ 1

theorem single_init (max : ℕ) : (Headers.init max).Single := fun _ _ => Nat.zero_le _

theorem length_filter_setFirst (name value other : Bytes) (es : List HeaderEntry) :
    ((setFirst name value es).filter (·.isFor other)).length = (es.filter (·.isFor other)).length := by
  induction es with
  | nil => rfl
  | cons e es ih =>
      rw [setFirst]
      split
      · simp only [List.filter_cons, HeaderEntry.isFor_eq]
        split <;> rfl
      · simp only [List.filter_cons]
        split
        · rw [List.length_cons, List.length_cons, ih]
        · exact ih

theorem Single.remove {h : Headers} (hs : h.Single) (name : Bytes) : (h.remove name).1.Single := by
  intro other hother
  refine Nat.le_trans ?_ (hs other hother)
  exact (List.filter_sublist.filter _).length_le

/-- A field that is added where there is none of its name. -/
theorem Single.add {h h' : Headers} {name value : Bytes} (hs : h.Single)
    (hnone : eqlIgnoreCase name (ascii "Set-Cookie") = true ∨ h.has name = false)
    (hadd : h.add name value = .ok h') : h'.Single := by
  intro other hother
  unfold Headers.add at hadd
  split at hadd
  · cases hadd
    show ((h.entries ++ [HeaderEntry.make name value]).filter _).length ≤ 1
    rw [List.filter_append, List.length_append]
    cases hfor : (HeaderEntry.make name value).isFor other with
    | false =>
        have hnew : [HeaderEntry.make name value].filter (·.isFor other) = [] := by
          rw [List.filter_cons, hfor]
          rfl
        rw [hnew]
        exact hs other hother
    | true =>
        have hsame : eqlIgnoreCase name other = true := (HeaderEntry.isFor_iff _ _).mp hfor
        have hold : h.entries.filter (·.isFor other) = [] := by
          rcases hnone with hcookie | hnone
          · rw [eqlIgnoreCase_trans (eqlIgnoreCase_symm hsame) hcookie] at hother
            cases hother
          · rw [List.filter_eq_nil_iff]
            intro e he hmatch
            have hkey := eqlIgnoreCase_trans ((HeaderEntry.isFor_iff _ _).mp hmatch)
              (eqlIgnoreCase_symm hsame)
            exact List.any_eq_false.mp hnone e he ((HeaderEntry.isFor_iff _ _).mpr hkey)
        rw [hold, List.length_nil, Nat.zero_add]
        exact List.length_filter_le _ _
  · cases hadd

theorem Single.put {h h' : Headers} {name value : Bytes} (hs : h.Single)
    (hput : h.put name value = .ok h') : h'.Single := by
  unfold Headers.put at hput
  split at hput
  · cases hput
    intro other hother
    show ((setFirst name value h.entries).filter _).length ≤ 1
    rw [length_filter_setFirst]
    exact hs other hother
  · next hnone => exact hs.add (.inr (Bool.eq_false_of_not_eq_true hnone)) hput

/-- A field of another name changes nothing for this one. -/
theorem filter_put {h h' : Headers} {name value other : Bytes} (hother : eqlIgnoreCase name other = false)
    (hput : h.put name value = .ok h') :
    h'.entries.filter (·.isFor other) = h.entries.filter (·.isFor other) := by
  have hset : ∀ es : List HeaderEntry,
      (setFirst name value es).filter (·.isFor other) = es.filter (·.isFor other) := by
    intro es
    induction es with
    | nil => rfl
    | cons e es ih =>
        rw [setFirst]
        split
        · next hmatch =>
            have hkey : eqlIgnoreCase e.key other = false := by
              rw [eqlIgnoreCase_congr_left ((HeaderEntry.isFor_iff _ _).mp hmatch)]
              exact hother
            simp only [List.filter_cons, HeaderEntry.isFor_eq, hkey]
            rfl
        · simp only [List.filter_cons, ih]
  unfold Headers.put at hput
  split at hput
  · cases hput
    exact hset h.entries
  · unfold Headers.add at hput
    split at hput
    · cases hput
      show (h.entries ++ [HeaderEntry.make name value]).filter _ = _
      have hnew : (HeaderEntry.make name value).isFor other = false := by
        rw [HeaderEntry.isFor_eq]
        exact hother
      rw [List.filter_append, List.filter_cons, hnew]
      exact List.append_nil _
    · cases hput

end Headers

namespace Response

/-! ### What buffered operations keep -/

/-- Nothing is sent, nothing is promised, and no field is there twice. -/
structure Buffered (r : Response) : Prop where
  headersOpen : r.headersWritten = false
  unchunked : r.chunked = false
  single : r.headers.Single

theorem Buffered.setHeaders {r : Response} (h : r.Buffered) {headers : Headers} (hs : headers.Single) :
    (r.setHeaders headers).Buffered := ⟨h.headersOpen, h.unchunked, hs⟩

theorem keeps_buffered_header (name value : Bytes) : Keeps Buffered (header name value) := by
  refine keeps_get_bind fun r hr => ?_
  split
  · exact keeps_fail _
  split
  · exact keeps_fail _
  split
  · exact keeps_fail _
  · cases hput : r.headers.put name value with
    | error e => exact keeps_fail _
    | ok headers => exact keeps_modify fun s hs => hs.setHeaders (hr.single.put hput)

theorem keeps_buffered_setCookie (name value : Bytes) (opts : CookieOpts) :
    Keeps Buffered (setCookie name value opts) := by
  refine keeps_get_bind fun r hr => ?_
  split
  · exact keeps_fail _
  · refine (keeps_serializeCookie name value opts).bind fun text => ?_
    split
    · exact keeps_fail _
    · cases hadd : r.headers.add (ascii "Set-Cookie") text with
      | error e => exact keeps_fail _
      | ok headers =>
          exact keeps_modify fun s hs => hs.setHeaders (hr.single.add (.inl (by decide)) hadd)

theorem keeps_buffered_bodyEnd : Keeps Buffered bodyEnd := by
  refine keeps_get_bind fun r _ => ?_
  split
  · exact keeps_pure _
  · exact keeps_modify fun _ hs => ⟨hs.headersOpen, hs.unchunked, hs.single⟩

theorem keeps_buffered_clearWriter : Keeps Buffered clearWriter :=
  keeps_modify fun _ hs => ⟨hs.headersOpen, hs.unchunked, hs.single⟩

theorem keeps_buffered_resetBody : Keeps Buffered resetBody := by
  refine keeps_get_bind fun r _ => (keeps_assert _).bind fun _ => keeps_buffered_clearWriter.bind fun _ => ?_
  exact keeps_modify fun _ hs => ⟨hs.headersOpen, hs.unchunked, (hs.single.remove _).remove _⟩

theorem keeps_buffered_bodyWrite (bytes : Bytes) : Keeps Buffered (bodyWrite bytes) :=
  keeps_modify fun _ hs => ⟨hs.headersOpen, hs.unchunked, hs.single⟩

theorem keeps_buffered_writer : Keeps Buffered writer := by
  refine keeps_get_bind fun r _ => (keeps_assert _).bind fun _ => (keeps_assert _).bind fun _ =>
    (keeps_assert _).bind fun _ => ?_
  exact keeps_modify fun _ hs => ⟨hs.headersOpen, hs.unchunked, hs.single⟩

theorem keeps_buffered_handleNotFound : Keeps Buffered Executor.handleNotFound := by
  refine keeps_get_bind fun r _ => (keeps_buffered_resetBody.when _).bind fun _ => ?_
  exact keeps_modify fun _ hs => ⟨hs.headersOpen, hs.unchunked, hs.single⟩

end Response

namespace Executor

open Response

theorem keeps_buffered_exec {op : Op} (hop : op.buffered = true) :
    Keeps (fun st : HandlerState => st.res.Buffered) (exec op) := by
  cases op with
  | setStatus status =>
      exact keeps_onRes_of (keeps_modify fun _ hs => ⟨hs.headersOpen, hs.unchunked, hs.single⟩)
  | setBody body =>
      exact keeps_onRes_of (keeps_modify fun _ hs => ⟨hs.headersOpen, hs.unchunked, hs.single⟩)
  | setContentType contentType =>
      exact keeps_onRes_of (keeps_modify fun _ hs => ⟨hs.headersOpen, hs.unchunked, hs.single⟩)
  | header name value => exact keeps_onRes_of (keeps_buffered_header name value)
  | setCookie name value opts => exact keeps_onRes_of (keeps_buffered_setCookie name value opts)
  | json text =>
      exact keeps_onRes_of ((keeps_buffered_bodyWrite text).bind fun _ => keeps_buffered_header _ _)
  | writer => exact (keeps_onRes_of keeps_buffered_writer).bind fun _ => keeps_modify fun _ hs => hs
  | bodyWrite bytes =>
      exact keeps_get_bind fun _ _ => (keeps_onRes_of (keeps_buffered_bodyWrite bytes)).when _
  | bodyEnd => exact keeps_get_bind fun _ _ => (keeps_onRes_of keeps_buffered_bodyEnd).when _
  | clearWriter => exact keeps_onRes_of keeps_buffered_clearWriter
  | resetBody => exact keeps_onRes_of keeps_buffered_resetBody
  | handleNotFound => exact keeps_onRes_of keeps_buffered_handleNotFound
  | _ => cases hop

end Executor

namespace Response

/-! ### What the fields say -/

/-- The field says where the body ends. -/
def isLengthLine (line : Bytes) : Bool :=
  eqlIgnoreCase (fieldName line) (ascii "Content-Length") ||
    eqlIgnoreCase (fieldName line) (ascii "Transfer-Encoding")

/-- The length that the field says the body has. -/
def lengthOf (line : Bytes) : Option ℕ :=
  if eqlIgnoreCase (fieldName line) (ascii "Content-Length") then
    readNat 10 (trimBlanks ((line.dropWhile (· ≠ 58)).drop 1))
  else none

/-- One header block and this body, and exactly one field that says where it ends, which is right. -/
def FramedAs (sent body : Bytes) : Prop :=
  ∃ status fields line, cutHead sent = some (statusLine status :: fields, body) ∧
    fields.filter isLengthLine = [line] ∧ lengthOf line = some body.length

/-- The handler has left no field that says something else of the body. -/
def Undisturbed (self : Response) : Prop :=
  self.headers.get (ascii "Transfer-Encoding") = none ∧
    ∀ value, self.headers.get (ascii "Content-Length") = some value →
      readNat 10 (trimBlanks value) = some self.bodyBytes.length

theorem lengthOf_fieldLine {name value : Bytes} (hn : validHeaderName name = true)
    (hname : eqlIgnoreCase name (ascii "Content-Length") = true) :
    lengthOf (fieldLine name value) = readNat 10 (trimBlanks value) := by
  have hcolon : ∀ b ∈ name, decide (b ≠ 58) = true := validHeaderName_ne_colon hn
  have hdrop : ((fieldLine name value).dropWhile (· ≠ 58)).drop 1 = 32 :: value := by
    unfold fieldLine
    rw [List.append_assoc, List.dropWhile_append_of_pos hcolon]
    rfl
  unfold lengthOf
  rw [fieldName_fieldLine hn, if_pos hname, hdrop, trimBlanks_blank]

theorem isLengthLine_entryLine {entry : HeaderEntry} (hn : validHeaderName entry.key = true) :
    isLengthLine (entryLine entry) =
      (entry.isFor (ascii "Content-Length") || entry.isFor (ascii "Transfer-Encoding")) := by
  unfold isLengthLine entryLine
  rw [fieldName_fieldLine hn, HeaderEntry.isFor_eq, HeaderEntry.isFor_eq]

/-- The length lines are those of the fields, and the automatic one. -/
theorem filter_fieldLines {self : Response} (hvalid : HeadersValid self.headers)
    (hchunked : self.chunked = false) (hstreaming : self.streaming = false) :
    self.fieldLines.filter isLengthLine =
      (self.headers.entries.filter fun e =>
        e.isFor (ascii "Content-Length") || e.isFor (ascii "Transfer-Encoding")).map entryLine ++
      if (self.headers.get (ascii "Content-Length")).isNone then
        [fieldLine (ascii "Content-Length") (fmtNat 10 self.bodyLength)] else [] := by
  have hentries : (self.headers.entries.map entryLine).filter isLengthLine =
      (self.headers.entries.filter fun e =>
        e.isFor (ascii "Content-Length") || e.isFor (ascii "Transfer-Encoding")).map entryLine := by
    rw [List.filter_map]
    refine congrArg _ (List.filter_congr fun e he => ?_)
    exact isLengthLine_entryLine (hvalid e he).1
  have hclose : (if self.keepalive then [] else [ascii "Connection: close"]).filter isLengthLine = [] := by
    cases self.keepalive <;> decide
  have hown : isLengthLine (fieldLine (ascii "Content-Length") (fmtNat 10 self.bodyLength)) = true := by
    unfold isLengthLine
    rw [fieldName_fieldLine (by decide)]
    decide
  unfold fieldLines framingLines
  rw [hchunked, hstreaming, List.filter_append, List.filter_append, hentries, hclose, List.append_nil]
  simp only [Bool.false_eq_true, if_false]
  split
  · rw [List.filter_cons, hown]
    rfl
  · rfl

/-- What `get` finds is the first of the fields of the name. -/
theorem get_eq_head (headers : Headers) (name : Bytes) :
    headers.get name = (headers.entries.filter (·.isFor name)).head?.map (·.value) := by
  unfold Headers.get
  rw [List.head?_filter]

/-- The headers that are sent say of the body what those of the handler say. -/
theorem get_settled {self : Response} {headers : Headers} (hs : self.settledHeaders = .ok headers)
    {name : Bytes} (hname : eqlIgnoreCase (ascii "Content-Type") name = false) :
    headers.get name = self.headers.get name := by
  rw [get_eq_head, get_eq_head]
  unfold settledHeaders at hs
  cases htype : self.contentType with
  | none =>
      rw [htype] at hs
      cases hs
      rfl
  | some contentType =>
      rw [htype] at hs
      rw [Headers.filter_put hname hs]

theorem single_settled {self : Response} {headers : Headers} (h : self.headers.Single)
    (hs : self.settledHeaders = .ok headers) : headers.Single := by
  unfold settledHeaders at hs
  cases htype : self.contentType with
  | none =>
      rw [htype] at hs
      cases hs
      exact h
  | some contentType =>
      rw [htype] at hs
      exact h.put hs

theorem not_both {entry : HeaderEntry} (hlength : entry.isFor (ascii "Content-Length") = true)
    (hcoding : entry.isFor (ascii "Transfer-Encoding") = true) : False := by
  rw [HeaderEntry.isFor_iff] at hlength hcoding
  have hsame := eqlIgnoreCase_trans (eqlIgnoreCase_symm hlength) hcoding
  revert hsame
  decide

/-- **There is one length, and it is right**, exactly when the fields leave the length alone or say it
themselves. -/
theorem filter_fieldLines_iff {self : Response} (hvalid : HeadersValid self.headers)
    (hchunked : self.chunked = false) (hstreaming : self.streaming = false)
    (hsingle : self.headers.Single) :
    (∃ line, self.fieldLines.filter isLengthLine = [line] ∧ lengthOf line = some self.bodyBytes.length) ↔
      self.Undisturbed := by
  have hlength : self.bodyLength = self.bodyBytes.length := by
    unfold bodyLength bodyBytes
    split <;> rfl
  have hauto : lengthOf (fieldLine (ascii "Content-Length") (fmtNat 10 self.bodyLength)) =
      some self.bodyBytes.length := by
    rw [lengthOf_fieldLine (by decide) (by decide), trimBlanks_of_forall (fmtNat_ne_blank _),
      readNat_fmtNat (by decide) (by decide), hlength]
  rw [filter_fieldLines hvalid hchunked hstreaming]
  unfold Undisturbed
  rw [get_eq_head, get_eq_head]
  cases hcoding : self.headers.entries.filter (·.isFor (ascii "Transfer-Encoding")) with
  | cons entry more =>
      have hentry := List.mem_filter.mp (hcoding ▸ List.mem_cons_self : entry ∈ _)
      refine iff_of_false ?_ fun h => by cases h.1
      rintro ⟨line, hline, hsays⟩
      have hmem : entryLine entry ∈ [line] := by
        rw [← hline]
        refine List.mem_append_left _ (List.mem_map_of_mem (List.mem_filter.mpr ⟨hentry.1, ?_⟩))
        rw [hentry.2, Bool.or_true]
      rw [← List.mem_singleton.mp hmem] at hsays
      have hother : eqlIgnoreCase entry.key (ascii "Content-Length") = false := by
        cases hboth : eqlIgnoreCase entry.key (ascii "Content-Length") with
        | false => rfl
        | true => exact (not_both ((HeaderEntry.isFor_iff _ _).mpr hboth) hentry.2).elim
      unfold lengthOf entryLine at hsays
      rw [fieldName_fieldLine (hvalid entry hentry.1).1, hother] at hsays
      cases hsays
  | nil =>
      have honly : (self.headers.entries.filter fun e =>
          e.isFor (ascii "Content-Length") || e.isFor (ascii "Transfer-Encoding")) =
          self.headers.entries.filter (·.isFor (ascii "Content-Length")) := by
        refine List.filter_congr fun e he => ?_
        rw [Bool.eq_false_of_not_eq_true (List.filter_eq_nil_iff.mp hcoding e he), Bool.or_false]
      rw [honly]
      have hone := hsingle (ascii "Content-Length") (by decide)
      cases hstored : self.headers.entries.filter (·.isFor (ascii "Content-Length")) with
      | nil =>
          refine iff_of_true ⟨_, rfl, hauto⟩ ⟨rfl, fun value hvalue => by cases hvalue⟩
      | cons entry more =>
          rw [hstored, List.length_cons] at hone
          obtain rfl : more = [] := List.length_eq_zero_iff.mp (by omega)
          have hentry := List.mem_filter.mp (hstored ▸ List.mem_cons_self : entry ∈ _)
          have hsays : lengthOf (entryLine entry) = readNat 10 (trimBlanks entry.value) :=
            lengthOf_fieldLine (hvalid entry hentry.1).1 ((HeaderEntry.isFor_iff _ _).mp hentry.2)
          simp only [List.head?_cons, List.head?_nil, Option.map_some, Option.map_none, Option.isNone_some,
            Bool.false_eq_true, if_false, List.map_singleton, List.append_nil, true_and]
          constructor
          · rintro ⟨line, hline, hlineSays⟩ value hvalue
            cases hline
            cases hvalue
            rw [← hsays]
            exact hlineSays
          · intro h
            exact ⟨_, rfl, hsays.trans (h _ rfl)⟩

/-! ### `write` -/

end Response

namespace Executor

open Response

/-- **A buffered response is framed correctly**, as one header block, with one length, and the body it
says, exactly when the handler has left no `Transfer-Encoding`, and no `Content-Length` that is wrong. -/
theorem buffered_framing_iff {conn : Conn} (hconn : conn.faults = []) (maxHeaders : ℕ) (keepalive : Bool)
    {ops : List Op} {results : List (Except Error Unit)} {st : HandlerState} {res' : Response}
    (hops : ∀ op ∈ ops, op.buffered = true)
    (hrun : runOps ops (start conn maxHeaders false keepalive) = .ok results st)
    (hwrite : Response.write st.res = .ok () res') :
    (∃ sent, res'.conn.out = conn.out ++ sent ∧ FramedAs sent st.res.bodyBytes) ↔
      st.res.Undisturbed := by
  have hsound := reach_of_runOps hconn hrun
  have hbuffered : st.res.Buffered :=
    (keeps_runOps_of fun op hop => keeps_buffered_exec (hops op hop)).ok
      ⟨rfl, rfl, Headers.single_init maxHeaders⟩ hrun
  obtain ⟨hwritten, hstreaming, -, hbase⟩ := hsound.fresh hbuffered.headersOpen
  rw [write_open hwritten hbuffered.headersOpen] at hwrite
  cases hs : st.res.settledHeaders with
  | error e =>
      obtain ⟨self', herror, -⟩ := @finishBuffered_error st.res.closeBody hsound.faults
        hbuffered.unchunked hbuffered.headersOpen _ hs
      rw [hwrite] at herror
      cases herror
  | ok headers =>
      obtain ⟨self', hok, hout, -⟩ := @finishBuffered_run st.res.closeBody hsound.faults
        hbuffered.unchunked hbuffered.headersOpen _ hs
      rw [hwrite] at hok
      cases hok
      have hhead : st.res.closeBody.head = false := hsound.head
      have hvalid : HeadersValid headers := settledHeaders_valid hsound.valid hs
      let r : Response := st.res.closeBody.setHeaders headers
      have hsent : res'.conn.out = conn.out ++ (headBlock r.headLines ++ st.res.bodyBytes) := by
        rw [hout, hhead, ← List.append_assoc]
        show st.res.conn.out ++ _ ++ _ = _
        rw [hbase]
        rfl
      have hcut : cutHead (headBlock r.headLines ++ st.res.bodyBytes) = some (r.headLines, st.res.bodyBytes) :=
        cutHead_headBlock (@isLine_headLines r hvalid) _
      have hsame : r.Undisturbed ↔ st.res.Undisturbed := by
        have hcoding : r.headers.get (ascii "Transfer-Encoding") = st.res.headers.get _ :=
          get_settled hs (by decide)
        have hlength : r.headers.get (ascii "Content-Length") = st.res.headers.get _ :=
          get_settled hs (by decide)
        unfold Undisturbed
        rw [hcoding, hlength]
        exact Iff.rfl
      rw [← hsame, ← @filter_fieldLines_iff r hvalid hbuffered.unchunked hstreaming
        (single_settled hbuffered.single hs)]
      constructor
      · rintro ⟨sent, heq, status, fields, line, hcut', hline, hsays⟩
        rw [hsent, List.append_cancel_left_eq] at heq
        rw [← heq, hcut, headLines_eq] at hcut'
        have hfields : r.fieldLines = fields := (List.cons.inj (Prod.mk.inj (Option.some.inj hcut')).1).2
        rw [← hfields] at hline
        exact ⟨line, hline, hsays⟩
      · rintro ⟨line, hline, hsays⟩
        exact ⟨_, hsent, _, _, line, hcut, hline, hsays⟩

/-- A length of its own, and a body that a writer collects. -/
def rightLengthOps : List Op :=
  [.header (ascii "Content-Length") (ascii "3"), .writer, .bodyWrite (ascii "abc"), .bodyEnd]

theorem buffered_framing_sample :
    ∃ results st res', runOps rightLengthOps (start {} 8 false true) = .ok results st ∧
      Response.write st.res = .ok () res' ∧ res'.keepalive = true ∧
      ((∃ sent, res'.conn.out = sent ∧ FramedAs sent st.res.bodyBytes) ↔ st.res.Undisturbed) := by
  have hreturns : returns (runOps rightLengthOps) (start {} 8 false true) = true := by decide +kernel
  obtain ⟨results, st, hrun⟩ := returns_iff.mp hreturns
  have hyields : yields (fun _ st => yields (fun _ res' => res'.keepalive) Response.write st.res)
      (runOps rightLengthOps) (start {} 8 false true) = true := by decide +kernel
  obtain ⟨_, _, hrun', hwrites⟩ := yields_iff.mp hyields
  rw [hrun] at hrun'
  cases hrun'
  obtain ⟨_, res', hwrite, hkeepalive⟩ := yields_iff.mp hwrites
  exact ⟨results, st, res', hrun, hwrite, hkeepalive,
    buffered_framing_iff rfl 8 true (by decide) hrun hwrite⟩

/-- What is sent of a body of three bytes with a length of one. -/
def wrongLength : Bytes := ascii "HTTP/1.1 200 OK\r\nContent-Length: 1\r\n\r\nabc"

/-- A length that is wrong is sent as it is, and the connection is kept. -/
theorem buffered_framing_not :
    yields (fun _ st => yields (fun _ res' => res'.keepalive && decide (res'.conn.out = wrongLength))
        Response.write st.res)
      (runOps [.header (ascii "Content-Length") (ascii "1"), .setBody (ascii "abc")])
      (start {} 8 false true) = true ∧ ¬FramedAs wrongLength (ascii "abc") := by
  refine ⟨by decide +kernel, ?_⟩
  rintro ⟨status, fields, line, hcut, hline, hsays⟩
  have hlines : cutHead wrongLength =
      some ([ascii "HTTP/1.1 200 OK", ascii "Content-Length: 1"], ascii "abc") := by decide +kernel
  rw [hlines] at hcut
  have hfields := (List.cons.inj (Prod.mk.inj (Option.some.inj hcut)).1).2
  have honly : [ascii "Content-Length: 1"].filter isLengthLine = [ascii "Content-Length: 1"] := by decide
  rw [← hfields, honly, List.cons.injEq] at hline
  rw [← hline.1] at hsays
  revert hsays
  decide

end Executor
end Dusty
