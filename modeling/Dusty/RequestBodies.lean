import Dusty.AllocRemaining
import Dusty.BodyKeeps
import Dusty.BodyRead

/-! # The body of a request, again and again

`Request.body` is a function that caches what it has read (`body_attempts`), whatever the body, and
whether or not the client waits to be told to go on. -/

namespace Dusty

open Act

namespace Inbound

/-- Reading the rest of a body comes to it, and then to its end, or to an error if it was cut short. -/
theorem Rest.reads {L : Llhttp} {M : Type} (T : Target M) {final : Error} {after body : Bytes}
    {s : Inbound L M} (h : Rest final after body s) :
    Reads (fun _ => True) (stream T) (final = .endOfStream) 0 body s := by
  refine ⟨fun n text s => n = 0 ∧ Rest final after text s, ⟨rfl, h⟩, ?_⟩
  rintro n text s ⟨rfl, hrest⟩
  refine ⟨trivial, fun dest hdest => ?_⟩
  rcases stream_run T hdest hrest with ⟨part, rest, s', hrun, hpart, hfits, htext, hrest'⟩ |
    ⟨htext, s', hrun, hrest', -⟩
  · exact .inl ⟨part, rest, 0, s', hrun, hfits, fun _ => htext, ⟨rfl, hrest'⟩, le_rfl,
      fun hnil => absurd hnil hpart⟩
  · exact .inr ⟨final, [], s', hrun, fun _ => ⟨htext, rfl⟩, ⟨rfl, hrest'⟩, Iff.rfl⟩

/-- The client that waits was told to go on. -/
def told {L : Llhttp} (self : Inbound L Request) : Inbound L Request :=
  self.setParser (self.parser.setMsg { self.parser.msg with expectsContinue := false })

end Inbound

/-- The body was not read, and nobody waits to be told to go on. -/
structure Request.Unread (max : ℕ) (req : Request) : Prop where
  unread : req.bodyRead = false
  limit : req.config.maxBodySize = max
  silent : req.expectsContinue = false

theorem Request.unread_leaves (max : ℕ) : Target.request.Leaves (Unread max) where
  method _ _ h := ⟨h.unread, h.limit, h.silent⟩
  version _ _ _ h := ⟨h.unread, h.limit, h.silent⟩
  status _ _ _ h heq := by
    cases heq
    exact h
  url _ _ h := ⟨h.unread, h.limit, h.silent⟩
  header _ _ _ _ h _ := ⟨h.unread, h.limit, h.silent⟩
  complete req h := by
    unfold Target.request
    simp only
    split <;> exact ⟨h.unread, h.limit, h.silent⟩

namespace Exchange

variable {L : Llhttp} {whole : Prop} {max : ℕ} {text : Bytes}

/-! ### The body of a request -/

theorem sendContinue_silent {self : Exchange L} (h : self.request.expectsContinue = false) :
    sendContinue self = .ok () self := by
  unfold sendContinue
  rw [bind_ok (get_run self), h]
  rfl

theorem write_ends (part : Part) (bytes : Bytes) (c : Conn) :
    (∃ c', Conn.writeAll part bytes c = .ok () c') ∨
      ∃ c', Conn.writeAll part bytes c = .error (.err .writeFailed) c' := by
  unfold Conn.writeAll
  match c.faults with
  | [] | none :: _ => exact .inl ⟨_, rfl⟩
  | some (_, _) :: _ => exact .inr ⟨_, rfl⟩

theorem flush_ends (c : Conn) :
    (∃ c', Conn.flush c = .ok () c') ∨ ∃ c', Conn.flush c = .error (.err .writeFailed) c' := by
  unfold Conn.flush
  match c.faults with
  | [] | none :: _ => exact .inl ⟨_, rfl⟩
  | some (_, _) :: _ => exact .inr ⟨_, rfl⟩

theorem onRes_ends {x : Act Conn Unit} (self : Exchange L)
    (hx : ∀ c, (∃ c', x c = .ok () c') ∨ ∃ c', x c = .error (.err .writeFailed) c') :
    ∃ self₁, (onRes (Response.onConn x) self = .ok () self₁ ∨
      onRes (Response.onConn x) self = .error (.err .writeFailed) self₁) ∧ self₁.inbound = self.inbound := by
  unfold onRes onState HandlerState.onRes Response.onConn zoom
  rcases hx self.st.res.conn with ⟨c', hrun⟩ | ⟨c', hrun⟩
  · simp only [hrun]
    exact ⟨_, .inl rfl, rfl⟩
  · simp only [hrun]
    exact ⟨_, .inr rfl, rfl⟩

/-- A client that waits is told to go on, unless that cannot be written. -/
theorem sendContinue_told {self : Exchange L} (h : self.request.expectsContinue = true) :
    ∃ self₁, (sendContinue self = .ok () self₁ ∨ sendContinue self = .error (.err .writeFailed) self₁) ∧
      self₁.inbound = self.inbound.told := by
  unfold sendContinue
  rw [bind_ok (get_run self), h, Act.when, if_pos rfl, bind_ok (modify_run _ _)]
  obtain ⟨self₁, hwrite, hsame⟩ := onRes_ends (self.setRequest { self.request with expectsContinue := false })
    (write_ends .interim interim)
  rcases hwrite with hok | herror
  · obtain ⟨self₂, hflush, hsame'⟩ := onRes_ends self₁ flush_ends
    rw [bind_ok hok]
    exact ⟨self₂, hflush, hsame'.trans hsame⟩
  · rw [bind_error herror]
    exact ⟨self₁, .inr rfl, hsame⟩

theorem bodyLoop_eq (room : ℕ → ℕ) (fuel remaining : ℕ) (got : Bytes) :
    (bodyLoop room fuel remaining got : Act (Exchange L) Bytes) =
      allocRemaining readBody .bodyTooBig room fuel remaining got := by
  induction fuel generalizing remaining got with
  | zero => rfl
  | succ fuel ih =>
      rw [bodyLoop, allocRemaining]
      split
      · rfl
      · refine bind_congr fun result => ?_
        cases result with
        | error e => cases e <;> rfl
        | ok part => exact ih _ _

theorem readBody_unread (dest : ℕ) :
    Keeps (fun self : Exchange L => self.request.Unread max) (readBody dest) :=
  (sendContinue_leaves fun _ h => ⟨h.1, h.2, rfl⟩).bind fun _ =>
    onInbound_leaves (Inbound.stream_leaves (Request.unread_leaves max) dest)

theorem readBody_silent {self : Exchange L} (h : self.request.expectsContinue = false) (dest : ℕ) :
    readBody dest self = onInbound (Inbound.stream .request dest) self := by
  unfold readBody
  rw [bind_ok (sendContinue_silent h)]

/-- What reading from the connection comes to, reading the body of a request comes to. -/
theorem reads_readBody {n : ℕ} {self : Exchange L}
    (h : Reads (fun _ => True) (Inbound.stream .request) whole n text self.inbound)
    (hself : self.request.Unread max) :
    Reads (fun self => self.request.Unread max) readBody whole n text self := by
  refine ⟨fun n text self => Reads (fun _ => True) (Inbound.stream .request) whole n text self.inbound ∧
    self.request.Unread max, ⟨h, hself⟩, ?_⟩
  rintro n text self ⟨h, hself⟩
  refine ⟨hself, fun dest hdest => ?_⟩
  have hkeeps := @readBody_unread L max dest
  rcases h.next dest hdest with
    ⟨part, rest, n', s', hrun, hfits, htext, hrest, hless⟩ | ⟨e, rest, s', hrun, htext, hrest, hwhole⟩
  · have hread : readBody dest self = .ok part (self.waited s') := by
      rw [readBody_silent hself.silent]
      unfold onInbound zoom
      rw [hrun]
    exact .inl ⟨part, rest, n', _, hread, hfits, htext, ⟨hrest, hkeeps.ok hself hread⟩, hless⟩
  · have hread : readBody dest self = .error (.err e) (self.waited s') := by
      rw [readBody_silent hself.silent]
      unfold onInbound zoom
      rw [hrun]
    exact .inr ⟨e, rest, _, hread, htext, ⟨hrest, hkeeps.error hself hread⟩, hwhole⟩

/-- A request whose body was not returned yet. -/
def Open (whole : Prop) (max n : ℕ) (text : Bytes) (self : Exchange L) : Prop :=
  Reads (fun self => self.request.Unread max) readBody whole 0 text self ∨
    self.request.bodyRead = false ∧ self.request.config.maxBodySize = max ∧
      self.request.expectsContinue = true ∧ 0 < n ∧
      Reads (fun _ => True) (Inbound.stream .request) whole 0 text self.inbound.told

/-- A call of `body`, when it goes through the loop. -/
theorem body_loop {self : Exchange L} (room : ℕ → ℕ) (hunread : self.request.bodyRead = false) :
    body room self = (do
      let result ← bodyLoop room (self.request.config.maxBodySize + self.inbound.net.weight + 1)
        self.request.config.maxBodySize []
      modify (storeBody result)
      let self ← get
      pure self.request.cachedBody) self := by
  unfold body
  rw [bind_ok (get_run self), hunread, if_neg Bool.false_ne_true]

theorem body_stored (self : Exchange L) (text : Bytes) (room : ℕ → ℕ) :
    body room (storeBody text self) = .ok (stored text) (storeBody text self) := by
  unfold body
  rw [bind_ok (get_run _)]
  rfl

theorem body_reads {self : Exchange L}
    (h : Reads (fun self => self.request.Unread max) readBody whole 0 text self) (room : ℕ → ℕ) :
    (whole ∧ text.length < max ∧ ∃ s', body room self = .ok (stored text) s' ∧
      ∀ room, body room s' = .ok (stored text) s') ∨
    ∃ e taken rest s', body room self = .error (.err e) s' ∧
      Reads (fun self => self.request.Unread max) readBody whole 0 rest s' ∧
      (whole → text = taken ++ rest ∧ taken.length = max) := by
  have hlimit := h.keeps.limit
  rw [body_loop room h.keeps.unread, hlimit, bodyLoop_eq]
  have hfuel : max + 0 < max + self.inbound.net.weight + 1 := by omega
  rcases @allocRemaining_run _ _ _ _ .bodyTooBig room _ max [] 0 text self h hfuel with
    ⟨hwhole, hless, n', s', hend, hok⟩ | ⟨e, taken, rest, n', s', herror, htaken, hend, hle⟩
  · refine .inl ⟨hwhole, hless, storeBody text s', ?_, body_stored s' text⟩
    rw [bind_ok hok]
    rfl
  · rw [Nat.le_zero.mp hle] at hend
    refine .inr ⟨e, taken, rest, s', ?_, hend, htaken⟩
    rw [bind_error herror]

theorem body_noLimit {self : Exchange L} (room : ℕ → ℕ) (hunread : self.request.bodyRead = false)
    (hlimit : self.request.config.maxBodySize = 0) :
    body room self = .error (.err .bodyTooBig) self := by
  rw [body_loop room hunread, hlimit, Nat.zero_add, bodyLoop, if_pos rfl]
  rfl

/-- When the client could be told to go on, the call is one where nobody waits. -/
theorem body_told {self self₁ : Exchange L} (room : ℕ → ℕ) (hunread : self.request.bodyRead = false)
    (hlimit : self.request.config.maxBodySize ≠ 0) (htold : sendContinue self = .ok () self₁)
    (hinbound : self₁.inbound = self.inbound.told) : body room self = body room self₁ := by
  have hrequest : self₁.request = { self.request with expectsContinue := false } := by
    unfold request
    rw [hinbound]
    rfl
  have hread (dest : ℕ) : readBody dest self = readBody dest self₁ := by
    have hsilent : self₁.request.expectsContinue = false := by rw [hrequest]
    rw [readBody_silent hsilent]
    unfold readBody
    rw [bind_ok htold]
  have hnet : self₁.inbound.net = self.inbound.net := by
    rw [hinbound]
    rfl
  have hlimit₁ : self₁.request.config = self.request.config := by rw [hrequest]
  have hloop : ∀ fuel, bodyLoop room (fuel + 1) self.request.config.maxBodySize [] self =
      bodyLoop room (fuel + 1) self.request.config.maxBodySize [] self₁ := by
    intro fuel
    rw [bodyLoop, if_neg hlimit, bind_run, bind_run, attempt_congr (hread _)]
  rw [body_loop room hunread, body_loop room (hrequest ▸ hunread), hlimit₁, hnet, bind_run, bind_run, hloop]

/-- When the client could not be told, the call fails. -/
theorem body_untold {self self₁ : Exchange L} (room : ℕ → ℕ) (hunread : self.request.bodyRead = false)
    (hlimit : self.request.config.maxBodySize ≠ 0)
    (huntold : sendContinue self = .error (.err .writeFailed) self₁) :
    body room self = .error (.err .outOfMemory) self₁ := by
  have hread (dest : ℕ) : readBody dest self = .error (.err .writeFailed) self₁ := by
    unfold readBody
    rw [bind_error huntold]
  rw [body_loop room hunread, bodyLoop, if_neg hlimit, bind_run, bind_ok (attempt_error (hread _))]
  rfl

/-- **A call of `body`.** -/
theorem body_attempts : Attempts (body (L := L)) whole max (Open whole max) := by
  intro n text self hopen room
  have hgoes : ∀ {self₁ : Exchange L},
      Reads (fun self => self.request.Unread max) readBody whole 0 text self₁ →
      (whole ∧ text.length < max ∧ ∃ s', body room self₁ = .ok (stored text) s' ∧
        ∀ room, body room s' = .ok (stored text) s') ∨
      ∃ e taken rest n' s', body room self₁ = .error (.err e) s' ∧ Open whole max n' rest s' ∧
        (whole → text = taken ++ rest ∧ (taken.length = max ∧ n' ≤ n ∨ taken = [] ∧ n' < n)) := by
    intro self₁ h
    rcases body_reads h room with hok | ⟨e, taken, rest, s', herror, hend, htaken⟩
    · exact .inl hok
    · exact .inr ⟨e, taken, rest, n, s', herror, .inl hend,
        fun hwhole => ⟨(htaken hwhole).1, .inl ⟨(htaken hwhole).2, le_rfl⟩⟩⟩
  rcases hopen with h | ⟨hunread, hlimit, hwaits, hpos, h⟩
  · exact hgoes h
  · by_cases hmax : max = 0
    · subst hmax
      exact .inr ⟨_, [], text, n, self, body_noLimit room hunread hlimit,
        .inr ⟨hunread, hlimit, hwaits, hpos, h⟩, fun _ => ⟨rfl, .inl ⟨rfl, le_rfl⟩⟩⟩
    have hmax' : self.request.config.maxBodySize ≠ 0 := by rwa [hlimit]
    obtain ⟨self₁, hsend, hinbound⟩ := sendContinue_told hwaits
    have hself₁ : self₁.request.Unread max := by
      unfold request
      rw [hinbound]
      exact ⟨hunread, hlimit, rfl⟩
    have hreads := reads_readBody (hinbound ▸ h) hself₁
    rcases hsend with hok | herror
    · rw [body_told room hunread hmax' hok hinbound]
      exact hgoes hreads
    · exact .inr ⟨_, [], text, 0, self₁, body_untold room hunread hmax' herror, .inl hreads,
        fun _ => ⟨rfl, .inr ⟨rfl, hpos⟩⟩⟩

theorem open_unread {self : Exchange L} (hunread : self.request.bodyRead = false)
    (h : Reads (fun _ => True) (Inbound.stream .request) whole 0 text self.inbound.told) :
    Open whole self.request.config.maxBodySize 1 text self := by
  cases hwaits : self.request.expectsContinue with
  | true => exact .inr ⟨hunread, rfl, hwaits, Nat.one_pos, h⟩
  | false =>
      have hrequest : { self.request with expectsContinue := false } = self.request := by rw [← hwaits]
      have hself : self.inbound.told = self.inbound :=
        congrArg (fun req => self.inbound.setParser (self.inbound.parser.setMsg req)) hrequest
      exact .inl (reads_readBody (hself ▸ h) ⟨hunread, rfl, hwaits⟩)

end Exchange
end Dusty
