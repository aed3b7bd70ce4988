import Dusty.ReadRoom

/-! # Reading a body

What `BodyReader.stream` returns, call after call, when the automaton takes the bytes for a body:
the decoded bytes in pieces that are not empty, and then the end of the stream, with the
connection's reader behind the last byte of the message (`readBody_exact_iff`).  It does not
matter how the bytes are cut into reads nor how large the destinations are, as long as the buffer
has any room. -/

namespace Dusty

open Act

/-! ### Bodies -/

namespace Reaction

variable {σ : Type}

/-- The byte is framing or a byte of the body, and nothing is called before it. -/
def plain (r : Reaction σ) : Bool := r.before.isEmpty && (r.span == none || r.span == some .body)

/-- What the byte brings into the body. -/
def given (r : Reaction σ) (b : UInt8) : Bytes := if r.span = some .body then [b] else []

theorem plain_iff {r : Reaction σ} :
    r.plain = true ↔ r.before = [] ∧ (r.span = none ∨ r.span = some .body) := by
  simp [plain]

theorem length_given (r : Reaction σ) (b : UInt8) : (r.given b).length ≤ 1 := by
  unfold given
  split
  · exact Nat.le_refl _
  · exact Nat.zero_le _

end Reaction

namespace Llhttp

variable (L : Llhttp)

/-- A body whose end the automaton finds by itself, decoded, and the bytes behind it.  Before its
end the message is not one that the end of the connection would complete. -/
def decodeBody : L.State → Bytes → Option (Bytes × Bytes)
  | _, [] => none
  | s, b :: rest =>
      if (L.step s b).plain ∧ L.finish s ≠ .safeWithCb then
        match (L.step s b).after with
        | [] => (decodeBody (L.step s b).next rest).map fun decoded =>
            ((L.step s b).given b ++ decoded.1, decoded.2)
        | [.messageComplete] => some ((L.step s b).given b, rest)
        | _ => none
      else none

/-- A body that goes on to the end of the connection, decoded. -/
def decodeToEnd : L.State → Bytes → Option Bytes
  | s, [] => if L.finish s = .safeWithCb then some [] else none
  | s, b :: rest =>
      if (L.step s b).plain ∧ (L.step s b).after = [] then
        (decodeToEnd (L.step s b).next rest).map ((L.step s b).given b ++ ·)
      else none

/-- What the bytes bring into the body, wherever it ends. -/
def decoded : L.State → Bytes → Bytes
  | _, [] => []
  | s, b :: rest => (L.step s b).given b ++ decoded (L.step s b).next rest

/-- The bytes that are to come and what they decode to; `final` is how it ends, `after` what is
left then, and `ends` says in which states the bytes may run out. -/
inductive Flow (final : Error) (after : Bytes) (ends : L.State → Prop) :
    L.State → Bytes → Bytes → Prop where
  | last {s : L.State} {b : UInt8} : (L.step s b).plain = true →
      (L.step s b).after = [.messageComplete] → final = .endOfStream →
      Flow final after ends s (b :: after) ((L.step s b).given b)
  | more {s : L.State} {b : UInt8} {rest body : Bytes} : (L.step s b).plain = true →
      (L.step s b).after = [] → Flow final after ends (L.step s b).next rest body →
      Flow final after ends s (b :: rest) ((L.step s b).given b ++ body)
  | stop {s : L.State} : after = [] → ends s → Flow final after ends s [] []

/-- How a connection that ends in the state makes the body end. -/
def EndsWith (failure : Option Error) (final : Error) (s : L.State) : Prop :=
  final = if failure = none ∧ L.finish s = .safeWithCb then .endOfStream else .readFailed

variable {L}

theorem flow_of_decodeBody {ends : L.State → Prop} {s : L.State} {bytes body after : Bytes}
    (h : L.decodeBody s bytes = some (body, after)) :
    Flow L .endOfStream after ends s bytes body := by
  induction bytes generalizing s body with
  | nil => cases h
  | cons b rest ih =>
      rw [decodeBody] at h
      split at h
      · next hstep =>
          split at h
          · next hafter =>
              obtain ⟨⟨body', after'⟩, hrest, heq⟩ := Option.map_eq_some_iff.mp h
              cases heq
              exact .more hstep.1 hafter (ih hrest)
          · next hafter =>
              cases h
              exact .last hstep.1 hafter rfl
          · cases h
      · cases h

/-- A body that is cut short: it goes on to where the bytes run out. -/
theorem flow_of_cut {failure : Option Error} {s : L.State} {bytes missing body : Bytes}
    (h : L.decodeBody s (bytes ++ missing) = some (body, [])) (hmissing : missing ≠ []) :
    L.decoded s bytes <+: body ∧
      Flow L .readFailed [] (L.EndsWith failure .readFailed) s bytes (L.decoded s bytes) := by
  induction bytes generalizing s body with
  | nil =>
      refine ⟨List.nil_prefix, .stop rfl ?_⟩
      cases missing with
      | nil => exact absurd rfl hmissing
      | cons b rest =>
          rw [List.nil_append, decodeBody] at h
          split at h
          · next hstep =>
              rw [EndsWith, if_neg fun hf => hstep.2 hf.2]
          · cases h
  | cons b bytes ih =>
      rw [List.cons_append, decodeBody] at h
      split at h
      · next hstep =>
          split at h
          · next hafter =>
              obtain ⟨⟨body', after'⟩, hrest, heq⟩ := Option.map_eq_some_iff.mp h
              cases heq
              obtain ⟨hgot, hflow⟩ := ih hrest
              exact ⟨(List.prefix_append_right_inj _).mpr hgot, .more hstep.1 hafter hflow⟩
          · next hafter =>
              have hnil : bytes ++ missing = [] := (Prod.mk.inj (Option.some.inj h)).2
              exact absurd (List.append_eq_nil_iff.mp hnil).2 hmissing
          · cases h
      · cases h

theorem flow_of_decodeToEnd {s : L.State} {bytes body : Bytes}
    (h : L.decodeToEnd s bytes = some body) :
    Flow L .endOfStream [] (L.EndsWith none .endOfStream) s bytes body := by
  induction bytes generalizing s body with
  | nil =>
      rw [decodeToEnd] at h
      split at h
      · next hfinish =>
          cases h
          refine .stop rfl ?_
          rw [EndsWith, if_pos ⟨rfl, hfinish⟩]
      · cases h
  | cons b rest ih =>
      rw [decodeToEnd] at h
      split at h
      · next hstep =>
          obtain ⟨body', hrest, rfl⟩ := Option.map_eq_some_iff.mp h
          exact .more hstep.1 hstep.2 (ih hrest)
      · cases h

end Llhttp

namespace Parser

variable {L : Llhttp} {M : Type} (T : Target M)

/-! ### Feeding the parser -/

/-- The parser is in the body of a message, between two bytes. -/
structure InBody (core : L.State) (p : Parser L M) : Prop where
  errno : p.errno = none
  pending : p.pending = []
  core : p.core = core
  span : p.span = none ∨ p.span = some .body
  complete : p.state.messageComplete = false

theorem restartSpan_body {p : Parser L M} (h : p.span = none ∨ p.span = some .body) (pos : ℕ) :
    restartSpan T pos p = .ok () p := by
  rw [restartSpan, bind_ok (get_run p)]
  rcases h with hspan | hspan
  · rw [hspan]
    rfl
  · rw [hspan]
    rfl

theorem execute_inBody {core : L.State} {p : Parser L M} (h : InBody core p) (pos : ℕ)
    (data : Bytes) : execute T pos data p = eat T pos data p := by
  have hcatch : catchUp T pos p = .ok () p := by
    rw [catchUp, bind_ok (get_run p), bind_ok (modify_run ..), h.pending]
    show EStateM.Result.ok () { p with pending := [] } = _
    rw [← h.pending]
  have herrno : ¬p.errno.isSome = true := by simp [h.errno]
  rw [execute, bind_ok (get_run p), if_neg herrno, bind_ok (restartSpan_body T h.span pos),
    bind_ok hcatch]

theorem feed_inBody {core : L.State} {p : Parser L M} (h : InBody core p) (pos : ℕ) :
    feed T pos [] p = .ok false p := by
  rw [feed, bind_ok (execute_inBody T h pos []), bind_ok (get_run p), h.errno]
  rfl

/-- Between the header section and the end of the message. -/
theorem feed_pending {p : Parser L M} (herrno : p.errno = none)
    (hspan : p.span = none ∨ p.span = some .body) (hpending : p.pending = [.messageComplete])
    (pos : ℕ) :
    feed T pos [] p = .ok true { p.onMessageComplete.stop .paused pos with pending := [] } := by
  have hnot : ¬p.errno.isSome = true := by simp [herrno]
  have hcatch : catchUp T pos p =
      .ok () { p.onMessageComplete.stop .paused pos with pending := [] } := by
    rw [catchUp, bind_ok (get_run p), bind_ok (modify_run ..), hpending]
    rfl
  have hexecute : execute T pos [] p =
      .ok () { p.onMessageComplete.stop .paused pos with pending := [] } := by
    rw [execute, bind_ok (get_run p), if_neg hnot, bind_ok (restartSpan_body T hspan pos),
      bind_ok hcatch]
    rfl
  rw [feed, bind_ok hexecute]
  rfl

/-- The parser with more of the body in the destination, and the automaton in the next state. -/
def took (p : Parser L M) (r : Reaction L.State) (b : UInt8) : Parser L M :=
  (p.setState { p.state with body := p.state.body ++ r.given b }).enter r.next
    (if r.closes then none else r.span)

theorem took_inBody {core : L.State} {p : Parser L M} (h : InBody core p) {r : Reaction L.State}
    (hr : r.plain = true) (b : UInt8) : InBody r.next (p.took r b) := by
  refine ⟨h.errno, h.pending, rfl, ?_, h.complete⟩
  show (if r.closes then none else r.span) = none ∨ (if r.closes then none else r.span) = some .body
  cases r.closes with
  | true => exact .inl rfl
  | false => exact (Reaction.plain_iff.mp hr).2

theorem onByte_given {p : Parser L M} {r : Reaction L.State} (hr : r.plain = true) (pos : ℕ)
    (b : UInt8) (hroom : p.state.body.length < p.state.bodyDest) :
    onByte T pos b r.span p =
      .ok () (p.setState { p.state with body := p.state.body ++ r.given b }) := by
  rcases (Reaction.plain_iff.mp hr).2 with hspan | hspan
  · rw [Reaction.given, hspan, if_neg nofun, List.append_nil]
    rfl
  · rw [Reaction.given, hspan, if_pos rfl]
    show EStateM.Result.ok () (if p.state.body.length < p.state.bodyDest then _ else p) = _
    rw [if_pos hroom]

theorem eatByte_inBody {core : L.State} {p : Parser L M} (h : InBody core p) {b : UInt8}
    (hr : (L.step core b).plain = true) (hroom : p.state.body.length < p.state.bodyDest) (pos : ℕ) :
    eatByte T pos b p = runEvents T (pos + 1) (L.step core b).after (p.took (L.step core b) b) := by
  have herrno : ¬p.errno.isSome = true := by simp [h.errno]
  have hbefore := (Reaction.plain_iff.mp hr).1
  rw [eatByte, bind_ok (get_run p), if_neg herrno]
  simp only [h.core, hbefore, List.map_nil]
  rw [bind_ok (show runEvents T pos [] p = .ok () p from rfl), bind_ok (get_run p), if_neg herrno,
    bind_ok (onByte_given T hr pos b hroom), bind_ok (modify_run ..)]
  rfl

/-- The parser behind the last byte of the message. -/
def finished (p : Parser L M) (r : Reaction L.State) (b : UInt8) (pos : ℕ) : Parser L M :=
  { (p.took r b).onMessageComplete.stop .paused pos with pending := [] }

/-- What it leads to that bytes of a body were fed, with `more` behind them and `body` to be
delivered. -/
inductive Fed (final : Error) (after : Bytes) (ends : L.State → Prop) (pos : ℕ)
    (fed more body : Bytes) (p q : Parser L M) : Prop where
  | goesOn {core : L.State} (given rest : Bytes) : InBody core q →
      Llhttp.Flow L final after ends core more rest → body = given ++ rest →
      given.length ≤ fed.length → q.state = { p.state with body := p.state.body ++ given } →
      Fed final after ends pos fed more body p q
  | ends (n : ℕ) : 0 < n → n ≤ fed.length → fed.drop n ++ more = after → final = .endOfStream →
      body.length ≤ fed.length → q.errno = some .paused → q.errorPos = pos + n →
      q.state = { p.state with body := p.state.body ++ body, messageComplete := true } →
      Fed final after ends pos fed more body p q

section feeding
variable {final : Error} {after : Bytes} {ends : L.State → Prop}

/-- The parser takes bytes of a body as they come, if the destination has room for them. -/
theorem eat_flow {core : L.State} {p : Parser L M} (h : InBody core p) (pos : ℕ)
    {fed more body : Bytes} (hflow : Llhttp.Flow L final after ends core (fed ++ more) body)
    (hroom : p.state.body.length + fed.length ≤ p.state.bodyDest) :
    ∃ q, eat T pos fed p = .ok () q ∧ Fed final after ends pos fed more body p q := by
  induction fed generalizing p core body pos with
  | nil =>
      refine ⟨p, rfl, .goesOn [] body h hflow rfl (Nat.le_refl _) ?_⟩
      rw [List.append_nil]
  | cons b fed ih =>
      rw [List.length_cons] at hroom
      have hbyte : p.state.body.length < p.state.bodyDest := by omega
      rw [List.cons_append] at hflow
      cases hflow with
      | last hr hafter hfinal =>
          have hone := (L.step core b).length_given b
          have heat : eatByte T pos b p = .ok () (p.finished (L.step core b) b (pos + 1)) := by
            rw [eatByte_inBody T h hr hbyte, hafter]
            rfl
          refine ⟨p.finished (L.step core b) b (pos + 1), ?_, .ends 1 Nat.one_pos ?_ rfl hfinal ?_ rfl rfl rfl⟩
          · rw [eat, bind_ok heat, eat_stopped T (Option.some_ne_none _)]
          · rw [List.length_cons]
            omega
          · rw [List.length_cons]
            omega
      | more hr hafter hrest =>
          rename_i body
          have hone := (L.step core b).length_given b
          have heat : eatByte T pos b p = .ok () (p.took (L.step core b) b) := by
            rw [eatByte_inBody T h hr hbyte, hafter]
            rfl
          have htook : (p.took (L.step core b) b).state =
              { p.state with body := p.state.body ++ (L.step core b).given b } := rfl
          have hroom' : (p.took (L.step core b) b).state.body.length + fed.length ≤
              (p.took (L.step core b) b).state.bodyDest := by
            rw [htook, List.length_append]
            show _ ≤ p.state.bodyDest
            omega
          obtain ⟨q, hq, hfed⟩ := ih (took_inBody h hr b) (pos + 1) hrest hroom'
          refine ⟨q, by rw [eat, bind_ok heat, hq], ?_⟩
          cases hfed with
          | goesOn given rest hin hflow hbody hlen hstate =>
              refine .goesOn ((L.step core b).given b ++ given) rest hin hflow ?_ ?_ ?_
              · rw [hbody, List.append_assoc]
              · rw [List.length_append, List.length_cons]
                omega
              · rw [hstate, htook, List.append_assoc]
          | ends n _ hn hdrop hfinal hlen herrno hpos hstate =>
              refine .ends (n + 1) (Nat.succ_pos n) ?_ hdrop hfinal ?_ herrno ?_ ?_
              · rw [List.length_cons]
                omega
              · rw [List.length_append, List.length_cons]
                omega
              · rw [hpos]
                omega
              · rw [hstate, htook, List.append_assoc]

end feeding

end Parser

namespace Inbound

open Dusty.Parser

variable {L : Llhttp} {M : Type} (T : Target M)

/-! ### Filling the buffer -/

/-- The connection is in the body of a message, of which `body` is still to be delivered. -/
structure InFlow (final : Error) (after body : Bytes) (core : L.State) (s : Inbound L M) : Prop where
  parser : InBody core s.parser
  flow : Llhttp.Flow L final after (L.EndsWith s.net.failure final) core s.incoming body
  pieces : ∀ chunk ∈ s.net.chunks, chunk ≠ []
  cap : 0 < s.reader.cap

/-- The connection is behind the message. -/
structure Behind (final : Error) (after body : Bytes) (s : Inbound L M) : Prop where
  complete : s.parser.isBodyComplete = true
  incoming : s.incoming = after
  final : final = .endOfStream
  body : body = []

/-- The connection is in the body or behind it. -/
def Rest (final : Error) (after body : Bytes) (s : Inbound L M) : Prop :=
  (∃ core, InFlow final after body core s) ∨ Behind final after body s

/-- How much there is to do for the loop. -/
def left (s : Inbound L M) : ℕ := s.net.weight + s.reader.data.length

section filling
variable {final : Error} {after body : Bytes} {core : L.State} {s : Inbound L M}

/-- Some bytes are buffered, and no more are taken than were there. -/
structure Filled (final : Error) (after body : Bytes) (core : L.State) (s s' : Inbound L M) :
    Prop where
  inFlow : InFlow final after body core s'
  parser : s'.parser = s.parser
  some : 0 < s'.reader.data.length
  left : s'.left ≤ s.left

theorem rebase_empty {r : Reader} (hdata : r.data = []) (hcap : 0 < r.cap) :
    0 < r.rebase.room ∧ r.rebase.data = [] ∧ r.rebase.cap = r.cap := by
  have hlen : r.data.length = 0 := by rw [hdata, List.length_nil]
  unfold Reader.rebase
  split
  · refine ⟨?_, hdata, rfl⟩
    rw [Reader.room]
    omega
  · refine ⟨?_, hdata, rfl⟩
    show 0 < r.cap - (0 + r.data.length)
    omega

theorem fillMore_filled (h : InFlow final after body core s) (hdata : s.reader.data = [])
    {chunk : Bytes} {rest : List Bytes} (hnet : s.net.chunks = chunk :: rest) :
    fillMore s = .ok () (receive chunk rest s.awaits) ∧
      Filled final after body core s (receive chunk rest s.awaits) := by
  obtain ⟨hroom, hempty, hcap⟩ := rebase_empty hdata h.cap
  have hnot : ¬s.reader.cap ≤ s.reader.data.length := by
    have := h.cap
    rw [hdata, List.length_nil]
    omega
  have hpos : 0 < s.awaits.reader.room := hroom
  have hchunk : 0 < chunk.length := by
    refine List.length_pos_iff.mpr (h.pieces chunk ?_)
    rw [hnet]
    exact List.mem_cons_self
  have hgot : (receive chunk rest s.awaits).reader.data = chunk.take s.awaits.reader.room := by
    show s.reader.rebase.data ++ _ = _
    rw [hempty, List.nil_append]
  have hnet' : s.awaits.net.chunks = chunk :: rest := hnet
  have hstream : (receive chunk rest s.awaits).incoming = s.incoming := by
    show (receive chunk rest s.awaits).reader.data ++ _ = _
    rw [incoming, receive_stream hnet', hdata]
    show s.reader.rebase.data ++ _ = _
    rw [hempty]
    rfl
  refine ⟨?_, ⟨h.parser, ?_, ?_, ?_⟩, rfl, ?_, ?_⟩
  · rw [fillMore, bind_ok (get_run s), if_neg hnot, bind_ok (modify_run ..), hnet]
    rfl
  · rw [hstream]
    exact h.flow
  · intro c hc
    have hmem : c ∈ (if chunk.length ≤ s.awaits.reader.room then rest
        else chunk.drop s.awaits.reader.room :: rest) := hc
    have htail : ∀ c ∈ rest, c ≠ [] := by
      intro c hc
      refine h.pieces c ?_
      rw [hnet]
      exact List.mem_cons_of_mem _ hc
    split at hmem
    · exact htail c hmem
    · rcases List.mem_cons.mp hmem with rfl | hc
      · refine List.ne_nil_of_length_pos ?_
        rw [List.length_drop]
        omega
      · exact htail c hc
  · show 0 < s.reader.rebase.cap
    rw [hcap]
    exact h.cap
  · rw [hgot, List.length_take]
    omega
  · have hweight : s.net.weight = chunk.length + 1 + (rest.map fun c => c.length + 1).sum := by
      rw [Net.weight, hnet, List.map_cons, List.sum_cons]
    have hweight' : (receive chunk rest s.awaits).net.weight =
        ((if chunk.length ≤ s.awaits.reader.room then rest
          else chunk.drop s.awaits.reader.room :: rest).map fun c => c.length + 1).sum := rfl
    unfold left
    rw [hweight, hweight', hgot, List.length_take]
    split
    · omega
    · rw [List.map_cons, List.sum_cons, List.length_drop]
      omega

theorem InFlow.dry (h : InFlow final after body core s) (hdata : s.reader.data = [])
    (hnet : s.net.chunks = []) :
    after = [] ∧ body = [] ∧ L.EndsWith s.net.failure final core := by
  have hflow := h.flow
  have hincoming : s.incoming = [] := by
    rw [incoming, hdata, hnet]
    rfl
  rw [hincoming] at hflow
  cases hflow with
  | stop hafter hends => exact ⟨hafter, rfl, hends⟩

theorem InFlow.stays (h : InFlow final after body core s) (hdata : s.reader.data = [])
    (hnet : s.net.chunks = []) {s' : Inbound L M} (hparser : s'.parser = s.parser)
    (hreader : s'.reader = s.reader.rebase) (hnet' : s'.net = s.net) :
    Rest final after [] s' ∧ s'.incoming = after := by
  obtain ⟨hafter, -, hends⟩ := h.dry hdata hnet
  obtain ⟨-, hempty, hcap⟩ := rebase_empty hdata h.cap
  have hincoming : s'.incoming = [] := by
    rw [incoming, hreader, hempty, hnet', hnet]
    rfl
  refine ⟨.inl ⟨core, ?_, ?_, ?_, ?_⟩, hincoming.trans hafter.symm⟩
  · rw [hparser]
    exact h.parser
  · rw [hincoming, hnet']
    exact .stop hafter hends
  · rw [hnet']
    exact h.pieces
  · rw [hreader, hcap]
    exact h.cap

theorem endOfBody_safe {s s' : Inbound L M}
    (hrun : attempt (onParser finish) s = .ok (.ok ()) s') :
    endOfBody s = if s'.parser.isBodyComplete then .error (.err .endOfStream) s'
      else .error (.err .readFailed) s' := by
  rw [endOfBody, bind_ok hrun]
  dsimp only
  rw [bind_ok (get_run s')]
  split
  · rfl
  · rfl

theorem finish_run {p : Parser L M} (herrno : p.errno = none) :
    (L.finish p.core = .safe → finish p = .ok () p) ∧
      (L.finish p.core = .safeWithCb → finish p = .ok () p.onMessageComplete) ∧
      (L.finish p.core = .unfinished → finish p = .error (.err .parseFailed) p) := by
  unfold finish
  rw [bind_ok (get_run p), if_neg (by simp [herrno])]
  cases L.finish p.core with
  | safe => refine ⟨fun _ => rfl, ?_, ?_⟩ <;> intro h <;> cases h
  | safeWithCb => refine ⟨?_, fun _ => rfl, ?_⟩ <;> intro h <;> cases h
  | unfinished => refine ⟨?_, ?_, fun _ => rfl⟩ <;> intro h <;> cases h

/-- Without more bytes the body is at its end, or it never gets there. -/
theorem endOfBody_run (h : InFlow final after body core s) (hdata : s.reader.data = [])
    (hnet : s.net.chunks = []) (hfailure : s.net.failure = none) :
    ∃ s', endOfBody s.awaits = .error (.err final) s' ∧ Rest final after [] s' ∧
      s'.incoming = after := by
  obtain ⟨hafter, -, hends⟩ := h.dry hdata hnet
  obtain ⟨hrest, hincoming⟩ : Rest final after [] s.awaits ∧ s.awaits.incoming = after :=
    h.stays hdata hnet rfl rfl rfl
  have hcomplete : s.parser.isBodyComplete = false := h.parser.complete
  obtain ⟨hsafe, hcall, hunfinished⟩ : (L.finish s.parser.core = .safe → finish s.parser = .ok () s.parser) ∧
      (L.finish s.parser.core = .safeWithCb → finish s.parser = .ok () s.parser.onMessageComplete) ∧
      (L.finish s.parser.core = .unfinished → finish s.parser = .error (.err .parseFailed) s.parser) :=
    finish_run h.parser.errno
  rw [h.parser.core] at hsafe hcall hunfinished
  rw [Llhttp.EndsWith, hfailure] at hends
  cases hcore : L.finish core with
  | safe =>
      rw [hcore, if_neg (fun hf => absurd hf.2 (by decide))] at hends
      have hrun : attempt (onParser finish) s.awaits = .ok (.ok ()) s.awaits :=
        attempt_ok (onParser_ok (hsafe hcore))
      refine ⟨s.awaits, ?_, hrest, hincoming⟩
      have hnot : ¬s.awaits.parser.isBodyComplete = true := by
        show ¬s.parser.isBodyComplete = true
        simp [hcomplete]
      rw [endOfBody_safe hrun, if_neg hnot, hends]
  | safeWithCb =>
      rw [hcore, if_pos ⟨rfl, rfl⟩] at hends
      let s' := s.awaits.setParser s.parser.onMessageComplete
      have hrun : attempt (onParser finish) s.awaits = .ok (.ok ()) s' :=
        attempt_ok (onParser_ok (hcall hcore))
      refine ⟨s', ?_, .inr ⟨rfl, hincoming, hends, rfl⟩, hincoming⟩
      rw [endOfBody_safe hrun, if_pos (show s'.parser.isBodyComplete = true from rfl), hends]
  | unfinished =>
      rw [hcore, if_neg (fun hf => absurd hf.2 (by decide))] at hends
      have hrun : attempt (onParser finish) s.awaits = .ok (.error .parseFailed) s.awaits :=
        attempt_error (onParser_error (hunfinished hcore))
      refine ⟨s.awaits, ?_, hrest, hincoming⟩
      rw [endOfBody, bind_ok hrun, hends]
      rfl

theorem fillBody_run (h : InFlow final after body core s) :
    (∃ s', fillBody s = .ok () s' ∧ Filled final after body core s s') ∨
    body = [] ∧ ∃ s', fillBody s = .error (.err final) s' ∧ Rest final after [] s' ∧
      s'.incoming = after := by
  by_cases hlen : 0 < s.reader.data.length
  · have hfalse : (s.reader.bufferedLen == 0) = false := by
      rw [Reader.bufferedLen]
      simp only [beq_eq_false_iff_ne]
      omega
    refine .inl ⟨s, ?_, h, rfl, hlen, Nat.le_refl _⟩
    rw [fillBody, bind_ok (get_run s), hfalse]
    rfl
  · have hdata : s.reader.data = [] := List.length_eq_zero_iff.mp (by omega)
    have htrue : (s.reader.bufferedLen == 0) = true := by
      rw [Reader.bufferedLen, hdata]
      rfl
    rw [fillBody, bind_ok (get_run s), htrue, when_true]
    cases hnet : s.net.chunks with
    | cons chunk rest =>
        obtain ⟨hrun, hfilled⟩ := fillMore_filled h hdata hnet
        refine .inl ⟨_, ?_, hfilled⟩
        rw [bind_ok (attempt_ok hrun)]
        rfl
    | nil =>
        obtain ⟨-, hbody, hends⟩ := h.dry hdata hnet
        have hnot : ¬s.reader.cap ≤ s.reader.data.length := by
          have := h.cap
          rw [hdata, List.length_nil]
          omega
        refine .inr ⟨hbody, ?_⟩
        cases hfailure : s.net.failure with
        | none =>
            have hrun : fillMore s = .error (.err .endOfStream) s.awaits := by
              rw [fillMore, bind_ok (get_run s), if_neg hnot, bind_ok (modify_run ..), hnet,
                hfailure]
              rfl
            rw [bind_ok (attempt_error hrun)]
            exact endOfBody_run h hdata hnet hfailure
        | some e =>
            let s' : Inbound L M := { s.awaits with readErr := some e }
            have hrun : fillMore s = .error (.err .readFailed) s' := by
              rw [fillMore, bind_ok (get_run s), if_neg hnot, bind_ok (modify_run ..), hnet,
                hfailure]
              rfl
            rw [Llhttp.EndsWith, hfailure, if_neg (fun hf => absurd hf.1 (Option.some_ne_none e))] at hends
            refine ⟨s', ?_, h.stays hdata hnet rfl rfl rfl⟩
            rw [bind_ok (attempt_error hrun), hends]
            rfl

end filling

/-! ### One call -/

section reading
variable {final : Error} {after body : Bytes} {core : L.State} {s : Inbound L M}

theorem toss_run {n : ℕ} (h : n ≤ s.reader.data.length) :
    toss n s = .ok () (s.setReader (s.reader.advance n h)) := by
  rw [toss, bind_ok (get_run s), dif_pos h]
  rfl

/-- What the parser has taken comes out of the buffer. -/
structure Taken (final : Error) (after body : Bytes) (n : ℕ) (s s' : Inbound L M) : Prop where
  parts : ∃ given rest, body = given ++ rest ∧ given.length ≤ n ∧ Rest final after rest s' ∧
    s'.parser.state.body = s.parser.state.body ++ given
  dest : s'.parser.state.bodyDest = s.parser.state.bodyDest
  left : s'.left < s.left

theorem feedBody_run (h : InFlow final after body core s) {n : ℕ} (hpos : 0 < n)
    (hn : n ≤ s.reader.data.length)
    (hroom : s.parser.state.body.length + n ≤ s.parser.state.bodyDest) :
    ∃ s', feedBody T n s = .ok () s' ∧ Taken final after body n s s' := by
  have hlen : (s.reader.data.take n).length = n := List.length_take_of_le hn
  have hincoming : s.incoming = s.reader.data.take n ++
      (s.reader.data.drop n ++ s.net.chunks.flatten) := by
    rw [← List.append_assoc, List.take_append_drop, incoming]
  have hflow := h.flow
  rw [hincoming] at hflow
  obtain ⟨q, hq, hfed⟩ := eat_flow T h.parser s.reader.pos hflow (by rw [hlen]; exact hroom)
  have hexecute : execute T s.reader.pos (s.reader.data.take n) s.parser = .ok () q := by
    rw [execute_inBody T h.parser, hq]
  cases hfed with
  | goesOn given rest hin hrest hbody hgiven hstate =>
      have hfeed : attempt (onParser (feed T s.reader.pos (s.reader.data.take n))) s =
          .ok (.ok false) (s.setParser q) := by
        rw [attempt, onParser_run, feed, bind_ok hexecute, bind_ok (get_run q), hin.errno]
        rfl
      refine ⟨(s.setParser q).setReader (s.reader.advance n hn), ?_, ⟨given, rest, hbody, ?_,
        .inl ⟨_, hin, hrest, h.pieces, h.cap⟩, ?_⟩, ?_, ?_⟩
      · rw [feedBody, bind_ok (get_run s), bind_ok hfeed]
        exact toss_run (s := s.setParser q) hn
      · omega
      · show q.state.body = _
        rw [hstate]
      · show q.state.bodyDest = _
        rw [hstate]
      · show s.net.weight + (s.reader.data.drop n).length < s.net.weight + s.reader.data.length
        rw [List.length_drop]
        omega
  | ends m hm hle hafter hfinal hbody herrno herror hstate =>
      have hmle : m ≤ s.reader.data.length := by omega
      have hfeed : attempt (onParser (feed T s.reader.pos (s.reader.data.take n))) s =
          .ok (.ok true) (s.setParser q) := by
        rw [attempt, onParser_run, feed, bind_ok hexecute, bind_ok (get_run q), herrno]
        rfl
      have hconsumed : q.getConsumedBytes s.reader.pos = m := by
        rw [getConsumedBytes, herror]
        omega
      have hbehind : s.reader.data.drop m ++ s.net.chunks.flatten = after := by
        rw [← hafter, ← List.append_assoc, ← List.drop_append_of_le_length hle,
          List.take_append_drop]
      refine ⟨(s.setParser q).setReader (s.reader.advance m hmle), ?_,
        ⟨body, [], (List.append_nil _).symm, ?_, .inr ⟨?_, hbehind, hfinal, rfl⟩, ?_⟩, ?_, ?_⟩
      · rw [feedBody, bind_ok (get_run s), bind_ok hfeed]
        dsimp only
        rw [bind_ok (get_run _)]
        show toss (q.getConsumedBytes s.reader.pos) (s.setParser q) = _
        rw [hconsumed]
        exact toss_run (s := s.setParser q) hmle
      · omega
      · show q.state.messageComplete = true
        rw [hstate]
      · show q.state.body = _
        rw [hstate]
      · show q.state.bodyDest = _
        rw [hstate]
      · show s.net.weight + (s.reader.data.drop m).length < s.net.weight + s.reader.data.length
        rw [List.length_drop]
        omega

/-- What a call returns: some of the body, or the end of it. -/
def Returns (final : Error) (after body : Bytes) (dest : ℕ) (x : Act (Inbound L M) Bytes)
    (s : Inbound L M) : Prop :=
  (∃ part rest s', x s = .ok part s' ∧ part ≠ [] ∧ part.length ≤ dest ∧ body = part ++ rest ∧
    Rest final after rest s') ∨
  body = [] ∧ ∃ s', x s = .error (.err final) s' ∧ Rest final after [] s' ∧ s'.incoming = after

theorem streamLoop_run {dest : ℕ} (hdest : 0 < dest) (fuel : ℕ) {got : Bytes}
    (hfuel : s.left < fuel) (h : Rest final after body s) (hgot : s.parser.state.body = got)
    (hbuf : s.parser.state.bodyDest = dest) (hlen : got.length ≤ dest) :
    Returns final after (got ++ body) dest (streamLoop T dest fuel) s := by
  induction fuel generalizing s body got with
  | zero => exact absurd hfuel (Nat.not_lt_zero _)
  | succ fuel ih =>
      unfold Returns
      rw [streamLoop, bind_ok (get_run s), hgot]
      by_cases hsome : got.length > 0
      · rw [if_pos hsome]
        exact .inl ⟨got, body, s, rfl, List.length_pos_iff.mp hsome, hlen, rfl, h⟩
      obtain rfl : got = [] := List.length_eq_zero_iff.mp (by omega)
      rw [if_neg hsome, List.nil_append]
      rcases h with ⟨core, h⟩ | h
      · have hnot : ¬s.parser.isBodyComplete = true := by
          rw [isBodyComplete, h.parser.complete]
          exact Bool.false_ne_true
        rw [if_neg hnot]
        rcases fillBody_run h with ⟨s₁, hfill, hfilled⟩ | ⟨hbody, s₁, hfill, hrest, hafter⟩
        · have hsome₁ := hfilled.some
          have hgot₁ : s₁.parser.state.body = [] := by rw [hfilled.parser, hgot]
          have hbuf₁ : s₁.parser.state.bodyDest = dest := by rw [hfilled.parser, hbuf]
          have hne : ¬s₁.reader.data.length = 0 := by omega
          rw [bind_ok hfill, bind_ok (get_run s₁), if_neg hne, hgot₁, List.length_nil, Nat.sub_zero]
          obtain ⟨s₂, hfeed, htaken⟩ := feedBody_run T hfilled.inFlow
            (n := min s₁.reader.data.length dest) (by omega) (Nat.min_le_left _ _) (by
              rw [hgot₁, hbuf₁, List.length_nil, Nat.zero_add]
              exact Nat.min_le_right _ _)
          obtain ⟨given, rest, hbody, hgiven, hrest, hstate⟩ := htaken.parts
          rw [bind_ok hfeed, hbody]
          refine ih ?_ hrest ?_ ?_ ?_
          · have := htaken.left
            have := hfilled.left
            omega
          · rw [hstate, hgot₁, List.nil_append]
          · rw [htaken.dest, hbuf₁]
          · omega
        · refine .inr ⟨hbody, s₁, ?_, hrest, hafter⟩
          rw [bind_error hfill]
      · rw [if_pos h.complete]
        exact .inr ⟨h.body, s, by rw [h.final]; rfl, h.body ▸ .inr h, h.incoming⟩

/-- **One call of `stream`.** -/
theorem stream_run {dest : ℕ} (hdest : 0 < dest) (h : Rest final after body s) :
    Returns final after body dest (stream T dest) s := by
  have hne : ¬dest = 0 := by omega
  by_cases hcomplete : s.parser.isBodyComplete = true
  · rcases h with ⟨core, h⟩ | h
    · have hnot : s.parser.isBodyComplete = false := h.parser.complete
      rw [hnot] at hcomplete
      cases hcomplete
    · refine .inr ⟨h.body, s, ?_, h.body ▸ .inr h, h.incoming⟩
      rw [stream_done T hcomplete hne, h.final]
  · have hprepared : Rest final after body (s.setParser (s.parser.prepareBodyRead dest)) := by
      rcases h with ⟨core, h⟩ | h
      · exact .inl ⟨core, ⟨h.parser.errno, h.parser.pending, h.parser.core, h.parser.span,
          h.parser.complete⟩, h.flow, h.pieces, h.cap⟩
      · exact absurd h.complete hcomplete
    unfold Returns
    rw [stream, if_neg hne, bind_ok (get_run s), if_neg hcomplete, bind_ok (modify_run ..),
      bind_ok (get_run _)]
    refine streamLoop_run T hdest _ ?_ hprepared rfl rfl (Nat.zero_le _)
    unfold left bodyFuel
    omega

end reading

/-! ### Reading to the end -/

/-- What a reader gets of a body: pieces that are not empty, as many calls as there are
destinations, and from its end on the same error. -/
structure Delivers (final : Error) (after body : Bytes) (dests : List ℕ) (s : Inbound L M) :
    Prop where
  run : ∃ parts k s', readBody T dests s =
      .ok (parts.map .ok ++ List.replicate k (.error final)) s' ∧
    parts.length + k = dests.length ∧
    List.Forall₂ (fun part dest => 0 < part.length ∧ part.length ≤ dest) parts
      (dests.take parts.length) ∧
    parts.flatten <+: body ∧
    (0 < k → parts.flatten = body ∧ s'.incoming = after) ∧
    (body.length < dests.length → 0 < k)

theorem readBody_end {final : Error} {after : Bytes} (dests : List ℕ) {s : Inbound L M}
    (hdests : ∀ dest ∈ dests, 0 < dest) (h : Rest final after [] s) (hafter : s.incoming = after) :
    ∃ s', readBody T dests s = .ok (List.replicate dests.length (.error final)) s' ∧
      s'.incoming = after := by
  induction dests generalizing s with
  | nil => exact ⟨s, rfl, hafter⟩
  | cons dest dests ih =>
      rcases stream_run T (hdests dest List.mem_cons_self) h with
        ⟨part, rest, s₁, -, hpart, -, hbody, -⟩ | ⟨-, s₁, hrun, hrest, hafter₁⟩
      · exact absurd (List.append_eq_nil_iff.mp hbody.symm).1 hpart
      · obtain ⟨s', hread, hincoming⟩ :=
          ih (fun d hd => hdests d (List.mem_cons_of_mem _ hd)) hrest hafter₁
        refine ⟨s', ?_, hincoming⟩
        rw [readBody, bind_ok (attempt_error hrun), bind_ok hread]
        rfl

theorem readBody_run {final : Error} {after body : Bytes} (dests : List ℕ) {s : Inbound L M}
    (hdests : ∀ dest ∈ dests, 0 < dest) (h : Rest final after body s) :
    Delivers T final after body dests s := by
  induction dests generalizing s body with
  | nil =>
      refine ⟨[], 0, s, rfl, rfl, .nil, List.nil_prefix, fun hk => ?_, fun hlt => ?_⟩
      · exact absurd hk (Nat.lt_irrefl 0)
      · exact absurd hlt (Nat.not_lt_zero _)
  | cons dest dests ih =>
      have hdests' : ∀ dest ∈ dests, 0 < dest := fun d hd => hdests d (List.mem_cons_of_mem _ hd)
      rcases stream_run T (hdests dest List.mem_cons_self) h with
        ⟨part, rest, s₁, hrun, hpart, hlen, hbody, hrest⟩ | ⟨hbody, s₁, hrun, hrest, hafter⟩
      · obtain ⟨parts, k, s', hread, hcount, hsizes, hprefix, hend, hmany⟩ := (ih hdests' hrest).run
        have hpos : 0 < part.length := List.length_pos_iff.mpr hpart
        refine ⟨part :: parts, k, s', ?_, ?_, .cons ⟨hpos, hlen⟩ hsizes, ?_, fun hk => ?_,
          fun hlt => ?_⟩
        · rw [readBody, bind_ok (attempt_ok hrun), bind_ok hread]
          rfl
        · rw [List.length_cons, List.length_cons]
          omega
        · rw [List.flatten_cons, hbody]
          exact (List.prefix_append_right_inj _).mpr hprefix
        · obtain ⟨hflat, hincoming⟩ := hend hk
          exact ⟨by rw [List.flatten_cons, hflat, hbody], hincoming⟩
        · rw [hbody, List.length_append, List.length_cons] at hlt
          exact hmany (by omega)
      · obtain ⟨s', hread, hincoming⟩ := readBody_end T dests hdests' hrest hafter
        refine ⟨[], dests.length + 1, s', ?_, Nat.zero_add _, .nil, List.nil_prefix, fun _ => ?_,
          fun _ => Nat.succ_pos _⟩
        · rw [readBody, bind_ok (attempt_error hrun), bind_ok hread]
          rfl
        · exact ⟨hbody.symm, hincoming⟩

/-- A message as the parser has it before it, in the middle of it: what it delivers, how it ends
and what it leaves.  It has its end with it, or it goes on to the end of the connection, or the
connection ends too early. -/
inductive Message (L : Llhttp) (failure : Option Error) (core : L.State) (bytes : Bytes) :
    Error → Bytes → Bytes → Prop where
  | delimited {body after : Bytes} : L.decodeBody core bytes = some (body, after) →
      Message L failure core bytes .endOfStream after body
  | toEnd {body : Bytes} : failure = none → L.decodeToEnd core bytes = some body →
      Message L failure core bytes .endOfStream [] body
  | cut {missing whole : Bytes} : missing ≠ [] →
      L.decodeBody core (bytes ++ missing) = some (whole, []) →
      Message L failure core bytes .readFailed [] (L.decoded core bytes)

theorem Message.flow {failure : Option Error} {core : L.State} {bytes after body : Bytes}
    {final : Error} (h : Message L failure core bytes final after body) :
    Llhttp.Flow L final after (L.EndsWith failure final) core bytes body := by
  cases h with
  | delimited h => exact Llhttp.flow_of_decodeBody h
  | toEnd hfailure h =>
      subst hfailure
      exact Llhttp.flow_of_decodeToEnd h
  | cut hmissing h => exact (Llhttp.flow_of_cut h hmissing).2

/-- A body is about to be read. -/
def Begun (final : Error) (after body : Bytes) (s : Inbound L M) : Prop :=
  (∃ core, InBody core s.parser ∧ Message L s.net.failure core s.incoming final after body) ∨
    Behind final after body s

/-- **Exactness of the body reader.**  Let the peer send a message whose body is about to be
read, cut into any pieces that are not empty.  However large the destinations are, the calls of
`stream` return the body in pieces that are not empty, then `final`, `EndOfStream` for a body
that is there as a whole and `ReadFailed` for one that is cut short, and by then the reader is
where the message ends.  For that the buffer must have any room at all: one that the header
section has filled has none, and then only a message without a body can be read. -/
theorem readBody_exact_iff {final : Error} {after body : Bytes} {s : Inbound L M}
    (h : Begun final after body s) (hpieces : ∀ chunk ∈ s.net.chunks, chunk ≠ []) :
    (∀ dests : List ℕ, (∀ dest ∈ dests, 0 < dest) → Delivers T final after body dests s) ↔
      0 < s.reader.cap ∨ s.parser.isBodyComplete = true := by
  constructor
  · intro hread
    by_contra hnot
    push Not at hnot
    obtain ⟨hcap, hcomplete⟩ := hnot
    obtain ⟨parts, k, s', hrun, -⟩ := (hread [1] (by simp)).run
    obtain ⟨s'', hpanic⟩ := readBody_noRoom T (Nat.le_zero.mp hcap) (by simpa using hcomplete) [1]
      ⟨1, List.mem_cons_self, Nat.one_ne_zero⟩
    rw [hpanic] at hrun
    cases hrun
  · intro hroom dests hdests
    refine readBody_run T dests hdests ?_
    rcases h with ⟨core, hparser, hmsg⟩ | h
    · have hcap : 0 < s.reader.cap := by
        rcases hroom with hcap | hcomplete
        · exact hcap
        · have hnot : s.parser.isBodyComplete = false := hparser.complete
          rw [hnot] at hcomplete
          cases hcomplete
      exact .inl ⟨core, hparser, hmsg.flow, hpieces, hcap⟩
    · exact .inr h

/-! ### From the header section to the body -/

/-- Behind a header section the body is about to be read, or there is none. -/
theorem enterBody_begun {p₀ : Parser L M} {base cap : ℕ} {sent : Bytes} {k : ℕ} {s : Inbound L M}
    (h : HeadDone T p₀ base cap sent k s) {final : Error} {after body : Bytes}
    (hspan : s.parser.span = none ∨ s.parser.span = some .body)
    (hcomplete : s.parser.isBodyComplete = false)
    (hmsg : s.parser.pending = [] ∧
        Message L s.net.failure s.parser.core (s.incoming.drop k) final after body ∨
      s.parser.pending = [.messageComplete] ∧ final = .endOfStream ∧
        after = s.incoming.drop k ∧ body = []) :
    ∃ s', enterBody T k s = .ok () s' ∧ Begun final after body s' ∧ s'.net = s.net ∧
      s'.reader.cap = cap - k ∧ s'.parser.msg = s.parser.msg ∧
      (s'.parser.isBodyComplete = true ↔ s.parser.pending = [.messageComplete]) := by
  have hincoming : (s.cut k h.le).incoming = s.incoming.drop k := by
    rw [incoming, incoming, List.drop_append_of_le_length h.le]
    rfl
  have hresume : (s.cut k h.le).parser = { s.parser with errno := none } := by
    show s.parser.resumeParsing = _
    rw [resumeParsing, if_pos h.paused]
  rw [enterBody_run h]
  rcases hmsg with ⟨hpending, hmsg⟩ | ⟨hpending, hfinal, hafter, hbody⟩
  · have hin : InBody s.parser.core (s.cut k h.le).parser := by
      rw [hresume]
      exact ⟨rfl, hpending, rfl, hspan, hcomplete⟩
    have hfeed : onParser (feed T 0 []) (s.cut k h.le) = .ok false (s.cut k h.le) := by
      rw [onParser_run, feed_inBody T hin 0]
      rfl
    refine ⟨s.cut k h.le, by rw [bind_ok hfeed]; rfl, .inl ⟨_, hin, ?_⟩, rfl, cut_cap h, ?_, ?_⟩
    · rw [hincoming]
      exact hmsg
    · rw [hresume]
    · have hnot : (s.cut k h.le).parser.isBodyComplete = false := hin.complete
      rw [hnot, hpending]
      simp
  · have hfeed := feed_pending T (p := (s.cut k h.le).parser) (by rw [hresume])
      (by rw [hresume]; exact hspan) (by rw [hresume]; exact hpending) 0
    let q : Parser L M :=
      { (s.cut k h.le).parser.onMessageComplete.stop .paused 0 with pending := [] }
    have hmsg : q.msg = s.parser.msg := by
      show (s.cut k h.le).parser.msg = _
      rw [hresume]
    refine ⟨(s.cut k h.le).setParser q, ?_, .inr ⟨rfl, ?_, hfinal, hbody⟩, rfl, cut_cap h, hmsg,
      iff_of_true rfl hpending⟩
    · rw [bind_run, onParser_run, hfeed]
      rfl
    · rw [hafter, ← hincoming]
      rfl

/-! ### Samples -/

/-- A connection behind the header section of its first message. -/
def afterHead (cap : ℕ) (chunks : List Bytes) : Inbound (Http1.llhttp false) Request :=
  final parseHeaders (connected _ cap chunks)

theorem inBody_of_decide {s : Inbound (Http1.llhttp false) Request}
    (h : s.parser.errno = none ∧ s.parser.pending = [] ∧ s.parser.span = none ∧
      s.parser.state.messageComplete = false) : InBody s.parser.core s.parser :=
  ⟨h.1, h.2.1, rfl, .inl h.2.2.1, h.2.2.2⟩

/-- A chunked body that comes in pieces, with another request behind it. -/
def chunkedSample : Inbound (Http1.llhttp false) Request :=
  afterHead 52 [ascii "PUT / HTTP/1.1\r\nTransfer-Encoding: chunked\r\n\r\n5\r\nhe",
    ascii "l", ascii "lo\r\n0\r\n\r\nGET"]

theorem readBody_exact_iff_sample :
    Delivers .request .endOfStream (ascii "GET") (ascii "hello") [1, 9, 9, 9] chunkedSample := by
  refine (readBody_exact_iff .request (s := chunkedSample) (.inl ⟨chunkedSample.parser.core, ?_, ?_⟩) ?_).mpr ?_
    [1, 9, 9, 9] (by decide)
  · exact inBody_of_decide (by decide +kernel)
  · exact .delimited (by decide +kernel)
  · decide +kernel
  · exact .inl (by decide +kernel)

/-- A header section that fills the buffer leaves no room to read the body. -/
theorem readBody_exact_noRoom :
    ∃ s : Inbound (Http1.llhttp false) Request, s = afterHead 37
        [ascii "PUT / HTTP/1.1\r\nContent-Length: 1\r\n\r\n", ascii "x"] ∧
      Begun .endOfStream [] (ascii "x") s ∧ (∀ chunk ∈ s.net.chunks, chunk ≠ []) ∧
      ¬Delivers .request .endOfStream [] (ascii "x") [1] s := by
  refine ⟨_, rfl, .inl ⟨_, inBody_of_decide ?_, ?_⟩, ?_, ?_⟩
  · decide +kernel
  · exact .delimited (by decide +kernel)
  · decide +kernel
  · rintro ⟨parts, k, s', hrun, -⟩
    have hpanic : faults noRoom (readBody .request [1]) (afterHead 37
        [ascii "PUT / HTTP/1.1\r\nContent-Length: 1\r\n\r\n", ascii "x"]) = true := by
      decide +kernel
    obtain ⟨s'', hfault⟩ := faults_iff.mp hpanic
    rw [hfault] at hrun
    cases hrun

end Inbound
end Dusty
