import Dusty.ReadRoom

/-! # The end of a header section

What a parser has left to do when it pauses behind a header section is what the automaton does
with the last byte of the section, behind the callback that pauses.  So it is settled by the bytes
of the section alone, however they are cut, whether a body follows. -/

namespace Dusty

open Act

namespace Llhttp

variable (L : Llhttp)

/-- Where the header section ends: the state before its last byte, this byte and what follows. -/
def headEnd : L.State → Bytes → Option (L.State × UInt8 × Bytes)
  | _, [] => none
  | s, b :: rest =>
      if .headersComplete ∈ (L.step s b).after then some (s, b, rest)
      else headEnd (L.step s b).next rest

theorem headEnd_length {s s' : L.State} {b : UInt8} {rest : Bytes} :
    ∀ {data : Bytes}, L.headEnd s data = some (s', b, rest) →
      ∃ head, data = head ++ b :: rest ∧ .headersComplete ∈ (L.step s' b).after := by
  intro data h
  induction data generalizing s with
  | nil => cases h
  | cons c data ih =>
      rw [headEnd] at h
      split at h
      · next hmem =>
          cases h
          exact ⟨[], rfl, hmem⟩
      · obtain ⟨head, rfl, hmem⟩ := ih h
        exact ⟨c :: head, rfl, hmem⟩

theorem headEnd_append {s s' : L.State} {b : UInt8} {rest : Bytes} (more : Bytes) :
    ∀ {data : Bytes}, L.headEnd s data = some (s', b, rest) →
      L.headEnd s (data ++ more) = some (s', b, rest ++ more) := by
  intro data h
  induction data generalizing s with
  | nil => cases h
  | cons c data ih =>
      rw [headEnd] at h
      rw [List.cons_append, headEnd]
      by_cases hmem : .headersComplete ∈ (L.step s c).after
      · rw [if_pos hmem] at h ⊢
        cases h
        rfl
      · rw [if_neg hmem] at h ⊢
        exact ih h

end Llhttp

/-- The span that is open behind a byte. -/
def Reaction.left {σ : Type} (r : Reaction σ) : Option Span := if r.closes then none else r.span

/-- What happens behind the end of the header section. -/
def behindHead : List Event → List Event
  | [] => []
  | .headersComplete :: rest => rest
  | _ :: rest => behindHead rest

namespace Parser

variable {L : Llhttp} {M : Type} {T : Target M}

/-! ### What callbacks leave alone -/

/-- The automaton's state, the span that is open, and that the message is not complete. -/
structure Open (core : L.State) (span : Option Span) (p : Parser L M) : Prop where
  core_eq : p.core = core
  span_eq : p.span = span
  complete : p.isBodyComplete = false

theorem onMark_open {core : L.State} {span : Option Span} (pos : ℕ) (m : Mark) :
    Keeps (Open core span) (onMark T pos m : Act (Parser L M) Unit) := by
  have hsame : ∀ {p q : Parser L M}, Open core span p → q.core = p.core → q.span = p.span →
      q.isBodyComplete = p.isBodyComplete → Open core span q := fun h hcore hspan hcomplete =>
    ⟨hcore.trans h.core_eq, hspan.trans h.span_eq, hcomplete.trans h.complete⟩
  cases m with
  | method m => exact keeps_modify fun _ h => hsame h rfl rfl rfl
  | version major minor => exact keeps_modify fun _ h => hsame h rfl rfl rfl
  | urlComplete => exact keeps_pure _
  | statusComplete code =>
      refine keeps_modify fun p h => ?_
      cases T.onStatusComplete code p.msg <;> exact hsame h rfl rfl rfl
  | headerFieldComplete =>
      exact keeps_get_bind fun p _ => (keeps_assert _).bind fun _ =>
        keeps_modify fun _ h => hsame h rfl rfl rfl
  | headerValueComplete =>
      refine keeps_get_bind fun p _ => (keeps_assert _).bind fun _ => ?_
      split <;> exact keeps_modify fun _ h => hsame h rfl rfl rfl

/-- A callback that does not pause leaves the parser running or stops it with an error. -/
theorem onMark_errno (pos : ℕ) (m : Mark) :
    Keeps (fun p => p.errno ≠ some .paused) (onMark T pos m : Act (Parser L M) Unit) := by
  have hstop : ∀ (p : Parser L M) (e : Errno), (p.stop (.error e) pos).errno ≠ some .paused :=
    fun p e => by simp [stop]
  cases m with
  | method m => exact keeps_modify fun _ h => h
  | version major minor => exact keeps_modify fun _ h => h
  | urlComplete => exact keeps_pure _
  | statusComplete code =>
      refine keeps_modify fun p h => ?_
      cases T.onStatusComplete code p.msg with
      | some msg => exact h
      | none => exact hstop p _
  | headerFieldComplete =>
      exact keeps_get_bind fun p _ => (keeps_assert _).bind fun _ => keeps_modify fun _ h => h
  | headerValueComplete =>
      refine keeps_get_bind fun p _ => (keeps_assert _).bind fun _ => ?_
      split
      · exact keeps_modify fun p _ => hstop p _
      · exact keeps_modify fun _ h => h

/-- A byte of a span neither completes the message nor stops the parser. -/
theorem onByte_open (pos : ℕ) (b : UInt8) (span : Option Span) :
    Keeps (fun p => p.isBodyComplete = false ∧ p.errno = none)
      (onByte T pos b span : Act (Parser L M) Unit) := by
  have happend : ∀ target : Slice, Keeps (fun p : Parser L M => p.isBodyComplete = false ∧
      p.errno = none) (appendSlice target pos [b]) := by
    intro target
    unfold appendSlice
    split
    · exact keeps_pure _
    · exact (keeps_assert _).bind fun _ => keeps_pure _
  cases span with
  | none => exact keeps_pure _
  | some span =>
      cases span with
      | url => exact keeps_get_bind fun p _ => (happend _).bind fun _ => keeps_modify fun _ h => h
      | headerField =>
          exact keeps_get_bind fun p _ => (happend _).bind fun _ => keeps_modify fun _ h => h
      | headerValue =>
          exact keeps_get_bind fun p _ => (happend _).bind fun _ => keeps_modify fun _ h => h
      | body =>
          refine keeps_modify fun p h => ?_
          split <;> exact h

/-! ### Where the parser pauses -/

/-- The events have run: the parser goes on, or it has paused behind the header section, or it has
failed. -/
def Ended (pos : ℕ) (core : L.State) (span : Option Span) (events : List Event)
    (p : Parser L M) : Prop :=
  Open core span p ∧ (p.errno = none ∧ .headersComplete ∉ events ∨
    (p.errno = some .paused ∧ .headersComplete ∈ events ∧ p.pending = behindHead events ∧
      p.errorPos = pos) ∨
    ∃ e, p.errno = some (.error e))

/-- An event that is no end of the header section comes in front. -/
theorem Ended.cons {pos : ℕ} {core : L.State} {span : Option Span} {events : List Event}
    {p : Parser L M} {e : Event} (he : e ≠ .headersComplete) (h : Ended pos core span events p) :
    Ended pos core span (e :: events) p := by
  have hbehind : behindHead (e :: events) = behindHead events := by
    cases e <;> first | rfl | exact absurd rfl he
  refine ⟨h.1, ?_⟩
  rw [List.mem_cons, hbehind]
  rcases h.2 with ⟨hnone, hmem⟩ | ⟨hpaused, hmem, hrest⟩ | herror
  · exact .inl ⟨hnone, not_or.mpr ⟨he.symm, hmem⟩⟩
  · exact .inr (.inl ⟨hpaused, .inr hmem, hrest⟩)
  · exact .inr (.inr herror)

theorem runEvents_ended {core : L.State} {span : Option Span} (pos : ℕ) :
    ∀ events : List Event, headFirst events = true →
      Triple (fun p => Open core span p ∧ p.errno = none)
        (runEvents T pos events : Act (Parser L M) Unit)
        (fun _ => Ended pos core span events) fun _ _ => True
  | [], _ => triple_pure fun p h => ⟨h.1, .inl ⟨h.2, by simp⟩⟩
  | .headersComplete :: rest, _ => by
      intro p h
      exact ⟨⟨h.1.core_eq, h.1.span_eq, h.1.complete⟩,
        .inr (.inl ⟨rfl, List.mem_cons_self, rfl, rfl⟩)⟩
  | .messageComplete :: rest, hfirst => by simp [headFirst] at hfirst
  | .fail e :: rest, _ => by
      intro p h
      exact ⟨⟨h.1.core_eq, h.1.span_eq, h.1.complete⟩, .inr (.inr ⟨e, rfl⟩)⟩
  | .mark m :: rest, hfirst => by
      have hmark : Triple (fun p => Open core span p ∧ p.errno = none)
          (onMark T pos m : Act (Parser L M) _)
          (fun _ p => Open core span p ∧ p.errno ≠ some .paused) fun _ _ => True :=
        ((onMark_open pos m).and (onMark_errno pos m)).weaken
          (fun p h => ⟨h.1, by simp [h.2]⟩) (fun _ _ h => h) fun _ _ _ => trivial
      refine Triple.bind hmark fun _ => triple_get_bind fun q => ?_
      by_cases hq : q.errno = none
      · have hnot : ¬q.errno.isSome = true := by simp [hq]
        rw [if_neg hnot]
        refine (runEvents_ended pos rest hfirst).weaken ?_ (fun _ p h => h.cons (by simp))
          fun _ _ h => h
        rintro s ⟨h, rfl⟩
        exact ⟨h.1, hq⟩
      · have hsome : q.errno.isSome = true := Option.isSome_iff_ne_none.mpr hq
        rw [if_pos hsome]
        refine triple_modify ?_
        rintro s ⟨h, rfl⟩
        refine ⟨⟨h.1.core_eq, h.1.span_eq, h.1.complete⟩, .inr (.inr ?_)⟩
        obtain ⟨halt, hhalt⟩ := Option.ne_none_iff_exists'.mp hq
        cases halt with
        | paused => exact absurd hhalt h.2
        | error e => exact ⟨e, hhalt⟩

/-- **A byte of a header section**: where the parser is behind it. -/
theorem eatByte_ended {core : L.State} {span : Option Span} (hcore : L.inHead core = true) (pos : ℕ)
    (b : UInt8) :
    Triple (fun p : Parser L M => Open core span p ∧ p.errno = none) (eatByte T pos b)
      (fun _ p => Ended (pos + 1) (L.step core b).next (L.step core b).left (L.step core b).after p ∨
        ∃ e, p.errno = some (.error e)) fun _ _ => True := by
  have hnone : ∀ marks : List Mark, Event.headersComplete ∉ marks.map Event.mark := by simp
  refine triple_get_bind fun p => ?_
  rintro s ⟨⟨⟨rfl, rfl, hcomplete⟩, herrno⟩, rfl⟩
  have hnot : ¬s.errno.isSome = true := by simp [herrno]
  rw [if_neg hnot]
  refine Triple.bind (runEvents_ended pos _ (headFirst_map_mark (L.step s.core b).before))
    (fun _ => ?_) s ⟨⟨rfl, rfl, hcomplete⟩, herrno⟩
  refine triple_get_bind fun q => ?_
  rintro t ⟨ht, rfl⟩
  rcases ht.2 with ⟨hrunning, -⟩ | ⟨-, hmem, -, -⟩ | herror
  · have hnot' : ¬t.errno.isSome = true := by simp [hrunning]
    rw [if_neg hnot']
    refine Triple.bind ((onByte_open pos b (L.step s.core b).span).weaken (fun _ h => h)
      (fun _ _ h => h) fun _ _ _ => trivial) (fun _ => ?_) t ⟨ht.1.complete, hrunning⟩
    refine Triple.bind
      (Q := fun _ p => Open (L.step s.core b).next (L.step s.core b).left p ∧ p.errno = none)
      (triple_modify fun r hr => ⟨⟨rfl, rfl, hr.1⟩, hr.2⟩) fun _ => ?_
    exact (runEvents_ended (pos + 1) _ (L.headFirst_step s.core b hcore)).weaken (fun _ h => h)
      (fun _ _ h => .inl h) fun _ _ h => h
  · exact absurd hmem (hnone _)
  · obtain ⟨e, he⟩ := herror
    have hsome : t.errno.isSome = true := by simp [he]
    rw [if_pos hsome]
    exact .inr ⟨e, he⟩

/-- **Where the parser pauses.**  What it has left to do is what the automaton does behind the end
of the header section. -/
theorem eat_ended {core : L.State} {span : Option Span} (data : Bytes)
    (hcore : L.inHead core = true) (pos : ℕ) {p p' : Parser L M}
    (h : Open core span p ∧ p.errno = none) (hrun : eat T pos data p = .ok () p')
    (hpaused : p'.errno = some .paused) :
    ∃ s b head rest, L.headEnd core data = some (s, b, rest) ∧ L.inHead s = true ∧
      data = head ++ b :: rest ∧ eat T pos (head ++ [b]) p = .ok () p' ∧
      Open (L.step s b).next (L.step s b).left p' ∧ p'.pending = behindHead (L.step s b).after ∧
        p'.errorPos + rest.length = pos + data.length := by
  induction data generalizing core span pos p with
  | nil =>
      cases hrun
      rw [h.2] at hpaused
      cases hpaused
  | cons b data ih =>
      rw [eat] at hrun
      obtain ⟨u, q, hbyte, hrest⟩ := bind_eq_ok.mp hrun
      have hstays : ∀ halt, q.errno = some halt → q = p' := by
        intro halt hhalt
        rw [eat_stopped T (by simp [hhalt])] at hrest
        cases hrest
        rfl
      rcases (eatByte_ended hcore pos b).ok h hbyte with
        ⟨hopen, ⟨hnone, hmem⟩ | ⟨hq, hmem, hpending, hpos⟩ | ⟨e, he⟩⟩ | ⟨e, he⟩
      · obtain ⟨s, c, head, rest, hend, hs, hdata, hhead, hp', hpending, hpos⟩ :=
          ih (L.inHead_step core b hcore hmem) (pos + 1) ⟨hopen, hnone⟩ hrest
        refine ⟨s, c, b :: head, rest, ?_, hs, by rw [hdata]; rfl, ?_, hp', hpending, ?_⟩
        · rw [Llhttp.headEnd, if_neg hmem]
          exact hend
        · rw [List.cons_append, eat, bind_ok hbyte]
          exact hhead
        · rw [hpos, List.length_cons]
          omega
      · obtain rfl := hstays _ hq
        refine ⟨core, b, [], data, ?_, hcore, rfl, ?_, hopen, hpending, ?_⟩
        · rw [Llhttp.headEnd, if_pos hmem]
        · rw [List.nil_append, eat, bind_ok hbyte]
          rfl
        · rw [hpos, List.length_cons]
          omega
      · obtain rfl := hstays _ he
        rw [he] at hpaused
        cases hpaused
      · obtain rfl := hstays _ he
        rw [he] at hpaused
        cases hpaused

theorem feed_behind {core : L.State} {span : Option Span} {p q : Parser L M}
    (hopen : Open core span p)
    (herrno : p.errno = none) {paused : Bool} (h : feed T 0 [] p = .ok paused q) :
    (p.pending = [] → q.isBodyComplete = false ∧ q.msg = p.msg) ∧
      (p.pending = [.messageComplete] → q.isBodyComplete = true ∧ q.msg = p.msg) := by
  have hrestart : Keeps (fun r : Parser L M => r = p) (restartSpan T 0) := by
    refine keeps_get_bind fun r _ => ?_
    split
    · exact keeps_pure _
    · unfold appendSlice
      split
      · exact (keeps_pure _).bind fun _ => keeps_pure _
      · exact ((keeps_assert _).bind fun _ => keeps_pure _).bind fun _ => keeps_pure _
  obtain ⟨u, r, hexecute, hfeed⟩ := bind_eq_ok.mp h
  have hnot : ¬p.errno.isSome = true := by simp [herrno]
  rw [execute, bind_ok (get_run p), if_neg hnot] at hexecute
  obtain ⟨u₁, p₁, hspan, hrest⟩ := bind_eq_ok.mp hexecute
  obtain rfl := hrestart.ok rfl hspan
  obtain ⟨u₂, p₂, hcatch, heat⟩ := bind_eq_ok.mp hrest
  cases heat
  have hqr : q = r := by
    rw [bind_ok (get_run r)] at hfeed
    cases hr : r.errno with
    | none =>
        rw [hr] at hfeed
        cases hfeed
        rfl
    | some halt =>
        rw [hr] at hfeed
        cases halt <;> cases hfeed
        rfl
  rw [catchUp, bind_ok (get_run p₁), bind_ok (modify_run ..)] at hcatch
  subst hqr
  constructor
  · intro hpending
    rw [hpending] at hcatch
    cases hcatch
    exact ⟨hopen.complete, rfl⟩
  · intro hpending
    rw [hpending] at hcatch
    cases hcatch
    exact ⟨rfl, rfl⟩

end Parser

namespace Inbound

variable {L : Llhttp} {M : Type} {T : Target M}

/-- **Where the loop ends.**  The first `k` bytes are the header section, and what the parser has
left to do is what the automaton does behind their end. -/
theorem HeadDone.ended {msg : M} {base cap k : ℕ} {stream : Bytes} {s : Inbound L M}
    (h : HeadDone T (Parser.init msg) base cap stream k s) :
    ∃ st b rest, L.headEnd L.init stream = some (st, b, rest) ∧ L.inHead st = true ∧
      Fills T (Parser.init msg) base k stream s.parser ∧
      Parser.Open (L.step st b).next (L.step st b).left s.parser ∧
      s.parser.pending = behindHead (L.step st b).after ∧ stream.drop k = rest := by
  have hstart : Parser.Open L.init none (Parser.init msg : Parser L M) ∧
      (Parser.init msg : Parser L M).errno = none := ⟨⟨rfl, rfl, rfl⟩, rfl⟩
  obtain ⟨st, b, head, rest, hend, hst, hdata, hhead, hopen, hpending, hpos⟩ :=
    Parser.eat_ended _ L.inHead_init _ hstart h.parser_eq h.paused
  have hstream : stream = head ++ [b] ++ (rest ++ s.net.chunks.flatten) := by
    rw [← h.stream_eq, hdata, List.append_cons, List.append_assoc]
  have hk : k = (head ++ [b]).length := by
    have herr := h.errorPos
    rw [hdata] at hpos
    simp only [List.length_append, List.length_cons, List.length_nil] at hpos ⊢
    omega
  refine ⟨st, b, rest ++ s.net.chunks.flatten, ?_, hst, ⟨?_, ?_, h.paused, h.errorPos⟩, hopen,
    hpending, ?_⟩
  · rw [← h.stream_eq]
    exact L.headEnd_append _ hend
  · rw [hstream, hk]
    simp only [List.length_append]
    omega
  · rw [hstream, hk, List.take_left]
    exact hhead
  · rw [hstream, hk, List.drop_left]

/-- **Behind a header section.**  The reader is where the section ends, the message is complete if
the automaton completes it with the last byte of the section, and it is what the parser has made of
the section. -/
theorem parseHead_end (hT : T.Lawful) {s s' : Inbound L M} (hseek : s.reader.seek = 0) {msg : M}
    (hp : s.parser = Parser.init msg) {incomplete : Error} (h : parseHead T incomplete s = .ok () s') :
    ∃ st b rest, L.headEnd L.init s.incoming = some (st, b, rest) ∧ L.inHead st = true ∧
      s'.incoming = rest ∧ ∃ n p,
      Fills T (Parser.init msg : Parser L M) s.reader.base n s.incoming p ∧
      s.incoming.drop n = rest ∧
      (behindHead (L.step st b).after = [] →
        s'.parser.isBodyComplete = false ∧ s'.parser.msg = p.msg) ∧
      (behindHead (L.step st b).after = [.messageComplete] →
        s'.parser.isBodyComplete = true ∧ s'.parser.msg = p.msg) := by
  obtain ⟨hreading, -⟩ := reading_start T hseek hp
  unfold parseHead at h
  rw [bind_ok (get_run s)] at h
  obtain ⟨k, s₁, hloop, hbody⟩ := bind_eq_ok.mp h
  have hspec := parseLoop_spec hT incomplete s.headFuel hreading
  rw [hloop, hp] at hspec
  change HeadDone T (Parser.init msg) s.reader.base s.reader.cap s.incoming k s₁ at hspec
  obtain ⟨st, b, rest, hend, hst, hfills, hopen, hpending, hdrop⟩ := hspec.ended
  rw [enterBody_run hspec] at hbody
  obtain ⟨paused, s₂, hfeed, hrest⟩ := bind_eq_ok.mp hbody
  cases hrest
  rw [onParser_run] at hfeed
  have hresume : (s₁.cut k hspec.le).parser = { s₁.parser with errno := none } := by
    show s₁.parser.resumeParsing = _
    rw [Parser.resumeParsing, if_pos hspec.paused]
  cases hq : Parser.feed T 0 [] (s₁.cut k hspec.le).parser with
  | error f q =>
      rw [hq] at hfeed
      cases hfeed
  | ok paused' q =>
      rw [hq] at hfeed
      cases hfeed
      rw [hresume] at hq
      have hbehind := Parser.feed_behind (p := { s₁.parser with errno := none })
        ⟨hopen.core_eq, hopen.span_eq, hopen.complete⟩ rfl hq
      refine ⟨st, b, rest, hend, hst, ?_, k, s₁.parser, hfills, hdrop,
        fun hnil => hbehind.1 (hpending.trans hnil), fun hone => hbehind.2 (hpending.trans hone)⟩
      show s₁.reader.data.drop k ++ s₁.net.chunks.flatten = rest
      rw [← hdrop, ← hspec.stream_eq, List.drop_append_of_le_length hspec.le]

end Inbound
end Dusty
