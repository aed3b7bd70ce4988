import Dusty.HeadRoom
import Dusty.Http1

/-! # Room for a message

A whole message: its header section and any number of reads of its body.  Behind the header
section the buffer is what that section left of it, and the body reader asks for more bytes only
when it has none, so it needs a buffer of at least one byte.  -/

namespace Dusty

open Act

namespace Parser

variable {L : Llhttp} {M : Type} (T : Target M)

/-! ### The parser asks for no bytes -/

/-- What a reader dies of that is asked for more than it has room for. -/
abbrev noRoom : Fault := .panic .fillMoreCapacity

theorem assert_room {σ : Type} (b : Bool) : Spares noRoom (assert b : Act σ Unit) :=
  spares_assert (by simp) b

theorem fail_room {σ α : Type} (e : Error) : Spares noRoom (fail e : Act σ α) :=
  spares_fail (by simp)

theorem appendSlice_room {σ : Type} (target : Slice) (pos : ℕ) (bytes : Bytes) :
    Spares noRoom (appendSlice target pos bytes : Act σ Slice) := by
  unfold appendSlice
  split
  · exact spares_pure _
  · exact Spares.bind (assert_room _) fun _ => spares_pure _

theorem onMark_room (pos : ℕ) (m : Mark) : Spares noRoom (onMark (L := L) T pos m) := by
  cases m with
  | method m => exact spares_modify _
  | version major minor => exact spares_modify _
  | urlComplete => exact spares_pure _
  | statusComplete code => exact spares_modify _
  | headerFieldComplete =>
      exact Spares.bind spares_get fun _ => Spares.bind (assert_room _) fun _ => spares_modify _
  | headerValueComplete =>
      refine Spares.bind spares_get fun self => Spares.bind (assert_room _) fun _ => ?_
      split
      · exact spares_modify _
      · exact spares_modify _

theorem onEvent_room (pos : ℕ) (e : Event) : Spares noRoom (onEvent (L := L) T pos e) := by
  cases e with
  | mark m => exact onMark_room T pos m
  | headersComplete => exact spares_modify _
  | messageComplete => exact spares_modify _
  | fail e => exact spares_modify _

theorem runEvents_room (pos : ℕ) (events : List Event) :
    Spares noRoom (runEvents (L := L) T pos events) := by
  induction events with
  | nil => exact spares_pure _
  | cons e rest ih =>
      refine Spares.bind (onEvent_room T pos e) fun _ => Spares.bind spares_get fun self => ?_
      split
      · exact spares_modify _
      · exact ih

theorem onByte_room (pos : ℕ) (b : UInt8) (span : Option Span) :
    Spares noRoom (onByte (L := L) T pos b span) := by
  cases span with
  | none => exact spares_pure _
  | some span =>
      cases span with
      | body => exact spares_modify _
      | _ => exact Spares.bind spares_get fun _ => Spares.bind (appendSlice_room _ _ _) fun _ => spares_modify _

theorem eat_room (pos : ℕ) (data : Bytes) : Spares noRoom (eat (L := L) T pos data) := by
  induction data generalizing pos with
  | nil => exact spares_pure _
  | cons b rest ih =>
      refine Spares.bind ?_ fun _ => ih (pos + 1)
      refine Spares.bind spares_get fun self => ?_
      split
      · exact spares_pure _
      · refine Spares.bind (runEvents_room T _ _) fun _ => Spares.bind spares_get fun self => ?_
        split
        · exact spares_pure _
        · exact Spares.bind (onByte_room T _ _ _) fun _ => Spares.bind (spares_modify _) fun _ => runEvents_room T _ _

theorem execute_room (pos : ℕ) (data : Bytes) : Spares noRoom (execute (L := L) T pos data) := by
  refine Spares.bind spares_get fun self => ?_
  split
  · exact spares_pure _
  · refine Spares.bind ?_ fun _ => Spares.bind ?_ fun _ => eat_room T pos data
    · refine Spares.bind spares_get fun self => ?_
      split
      · exact spares_pure _
      · exact Spares.bind (appendSlice_room _ _ _) fun _ => spares_pure _
    · exact Spares.bind spares_get fun _ => Spares.bind (spares_modify _) fun _ => runEvents_room T _ _

/-- Feeding the parser does not ask a reader for bytes. -/
theorem feed_room (pos : ℕ) (data : Bytes) : Spares noRoom (feed (L := L) T pos data) := by
  refine Spares.bind (execute_room T pos data) fun _ => Spares.bind spares_get fun self => ?_
  split
  · exact spares_pure _
  · exact spares_pure _
  · exact fail_room _

theorem finish_room : Spares noRoom (finish : Act (Parser L M) Unit) := by
  refine Spares.bind spares_get fun self => ?_
  split
  · exact spares_pure _
  · split
    · exact spares_pure _
    · exact spares_modify _
    · exact fail_room _

end Parser

namespace Inbound

open Dusty.Parser

variable {L : Llhttp} {M : Type} (T : Target M)

/-! ### The body reader -/

/-- The buffer has `c` bytes, and there is no call for more than that. -/
def Fits {α : Type} (c : ℕ) (x : Act (Inbound L M) α) : Prop :=
  Triple (fun s => s.reader.cap = c) x (fun _ s => s.reader.cap = c)
    (fun f s => s.reader.cap = c ∧ f ≠ noRoom)

section fits
variable {α β : Type} {c : ℕ}

theorem Fits.bind {x : Act (Inbound L M) α} {f : α → Act (Inbound L M) β} (hx : Fits c x)
    (hf : ∀ a, Fits c (f a)) : Fits c (x >>= f) :=
  Triple.bind hx hf

theorem fits_pure (a : α) : Fits c (pure a : Act (Inbound L M) α) := fun _ h => h

theorem fits_get : Fits c (get : Act (Inbound L M) (Inbound L M)) := fun _ h => h

theorem fits_fail (e : Error) : Fits c (fail e : Act (Inbound L M) α) := fun _ h => ⟨h, by simp⟩

theorem fits_die {p : Panic} (hp : p ≠ .fillMoreCapacity) : Fits c (die p : Act (Inbound L M) α) :=
  fun _ h => ⟨h, by simp [hp]⟩

theorem fits_modify {f : Inbound L M → Inbound L M} (h : ∀ s, (f s).reader.cap = s.reader.cap) :
    Fits c (modify f : Act (Inbound L M) PUnit) :=
  fun s hs => (h s).trans hs

theorem Fits.attempt {x : Act (Inbound L M) α} (hx : Fits c x) : Fits c (attempt x) := by
  intro s hs
  unfold Act.attempt
  cases hrun : x s with
  | ok a s' => exact Triple.ok hx hs hrun
  | error f s' =>
      have herr := Triple.error hx hs hrun
      cases f with
      | err e => exact herr.1
      | panic p => exact herr

theorem fits_onParser {x : Act (Parser L M) α} (hx : Spares noRoom x) : Fits c (onParser x) := by
  intro s hs
  unfold onParser zoom
  cases hrun : x s.parser with
  | ok a p => exact hs
  | error f p =>
      refine ⟨hs, ?_⟩
      rintro rfl
      exact hx _ _ hrun

theorem fits_get_bind {f : Inbound L M → Act (Inbound L M) α}
    (h : ∀ r, r.reader.cap = c → Triple (fun s => s = r) (f r) (fun _ s => s.reader.cap = c)
      (fun e s => s.reader.cap = c ∧ e ≠ noRoom)) : Fits c (get >>= f) := by
  intro s hs
  exact h s hs s rfl

theorem Fits.at {x : Act (Inbound L M) α} (hx : Fits c x) {r : Inbound L M}
    (hr : r.reader.cap = c) : Triple (fun s => s = r) x (fun _ s => s.reader.cap = c)
      (fun e s => s.reader.cap = c ∧ e ≠ noRoom) := by
  rintro s rfl
  exact hx s hr

theorem fits_toss (n : ℕ) : Fits c (toss n : Act (Inbound L M) Unit) := by
  refine fits_get_bind fun self hself => ?_
  split
  · exact triple_modify fun _ _ => hself
  · exact (fits_die (by simp)).at hself

theorem fillMore_fits (hc : 0 < c) : Triple (fun s : Inbound L M => s.reader.cap = c ∧
    s.reader.data.length = 0) fillMore (fun _ s => s.reader.cap = c)
      (fun f s => s.reader.cap = c ∧ f ≠ noRoom) := by
  rintro s ⟨hcap, hdata⟩
  have hroom : ¬s.reader.cap ≤ s.reader.data.length := by omega
  have hrebase : s.reader.rebase.cap = c := by
    unfold Reader.rebase
    split
    · exact hcap
    · exact hcap
  rw [fillMore, bind_ok (get_run s), if_neg hroom, bind_ok (modify_run ..)]
  cases s.net.chunks with
  | cons chunk rest => exact hrebase
  | nil =>
      cases s.net.failure with
      | none => exact ⟨hrebase, by simp⟩
      | some e => exact ⟨hrebase, by simp⟩

theorem endOfBody_fits : Fits c (endOfBody : Act (Inbound L M) Unit) := by
  refine Fits.bind (fits_onParser finish_room).attempt fun r => ?_
  cases r with
  | error e => exact fits_fail _
  | ok u =>
      refine Fits.bind fits_get fun self => ?_
      split
      · exact fits_fail _
      · exact fits_fail _

theorem fillBody_fits (hc : 0 < c) : Fits c (fillBody : Act (Inbound L M) Unit) := by
  refine fits_get_bind fun self hself => ?_
  by_cases hlen : self.reader.data.length = 0
  · have htrue : (self.reader.bufferedLen == 0) = true := by simp [Reader.bufferedLen, hlen]
    rw [htrue, when_true]
    refine Triple.bind (Q := fun _ s => s.reader.cap = c) ?_ fun r => ?_
    · rintro s rfl
      unfold Act.attempt
      have hfill := fillMore_fits hc s ⟨hself, hlen⟩
      cases hrun : fillMore s with
      | ok u s' =>
          rw [hrun] at hfill
          exact hfill
      | error f s' =>
          rw [hrun] at hfill
          cases f with
          | err e => exact hfill.1
          | panic p => exact hfill
    · cases r with
      | ok u => exact fits_pure _
      | error e => cases e <;> first | exact endOfBody_fits | exact fits_fail _
  · have hfalse : (self.reader.bufferedLen == 0) = false := by simp [Reader.bufferedLen, hlen]
    rw [hfalse, when_false]
    exact (fits_pure ()).at hself

theorem feedBody_fits (n : ℕ) : Fits c (feedBody T n : Act (Inbound L M) Unit) := by
  refine Fits.bind fits_get fun self =>
    Fits.bind (fits_onParser (feed_room T _ _)).attempt fun r => ?_
  cases r with
  | error e => exact fits_fail _
  | ok paused =>
      cases paused
      · exact fits_toss n
      · exact Fits.bind fits_get fun _ => fits_toss _

theorem streamLoop_fits (hc : 0 < c) (dest fuel : ℕ) :
    Fits c (streamLoop T dest fuel : Act (Inbound L M) Bytes) := by
  induction fuel with
  | zero => exact fits_die (by simp)
  | succ fuel ih =>
      refine Fits.bind fits_get fun self => ?_
      split
      · exact fits_pure _
      split
      · exact fits_fail _
      · refine Fits.bind (fillBody_fits hc) fun _ => Fits.bind fits_get fun self => ?_
        split
        · exact fits_pure _
        · exact Fits.bind (feedBody_fits T _) fun _ => ih

/-- With a byte of buffer the body reader always finds room. -/
theorem stream_fits (hc : 0 < c) (dest : ℕ) :
    Fits c (stream T dest : Act (Inbound L M) Bytes) := by
  unfold stream
  split
  · exact fits_pure _
  · refine Fits.bind fits_get fun self => ?_
    split
    · exact fits_fail _
    · exact Fits.bind (fits_modify fun _ => rfl) fun _ =>
        Fits.bind fits_get fun self => streamLoop_fits T hc _ _

end fits

/-! ### A buffer of no bytes -/

theorem stream_done {s : Inbound L M} (h : s.parser.isBodyComplete = true) {dest : ℕ}
    (hdest : dest ≠ 0) : stream T dest s = .error (.err .endOfStream) s := by
  rw [stream, if_neg hdest, bind_ok (get_run s), if_pos h]
  rfl

theorem stream_noRoom {s : Inbound L M} (hcap : s.reader.cap = 0)
    (hbody : s.parser.isBodyComplete = false) {dest : ℕ} (hdest : dest ≠ 0) :
    ∃ s', stream T dest s = .error noRoom s' := by
  have hdata : s.reader.data.length = 0 := by
    have := s.reader.fits
    omega
  have hnot : ¬s.parser.isBodyComplete = true := by simp [hbody]
  let s₁ := s.setParser (s.parser.prepareBodyRead dest)
  have hempty : ¬s₁.parser.state.body.length > 0 := by simp [s₁, setParser, prepareBodyRead, setState]
  have hnot₁ : ¬s₁.parser.isBodyComplete = true := hnot
  have hlen : (s₁.reader.bufferedLen == 0) = true := by
    show (s.reader.bufferedLen == 0) = true
    simp [Reader.bufferedLen, hdata]
  have hfill : fillBody s₁ = .error noRoom s₁ := by
    have hfull : s₁.reader.cap ≤ s₁.reader.data.length := by
      show s.reader.cap ≤ s.reader.data.length
      omega
    have hattempt : attempt fillMore s₁ = .error noRoom s₁ := by rw [attempt, fillMore_full hfull]
    rw [fillBody, bind_ok (get_run s₁), hlen, when_true, bind_error hattempt]
  have hfuel : s₁.bodyFuel = s₁.net.weight + s₁.reader.data.length + 1 + 1 := rfl
  refine ⟨s₁, ?_⟩
  rw [stream, if_neg hdest, bind_ok (get_run s), if_neg hnot, bind_ok (modify_run ..),
    bind_ok (get_run _), hfuel, streamLoop, bind_ok (get_run _), if_neg hempty, if_neg hnot₁,
    bind_error hfill]

/-! ### A message -/

/-- Any number of reads of the body, into destinations of the given sizes. -/
def readBody : List ℕ → Act (Inbound L M) (List (Except Error Bytes))
  | [] => pure []
  | dest :: rest => do
      let result ← attempt (stream T dest)
      let results ← readBody rest
      pure (result :: results)

theorem readBody_fits {c : ℕ} (hc : 0 < c) (dests : List ℕ) :
    Fits c (readBody T dests : Act (Inbound L M) _) := by
  induction dests with
  | nil => exact fits_pure _
  | cons dest rest ih =>
      exact Fits.bind (stream_fits T hc dest).attempt fun _ => Fits.bind ih fun _ => fits_pure _

/-- Reads that change nothing: of no bytes, or of a body that is complete. -/
theorem readBody_idle {s : Inbound L M} (dests : List ℕ)
    (h : s.parser.isBodyComplete = true ∨ ∀ dest ∈ dests, dest = 0) :
    ∃ results, readBody T dests s = .ok results s := by
  induction dests with
  | nil => exact ⟨[], rfl⟩
  | cons dest rest ih =>
      obtain ⟨results, hrest⟩ := ih (h.imp id fun h d hd => h d (List.mem_cons_of_mem _ hd))
      have hstream : ∃ result, attempt (stream T dest) s = .ok result s := by
        by_cases hdest : dest = 0
        · subst hdest
          exact ⟨_, rfl⟩
        · rcases h with h | h
          · exact ⟨_, by rw [attempt, stream_done T h hdest]⟩
          · exact absurd (h dest List.mem_cons_self) hdest
      obtain ⟨result, hresult⟩ := hstream
      refine ⟨result :: results, ?_⟩
      rw [readBody, bind_ok hresult, bind_ok hrest]
      rfl

theorem readBody_noRoom {s : Inbound L M} (hcap : s.reader.cap = 0)
    (hbody : s.parser.isBodyComplete = false) (dests : List ℕ) (h : ∃ dest ∈ dests, dest ≠ 0) :
    ∃ s', readBody T dests s = .error noRoom s' := by
  induction dests with
  | nil =>
      obtain ⟨dest, hmem, -⟩ := h
      cases hmem
  | cons dest rest ih =>
      by_cases hdest : dest = 0
      · subst hdest
        obtain ⟨dest, hmem, hne⟩ := h
        have hrest : ∃ dest ∈ rest, dest ≠ 0 := by
          rcases List.mem_cons.mp hmem with rfl | hmem
          · exact absurd rfl hne
          · exact ⟨dest, hmem, hne⟩
        obtain ⟨s', hrun⟩ := ih hrest
        have hstream : attempt (stream T 0) s = .ok (.ok []) s := rfl
        refine ⟨s', ?_⟩
        rw [readBody, bind_ok hstream, bind_error hrun]
      · obtain ⟨s', hrun⟩ := stream_noRoom T hcap hbody hdest
        have hattempt : attempt (stream T dest) s = .error noRoom s' := by rw [attempt, hrun]
        refine ⟨s', ?_⟩
        rw [readBody, bind_error hattempt]

/-! ### From the header section to the body -/

theorem onParser_run {α : Type} (x : Act (Parser L M) α) (s : Inbound L M) :
    onParser x s = match x s.parser with
      | .ok a p => .ok a (s.setParser p)
      | .error f p => .error f (s.setParser p) := by
  unfold onParser zoom
  cases x s.parser with
  | ok a p => rfl
  | error f p => rfl

theorem onParser_ok {α : Type} {x : Act (Parser L M) α} {s : Inbound L M} {a : α} {p : Parser L M}
    (h : x s.parser = .ok a p) : onParser x s = .ok a (s.setParser p) := by
  rw [onParser_run, h]

theorem onParser_error {α : Type} {x : Act (Parser L M) α} {s : Inbound L M} {f : Fault}
    {p : Parser L M} (h : x s.parser = .error f p) : onParser x s = .error f (s.setParser p) := by
  rw [onParser_run, h]

/-- The buffer is cut behind the header section, and the parser goes on. -/
def cut (self : Inbound L M) (k : ℕ) (h : k ≤ self.reader.data.length) : Inbound L M :=
  (self.setParser self.parser.resumeParsing).setReader (self.reader.advance k h).shorten

section enter
variable {T} {p₀ : Parser L M} {base cap : ℕ} {sent : Bytes} {k : ℕ} {s : Inbound L M}

theorem enterBody_run (h : HeadDone T p₀ base cap sent k s) :
    enterBody T k s = (onParser (Parser.feed T 0 []) >>= fun _ => pure ()) (s.cut k h.le) := by
  have htoss : toss k s = .ok () (s.setReader (s.reader.advance k h.le)) := by
    rw [toss, bind_ok (get_run s), dif_pos h.le]
    rfl
  have hseek : (s.reader.advance k h.le).seek = k := by
    show s.reader.seek + k = k
    rw [h.seek_eq, Nat.zero_add]
  have hassert : ((s.reader.advance k h.le).seek == k) = true := by simpa using hseek
  rw [enterBody, bind_ok htoss, bind_ok (modify_run ..), bind_ok (get_run _)]
  refine (bind_ok (assert_true hassert _)).trans ?_
  rw [bind_ok (modify_run ..)]
  rfl

theorem cut_cap (h : HeadDone T p₀ base cap sent k s) :
    (s.cut k h.le).reader.cap = cap - k := by
  show s.reader.cap - (s.reader.seek + k) = cap - k
  rw [h.cap_eq, h.seek_eq, Nat.zero_add]

/-- A message whose header section has been parsed is not at its end. -/
def BodyFollows (T : Target M) (p : Parser L M) : Prop :=
  ∃ paused q, Parser.feed T 0 [] p.resumeParsing = .ok paused q ∧ q.isBodyComplete = false

/-- With some of the buffer left, no read of the body fails for want of room. -/
theorem enterBody_room (h : HeadDone T p₀ base cap sent k s) (hlt : k < cap)
    (dests : List ℕ) (s' : Inbound L M) :
    (enterBody T k >>= fun _ => readBody T dests) s ≠ .error noRoom s' := by
  have hc : 0 < cap - k := by omega
  have hfits : Fits (cap - k) ((onParser (Parser.feed T 0 []) >>= fun _ => pure ()) >>=
      fun _ => readBody T dests : Act (Inbound L M) _) :=
    Fits.bind (Fits.bind (fits_onParser (feed_room T _ _)) fun _ => fits_pure _) fun _ =>
      readBody_fits T hc dests
  intro hrun
  rw [bind_run, enterBody_run h, ← bind_run] at hrun
  exact (Triple.error hfits (cut_cap h) hrun).2 rfl

/-- With none of the buffer left, a read of the body fails unless there is no body to read. -/
theorem enterBody_full (h : HeadDone T p₀ base cap sent cap s) (dests : List ℕ) :
    (∃ s', (enterBody T cap >>= fun _ => readBody T dests) s = .error noRoom s') ↔
      BodyFollows T s.parser ∧ ∃ dest ∈ dests, dest ≠ 0 := by
  have hcap : (s.cut cap h.le).reader.cap = 0 := by rw [cut_cap h, Nat.sub_self]
  have hfeed : (onParser (Parser.feed T 0 []) >>= fun _ => pure ()) (s.cut cap h.le) =
      match Parser.feed T 0 [] s.parser.resumeParsing with
      | .ok _ q => .ok () ((s.cut cap h.le).setParser q)
      | .error f q => .error f ((s.cut cap h.le).setParser q) := by
    rw [bind_run, onParser_run, show (s.cut cap h.le).parser = s.parser.resumeParsing from rfl]
    cases Parser.feed T 0 [] s.parser.resumeParsing with
    | ok paused q => rfl
    | error f q => rfl
  rw [bind_run, enterBody_run h, hfeed]
  constructor
  · rintro ⟨s', hrun⟩
    cases hq : Parser.feed T 0 [] s.parser.resumeParsing with
    | error f q =>
        rw [hq] at hrun
        cases hrun
        exact absurd hq (feed_room T 0 [] _ _)
    | ok paused q =>
        rw [hq] at hrun
        by_contra hnot
        have hidle : q.isBodyComplete = true ∨ ∀ dest ∈ dests, dest = 0 := by
          by_contra hneither
          push Not at hneither
          obtain ⟨hbody, hdests⟩ := hneither
          exact hnot ⟨⟨paused, q, hq, by simpa using hbody⟩, hdests⟩
        obtain ⟨results, hread⟩ :=
          readBody_idle T (s := (s.cut cap h.le).setParser q) dests hidle
        simp only [hread] at hrun
        cases hrun
  · rintro ⟨⟨paused, q, hq, hbody⟩, hdests⟩
    rw [hq]
    exact readBody_noRoom T (s := (s.cut cap h.le).setParser q) hcap hbody dests hdests

end enter

/-- What is buffered and what the peer will send. -/
def incoming (self : Inbound L M) : Bytes := self.reader.data ++ self.net.chunks.flatten

theorem reading_start {s : Inbound L M} (hseek : s.reader.seek = 0) {msg : M}
    (hp : s.parser = Parser.init msg) :
    Reading T s.parser s.reader.base s.reader.cap s.incoming 0 s ∧
      Running T s.reader.base L.init s.parser := by
  have hrun : Running T s.reader.base L.init s.parser := by
    rw [hp]
    exact ⟨rfl, rfl, fun _ h => (nomatch h), rfl, rfl⟩
  exact ⟨⟨rfl, rfl, hseek, rfl, Nat.zero_le _, rfl, L.init, L.inHead_init, hrun⟩, hrun⟩

theorem turnsLeft_start (s : Inbound L M) : turnsLeft 0 s + 2 ≤ s.headFuel := by
  unfold turnsLeft headFuel
  split <;> omega

/-- The bytes that fill the buffer decide about the header section; if they end with it, there
is no body, or it is not read. -/
structure HasRoom (T : Target M) (p₀ : Parser L M) (base cap : ℕ) (incoming : Bytes)
    (dests : List ℕ) : Prop where
  head : ¬Overlong T p₀ base cap incoming
  body : ∀ p, Fills T p₀ base cap incoming p → BodyFollows T p → ∀ dest ∈ dests, dest = 0

/-- **When reading a message runs out of room.** -/
theorem parseHead_room_iff (hT : T.Lawful) {s : Inbound L M} (hseek : s.reader.seek = 0) {msg : M}
    (hp : s.parser = Parser.init msg) (incomplete : Error) (dests : List ℕ) :
    (∀ s', (parseHead T incomplete >>= fun _ => readBody T dests) s ≠ .error noRoom s') ↔
      HasRoom T s.parser s.reader.base s.reader.cap s.incoming dests := by
  obtain ⟨hreading, hrunning⟩ := reading_start T hseek hp
  have hsplit : (parseHead T incomplete >>= fun _ => readBody T dests) s =
      (parseLoop T incomplete s.headFuel 0 >>= fun k =>
        enterBody T k >>= fun _ => readBody T dests) s := by
    unfold parseHead
    rw [bind_assoc, bind_ok (get_run s), bind_assoc]
  rw [hsplit]
  constructor
  · intro hroom
    refine ⟨fun hover => ?_, fun p hfills hbody dest hdest => ?_⟩
    · obtain ⟨s', hrun⟩ :=
        parseLoop_overlong hT hover incomplete s.headFuel hreading (turnsLeft_start s)
      exact hroom s' (bind_error hrun)
    · by_contra hne
      obtain ⟨s', hrun, hdone, hparser⟩ := parseLoop_full hT L.inHead_init hrunning hfills le_rfl
        incomplete s.headFuel hreading (turnsLeft_start s)
      obtain ⟨s'', hpanic⟩ :=
        (enterBody_full hdone dests).mpr ⟨hparser ▸ hbody, dest, hdest, hne⟩
      exact hroom s'' ((bind_ok hrun).trans hpanic)
  · intro h s' hrun
    have hspec := parseLoop_spec hT incomplete s.headFuel hreading
    rw [bind_run] at hrun
    cases hloop : parseLoop T incomplete s.headFuel 0 s with
    | error f s₁ =>
        rw [hloop] at hrun hspec
        cases hrun
        exact h.head (hspec rfl)
    | ok k s₁ =>
        rw [hloop] at hrun hspec
        simp only at hrun hspec
        have hle : k ≤ s.reader.cap := by
          have := hspec.le
          have := s₁.reader.fits
          have := hspec.cap_eq
          omega
        by_cases hlt : k < s.reader.cap
        · exact enterBody_room hspec hlt dests s' hrun
        · obtain rfl : k = s.reader.cap := by omega
          have hfull : s.reader.cap ≤ s₁.reader.data.length := hspec.le
          have hdata : s.incoming.take s.reader.cap = s₁.reader.data := by
            have hlen : s₁.reader.data.length = s.reader.cap := by
              have := s₁.reader.fits
              have := hspec.cap_eq
              omega
            rw [← hspec.stream_eq, ← hlen, List.take_left]
          obtain ⟨hbody, dest, hdest, hne⟩ := (enterBody_full hspec dests).mp ⟨s', hrun⟩
          refine hne (h.body s₁.parser ⟨?_, ?_, hspec.paused, hspec.errorPos⟩ hbody dest hdest)
          · rw [← hspec.stream_eq, List.length_append]
            omega
          · rw [hdata]
            exact hspec.parser_eq

/-- **When a server or a client runs out of room.**  A connection whose parser is at the start
of a message reads the header section and then, in any way, the body.  There is no call of
`fillMore` without room exactly when the bytes that fit into the buffer decide about the header
section and, in case they end with it, no byte of a body is asked for.  Neither side depends on
how the bytes are cut into reads. -/
theorem message_room_iff (L : Llhttp) (dests : List ℕ) :
    (∀ (s : Inbound L Request) (msg : Request), s.reader.seek = 0 → s.parser = Parser.init msg →
      ((∀ s', (parseHeaders >>= fun _ => readBody .request dests) s ≠ .error noRoom s') ↔
        HasRoom .request
          (Parser.init { msg with headers := .init msg.config.maxHeaderCount } : Parser L Request)
          s.reader.base s.reader.cap s.incoming dests)) ∧
    ∀ (s : Inbound L ParsedResponse) (msg : ParsedResponse), s.reader.seek = 0 →
      s.parser = Parser.init msg →
      ((∀ s', (parseResponseHeaders >>= fun _ => readBody .response dests) s ≠ .error noRoom s') ↔
        HasRoom .response (Parser.init msg : Parser L ParsedResponse) s.reader.base s.reader.cap
          s.incoming dests) := by
  constructor
  · intro s msg hseek hp
    let p : Parser L Request := .init { msg with headers := .init msg.config.maxHeaderCount }
    have hreset : s.parser.setMsg
        { s.parser.msg with headers := .init s.parser.msg.config.maxHeaderCount } = p := by
      rw [hp]
      rfl
    have hrun : (parseHeaders >>= fun _ => readBody .request dests) s =
        (parseHead .request .incompleteRequest >>= fun _ => readBody .request dests)
          (s.setParser p) := by
      unfold parseHeaders
      rw [bind_assoc, bind_ok (modify_run ..), hreset]
    rw [hrun]
    exact parseHead_room_iff .request Target.request_lawful (s := s.setParser p) hseek rfl
      .incompleteRequest dests
  · intro s msg hseek hp
    have h := parseHead_room_iff .response Target.response_lawful hseek hp .incompleteResponse dests
    rw [hp] at h
    exact h

/-- A connection on which nothing has happened yet. -/
def connected (L : Llhttp) (cap : ℕ) (chunks : List Bytes) : Inbound L Request :=
  { parser := .init {}, reader := .fresh cap, net := { chunks := chunks } }

theorem message_room_iff_sample : ∀ s',
    (parseHeaders >>= fun _ => readBody .request [3, 9])
      (connected (Http1.llhttp false) 64 [ascii "GET / HT", ascii "TP/1.1\r\n\r\n"]) ≠
        .error noRoom s' := by
  have h := (message_room_iff (Http1.llhttp false) [3, 9]).1
    (connected (Http1.llhttp false) 64 [ascii "GET / HT", ascii "TP/1.1\r\n\r\n"]) {} rfl rfl
  refine h.mpr ⟨fun hover => ?_, fun p hfills => ?_⟩
  · exact absurd hover.1 (by decide)
  · exact absurd hfills.1 (by decide)

/-- A header section that does not fit, and one that leaves no byte for its body. -/
theorem message_room_overrun :
    (∃ s', (parseHeaders >>= fun _ => readBody .request [])
      (connected (Http1.llhttp false) 16 [ascii "GET /0123456789a", ascii "b HTTP/1.1\r\n\r\n"]) =
        .error noRoom s') ∧
    ∃ s', (parseHeaders >>= fun _ => readBody .request [1])
      (connected (Http1.llhttp false) 37
        [ascii "PUT / HTTP/1.1\r\nContent-Length: 1\r\n\r\n", ascii "x"]) = .error noRoom s' :=
  ⟨faults_iff.mp (by decide +kernel), faults_iff.mp (by decide +kernel)⟩

end Inbound
end Dusty
