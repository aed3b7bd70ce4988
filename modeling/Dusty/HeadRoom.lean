import Dusty.ParserFeed
import Dusty.Reader

/-! # Room in the read buffer

The loop of `parseHeaders` keeps every byte of the header section in the buffer.  It asks for
more bytes than fit exactly when the bytes that fill the buffer leave the parser undecided
(`parseLoop_overlong`, `parseLoop_spec`), and it leaves no room for the body exactly when they
end with the header section (`parseLoop_full`).  Neither depends on how the bytes are cut into
reads. -/

namespace Dusty
namespace Inbound

open Act Dusty.Parser

variable {L : Llhttp} {M : Type} {T : Target M}

/-! ### One read -/

theorem fillMore_full {s : Inbound L M} (h : s.reader.cap ≤ s.reader.data.length) :
    fillMore s = .error (.panic .fillMoreCapacity) s := by
  rw [fillMore, bind_ok (get_run s), if_pos h]
  rfl

/-- With room behind the unread bytes they stay where they are. -/
theorem rebase_of_lt {r : Reader} (h : r.seek + r.data.length < r.cap) : r.rebase = r := by
  rw [Reader.rebase, if_pos h]

theorem fillMore_chunk {s : Inbound L M} (h : s.reader.seek + s.reader.data.length < s.reader.cap)
    {chunk : Bytes} {rest : List Bytes} (hnet : s.net.chunks = chunk :: rest) :
    fillMore s = .ok () (receive chunk rest s.awaits) := by
  have hroom : ¬s.reader.cap ≤ s.reader.data.length := by omega
  rw [fillMore, bind_ok (get_run s), if_neg hroom, bind_ok (modify_run ..), hnet]
  rfl

theorem fillMore_end {s : Inbound L M} (h : s.reader.seek + s.reader.data.length < s.reader.cap)
    (hnet : s.net.chunks = []) :
    ∃ e s', fillMore s = .error (.err e) s' := by
  have hroom : ¬s.reader.cap ≤ s.reader.data.length := by omega
  rw [fillMore, bind_ok (get_run s), if_neg hroom, bind_ok (modify_run ..), hnet]
  cases s.net.failure with
  | none => exact ⟨_, _, rfl⟩
  | some e => exact ⟨_, _, rfl⟩

/-- What a read does to the stream: nothing is lost, and less is left. -/
theorem receive_stream {s : Inbound L M} {chunk : Bytes} {rest : List Bytes}
    (hnet : s.net.chunks = chunk :: rest) :
    (receive chunk rest s).reader.data ++ (receive chunk rest s).net.chunks.flatten =
      s.reader.data ++ s.net.chunks.flatten := by
  rw [hnet]
  show (s.reader.data ++ chunk.take s.reader.room) ++ List.flatten (if _ then _ else _) = _
  split
  · case isTrue h => rw [List.take_of_length_le h, List.append_assoc, List.flatten_cons]
  · rw [List.flatten_cons, List.append_assoc, ← List.append_assoc (chunk.take _),
      List.take_append_drop, List.flatten_cons]

theorem receive_weight {s : Inbound L M} {chunk : Bytes} {rest : List Bytes}
    (hnet : s.net.chunks = chunk :: rest) (hroom : 0 < s.reader.room) :
    (receive chunk rest s).net.weight < s.net.weight := by
  have hs : s.net.weight = chunk.length + 1 + (rest.map fun c => c.length + 1).sum := by
    rw [Net.weight, hnet, List.map_cons, List.sum_cons]
  have hr : (receive chunk rest s).net.weight =
      ((if chunk.length ≤ s.reader.room then rest else chunk.drop s.reader.room :: rest).map
        fun c => c.length + 1).sum := rfl
  rw [hs, hr]
  split
  · omega
  · rw [List.map_cons, List.sum_cons, List.length_drop]
    omega

/-! ### What the buffer holds -/

/-- The parser has taken the first `n` bytes of the stream and wants more. -/
def Undecided (T : Target M) (p₀ : Parser L M) (base : ℕ) (stream : Bytes) (n : ℕ) : Prop :=
  ∃ p, eat T base (stream.take n) p₀ = .ok () p ∧ p.errno = none

theorem eat_take_add (T : Target M) (p₀ : Parser L M) (base : ℕ) (stream : Bytes) {n m : ℕ}
    (h : n ≤ m) :
    eat T base (stream.take m) p₀ = (eat T base (stream.take n) >>= fun _ =>
      eat T (base + (stream.take n).length) ((stream.take m).drop n)) p₀ := by
  have hsplit : stream.take m = stream.take n ++ (stream.take m).drop n := by
    have htake : stream.take n = (stream.take m).take n := by
      rw [List.take_take, Nat.min_eq_left h]
    rw [htake, List.take_append_drop]
  conv_lhs => rw [hsplit]
  rw [eat_append]

/-- A parser that wants more after some bytes wanted more before. -/
theorem Undecided.mono {p₀ : Parser L M} {base : ℕ} {stream : Bytes} {n m : ℕ} (h : n ≤ m)
    (hm : Undecided T p₀ base stream m) : Undecided T p₀ base stream n := by
  obtain ⟨p, hp, hnone⟩ := hm
  rw [eat_take_add T p₀ base stream h] at hp
  obtain ⟨u, q, hq, hrest⟩ := bind_eq_ok.mp hp
  refine ⟨q, hq, ?_⟩
  by_contra hstop
  rw [eat_stopped T hstop] at hrest
  cases hrest
  exact hstop hnone

/-- The loop is at `k` unparsed bytes of the stream, and the parser wants more. -/
structure Reading (T : Target M) (p₀ : Parser L M) (base cap : ℕ) (stream : Bytes) (k : ℕ)
    (s : Inbound L M) : Prop where
  base_eq : s.reader.base = base
  cap_eq : s.reader.cap = cap
  seek_eq : s.reader.seek = 0
  stream_eq : s.reader.data ++ s.net.chunks.flatten = stream
  le : k ≤ s.reader.data.length
  parser_eq : eat T base (s.reader.data.take k) p₀ = .ok () s.parser
  running : ∃ core, L.inHead core = true ∧ Running T (base + k) core s.parser

/-- The header section is over: it is the first `k` bytes of the buffer. -/
structure HeadDone (T : Target M) (p₀ : Parser L M) (base cap : ℕ) (stream : Bytes) (k : ℕ)
    (s : Inbound L M) : Prop where
  base_eq : s.reader.base = base
  cap_eq : s.reader.cap = cap
  seek_eq : s.reader.seek = 0
  stream_eq : s.reader.data ++ s.net.chunks.flatten = stream
  le : k ≤ s.reader.data.length
  parser_eq : eat T base s.reader.data p₀ = .ok () s.parser
  paused : s.parser.errno = some .paused
  errorPos : s.parser.errorPos = base + k
  head : s.parser.state.headersComplete = true

section loop
variable {p₀ : Parser L M} {base cap : ℕ} {stream : Bytes} {k : ℕ} {s : Inbound L M}

theorem Reading.take (h : Reading T p₀ base cap stream k s) {n : ℕ} (hn : n ≤ s.reader.data.length) :
    s.reader.data.take n = stream.take n := by
  rw [← h.stream_eq, List.take_append_of_le_length hn]

theorem Reading.full (h : Reading T p₀ base cap stream k s) : s.reader.data.length ≤ cap := by
  have := s.reader.fits
  have := h.seek_eq
  have := h.cap_eq
  omega

theorem feedUnparsed_run (h : Reading T p₀ base cap stream k s) :
    feedUnparsed T k (s.reader.data.drop k) s = match eat T base s.reader.data p₀ with
      | .error f p => .error f (s.setParser p)
      | .ok () p => match p.errno with
        | none => .ok (s.reader.data.length - k) (s.setParser p)
        | some .paused => .ok (p.errorPos - (base + k)) (s.setParser p)
        | some (.error e) => .error (.err (mapError e)) (s.setParser p) := by
  obtain ⟨core, -, hrun⟩ := h.running
  have hpos : s.reader.pos + k = base + k := by rw [Reader.pos, h.base_eq, h.seek_eq, Nat.add_zero]
  have heat : eat T base s.reader.data p₀ =
      execute T (base + k) (s.reader.data.drop k) s.parser := by
    have hlen : (s.reader.data.take k).length = k := List.length_take_of_le h.le
    conv_lhs => rw [← List.take_append_drop k s.reader.data]
    rw [eat_append, bind_ok h.parser_eq, execute_running T hrun, hlen]
  unfold feedUnparsed
  rw [bind_ok (get_run s), bind_run]
  unfold onParser zoom Parser.feed
  rw [hpos, heat, bind_run]
  cases execute T (base + k) (s.reader.data.drop k) s.parser with
  | error f p => rfl
  | ok u p =>
      simp only [bind_ok (get_run p)]
      cases herr : p.errno with
      | none =>
          simp only [pure_run]
          rw [bind_ok (get_run _), pure_run]
          simp [List.length_drop]
      | some halt =>
          cases halt with
          | paused =>
              simp only [pure_run]
              rw [bind_ok (get_run _), pure_run]
              rfl
          | error e => rfl

theorem Reading.drop_nil (h : Reading T p₀ base cap stream k s)
    (hnil : ¬(s.reader.data.drop k).length > 0) : k = s.reader.data.length := by
  have hle := h.le
  rw [List.length_drop] at hnil
  omega

theorem Reading.fed (h : Reading T p₀ base cap stream k s) {p : Parser L M}
    (hp : eat T base s.reader.data p₀ = .ok () p)
    (hrun : ∃ core, L.inHead core = true ∧ Running T (base + s.reader.data.length) core p) :
    Reading T p₀ base cap stream s.reader.data.length (s.setParser p) := by
  refine ⟨h.base_eq, h.cap_eq, h.seek_eq, h.stream_eq, le_rfl, ?_, hrun⟩
  show eat T base (s.reader.data.take s.reader.data.length) p₀ = _
  rw [List.take_length]
  exact hp

theorem Reading.received (h : Reading T p₀ base cap stream k s) {chunk : Bytes}
    {rest : List Bytes} (hnet : s.net.chunks = chunk :: rest)
    (hroom : s.reader.data.length < cap) :
    Reading T p₀ base cap stream k (receive chunk rest s.awaits) := by
  have hlt : s.reader.seek + s.reader.data.length < s.reader.cap := by
    have hseek := h.seek_eq
    have hcap := h.cap_eq
    omega
  have hrebase : s.awaits.reader = s.reader := rebase_of_lt hlt
  have hdata : (receive chunk rest s.awaits).reader.data =
      s.reader.data ++ chunk.take s.reader.room := by
    show s.awaits.reader.data ++ chunk.take s.awaits.reader.room = _
    rw [hrebase]
  refine ⟨?_, ?_, ?_, ?_, ?_, ?_, h.running⟩
  · show s.awaits.reader.base = base
    rw [hrebase, h.base_eq]
  · show s.awaits.reader.cap = cap
    rw [hrebase, h.cap_eq]
  · show s.awaits.reader.seek = 0
    rw [hrebase, h.seek_eq]
  · rw [receive_stream (s := s.awaits) hnet, hrebase]
    exact h.stream_eq
  · rw [hdata, List.length_append]
    exact Nat.le_add_right_of_le h.le
  · rw [hdata, List.take_append_of_le_length h.le]
    exact h.parser_eq

/-- What the loop finds out about the bytes it has: the parser wants more, the header section
is over, or there is an error. -/
theorem Reading.eat_cases (hT : T.Lawful) (h : Reading T p₀ base cap stream k s) :
    (∃ p, eat T base s.reader.data p₀ = .ok () p ∧
      (∃ core, L.inHead core = true ∧ Running T (base + s.reader.data.length) core p)) ∨
    (∃ p q, eat T base s.reader.data p₀ = .ok () p ∧ base + k ≤ q ∧
      q ≤ base + s.reader.data.length ∧ Stopped q p) ∨
    ∃ p, eat T base s.reader.data p₀ = .error (.panic .assertion) p := by
  obtain ⟨core, hcore, hrun⟩ := h.running
  have hle := h.le
  have hlen : (s.reader.data.take k).length = k := List.length_take_of_le hle
  have heat : eat T base s.reader.data p₀ =
      eat T (base + k) (s.reader.data.drop k) s.parser := by
    conv_lhs => rw [← List.take_append_drop k s.reader.data]
    rw [eat_append, bind_ok h.parser_eq, hlen]
  have hspec : Triple (Running T (base + k) core) (eat T (base + k) (s.reader.data.drop k)) _ _ :=
    eat_running hT (s.reader.data.drop k) hcore
  have hdrop : base + k + (s.reader.data.drop k).length = base + s.reader.data.length := by
    rw [List.length_drop]
    omega
  rw [hdrop] at hspec
  rw [heat]
  cases heq : eat T (base + k) (s.reader.data.drop k) s.parser with
  | ok u p =>
      rcases hspec.ok hrun heq with hrunning | ⟨q, hq, hq', hstop⟩
      · exact .inl ⟨p, rfl, hrunning⟩
      · exact .inr (.inl ⟨p, q, rfl, hq, hq', hstop⟩)
  | error f p =>
      obtain rfl := hspec.error hrun heq
      exact .inr (.inr ⟨p, rfl⟩)

/-! ### The loop -/

theorem parseLoop_done (h : s.parser.state.headersComplete = true) (incomplete : Error)
    (fuel : ℕ) : parseLoop T incomplete (fuel + 1) k s = .ok k s := by
  rw [parseLoop, bind_ok (get_run s), if_pos h]
  rfl

theorem Reading.head (h : Reading T p₀ base cap stream k s) :
    ¬s.parser.state.headersComplete = true := by
  obtain ⟨core, -, hrun⟩ := h.running
  simp [hrun.head]

theorem parseLoop_feed (h : Reading T p₀ base cap stream k s)
    (hlen : (s.reader.data.drop k).length > 0) (incomplete : Error) (fuel : ℕ) :
    parseLoop T incomplete (fuel + 1) k s = (feedUnparsed T k (s.reader.data.drop k) >>=
      fun taken => parseLoop T incomplete fuel (k + taken)) s := by
  rw [parseLoop, bind_ok (get_run s), if_neg h.head, if_pos hlen]

theorem parseLoop_fill (h : Reading T p₀ base cap stream k s)
    (hnil : ¬(s.reader.data.drop k).length > 0) (incomplete : Error) (fuel : ℕ) :
    parseLoop T incomplete (fuel + 1) k s = (endOfHead incomplete k fillMore >>=
      fun _ => parseLoop T incomplete fuel k) s := by
  rw [parseLoop, bind_ok (get_run s), if_neg h.head, if_neg hnil]

theorem endOfHead_chunk (h : Reading T p₀ base cap stream k s) {chunk : Bytes}
    {rest : List Bytes} (hnet : s.net.chunks = chunk :: rest)
    (hroom : s.reader.data.length < cap) (incomplete : Error) :
    endOfHead incomplete k fillMore s = .ok () (receive chunk rest s.awaits) := by
  have hlt : s.reader.seek + s.reader.data.length < s.reader.cap := by
    have hseek := h.seek_eq
    have hcap := h.cap_eq
    omega
  have hattempt : attempt fillMore s = .ok (.ok ()) (receive chunk rest s.awaits) := by
    rw [attempt, fillMore_chunk hlt hnet]
  rw [endOfHead, bind_ok hattempt]
  rfl

theorem endOfHead_end (h : Reading T p₀ base cap stream k s) (hnet : s.net.chunks = [])
    (hroom : s.reader.data.length < cap) (incomplete : Error) :
    ∃ e s', endOfHead incomplete k fillMore s = .error (.err e) s' := by
  have hlt : s.reader.seek + s.reader.data.length < s.reader.cap := by
    have hseek := h.seek_eq
    have hcap := h.cap_eq
    omega
  obtain ⟨e, s', hfill⟩ := fillMore_end hlt hnet
  have hattempt : attempt fillMore s = .ok (.error e) s' := by rw [attempt, hfill]
  rw [endOfHead, bind_ok hattempt]
  cases e <;> exact ⟨_, _, rfl⟩

theorem endOfHead_full (h : Reading T p₀ base cap stream k s)
    (hfull : cap ≤ s.reader.data.length) (incomplete : Error) :
    endOfHead incomplete k fillMore s = .error (.panic .fillMoreCapacity) s := by
  have hcap : s.reader.cap ≤ s.reader.data.length := by
    rw [h.cap_eq]
    exact hfull
  have hattempt : attempt fillMore s = .error (.panic .fillMoreCapacity) s := by
    rw [attempt, fillMore_full hcap]
  rw [endOfHead, bind_error hattempt]

/-- Everything that fits into the buffer leaves the parser undecided. -/
def Overlong (T : Target M) (p₀ : Parser L M) (base cap : ℕ) (stream : Bytes) : Prop :=
  cap ≤ stream.length ∧ Undecided T p₀ base stream cap

/-- A buffer that is full holds the first bytes of the stream. -/
theorem Reading.take_cap (h : Reading T p₀ base cap stream k s)
    (hfull : cap ≤ s.reader.data.length) :
    cap ≤ stream.length ∧ stream.take cap = s.reader.data := by
  have hlen : s.reader.data.length = cap := le_antisymm h.full hfull
  have hstream := h.stream_eq
  refine ⟨?_, ?_⟩
  · rw [← hstream, List.length_append]
    omega
  · have htake := h.take le_rfl
    rw [List.take_length, hlen] at htake
    exact htake.symm

/-- The header section ends where the parser paused. -/
theorem Reading.done (h : Reading T p₀ base cap stream k s) {p : Parser L M} {q : ℕ}
    (hp : eat T base s.reader.data p₀ = .ok () p) (hq : base + k ≤ q)
    (hq' : q ≤ base + s.reader.data.length) (hstop : Stopped q p)
    (hpaused : p.errno = some .paused) :
    HeadDone T p₀ base cap stream (k + (p.errorPos - (base + k))) (s.setParser p) := by
  have herr := hstop.errorPos
  refine ⟨h.base_eq, h.cap_eq, h.seek_eq, h.stream_eq, ?_, hp, hpaused, ?_, hstop.paused hpaused⟩
  · show k + (p.errorPos - (base + k)) ≤ s.reader.data.length
    omega
  · show p.errorPos = base + (k + (p.errorPos - (base + k)))
    omega

/-- **What the loop can come to.**  It asks for more than the buffer can take only when the
buffer is full of bytes that leave the parser undecided. -/
theorem parseLoop_spec (hT : T.Lawful) (incomplete : Error) (fuel : ℕ)
    (h : Reading T p₀ base cap stream k s) :
    match parseLoop T incomplete fuel k s with
    | .ok k' s' => HeadDone T p₀ base cap stream k' s'
    | .error f _ => f = .panic .fillMoreCapacity → Overlong T p₀ base cap stream := by
  induction fuel generalizing k s with
  | zero =>
      intro hf
      cases hf
  | succ fuel ih =>
      by_cases hlen : (s.reader.data.drop k).length > 0
      · rw [parseLoop_feed h hlen, bind_run, feedUnparsed_run h]
        rcases h.eat_cases hT with ⟨p, hp, hrun⟩ | ⟨p, q, hp, hq, hq', hstop⟩ | ⟨p, hp⟩
        · obtain ⟨core, hcore, hrun'⟩ := hrun
          have hk : k + (s.reader.data.length - k) = s.reader.data.length := by
            have := h.le
            omega
          simp only [hp, hrun'.errno, hk]
          exact ih (h.fed hp ⟨core, hcore, hrun'⟩)
        · simp only [hp]
          cases herr : p.errno with
          | none => exact absurd herr hstop.errno
          | some halt =>
              cases halt with
              | error e =>
                  intro hf
                  cases hf
              | paused =>
                  have hdone := h.done hp hq hq' hstop herr
                  simp only
                  cases fuel with
                  | zero =>
                      intro hf
                      cases hf
                  | succ fuel =>
                      rw [parseLoop_done hdone.head]
                      exact hdone
        · simp only [hp]
          intro hf
          cases hf
      · rw [parseLoop_fill h hlen, bind_run]
        by_cases hfull : cap ≤ s.reader.data.length
        · rw [endOfHead_full h hfull]
          intro _
          obtain ⟨hcap, htake⟩ := h.take_cap hfull
          obtain ⟨core, -, hrun⟩ := h.running
          refine ⟨hcap, s.parser, ?_, hrun.errno⟩
          have hparser := h.parser_eq
          rwa [h.drop_nil hlen, List.take_length, ← htake] at hparser
        · have hroom : s.reader.data.length < cap := by omega
          cases hnet : s.net.chunks with
          | nil =>
              obtain ⟨e, s', hend⟩ := endOfHead_end h hnet hroom incomplete
              rw [hend]
              intro hf
              cases hf
          | cons chunk rest =>
              rw [endOfHead_chunk h hnet hroom]
              exact ih (h.received hnet hroom)

/-- How many turns the loop has left. -/
def turnsLeft (k : ℕ) (s : Inbound L M) : ℕ :=
  2 * s.net.weight + if k < s.reader.data.length then 1 else 0

/-- While the buffer does not hold all of it, the stream has more to send. -/
theorem Reading.more (h : Reading T p₀ base cap stream k s) {n : ℕ} (hn : n ≤ stream.length)
    (hroom : s.reader.data.length < n) : ∃ chunk rest, s.net.chunks = chunk :: rest := by
  cases hnet : s.net.chunks with
  | nil =>
      have hstream := h.stream_eq
      rw [hnet, List.flatten_nil, List.append_nil] at hstream
      rw [← hstream] at hn
      omega
  | cons chunk rest => exact ⟨chunk, rest, rfl⟩

theorem turnsLeft_fed (hlen : (s.reader.data.drop k).length > 0) (p : Parser L M) :
    turnsLeft s.reader.data.length (s.setParser p) < turnsLeft k s := by
  rw [List.length_drop] at hlen
  have hlt : k < s.reader.data.length := by omega
  show 2 * s.net.weight + (if s.reader.data.length < s.reader.data.length then 1 else 0) <
    2 * s.net.weight + if k < s.reader.data.length then 1 else 0
  rw [if_pos hlt, if_neg (lt_irrefl _)]
  omega

theorem Reading.turnsLeft_received (h : Reading T p₀ base cap stream k s) {chunk : Bytes}
    {rest : List Bytes} (hnet : s.net.chunks = chunk :: rest)
    (hroom : s.reader.data.length < cap) :
    turnsLeft k (receive chunk rest s.awaits) < turnsLeft k s := by
  have hlt : s.reader.seek + s.reader.data.length < s.reader.cap := by
    have hseek := h.seek_eq
    have hcap := h.cap_eq
    omega
  have hroom' : 0 < s.awaits.reader.room := by
    rw [show s.awaits.reader = s.reader from rebase_of_lt hlt, Reader.room]
    omega
  have hweight : (receive chunk rest s.awaits).net.weight < s.net.weight :=
    receive_weight hnet hroom'
  unfold turnsLeft
  split <;> split <;> omega

theorem Reading.undecided (hT : T.Lawful) (h : Reading T p₀ base cap stream k s)
    (hmore : Undecided T p₀ base stream s.reader.data.length) :
    ∃ p, eat T base s.reader.data p₀ = .ok () p ∧ p.errno = none ∧
      ∃ core, L.inHead core = true ∧ Running T (base + s.reader.data.length) core p := by
  have htake := h.take le_rfl
  rw [List.take_length] at htake
  obtain ⟨p, hp, hnone⟩ := hmore
  rw [← htake] at hp
  refine ⟨p, hp, hnone, ?_⟩
  rcases h.eat_cases hT with ⟨p', hp', hrun⟩ | ⟨p', q, hp', -, -, hstop⟩ | ⟨p', hp'⟩
  · rw [hp] at hp'
    cases hp'
    exact hrun
  · rw [hp] at hp'
    cases hp'
    exact absurd hnone hstop.errno
  · rw [hp] at hp'
    cases hp'

/-- A turn that feeds bytes which leave the parser undecided. -/
theorem parseLoop_undecided (hT : T.Lawful) (h : Reading T p₀ base cap stream k s)
    (hlen : (s.reader.data.drop k).length > 0)
    (hmore : Undecided T p₀ base stream s.reader.data.length) (incomplete : Error) (fuel : ℕ) :
    ∃ p, Reading T p₀ base cap stream s.reader.data.length (s.setParser p) ∧
      parseLoop T incomplete (fuel + 1) k s =
        parseLoop T incomplete fuel s.reader.data.length (s.setParser p) := by
  obtain ⟨p, hp, hnone, hrun⟩ := h.undecided hT hmore
  refine ⟨p, h.fed hp hrun, ?_⟩
  have hk : k + (s.reader.data.length - k) = s.reader.data.length := by
    have := h.le
    omega
  rw [parseLoop_feed h hlen, bind_run, feedUnparsed_run h]
  simp only [hp, hnone, hk]

/-- As long as the parser is undecided the loop reads. -/
theorem parseLoop_fills (hT : T.Lawful) {n : ℕ} (hn : n ≤ stream.length) (hcap : n ≤ cap)
    (hmore : ∀ m < n, Undecided T p₀ base stream m) (incomplete : Error) (fuel : ℕ)
    (h : Reading T p₀ base cap stream k s) (hfuel : turnsLeft k s + 2 ≤ fuel) :
    ∃ fuel' k' s', Reading T p₀ base cap stream k' s' ∧ n ≤ s'.reader.data.length ∧
      parseLoop T incomplete fuel k s = parseLoop T incomplete (fuel' + 2) k' s' := by
  induction fuel generalizing k s with
  | zero => omega
  | succ fuel ih =>
      by_cases hfull : n ≤ s.reader.data.length
      · have hfuel' : fuel - 1 + 2 = fuel + 1 := by omega
        exact ⟨fuel - 1, k, s, h, hfull, by rw [hfuel']⟩
      · have hroom : s.reader.data.length < n := by omega
        by_cases hlen : (s.reader.data.drop k).length > 0
        · obtain ⟨p, hfed, hrun⟩ := parseLoop_undecided hT h hlen (hmore _ hroom) incomplete fuel
          rw [hrun]
          apply ih hfed
          have := turnsLeft_fed hlen p
          omega
        · obtain ⟨chunk, rest, hnet⟩ := h.more hn hroom
          have hroom' : s.reader.data.length < cap := by omega
          rw [parseLoop_fill h hlen, bind_ok (endOfHead_chunk h hnet hroom' incomplete)]
          apply ih (h.received hnet hroom')
          have := h.turnsLeft_received hnet hroom'
          omega

/-- **A header section that does not fit** makes the loop ask for more than the buffer can
take. -/
theorem parseLoop_overlong (hT : T.Lawful) (hover : Overlong T p₀ base cap stream)
    (incomplete : Error) (fuel : ℕ) (h : Reading T p₀ base cap stream k s)
    (hfuel : turnsLeft k s + 2 ≤ fuel) :
    ∃ s', parseLoop T incomplete fuel k s = .error (.panic .fillMoreCapacity) s' := by
  have hmore : ∀ n ≤ cap, Undecided T p₀ base stream n := fun n hn => hover.2.mono hn
  obtain ⟨fuel', k', s', h', hfull, hrun⟩ :=
    parseLoop_fills hT hover.1 le_rfl (fun n hn => hmore n hn.le) incomplete fuel h hfuel
  rw [hrun]
  by_cases hlen : (s'.reader.data.drop k').length > 0
  · obtain ⟨p, hfed, hrun'⟩ :=
      parseLoop_undecided hT h' hlen (hmore _ h'.full) incomplete (fuel' + 1)
    have hnil : ¬((s'.setParser p).reader.data.drop s'.reader.data.length).length > 0 := by
      rw [show (s'.setParser p).reader = s'.reader from rfl, List.drop_length]
      simp
    rw [hrun', parseLoop_fill hfed hnil, bind_error (endOfHead_full hfed hfull incomplete)]
    exact ⟨_, rfl⟩
  · rw [parseLoop_fill h' hlen, bind_error (endOfHead_full h' hfull incomplete)]
    exact ⟨_, rfl⟩

/-- The bytes that fill the buffer end with the header section. -/
def Fills (T : Target M) (p₀ : Parser L M) (base cap : ℕ) (stream : Bytes) (p : Parser L M) : Prop :=
  cap ≤ stream.length ∧ eat T base (stream.take cap) p₀ = .ok () p ∧ p.errno = some .paused ∧
    p.errorPos = base + cap

/-- Before its last byte a header section is undecided. -/
theorem Fills.undecided (hT : T.Lawful) {core₀ : L.State} (hcore : L.inHead core₀ = true)
    (hstart : Running T base core₀ p₀) {n : ℕ} {p : Parser L M} (h : Fills T p₀ base n stream p)
    {m : ℕ} (hm : m < n) : Undecided T p₀ base stream m := by
  obtain ⟨hn, hp, hpaused, herr⟩ := h
  rw [eat_take_add T p₀ base stream hm.le] at hp
  obtain ⟨u, q, hq, hrest⟩ := bind_eq_ok.mp hp
  refine ⟨q, hq, ?_⟩
  by_contra hstop
  rw [eat_stopped T hstop] at hrest
  cases hrest
  rcases (eat_running hT (stream.take m) hcore).ok hstart hq with ⟨core, -, hrun⟩ | ⟨r, -, hr, hstopped⟩
  · exact hstop hrun.errno
  · have hlen : (stream.take m).length ≤ m := List.length_take_le _ _
    have := hstopped.errorPos
    omega

/-- A parser stops at the same place whatever follows. -/
theorem eat_stops {p p' : Parser L M} {n m : ℕ} (hp : eat T base (stream.take n) p₀ = .ok () p)
    (hstop : p.errno ≠ none) (hp' : eat T base (stream.take m) p₀ = .ok () p')
    (hstop' : p'.errno ≠ none) : p' = p := by
  have hlonger : ∀ {n m : ℕ} {p p' : Parser L M}, n ≤ m →
      eat T base (stream.take n) p₀ = .ok () p → p.errno ≠ none →
      eat T base (stream.take m) p₀ = .ok () p' → p' = p := by
    intro n m p p' hle hp hstop hp'
    rw [eat_take_add T p₀ base stream hle, bind_ok hp, eat_stopped T hstop] at hp'
    cases hp'
    rfl
  rcases le_total n m with hle | hle
  · exact hlonger hle hp hstop hp'
  · exact (hlonger hle hp' hstop' hp).symm

/-- **A header section that fits into the buffer** is taken as a whole. -/
theorem parseLoop_full (hT : T.Lawful) {core₀ : L.State} (hcore : L.inHead core₀ = true)
    (hstart : Running T base core₀ p₀) {n : ℕ} {p : Parser L M}
    (hfills : Fills T p₀ base n stream p) (hcap : n ≤ cap)
    (incomplete : Error) (fuel : ℕ) (h : Reading T p₀ base cap stream k s)
    (hfuel : turnsLeft k s + 2 ≤ fuel) :
    ∃ s', parseLoop T incomplete fuel k s = .ok n s' ∧
      HeadDone T p₀ base cap stream n s' ∧ s'.parser = p := by
  obtain ⟨fuel', k', s', h', hfull, hrun⟩ := parseLoop_fills hT hfills.1 hcap
    (fun m hm => hfills.undecided hT hcore hstart hm) incomplete fuel h hfuel
  obtain ⟨-, hp, hpaused, herr⟩ := hfills
  have hstop : p.errno ≠ none := by simp [hpaused]
  have hdata : stream.take s'.reader.data.length = s'.reader.data := by
    have := h'.take le_rfl
    rwa [List.take_length, eq_comm] at this
  have hall : eat T base s'.reader.data p₀ = .ok () p := by
    rw [← hdata, eat_take_add T p₀ base stream hfull, bind_ok hp, eat_stopped T hstop]
  by_cases hlen : (s'.reader.data.drop k').length > 0
  · rcases h'.eat_cases hT with ⟨p', hp', core, -, hrun'⟩ | ⟨p', q, hp', hq, hq', hstopped⟩ | ⟨p', hp'⟩
    · rw [hall] at hp'
      cases hp'
      exact absurd hpaused (by simp [hrun'.errno])
    · rw [hall] at hp'
      cases hp'
      have hpos := hstopped.errorPos
      have hk : k' + (p.errorPos - (base + k')) = n := by omega
      have hdone := h'.done hall hq hq' hstopped hpaused
      rw [hk] at hdone
      refine ⟨s'.setParser p, ?_, hdone, rfl⟩
      rw [hrun, parseLoop_feed h' hlen, bind_run, feedUnparsed_run h']
      simp only [hall, hpaused, hk]
      exact parseLoop_done hdone.head incomplete fuel'
    · rw [hall] at hp'
      cases hp'
  · have hparser := h'.parser_eq
    rw [h'.drop_nil hlen, List.take_length, hall] at hparser
    cases hparser
    obtain ⟨core, -, hrun'⟩ := h'.running
    exact absurd hpaused (by simp [hrun'.errno])

end loop

end Inbound
end Dusty
