import Dusty.Decimals
import Dusty.Http1
import Dusty.Releases

/-! # How long a connection may be idle

The timeout of a `Keep-Alive` header is in seconds.  `Connection.release` takes it for milliseconds, so that
`acquire` hands the connection out for a thousandth of the time (`idle_timeout_iff`). -/

namespace Dusty

open Act

/-! ### The header -/

/-- Blanks and tabs. -/
def Blank (s : Bytes) : Prop := ∀ b ∈ s, b = 32 ∨ b = 9

theorem trimBlanks_around {lead s trail : Bytes} (hlead : Blank lead) (htrail : Blank trail) (hne : s ≠ [])
    (hs : ∀ b ∈ s, b ≠ 32 ∧ b ≠ 9) : trimBlanks (lead ++ (s ++ trail)) = s := by
  have hblank : ∀ {t : Bytes}, Blank t → ∀ b ∈ t, (b == 32 || b == 9) = true := by
    intro t ht b hb
    rcases ht b hb with rfl | rfl <;> rfl
  have hkeep : ∀ {t : Bytes} (rest : Bytes), t ≠ [] → (∀ b ∈ t, b ≠ 32 ∧ b ≠ 9) →
      (t ++ rest).dropWhile (fun c => c == 32 || c == 9) = t ++ rest := by
    intro t rest hne ht
    cases t with
    | nil => exact absurd rfl hne
    | cons b t =>
        obtain ⟨hblank, htab⟩ := ht b List.mem_cons_self
        exact List.dropWhile_cons_of_neg (by rw [beq_false_of_ne hblank, beq_false_of_ne htab]; decide)
  have hrev : ∀ b ∈ s.reverse, b ≠ 32 ∧ b ≠ 9 := fun b hb => hs b (List.mem_reverse.mp hb)
  unfold trimBlanks
  simp only
  rw [List.dropWhile_append_of_pos (hblank hlead), hkeep trail hne hs, List.reverse_append,
    List.dropWhile_append_of_pos fun b hb => hblank htrail b (List.mem_reverse.mp hb)]
  have hdrop := hkeep [] (mt List.reverse_eq_nil_iff.mp hne) hrev
  rw [List.append_nil] at hdrop
  rw [hdrop, List.reverse_reverse]

/-- One parameter of the header, blanks around it, is `timeout=` with these digits; the others are something
else. -/
def GivesTimeout (value digits : Bytes) : Prop :=
  ∃ before after lead trail,
    splitScalar value 44 = before ++ (lead ++ ((ascii "timeout=" ++ digits) ++ trail)) :: after ∧
    Blank lead ∧ Blank trail ∧ digits ≠ [] ∧ Digits digits ∧
    ∀ part ∈ after, ¬ascii "timeout=" <+: trimBlanks part

/-- The loop of `parseKeepAliveHeader`. -/
def keepAliveStep (params : KeepAliveParams) (part : Bytes) : KeepAliveParams :=
  let trimmed := trimBlanks part
  if ascii "timeout=" <+: trimmed then { params with timeout := parseInt u32Bound 10 (trimmed.drop 8) }
  else if ascii "max=" <+: trimmed then { params with max := parseInt u32Bound 10 (trimmed.drop 4) }
  else params

theorem parseKeepAliveHeader_eq (value : Bytes) :
    parseKeepAliveHeader value = (splitScalar value 44).foldl keepAliveStep {} := rfl

theorem foldl_timeout {parts : List Bytes} (h : ∀ part ∈ parts, ¬ascii "timeout=" <+: trimBlanks part)
    (params : KeepAliveParams) : (parts.foldl keepAliveStep params).timeout = params.timeout := by
  induction parts generalizing params with
  | nil => rfl
  | cons part parts ih =>
      rw [List.foldl_cons, ih fun p hp => h p (List.mem_cons_of_mem part hp)]
      unfold keepAliveStep
      simp only
      rw [if_neg (h part List.mem_cons_self)]
      split <;> rfl

/-- **The timeout that is read**: the number, if it fits into 32 bits. -/
theorem GivesTimeout.timeout {value digits : Bytes} (h : GivesTimeout value digits) :
    (parseKeepAliveHeader value).timeout =
      if decimalFrom 0 digits < u32Bound then some (decimalFrom 0 digits) else none := by
  obtain ⟨before, after, lead, trail, hsplit, hlead, htrail, hne, hdigits, hafter⟩ := h
  have hname : ∀ b ∈ ascii "timeout=", b ≠ 32 ∧ b ≠ 9 := by decide
  have htrim : trimBlanks (lead ++ ((ascii "timeout=" ++ digits) ++ trail)) = ascii "timeout=" ++ digits := by
    refine trimBlanks_around hlead htrail (List.append_ne_nil_of_right_ne_nil _ hne) fun b hb => ?_
    rcases List.mem_append.mp hb with hb | hb
    · exact hname b hb
    · have hlow := (hdigits b hb).1
      constructor <;>
      · rintro rfl
        revert hlow
        decide
  have hdrop : (ascii "timeout=" ++ digits).drop 8 = digits := List.drop_left' rfl
  have hparse : parseInt u32Bound 10 (digits ++ []) = _ :=
    parseInt_digits (by decide) hne hdigits fun b hb => absurd hb List.not_mem_nil
  rw [List.append_nil] at hparse
  rw [parseKeepAliveHeader_eq, hsplit, List.foldl_append, List.foldl_cons, foldl_timeout hafter]
  unfold keepAliveStep
  simp only
  rw [htrim, if_pos (List.prefix_append _ _), hdrop]
  show parseInt u32Bound 10 digits = _
  rw [hparse]
  by_cases hlt : decimalFrom 0 digits < u32Bound
  · rw [if_pos hlt, if_pos ⟨hlt, rfl⟩]
  · rw [if_neg hlt, if_neg fun hand => hlt hand.1]

namespace ClientConnection

variable {L : Llhttp}

/-- The header was on the first response of the connection: it is there, or it was read then. -/
inductive Announced (value : Bytes) (conn : ClientConnection L) : Prop
  | first (hcount : conn.requestCount = 0) (hdeadline : conn.idleDeadline = none)
      (hheader : conn.parsedResponse.headers.get (ascii "Keep-Alive") = some value)
  | later (hcount : conn.requestCount ≠ 0) (hdeadline : conn.keepAlive.timeout = none → conn.idleDeadline = none)
      (hread : conn.keepAlive = parseKeepAliveHeader value)

end ClientConnection

namespace Client

variable {L : Llhttp}

open ClientConnection

theorem Filed.announced {now : ℕ} {value : Bytes} {conn fresh : ClientConnection L} (hfiled : Filed now conn fresh)
    (h : Announced value conn) :
    fresh.keepAlive = parseKeepAliveHeader value ∧ (fresh.keepAlive.timeout = none → conn.idleDeadline = none) := by
  have hread := hfiled.read
  cases h with
  | first hzero hnone hheader =>
      rw [if_pos (by omega), hheader] at hread
      exact ⟨hread, fun _ => hnone⟩
  | later hpos hnone hkept =>
      rw [if_neg (by omega)] at hread
      exact ⟨hread.trans hkept, fun htimeout => hnone (hread ▸ htimeout)⟩

/-- The connection as it stands in the pool. -/
structure Parked (value : Bytes) (released : ℕ) (conn fresh : ClientConnection L) : Prop where
  id : fresh.id = conn.id
  count : fresh.requestCount ≠ 0
  read : fresh.keepAlive = parseKeepAliveHeader value
  deadline : fresh.idleDeadline = (parseKeepAliveHeader value).timeout.map fun timeout => released + timeout * 1000000

/-- **A release** that puts the connection into the pool. -/
theorem release_parks {value : Bytes} {conn : ClientConnection L} {self self' : Client L} (h : Announced value conn)
    (hrelease : release conn self = .ok () self') (hpooled : self'.pool.enlisted ≠ self.pool.enlisted) :
    ∃ fresh before, self'.pool.idle = before ++ [fresh] ∧ Parked value (self.clock self.ticks) conn fresh := by
  obtain ⟨hsettled, -, -⟩ := release_ok hrelease
  cases hsettled with
  | destroyed hidle henlisted => exact absurd henlisted hpooled
  | filed released fresh hid hfiled hpool =>
      obtain ⟨hread, hnone⟩ := hfiled.announced h
      have hcount := hfiled.count
      have hdeadline := hfiled.deadline
      refine ⟨fresh, _, congrArg ConnectionPool.idle hpool, hfiled.id, by omega, hread, ?_⟩
      rw [hdeadline, ← hread]
      cases htimeout : fresh.keepAlive.timeout with
      | none => exact hnone htimeout
      | some timeout => rfl

end Client

namespace ConnectionPool

variable {L : Llhttp}

/-- **The search** takes the first connection that is wanted, or closes it if it has expired. -/
theorem search_reaches {now : ℕ} {wanted : ClientConnection L → Bool} {before after : List (ClientConnection L)}
    {conn : ClientConnection L} (hbefore : ∀ d ∈ before, wanted d = true → expired now d = true)
    (hwanted : wanted conn = true) :
    (expired now conn = false → (search now wanted (before ++ conn :: after)).1 = some conn) ∧
      (expired now conn = true → conn ∈ (search now wanted (before ++ conn :: after)).2.1) := by
  induction before with
  | nil =>
      show _ ∧ (_ → conn ∈ (search now wanted (conn :: after)).2.1)
      unfold search
      rw [if_pos hwanted]
      constructor
      · intro hfresh
        show (search now wanted (conn :: after)).1 = _
        unfold search
        rw [if_pos hwanted, hfresh]
        rfl
      · intro hexpired
        rw [if_pos hexpired]
        exact List.mem_cons_self
  | cons d before ih =>
      obtain ⟨hfound, hgone⟩ := ih fun e he => hbefore e (List.mem_cons_of_mem d he)
      show (_ → (search now wanted (d :: (before ++ conn :: after))).1 = _) ∧
        (_ → conn ∈ (search now wanted (d :: (before ++ conn :: after))).2.1)
      unfold search
      by_cases hd : wanted d = true
      · rw [if_pos hd, if_pos (hbefore d List.mem_cons_self hd)]
        exact ⟨hfound, fun hexpired => List.mem_cons_of_mem d (hgone hexpired)⟩
      · rw [if_neg hd]
        exact ⟨hfound, hgone⟩

/-- The connection is idle, and `acquire` comes to it before any other that it can hand out. -/
structure NextFor (pool : ConnectionPool L) (now : ℕ) (wanted : ClientConnection L → Bool)
    (conn : ClientConnection L) : Prop where
  serves : wanted conn = true
  idle : ∃ older newer, pool.idle = older ++ conn :: newer ∧ ∀ d ∈ newer, wanted d = true → expired now d = true

theorem NextFor.acquire {pool : ConnectionPool L} {now : ℕ} {wanted : ClientConnection L → Bool}
    {conn : ClientConnection L} (h : pool.NextFor now wanted conn) :
    ((pool.acquire now wanted).1 = some conn ↔ expired now conn = false) ∧
      (expired now conn = true → conn.id ∈ (pool.acquire now wanted).2.destroyed) := by
  obtain ⟨older, newer, hidle, hnewer⟩ := h.idle
  have hrev : pool.idle.reverse = newer.reverse ++ conn :: older.reverse := by
    rw [hidle, List.reverse_append, List.reverse_cons, List.append_assoc]
    rfl
  obtain ⟨hfound, hgone⟩ := @search_reaches L now wanted newer.reverse older.reverse conn
    (fun d hd => hnewer d (List.mem_reverse.mp hd)) h.serves
  rw [← hrev] at hfound hgone
  refine ⟨⟨fun hsome => ?_, hfound⟩, fun hexpired => ?_⟩
  · obtain ⟨-, -, -, -, hfresh, -⟩ := search_eq_some (c := conn) hsome
    exact hfresh
  · rw [acquire_eq_take, foldl_destroy]
    exact List.mem_append_right _ (List.mem_map.mpr ⟨conn, hgone hexpired, rfl⟩)

/-- `acquire` hands the connection out before the time and closes it from then on. -/
structure TimesOut (pool : ConnectionPool L) (now limit : ℕ) (wanted : ClientConnection L → Bool)
    (conn : ClientConnection L) : Prop where
  handed : (pool.acquire now wanted).1 = some conn ↔ now < limit
  closed : limit ≤ now → conn.id ∈ (pool.acquire now wanted).2.destroyed

end ConnectionPool

namespace Client

variable {L : Llhttp}

open ClientConnection ConnectionPool

/-- **The idle timeout.**  A response releases its connection, the first of which gave the timeout.  The
connection is handed out for the seconds of the timeout, and closed from then on, exactly if it is asked for
before the milliseconds have passed or when the seconds have; a timeout that does not fit into 32 bits never
ends. -/
theorem idle_timeout_iff {value digits : Bytes} (hgives : GivesTimeout value digits) {conn : ClientConnection L}
    {self self' : Client L} (h : Announced value conn) (hrelease : release conn self = .ok () self')
    (hpooled : self'.pool.enlisted ≠ self.pool.enlisted) :
    ∃ fresh before, self'.pool.idle = before ++ [fresh] ∧ fresh.id = conn.id ∧
      (∀ inbound writer, Announced value ((fresh.setInbound inbound).setWriter writer)) ∧
      ∀ pool now wanted, NextFor pool now wanted fresh →
        (TimesOut pool now (self.clock self.ticks + decimalFrom 0 digits * 1000000000) wanted fresh ↔
          if decimalFrom 0 digits < u32Bound then
            now < self.clock self.ticks + decimalFrom 0 digits * 1000000 ∨
              self.clock self.ticks + decimalFrom 0 digits * 1000000000 ≤ now
          else now < self.clock self.ticks + decimalFrom 0 digits * 1000000000) := by
  obtain ⟨fresh, before, hidle, hparked⟩ := release_parks h hrelease hpooled
  refine ⟨fresh, before, hidle, hparked.id, ?_, ?_⟩
  · intro inbound writer
    refine .later hparked.count (fun hnone => ?_) hparked.read
    have hnone' : (parseKeepAliveHeader value).timeout = none := hparked.read ▸ hnone
    show fresh.idleDeadline = none
    rw [hparked.deadline, hnone']
    rfl
  · intro pool now wanted hnext
    obtain ⟨hhanded, hclosed⟩ := hnext.acquire
    have hdeadline := hparked.deadline
    rw [hgives.timeout] at hdeadline
    by_cases hlt : decimalFrom 0 digits < u32Bound
    · have hexpired : expired now fresh = true ↔ self.clock self.ticks + decimalFrom 0 digits * 1000000 ≤ now := by
        unfold expired
        rw [hdeadline, if_pos hlt]
        exact decide_eq_true_iff
      rw [if_pos hlt]
      rw [← Bool.not_eq_true, hexpired] at hhanded
      rw [hexpired] at hclosed
      constructor
      · rintro ⟨hsome, -⟩
        have hboth := hhanded.symm.trans hsome
        omega
      · have hscale : decimalFrom 0 digits * 1000000 ≤ decimalFrom 0 digits * 1000000000 :=
          Nat.mul_le_mul_left _ (by decide)
        rintro (hearly | hlate)
        · refine ⟨iff_of_true (hhanded.mpr (Nat.not_le.mpr hearly)) ?_, fun hlate => hclosed ?_⟩
          · exact Nat.lt_of_lt_of_le hearly (Nat.add_le_add_left hscale _)
          · exact Nat.le_trans (Nat.add_le_add_left hscale _) hlate
        · have hexp := Nat.le_trans (Nat.add_le_add_left hscale _) hlate
          refine ⟨iff_of_false (fun hsome => hhanded.mp hsome hexp) (Nat.not_lt.mpr hlate), fun _ => hclosed hexp⟩
    · have hexpired : expired now fresh = false := by
        unfold expired
        rw [hdeadline, if_neg hlt]
        rfl
      have hfound := hhanded.mpr hexpired
      rw [if_neg hlt]
      exact ⟨fun h => h.handed.mp hfound, fun hless => ⟨iff_of_true hfound hless, fun hlate => by omega⟩⟩

/-- A client whose server says how long a connection may be idle. -/
def timedAnswer : Client (Http1.llhttp true) :=
  answered [[ascii "HTTP/1.1 200 OK\r\nContent-Length: 0\r\nKeep-Alive: timeout=5\r\n\r\n"]]

theorem gives_five : GivesTimeout (ascii "timeout=5") (ascii "5") := by
  have hnil : Blank [] := fun b hb => absurd hb List.not_mem_nil
  refine ⟨[], [], [], [], by decide +kernel, hnil, hnil, by decide, ?_, fun part hpart => absurd hpart List.not_mem_nil⟩
  unfold Digits
  decide

/-- Asked for again after ten milliseconds of five seconds, the connection is not handed out but closed. -/
theorem idle_timeout_short : GivesTimeout (ascii "timeout=5") (ascii "5") ∧
    yields (fun response client => yields (fun _ released =>
        (released.pool.acquire (client.clock client.ticks + 10000000) fun _ => true).1.isNone &&
          decide ((released.pool.acquire (client.clock client.ticks + 10000000) fun _ => true).2.destroyed = [0]))
      (release response.conn) client) (fetch (ascii "http://a/") {}) timedAnswer = true :=
  ⟨gives_five, by decide +kernel⟩

theorem idle_timeout_iff_sample : ∃ (response : ClientResponse (Http1.llhttp true)) (client released : Client _)
    (fresh : ClientConnection _), fetch (ascii "http://a/") {} timedAnswer = .ok response client ∧
      release response.conn client = .ok () released ∧ fresh ∈ released.pool.idle ∧
      ∀ pool now wanted, NextFor pool now wanted fresh → now < client.clock client.ticks + 5000000 →
        TimesOut pool now (client.clock client.ticks + 5000000000) wanted fresh := by
  have hrun : yields (fun response client => yields (fun _ released =>
      decide (response.conn.requestCount = 0) && decide (response.conn.idleDeadline = none) &&
        decide (response.conn.parsedResponse.headers.get (ascii "Keep-Alive") = some (ascii "timeout=5")) &&
        decide (client.pool.enlisted.length ≠ released.pool.enlisted.length))
      (release response.conn) client) (fetch (ascii "http://a/") {}) timedAnswer = true := by
    decide +kernel
  obtain ⟨response, client, hfetch, hrelease⟩ := yields_iff.mp hrun
  obtain ⟨⟨⟩, released, hrelease, htests⟩ := yields_iff.mp hrelease
  simp only [Bool.and_eq_true, decide_eq_true_eq] at htests
  obtain ⟨⟨⟨hcount, hdeadline⟩, hheader⟩, hpooled⟩ := htests
  obtain ⟨fresh, before, hidle, -, -, hout⟩ := idle_timeout_iff gives_five (.first hcount hdeadline hheader) hrelease
    fun heq => hpooled (congrArg List.length heq.symm)
  refine ⟨response, client, released, fresh, hfetch, hrelease, ?_, fun pool now wanted hnext hnow => ?_⟩
  · rw [hidle]
    exact List.mem_append_right _ (List.mem_singleton_self _)
  · refine (hout pool now wanted hnext).mpr ?_
    rw [if_pos (by decide)]
    exact .inl hnow

end Client
end Dusty
