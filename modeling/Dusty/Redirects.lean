import Dusty.ClientRuns
import Dusty.Http1

/-! # Credentials across redirects

A header that carries credentials is written in a request only while every host on the way
belongs to the domain of the first and no step has left TLS (`fetch_sensitive`).  The flag that
withholds such headers never falls back, so this is a fact about two successive requests of a
call and an induction over them. -/

namespace Dusty

open Act

/-! ### What a request says -/

/-- The bytes begin a header with one of the names, in any letter case. -/
def BeginsField (names : List Bytes) (bytes : Bytes) : Prop :=
  ∃ name ∈ names, (name ++ [58]).map toLower <+: bytes.map toLower

/-- What was written is a header with one of the names. -/
def SendsField (names : List Bytes) (piece : Part × Bytes) : Prop :=
  piece.1 = .head ∧ BeginsField names piece.2

/-- Everything written from a point on has a property. -/
def LogsFrom (base : List (Part × Bytes)) (P : Part × Bytes → Prop) (c : Conn) : Prop :=
  ∃ pieces, c.log = base ++ pieces ∧ ∀ piece ∈ pieces, P piece

theorem BeginsField.of_take {names : List Bytes} {bytes : Bytes} {n : ℕ}
    (h : BeginsField names (bytes.take n)) : BeginsField names bytes := by
  obtain ⟨name, hmem, hprefix⟩ := h
  refine ⟨name, hmem, hprefix.trans ?_⟩
  rw [List.map_take]
  exact List.take_prefix _ _

/-- Text that begins in a way no header of the list does. -/
theorem not_beginsField_of_start {names : List Bytes} {start : Bytes}
    (h : ∀ name ∈ names, ¬(name ++ [58]).map toLower <+: start.map toLower ∧
      ¬start.map toLower <+: (name ++ [58]).map toLower) (rest : Bytes) :
    ¬BeginsField names (start ++ rest) := by
  rintro ⟨name, hmem, hprefix⟩
  have hstart : start.map toLower <+: (start ++ rest).map toLower := by
    rw [List.map_append]
    exact List.prefix_append _ _
  rcases List.prefix_or_prefix_of_prefix hprefix hstart with hname | hname
  · exact (h name hmem).1 hname
  · exact (h name hmem).2 hname

theorem eq_of_colon_prefix {xs ys rest : Bytes} (hx : 58 ∉ xs) (hy : 58 ∉ ys)
    (h : xs ++ [58] <+: ys ++ 58 :: rest) : xs = ys := by
  induction xs generalizing ys with
  | nil =>
      cases ys with
      | nil => rfl
      | cons y ys =>
          rw [List.nil_append, List.cons_append, List.cons_prefix_cons] at h
          exact absurd (h.1 ▸ List.mem_cons_self) hy
  | cons x xs ih =>
      cases ys with
      | nil =>
          rw [List.cons_append, List.nil_append, List.cons_prefix_cons] at h
          exact absurd (h.1 ▸ List.mem_cons_self) hx
      | cons y ys =>
          rw [List.cons_append, List.cons_append, List.cons_prefix_cons] at h
          have hxs : 58 ∉ xs := fun hmem => hx (List.mem_cons_of_mem _ hmem)
          have hys : 58 ∉ ys := fun hmem => hy (List.mem_cons_of_mem _ hmem)
          rw [h.1, ih hxs hys h.2]

theorem toLower_eq_colon {b : UInt8} (h : toLower b = 58) : b = 58 := by
  unfold toLower at h
  split at h
  · next hrange =>
      obtain ⟨hlow, hhigh⟩ := hrange
      have hval := congrArg UInt8.toNat h
      rw [UInt8.toNat_add] at hval
      rw [UInt8.le_iff_toNat_le] at hlow hhigh
      simp only [UInt8.reduceToNat] at hval hlow hhigh
      omega
  · exact h

theorem colon_notMem_lower {bytes : Bytes} (h : 58 ∉ bytes) : 58 ∉ bytes.map toLower := by
  intro hmem
  obtain ⟨b, hb, hlower⟩ := List.mem_map.mp hmem
  exact h (toLower_eq_colon hlower ▸ hb)

theorem colon_notMem_name {name : Bytes} (h : validHeaderName name = true) : 58 ∉ name := by
  intro hmem
  simp only [validHeaderName, Bool.and_eq_true, List.all_eq_true] at h
  exact absurd (h.2 58 hmem) (by decide)

theorem not_beginsField_field {names : List Bytes} (hnames : ∀ name ∈ names, 58 ∉ name)
    {key : Bytes} (hkey : validHeaderName key = true) (h : isNamed names key = false)
    (rest : Bytes) : ¬BeginsField names (key ++ ascii ": " ++ rest) := by
  rintro ⟨name, hmem, hprefix⟩
  have hline : (key ++ ascii ": " ++ rest).map toLower =
      key.map toLower ++ 58 :: (32 :: rest.map toLower) := by
    rw [show ascii ": " = [58, 32] by decide, List.map_append, List.map_append, List.append_assoc]
    rfl
  have hname : (name ++ [58]).map toLower = name.map toLower ++ [58] := by
    rw [List.map_append]
    rfl
  rw [hline, hname] at hprefix
  have heq := eq_of_colon_prefix (colon_notMem_lower (hnames name hmem))
    (colon_notMem_lower (colon_notMem_name hkey)) hprefix
  have hnamed : isNamed names key = true := by
    rw [isNamed, List.any_eq_true]
    exact ⟨name, hmem, eqlIgnoreCase_iff.mpr heq.symm⟩
  rw [h] at hnamed
  cases hnamed

/-! ### The writer -/

/-- What is written from here on begins no header that carries credentials. -/
abbrev Withholds (base : List (Part × Bytes)) : Conn → Prop :=
  LogsFrom base fun piece => ¬SendsField sensitiveHeaders piece

section writer
variable {base : List (Part × Bytes)}

theorem LogsFrom.wrote {P : Part × Bytes → Prop} {c : Conn} (h : LogsFrom base P c)
    {part : Part} {bytes : Bytes} (hP : P (part, bytes)) : LogsFrom base P (c.wrote part bytes) := by
  obtain ⟨pieces, hlog, hpieces⟩ := h
  refine ⟨pieces ++ [(part, bytes)], ?_, fun piece hmem => ?_⟩
  · show c.log ++ [(part, bytes)] = _
    rw [hlog, List.append_assoc]
  · rcases List.mem_append.mp hmem with hmem | hmem
    · exact hpieces piece hmem
    · rw [List.mem_singleton.mp hmem]
      exact hP

theorem writeAll_withholds {part : Part} {bytes : Bytes}
    (h : part = .head → ¬BeginsField sensitiveHeaders bytes) :
    Keeps (Withholds base) (Conn.writeAll part bytes) := by
  have hpiece (n : ℕ) : ¬SendsField sensitiveHeaders (part, bytes.take n) :=
    fun hsend => h hsend.1 hsend.2.of_take
  intro c hc
  unfold Conn.writeAll
  cases c.faults with
  | nil => exact hc.wrote fun hsend => h hsend.1 hsend.2
  | cons fault faults =>
      cases fault with
      | none => exact hc.wrote fun hsend => h hsend.1 hsend.2
      | some fault => exact hc.wrote (hpiece fault.1)

theorem validateHeaderValue_withholds (value : Bytes) :
    Keeps (Withholds base) (WriteRequestOptions.validateHeaderValue value) := by
  unfold WriteRequestOptions.validateHeaderValue
  split
  · exact keeps_pure _
  · exact keeps_fail _

theorem writeField_withholds {name : Bytes} (hname : validHeaderName name = true)
    (h : isNamed sensitiveHeaders name = false) (value : Bytes) :
    Keeps (Withholds base) (WriteRequestOptions.writeField name value) := by
  have hcolon : ∀ name ∈ sensitiveHeaders, 58 ∉ name := by decide
  refine writeAll_withholds fun _ => ?_
  rw [List.append_assoc]
  exact not_beginsField_field hcolon hname h _

theorem writeDefault_withholds {name : Bytes} (hname : validHeaderName name = true)
    (h : isNamed sensitiveHeaders name = false) (value : Option Bytes) (given : Bool) :
    Keeps (Withholds base) (WriteRequestOptions.writeDefault name value given) := by
  cases value with
  | none => exact keeps_pure _
  | some value =>
      exact Keeps.when (Keeps.bind (validateHeaderValue_withholds value) fun _ =>
        writeField_withholds hname h value) _

/-- The user's headers, when those with credentials are left out. -/
theorem writeHeaders_withholds {opts : WriteRequestOptions}
    (hstrip : opts.stripSensitiveHeaders = true) (entries : List HeaderEntry) (given : GivenHeaders) :
    Keeps (Withholds base) (opts.writeHeaders entries given) := by
  induction entries generalizing given with
  | nil => exact keeps_pure _
  | cons entry rest ih =>
      rw [WriteRequestOptions.writeHeaders]
      split
      · exact ih _
      · split
        · exact ih _
        · next hstrips =>
            have hnot : isNamed sensitiveHeaders entry.key = false := by
              rw [WriteRequestOptions.strips, hstrip, Bool.true_and, Bool.or_eq_true, not_or] at hstrips
              exact Bool.eq_false_iff.mpr hstrips.1
            by_cases hname : validHeaderName entry.key = true
            · refine Keeps.bind ?_ fun _ => Keeps.bind (validateHeaderValue_withholds _) fun _ =>
                Keeps.bind (writeField_withholds hname hnot _) fun _ => ih _
              rw [WriteRequestOptions.validateHeaderName, if_pos hname]
              exact keeps_pure _
            · intro c hc
              rw [WriteRequestOptions.validateHeaderName, if_neg hname]
              exact hc

theorem requestLine_withholds (opts : WriteRequestOptions) :
    ¬BeginsField sensitiveHeaders opts.requestLine := by
  have hmethod : ∀ m : Method, ∀ name ∈ sensitiveHeaders,
      ¬(name ++ [58]).map toLower <+: (m.name ++ [32]).map toLower ∧
        ¬(m.name ++ [32]).map toLower <+: (name ++ [58]).map toLower := by
    intro m
    cases m <;> decide +kernel
  unfold WriteRequestOptions.requestLine
  rw [List.append_assoc, List.append_assoc, List.append_assoc]
  exact not_beginsField_of_start (hmethod opts.method) _

/-- **A request without credentials.** -/
theorem writeRequest_withholds {opts : WriteRequestOptions}
    (hstrip : opts.stripSensitiveHeaders = true) :
    Keeps (Withholds base) opts.writeRequest := by
  unfold WriteRequestOptions.writeRequest
  refine Keeps.bind (validateHeaderValue_withholds _) fun _ => ?_
  refine Keeps.bind (writeAll_withholds fun _ => requestLine_withholds opts) fun _ => ?_
  refine Keeps.bind (writeField_withholds (by decide) (by decide) _) fun _ => ?_
  refine Keeps.bind ?_ fun _ => ?_
  · cases opts.body with
    | none => exact keeps_pure _
    | some body => exact writeField_withholds (by decide) (by decide) _
  refine Keeps.bind (writeHeaders_withholds hstrip _ _) fun given => ?_
  refine Keeps.bind (writeDefault_withholds (by decide) (by decide) _ _) fun _ => ?_
  refine Keeps.bind (writeDefault_withholds (by decide) (by decide) _ _) fun _ => ?_
  refine Keeps.bind (Keeps.when (writeField_withholds (by decide) (by decide) _) _) fun _ => ?_
  refine Keeps.bind (writeAll_withholds fun _ => ?_) fun _ => ?_
  · rw [← List.append_nil crlf]
    exact not_beginsField_of_start (by decide) []
  · cases opts.body with
    | none => exact keeps_pure _
    | some body => exact writeAll_withholds fun h => nomatch h

end writer

/-! ### Domains -/

/-- The host is the other one or a name below it, in any letter case. -/
def InDomain (sub parent : Bytes) : Prop :=
  eqlIgnoreCase sub parent = true ∨
    ∃ label tail, sub = label ++ 46 :: tail ∧ eqlIgnoreCase tail parent = true

theorem isDomainOrSubdomain_sound {sub parent : Bytes}
    (h : isDomainOrSubdomain sub parent = true) : InDomain sub parent := by
  unfold isDomainOrSubdomain at h
  split at h
  · next heq => exact .inl heq
  · split at h
    · cases h
    · split at h
      · cases h
      · next hlen =>
          rw [Bool.and_eq_true, beq_iff_eq] at h
          obtain ⟨hdot, htail⟩ := h
          refine .inr ⟨sub.take (sub.length - parent.length - 1), _, ?_, htail⟩
          have hlt : sub.length - parent.length - 1 < sub.length := by omega
          rw [List.getElem?_eq_getElem hlt, Option.some_inj] at hdot
          have hsplit := List.take_append_drop (sub.length - parent.length - 1) sub
          rw [List.drop_eq_getElem_cons hlt, hdot,
            show sub.length - parent.length - 1 + 1 = sub.length - parent.length by omega] at hsplit
          exact hsplit.symm

/-! ### The requests of a call -/

namespace Hop

/-- What the call of `writeRequest` wrote. -/
def written (self : Hop) : List (Part × Bytes) :=
  (final self.opts.writeRequest self.writer).log.drop self.writer.log.length

/-- A header with credentials was written. -/
def Reveals (self : Hop) : Prop := ∃ piece ∈ self.written, SendsField sensitiveHeaders piece

/-- A request that withholds the headers does not write them. -/
theorem not_reveals {self : Hop} (h : self.opts.stripSensitiveHeaders = true) : ¬self.Reveals := by
  rintro ⟨piece, hmem, hsend⟩
  have hstart : Withholds self.writer.log self.writer := ⟨[], (List.append_nil _).symm, nofun⟩
  have hend : Withholds self.writer.log (final self.opts.writeRequest self.writer) := by
    unfold final
    cases hrun : self.opts.writeRequest self.writer with
    | ok u c => exact (writeRequest_withholds h).ok hstart hrun
    | error e c => exact (writeRequest_withholds h).error hstart hrun
  obtain ⟨pieces, hlog, hpieces⟩ := hend
  rw [written, hlog, List.drop_left] at hmem
  exact hpieces piece hmem hsend

/-- A redirect from one request to the next keeps the headers only inside the domain and not out
of TLS, and only if they were not withheld before. -/
def Follows (initialHost : Bytes) (hop next : Hop) : Prop :=
  next.opts.stripSensitiveHeaders = false → hop.opts.stripSensitiveHeaders = false ∧
    InDomain next.opts.host initialHost ∧
    ¬(hop.opts.protocol = .https ∧ next.opts.protocol = .http)

end Hop

namespace Client

variable {L : Llhttp}

/-- The requests stay what they are. -/
abbrev Sends (requests : List Hop) (self : Client L) : Prop := self.requests = requests

section sends
variable {requests : List Hop}

theorem Sends.alike {self other : Client L} (h : Sends requests self) (halike : Alike self other) :
    Sends requests other :=
  halike.requests.trans h

theorem acquireConnection_sends (host : Bytes) (port : ℕ) (protocol : Protocol)
    (unixSocketPath : Option Bytes) :
    Keeps (Sends requests) (acquireConnection host port protocol unixSocketPath :
      Act (Client L) (ClientConnection L)) :=
  triple_acquireConnection (Q := fun _ => Sends requests) Sends.alike (fun _ _ _ h _ => h) (fun _ _ h _ => h)
    fun _ _ _ h => h

theorem onConn_sends {α : Type} (x : Act (ClientConnection L) α) (conn : ClientConnection L) :
    Keeps (Sends requests) (onConn x conn) := by
  intro self hself
  unfold onConn
  cases x conn with
  | ok a conn => exact hself
  | error e conn =>
      cases e with
      | err e => exact hself
      | panic p => exact hself

theorem releaseToPool_sends (conn : ClientConnection L) :
    Keeps (Sends requests) (releaseToPool conn) :=
  (triple_releaseToPool (R := Sends requests) Sends.alike (fun _ h => h) fun _ _ h _ _ => h).weaken
    (fun _ h => h) (fun _ _ h => h) fun _ _ h => h.2

/-- The request that a call with the state sends. -/
structure HopOf (state : FetchState) (hop : Hop) : Prop where
  strip : hop.opts.stripSensitiveHeaders = state.stripSensitiveHeaders
  protocol : hop.opts.protocol = state.protocol
  host : uriHost state.uri = .ok hop.opts.host

/-- The call has sent its request. -/
def SentOne (requests : List Hop) (state : FetchState) (self : Client L) : Prop :=
  ∃ hop, HopOf state hop ∧ Sends (requests ++ [hop]) self

theorem afterExchange_sends (state : FetchState) (host : Bytes) (maxResponseSize : ℕ)
    (result : Except Error (Option RedirectTarget) × ClientConnection L) :
    Triple (Sends requests) (afterExchange state host maxResponseSize result)
      (fun result self => Sends requests self ∧
        ∀ next, result = .inr next → ∃ target, redirectState state host target = .ok next)
      (fun _ => Sends requests) := by
  obtain ⟨r, conn⟩ := result
  cases r with
  | error e =>
      rw [afterExchange]
      exact Triple.bind (releaseToPool_sends conn) fun _ => triple_fail fun _ h => h
  | ok target =>
      cases target with
      | none =>
          rw [afterExchange]
          exact triple_pure fun self hself => ⟨hself, fun next heq => absurd heq Sum.inl_ne_inr⟩
      | some target =>
          rw [afterExchange]
          refine Triple.bind (releaseToPool_sends conn) fun _ => ?_
          intro self hself
          cases hnext : redirectState state host target with
          | error e =>
              rw [orFail]
              exact hself
          | ok next =>
              rw [orFail]
              refine ⟨hself, fun next' heq => ⟨target, ?_⟩⟩
              rw [hnext, Sum.inr.inj heq]

/-- **One request.**  If the call goes on, it does so in the state the redirect leads to. -/
theorem fetchHop_sends (state : FetchState) (redirectsRemaining : ℕ) :
    Triple (Sends requests) (fetchHop state redirectsRemaining : Act (Client L) _)
      (fun result self => ∃ hop, HopOf state hop ∧ Sends (requests ++ [hop]) self ∧
        ∀ next, result = .inr next → ∃ target, redirectState state hop.opts.host target = .ok next)
      (fun _ self => Sends requests self ∨ SentOne requests state self) := by
  cases hhost : uriHost state.uri with
  | error e =>
      intro self hself
      rw [fetchHop, hhost]
      exact .inl hself
  | ok host =>
      unfold fetchHop
      rw [hhost]
      refine Triple.bind (Q := fun a => fun self => a = host ∧ Sends requests self)
        (fun self hself => ⟨rfl, hself⟩) fun host' => ?_
      rintro self ⟨rfl, hself⟩
      revert self
      refine Triple.bind ((keeps_prepareTls Sends.alike _).weaken (fun _ h => h) (fun _ _ h => h)
        fun _ _ h => .inl h) fun _ => ?_
      refine Triple.bind ((acquireConnection_sends _ _ _ _).weaken (fun _ h => h) (fun _ _ h => h)
        fun _ _ h => .inl h) fun conn => triple_get_bind fun self => ?_
      split
      · exact Triple.bind ((releaseToPool_sends _).weaken (fun _ h => h.1) (fun _ _ h => h)
          fun _ _ h => .inl h) fun _ => triple_fail fun _ h => .inl h
      · let hop : Hop := ⟨requestOptions state host' self.config.userAgent, conn.writer⟩
        have hhop : HopOf state hop := ⟨rfl, rfl, hhost⟩
        refine Triple.bind (Q := fun _ => Sends (requests ++ [hop])) (triple_modify ?_) fun _ => ?_
        · rintro c ⟨hc, -⟩
          show c.requests ++ [hop] = _
          rw [hc]
        · refine Triple.bind ((onConn_sends _ _).weaken (fun _ h => h) (fun _ _ h => h)
            fun _ _ h => .inr ⟨hop, hhop, h⟩) fun result => ?_
          refine (afterExchange_sends state host' _ result).weaken (fun _ h => h) (fun _ _ h => ?_)
            fun _ _ h => .inr ⟨hop, hhop, h⟩
          exact ⟨hop, hhop, h.1, h.2⟩

/-- The requests of a call: the first is that of its state, and each follows the one before.  The
empty host cannot be told from none. -/
structure Trace (initialHost : Bytes) (state : FetchState) (hops : List Hop) : Prop where
  first : ∀ hop ∈ hops.head?, HopOf state hop
  chain : initialHost ≠ [] → hops.IsChain (Hop.Follows initialHost)

/-- The call knows the host it started from, or it starts there. -/
def StartsAt (initialHost : Bytes) (state : FetchState) : Prop :=
  initialHost ≠ [] → state.initialHost = initialHost ∨
    state.initialHost = [] ∧ uriHost state.uri = .ok initialHost

/-- **One redirect.** -/
theorem redirectState_follows {state next : FetchState} {hop : Hop} {target : RedirectTarget}
    {initialHost : Bytes} (hne : initialHost ≠ []) (hstart : StartsAt initialHost state)
    (hhop : HopOf state hop) (hnext : redirectState state hop.opts.host target = .ok next) :
    next.initialHost = initialHost ∧
      ∀ hop', HopOf next hop' → Hop.Follows initialHost hop hop' := by
  unfold redirectState at hnext
  cases hhost : uriHost target.uri with
  | error e =>
      rw [hhost] at hnext
      cases hnext
  | ok redirectHost =>
      rw [hhost] at hnext
      cases hnext
      have hinitial : (if state.initialHost.length = 0 then hop.opts.host else state.initialHost) =
          initialHost := by
        rcases hstart hne with heq | ⟨hnil, huri⟩
        · rw [if_neg (by rw [heq]; exact fun hlen => hne (List.length_eq_zero_iff.mp hlen)), heq]
        · rw [if_pos (by rw [hnil, List.length_nil])]
          have hsame := hhop.host
          rw [huri] at hsame
          exact (Except.ok.inj hsame).symm
      refine ⟨hinitial, fun hop' hhop' hstrip => ?_⟩
      have hflag := hhop'.strip
      rw [hstrip] at hflag
      simp only [hinitial] at hflag
      have hflag' := hflag.symm
      rw [Bool.or_eq_false_iff, Bool.or_eq_false_iff, Bool.and_eq_false_iff] at hflag'
      obtain ⟨⟨hstate, hdomain⟩, hscheme⟩ := hflag'
      have hredirect := hhop'.host
      rw [hhost] at hredirect
      refine ⟨hhop.strip.trans hstate, ?_, ?_⟩
      · rw [← Except.ok.inj hredirect]
        exact isDomainOrSubdomain_sound (by simpa using hdomain)
      · rintro ⟨hhttps, hhttp⟩
        rw [hhop.protocol] at hhttps
        rw [hhop'.protocol] at hhttp
        rw [hhttps] at hscheme
        simp only at hhttp
        rw [hhttp] at hscheme
        rcases hscheme with hfalse | hfalse
        · cases hfalse
        · cases hfalse

theorem trace_nil (initialHost : Bytes) (state : FetchState) : Trace initialHost state [] where
  first := by
    intro hop hhop
    cases hhop
  chain := fun _ => .nil

theorem trace_singleton (initialHost : Bytes) {state : FetchState} {hop : Hop}
    (hhop : HopOf state hop) : Trace initialHost state [hop] where
  first := by
    intro first hfirst
    obtain rfl : hop = first := Option.some.inj hfirst
    exact hhop
  chain := fun _ => .singleton _

/-- The call has sent requests that follow one another. -/
def SentAll (requests : List Hop) (initialHost : Bytes) (state : FetchState) (self : Client L) :
    Prop :=
  ∃ hops, Sends (requests ++ hops) self ∧ Trace initialHost state hops

theorem sentAll_of_one {initialHost : Bytes} {state : FetchState} {self : Client L}
    (h : SentOne requests state self) : SentAll requests initialHost state self := by
  obtain ⟨hop, hhop, hself⟩ := h
  exact ⟨[hop], hself, trace_singleton initialHost hhop⟩

theorem sentAll_of_failed {initialHost : Bytes} {state : FetchState} {self : Client L}
    (h : Sends requests self ∨ SentOne requests state self) :
    SentAll requests initialHost state self := by
  rcases h with hself | hone
  · refine ⟨[], ?_, trace_nil initialHost state⟩
    rw [List.append_nil]
    exact hself
  · exact sentAll_of_one hone

/-- **All requests of a call.** -/
theorem fetchInternal_sends {initialHost : Bytes} (redirectsRemaining : ℕ)
    {state : FetchState} (hstart : StartsAt initialHost state) :
    Triple (Sends requests) (fetchInternal redirectsRemaining state :
        Act (Client L) (ClientResponse L))
      (fun _ => SentAll requests initialHost state)
      (fun _ => SentAll requests initialHost state) := by
  induction redirectsRemaining generalizing state requests with
  | zero =>
      rw [fetchInternal]
      refine Triple.bind ((fetchHop_sends state 0).weaken (fun _ h => h) (fun _ _ h => h)
        fun _ _ h => sentAll_of_failed h) fun result => ?_
      rintro self ⟨hop, hhop, hself, -⟩
      cases result with
      | inl response => exact sentAll_of_one ⟨hop, hhop, hself⟩
      | inr next => exact sentAll_of_one ⟨hop, hhop, hself⟩
  | succ redirectsRemaining ih =>
      rw [fetchInternal]
      refine Triple.bind ((fetchHop_sends state _).weaken (fun _ h => h) (fun _ _ h => h)
        fun _ _ h => sentAll_of_failed h) fun result => ?_
      rintro self ⟨hop, hhop, hself, hnext⟩
      cases result with
      | inl response => exact sentAll_of_one ⟨hop, hhop, hself⟩
      | inr next =>
          obtain ⟨target, htarget⟩ := hnext next rfl
          have hinitial : StartsAt initialHost next := fun hne =>
            .inl (redirectState_follows hne hstart hhop htarget).1
          have hmore {self : Client L} (h : SentAll (requests ++ [hop]) initialHost next self) :
              SentAll requests initialHost state self := by
            obtain ⟨hops, hself, htrace⟩ := h
            refine ⟨hop :: hops, ?_, fun first hfirst => ?_, fun hne => ?_⟩
            · rw [List.append_cons]
              exact hself
            · obtain rfl : hop = first := Option.some.inj hfirst
              exact hhop
            · cases hops with
              | nil => exact .singleton _
              | cons hop' hops =>
                  refine List.isChain_cons_cons.mpr ⟨?_, htrace.chain hne⟩
                  exact (redirectState_follows hne hstart hhop htarget).2 hop' (htrace.first hop' rfl)
          exact ((ih hinitial).weaken (fun _ h => h) (fun _ _ h => hmore h)
            fun _ _ h => hmore h) self hself

theorem fetch_sends (c : Client L) (url : Bytes) (options : FetchOptions) :
    ∃ hops, (final (fetch url options) c).requests = c.requests ++ hops ∧
      ∀ first ∈ hops.head?, first.opts.host ≠ [] →
        hops.IsChain (Hop.Follows first.opts.host) := by
  have hnothing : ∃ hops, c.requests = c.requests ++ hops ∧
      ∀ first ∈ hops.head?, first.opts.host ≠ [] → hops.IsChain (Hop.Follows first.opts.host) :=
    ⟨[], (List.append_nil _).symm, fun _ _ _ => .nil⟩
  cases hparse : Uri.parse url with
  | none =>
      rw [fetch, hparse]
      exact hnothing
  | some uri =>
      cases hinfo : uriPortAndProtocol uri with
      | error e =>
          rw [fetch, hparse]
          simp only [hinfo]
          exact hnothing
      | ok info =>
          let state : FetchState :=
            { uri := uri, port := info.1, protocol := info.2, options := options }
          have hrun : fetch url options c = fetchInternal
              (options.maxRedirects.getD c.config.maxRedirects) state c := by
            rw [fetch, hparse]
            simp only [hinfo]
            rfl
          let initialHost := (uriHost uri).toOption.getD []
          have hstart : StartsAt initialHost state := by
            intro hne
            refine .inr ⟨rfl, ?_⟩
            show uriHost uri = .ok ((uriHost uri).toOption.getD [])
            cases hhost : uriHost uri with
            | error e =>
                refine absurd ?_ hne
                show (uriHost uri).toOption.getD [] = []
                rw [hhost]
                rfl
            | ok host => rfl
          have hsent : SentAll c.requests initialHost state
              (final (fetch url options) c) := by
            unfold final
            rw [hrun]
            cases hout : fetchInternal (options.maxRedirects.getD c.config.maxRedirects) state c with
            | ok response self => exact (fetchInternal_sends _ hstart).ok rfl hout
            | error e self => exact (fetchInternal_sends _ hstart).error rfl hout
          obtain ⟨hops, hself, htrace⟩ := hsent
          refine ⟨hops, hself, fun first hfirst hne => ?_⟩
          have hhost : uriHost uri = .ok first.opts.host := (htrace.first first hfirst).host
          have hinitial : initialHost = first.opts.host := by
            show (uriHost uri).toOption.getD [] = _
            rw [hhost]
            rfl
          rw [← hinitial]
          exact htrace.chain (by rw [hinitial]; exact hne)

end sends

/-- **Credentials stay in the domain.**  If a request of a call writes a header that carries
credentials, then so may every request before it: none of them withholds such headers, each but
the first goes to a host in the domain of the first, and none is a step out of TLS. -/
theorem fetch_withholds (c : Client L) (url : Bytes) (options : FetchOptions) :
    ∃ hops, (final (fetch url options) c).requests = c.requests ++ hops ∧
      ∀ first ∈ hops.head?, first.opts.host ≠ [] → ∀ k (hk : k < hops.length), hops[k].Reveals →
        ∀ j (hj : j ≤ k), hops[j].opts.stripSensitiveHeaders = false ∧
          ∀ i (hi : i + 1 = j), InDomain hops[j].opts.host first.opts.host ∧
            ¬(hops[i].opts.protocol = .https ∧ hops[j].opts.protocol = .http) := by
  obtain ⟨hops, hrequests, hchain⟩ := fetch_sends c url options
  refine ⟨hops, hrequests, fun first hfirst hne k hk hreveals j hj => ?_⟩
  have hstep := List.isChain_iff_getElem.mp (hchain first hfirst hne)
  have hshown : hops[k].opts.stripSensitiveHeaders = false := by
    by_contra hstrip
    exact Hop.not_reveals (by simpa using hstrip) hreveals
  have hback : ∀ n (hn : n ≤ k), hops[k - n].opts.stripSensitiveHeaders = false := by
    intro n hn
    induction n with
    | zero => exact hshown
    | succ n ih =>
        have hprev := ih (by omega)
        have hnext := hstep (k - (n + 1)) (by omega)
        simp only [show k - (n + 1) + 1 = k - n by omega] at hnext
        exact (hnext hprev).1
  have hkept : hops[j].opts.stripSensitiveHeaders = false := by
    have := hback (k - j) (by omega)
    simpa only [show k - (k - j) = j by omega] using this
  refine ⟨hkept, fun i hi => ?_⟩
  subst hi
  exact (hstep i (by omega) hkept).2

example : (final (fetch (ascii "http://a.b/") {}) (answered (L := Http1.llhttp true)
    [[ascii "HTTP/1.1 302 Found\r\nLocation: http://c.a.b/\r\nContent-Length: 0\r\n\r\n"],
      [ascii "HTTP/1.1 302 Found\r\nLocation: http://d/\r\nContent-Length: 0\r\n\r\n"],
      [ascii "HTTP/1.1 302 Found\r\nLocation: http://a.b/\r\nContent-Length: 0\r\n\r\n"]])).requests.map
        (fun hop => (hop.opts.host, hop.opts.stripSensitiveHeaders)) =
    [(ascii "a.b", false), (ascii "c.a.b", false), (ascii "d", true), (ascii "a.b", true)] := by
  decide +kernel

end Client
end Dusty
