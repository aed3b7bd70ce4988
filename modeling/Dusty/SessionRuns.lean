import Dusty.CookieJar
import Dusty.Hoare
import Dusty.SessionText

/-! # Sessions over runs

One client, and any number of requests through the middleware.  What a request finds in its session is
what the last one has left there: `session_persists`. -/

namespace Dusty

open Act

namespace SessionData

/-- What a handler can do to the session. -/
inductive Op where
  | set (key value : Bytes)
  | remove (key : Bytes)
  | clear

/-- A call of a handler; one of `set` that fails changes nothing. -/
def apply (self : SessionData) : Op → SessionData
  | .set key value => match self.set key value with
      | .ok self' => self'
      | .error _ => self
  | .remove key => self.remove key
  | .clear => self.clear

/-- One call after the other. -/
def applyAll (self : SessionData) (ops : List Op) : SessionData := ops.foldl apply self

theorem Sound.apply {self : SessionData} (h : self.Sound) (op : Op) : (self.apply op).Sound := by
  cases op with
  | set key value =>
      unfold SessionData.apply
      simp only
      cases hset : self.set key value with
      | ok self' => exact h.set hset
      | error e => exact h
  | remove key => exact h.remove key
  | clear => exact sound_clear self

theorem Sound.applyAll {self : SessionData} (h : self.Sound) (ops : List Op) : (self.applyAll ops).Sound := by
  induction ops generalizing self with
  | nil => exact h
  | cons op ops ih => exact ih (h.apply op)

theorem apply_noted (self : SessionData) (op : Op) :
    self.apply op = self ∨ (self.apply op).modified = true := by
  cases op with
  | set key value =>
      unfold apply
      simp only
      cases hset : self.set key value with
      | error e => exact .inl rfl
      | ok self' =>
          refine .inr ?_
          unfold SessionData.set at hset
          split at hset
          · cases hset
          · split at hset
            · cases hset
              rfl
            · split at hset
              · cases hset
                rfl
              · cases hset
  | remove key =>
      show self.remove key = self ∨ (self.remove key).modified = true
      unfold SessionData.remove
      split
      · exact .inr rfl
      · exact .inl rfl
  | clear => exact .inr rfl

theorem applyAll_noted {self : SessionData} {ops : List Op} (h : (self.applyAll ops).modified = false) :
    self.applyAll ops = self := by
  have hmodified : ∀ ops {self : SessionData}, self.modified = true → (self.applyAll ops).modified = true := by
    intro ops
    induction ops with
    | nil => exact id
    | cons op ops ih =>
        intro self hself
        refine ih ?_
        rcases apply_noted self op with hsame | hnoted
        · rw [hsame]
          exact hself
        · exact hnoted
  induction ops generalizing self with
  | nil => rfl
  | cons op ops ih =>
      rcases apply_noted self op with hsame | hnoted
      · have hrest : self.applyAll (op :: ops) = self.applyAll ops := by
          unfold applyAll
          rw [List.foldl_cons, hsame]
        rw [hrest] at h ⊢
        exact ih h
      · have hall : (self.applyAll (op :: ops)).modified = true := hmodified ops hnoted
        rw [h] at hall
        cases hall

end SessionData

namespace Session

open SessionData

/-! ### Runs -/

/-- The client sends what it has stored under the name, as long as that has not expired, with whatever it
has stored under others; and the request comes before a session expires. -/
structure Presents (cookieName : Bytes) (jar : Option StoredCookie) (pairs : List CookiePair) (now : ℕ) :
    Prop where
  sent : (pairs.find? fun pair => decide (pair.name = cookieName)).map (·.value) =
    (jar.filter (·.live now)).map (·.value)
  live : ∀ stored, jar = some stored → stored.value = [] ∨ stored.live now = true

/-- The time fits a `u32`, where it is looked at. -/
def InTime (self : Session) (now : ℕ) : Prop := self.maxAge = none ∨ now / 1000000000 < 2 ^ 32

/-- The headers are not out, and there is no cookie of the session's name among them. -/
def Untouched (cookieName : Bytes) (res : Response) : Prop :=
  res.headersWritten = false ∧
    ∀ text ∈ SetCookie.texts res.headers, SetCookie.name text ≠ cookieName

/-- A handler that uses its session as it can be used, streams nothing and sets no cookie of the
session's name. -/
def Handles (cookieName : Bytes) (next : Act Context Unit) : Prop :=
  ∀ ctx ctx', next ctx = .ok () ctx' → (∃ ops, ctx'.session = ctx.session.applyAll ops) ∧
    (Untouched cookieName ctx.res → Untouched cookieName ctx'.res)

/-- What the client has stored after any number of requests, and the session at the end of the last.  The
client has a response at once. -/
inductive Reached (self : Session) (mac : Mac) : Option StoredCookie → SessionData → Prop
  | start : Reached self mac none {}
  | request {jar : Option StoredCookie} {last : SessionData} {pairs : List CookiePair} {before behind : ℕ}
      {res : Response} {next : Act Context Unit} {done : Context} :
      Reached self mac jar last → Presents self.cookieName jar pairs before → InTime self before →
      Handles self.cookieName next → Untouched self.cookieName res →
      self.execute mac (CookiePair.header pairs) before behind next { res := res } = .ok () done →
      Reached self mac (SetCookie.keep self.cookieName behind done.res.headers jar) done.session

/-- What the client has stored stands for the session. -/
structure Stands (config : Session) (mac : Mac) (jar : Option StoredCookie) (data : SessionData) : Prop where
  sound : data.Sound
  none : jar = none → data.entries = []
  some : ∀ stored, jar = some stored →
    stored.value = [] ∧ stored.expires = some 0 ∧ data.entries = [] ∨
      ∃ expiresAt, expiresAt < 2 ^ 32 ∧
        stored.value = Base64Url.encode (config.signed mac expiresAt data.entries) ∧
          ∀ now, stored.live now = true → InTime config now → Lasts expiresAt now

theorem stands_start (self : Session) (mac : Mac) : self.Stands mac none {} :=
  ⟨sound_empty, fun _ => rfl, fun _ h => by cases h⟩

/-! ### In front of the handler -/

theorem receive_none {self : Session} {mac : Mac} {cookies : Bytes} {now : ℕ} {ctx : Context}
    (h : Cookie.get cookies self.cookieName = none) : self.receive mac cookies now ctx = .ok () ctx := by
  unfold receive
  rw [h]
  rfl

theorem receive_some {self : Session} {mac : Mac} {cookies raw : Bytes} {now : ℕ} {loaded : SessionData}
    {res : Response} (h : Cookie.get cookies self.cookieName = some raw)
    (hload : self.load mac raw now {} = .ok () loaded) :
    self.receive mac cookies now { res := res } = .ok () { session := loaded, res := res } := by
  have hrun : Context.onSession (self.load mac raw now) { res := res } =
      .ok () { session := loaded, res := res } := by
    unfold Context.onSession zoom
    simp only
    rw [hload]
  unfold receive
  rw [h]
  simp only
  rw [bind_ok (attempt_ok hrun)]
  rfl

/-- **A request finds the session** that what the client has stored stands for. -/
theorem Stands.received {self : Session} {mac : Mac} {jar : Option StoredCookie} {data : SessionData}
    {pairs : List CookiePair} {now : ℕ} (h : self.Stands mac jar data) (hname : 61 ∉ self.cookieName)
    (hsends : Presents self.cookieName jar pairs now) (htime : self.InTime now) (res : Response) :
    ∃ loaded, self.receive mac (CookiePair.header pairs) now { res := res } =
        .ok () { session := loaded, res := res } ∧
      loaded.entries = data.entries ∧ loaded.modified = false := by
  have hget := CookiePair.get_header pairs hname
  rw [hsends.sent] at hget
  cases hjar : jar with
  | none =>
      rw [hjar] at hget
      exact ⟨{}, receive_none hget, (h.none hjar).symm, rfl⟩
  | some stored =>
      rw [hjar] at hget
      rcases h.some stored hjar with ⟨-, hexpires, hempty⟩ | ⟨expiresAt, hbound, hvalue, hlasts⟩
      · have hdead : stored.live now = false := by
          unfold StoredCookie.live
          rw [hexpires]
          rfl
        simp only [Option.filter_some, hdead, Bool.false_eq_true, if_false, Option.map_none] at hget
        exact ⟨{}, receive_none hget, hempty.symm, rfl⟩
      · have hne : stored.value ≠ [] := by
          rw [hvalue]
          refine Base64Url.encode_ne_nil ?_
          unfold signed header
          simp
        have hlive : stored.live now = true := (hsends.live stored hjar).resolve_left hne
        simp only [Option.filter_some, hlive, if_true, Option.map_some] at hget
        obtain ⟨loaded, hload, hentries, hmodified⟩ :=
          self.load_signed mac h.sound hbound (hlasts now hlive htime)
        rw [← hvalue] at hload
        exact ⟨loaded, receive_some hget hload, hentries, hmodified⟩

/-! ### Behind the handler -/

/-- A cookie that cannot be written is no matter of the headers. -/
theorem spares_serializeCookie {σ : Type} (cookieName raw : Bytes) (opts : CookieOpts) :
    Spares (.err .headersAlreadySent) (Cookie.serializeCookie cookieName raw opts : Act σ Bytes) := by
  unfold Cookie.serializeCookie Cookie.maxAgeAttribute
  split
  · exact spares_fail (by decide)
  · split
    · exact spares_fail (by decide)
    · refine Spares.bind ?_ fun _ => spares_pure _
      split
      · exact spares_pure _
      · exact (spares_assert (by decide) _).bind fun _ => spares_pure _

theorem triple_serializeCookie (cookieName raw : Bytes) (opts : CookieOpts) (res : Response) :
    Triple (fun s => s = res) (Cookie.serializeCookie cookieName raw opts : Act Response Bytes)
      (fun text s => s = res ∧ Cookie.serializeCookie cookieName raw opts res = .ok text res)
      (fun f _ => f ≠ .err .headersAlreadySent) := by
  intro s hs
  subst hs
  cases hrun : Cookie.serializeCookie cookieName raw opts s with
  | ok text s' =>
      obtain rfl := (SetCookie.serializeCookie_ok hrun).1
      exact ⟨rfl, rfl⟩
  | error f s' =>
      rintro rfl
      exact spares_serializeCookie cookieName raw opts s s' hrun

theorem triple_setCookie (cookieName raw : Bytes) (opts : CookieOpts) {res : Response}
    (hopen : res.headersWritten = false) :
    Triple (fun s => s = res) (Response.setCookie cookieName raw opts)
      (fun _ s => ∃ text, Cookie.serializeCookie cookieName raw opts res = .ok text res ∧
        res.headers.add (ascii "Set-Cookie") text = .ok s.headers)
      (fun f _ => f ≠ .err .headersAlreadySent) := by
  refine triple_get_bind fun r => ?_
  refine Triple.weaken (P := fun s => s = res ∧ r = res) ?_ (fun s hs => ⟨hs.1, hs.2 ▸ hs.1⟩)
    (fun _ _ h => h) fun _ _ h => h
  by_cases hr : r = res
  · subst hr
    rw [hopen, if_neg Bool.false_ne_true]
    refine Triple.bind (Triple.weaken (triple_serializeCookie cookieName raw opts r) (fun _ hs => hs.1)
      (fun _ _ h => h) fun _ _ h => h) fun text => ?_
    split
    · exact triple_fail fun _ _ => by decide
    · cases hadd : r.headers.add (ascii "Set-Cookie") text with
      | error e =>
          refine triple_fail fun _ _ => ?_
          unfold Headers.add at hadd
          split at hadd
          · cases hadd
          · cases hadd
            decide
      | ok headers =>
          refine triple_modify fun s hs => ⟨text, hs.2, ?_⟩
          rw [hadd]
          rfl
  · intro s hs
    exact absurd hs.2 hr

theorem expiresAt_ok {σ : Type} {self : Session} {now expires : ℕ} {s s' : σ}
    (h : self.expiresAt now s = .ok expires s') :
    s' = s ∧ (self.maxAge = none ∧ expires = 0 ∨ ∃ maxAge, self.maxAge = some maxAge ∧
      expires = (min ((now + maxAge).tdiv 1000000000) (2 ^ 32 - 1)).toNat) := by
  unfold expiresAt at h
  cases hage : self.maxAge with
  | none =>
      rw [hage] at h
      cases h
      exact ⟨rfl, .inl ⟨rfl, rfl⟩⟩
  | some maxAge =>
      rw [hage] at h
      obtain ⟨_, s₁, hfirst, h⟩ := bind_eq_ok.mp h
      obtain ⟨_, s₂, hsecond, h⟩ := bind_eq_ok.mp h
      rw [assert_run] at hfirst hsecond
      split at hfirst
      · cases hfirst
        split at hsecond
        · cases hsecond
          cases h
          exact ⟨rfl, .inr ⟨maxAge, rfl, rfl⟩⟩
        · cases hsecond
      · cases hfirst

theorem spares_expiresAt {σ : Type} (self : Session) (now : ℕ) :
    Spares (.err .headersAlreadySent) (self.expiresAt now : Act σ ℕ) := by
  unfold expiresAt
  split
  · exact spares_pure _
  · exact (spares_assert (by decide) _).bind fun _ => (spares_assert (by decide) _).bind fun _ =>
      spares_pure _

theorem triple_onRes {x : Act Response Unit} {ctx : Context} {Q : Response → Prop} {E : Fault → Prop}
    (h : Triple (fun s => s = ctx.res) x (fun _ s => Q s) fun f _ => E f) :
    Triple (fun s => s = ctx) (Context.onRes x) (fun _ s => s.session = ctx.session ∧ Q s.res)
      fun f _ => E f := by
  intro s hs
  subst hs
  unfold Context.onRes zoom
  cases hrun : x s.res with
  | ok a res => exact ⟨rfl, h.ok rfl hrun⟩
  | error f res => exact h.error rfl hrun

/-- The cookie that stands for the session, or the one that deletes it. -/
theorem triple_setSession (self : Session) (mac : Mac) {ctx : Context} (now : ℕ)
    (hopen : ctx.res.headersWritten = false) :
    Triple (fun s => s = ctx) (self.setSession mac ctx.session now)
      (fun _ s => s.session = ctx.session ∧ ∃ raw opts text,
        Cookie.serializeCookie self.cookieName raw opts ctx.res = .ok text ctx.res ∧
        ctx.res.headers.add (ascii "Set-Cookie") text = .ok s.res.headers ∧
        (ctx.session.entries = [] ∧ raw = [] ∧ opts.maxAge = some 0 ∨
          ∃ expires, self.expiresAt now ctx = .ok expires ctx ∧
            raw = Base64Url.encode (self.signed mac expires ctx.session.entries) ∧
            opts.maxAge = self.maxAge.orElse fun _ => self.cookieOpts.maxAge))
      (fun f _ => f ≠ .err .headersAlreadySent) := by
  unfold setSession
  split
  · next hempty =>
      refine Triple.weaken (triple_onRes (triple_setCookie self.cookieName [] _ hopen)) (fun _ hs => hs) ?_
        fun _ _ h => h
      rintro _ s ⟨hsession, text, htext, hadd⟩
      exact ⟨hsession, [], _, text, htext, hadd, .inl ⟨List.length_eq_zero_iff.mp hempty, rfl, rfl⟩⟩
  · have hsign : Triple (fun s => s = ctx) (self.signSession mac ctx.session now : Act Context Bytes)
        (fun signed s => s = ctx ∧ ∃ expires, self.expiresAt now ctx = .ok expires ctx ∧
          signed = Base64Url.encode (self.signed mac expires ctx.session.entries))
        (fun f _ => f ≠ .err .headersAlreadySent) := by
      intro s hs
      subst hs
      unfold signSession
      rw [bind_run]
      cases hrun : self.expiresAt now s with
      | ok expires s' =>
          obtain rfl := (expiresAt_ok hrun).1
          exact ⟨rfl, expires, rfl, rfl⟩
      | error f s' =>
          rintro rfl
          exact spares_expiresAt self now s s' hrun
    refine Triple.bind hsign fun signed => ?_
    intro s hs
    obtain ⟨rfl, expires, hexpires, rfl⟩ := hs
    have hset := triple_onRes (triple_setCookie self.cookieName
      (Base64Url.encode (self.signed mac expires s.session.entries))
      { self.cookieOpts with maxAge := self.maxAge.orElse fun _ => self.cookieOpts.maxAge } hopen)
    refine Triple.weaken hset (fun _ hs => hs) ?_ (fun _ _ h => h) s rfl
    rintro _ s' ⟨hsession, text, htext, hadd⟩
    exact ⟨hsession, _, _, text, htext, hadd, .inr ⟨expires, hexpires, rfl, rfl⟩⟩

theorem quoted_encode (bytes : Bytes) : Cookie.quoted (Base64Url.encode bytes) = Base64Url.encode bytes := by
  have hplain : ∀ c ∈ Base64Url.alphabet, (c == 44 || c == 32) = false := by decide
  unfold Cookie.quoted
  rw [if_neg]
  rw [List.any_eq_true]
  rintro ⟨c, hc, hquote⟩
  rw [hplain c (Base64Url.encode_mem bytes c hc)] at hquote
  cases hquote

/-- A cookie does not outlast what is signed in it. -/
theorem lasts_of_live {self : Session} {behind now expires : ℕ} {maxAge : ℤ} {value : Bytes}
    (hage : self.maxAge = some maxAge)
    (hexpires : expires = (min ((behind + maxAge).tdiv 1000000000) (2 ^ 32 - 1)).toNat)
    (hlive : (StoredCookie.mk value (some (if (maxAge.tdiv 1000000000).toNat = 0 then 0
      else behind + (maxAge.tdiv 1000000000).toNat * 1000000000))).live now = true)
    (htime : self.InTime now) : Lasts expires now := by
  have hclock : now / 1000000000 < 2 ^ 32 := by
    rcases htime with hnone | hclock
    · rw [hage] at hnone
      cases hnone
    · exact hclock
  have hless : now < if (maxAge.tdiv 1000000000).toNat = 0 then 0
      else behind + (maxAge.tdiv 1000000000).toNat * 1000000000 := of_decide_eq_true hlive
  split at hless
  · exact absurd hless (Nat.not_lt_zero _)
  · next hpos =>
      have hage' : 0 ≤ maxAge := by
        by_contra hneg
        have hrest : 0 ≤ (-maxAge).tdiv 1000000000 := Int.tdiv_nonneg (by omega) (by omega)
        rw [Int.neg_tdiv] at hrest
        omega
      rw [Int.tdiv_eq_ediv_of_nonneg hage'] at hless hpos
      rw [Int.tdiv_eq_ediv_of_nonneg (by omega)] at hexpires
      refine .inr ⟨hclock, ?_⟩
      omega

/-- **Behind the handler** what the client stores stands for the session. -/
theorem Stands.finished {self : Session} {mac : Mac} {jar : Option StoredCookie} {data : SessionData}
    {mid done : Context} {behind : ℕ} (h : self.Stands mac jar data) (hsound : mid.session.Sound)
    (hsame : mid.session.modified = false → mid.session.entries = data.entries)
    (huntouched : Untouched self.cookieName mid.res) (hrun : self.finish mac behind mid = .ok () done) :
    self.Stands mac (SetCookie.keep self.cookieName behind done.res.headers jar) done.session := by
  obtain ⟨hopen, hother⟩ := huntouched
  unfold finish at hrun
  rw [bind_ok (get_run mid)] at hrun
  cases hshould : self.shouldSet mid.session with
  | false =>
      rw [hshould] at hrun
      cases hrun
      have hentries : mid.session.entries = data.entries := by
        unfold shouldSet at hshould
        exact hsame (Bool.or_eq_false_iff.mp hshould).1
      rw [SetCookie.keep_of_ne hother]
      refine ⟨hsound, fun hjar => hentries.trans (h.none hjar), fun stored hjar => ?_⟩
      rw [hentries]
      exact h.some stored hjar
  | true =>
      rw [hshould] at hrun
      obtain ⟨result, s, hattempt, hrun⟩ := bind_eq_ok.mp hrun
      have hset := triple_setSession self mac behind hopen
      cases result with
      | error e =>
          have hother := hset.error rfl (attempt_eq_error.mp hattempt)
          cases e with
          | headersAlreadySent => exact absurd rfl hother
          | _ => cases hrun
      | ok u =>
          cases hrun
          obtain ⟨hsession, raw, opts, text, htext, hadd, hcase⟩ := hset.ok rfl (attempt_eq_ok.mp hattempt)
          obtain ⟨hname, hvalue⟩ := SetCookie.serializeCookie_pair htext
          rw [SetCookie.keep_add hadd hname, hsession, hvalue]
          refine ⟨hsound, (fun hjar => by cases hjar), fun stored hjar => ?_⟩
          cases hjar
          rcases hcase with ⟨hempty, rfl, hage⟩ | ⟨expires, hexpires, rfl, hage⟩
          · refine .inl ⟨rfl, ?_, hempty⟩
            unfold SetCookie.expires
            rw [SetCookie.serializeCookie_lifetime hage htext]
            rfl
          · obtain ⟨-, hkind⟩ := expiresAt_ok hexpires
            refine .inr ⟨expires, ?_, quoted_encode _, fun now hlive htime => ?_⟩
            · rcases hkind with ⟨-, rfl⟩ | ⟨maxAge, -, rfl⟩
              · decide
              · omega
            · rcases hkind with ⟨-, rfl⟩ | ⟨maxAge, hmaxAge, hclamped⟩
              · exact .inl rfl
              · rw [hmaxAge] at hage
                unfold SetCookie.expires at hlive
                rw [SetCookie.serializeCookie_lifetime hage htext] at hlive
                exact lasts_of_live hmaxAge hclamped hlive htime

theorem Reached.stands {self : Session} {mac : Mac} {jar : Option StoredCookie} {last : SessionData}
    (hname : 61 ∉ self.cookieName) (h : Reached self mac jar last) : self.Stands mac jar last := by
  induction h with
  | start => exact stands_start self mac
  | @request jar last pairs before behind res next done _ hsends htime hhandles hres hrun ih =>
      obtain ⟨loaded, hreceive, hentries, hmodified⟩ := ih.received hname hsends htime res
      unfold execute at hrun
      rw [bind_ok hreceive] at hrun
      obtain ⟨_, mid, hnext, hfinish⟩ := bind_eq_ok.mp hrun
      obtain ⟨⟨ops, hops⟩, huntouched⟩ := hhandles _ _ hnext
      have hloaded : loaded.Sound := ⟨hentries ▸ ih.sound.unique, hentries ▸ ih.sound.text⟩
      refine ih.finished ?_ ?_ (huntouched hres) hfinish
      · rw [hops]
        exact hloaded.applyAll ops
      · intro hunmodified
        rw [hops] at hunmodified ⊢
        rw [applyAll_noted hunmodified]
        exact hentries

/-- **A request finds the session as the last one has left it**, and no key in it twice, as long as the
seconds of the clock fit a `u32` or sessions do not expire. -/
theorem session_persists {self : Session} {mac : Mac} {jar : Option StoredCookie} {last : SessionData}
    {pairs : List CookiePair} {now : ℕ} (hname : 61 ∉ self.cookieName) (h : Reached self mac jar last)
    (hsends : Presents self.cookieName jar pairs now) (htime : self.InTime now) (res : Response) :
    ∃ ctx, self.receive mac (CookiePair.header pairs) now { res := res } = .ok () ctx ∧
      ctx.session.entries = last.entries ∧ (∀ key, ctx.session.get key = last.get key) ∧
      (ctx.session.entries.map (·.key)).Nodup := by
  have hstands := h.stands hname
  obtain ⟨loaded, hreceive, hentries, -⟩ := hstands.received hname hsends htime res
  refine ⟨_, hreceive, hentries, fun key => ?_, hentries ▸ hstands.sound.unique⟩
  unfold SessionData.get
  rw [hentries]

/-! ### Samples -/

/-- A handler that stores a value. -/
def storeOne : Act Context Unit :=
  modify fun ctx => { ctx with session := ctx.session.apply (.set (ascii "a") (ascii "1")) }

theorem handles_storeOne (cookieName : Bytes) : Handles cookieName storeOne := by
  intro ctx ctx' hrun
  cases hrun
  exact ⟨⟨[.set (ascii "a") (ascii "1")], rfl⟩, id⟩

/-- The pair that is stored ten seconds before the `u32` is full. -/
def lastPair : CookiePair where
  name := ascii "session"
  value := ascii "AQAAAP____8AAAAAAAAAAAAAAAAAAAAAAAAAAAAAAAAAAAAAAAAAAGEAMQA"
  name_ok := by decide
  value_ok := by decide +kernel

/-- What the client has stored. -/
def lastJar : StoredCookie := ⟨lastPair.value, some 4294970886000000000⟩

theorem reached_lastJar :
    ∃ last, Reached hourly blankMac (some lastJar) last ∧ last.entries = [⟨ascii "a", ascii "1"⟩] := by
  have hrun : yields (fun _ done =>
      decide (SetCookie.keep hourly.cookieName 4294967286000000000 done.res.headers none = some lastJar) &&
        decide (done.session.entries = [⟨ascii "a", ascii "1"⟩]))
      (hourly.execute blankMac (CookiePair.header []) 4294967286000000000 4294967286000000000 storeOne)
      { res := .init {} 8 } = true := by decide +kernel
  obtain ⟨_, done, hdone, htest⟩ := yields_iff.mp hrun
  rw [Bool.and_eq_true, decide_eq_true_eq, decide_eq_true_eq] at htest
  have hreached := Reached.request .start ⟨rfl, fun _ h => by cases h⟩ (.inr (by decide))
    (handles_storeOne hourly.cookieName) ⟨rfl, fun _ h => by cases h⟩ hdone
  rw [htest.1] at hreached
  exact ⟨_, hreached, htest.2⟩

theorem presents_lastJar {now : ℕ} (h : now < 4294970886000000000) :
    Presents hourly.cookieName (some lastJar) [lastPair] now := by
  have hlive : lastJar.live now = true := decide_eq_true h
  refine ⟨?_, fun stored hstored => .inr (Option.some.inj hstored ▸ hlive)⟩
  simp only [Option.filter_some, hlive, if_true]
  rfl

theorem session_persists_sample :
    ∃ last, Reached hourly blankMac (some lastJar) last ∧
      ∃ ctx, hourly.receive blankMac (CookiePair.header [lastPair]) 4294967290000000000 { res := .init {} 8 } =
          .ok () ctx ∧
        ctx.session.entries = last.entries ∧ (∀ key, ctx.session.get key = last.get key) ∧
        (ctx.session.entries.map (·.key)).Nodup := by
  obtain ⟨last, hreached, -⟩ := reached_lastJar
  exact ⟨last, hreached, session_persists (by decide) hreached (presents_lastJar (by decide))
    (.inr (by decide)) _⟩

/-- When the `u32` is full, the cookie that has not expired brings the server down. -/
theorem session_persists_not :
    ∃ last, Reached hourly blankMac (some lastJar) last ∧ last.entries = [⟨ascii "a", ascii "1"⟩] ∧
      Presents hourly.cookieName (some lastJar) [lastPair] 4294967306000000000 ∧
      faults (.panic .assertion)
        (hourly.receive blankMac (CookiePair.header [lastPair]) 4294967306000000000) { res := .init {} 8 } =
          true := by
  obtain ⟨last, hreached, hentries⟩ := reached_lastJar
  exact ⟨last, hreached, hentries, presents_lastJar (by decide), by decide +kernel⟩

end Session
end Dusty
