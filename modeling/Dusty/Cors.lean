import Dusty.LastRequest
import Dusty.Middleware

/-! # Cross-origin requests

The middleware `Cors.zig`.  It sets what a browser asks for and answers a preflight by itself, so that nothing behind it
is entered for one (`Cors.preflight_held`, `Cors.handed_on_iff`).  A field a middleware has set is in every header block
that is sent later, that of an error response included, unless somebody sets the field again (`fieldwise_displays`); so a
chain that begins with this middleware allows the origin in its response, whatever becomes of the request
(`Cors.allowed_routed`). -/

namespace Dusty

open Act

/-! ### A field that was set -/

theorem HeaderEntry.isFor_other {entry : HeaderEntry} {name other : Bytes} (h : entry.isFor name = true)
    (hother : eqlIgnoreCase name other = false) : entry.isFor other = false := by
  by_contra hfor
  rw [Bool.not_eq_false, HeaderEntry.isFor_iff] at hfor
  rw [HeaderEntry.isFor_iff] at h
  exact Bool.false_ne_true (hother.symm.trans (eqlIgnoreCase_trans (eqlIgnoreCase_symm h) hfor))

namespace Headers

theorem mem_setFirst {name value : Bytes} {entry : HeaderEntry} (hother : entry.isFor name = false) :
    ∀ {entries : List HeaderEntry}, entry ∈ entries → entry ∈ setFirst name value entries
  | first :: rest, h => by
      unfold setFirst
      rcases List.mem_cons.mp h with rfl | hrest
      · rw [if_neg (by rw [hother]; decide)]
        exact List.mem_cons_self
      · split
        · exact List.mem_cons_of_mem _ hrest
        · exact List.mem_cons_of_mem _ (mem_setFirst hother hrest)

theorem mem_add {self headers : Headers} {name value : Bytes} (h : self.add name value = .ok headers) :
    headers.entries = self.entries ++ [.make name value] := by
  unfold add at h
  split at h
  · cases h
    rfl
  · cases h

theorem mem_put {self headers : Headers} {name value : Bytes} {entry : HeaderEntry}
    (hother : entry.isFor name = false) (h : self.put name value = .ok headers) (hmem : entry ∈ self.entries) :
    entry ∈ headers.entries := by
  unfold put at h
  split at h
  · cases h
    exact mem_setFirst hother hmem
  · rw [mem_add h]
    exact List.mem_append_left _ hmem

end Headers

namespace Response

/-- A field with the name is there, and it makes the line. -/
def Displays (name line : Bytes) (r : Response) : Prop :=
  ∃ entry ∈ r.headers.entries, entry.isFor name = true ∧ entryLine entry = line

/-- The library itself sets and removes fields with other names only. -/
def Foreign (name : Bytes) : Prop := ∀ own ∈ ascii "Content-Length" :: ownFields, eqlIgnoreCase name own = false

variable {name line : Bytes}

theorem settable_displays {other : Bytes} (hother : eqlIgnoreCase name other = false) :
    Settable (Displays name line) other := by
  rintro r value headers ⟨entry, hmem, hfor, hline⟩ _ hput
  exact ⟨entry, Headers.mem_put (HeaderEntry.isFor_other hfor hother) hput hmem, hfor, hline⟩

/-- **A field stays**, whatever the library does to the response. -/
theorem fieldwise_displays (hname : Foreign name) : Fieldwise (Displays name line) where
  aside := by
    intro r r' hr hheaders _
    unfold Displays
    rw [hheaders]
    exact hr
  settable own hown := settable_displays (hname own (List.mem_cons_of_mem _ hown))
  addCookie := by
    rintro r value headers ⟨entry, hmem, hfor, hline⟩ hadd
    refine ⟨entry, ?_, hfor, hline⟩
    show entry ∈ headers.entries
    rw [Headers.mem_add hadd]
    exact List.mem_append_left _ hmem
  remove := by
    rintro r ⟨entry, hmem, hfor, hline⟩
    have htype := HeaderEntry.isFor_other hfor (hname (ascii "Content-Type") (by decide))
    have hlength := HeaderEntry.isFor_other hfor (hname (ascii "Content-Length") (by decide))
    refine ⟨entry, List.mem_filter.mpr ⟨List.mem_filter.mpr ⟨hmem, ?_⟩, ?_⟩, hfor, hline⟩
    · rw [htype]
      rfl
    · rw [hlength]
      rfl

theorem Displays.mem_headLines {r : Response} (h : Displays name line r) : line ∈ r.headLines := by
  obtain ⟨entry, hmem, -, rfl⟩ := h
  exact List.mem_append_left _ (List.mem_append_left _ (List.mem_cons_of_mem _ (List.mem_map_of_mem hmem)))

theorem lasting_displays (hname : Foreign name) (before : List (Part × Bytes)) :
    Lasting (Bears (Displays name line) before line) :=
  (fieldwise_displays hname).bears before fun _ hr => hr.mem_headLines

end Response

/-! ### The middleware -/

namespace Routine

variable {L : Llhttp} {C : Type}

/-- `try` of a step. -/
def must (step : Step) (rest : Exchange L → Routine L C) : Routine L C :=
  .step step fun result exchange =>
    match result with
    | .ok () => rest exchange
    | .error e => .finish (some e)

/-- `return executor.next()`. -/
def handOn : Routine L Unit :=
  .call () fun result _ =>
    match result with
    | .ok () => .finish none
    | .error e => .finish (some e)

/-- `try res.header(name, value)`, if there is a value. -/
def optionalHeader (name : Bytes) (value : Option Bytes) (rest : Exchange L → Routine L C) (exchange : Exchange L) :
    Routine L C :=
  match value with
  | some value => must (.res (.header name value)) rest
  | none => rest exchange

end Routine

/-- The configuration of `Cors.zig`. -/
structure Cors where
  origin : Bytes
  headers : Option Bytes := none
  methods : Option Bytes := none
  maxAge : Option Bytes := none

namespace Cors

variable {L : Llhttp}

def allowOrigin : Bytes := ascii "Access-Control-Allow-Origin"

def requestMethod : Bytes := ascii "Access-Control-Request-Method"

theorem named_noContent : (statusTable.lookup 204).isSome = true := by decide

/-- `http.Status.no_content`. -/
def noContent : Status := ⟨204, named_noContent⟩

/-- The answer to a preflight. -/
def answer (self : Cors) : Exchange L → Routine L Unit :=
  .optionalHeader (ascii "Access-Control-Allow-Headers") self.headers <|
    .optionalHeader (ascii "Access-Control-Allow-Methods") self.methods <|
      .optionalHeader (ascii "Access-Control-Max-Age") self.maxAge fun _ =>
        .step (.res (.setStatus noContent)) fun _ _ => .finish none

/-- What `execute` does when the origin is set. -/
def proceed (self : Cors) (exchange : Exchange L) : Routine L Unit :=
  if exchange.request.method ≠ .options then .handOn
  else if (exchange.request.headers.get requestMethod).isNone then .handOn
  else self.answer exchange

/-- `Cors.execute`. -/
def execute (self : Cors) : Middleware L := fun _ =>
  .must (.res (.header allowOrigin self.origin)) fun exchange =>
    if self.origin ≠ ascii "*" then .must (.res (.header (ascii "Vary") (ascii "Origin"))) self.proceed
    else self.proceed exchange

/-- A browser asks whether it may send a request. -/
def Preflight (exchange : Exchange L) : Prop :=
  exchange.request.method = .options ∧ (exchange.request.headers.get requestMethod).isSome = true

/-! ### A preflight goes no further -/

open Chain

/-- An operation on the response has nothing to do with the request. -/
theorem keeps_preflight (op : Op) : Keeps (Preflight : Exchange L → Prop) (Exchange.perform (.res op)) :=
  keeps_zoom fun _ hself st _ => by cases Executor.exec op st <;> exact hself

theorem holding_must {n : ℕ} {op : Op} {rest : Exchange L → Routine L Unit}
    (h : ∀ exchange, Preflight exchange → Holding Preflight n (rest exchange)) :
    Holding Preflight n (.must (.res op) rest) := by
  unfold Routine.must Holding
  refine ⟨keeps_preflight op, fun result exchange hpreflight => ?_⟩
  cases result with
  | ok u => exact h exchange hpreflight
  | error e =>
      unfold Holding
      trivial

theorem holding_optionalHeader {n : ℕ} {name : Bytes} {value : Option Bytes} {rest : Exchange L → Routine L Unit}
    (h : ∀ exchange, Preflight exchange → Holding Preflight n (rest exchange)) :
    ∀ exchange, Preflight exchange → Holding Preflight n (.optionalHeader name value rest exchange) := by
  intro exchange hpreflight
  cases value with
  | some value => exact holding_must h
  | none => exact h exchange hpreflight

theorem holding_execute (self : Cors) (exchange : Exchange L) : Holding Preflight 0 (self.execute exchange) := by
  have hanswer : ∀ exchange : Exchange L, Preflight exchange → Holding Preflight 0 (self.answer exchange) := by
    refine holding_optionalHeader (holding_optionalHeader (holding_optionalHeader fun exchange _ => ?_))
    unfold Holding
    exact ⟨keeps_preflight _, fun _ _ _ => trivial⟩
  have hproceed : ∀ exchange : Exchange L, Preflight exchange → Holding Preflight 0 (self.proceed exchange) := by
    intro exchange hpreflight
    unfold proceed
    rw [if_neg (by simp [hpreflight.1]), if_neg (by simp [Option.isNone_iff_eq_none, ← Option.isSome_iff_ne_none, hpreflight.2])]
    exact hanswer exchange hpreflight
  refine holding_must fun exchange hpreflight => ?_
  split
  · exact holding_must hproceed
  · exact hproceed exchange hpreflight

theorem preflight_entered (self : Cors) (action : Option (Handler L)) {middlewares : List (Middleware L)} {i : ℕ}
    (hself : middlewares[i]? = some self.execute)
    (hbefore : ∀ j < i, ∀ middleware, middlewares[j]? = some middleware → ∀ exchange, Preflight exchange →
      Holding Preflight 1 (middleware exchange))
    {exchange : Exchange L} (hpreflight : Preflight exchange) :
    (final (run action middlewares) { exchange := exchange }).entered.length ≤ i + 1 := by
  obtain ⟨hi, -⟩ := List.getElem?_eq_some_iff.mp hself
  refine run_held hbefore (fun middleware hmiddleware exchange _ => ?_) (fun hle => absurd hi (Nat.not_lt.mpr hle)) hi.le
    hpreflight
  cases hself.symm.trans hmiddleware
  exact holding_execute self exchange

/-- **A preflight goes no further** than the first middleware that answers it: wherever it stands in the chain, if those in
front of it call `next` at most once and do not change what the request asks for, nobody behind it is entered. -/
theorem preflight_held (self : Cors) {action : Option (Handler L)} {middlewares : List (Middleware L)} {i : ℕ}
    (hself : middlewares[i]? = some self.execute)
    (hbefore : ∀ j < i, ∀ middleware, middlewares[j]? = some middleware → ∀ exchange, Preflight exchange →
      Holding Preflight 1 (middleware exchange))
    {exchange : Exchange L} (hpreflight : Preflight exchange) :
    ∃ calls ≤ i + 1, (final (run action middlewares) { exchange := exchange }).entered =
      (List.range calls).map .middleware := by
  have hentered := preflight_entered self action hself hbefore hpreflight
  obtain ⟨hi, -⟩ := List.getElem?_eq_some_iff.mp hself
  refine ⟨_, hentered, (run_order action middlewares exchange).2.trans (List.map_congr_left fun n hn => ?_)⟩
  have hlt := List.mem_range.mp hn
  exact if_pos (by omega)

/-- Any origin may send the request. -/
def anyOrigin : Cors := { origin := ascii "*" }

/-- A request as a browser sends it first. -/
def preflightRequest : Exchange (Http1.llhttp false) :=
  (Exchange.accept {} { chunks := [] } {}).setRequest
    { method := .options, headers := ⟨4, [.make requestMethod (ascii "PUT")], by decide⟩ }

theorem preflight_held_sample : ∃ calls ≤ 2,
    (final (run none [passing, anyOrigin.execute, passing]) { exchange := preflightRequest }).entered =
      (List.range calls).map .middleware := by
  refine preflight_held anyOrigin (i := 1) rfl (fun j hj middleware hmiddleware _ _ => ?_) ⟨rfl, by decide⟩
  obtain rfl : j = 0 := by omega
  obtain rfl : passing = middleware := Option.some.inj hmiddleware
  exact fun _ _ _ => trivial

/-! ### Everything else does -/

theorem perform_header {exchange : Exchange L} {name value : Bytes} {headers : Headers}
    (hopen : exchange.res.headersWritten = false) (hname : validHeaderName name = true)
    (hvalue : validHeaderValue value = true) (hput : exchange.res.headers.put name value = .ok headers) :
    Exchange.perform (.res (.header name value)) exchange =
      .ok () (exchange.setState (exchange.st.setRes (exchange.res.setHeaders headers))) := by
  refine Exchange.onRes_ok (x := Response.header name value) ?_
  rw [Response.header_run name value hopen hname hvalue, hput]

theorem put_room {self : Headers} (name value : Bytes) (hroom : self.entries.length < self.cap) :
    ∃ headers, self.put name value = .ok headers ∧ headers.cap = self.cap ∧
      headers.entries.length ≤ self.entries.length + 1 := by
  unfold Headers.put
  split
  · exact ⟨_, rfl, rfl, by rw [Headers.setFirst_length]; omega⟩
  · unfold Headers.add
    rw [dif_pos hroom]
    exact ⟨_, rfl, rfl, by rw [List.length_append, List.length_singleton]⟩

theorem runRoutine_must {call : Unit → Act (Chain L) Unit} {step : Step} {rest : Exchange L → Routine L Unit}
    {self : Chain L} {exchange : Exchange L} (h : Exchange.perform step self.exchange = .ok () exchange) :
    runRoutine call (.must step rest) self = runRoutine call (rest exchange) (self.setExchange exchange) := by
  have hstep : onExchange (Exchange.perform step) self = .ok () (self.setExchange exchange) := by
    unfold onExchange zoom
    rw [h]
  unfold Routine.must
  rw [runRoutine, bind_ok (attempt_ok hstep), bind_ok (get_run _)]
  rfl

/-- The fields in front of everything else are set. -/
theorem execute_run (self : Cors) (call : Unit → Act (Chain L) Unit) {s : Chain L} (exchange : Exchange L)
    (hvalid : validHeaderValue self.origin = true) (hopen : s.exchange.res.headersWritten = false)
    (hroom : s.exchange.res.headers.entries.length + 2 ≤ s.exchange.res.headers.cap) :
    ∃ after, runRoutine call (self.execute exchange) s = runRoutine call (self.proceed after) (s.setExchange after) ∧
      after.request = s.exchange.request := by
  obtain ⟨headers, hput, hcap, hlength⟩ := put_room allowOrigin self.origin (by omega : _ < s.exchange.res.headers.cap)
  unfold execute
  rw [runRoutine_must (perform_header hopen (by decide) hvalid hput)]
  split
  · obtain ⟨varied, hvary, -, -⟩ := put_room (ascii "Vary") (ascii "Origin")
      (by omega : headers.entries.length < headers.cap)
    exact ⟨_, runRoutine_must (perform_header hopen (by decide) (by decide) hvary), rfl⟩
  · exact ⟨_, rfl, rfl⟩

theorem proceed_other {exchange : Exchange L} (h : ¬Preflight exchange) (self : Cors) :
    self.proceed exchange = .handOn := by
  unfold proceed
  split
  · rfl
  · next hmethod =>
      rw [if_pos]
      by_contra hsome
      refine h ⟨not_not.mp hmethod, ?_⟩
      rw [← Option.not_isNone, Bool.not_eq_true', Bool.eq_false_iff]
      exact hsome

/-- **Only a preflight goes no further**: in front of a chain the middleware hands every other request on. -/
theorem handed_on_iff (self : Cors) (action : Option (Handler L)) (rest : List (Middleware L)) {exchange : Exchange L}
    (hvalid : validHeaderValue self.origin = true) (hopen : exchange.res.headersWritten = false)
    (hroom : exchange.res.headers.entries.length + 2 ≤ exchange.res.headers.cap) :
    1 < (final (run action (self.execute :: rest)) { exchange := exchange }).entered.length ↔ ¬Preflight exchange := by
  constructor
  · intro hentered hpreflight
    have hfirst : (self.execute :: rest)[0]? = some (self.execute : Middleware L) := rfl
    have hheld := preflight_entered self action hfirst (fun j hj => absurd hj (Nat.not_lt_zero j)) hpreflight
    omega
  · intro hother
    have hkeeps : ∀ {α : Type} (x : Act (Exchange L) α),
        Keeps (fun self : Chain L => 2 ≤ self.entered.length) (onExchange x) :=
      fun x => keeps_onExchange (fun _ _ hself => hself) x
    suffices hnext : 2 ≤ (final (next action (self.execute :: rest) (rest.length + 2)) { exchange := exchange }).entered.length by
      unfold run
      refine final_bind_of (P := fun self : Chain L => 2 ≤ self.entered.length) ?_ fun result => ?_
      · rw [final_attempt]
        exact hnext
      · cases result with
        | ok u => exact keeps_pure _
        | error e => exact hkeeps _
    obtain ⟨after, hexecute, hrequest⟩ := execute_run self
      (fun _ => next action (self.execute :: rest) (rest.length + 1)) (s := Chain.enter { exchange := exchange }) exchange
      hvalid hopen hroom
    have hsame : ¬Preflight after := by
      unfold Preflight
      rw [hrequest]
      exact hother
    have hrun : next action (self.execute :: rest) (rest.length + 2) { exchange := exchange } =
        runRoutine (fun _ => next action (self.execute :: rest) (rest.length + 1)) .handOn
          ((Chain.enter { exchange := exchange }).setExchange after) := by
      rw [← proceed_other hsame self, ← hexecute, next, bind_ok (get_run _)]
      rfl
    have hcall : Triple (fun self : Chain L => 1 ≤ self.entered.length)
        (runRoutine (fun _ => next action (self.execute :: rest) (rest.length + 1)) .handOn)
        (fun _ self => 2 ≤ self.entered.length) fun _ self => 2 ≤ self.entered.length := by
      refine triple_attempt_bind (next_enters 1 _) (fun _ => ?_) (fun e => ?_) fun _ _ h => h
      · exact keeps_get_bind fun _ _ => keeps_pure _
      · exact keeps_get_bind fun _ _ => keeps_fail _
    have hfinal : final (next action (self.execute :: rest) (rest.length + 2)) { exchange := exchange } =
        final (runRoutine (fun _ => next action (self.execute :: rest) (rest.length + 1)) .handOn)
          ((Chain.enter { exchange := exchange }).setExchange after) := by
      unfold final
      rw [hrun]
    rw [hfinal]
    exact hcall.final (Nat.le_refl 1)

/-- The request that follows. -/
def plainRequest : Exchange (Http1.llhttp false) :=
  (Exchange.accept {} { chunks := [] } {}).setRequest { method := .put }

theorem handed_on_iff_sample :
    (¬1 < (final (run none [anyOrigin.execute, passing]) { exchange := preflightRequest }).entered.length) ∧
      1 < (final (run none [anyOrigin.execute, passing]) { exchange := plainRequest }).entered.length := by
  rw [handed_on_iff anyOrigin none [passing] (by decide) (by decide) (by decide),
    handed_on_iff anyOrigin none [passing] (by decide) (by decide) (by decide), not_not]
  refine ⟨⟨rfl, by decide⟩, ?_⟩
  rintro ⟨hmethod, -⟩
  cases hmethod

end Cors

/-! ### The origin is allowed in every response -/

namespace Chain

open Exchange Response

variable {L : Llhttp}

/-- The step does not set the field. -/
def SetsNot (name : Bytes) : Step → Prop
  | .res (.header other _) => eqlIgnoreCase name other = false
  | _ => True

theorem SetsNot.spared {name line : Bytes} {before : List (Part × Bytes)} {step : Step} (h : SetsNot name step) :
    Spared (Bears (Displays name line) before line) step := by
  refine Spared.bears ?_
  cases step with
  | res op =>
      cases op with
      | header other value => exact settable_displays h
      | _ => trivial
  | setKeepalive keepalive => exact fun _ hr => hr
  | _ => trivial

theorem performs_must {S : Step → Prop} {C : Type} {step : Step} {rest : Exchange L → Routine L C} (hstep : S step)
    (h : ∀ exchange, Performs S (rest exchange)) : Performs S (.must step rest) := by
  refine ⟨hstep, fun result exchange => ?_⟩
  cases result with
  | ok u => exact h exchange
  | error e => trivial

theorem performs_optionalHeader {S : Step → Prop} {C : Type} {name : Bytes} {value : Option Bytes}
    {rest : Exchange L → Routine L C} (hstep : ∀ value, S (.res (.header name value)))
    (h : ∀ exchange, Performs S (rest exchange)) (exchange : Exchange L) :
    Performs S (.optionalHeader name value rest exchange) := by
  cases value with
  | some value => exact performs_must (hstep value) h
  | none => exact h exchange

end Chain

namespace Cors

open Exchange Response Chain

variable {L : Llhttp}

/-- What is behind the first field sets other fields only. -/
theorem performs_proceed (self : Cors) (exchange : Exchange L) : Performs (SetsNot allowOrigin) (self.proceed exchange) := by
  have hhandOn : Performs (SetsNot allowOrigin) (.handOn : Routine L Unit) := by
    intro result _
    cases result with
    | ok u => trivial
    | error e => trivial
  have hheaders : eqlIgnoreCase allowOrigin (ascii "Access-Control-Allow-Headers") = false := by decide
  have hmethods : eqlIgnoreCase allowOrigin (ascii "Access-Control-Allow-Methods") = false := by decide
  have hmaxAge : eqlIgnoreCase allowOrigin (ascii "Access-Control-Max-Age") = false := by decide
  unfold proceed
  split
  · exact hhandOn
  split
  · exact hhandOn
  · unfold answer
    refine performs_optionalHeader (fun _ => hheaders) ?_ exchange
    refine performs_optionalHeader (fun _ => hmethods) ?_
    refine performs_optionalHeader (fun _ => hmaxAge) fun _ => ?_
    exact ⟨trivial, fun _ _ => trivial⟩

/-- The line of the header block. -/
def originLine (self : Cors) : Bytes := fieldLine allowOrigin self.origin

/-- The origin is set, and it has been announced with the headers. -/
def Allowed (self : Cors) (before : List (Part × Bytes)) : Response → Prop :=
  Bears (Displays allowOrigin self.originLine) before self.originLine

theorem lasting_allowed (self : Cors) (before : List (Part × Bytes)) : Lasting (self.Allowed before) := by
  refine lasting_displays ?_ before
  unfold Foreign
  decide

/-- A response nothing was done to yet. -/
structure Fresh (conn : Conn) (max : ℕ) (r : Response) : Prop where
  conn_eq : r.conn = conn
  headersWritten : r.headersWritten = false
  headers : r.headers = Headers.init max

theorem allowed_first (self : Cors) {r : Response} {conn : Conn} {max : ℕ} (hfresh : Fresh conn max r) (hmax : 0 < max)
    (hfaults : conn.faults = []) :
    ∃ headers, r.headers.put allowOrigin self.origin = .ok headers ∧ self.Allowed conn.log (r.setHeaders headers) := by
  have hroom : r.headers.entries.length < r.headers.cap := by
    rw [hfresh.headers]
    exact hmax
  obtain ⟨headers, hput, -, -⟩ := put_room allowOrigin self.origin hroom
  have hadd : headers.entries = [.make allowOrigin self.origin] := by
    rw [hfresh.headers] at hput
    exact Headers.mem_add hput
  refine ⟨headers, hput, ?_, ⟨.make allowOrigin self.origin, ?_, ?_, rfl⟩, [], ?_, fun hw => ?_⟩
  · show r.conn.faults = []
    rw [hfresh.conn_eq, hfaults]
  · show _ ∈ headers.entries
    rw [hadd]
    exact List.mem_singleton_self _
  · rw [HeaderEntry.isFor_eq]
    exact eqlIgnoreCase_refl _
  · show r.conn.log = _
    rw [hfresh.conn_eq, List.append_nil]
  · cases hfresh.headersWritten.symm.trans hw

section chain
variable (self : Cors) {action : Option (Handler L)} {rest : List (Middleware L)}
  (hrest : ∀ middleware ∈ rest, ∀ exchange, Performs (SetsNot allowOrigin) (middleware exchange))
  (haction : ∀ handler, action = some handler → ∀ exchange, Performs (SetsNot allowOrigin) (handler exchange))
  (hvalid : validHeaderValue self.origin = true)

theorem keeps_allowed_step (before : List (Part × Bytes)) {step : Step} (h : SetsNot allowOrigin step) :
    Keeps (fun s : Exchange L => self.Allowed before s.res) (Exchange.perform step) :=
  lasting_perform (self.lasting_allowed before) h.spared

include hrest haction

/-- Nobody behind the middleware takes the field away. -/
theorem keeps_allowed_next (before : List (Part × Bytes)) (fuel : ℕ) :
    Keeps (fun s : Chain L => 1 ≤ s.index ∧ self.Allowed before s.exchange.res)
      (next action (self.execute :: rest) fuel) := by
  refine keeps_next (fun step h => keeps_allowed_step self before h) trivial (fun i hi middleware hmiddleware => ?_)
    haction fuel
  cases i with
  | zero => omega
  | succ i => exact hrest middleware (List.mem_of_getElem? hmiddleware)

include hvalid

/-- A chain that begins with the middleware sets the field. -/
theorem allowed_next {exchange : Exchange L} {conn : Conn} {max : ℕ} (hfresh : Fresh conn max exchange.res)
    (hmax : 0 < max) (hfaults : conn.faults = []) (fuel : ℕ) :
    self.Allowed conn.log (final (next action (self.execute :: rest) (fuel + 1)) { exchange := exchange }).exchange.res := by
  obtain ⟨headers, hput, hallowed⟩ := self.allowed_first hfresh hmax hfaults
  have hset : Exchange.perform (.res (.header allowOrigin self.origin)) exchange =
      .ok () (exchange.setState (exchange.st.setRes (exchange.res.setHeaders headers))) :=
    perform_header hfresh.headersWritten (by decide) hvalid hput
  have hrun : next action (self.execute :: rest) (fuel + 1) { exchange := exchange } =
      runRoutine (fun _ => next action (self.execute :: rest) fuel) (self.execute exchange)
        (Chain.enter { exchange := exchange }) := by
    rw [next, bind_ok (get_run _)]
    rfl
  have hentered : 1 ≤ (Chain.enter { exchange := exchange }).index ∧ self.Allowed conn.log
      ((Chain.enter { exchange := exchange }).setExchange
        (exchange.setState (exchange.st.setRes (exchange.res.setHeaders headers)))).exchange.res :=
    ⟨Nat.le_refl 1, hallowed⟩
  unfold final
  rw [hrun, execute, runRoutine_must hset]
  refine (keeps_iff_final.mp (keeps_performs (fun _ => keeps_allowed_next self hrest haction conn.log fuel)
    (fun step h => keeps_behind (fun step h => keeps_allowed_step self conn.log h) h) _ ?_) _ hentered).2
  split
  · exact performs_must (show eqlIgnoreCase allowOrigin (ascii "Vary") = false by decide) self.performs_proceed
  · exact self.performs_proceed _

theorem allowed_execute {exchange : Exchange L} {conn : Conn} {max : ℕ} (hfresh : Fresh conn max exchange.res)
    (hmax : 0 < max) (hfaults : conn.faults = []) :
    self.Allowed conn.log (final (Chain.execute action (self.execute :: rest)) exchange).res := by
  rw [Chain.final_execute]
  unfold run
  refine final_bind_of (P := fun s : Chain L => self.Allowed conn.log s.exchange.res) ?_ fun result => ?_
  · rw [final_attempt]
    exact allowed_next self hrest haction hvalid hfresh hmax hfaults _
  · cases result with
    | ok u => exact keeps_pure _
    | error e =>
        have hconclude : Keeps (fun s : Exchange L => self.Allowed conn.log s.res)
            (onState (Executor.conclude (some e))) :=
          lasting_onState (Executor.lasting_conclude (self.lasting_allowed conn.log) (some e))
        exact keeps_zoom fun s hs => hconclude.weaken (fun _ h => h ▸ hs) (fun _ _ h => h) fun _ _ h => h

end chain

/-! ### A round -/

variable {server : Server (Handler L) (Middleware L)} {requestCount : ℕ}

theorem keeps_fresh_choose (conn : Conn) (max : ℕ) :
    Keeps (fun s : Exchange L => Fresh conn max s.res) (chooseRoute server requestCount) :=
  Keeps.bind (keeps_get_bind fun _ _ => (keeps_onRes_res (keeps_modify fun _ h => ⟨h.1, h.2, h.3⟩)).when _) fun _ =>
    lasting_route server.router

theorem fresh_opening (config : ServerConfig) (parsed : Exchange L) :
    Fresh parsed.res.conn config.request.maxHeaderCount (opening config parsed).res := by
  show Fresh _ _ (opening config parsed).st.res
  rw [opening_st]
  exact ⟨rfl, rfl, rfl⟩

/-- The way of a request whose expectations are known. -/
theorem serveChain_known (server : Server (Handler L) (Middleware L)) (requestCount : ℕ) (shuttingDown : Bool)
    {parsed : Exchange L} (hknown : expectsUnknown parsed.request = false) :
    serveChain server requestCount shuttingDown parsed = (chooseRoute server requestCount >>= fun found =>
      nameCause (executeChain server found) >>= fun _ => finish server.config.request shuttingDown)
        (opening server.config parsed) := by
  have hexpects : ¬expectsUnknown (begin server.config parsed).request = true := by
    show ¬expectsUnknown parsed.request = true
    rw [hknown]
    decide
  unfold serveChain
  rw [bind_ok (modify_run _ _), bind_ok (get_run _), if_neg hexpects, bind_ok (modify_run _ _)]
  unfold chooseRoute
  rw [bind_assoc]
  rfl

/-- A request whose chain begins with the middleware. -/
theorem allowed_routed (self : Cors) {routed : Exchange L} {found : Option (Route (Handler L) (Middleware L))}
    {rest : List (Middleware L)} (shuttingDown : Bool) {conn : Conn} {max : ℕ} (hfresh : Fresh conn max routed.res)
    (hmax : 0 < max) (hfaults : conn.faults = []) (hchain : middlewaresOf server found = self.execute :: rest)
    (hrest : ∀ middleware ∈ rest, ∀ exchange, Performs (SetsNot allowOrigin) (middleware exchange))
    (haction : ∀ route, found = some route → ∀ exchange, Performs (SetsNot allowOrigin) (route.action exchange))
    (hvalid : validHeaderValue self.origin = true) :
    self.Allowed conn.log (final (nameCause (executeChain server found) >>= fun _ =>
      finish server.config.request shuttingDown) routed).res := by
  have hlasting := self.lasting_allowed conn.log
  refine final_bind_of (P := fun s : Exchange L => self.Allowed conn.log s.res) ?_ fun _ => ?_
  · refine final_bind_of (P := fun s : Exchange L => self.Allowed conn.log s.res) ?_ fun result => ?_
    · rw [final_attempt]
      unfold executeChain
      rw [hchain]
      refine allowed_execute self hrest (fun handler hhandler => ?_) hvalid hfresh hmax hfaults
      obtain ⟨route, rfl, rfl⟩ := Option.map_eq_some_iff.mp hhandler
      exact haction route rfl
    · cases result with
      | ok u => exact keeps_pure _
      | error e => exact keeps_get_bind fun _ _ => keeps_fail _
  · exact (lasting_drain hlasting _).bind fun _ => ((lasting_noKeepalive hlasting).when _).bind fun _ =>
      lasting_written hlasting

end Cors
end Dusty
