import Dusty.Rounds

/-! # The chain of middlewares

`Executor.next` and `Executor.run` of `middleware.zig`, with middlewares that are programs of their own: a middleware
performs steps, looks at what they return and at the request and the response, and may call `next` whenever it likes and
as often as it likes (`Routine`).  However it does, the calls of `next` enter the middlewares in their order, and the
handler behind all of them (`next_in_order`), and what a chain does to a request is what some sequence of steps does
that ends with some outcome (`Chain.execute_flat`), so that the loop of the server with chains is the loop of
`Dusty.Server` (`Exchange.handleChains_eq`). -/

namespace Dusty

open Act

/-- A program that acts on a request and its response: it performs steps, each of which may fail without stopping it,
and makes calls; it goes on with what came back and with the state it finds. -/
inductive Routine (L : Llhttp) (C : Type) where
  | finish (outcome : Option Error)
  | step (step : Step) (resume : Except Error Unit → Exchange L → Routine L C)
  | call (call : C) (resume : Except Error Unit → Exchange L → Routine L C)

/-- `Middleware.execute`; the call is `executor.next`. -/
abbrev Middleware (L : Llhttp) := Exchange L → Routine L Unit

/-- `Router.Handler`; it has nothing to call. -/
abbrev Handler (L : Llhttp) := Exchange L → Routine L Empty

/-- What a call of `next` enters: a middleware, or what is behind the last of them. -/
inductive Entry where
  | middleware (i : ℕ)
  | action
deriving DecidableEq, Repr

/-- `Executor`, without what it never changes.  `entered` is what the calls of `next` have entered so far; it is there
for statements only. -/
structure Chain (L : Llhttp) where
  exchange : Exchange L
  index : ℕ := 0
  entered : List Entry := []

namespace Chain

variable {L : Llhttp} {C : Type}

def setExchange (self : Chain L) (exchange : Exchange L) : Chain L := { self with exchange := exchange }

/-- The next middleware is entered. -/
def enter (self : Chain L) : Chain L :=
  { self with index := self.index + 1, entered := self.entered ++ [.middleware self.index] }

/-- The end of the chain is entered. -/
def enterAction (self : Chain L) : Chain L := { self with entered := self.entered ++ [.action] }

/-- Run an action on the request and its response. -/
def onExchange {α : Type} (x : Act (Exchange L) α) : Act (Chain L) α :=
  Act.zoom (·.exchange) (fun exchange self => self.setExchange exchange) x

/-- A routine, given what its calls do. -/
def runRoutine (call : C → Act (Chain L) Unit) : Routine L C → Act (Chain L) Unit
  | .finish none => pure ()
  | .finish (some e) => Act.fail e
  | .step step resume => do
      let result ← Act.attempt (onExchange (Exchange.perform step))
      let self ← get
      runRoutine call (resume result self.exchange)
  | .call c resume => do
      let result ← Act.attempt (call c)
      let self ← get
      runRoutine call (resume result self.exchange)

section chain
variable (action : Option (Handler L)) (middlewares : List (Middleware L))

/-- `Executor.next`.  The calls of a middleware are nested in it, no deeper than the chain is long. -/
def next : ℕ → Act (Chain L) Unit
  | 0 => Act.die .outOfFuel
  | fuel + 1 => do
      let self ← get
      match middlewares[self.index]? with
      | some middleware => do
          modify enter
          runRoutine (fun _ => next fuel) (middleware self.exchange)
      | none => do
          modify enterAction
          match action with
          | some action => runRoutine Empty.elim (action self.exchange)
          | none => onExchange (Exchange.perform (.res .handleNotFound))

/-- `Executor.run`. -/
def run : Act (Chain L) Unit := do
  match ← Act.attempt (next action middlewares (middlewares.length + 1)) with
  | .ok () => pure ()
  | .error e => onExchange (Exchange.onState (Executor.conclude (some e)))

/-- `Executor.run` of a new executor, for the request and the response it is made for. -/
def execute : Act (Exchange L) Unit := fun exchange =>
  match run action middlewares { exchange := exchange } with
  | .ok () self => .ok () self.exchange
  | .error f self => .error f self.exchange

end chain

/-! ### The fuel is enough -/

/-- A routine makes no difference between calls that do the same wherever it is. -/
theorem runRoutine_congr {I : Chain L → Prop} {call call' : C → Act (Chain L) Unit}
    (hsame : ∀ c self, I self → call c self = call' c self) (hkeeps : ∀ c, Keeps I (call c))
    (hstep : ∀ self exchange, I self → I (self.setExchange exchange)) (routine : Routine L C) {self : Chain L}
    (hself : I self) : runRoutine call routine self = runRoutine call' routine self := by
  have honStep : ∀ step : Step, Keeps I (onExchange (Exchange.perform step)) := fun step =>
    keeps_zoom fun self hself exchange _ => by
      cases Exchange.perform step exchange <;> exact hstep self _ hself
  induction routine generalizing self with
  | finish outcome => cases outcome <;> rfl
  | step step resume ih =>
      rw [runRoutine, runRoutine]
      cases hattempt : attempt (onExchange (Exchange.perform step)) self with
      | error f failed => rw [bind_error hattempt, bind_error hattempt]
      | ok result next =>
          rw [bind_ok hattempt, bind_ok hattempt, bind_ok (get_run next), bind_ok (get_run next)]
          exact ih _ _ ((honStep step).attempt.ok hself hattempt)
  | call c resume ih =>
      rw [runRoutine, runRoutine, bind_run, bind_run, ← attempt_congr (hsame c self hself)]
      cases hattempt : attempt (call c) self with
      | error f failed => rfl
      | ok result next =>
          simp only [bind_ok (get_run next)]
          exact ih _ _ ((hkeeps c).attempt.ok hself hattempt)

/-- The routine performs steps of this kind only. -/
def Performs (S : Step → Prop) : Routine L C → Prop
  | .finish _ => True
  | .step step resume => S step ∧ ∀ result exchange, Performs S (resume result exchange)
  | .call _ resume => ∀ result exchange, Performs S (resume result exchange)

theorem performs_all (routine : Routine L C) : Performs (fun _ => True) routine := by
  induction routine with
  | finish outcome => trivial
  | step step resume ih => exact ⟨trivial, ih⟩
  | call c resume ih => exact ih

theorem keeps_performs {S : Step → Prop} {P : Chain L → Prop} {call : C → Act (Chain L) Unit}
    (hcall : ∀ c, Keeps P (call c)) (hstep : ∀ step, S step → Keeps P (onExchange (Exchange.perform step)))
    (routine : Routine L C) (h : Performs S routine) : Keeps P (runRoutine call routine) := by
  induction routine with
  | finish outcome =>
      cases outcome with
      | none => exact keeps_pure _
      | some e => exact keeps_fail e
  | step step resume ih =>
      exact (hstep step h.1).attempt.bind fun _ => keeps_get_bind fun _ _ => ih _ _ (h.2 _ _)
  | call c resume ih => exact (hcall c).attempt.bind fun _ => keeps_get_bind fun _ _ => ih _ _ (h _ _)

theorem keeps_runRoutine {P : Chain L → Prop} {call : C → Act (Chain L) Unit} (hcall : ∀ c, Keeps P (call c))
    (hstep : ∀ step, Keeps P (onExchange (Exchange.perform step))) (routine : Routine L C) :
    Keeps P (runRoutine call routine) :=
  keeps_performs hcall (fun step _ => hstep step) routine (performs_all routine)

variable {action : Option (Handler L)} {middlewares : List (Middleware L)}

theorem keeps_onExchange {α : Type} {P : Chain L → Prop} (hP : ∀ self exchange, P self → P (self.setExchange exchange))
    (x : Act (Exchange L) α) : Keeps P (onExchange x) :=
  keeps_zoom fun self hself exchange _ => by cases x exchange <;> exact hP self _ hself

section performs
variable {S : Step → Prop} {P : Exchange L → Prop} {n : ℕ} (hsteps : ∀ step, S step → Keeps P (Exchange.perform step))
  (hnotFound : S (.res .handleNotFound)) (hmiddlewares : ∀ i, n ≤ i → ∀ middleware, middlewares[i]? = some middleware →
    ∀ exchange, Performs S (middleware exchange))
  (haction : ∀ handler, action = some handler → ∀ exchange, Performs S (handler exchange))
include hsteps

theorem keeps_behind {step : Step} (h : S step) :
    Keeps (fun self : Chain L => n ≤ self.index ∧ P self.exchange) (onExchange (Exchange.perform step)) :=
  keeps_zoom fun _ hself => (hsteps step h).weaken (fun _ hs => hs ▸ hself.2) (fun _ _ hs => ⟨hself.1, hs⟩)
    fun _ _ hs => ⟨hself.1, hs⟩

include hnotFound hmiddlewares haction

/-- What the steps of everybody behind the first `n` middlewares keep, the rest of the chain keeps. -/
theorem keeps_next (fuel : ℕ) :
    Keeps (fun self : Chain L => n ≤ self.index ∧ P self.exchange) (next action middlewares fuel) := by
  have hstep : ∀ step, S step →
      Keeps (fun self : Chain L => n ≤ self.index ∧ P self.exchange) (onExchange (Exchange.perform step)) :=
    fun step h => keeps_behind hsteps h
  induction fuel with
  | zero => exact keeps_die _
  | succ fuel ih =>
      refine keeps_get_bind fun self hself => ?_
      cases hnext : middlewares[self.index]? with
      | some middleware =>
          exact Keeps.bind (keeps_modify fun _ hs => ⟨Nat.le_succ_of_le hs.1, hs.2⟩) fun _ =>
            keeps_performs (fun _ => ih) hstep _ (hmiddlewares _ hself.1 middleware hnext _)
      | none =>
          refine Keeps.bind (keeps_modify fun _ hs => hs) fun _ => ?_
          cases action with
          | some handler => exact keeps_performs (fun c => c.elim) hstep _ (haction handler rfl _)
          | none => exact hstep _ hnotFound

end performs

theorem keeps_next_index (n fuel : ℕ) : Keeps (fun self : Chain L => n ≤ self.index) (next action middlewares fuel) := by
  have hstep : ∀ {α : Type} (x : Act (Exchange L) α), Keeps (fun self : Chain L => n ≤ self.index) (onExchange x) :=
    fun x => keeps_onExchange (fun _ _ hself => hself) x
  induction fuel with
  | zero => exact keeps_die _
  | succ fuel ih =>
      refine keeps_get_bind fun self _ => ?_
      split
      · exact Keeps.bind (keeps_modify fun _ hself => Nat.le_succ_of_le hself) fun _ =>
          keeps_runRoutine (fun _ => ih) (fun _ => hstep _) _
      · refine Keeps.bind (keeps_modify fun _ hself => hself) fun _ => ?_
        split
        · exact keeps_runRoutine (fun c => c.elim) (fun _ => hstep _) _
        · exact hstep _

/-- **More fuel changes nothing**: the calls are nested no deeper than there are middlewares left. -/
theorem next_fuel {fuel : ℕ} {self : Chain L} (h : middlewares.length - self.index < fuel) :
    next action middlewares (fuel + 1) self = next action middlewares fuel self := by
  induction fuel generalizing self with
  | zero => omega
  | succ fuel ih =>
      rw [next, next, bind_ok (get_run self), bind_ok (get_run self)]
      cases hnext : middlewares[self.index]? with
      | none => rfl
      | some middleware =>
          obtain ⟨hlt, -⟩ := List.getElem?_eq_some_iff.mp hnext
          dsimp only
          rw [bind_ok (modify_run _ _), bind_ok (modify_run _ _)]
          refine runRoutine_congr (I := fun s => self.index + 1 ≤ s.index) (fun _ s hs => ih ?_)
            (fun _ => keeps_next_index _ _) (fun _ _ hs => hs) _ (Nat.le_refl _)
          omega

theorem next_fuel_le {fuel more : ℕ} {self : Chain L} (h : middlewares.length - self.index < fuel) :
    next action middlewares (fuel + more) self = next action middlewares fuel self := by
  induction more with
  | zero => rfl
  | succ more ih =>
      rw [← Nat.add_assoc, next_fuel (by omega)]
      exact ih

/-! ### The order of the middlewares -/

/-- What the `n`-th call of `next` enters in a chain of so many middlewares. -/
def entry (length n : ℕ) : Entry := if n < length then .middleware n else .action

/-- Every call of `next` so far has entered what it had to. -/
def InOrder (length : ℕ) (self : Chain L) : Prop :=
  self.index = min self.entered.length length ∧ self.entered = (List.range self.entered.length).map (entry length)

theorem InOrder.snoc {length : ℕ} {entered : List Entry} {e : Entry}
    (h : entered = (List.range entered.length).map (entry length)) (he : e = entry length entered.length) :
    entered ++ [e] = (List.range (entered ++ [e]).length).map (entry length) := by
  rw [List.length_append, List.length_singleton, List.range_succ, List.map_append, ← h, he]
  rfl

theorem InOrder.enter {self : Chain L} {length : ℕ} (h : InOrder length self) (hlt : self.index < length) :
    InOrder length self.enter := by
  obtain ⟨hindex, hentered⟩ := h
  have hcount : self.entered.length = self.index := by omega
  refine ⟨?_, InOrder.snoc hentered ?_⟩
  · show self.index + 1 = min (self.entered ++ [_]).length length
    rw [List.length_append, List.length_singleton, hcount, Nat.min_eq_left hlt]
  · rw [hcount, entry, if_pos hlt]

theorem InOrder.enterAction {self : Chain L} {length : ℕ} (h : InOrder length self) (hlt : length ≤ self.index) :
    InOrder length self.enterAction := by
  obtain ⟨hindex, hentered⟩ := h
  have hcount : length ≤ self.entered.length := by omega
  refine ⟨?_, InOrder.snoc hentered ?_⟩
  · show self.index = min (self.entered ++ [_]).length length
    rw [List.length_append, List.length_singleton]
    omega
  · rw [entry, if_neg (Nat.not_lt.mpr hcount)]

theorem keeps_next_order (fuel : ℕ) :
    Keeps (InOrder middlewares.length : Chain L → Prop) (next action middlewares fuel) := by
  have hstep : ∀ {α : Type} (x : Act (Exchange L) α), Keeps (InOrder middlewares.length : Chain L → Prop) (onExchange x) :=
    fun x => keeps_onExchange (fun _ _ hself => hself) x
  induction fuel with
  | zero => exact keeps_die _
  | succ fuel ih =>
      refine triple_get_bind fun self => ?_
      cases hnext : middlewares[self.index]? with
      | some middleware =>
          obtain ⟨hlt, -⟩ := List.getElem?_eq_some_iff.mp hnext
          refine Triple.bind (Q := fun _ => InOrder middlewares.length) (triple_modify ?_) fun _ =>
            keeps_runRoutine (fun _ => ih) (fun _ => hstep _) _
          rintro s ⟨hs, rfl⟩
          exact hs.enter hlt
      | none =>
          have hle : middlewares.length ≤ self.index := List.getElem?_eq_none_iff.mp hnext
          refine Triple.bind (Q := fun _ => InOrder middlewares.length) (triple_modify ?_) fun _ => ?_
          · rintro s ⟨hs, rfl⟩
            exact hs.enterAction hle
          · cases action with
            | some action => exact keeps_runRoutine (fun c => c.elim) (fun _ => hstep _) _
            | none => exact hstep _

theorem keeps_entered (n fuel : ℕ) :
    Keeps (fun self : Chain L => n ≤ self.entered.length) (next action middlewares fuel) := by
  have hstep : ∀ {α : Type} (x : Act (Exchange L) α), Keeps (fun self : Chain L => n ≤ self.entered.length) (onExchange x) :=
    fun x => keeps_onExchange (fun _ _ hself => hself) x
  have hsnoc : ∀ (self : Chain L) (e : Entry), n ≤ self.entered.length → n ≤ (self.entered ++ [e]).length := by
    intro self e h
    rw [List.length_append]
    omega
  induction fuel with
  | zero => exact keeps_die _
  | succ fuel ih =>
      refine keeps_get_bind fun self _ => ?_
      split
      · exact Keeps.bind (keeps_modify fun self hself => hsnoc self _ hself) fun _ =>
          keeps_runRoutine (fun _ => ih) (fun _ => hstep _) _
      · refine Keeps.bind (keeps_modify fun self hself => hsnoc self _ hself) fun _ => ?_
        split
        · exact keeps_runRoutine (fun c => c.elim) (fun _ => hstep _) _
        · exact hstep _

theorem next_enters (n fuel : ℕ) : Triple (fun self : Chain L => n ≤ self.entered.length)
    (next action middlewares (fuel + 1)) (fun _ self => n + 1 ≤ self.entered.length)
    fun _ self => n + 1 ≤ self.entered.length := by
  have hstep : ∀ {α : Type} (x : Act (Exchange L) α),
      Keeps (fun self : Chain L => n + 1 ≤ self.entered.length) (onExchange x) :=
    fun x => keeps_onExchange (fun _ _ hself => hself) x
  have hsnoc : ∀ (self : Chain L) (e : Entry), n ≤ self.entered.length → n + 1 ≤ (self.entered ++ [e]).length := by
    intro self e h
    rw [List.length_append, List.length_singleton]
    omega
  refine triple_get_bind fun self => ?_
  split
  · exact Triple.bind (triple_modify fun s hs => hsnoc s _ hs.1) fun _ =>
      keeps_runRoutine (fun _ => keeps_entered _ _) (fun _ => hstep _) _
  · refine Triple.bind (Q := fun _ s => n + 1 ≤ s.entered.length) (triple_modify fun s hs => hsnoc s _ hs.1) fun _ => ?_
    split
    · exact keeps_runRoutine (fun c => c.elim) (fun _ => hstep _) _
    · exact hstep _

theorem run_order (action : Option (Handler L)) (middlewares : List (Middleware L)) (exchange : Exchange L) :
    InOrder middlewares.length (final (run action middlewares) { exchange := exchange }) := by
  have hrun : Keeps (InOrder middlewares.length : Chain L → Prop) (run action middlewares) := by
    refine (keeps_next_order _).attempt.bind fun result => ?_
    cases result with
    | ok u => exact keeps_pure _
    | error e => exact keeps_onExchange (fun _ _ hself => hself) _
  exact keeps_iff_final.mp hrun _ ⟨rfl, rfl⟩

/-- **The middlewares run in their order.**  In whatever way the middlewares call `next`, and however the run ends, the
`n`-th call enters the `n`-th middleware, and the calls behind those enter the handler.  No call is nested too deep for
the fuel. -/
theorem next_in_order (action : Option (Handler L)) (middlewares : List (Middleware L)) (exchange : Exchange L) :
    (∃ calls, (final (run action middlewares) { exchange := exchange }).entered =
      (List.range calls).map fun n => if n < middlewares.length then .middleware n else .action) ∧
      ∀ more, next action middlewares (middlewares.length + 1 + more) { exchange := exchange } =
        next action middlewares (middlewares.length + 1) { exchange := exchange } :=
  ⟨⟨_, (run_order action middlewares exchange).2⟩, fun _ => next_fuel_le (Nat.lt_succ_of_le (Nat.sub_le _ _))⟩

/-! ### What a middleware holds back -/

/-- From a state with the property, the routine performs steps that keep it, and calls at most `n` times. -/
def Holding (I : Exchange L → Prop) : ℕ → Routine L C → Prop
  | _, .finish _ => True
  | n, .step step resume => Keeps I (Exchange.perform step) ∧ ∀ result exchange, I exchange →
      Holding I n (resume result exchange)
  | 0, .call _ _ => False
  | n + 1, .call _ resume => ∀ result exchange, I exchange → Holding I n (resume result exchange)

section holding
variable {I : Exchange L → Prop} {R : Chain L → Prop} (hR : ∀ self exchange, R self → R (self.setExchange exchange))
include hR

theorem keeps_holding_step {step : Step} (hstep : Keeps I (Exchange.perform step)) :
    Keeps (fun self : Chain L => I self.exchange ∧ R self) (onExchange (Exchange.perform step)) :=
  keeps_zoom fun self hself => hstep.weaken (fun _ hex => hex ▸ hself.1) (fun _ ex hex => ⟨hex, hR self ex hself.2⟩)
    fun _ ex hex => ⟨hex, hR self ex hself.2⟩

/-- A routine that does not call leaves the rest of the chain alone. -/
theorem holding_quiet (call : C → Act (Chain L) Unit) (routine : Routine L C) :
    Holding I 0 routine → Keeps (fun self : Chain L => I self.exchange ∧ R self) (runRoutine call routine) := by
  induction routine with
  | finish outcome =>
      intro _
      cases outcome with
      | none => exact keeps_pure _
      | some e => exact keeps_fail e
  | step step resume ih =>
      intro hholding
      exact (keeps_holding_step hR hholding.1).attempt.bind fun result =>
        keeps_get_bind fun self hself => ih _ _ (hholding.2 _ _ hself.1)
  | call c resume ih => exact fun hholding => hholding.elim

/-- A routine that calls at most once does to the rest of the chain what the call does. -/
theorem holding_once {S : Chain L → Prop} (hS : ∀ self exchange, S self → S (self.setExchange exchange))
    (hweaker : ∀ self, R self → S self) {call : C → Act (Chain L) Unit}
    (hcall : ∀ c, Triple (fun self => I self.exchange ∧ R self) (call c) (fun _ self => I self.exchange ∧ S self)
      fun _ self => I self.exchange ∧ S self) (routine : Routine L C) :
    Holding I 1 routine → Triple (fun self => I self.exchange ∧ R self) (runRoutine call routine)
      (fun _ self => I self.exchange ∧ S self) fun _ self => I self.exchange ∧ S self := by
  have hstays : ∀ self : Chain L, I self.exchange ∧ R self → I self.exchange ∧ S self :=
    fun self hself => ⟨hself.1, hweaker self hself.2⟩
  induction routine with
  | finish outcome =>
      intro _
      cases outcome with
      | none => exact triple_pure hstays
      | some e => exact triple_fail hstays
  | step step resume ih =>
      intro hholding
      refine triple_attempt_bind (keeps_holding_step hR hholding.1) (fun _ => ?_) (fun e => ?_) fun _ s hs => hstays s hs
      all_goals
        refine triple_get_bind fun self => ?_
        rintro s ⟨hs, rfl⟩
        exact ih _ _ (hholding.2 _ _ hs.1) s hs
  | call c resume ih =>
      intro hholding
      have hafter : ∀ result, Keeps (fun self : Chain L => I self.exchange ∧ S self) (do
          let self ← get
          runRoutine call (resume result self.exchange)) := fun result =>
        keeps_get_bind fun self hself => holding_quiet hS call _ (hholding _ _ hself.1)
      exact triple_attempt_bind (hcall c) (fun _ => hafter _) (fun _ => hafter _) fun _ _ hs => hs

end holding

section held
variable {I : Exchange L → Prop} {i : ℕ}
  (hbefore : ∀ j < i, ∀ middleware, middlewares[j]? = some middleware → ∀ exchange, I exchange →
    Holding I 1 (middleware exchange))
  (hholds : ∀ middleware, middlewares[i]? = some middleware → ∀ exchange, I exchange → Holding I 0 (middleware exchange))
  (hend : middlewares.length ≤ i → ∀ exchange, I exchange)
include hbefore hholds hend

theorem next_held (action : Option (Handler L)) (fuel n : ℕ) (hn : n ≤ i) (hi : i ≤ middlewares.length) :
    Triple (fun self : Chain L => I self.exchange ∧ self.index = n ∧ self.entered.length = n)
      (next action middlewares fuel) (fun _ self => I self.exchange ∧ self.entered.length ≤ i + 1)
      fun _ self => I self.exchange ∧ self.entered.length ≤ i + 1 := by
  induction fuel generalizing n with
  | zero => exact triple_die fun _ hself => ⟨hself.1, by omega⟩
  | succ fuel ih =>
      refine triple_get_bind fun self => ?_
      rintro s ⟨⟨hI, hindex, hcount⟩, rfl⟩
      have hlength : (s.entered ++ [Entry.middleware s.index]).length = n + 1 := by
        rw [List.length_append, List.length_singleton, hcount]
      cases hnext : middlewares[s.index]? with
      | some middleware =>
          dsimp only
          rw [bind_ok (modify_run _ _)]
          rw [hindex] at hnext
          rcases Nat.lt_or_eq_of_le hn with hlt | rfl
          · exact holding_once (R := fun self => self.index = n + 1 ∧ self.entered.length = n + 1)
              (S := fun self => self.entered.length ≤ i + 1) (fun _ _ hs => hs) (fun _ _ hs => hs)
              (fun _ hs => by omega) (fun _ => ih (n + 1) hlt) _ (hbefore n hlt middleware hnext _ hI) _
              ⟨hI, congrArg (· + 1) hindex, hlength⟩
          · exact (holding_quiet (R := fun self => self.entered.length ≤ n + 1) (fun _ _ hs => hs) _ _
              (hholds middleware hnext _ hI)).weaken (fun _ hs => hs) (fun _ _ hs => hs) (fun _ _ hs => hs) _
              ⟨hI, hlength.le⟩
      | none =>
          -- the end of the chain is the last entry that is allowed
          have hle : middlewares.length ≤ s.index := List.getElem?_eq_none_iff.mp hnext
          have hall : ∀ exchange, I exchange := hend (by omega)
          have hstays : ∀ {x : Act (Chain L) Unit}, Keeps (fun self : Chain L => self.entered.length ≤ i + 1) x →
              Triple (fun self : Chain L => self.entered.length ≤ i + 1) x
                (fun _ self => I self.exchange ∧ self.entered.length ≤ i + 1)
                fun _ self => I self.exchange ∧ self.entered.length ≤ i + 1 := fun hx =>
            hx.weaken (fun _ hs => hs) (fun _ _ hs => ⟨hall _, hs⟩) fun _ _ hs => ⟨hall _, hs⟩
          dsimp only
          rw [bind_ok (modify_run _ _)]
          have hentered : s.enterAction.entered.length ≤ i + 1 := by
            show (s.entered ++ [_]).length ≤ i + 1
            rw [List.length_append, List.length_singleton, hcount]
            omega
          have hstep : ∀ {α : Type} (x : Act (Exchange L) α),
              Keeps (fun self : Chain L => self.entered.length ≤ i + 1) (onExchange x) :=
            fun x => keeps_onExchange (fun _ _ hself => hself) x
          cases action with
          | some action => exact hstays (keeps_runRoutine (fun c => c.elim) (fun _ => hstep _) _) _ hentered
          | none => exact hstays (hstep _) _ hentered

theorem run_held (hi : i ≤ middlewares.length) {exchange : Exchange L} (hI : I exchange) :
    (final (run action middlewares) { exchange := exchange }).entered.length ≤ i + 1 := by
  have hnext := next_held hbefore hholds hend action (middlewares.length + 1) 0 (Nat.zero_le i) hi
  have hrun : Triple (fun self : Chain L => I self.exchange ∧ self.index = 0 ∧ self.entered.length = 0)
      (run action middlewares) (fun _ self => self.entered.length ≤ i + 1) fun _ self => self.entered.length ≤ i + 1 := by
    refine triple_attempt_bind hnext (fun _ => triple_pure fun _ hs => hs.2) (fun e => ?_) fun _ _ hs => hs.2
    exact (keeps_onExchange (P := fun self : Chain L => self.entered.length ≤ i + 1) (fun _ _ hself => hself) _).weaken
      (fun _ hs => hs.2) (fun _ _ hs => hs) fun _ _ hs => hs
  exact hrun.final ⟨hI, rfl, rfl⟩

/-- **What a middleware holds back.**  If a request has a property that nobody in front of the `i`-th middleware takes
from it, if they call `next` at most once, and if the `i`-th does not call it for such a request, then nobody behind it
is entered.  Where there is no such middleware, because `i` is the length of the chain, the handler is entered at most
once. -/
theorem held_back (hi : i ≤ middlewares.length) {exchange : Exchange L} (hI : I exchange) :
    ∃ calls ≤ i + 1, (final (run action middlewares) { exchange := exchange }).entered =
      (List.range calls).map fun n => if n < middlewares.length then .middleware n else .action :=
  ⟨_, run_held hbefore hholds hend hi hI, (run_order action middlewares exchange).2⟩

end held

/-- A middleware that hands the request on. -/
def passing : Middleware L := fun _ => .call () fun _ _ => .finish none

/-- A middleware that answers the request itself. -/
def answering (body : Bytes) : Middleware L := fun _ => .step (.res (.setBody body)) fun _ _ => .finish none

theorem held_back_sample : ∃ calls ≤ 2, (final (run none [passing, answering (ascii "no"), passing])
    { exchange := (Exchange.accept {} { chunks := [] } {} : Exchange (Http1.llhttp false)) }).entered =
        (List.range calls).map fun n => if n < 3 then .middleware n else .action := by
  refine held_back (I := fun _ => True) (i := 1) (fun j hj middleware hmiddleware _ _ => ?_)
    (fun middleware hmiddleware _ _ => ?_) (fun hle => absurd hle (by decide)) (by decide) trivial
  · obtain rfl : j = 0 := by omega
    obtain rfl : passing = middleware := Option.some.inj hmiddleware
    exact fun _ _ _ => trivial
  · obtain rfl : answering (ascii "no") = middleware := Option.some.inj hmiddleware
    exact ⟨keeps_of_forall fun _ => trivial, fun _ _ _ => trivial⟩

/-! ### A chain and its steps -/

/-- Steps lead from a request and a response to where a run of a chain has led. -/
def Replays {α : Type} (steps : List Step) (before : Exchange L) : EStateM.Result Fault (Chain L) α → Prop
  | .ok _ self => ∃ results, Exchange.performAll steps before = .ok results self.exchange
  | .error (.err _) self => ∃ results, Exchange.performAll steps before = .ok results self.exchange
  | .error (.panic p) self => Exchange.performAll steps before = .error (.panic p) self.exchange

/-- From wherever the action starts behind the first `n` middlewares, some steps lead to where it leads. -/
def Flat {α : Type} (n : ℕ) (x : Act (Chain L) α) : Prop :=
  ∀ self, n ≤ self.index → ∃ steps, Replays steps self.exchange (x self)

theorem performAll_append {first rest : List Step} {self self' : Exchange L} {results : List (Except Error Unit)}
    (h : Exchange.performAll first self = .ok results self') :
    Exchange.performAll (first ++ rest) self =
      (Exchange.performAll rest >>= fun more => pure (results ++ more)) self' := by
  induction first generalizing self results with
  | nil =>
      cases h
      rw [List.nil_append, bind_run]
      cases Exchange.performAll rest self' <;> rfl
  | cons step first ih =>
      obtain ⟨result, self₁, hstep, h⟩ := bind_eq_ok.mp h
      obtain ⟨more, self₂, hfirst, h⟩ := bind_eq_ok.mp h
      cases h
      rw [List.cons_append, Exchange.performAll, bind_ok hstep, bind_run, ih hfirst, bind_run, bind_run]
      cases Exchange.performAll rest self' <;> rfl

theorem Replays.append {α : Type} {first rest : List Step} {before : Exchange L} {self : Chain L}
    {results : List (Except Error Unit)} (hfirst : Exchange.performAll first before = .ok results self.exchange)
    {r : EStateM.Result Fault (Chain L) α} (hrest : Replays rest self.exchange r) :
    Replays (first ++ rest) before r := by
  have hok : ∀ {after : Exchange L}, (∃ more, Exchange.performAll rest self.exchange = .ok more after) →
      ∃ more, Exchange.performAll (first ++ rest) before = .ok more after := by
    rintro after ⟨more, hmore⟩
    exact ⟨results ++ more, by rw [performAll_append hfirst, bind_ok hmore]; rfl⟩
  cases r with
  | ok a after => exact hok hrest
  | error f after =>
      cases f with
      | err e => exact hok hrest
      | panic p =>
          show Exchange.performAll (first ++ rest) before = _
          rw [performAll_append hfirst, bind_error (show Exchange.performAll rest self.exchange = _ from hrest)]

theorem final_execute (action : Option (Handler L)) (middlewares : List (Middleware L)) (exchange : Exchange L) :
    final (execute action middlewares) exchange =
      (final (run action middlewares) { exchange := exchange }).exchange := by
  unfold final execute
  cases run action middlewares { exchange := exchange } <;> rfl

section flat
variable {α β : Type} {n : ℕ}

theorem flat_of_still {x : Act (Chain L) α} (h : ∀ self, (final x self).exchange = self.exchange)
    (hpanics : ∀ p, Spares (.panic p) x) : Flat n x := by
  intro self _
  have hstill := h self
  refine ⟨[], ?_⟩
  cases hrun : x self with
  | ok a after =>
      rw [final_of_ok hrun] at hstill
      exact ⟨[], by rw [hstill]; rfl⟩
  | error f after =>
      rw [final_of_error hrun] at hstill
      cases f with
      | err e => exact ⟨[], by rw [hstill]; rfl⟩
      | panic p => exact absurd hrun (hpanics p self after)

theorem Flat.bind {x : Act (Chain L) α} {f : α → Act (Chain L) β} (hx : Flat n x)
    (hindex : Keeps (fun self : Chain L => n ≤ self.index) x) (hf : ∀ a, Flat n (f a)) : Flat n (x >>= f) := by
  intro self hn
  obtain ⟨first, hfirst⟩ := hx self hn
  rw [bind_run]
  cases hrun : x self with
  | ok a after =>
      rw [hrun] at hfirst
      obtain ⟨results, hresults⟩ := hfirst
      obtain ⟨rest, hrest⟩ := hf a after (hindex.ok hn hrun)
      exact ⟨first ++ rest, Replays.append hresults hrest⟩
  | error e after =>
      rw [hrun] at hfirst
      exact ⟨first, by cases e <;> exact hfirst⟩

theorem Flat.attempt {x : Act (Chain L) α} (hx : Flat n x) : Flat n (attempt x) := by
  intro self hn
  obtain ⟨steps, hsteps⟩ := hx self hn
  refine ⟨steps, ?_⟩
  cases hrun : x self with
  | ok a after =>
      rw [hrun] at hsteps
      rw [attempt_ok hrun]
      exact hsteps
  | error f after =>
      rw [hrun] at hsteps
      cases f with
      | err e =>
          rw [attempt_error hrun]
          exact hsteps
      | panic p =>
          unfold Act.attempt
          rw [hrun]
          exact hsteps

theorem flat_step (step : Step) : Flat n (onExchange (Exchange.perform step) : Act (Chain L) Unit) := by
  intro self _
  refine ⟨[step], ?_⟩
  unfold onExchange zoom
  cases hrun : Exchange.perform step self.exchange with
  | ok u after =>
      refine ⟨[.ok u], ?_⟩
      rw [Exchange.performAll, bind_ok (attempt_ok hrun)]
      rfl
  | error f after =>
      cases f with
      | err e =>
          refine ⟨[.error e], ?_⟩
          rw [Exchange.performAll, bind_ok (attempt_error hrun)]
          rfl
      | panic p =>
          have hattempt : Act.attempt (Exchange.perform step) self.exchange = .error (.panic p) after := by
            unfold Act.attempt
            rw [hrun]
          show Exchange.performAll [step] self.exchange = _
          rw [Exchange.performAll, bind_error hattempt]
          rfl

theorem flat_runRoutine {call : C → Act (Chain L) Unit} (hcall : ∀ c, Flat n (call c))
    (hindex : ∀ c, Keeps (fun self : Chain L => n ≤ self.index) (call c)) (routine : Routine L C) :
    Flat n (runRoutine call routine) := by
  have hstep : ∀ step, Keeps (fun self : Chain L => n ≤ self.index) (onExchange (Exchange.perform step)) :=
    fun step => keeps_onExchange (fun _ _ hself => hself) _
  induction routine with
  | finish outcome =>
      cases outcome with
      | none => exact flat_of_still (fun _ => rfl) fun p => spares_pure ()
      | some e => exact flat_of_still (fun _ => rfl) fun p => spares_fail nofun
  | step step resume ih =>
      exact (flat_step step).attempt.bind (hstep step).attempt fun _ => fun self hn => ih _ _ self hn
  | call c resume ih =>
      exact (hcall c).attempt.bind (hindex c).attempt fun _ => fun self hn => ih _ _ self hn

theorem flat_next {fuel : ℕ} (h : middlewares.length - n < fuel) : Flat n (next action middlewares fuel) := by
  induction fuel generalizing n with
  | zero => omega
  | succ fuel ih =>
      intro self hn
      rw [next, bind_ok (get_run self)]
      cases hnext : middlewares[self.index]? with
      | some middleware =>
          obtain ⟨hlt, -⟩ := List.getElem?_eq_some_iff.mp hnext
          dsimp only
          rw [bind_ok (modify_run _ _)]
          have hflat : Flat (self.index + 1) (next action middlewares fuel) := ih (by omega)
          exact flat_runRoutine (fun _ => hflat) (fun _ => keeps_next_index _ _) _ self.enter (Nat.le_refl _)
      | none =>
          dsimp only
          rw [bind_ok (modify_run _ _)]
          cases action with
          | some action => exact flat_runRoutine (fun c => c.elim) (fun c => c.elim) _ self.enterAction hn
          | none => exact flat_step _ self.enterAction hn

end flat

/-- **A chain is its steps.**  What a chain of middlewares does to a request and its response is what some sequence of
steps does that ends with some outcome. -/
theorem execute_flat (action : Option (Handler L)) (middlewares : List (Middleware L)) (exchange : Exchange L) :
    ∃ steps outcome, execute action middlewares exchange = Exchange.execute steps outcome exchange := by
  have hflat : Flat 0 (next action middlewares (middlewares.length + 1)) := flat_next (Nat.lt_succ_self _)
  obtain ⟨steps, hsteps⟩ := hflat { exchange := exchange } (Nat.zero_le _)
  unfold execute run Exchange.execute
  cases hnext : next action middlewares (middlewares.length + 1) { exchange := exchange } with
  | ok u self =>
      rw [hnext] at hsteps
      obtain ⟨results, hresults⟩ := hsteps
      refine ⟨steps, none, ?_⟩
      rw [bind_ok (attempt_ok hnext), bind_ok hresults]
      rfl
  | error f self =>
      rw [hnext] at hsteps
      cases f with
      | err e =>
          obtain ⟨results, hresults⟩ := hsteps
          refine ⟨steps, some e, ?_⟩
          rw [bind_ok (attempt_error hnext), bind_ok hresults]
          unfold onExchange zoom
          dsimp only
          cases Exchange.onState (Executor.conclude (some e)) self.exchange <;> rfl
      | panic p =>
          refine ⟨steps, none, ?_⟩
          have hattempt : Act.attempt (next action middlewares (middlewares.length + 1)) { exchange := exchange } =
              .error (.panic p) self := by
            unfold Act.attempt
            rw [hnext]
          rw [bind_error hattempt, bind_error (show Exchange.performAll steps exchange = _ from hsteps)]

end Chain

namespace Exchange

variable {L : Llhttp}

/-! ### The server with chains -/

/-- The middlewares of a request: those of its route, or the global ones. -/
def middlewaresOf {H M : Type} (server : Server H M) (found : Option (Route H M)) : List M :=
  match found with
  | some route => route.middlewares
  | none => server.middlewares

/-- `executor.run()`. -/
def executeChain (server : Server (Handler L) (Middleware L)) (found : Option (Route (Handler L) (Middleware L))) :
    Act (Exchange L) Unit :=
  Chain.execute (found.map (·.action)) (middlewaresOf server found)

/-- A request is handed to its chain and answered. -/
def respondChain (server : Server (Handler L) (Middleware L)) (requestCount : ℕ) (shuttingDown : Bool) :
    Act (Exchange L) Next := do
  limitKeepalive server.config requestCount
  let found ← onRequest server.router.findHandler
  nameCause (executeChain server found)
  finish server.config.request shuttingDown

/-- The loop's body behind `parseHeaders`. -/
def serveChain (server : Server (Handler L) (Middleware L)) (requestCount : ℕ) (shuttingDown : Bool) :
    Act (Exchange L) Next := do
  modify (begin server.config)
  let self ← get
  if expectsUnknown self.request then do
    refuse
    pure .close
  else do
    modify noteExpect
    respondChain server requestCount shuttingDown

/-- `handleRequests`, for as many requests as it is said of whether the server is being shut down behind their
chains. -/
def handleChains (server : Server (Handler L) (Middleware L)) : ℕ → List Bool → Act (Exchange L) Unit
  | _, [] => pure ()
  | requestCount, shuttingDown :: rest => do
      let parsed ← awaitRequest
      if !parsed then pure ()
      else
        let next ← serveChain server (requestCount + 1) shuttingDown
        if next = .close then pure ()
        else
          let more ← awaitNext server.config.request
          if !more then pure () else handleChains server (requestCount + 1) rest

/-- What the application does for any request, and whether the server is being shut down then. -/
def whatever (steps : List Step) (outcome : Option Error) (shuttingDown : Bool) {H M : Type} :
    Option H → List M → Visit := fun _ _ => ⟨steps, outcome, shuttingDown⟩

theorem visit_whatever {H M : Type} (server : Server H M) (steps : List Step) (outcome : Option Error)
    (shuttingDown : Bool) (found : Option (Route H M)) :
    visit server (whatever steps outcome shuttingDown) found = ⟨steps, outcome, shuttingDown⟩ := by
  cases found <;> rfl

theorem executeChain_flat (server : Server (Handler L) (Middleware L))
    (found : Option (Route (Handler L) (Middleware L))) (self : Exchange L) :
    ∃ steps outcome, executeChain server found self = execute steps outcome self :=
  Chain.execute_flat _ _ self

theorem respondChain_eq (server : Server (Handler L) (Middleware L)) (requestCount : ℕ) (shuttingDown : Bool)
    (self : Exchange L) :
    ∃ steps outcome, respondChain server requestCount shuttingDown self =
      respond server requestCount (whatever steps outcome shuttingDown) self := by
  unfold respondChain respond
  simp only [visit_whatever]
  cases hlimit : limitKeepalive server.config requestCount self with
  | error f failed => exact ⟨[], none, by rw [bind_error hlimit, bind_error hlimit]⟩
  | ok u limited =>
      cases hroute : onRequest server.router.findHandler limited with
      | error f failed =>
          exact ⟨[], none, by rw [bind_ok hlimit, bind_ok hlimit, bind_error hroute, bind_error hroute]⟩
      | ok found routed =>
          obtain ⟨steps, outcome, hflat⟩ := executeChain_flat server found routed
          refine ⟨steps, outcome, ?_⟩
          rw [bind_ok hlimit, bind_ok hlimit, bind_ok hroute, bind_ok hroute]
          have hcause : nameCause (executeChain server found) routed = nameCause (execute steps outcome) routed := by
            unfold nameCause
            rw [bind_run, bind_run, attempt_congr hflat]
          rw [bind_run, bind_run, hcause]

theorem serveChain_eq (server : Server (Handler L) (Middleware L)) (requestCount : ℕ) (shuttingDown : Bool)
    (self : Exchange L) :
    ∃ steps outcome, serveChain server requestCount shuttingDown self =
      serve server requestCount (whatever steps outcome shuttingDown) self := by
  obtain ⟨steps, outcome, hrespond⟩ := respondChain_eq server requestCount shuttingDown
    (noteExpect (begin server.config self))
  refine ⟨steps, outcome, ?_⟩
  unfold serveChain serve
  rw [bind_ok (modify_run _ _), bind_ok (modify_run _ _), bind_ok (get_run _), bind_ok (get_run _)]
  split
  · rfl
  · rw [bind_ok (modify_run _ _), bind_ok (modify_run _ _)]
    exact hrespond

/-- **The loop with chains is the loop.**  For every run of the server whose handlers and middlewares are programs there
are steps and outcomes, one sequence and one outcome for each request, with which the loop does the same; so whatever
holds of the loop, whatever the application does, holds of the server with its middlewares. -/
theorem handleChains_eq (server : Server (Handler L) (Middleware L)) (requestCount : ℕ) (downs : List Bool)
    (self : Exchange L) : ∃ visits : List (List Step × Option Error), visits.length = downs.length ∧
      handleChains server requestCount downs self = handleRequests server requestCount
        (List.zipWith (fun visit down => whatever visit.1 visit.2 down) visits downs) self := by
  induction downs generalizing requestCount self with
  | nil => exact ⟨[], rfl, rfl⟩
  | cons down downs ih =>
      -- where the loop does not come to the rest, the rest is anything
      have hstop : ∀ visit : List Step × Option Error, handleChains server requestCount (down :: downs) self =
          handleRequests server requestCount (whatever visit.1 visit.2 down ::
            List.zipWith (fun visit down => whatever visit.1 visit.2 down)
              (List.replicate downs.length ([], none)) downs) self →
          ∃ visits : List (List Step × Option Error), visits.length = (down :: downs).length ∧
            handleChains server requestCount (down :: downs) self = handleRequests server requestCount
              (List.zipWith (fun visit down => whatever visit.1 visit.2 down) visits (down :: downs)) self :=
        fun visit h => ⟨visit :: List.replicate downs.length ([], none), by simp, h⟩
      cases hparse : awaitRequest self with
      | error f failed =>
          exact hstop ([], none) (by rw [handleChains, handleRequests, bind_error hparse, bind_error hparse])
      | ok parsed s =>
          obtain ⟨steps, outcome, hserve⟩ := serveChain_eq server (requestCount + 1) down s
          cases parsed with
          | false =>
              exact hstop ([], none) (by rw [handleChains, handleRequests, bind_ok hparse, bind_ok hparse]; rfl)
          | true =>
              have hround : ∀ rest, handleRequests server requestCount (whatever steps outcome down :: rest) self =
                  (serveChain server (requestCount + 1) down >>= fun next =>
                    if next = .close then pure ()
                    else do
                      let more ← awaitNext server.config.request
                      if !more then pure () else handleRequests server (requestCount + 1) rest) s := by
                intro rest
                rw [handleRequests, bind_ok hparse, if_neg (by decide), bind_run, ← hserve, bind_run]
              have hchain : handleChains server requestCount (down :: downs) self =
                  (serveChain server (requestCount + 1) down >>= fun next =>
                    if next = .close then pure ()
                    else do
                      let more ← awaitNext server.config.request
                      if !more then pure () else handleChains server (requestCount + 1) downs) s := by
                rw [handleChains, bind_ok hparse, if_neg (by decide)]
              cases hnext : serveChain server (requestCount + 1) down s with
              | error f failed =>
                  exact hstop (steps, outcome) (by rw [hchain, hround, bind_error hnext, bind_error hnext])
              | ok next served =>
                  cases next with
                  | close => exact hstop (steps, outcome) (by rw [hchain, hround, bind_ok hnext, bind_ok hnext]; rfl)
                  | again =>
                      cases hwait : awaitNext server.config.request served with
                      | error f failed =>
                          refine hstop (steps, outcome) ?_
                          rw [hchain, hround, bind_ok hnext, bind_ok hnext, if_neg (by decide), if_neg (by decide),
                            bind_error hwait, bind_error hwait]
                      | ok more waited =>
                          obtain ⟨visits, hlength, hrest⟩ := ih (requestCount + 1) waited
                          refine ⟨(steps, outcome) :: visits, by simp [hlength], ?_⟩
                          show _ = handleRequests server requestCount (whatever steps outcome down ::
                            List.zipWith (fun visit down => whatever visit.1 visit.2 down) visits downs) self
                          rw [hchain, hround, bind_ok hnext, bind_ok hnext, if_neg (by decide), if_neg (by decide),
                            bind_ok hwait, bind_ok hwait]
                          cases more with
                          | false => rfl
                          | true => exact hrest

end Exchange
end Dusty
