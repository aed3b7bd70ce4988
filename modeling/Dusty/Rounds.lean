import Dusty.HandlerSteps
import Dusty.MessageBoundary

/-! # The rounds of the loop

The states in which `handleRequests` is about to parse another request, for any number of requests on a
connection, and what holds in all of them (`Reached.invariant`).  A round is taken apart where the response
is written: `chooseRoute` finds the route, `handle` runs the handler and drains the body, and `write` sends what is
still to be sent. -/

namespace Dusty

open Act

namespace Exchange

variable {L : Llhttp} {H M : Type}

/-! ### One round -/

/-- A request before its handler: whether it may be followed by another one, and its route. -/
def chooseRoute (server : Server H M) (requestCount : ℕ) : Act (Exchange L) (Option (Route H M)) := do
  limitKeepalive server.config requestCount
  onRequest server.router.findHandler

/-- The handler, and what is done about the body it left unread. -/
def handle (server : Server H M) (app : Option H → List M → Visit) (found : Option (Route H M)) :
    Act (Exchange L) Unit := do
  nameCause (execute (visit server app found).steps (visit server app found).outcome)
  drain server.config.request
  Act.when (visit server app found).shuttingDown noKeepalive

/-- Everything in front of the last `write`. -/
def prepare (server : Server H M) (requestCount : ℕ) (app : Option H → List M → Visit) : Act (Exchange L) Unit := do
  let found ← chooseRoute server requestCount
  handle server app found

theorem answer_eq (server : Server H M) (requestCount : ℕ) (app : Option H → List M → Visit) :
    (answer server requestCount app : Act (Exchange L) Unit) =
      (prepare server requestCount app >>= fun _ => onRes Response.write) := by
  unfold answer prepare chooseRoute handle settleBody
  simp only [bind_assoc]

/-- What the round begins with: a new response, and whether the client waits for an interim response. -/
def opening (config : ServerConfig) (self : Exchange L) : Exchange L := noteExpect (begin config self)

theorem opening_st (config : ServerConfig) (self : Exchange L) :
    (opening config self).st = (begin config self).st := by
  unfold opening noteExpect
  split <;> rfl

theorem opening_socket (config : ServerConfig) (self : Exchange L) : (opening config self).socket = none := by
  unfold opening noteExpect
  split <;> rfl

theorem serve_eq (server : Server H M) (requestCount : ℕ) (app : Option H → List M → Visit) (self : Exchange L) :
    serve server requestCount app self =
      if expectsUnknown self.request then (refuse >>= fun _ => pure .close) (begin server.config self)
      else (prepare server requestCount app >>= fun _ => onRes Response.write >>= fun _ => goRound)
        (opening server.config self) := by
  unfold serve
  rw [bind_ok (modify_run _ _), bind_ok (get_run _)]
  have hsame : (begin server.config self).request = self.request := rfl
  rw [hsame]
  split
  · rfl
  · rw [bind_ok (modify_run _ _), respond_eq, answer_eq, bind_assoc]
    rfl

theorem final_serve (server : Server H M) (requestCount : ℕ) (app : Option H → List M → Visit) (self : Exchange L) :
    final (serve server requestCount app) self =
      if expectsUnknown self.request then final (refuse >>= fun _ => pure Next.close) (begin server.config self)
      else final (prepare server requestCount app >>= fun _ => onRes Response.write >>= fun _ => goRound)
        (opening server.config self) := by
  unfold final
  rw [serve_eq]
  cases expectsUnknown self.request <;> rfl

/-! ### Responses in a round -/

theorem onRes_ok {α : Type} {x : Act Response α} {self : Exchange L} {a : α} {r : Response} (h : x self.res = .ok a r) :
    onRes x self = .ok a (self.setState (self.st.setRes r)) := by
  unfold onRes onState HandlerState.onRes zoom
  rw [show x self.st.res = .ok a r from h]

theorem onRes_error {α : Type} {x : Act Response α} {self : Exchange L} {f : Fault} {r : Response}
    (h : x self.res = .error f r) : onRes x self = .error f (self.setState (self.st.setRes r)) := by
  unfold onRes onState HandlerState.onRes zoom
  rw [show x self.st.res = .error f r from h]

theorem final_onRes_res {α : Type} (x : Act Response α) (self : Exchange L) :
    (final (onRes x) self).res = final x self.res := by
  cases hx : x self.res with
  | ok a r =>
      rw [final_of_ok hx, final_of_ok (onRes_ok hx)]
      rfl
  | error f r =>
      rw [final_of_error hx, final_of_error (onRes_error hx)]
      rfl

theorem keeps_onRes_res {α : Type} {P : Response → Prop} {x : Act Response α} (h : Keeps P x) :
    Keeps (fun self : Exchange L => P self.res) (onRes x) := by
  refine keeps_iff_final.mpr fun self hself => ?_
  rw [final_onRes_res]
  exact keeps_iff_final.mp h _ hself

theorem goRound_st (P : HandlerState → Prop) : Keeps (fun self : Exchange L => P self.st) goRound := by
  refine keeps_get_bind fun self _ => ?_
  split
  · exact keeps_pure _
  · exact Keeps.bind (keeps_modify fun _ hself => hself) fun _ => keeps_get_bind fun _ _ => keeps_pure _

/-- The end of the loop's body has nothing to do with the response. -/
theorem final_write_goRound (self : Exchange L) :
    (final (onRes Response.write >>= fun _ => goRound) self).res = final Response.write self.res := by
  have hround := final_bind_of (P := fun s : Exchange L => s.res = final Response.write self.res)
    (final_onRes_res Response.write self) fun _ => goRound_st (fun st => st.res = final Response.write self.res)
  exact hround

section Holds

variable {P : Bool → Response → Prop} {G : Response → Prop}

open HandlerState

/-- What holds of a new response holds at the beginning. -/
theorem holds_opening (config : ServerConfig) (self : Exchange L)
    (h : P (opening config self).request.expectsContinue (begin config self).res) : Holds P (opening config self) := by
  unfold Holds
  rw [opening_st, opening_socket]
  refine ⟨⟨h, fun hsome => by cases hsome⟩, fun hopen => ?_, fun hstream => ?_⟩
  · simp [Opened, begin] at hopen
  · simp [begin] at hstream

theorem chooseRoute_holds (h : ∀ waiting, Response.Rides (P waiting)) (server : Server H M) (requestCount : ℕ) :
    Keeps (Holds (L := L) P) (chooseRoute server requestCount) :=
  Keeps.bind (keeps_get_bind fun _ _ => (noKeepalive_holds h).when _) fun _ => route_holds _

/-- What the steps of the handler lead to stays behind them, up to the last `write`. -/
theorem handle_holds (h : ∀ waiting, Response.Rides (P waiting)) {server : Server H M}
    {app : Option H → List M → Visit} {found : Option (Route H M)} {self : Exchange L}
    (hself : Holds P (final (performAll (visit server app found).steps) self)) :
    Holds P (final (handle server app found) self) :=
  final_bind_of (nameCause_holds (final_bind_of hself fun _ => conclude_holds h _)) fun _ =>
    (drain_holds h _).bind fun _ => (noKeepalive_holds h).when _

/-- **Everything in front of the last `write`** keeps what the steps of the handler keep. -/
theorem prepare_holds (h : Carried G P) {server : Server H M} {requestCount : ℕ} {app : Option H → List M → Visit}
    {self : Exchange L} (hself : Holds P self)
    (hready : ∀ found self', chooseRoute server requestCount self = .ok found self' →
      AllReady G (visit server app found).steps self') :
    Holds P (final (prepare server requestCount app) self) := by
  unfold prepare
  cases hchoose : chooseRoute server requestCount self with
  | error f self' =>
      rw [final_of_error (bind_error hchoose)]
      exact (chooseRoute_holds h.rides server requestCount).error hself hchoose
  | ok found self' =>
      rw [final_bind_ok hchoose]
      have hrouted : Holds P self' := (chooseRoute_holds h.rides server requestCount).ok hself hchoose
      exact handle_holds h.rides (final_performAll h hrouted (hready found self' hchoose))

/-- **A round** keeps of its response what the steps of the handler and the last `write` keep. -/
theorem serve_holds {Q : Response → Prop} (h : Carried G P) (hP : ∀ waiting r, P waiting r → Q r)
    (hwrite : Keeps Q Response.write) {server : Server H M} {requestCount : ℕ} {app : Option H → List M → Visit}
    {self : Exchange L} (hbegin : ∀ waiting, P waiting (begin server.config self).res)
    (hready : ∀ found routed, chooseRoute server requestCount (opening server.config self) = .ok found routed →
      AllReady G (visit server app found).steps routed) :
    Q (final (serve server requestCount app) self).res := by
  have hsent : Keeps (fun self : Exchange L => Q self.res) (onRes Response.write) := keeps_onRes_res hwrite
  rw [final_serve]
  split
  · have hassign : Keeps (P true) (modify fun res => { res with status := .expectationFailed, keepalive := false }) :=
      (h.rides true).blind.assign fun _ => ⟨rfl, rfl, rfl, rfl, rfl, id, fun _ => rfl, fun _ => ⟨rfl, rfl⟩⟩
    have hrefuse : Triple (fun self : Exchange L => P true self.res) (refuse >>= fun _ => pure Next.close)
        (fun _ self => Q self.res) (fun _ self => Q self.res) := by
      have hassigned : Triple (fun self : Exchange L => P true self.res)
          (onRes (modify fun res => { res with status := .expectationFailed, keepalive := false }))
          (fun _ self => Q self.res) (fun _ self => Q self.res) :=
        (keeps_onRes_res hassign).weaken (fun _ hself => hself) (fun _ _ hself => hP _ _ hself)
          fun _ _ hself => hP _ _ hself
      exact (hassigned.bind fun _ => hsent).bind fun _ => keeps_pure _
    exact hrefuse.final (hbegin true)
  · have hprepare : Q (final (prepare server requestCount app) (opening server.config self)).res :=
      hP _ _ (prepare_holds h (holds_opening server.config self (hbegin _)) hready).1.1
    exact final_bind_of (P := fun self : Exchange L => Q self.res) hprepare fun _ =>
      hsent.bind fun _ => goRound_st fun st => Q st.res

end Holds

/-! ### Many rounds -/

/-- Behind a round for each of `apps`, the loop is about to parse another request. -/
inductive Reached (server : Server H M) (start : Exchange L) :
    List (Option H → List M → Visit) → Exchange L → Prop
  | start : Reached server start [] start
  | round {apps : List (Option H → List M → Visit)} {app : Option H → List M → Visit}
      {self parsed served next : Exchange L} (before : Reached server start apps self)
      (parse : awaitRequest self = .ok true parsed)
      (serve : serve server (apps.length + 1) app parsed = .ok .again served)
      (wait : awaitNext server.config.request served = .ok true next) :
      Reached server start (apps ++ [app]) next

variable {server : Server H M} {start self : Exchange L} {apps : List (Option H → List M → Visit)}

/-- **The loop goes on from what it has reached.** -/
theorem Reached.loop (h : Reached server start apps self) (rest : List (Option H → List M → Visit)) :
    handleRequests server 0 (apps ++ rest) start = handleRequests server apps.length rest self := by
  induction h generalizing rest with
  | start => rfl
  | @round apps app self parsed served next _ hparse hserve hwait ih =>
      rw [List.append_assoc, ih, List.length_append]
      show handleRequests server apps.length (app :: rest) self = _
      rw [handleRequests, bind_ok hparse, if_neg (by decide), bind_ok hserve, if_neg (by decide), bind_ok hwait]
      rfl

/-- **What every round keeps** holds whenever the loop is about to parse. -/
theorem Reached.invariant {I : Exchange L → Prop} (h : Reached server start apps self) (hstart : I start)
    (hparse : Keeps I awaitRequest) (hserve : ∀ requestCount app, Keeps I (serve server requestCount app))
    (hwait : Keeps I (awaitNext server.config.request)) : I self := by
  induction h with
  | start => exact hstart
  | round _ hparsed hserved hnext ih => exact hwait.ok ((hserve _ _).ok (hparse.ok ih hparsed) hserved) hnext

/-! ### What the waits leave alone -/

/-- Reading from the connection has nothing to do with the response. -/
theorem keeps_onInbound_st {α : Type} (P : HandlerState → Prop) (x : Act (Inbound L Request) α) :
    Keeps (fun self : Exchange L => P self.st) (onInbound x) :=
  keeps_zoom fun self hself inbound _ => by
    cases x inbound <;> exact hself

theorem awaitRequest_st (P : HandlerState → Prop) :
    Keeps (fun self : Exchange L => P self.st) awaitRequest := by
  refine (keeps_onInbound_st P _).attempt.bind fun result => ?_
  split
  · exact keeps_pure _
  · exact keeps_pure _
  · exact keeps_get_bind fun _ _ => keeps_fail _
  · exact keeps_fail _

theorem awaitNext_st (P : HandlerState → Prop) (config : RequestConfig) :
    Keeps (fun self : Exchange L => P self.st) (awaitNext config) := by
  refine Keeps.bind (keeps_modify fun _ hself => hself) fun _ => (keeps_onInbound_st P _).attempt.bind fun result => ?_
  split
  · exact keeps_pure _
  · exact keeps_pure _
  · refine keeps_get_bind fun self _ => ?_
    dsimp only
    split
    · exact keeps_pure _
    · exact keeps_fail _

end Exchange
end Dusty
