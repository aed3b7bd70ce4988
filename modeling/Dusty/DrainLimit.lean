import Dusty.Decimals
import Dusty.FailedStreams
import Dusty.Http1
import Dusty.Server

/-! # The limit of a drain

What a handler leaves of a body is read away if its `Content-Length` is at most `max_body_size`, up to
one byte more than that.  The addition is made in `usize` (`drain_iff`). -/

namespace Dusty

open Act

/-! ### The length -/

/-- What a client may write: digits, and spaces behind them. -/
structure LengthText (text digits spaces : Bytes) : Prop where
  eq : text = digits ++ spaces
  ne_nil : digits ≠ []
  digits : Digits digits
  spaces : ∀ b ∈ spaces, b = 32

/-- **What `parseInt` makes of it**: the number, unless it is too large or spaces follow. -/
theorem LengthText.parseInt_eq {text digits spaces : Bytes} (h : LengthText text digits spaces) :
    parseInt usizeBound 10 text =
      if decimalFrom 0 digits < usizeBound ∧ spaces = [] then some (decimalFrom 0 digits) else none := by
  rw [h.eq]
  exact parseInt_digits (by decide) h.ne_nil h.digits h.spaces

/-- The number and the spaces of a text are determined by it. -/
theorem LengthText.unique {text digits spaces digits' spaces' : Bytes} (h : LengthText text digits spaces)
    (h' : LengthText text digits' spaces') : digits = digits' ∧ spaces = spaces' := by
  have hpart : ∀ {digits spaces : Bytes}, LengthText text digits spaces → text.takeWhile (· != 32) = digits := by
    intro digits spaces h
    have hdigits : ∀ b ∈ digits, (b != 32) = true := by
      intro b hb
      have hlow := (h.digits b hb).1
      refine bne_iff_ne.mpr ?_
      rintro rfl
      revert hlow
      decide
    have hspaces : spaces.takeWhile (· != 32) = [] := by
      cases hs : spaces with
      | nil => rfl
      | cons b rest =>
          have hb : b = 32 := h.spaces b (hs ▸ List.mem_cons_self)
          exact List.takeWhile_cons_of_neg (by rw [hb]; decide)
    rw [h.eq, List.takeWhile_append_of_pos hdigits, hspaces, List.append_nil]
  have hdigits : digits = digits' := (hpart h).symm.trans (hpart h')
  refine ⟨hdigits, ?_⟩
  have heq := h.eq.symm.trans h'.eq
  rw [hdigits] at heq
  exact List.append_cancel_left heq

/-! ### The step -/

/-- `max + 1` in `usize`. -/
def checkedSucc (n : ℕ) : Option ℕ := if n + 1 < usizeBound then some (n + 1) else none

/-- How the step goes: it is not tried, the addition overflows, or so many bytes are read away. -/
inductive DrainPlan where
  | close | overflow | read (limit : ℕ)
deriving DecidableEq

namespace Exchange

variable {L : Llhttp}

/-- What the step computes. -/
def drainPlan (config : RequestConfig) (request : Request) : DrainPlan :=
  if drainable config request then (checkedSucc config.maxBodySize).elim .overflow .read else .close

/-- What the step does then. -/
def follow (config : RequestConfig) : DrainPlan → Act (Exchange L) Unit
  | .close => noKeepalive
  | .overflow => die .assertion
  | .read limit => do
      match ← attempt (onInbound (Inbound.discardShort .request 4096 limit)) with
      | .ok consumed => when (decide (consumed > config.maxBodySize)) noKeepalive
      | .error _ => do
          let self ← get
          if self.inbound.getReadError = some .canceled then fail .canceled else noKeepalive

theorem drain_eq (config : RequestConfig) {self : Exchange L}
    (hunread : self.inbound.parser.isBodyComplete = false) :
    drain config self = follow config (drainPlan config self.request) self := by
  unfold drain drainPlan
  rw [bind_ok (get_run self), hunread, if_neg Bool.false_ne_true]
  cases drainable config self.request with
  | false => rfl
  | true =>
      rw [if_pos rfl, if_pos rfl]
      unfold discardBody checkedSucc
      by_cases hlt : config.maxBodySize + 1 < usizeBound
      · rw [if_pos hlt, bind_ok (assert_true (decide_eq_true hlt) self)]
        rfl
      · rw [if_neg hlt, decide_eq_false hlt]
        rfl

/-- The request says that its body is no longer than that. -/
def Within (max : ℕ) (request : Request) : Prop :=
  ∃ text digits spaces, request.headers.get (ascii "Content-Length") = some text ∧
    LengthText text digits spaces ∧ decimalFrom 0 digits ≤ max

/-- The step does no arithmetic that overflows, reads the body away exactly if the request says that
it is short enough, and is the end of the connection otherwise. -/
structure DrainsWell (config : RequestConfig) (s : Exchange L) : Prop where
  no_overflow : drainPlan config s.request ≠ .overflow
  attempts : drainPlan config s.request ≠ .close ↔ Within config.maxBodySize s.request
  closes : ¬Within config.maxBodySize s.request → ∀ shuttingDown next self',
    finish config shuttingDown s = .ok next self' → next = .close ∧ self'.res.keepalive = false

/-! ### Closing -/

/-- The connection is to be closed. -/
def Lost (self : Exchange L) : Prop := self.res.keepalive = false

theorem keeps_lost {x : Act Response Unit} (h : Keeps (fun r => r.keepalive = false) x) :
    Keeps (Lost (L := L)) (onRes x) :=
  keeps_zoom fun self hself st hst => by
    subst hst
    exact Executor.keeps_onRes_of h self.st hself

theorem noKeepalive_lost (self : Exchange L) : ∃ self', noKeepalive self = .ok () self' ∧ self'.Lost :=
  ⟨_, rfl, rfl⟩

/-- A connection that is to be closed is closed behind the response. -/
theorem finish_lost {config : RequestConfig} {shuttingDown : Bool} {self self' : Exchange L} {next : Next}
    (hplan : drainPlan config self.request = .close) (hunread : self.inbound.parser.isBodyComplete = false)
    (h : finish config shuttingDown self = .ok next self') : next = .close ∧ self'.res.keepalive = false := by
  obtain ⟨_, self₁, hdrain, h⟩ := bind_eq_ok.mp h
  obtain ⟨_, self₂, hwhen, h⟩ := bind_eq_ok.mp h
  obtain ⟨_, self₃, hwrite, h⟩ := bind_eq_ok.mp h
  have hlost : Keeps (Lost (L := L)) noKeepalive := keeps_lost (keeps_modify fun _ _ => rfl)
  have h₁ : self₁.Lost := by
    obtain ⟨lost, hrun, hl⟩ := noKeepalive_lost self
    rw [drain_eq config hunread, hplan] at hdrain
    cases hdrain.symm.trans hrun
    exact hl
  have h₂ : self₂.Lost := (hlost.when shuttingDown).ok h₁ hwhen
  have h₃ : self₃.Lost := (keeps_lost Response.keeps_write_lost).ok h₂ hwrite
  unfold goRound at h
  rw [bind_ok (get_run self₃), h₃] at h
  cases h
  exact ⟨rfl, h₃⟩

/-! ### When the step goes as it should -/

section within
variable {config : RequestConfig} {request : Request}

/-- What llhttp lets through. -/
def SaysLength (request : Request) : Prop :=
  ∀ text, request.headers.get (ascii "Content-Length") = some text → ∃ digits spaces, LengthText text digits spaces

/-- The header is read as a number unless spaces follow it. -/
theorem drainable_iff (hmax : config.maxBodySize < usizeBound) {text digits spaces : Bytes}
    (hget : request.headers.get (ascii "Content-Length") = some text) (htext : LengthText text digits spaces) :
    drainable config request = true ↔ decimalFrom 0 digits ≤ config.maxBodySize ∧ spaces = [] := by
  unfold drainable
  rw [hget, Option.bind_some, htext.parseInt_eq]
  by_cases h : decimalFrom 0 digits < usizeBound ∧ spaces = []
  · rw [if_pos h]
    exact decide_eq_true_iff.trans ⟨fun hle => ⟨hle, h.2⟩, fun hand => hand.1⟩
  · rw [if_neg h]
    exact iff_of_false Bool.false_ne_true fun hand => h ⟨Nat.lt_of_le_of_lt hand.1 hmax, hand.2⟩

theorem not_drainable (hget : request.headers.get (ascii "Content-Length") = none) :
    drainable config request = false := by
  unfold drainable
  rw [hget]
  rfl

theorem within_iff {max : ℕ} {text digits spaces : Bytes}
    (hget : request.headers.get (ascii "Content-Length") = some text) (htext : LengthText text digits spaces) :
    Within max request ↔ decimalFrom 0 digits ≤ max := by
  constructor
  · rintro ⟨text', digits', spaces', hget', htext', hle⟩
    cases hget.symm.trans hget'
    rwa [(htext.unique htext').1]
  · exact fun hle => ⟨text, digits, spaces, hget, htext, hle⟩

theorem drainPlan_ne_close : drainPlan config request ≠ .close ↔ drainable config request = true := by
  unfold drainPlan checkedSucc
  cases drainable config request with
  | false => exact iff_of_false (fun h => h rfl) Bool.false_ne_true
  | true =>
      refine iff_of_true ?_ rfl
      rw [if_pos rfl]
      split <;>
      · intro h
        cases h

theorem drainPlan_ne_overflow :
    drainPlan config request ≠ .overflow ↔
      (drainable config request = true → config.maxBodySize + 1 < usizeBound) := by
  unfold drainPlan checkedSucc
  cases drainable config request with
  | false =>
      refine iff_of_true ?_ fun h => absurd h Bool.false_ne_true
      intro h
      cases h
  | true =>
      rw [if_pos rfl]
      by_cases hlt : config.maxBodySize + 1 < usizeBound
      · rw [if_pos hlt]
        refine iff_of_true ?_ fun _ => hlt
        intro h
        cases h
      · rw [if_neg hlt]
        exact iff_of_false (fun h => h rfl) fun h => hlt (h rfl)

end within

/-- **The limit of a drain.**  The step for an unread body goes as it should exactly if the request names no
length within the limit, or the limit is not the largest number of `usize` and no space follows the number. -/
theorem drain_iff (config : RequestConfig) (hmax : config.maxBodySize < usizeBound) {self : Exchange L}
    (hunread : self.inbound.parser.isBodyComplete = false) (hlength : SaysLength self.request) :
    drain config self = follow config (drainPlan config self.request) self ∧
      (DrainsWell config self ↔ ∀ text digits spaces,
        self.request.headers.get (ascii "Content-Length") = some text → LengthText text digits spaces →
          decimalFrom 0 digits ≤ config.maxBodySize → config.maxBodySize + 1 < usizeBound ∧ spaces = []) := by
  refine ⟨drain_eq config hunread, ?_⟩
  constructor
  · intro h text digits spaces hget htext hle
    have hread := drainPlan_ne_close.mp (h.attempts.mpr ⟨text, digits, spaces, hget, htext, hle⟩)
    exact ⟨drainPlan_ne_overflow.mp h.no_overflow hread, ((drainable_iff hmax hget htext).mp hread).2⟩
  · intro h
    have hattempts : drainPlan config self.request ≠ .close ↔ Within config.maxBodySize self.request := by
      rw [drainPlan_ne_close]
      cases hget : self.request.headers.get (ascii "Content-Length") with
      | none =>
          rw [not_drainable hget]
          refine iff_of_false Bool.false_ne_true ?_
          rintro ⟨text, digits, spaces, hget', -⟩
          cases hget.symm.trans hget'
      | some text =>
          obtain ⟨digits, spaces, htext⟩ := hlength text hget
          rw [drainable_iff hmax hget htext, within_iff hget htext]
          exact ⟨fun hand => hand.1, fun hle => ⟨hle, (h text digits spaces hget htext hle).2⟩⟩
    refine ⟨drainPlan_ne_overflow.mpr fun hread => ?_, hattempts, ?_⟩
    · obtain ⟨text, digits, spaces, hget, htext, hle⟩ := hattempts.mp (drainPlan_ne_close.mpr hread)
      exact (h text digits spaces hget htext hle).1
    · intro hlong shuttingDown next self' hfinish
      have hplan : drainPlan config self.request = .close := by
        by_contra hne
        exact hlong (hattempts.mp hne)
      exact finish_lost hplan hunread hfinish

/-- A request whose body nobody has read. -/
def leftUnread (length : Bytes) : Exchange (Http1.llhttp false) :=
  { inbound :=
      { parser := .init { headers := ⟨1, [.make (ascii "Content-Length") length], Nat.le_refl 1⟩ }
        reader := .fresh 1024 }
    st := { res := .init {} 0 } }

theorem leftUnread_saysLength {length digits spaces : Bytes} (h : LengthText length digits spaces) :
    SaysLength (leftUnread length).request := by
  intro text hget
  have hlength : (leftUnread length).request.headers.get (ascii "Content-Length") = some length := rfl
  cases hlength.symm.trans hget
  exact ⟨digits, spaces, h⟩

/-- Under the largest limit a short body is the end of the server; with a space behind its length it is the
end of the connection. -/
theorem drain_overflows :
    (∃ self', drain { maxBodySize := usizeBound - 1 } (leftUnread (ascii "5")) = .error (.panic .assertion) self') ∧
      ¬DrainsWell { maxBodySize := usizeBound - 1 } (leftUnread (ascii "5")) ∧
      ¬DrainsWell {} (leftUnread (ascii "5 ")) := by
  have hfive : LengthText (ascii "5 ") (ascii "5") (ascii " ") :=
    ⟨rfl, by decide, by unfold Digits; decide, by decide⟩
  refine ⟨⟨leftUnread (ascii "5"), by rfl⟩, fun h => h.no_overflow (by decide +kernel), fun h => ?_⟩
  exact h.attempts.mpr ⟨_, _, _, rfl, hfive, by decide⟩ (by decide +kernel)

theorem drain_iff_sample : ∃ plan, drain {} (leftUnread (ascii "5")) = follow {} plan (leftUnread (ascii "5")) ∧
    DrainsWell {} (leftUnread (ascii "5")) := by
  have hfive : LengthText (ascii "5") (ascii "5") [] :=
    ⟨rfl, by decide, by unfold Digits; decide, by decide⟩
  have hget : (leftUnread (ascii "5")).request.headers.get (ascii "Content-Length") = some (ascii "5") := rfl
  have h := @drain_iff _ {} (by decide) (leftUnread (ascii "5")) rfl (leftUnread_saysLength hfive)
  refine ⟨_, h.1, h.2.mpr fun text digits spaces hget' htext _ => ⟨by decide, ?_⟩⟩
  cases hget.symm.trans hget'
  exact (htext.unique hfive).2

end Exchange
end Dusty
