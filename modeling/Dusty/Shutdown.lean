import Dusty.Bytes

/-! # Shutting down

The accept loop of `listen`, the drain it ends with, and the handlers, which share one counter.  Whatever
the order of their steps, the counter is the number of open connections (`reached_accounted`), a sleeping
drain has not missed a change of it (`reached_drains`), and the drain ends when the number is `0` or its one
deadline has passed (`shutdown_accounting`). -/

namespace Dusty

/-- A connection that was accepted: the accept loop has it, no handler could be spawned for it, its handler
is at work, has counted it out, or has told the drain so. -/
inductive ConnPhase where
  | held | refused | running | leaving | gone
deriving DecidableEq, Repr

/-- The handler has not finished. -/
def ConnPhase.isOpen : ConnPhase → Bool
  | .held | .refused | .running => true
  | .leaving | .gone => false

/-- Where the accept loop is: at `accept`, at the sleep behind a failed one, at `group.concurrent`, at the
`fetchSub` behind a failed one, or in `drainConnections`, at the load, the check of the deadline, the wait,
or asleep; and how it ended. -/
inductive ListenPc where
  | accepting | backingOff | spawning | uncounting
  | loading | checking (remaining : UInt32) | waiting (remaining : UInt32) | asleep (remaining : UInt32)
  | drained | timedOut | failed
deriving DecidableEq, Repr

/-- The server.  `conns` are the connections in the order they were accepted in, and `began` is when the
drain began; they are there for statements only. -/
structure Listener where
  active : UInt32 := 0
  conns : List ConnPhase := []
  pc : ListenPc := .accepting
  now : ℕ := 0
  shuttingDown : Bool := false
  deadline : Option ℕ := none
  began : Option ℕ := none

namespace Listener

/-- The connections whose handler has not finished. -/
def opened (s : Listener) : ℕ := s.conns.countP ConnPhase.isOpen

def goto (s : Listener) (pc : ListenPc) : Listener := { s with pc := pc }

/-- The deadline has passed. -/
def late (s : Listener) : Bool :=
  match s.deadline with
  | some deadline => decide (deadline ≤ s.now)
  | none => false

/-- `futexWake`. -/
def futexWake (s : Listener) : Listener :=
  match s.pc with
  | .asleep _ => s.goto .loading
  | _ => s

/-- The beginning of `drainConnections`: the deadline is made of the budget here and nowhere else. -/
def beginDrain (budget : Option ℕ) (s : Listener) : Listener :=
  { s with
    pc := .loading
    shuttingDown := true
    deadline := budget.map (s.now + ·)
    began := some s.now }

end Listener

open Listener

/-- One atomic step of the accept loop, of a handler, or of the clock. -/
inductive ListenStep (budget : Option ℕ) : Listener → Listener → Prop
  | accept (s) (h : s.pc = .accepting) :
      ListenStep budget s { s with active := s.active + 1, conns := s.conns ++ [.held], pc := .spawning }
  | backOff (s) (h : s.pc = .accepting) : ListenStep budget s (s.goto .backingOff)
  | retry (s) (h : s.pc = .backingOff) : ListenStep budget s (s.goto .accepting)
  | fail (s) (h : s.pc = .accepting) : ListenStep budget s { s with pc := .failed, shuttingDown := true }
  | spawn (s pre post) (h : s.pc = .spawning) (hconns : s.conns = pre ++ .held :: post) :
      ListenStep budget s { s with conns := pre ++ .running :: post, pc := .accepting }
  | spawnFails (s pre post) (h : s.pc = .spawning) (hconns : s.conns = pre ++ .held :: post) :
      ListenStep budget s { s with conns := pre ++ .refused :: post, pc := .uncounting }
  | uncount (s pre post) (h : s.pc = .uncounting) (hconns : s.conns = pre ++ .refused :: post) :
      ListenStep budget s
        { s with active := s.active - 1, conns := pre ++ .gone :: post, pc := .accepting }
  | cancel (s) (h : s.pc = .accepting ∨ s.pc = .backingOff) : ListenStep budget s (s.beginDrain budget)
  | load (s) (h : s.pc = .loading) :
      ListenStep budget s (s.goto (if s.active = 0 then .drained else .checking s.active))
  | check (s remaining) (h : s.pc = .checking remaining) :
      ListenStep budget s (s.goto (if s.late then .timedOut else .waiting remaining))
  | futexWait (s remaining) (h : s.pc = .waiting remaining) :
      ListenStep budget s (s.goto (if s.active = remaining then .asleep remaining else .loading))
  | rouse (s remaining) (h : s.pc = .asleep remaining) : ListenStep budget s (s.goto .loading)
  | finish (s pre post) (hconns : s.conns = pre ++ .running :: post) :
      ListenStep budget s { s with active := s.active - 1, conns := pre ++ .leaving :: post }
  | wake (s pre post) (hconns : s.conns = pre ++ .leaving :: post) :
      ListenStep budget s (futexWake { s with conns := pre ++ .gone :: post })
  | tick (s n) : ListenStep budget s { s with now := s.now + n }

/-- The states that any order of steps leads to. -/
inductive Reached (budget : Option ℕ) : Listener → Prop
  | start (now : ℕ) : Reached budget { now := now }
  | step {s s'} (h : Reached budget s) (hs : ListenStep budget s s') : Reached budget s'

namespace Listener

/-! ### The number of open connections -/

section opened
variable {s : Listener} {pre post : List ConnPhase} {phase : ConnPhase}

@[simp] theorem goto_opened (pc : ListenPc) : (s.goto pc).opened = s.opened := rfl

@[simp] theorem goto_active (pc : ListenPc) : (s.goto pc).active = s.active := rfl

theorem futexWake_spec (s : Listener) :
    s.futexWake.active = s.active ∧ s.futexWake.conns = s.conns ∧ s.futexWake.now = s.now ∧
      s.futexWake.deadline = s.deadline ∧ s.futexWake.began = s.began ∧
      ((∃ remaining, s.pc = .asleep remaining) ∧ s.futexWake.pc = .loading ∨
        (∀ remaining, s.pc ≠ .asleep remaining) ∧ s.futexWake.pc = s.pc) := by
  unfold futexWake
  cases hpc : s.pc with
  | asleep remaining => exact ⟨rfl, rfl, rfl, rfl, rfl, .inl ⟨⟨remaining, rfl⟩, rfl⟩⟩
  | _ => exact ⟨rfl, rfl, rfl, rfl, rfl, .inr ⟨nofun, hpc⟩⟩

theorem opened_moved {s' : Listener} {phase' : ConnPhase} (hconns : s.conns = pre ++ phase :: post)
    (hconns' : s'.conns = pre ++ phase' :: post) :
    s'.opened + (if phase.isOpen then 1 else 0) = s.opened + if phase'.isOpen then 1 else 0 := by
  unfold opened
  rw [hconns, hconns', List.countP_append, List.countP_append, List.countP_cons, List.countP_cons]
  omega

theorem opened_kept {s' : Listener} {phase' : ConnPhase} (hconns : s.conns = pre ++ phase :: post)
    (hconns' : s'.conns = pre ++ phase' :: post) (hphase : phase'.isOpen = phase.isOpen) :
    s'.opened = s.opened := by
  have hmoved := opened_moved hconns hconns'
  rw [hphase] at hmoved
  exact Nat.add_right_cancel hmoved

theorem opened_left {s' : Listener} {phase' : ConnPhase} (hconns : s.conns = pre ++ phase :: post)
    (hconns' : s'.conns = pre ++ phase' :: post) (hphase : phase.isOpen = true) (hphase' : phase'.isOpen = false) :
    s'.opened + 1 = s.opened := by
  have hmoved := opened_moved hconns hconns'
  rw [hphase, hphase'] at hmoved
  exact hmoved

end opened

/-- The counter is the number of open connections, as far as it can count. -/
def Accounted (s : Listener) : Prop := s.active = UInt32.ofNat s.opened

theorem Accounted.raise {s s' : Listener} (h : s.Accounted) (hactive : s'.active = s.active + 1)
    (hopened : s'.opened = s.opened + 1) : s'.Accounted := by
  unfold Accounted
  rw [hactive, hopened, h, UInt32.ofNat_add]
  rfl

theorem Accounted.lower {s s' : Listener} (h : s.Accounted) (hactive : s'.active = s.active - 1)
    (hopened : s'.opened + 1 = s.opened) : s'.Accounted := by
  unfold Accounted
  rw [hactive, h, ← hopened, UInt32.ofNat_add]
  exact UInt32.add_sub_cancel _ _

theorem Accounted.same {s s' : Listener} (h : s.Accounted) (hactive : s'.active = s.active)
    (hopened : s'.opened = s.opened) : s'.Accounted := hactive.trans (h.trans (congrArg UInt32.ofNat hopened.symm))

/-- What a step does to the counter and to the number. -/
theorem step_counts {budget : Option ℕ} {s s' : Listener} (h : ListenStep budget s s') :
    (s'.active = s.active + 1 ∧ s'.opened = s.opened + 1) ∨
      (s'.active = s.active - 1 ∧ s'.opened + 1 = s.opened) ∨
      (s'.active = s.active ∧ s'.opened = s.opened) := by
  cases h with
  | accept h =>
      refine .inl ⟨rfl, ?_⟩
      show (s.conns ++ [ConnPhase.held]).countP ConnPhase.isOpen = _
      rw [List.countP_append]
      rfl
  | spawn pre post h hconns => exact .inr (.inr ⟨rfl, opened_kept hconns rfl rfl⟩)
  | spawnFails pre post h hconns => exact .inr (.inr ⟨rfl, opened_kept hconns rfl rfl⟩)
  | uncount pre post h hconns => exact .inr (.inl ⟨rfl, opened_left hconns rfl rfl rfl⟩)
  | finish pre post hconns => exact .inr (.inl ⟨rfl, opened_left hconns rfl rfl rfl⟩)
  | wake pre post hconns =>
      obtain ⟨hactive, hconns', -⟩ := futexWake_spec { s with conns := pre ++ .gone :: post }
      exact .inr (.inr ⟨hactive, opened_kept hconns hconns' rfl⟩)
  | backOff h => exact .inr (.inr ⟨rfl, rfl⟩)
  | retry h => exact .inr (.inr ⟨rfl, rfl⟩)
  | fail h => exact .inr (.inr ⟨rfl, rfl⟩)
  | cancel h => exact .inr (.inr ⟨rfl, rfl⟩)
  | load h => exact .inr (.inr ⟨rfl, rfl⟩)
  | check remaining h => exact .inr (.inr ⟨rfl, rfl⟩)
  | futexWait remaining h => exact .inr (.inr ⟨rfl, rfl⟩)
  | rouse remaining h => exact .inr (.inr ⟨rfl, rfl⟩)
  | tick n => exact .inr (.inr ⟨rfl, rfl⟩)

/-- **The counter.** -/
theorem reached_accounted {budget : Option ℕ} {s : Listener} (h : Reached budget s) : s.Accounted := by
  induction h with
  | start now => rfl
  | step h hs ih =>
      rcases step_counts hs with ⟨hactive, hopened⟩ | ⟨hactive, hopened⟩ | ⟨hactive, hopened⟩
      · exact ih.raise hactive hopened
      · exact ih.lower hactive hopened
      · exact ih.same hactive hopened

theorem Accounted.toNat {s : Listener} (h : s.Accounted) (hlt : s.opened < UInt32.size) : s.active.toNat = s.opened := by
  rw [h]
  exact UInt32.toNat_ofNat_of_lt' hlt

/-! ### The drain -/

/-- The accept loop has left `accept` for the drain. -/
def Draining : ListenPc → Prop
  | .loading | .checking _ | .waiting _ | .asleep _ | .drained | .timedOut => True
  | _ => False

theorem late_iff {s : Listener} : s.late = true ↔ ∃ deadline, s.deadline = some deadline ∧ deadline ≤ s.now := by
  unfold late
  cases s.deadline with
  | none =>
      refine iff_of_false Bool.false_ne_true ?_
      rintro ⟨deadline, h, -⟩
      cases h
  | some deadline =>
      rw [decide_eq_true_iff]
      constructor
      · exact fun h => ⟨deadline, rfl, h⟩
      · rintro ⟨_, ⟨⟩, h⟩
        exact h

/-- The invariant of the drain. -/
structure Drains (budget : Option ℕ) (s : Listener) : Prop where
  timing : Draining s.pc → ∃ start, s.began = some start ∧ s.deadline = budget.map (start + ·)
  before : ¬Draining s.pc → s.began = none
  late : s.pc = .timedOut → s.late = true
  awake : ∀ remaining, s.pc = .asleep remaining → s.active = remaining ∨ .leaving ∈ s.conns

section drain
variable {budget : Option ℕ} {s s' : Listener}

/-- Only the place of the accept loop is another one, and it is not asleep. -/
theorem Drains.goto (h : Drains budget s) {pc : ListenPc} (hpc : Draining pc ↔ Draining s.pc)
    (hlate : pc = .timedOut → s.late = true) (hawake : ∀ remaining, pc = .asleep remaining → s.active = remaining) :
    Drains budget (s.goto pc) :=
  ⟨fun hd => h.timing (hpc.mp hd), fun hd => h.before fun hs => hd (hpc.mpr hs), hlate,
    fun remaining heq => .inl (hawake remaining heq)⟩

/-- The accept loop is not in the drain, before and behind a step. -/
theorem Drains.outside (h : Drains budget s) (hpc : ¬Draining s.pc) (hpc' : ¬Draining s'.pc)
    (hbegan : s'.began = s.began) : Drains budget s' := by
  refine ⟨fun hd => absurd hd hpc', fun _ => hbegan.trans (h.before hpc), fun heq => ?_, fun remaining heq => ?_⟩ <;>
  · rw [heq] at hpc'
    exact absurd trivial hpc'

/-- **One step.** -/
theorem Drains.step (h : Drains budget s) (hs : ListenStep budget s s') : Drains budget s' := by
  cases hs with
  | accept hpc => exact h.outside (hpc ▸ id) id rfl
  | backOff hpc => exact h.outside (hpc ▸ id) id rfl
  | retry hpc => exact h.outside (hpc ▸ id) id rfl
  | fail hpc => exact h.outside (hpc ▸ id) id rfl
  | spawn pre post hpc hconns => exact h.outside (hpc ▸ id) id rfl
  | spawnFails pre post hpc hconns => exact h.outside (hpc ▸ id) id rfl
  | uncount pre post hpc hconns => exact h.outside (hpc ▸ id) id rfl
  | cancel hpc => exact ⟨fun _ => ⟨s.now, rfl, rfl⟩, fun hd => absurd trivial hd, nofun, nofun⟩
  | load hpc =>
      refine h.goto ?_ ?_ ?_ <;> split
      · exact iff_of_true trivial (hpc ▸ trivial)
      · exact iff_of_true trivial (hpc ▸ trivial)
      all_goals nofun
  | check remaining hpc =>
      cases hlate : s.late with
      | true => exact h.goto (iff_of_true trivial (hpc ▸ trivial)) (fun _ => hlate) nofun
      | false => exact h.goto (iff_of_true trivial (hpc ▸ trivial)) nofun nofun
  | futexWait remaining hpc =>
      by_cases hsame : s.active = remaining
      · rw [if_pos hsame]
        refine h.goto (iff_of_true trivial (hpc ▸ trivial)) nofun fun other heq => ?_
        cases heq
        exact hsame
      · rw [if_neg hsame]
        exact h.goto (iff_of_true trivial (hpc ▸ trivial)) nofun nofun
  | rouse remaining hpc => exact h.goto (iff_of_true trivial (hpc ▸ trivial)) nofun nofun
  | finish pre post hconns =>
      exact ⟨h.timing, h.before, h.late, fun remaining heq => .inr (List.mem_append_right pre List.mem_cons_self)⟩
  | wake pre post hconns =>
      obtain ⟨-, -, hnow, hdeadline, hbegan, hpc⟩ := futexWake_spec { s with conns := pre ++ .gone :: post }
      rcases hpc with ⟨⟨remaining, hasleep⟩, hpc⟩ | ⟨hnot, hpc⟩
      · have hdrain : Draining s.pc := (show s.pc = .asleep remaining from hasleep) ▸ trivial
        refine ⟨fun _ => ?_, fun hd => absurd (hpc ▸ trivial) hd, fun heq => ?_, fun other heq => ?_⟩
        · rw [hbegan, hdeadline]
          exact h.timing hdrain
        · cases hpc.symm.trans heq
        · cases hpc.symm.trans heq
      · refine ⟨fun hd => ?_, fun hd => ?_, fun heq => ?_, fun other heq => ?_⟩
        · rw [hbegan, hdeadline]
          exact h.timing (hpc ▸ hd)
        · rw [hbegan]
          exact h.before (hpc ▸ hd)
        · obtain ⟨deadline, hsome, hle⟩ := late_iff.mp (h.late (hpc.symm.trans heq))
          exact late_iff.mpr ⟨deadline, hdeadline.trans hsome, hnow.symm ▸ hle⟩
        · exact absurd (hpc.symm.trans heq) (hnot other)
  | tick n =>
      refine ⟨h.timing, h.before, fun heq => ?_, h.awake⟩
      obtain ⟨deadline, hsome, hle⟩ := late_iff.mp (h.late heq)
      exact late_iff.mpr ⟨deadline, hsome, Nat.le_trans hle (Nat.le_add_right _ _)⟩

theorem reached_drains (h : Reached budget s) : Drains budget s := by
  induction h with
  | start now => exact ⟨False.elim, fun _ => rfl, nofun, nofun⟩
  | step h hs ih => exact ih.step hs

/-- The drain falls asleep only on what the counter is. -/
theorem sleeps_on (hs : ListenStep budget s s') {remaining : UInt32} (hpc : s'.pc = .asleep remaining)
    (hawake : s.pc ≠ .asleep remaining) : s.active = remaining := by
  cases hs with
  | load _ =>
      simp only [goto] at hpc
      split at hpc <;> cases hpc
  | check _ _ =>
      simp only [goto] at hpc
      split at hpc <;> cases hpc
  | futexWait other _ =>
      simp only [goto] at hpc
      split at hpc
      · cases hpc
        assumption
      · cases hpc
  | finish => exact absurd hpc hawake
  | wake pre post hconns =>
      obtain ⟨-, -, -, -, -, ⟨-, hloading⟩ | ⟨-, hsame⟩⟩ := futexWake_spec { s with conns := pre ++ .gone :: post }
      · cases hloading.symm.trans hpc
      · exact absurd (hsame.symm.trans hpc) hawake
  | tick => exact absurd hpc hawake
  | _ => cases hpc

/-- The drain is over at its load only if there is nothing to wait for. -/
theorem drained_at (hs : ListenStep budget s s') (hpc : s'.pc = .drained) (hnot : s.pc ≠ .drained) :
    s.active = 0 ∧ s'.opened = s.opened := by
  cases hs with
  | load _ =>
      simp only [goto] at hpc
      split at hpc
      · exact ⟨by assumption, rfl⟩
      · cases hpc
  | check _ _ =>
      simp only [goto] at hpc
      split at hpc <;> cases hpc
  | futexWait other _ =>
      simp only [goto] at hpc
      split at hpc <;> cases hpc
  | finish => exact absurd hpc hnot
  | wake pre post hconns =>
      obtain ⟨-, -, -, -, -, ⟨-, hloading⟩ | ⟨-, hsame⟩⟩ := futexWake_spec { s with conns := pre ++ .gone :: post }
      · cases hloading.symm.trans hpc
      · exact absurd (hsame.symm.trans hpc) hnot
  | tick => exact absurd hpc hnot
  | _ => cases hpc

theorem Drains.began_stays (h : Drains budget s) (hs : ListenStep budget s s') {start : ℕ}
    (hbegan : s.began = some start) : s'.began = some start := by
  cases hs with
  | cancel hpc =>
      have hnone := h.before (by rcases hpc with hpc | hpc <;> exact hpc ▸ id)
      cases hnone.symm.trans hbegan
  | wake pre post hconns =>
      obtain ⟨-, -, -, -, hsame, -⟩ := futexWake_spec { s with conns := pre ++ .gone :: post }
      exact hsame.trans hbegan
  | _ => exact hbegan

end drain

/-- **The system's bound** on open connections: descriptors are nonnegative `int`s, `accept` fails where none is
left, and a handler counts itself out right behind closing its own. -/
def WithinBounds (s : Listener) : Prop := s.opened < UInt32.size

/-- **Shutdown accounting.**  Whatever the order of the steps, the counter is the number of open connections, and
is not lowered from `0`; the drain is over at its load only if none is open.  It is over otherwise only behind
its deadline, which is its budget behind its beginning and stays that; it falls asleep only on what the counter
is, and while it sleeps the counter has not changed, or a handler that has lowered it is about to wake it. -/
theorem shutdown_accounting {budget : Option ℕ} {s : Listener} (h : Reached budget s) (hbound : s.WithinBounds) :
    s.active.toNat = s.opened ∧
      (∀ s', ListenStep budget s s' → s'.opened < s.opened → s'.active.toNat + 1 = s.active.toNat) ∧
      (∀ s', ListenStep budget s s' → s'.pc = .drained → s.pc ≠ .drained → s'.opened = 0) ∧
      (s.pc = .timedOut → ∃ start duration, s.began = some start ∧ budget = some duration ∧
        start + duration ≤ s.now) ∧
      (∀ s' start, ListenStep budget s s' → s.began = some start → s'.began = some start) ∧
      (∀ s' remaining, ListenStep budget s s' → s'.pc = .asleep remaining → s.pc ≠ .asleep remaining →
        s.active = remaining) ∧
      ∀ remaining, s.pc = .asleep remaining → s.active = remaining ∨ .leaving ∈ s.conns := by
  have hcount := reached_accounted h
  have hdrains := reached_drains h
  refine ⟨hcount.toNat hbound, ?_, ?_, ?_, fun s' start hs => hdrains.began_stays hs,
    fun s' remaining hs => sleeps_on hs, hdrains.awake⟩
  · intro s' hs hless
    have hopened : s'.opened + 1 = s.opened := by
      rcases step_counts hs with ⟨-, hopened⟩ | ⟨-, hopened⟩ | ⟨-, hopened⟩ <;> omega
    rw [hcount.toNat hbound, (reached_accounted (Reached.step h hs)).toNat (hless.trans hbound), hopened]
  · intro s' hs hpc hnot
    obtain ⟨hzero, hopened⟩ := drained_at hs hpc hnot
    rw [hopened, ← hcount.toNat hbound, hzero]
    rfl
  · intro hpc
    obtain ⟨start, hbegan, hdeadline⟩ := hdrains.timing (hpc ▸ trivial)
    obtain ⟨deadline, hsome, hle⟩ := late_iff.mp (hdrains.late hpc)
    obtain ⟨duration, hduration, rfl⟩ := Option.map_eq_some_iff.mp (hdeadline.symm.trans hsome)
    exact ⟨start, duration, hbegan, hduration, hle⟩

/-- The drain sleeps on two connections, and a handler has counted its own out and not told it yet. -/
def dozing : Listener where
  active := 1
  conns := [.leaving, .running]
  pc := .asleep 2
  shuttingDown := true
  deadline := some 30
  began := some 0

/-- Later it is at its load, with both counted out. -/
def relieved : Listener where
  conns := [.gone, .leaving]
  pc := .loading
  shuttingDown := true
  deadline := some 30
  began := some 0

theorem dozing_reached : Reached (some 30) dozing := by
  have hfirst : Reached (some 30) { active := 1, conns := [.running] } :=
    ((Reached.start 0).step (.accept _ rfl)).step (.spawn _ [] [] rfl rfl)
  have hsecond : Reached (some 30) { active := 2, conns := [.running, .running] } :=
    (hfirst.step (.accept _ rfl)).step (.spawn _ [.running] [] rfl rfl)
  have hasleep : Reached (some 30) { dozing with active := 2, conns := [.running, .running] } :=
    (((hsecond.step (.cancel _ (.inl rfl))).step (.load _ rfl)).step (.check _ 2 rfl)).step (.futexWait _ 2 rfl)
  exact hasleep.step (.finish _ [] [.running] rfl)

theorem relieved_reached : Reached (some 30) relieved :=
  (dozing_reached.step (.wake _ [] [.running] rfl)).step (.finish _ [.gone] [] rfl)

theorem shutdown_accounting_sample :
    (dozing.WithinBounds ∧ dozing.active.toNat = dozing.opened ∧ (dozing.active = 2 ∨ .leaving ∈ dozing.conns)) ∧
      relieved.WithinBounds ∧ (relieved.goto .drained).opened = 0 := by
  have hdozing : dozing.WithinBounds := by
    unfold WithinBounds
    decide
  have hrelieved : relieved.WithinBounds := by
    unfold WithinBounds
    decide
  have hsleeps := shutdown_accounting dozing_reached hdozing
  have hends := shutdown_accounting relieved_reached hrelieved
  exact ⟨⟨hdozing, hsleeps.1, hsleeps.2.2.2.2.2.2 2 rfl⟩,
    hrelieved, hends.2.2.1 _ (.load _ rfl) rfl (by decide)⟩

end Listener
end Dusty
