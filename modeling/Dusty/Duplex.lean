import Mathlib.Tactic.Common

/-! # Two parties and the queues between them

Two parties of one kind talk to each other: a move of one changes its state and says something, and the other hears
it.  There is a rule for a relation between two kinds of parties (`Simulates.run`), one for a relation between a speaker
and its listener (`Upholds.run`), and one for a move that costs something as long as it does anything
(`Tires.comes_to_rest`). -/

namespace Duplex

/-- How a kind of parties behaves. -/
structure Behaviour (σ μ ι : Type*) where
  step : μ → σ → σ
  said : μ → σ → List ι
  hear : List ι → σ → σ

inductive Role where
  | left | right
deriving DecidableEq, Repr

def Role.other : Role → Role
  | .left => .right
  | .right => .left

structure Pair (σ : Type*) where
  left : σ
  right : σ

variable {σ σ' μ ι ι' : Type*}

/-- The party with a role. -/
def Pair.party (p : Pair σ) : Role → σ
  | .left => p.left
  | .right => p.right

/-- A move of one of the parties. -/
def exec (b : Behaviour σ μ ι) (p : Pair σ) : Role × μ → Pair σ
  | (.left, m) => ⟨b.step m p.left, b.hear (b.said m p.left) p.right⟩
  | (.right, m) => ⟨b.hear (b.said m p.right) p.left, b.step m p.right⟩

/-- Moves of any parties in any order. -/
def run (b : Behaviour σ μ ι) (moves : List (Role × μ)) (p : Pair σ) : Pair σ := moves.foldl (exec b) p

theorem run_append (b : Behaviour σ μ ι) (xs ys : List (Role × μ)) (p : Pair σ) :
    run b (xs ++ ys) p = run b ys (run b xs p) := List.foldl_append

/-! ### Two kinds of parties -/

/-- Parties of two kinds that do the same: `R` relates those with a role, and `E` what they hear. -/
structure Simulates (b : Behaviour σ μ ι) (b' : Behaviour σ' μ ι') (ok : μ → Prop) (R : Role → σ → σ' → Prop)
    (E : Role → List ι → List ι' → Prop) : Prop where
  step : ∀ {role m s s'}, ok m → R role s s' →
    R role (b.step m s) (b'.step m s') ∧ E role.other (b.said m s) (b'.said m s')
  hear : ∀ {role x x' s s'}, R role s s' → E role x x' → R role (b.hear x s) (b'.hear x' s')

theorem Simulates.exec {b : Behaviour σ μ ι} {b' : Behaviour σ' μ ι'} {ok : μ → Prop} {R : Role → σ → σ' → Prop}
    {E : Role → List ι → List ι' → Prop} (h : Simulates b b' ok R E) {move : Role × μ} (hok : ok move.2) {p : Pair σ}
    {p' : Pair σ'} (hp : ∀ role, R role (p.party role) (p'.party role)) (role : Role) :
    R role ((exec b p move).party role) ((exec b' p' move).party role) := by
  obtain ⟨speaker, m⟩ := move
  cases speaker with
  | left =>
      obtain ⟨hstep, hsaid⟩ := h.step hok (hp .left)
      cases role with
      | left => exact hstep
      | right => exact h.hear (hp .right) hsaid
  | right =>
      obtain ⟨hstep, hsaid⟩ := h.step hok (hp .right)
      cases role with
      | left => exact h.hear (hp .left) hsaid
      | right => exact hstep

/-- **Two kinds of parties** stay related, whatever is moved. -/
theorem Simulates.run {b : Behaviour σ μ ι} {b' : Behaviour σ' μ ι'} {ok : μ → Prop} {R : Role → σ → σ' → Prop}
    {E : Role → List ι → List ι' → Prop} (h : Simulates b b' ok R E) {moves : List (Role × μ)}
    (hok : ∀ move ∈ moves, ok move.2) {p : Pair σ} {p' : Pair σ'}
    (hp : ∀ role, R role (p.party role) (p'.party role)) (role : Role) :
    R role ((run b moves p).party role) ((run b' moves p').party role) := by
  induction moves generalizing p p' with
  | nil => exact hp role
  | cons move moves ih =>
      exact ih (fun move hmem => hok move (List.mem_cons_of_mem _ hmem))
        (h.exec (hok move List.mem_cons_self) hp)

/-! ### A speaker and its listener -/

section relation
variable {b : Behaviour σ μ ι} {ok : μ → Prop} {P : σ → σ → Prop} {p : Pair σ}

/-- A relation between a party that speaks and the one that listens, kept by the moves of either. -/
structure Upholds (b : Behaviour σ μ ι) (ok : μ → Prop) (P : σ → σ → Prop) : Prop where
  speaks : ∀ {m speaker listener}, ok m → P speaker listener →
    P (b.step m speaker) (b.hear (b.said m speaker) listener)
  listens : ∀ {m speaker listener}, ok m → P speaker listener →
    P (b.hear (b.said m listener) speaker) (b.step m listener)

theorem Upholds.exec (h : Upholds b ok P) {move : Role × μ} (hok : ok move.2)
    (hp : ∀ role, P (p.party role) (p.party role.other)) (role : Role) :
    P ((exec b p move).party role) ((exec b p move).party role.other) := by
  obtain ⟨speaker, m⟩ := move
  cases speaker with
  | left =>
      cases role with
      | left => exact h.speaks hok (hp .left)
      | right => exact h.listens hok (hp .right)
  | right =>
      cases role with
      | left => exact h.listens hok (hp .left)
      | right => exact h.speaks hok (hp .right)

/-- **The relation holds along every run**, in both directions. -/
theorem Upholds.run (h : Upholds b ok P) {moves : List (Role × μ)} (hok : ∀ move ∈ moves, ok move.2)
    (hp : ∀ role, P (p.party role) (p.party role.other)) (role : Role) :
    P ((run b moves p).party role) ((run b moves p).party role.other) := by
  induction moves generalizing p with
  | nil => exact hp role
  | cons move moves ih =>
      exact ih (fun move hmem => hok move (List.mem_cons_of_mem _ hmem))
        (h.exec (hok move List.mem_cons_self) hp)

end relation

/-! ### Coming to rest -/

/-- The move does nothing. -/
def Idle (b : Behaviour σ μ ι) (m : μ) (s : σ) : Prop := b.step m s = s ∧ b.said m s = []

/-- The move does nothing for either party. -/
def Rest (b : Behaviour σ μ ι) (m : μ) (p : Pair σ) : Prop := ∀ role, Idle b m (p.party role)

/-- As long as the move does anything, it lowers the cost of the pair. -/
structure Tires (b : Behaviour σ μ ι) (m : μ) (cost : σ → ℕ) : Prop where
  silent : ∀ s, b.hear [] s = s
  lower : ∀ {s}, ¬Idle b m s → ∀ r, cost (b.step m s) + cost (b.hear (b.said m s) r) < cost s + cost r

/-- One party after the other makes the move. -/
def turns (m : μ) (roles : List Role) : List (Role × μ) := roles.map fun role => (role, m)

def Pair.total (cost : σ → ℕ) (p : Pair σ) : ℕ := cost p.left + cost p.right

section rest
variable {b : Behaviour σ μ ι} {m : μ} {cost : σ → ℕ} {p : Pair σ}

theorem Tires.exec_idle (h : Tires b m cost) {role : Role} (hidle : Idle b m (p.party role)) :
    exec b p (role, m) = p := by
  obtain ⟨hstep, hsaid⟩ := hidle
  cases role with
  | left =>
      show Pair.mk (b.step m p.left) (b.hear (b.said m p.left) p.right) = p
      rw [show b.step m p.left = p.left from hstep, show b.said m p.left = [] from hsaid, h.silent]
  | right =>
      show Pair.mk (b.hear (b.said m p.right) p.left) (b.step m p.right) = p
      rw [show b.step m p.right = p.right from hstep, show b.said m p.right = [] from hsaid, h.silent]

theorem Tires.exec_lower (h : Tires b m cost) {role : Role} (hbusy : ¬Idle b m (p.party role)) :
    (exec b p (role, m)).total cost < p.total cost := by
  cases role with
  | left => exact h.lower hbusy p.right
  | right =>
      have hlower := h.lower hbusy p.left
      unfold Pair.total exec
      simp only [Pair.party] at hlower ⊢
      omega

/-- Turns lower the cost, or nobody who has a turn has anything to do. -/
theorem Tires.run_turns (h : Tires b m cost) (roles : List Role) (p : Pair σ) :
    ((∀ role ∈ roles, Idle b m (p.party role)) ∧ run b (turns m roles) p = p) ∨
      (run b (turns m roles) p).total cost < p.total cost := by
  induction roles generalizing p with
  | nil => exact .inl ⟨nofun, rfl⟩
  | cons role roles ih =>
      have hrun : run b (turns m (role :: roles)) p = run b (turns m roles) (exec b p (role, m)) := rfl
      by_cases hidle : Idle b m (p.party role)
      · rw [hrun, h.exec_idle hidle]
        refine (ih p).imp_left fun ⟨hrest, hsame⟩ => ⟨?_, hsame⟩
        intro other hmem
        rcases List.mem_cons.mp hmem with rfl | hmem
        · exact hidle
        · exact hrest other hmem
      · have hlower := h.exec_lower hidle
        right
        rw [hrun]
        rcases ih (exec b p (role, m)) with ⟨-, hsame⟩ | hless
        · rw [hsame]
          exact hlower
        · omega

theorem Tires.run_rest (h : Tires b m cost) (hrest : Rest b m p) (roles : List Role) : run b (turns m roles) p = p := by
  induction roles with
  | nil => rfl
  | cons role roles ih =>
      show run b (turns m roles) (exec b p (role, m)) = p
      rw [h.exec_idle (hrest role)]
      exact ih

/-- **Both parties come to rest** after as many rounds as the pair costs, if both have a turn in each. -/
theorem Tires.comes_to_rest (h : Tires b m cost) {rounds : List (List Role)} (hfair : ∀ round ∈ rounds, ∀ role, role ∈ round)
    {p : Pair σ} (hlong : p.total cost ≤ rounds.length) : Rest b m (run b (turns m rounds.flatten) p) := by
  induction rounds generalizing p with
  | nil =>
      intro role
      by_contra hbusy
      have hlower := h.exec_lower (p := p) hbusy
      have hzero : p.total cost = 0 := Nat.le_zero.mp hlong
      omega
  | cons round rounds ih =>
      have hsplit : run b (turns m (round :: rounds).flatten) p =
          run b (turns m rounds.flatten) (run b (turns m round) p) := by
        unfold turns
        rw [List.flatten_cons, List.map_append, run_append]
      rw [hsplit]
      rcases h.run_turns round p with ⟨hidle, hsame⟩ | hless
      · have hrest : Rest b m p := fun role => hidle role (hfair round List.mem_cons_self role)
        rw [hsame, h.run_rest hrest]
        exact hrest
      · refine ih (fun round hmem => hfair round (List.mem_cons_of_mem _ hmem)) ?_
        rw [List.length_cons] at hlong
        omega

end rest
end Duplex
