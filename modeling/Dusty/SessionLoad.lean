import Dusty.SessionText

/-! # What a session is loaded from

`load` takes nothing from a text that does not carry its signature: `load_authentic`.  A text that
`signSession` has made is accepted until its time has passed, as long as that time and the clock fit
their integers: `expiry_iff`. -/

namespace Dusty

open Act

/-- Sessions are the same that hold the same entries and mark the same change. -/
theorem SessionData.eq_of_parts {data data' : SessionData} (hentries : data.entries = data'.entries)
    (hmodified : data.modified = data'.modified) : data = data' := by
  cases data
  cases data'
  simp only at hentries hmodified
  subst hentries
  subst hmodified
  rfl

namespace Session

open SessionData

/-! ### What is taken from a text -/

/-- The text decodes to one that is signed and has not expired. -/
def Accepted (self : Session) (mac : Mac) (raw : Bytes) (now : ℕ) (decoded : Bytes) : Prop :=
  Base64Url.decode raw = some decoded ∧ self.Authentic mac decoded ∧ Lasts (expiryOf decoded) now

theorem load_cases (self : Session) (mac : Mac) (raw : Bytes) (now : ℕ) (data : SessionData) :
    (∃ decoded, self.Accepted mac raw now decoded ∧
      self.load mac raw now data = .ok () (addPairs (splitScalar (decoded.drop 40) 0) data)) ∨
    ((¬∃ decoded, self.Accepted mac raw now decoded) ∧
      ((∃ e, self.load mac raw now data = .error (.err e) data) ∨
        2 ^ 32 ≤ now / 1000000000 ∧ self.load mac raw now data = .error (.panic .assertion) data)) := by
  have hone {decoded : Bytes} (hdecode : Base64Url.decode raw = some decoded)
      (h : ¬(self.Authentic mac decoded ∧ Lasts (expiryOf decoded) now)) :
      ¬∃ decoded, self.Accepted mac raw now decoded := by
    rintro ⟨decoded', hdecode', haccepted⟩
    rw [hdecode] at hdecode'
    cases hdecode'
    exact h haccepted
  unfold load
  cases hdecode : Base64Url.decode raw with
  | none =>
      refine .inr ⟨?_, .inl ⟨_, rfl⟩⟩
      rintro ⟨decoded, hdecode', -⟩
      rw [hdecode] at hdecode'
      cases hdecode'
  | some decoded =>
      simp only
      split
      · next hshort =>
          exact .inr ⟨hone hdecode fun h => absurd h.1.length (Nat.not_le.mpr hshort), .inl ⟨_, rfl⟩⟩
      · next hlong =>
          by_cases hauthentic : self.Authentic mac decoded
          · have hrun := hauthentic.run now data
            split at hrun
            · next hlasts => exact .inl ⟨decoded, ⟨hdecode, hauthentic, hlasts⟩, hrun⟩
            · next hlasts =>
                split at hrun
                · exact .inr ⟨hone hdecode fun h => hlasts h.2, .inl ⟨_, hrun⟩⟩
                · next hclock =>
                    exact .inr ⟨hone hdecode fun h => hlasts h.2, .inr ⟨Nat.not_lt.mp hclock, hrun⟩⟩
          · exact .inr ⟨hone hdecode fun h => hauthentic h.1,
              .inl (loadDecoded_rejects (Nat.not_lt.mp hlong) hauthentic now data)⟩

/-- **Nothing is taken from a text that is not signed, or has expired**: a session that holds nothing
becomes what is signed in it, or stays as it was. -/
theorem load_authentic (self : Session) (mac : Mac) (raw : Bytes) {now : ℕ} {data : SessionData}
    (hclock : now / 1000000000 < 2 ^ 32) (hempty : data.entries = []) :
    (∀ loaded, self.load mac raw now data = .ok () loaded ↔
      ∃ decoded, Base64Url.decode raw = some decoded ∧ self.Authentic mac decoded ∧
        (expiryOf decoded = 0 ∨ now / 1000000000 ≤ expiryOf decoded) ∧
        loaded.entries = (completePairs (splitScalar (decoded.drop 40) 0)).take 16 ∧
        loaded.modified = data.modified) ∧
    ∀ f s, self.load mac raw now data = .error f s → s = data ∧ ∃ e, f = .err e := by
  have hpairs (decoded : Bytes) := addPairs_eq (splitScalar (decoded.drop 40) 0) data
  rw [hempty] at hpairs
  rcases self.load_cases mac raw now data with ⟨decoded, ⟨hdecode, hauthentic, hlasts⟩, hrun⟩ | ⟨hnot, hrun⟩
  · rw [hrun]
    refine ⟨fun loaded => ⟨?_, ?_⟩, fun _ _ h => by cases h⟩
    · intro heq
      cases heq
      exact ⟨decoded, hdecode, hauthentic, hlasts.imp_right And.right, hpairs decoded⟩
    · rintro ⟨decoded', hdecode', -, -, hentries, hmodified⟩
      obtain rfl : decoded = decoded' := Option.some.inj (hdecode.symm.trans hdecode')
      obtain ⟨hentries', hmodified'⟩ := hpairs decoded
      rw [SessionData.eq_of_parts (hentries.trans hentries'.symm) (hmodified.trans hmodified'.symm)]
  · have herror : ∃ e, self.load mac raw now data = .error (.err e) data := by
      rcases hrun with herror | ⟨hlate, _⟩
      · exact herror
      · exact absurd hclock (Nat.not_lt.mpr hlate)
    obtain ⟨e, herror⟩ := herror
    rw [herror]
    refine ⟨fun loaded => ⟨(fun h => by cases h), ?_⟩, ?_⟩
    · rintro ⟨decoded, hdecode, hauthentic, hlasts, -⟩
      exact absurd ⟨decoded, hdecode, hauthentic, hlasts.imp_right fun h => ⟨hclock, h⟩⟩ hnot
    · rintro f s heq
      cases heq
      exact ⟨rfl, e, rfl⟩

/-- One that `signSession` has made. -/
theorem load_authentic_sample :
    blankMac.sign [] [] = List.replicate 32 0 ∧
      (∀ loaded, hourly.load blankMac (ascii "AQAAAP____8AAAAAAAAAAAAAAAAAAAAAAAAAAAAAAAAAAAAAAAAAAGEAMQA")
          4294967290000000000 {} = .ok () loaded ↔
        ∃ decoded, Base64Url.decode (ascii "AQAAAP____8AAAAAAAAAAAAAAAAAAAAAAAAAAAAAAAAAAAAAAAAAAGEAMQA") =
            some decoded ∧ hourly.Authentic blankMac decoded ∧
          (expiryOf decoded = 0 ∨ 4294967290000000000 / 1000000000 ≤ expiryOf decoded) ∧
          loaded.entries = (completePairs (splitScalar (decoded.drop 40) 0)).take 16 ∧
          loaded.modified = false) ∧
      ∀ f s, hourly.load blankMac (ascii "AQAAAP____8AAAAAAAAAAAAAAAAAAAAAAAAAAAAAAAAAAAAAAAAAAGEAMQA")
          4294967290000000000 {} = .error f s → s = {} ∧ ∃ e, f = .err e :=
  ⟨rfl, load_authentic hourly blankMac _ (by decide) rfl⟩

/-! ### How long a session lasts -/

/-- How `load` ends, of a text that `signSession` has made. -/
theorem load_signed_cases (self : Session) (mac : Mac) {expires : ℕ} (hbound : expires < 2 ^ 32)
    (entries : List SessionEntry) (now : ℕ) (data : SessionData) :
    (Lasts expires now ∧ ∃ loaded,
      self.load mac (Base64Url.encode (self.signed mac expires entries)) now data = .ok () loaded) ∨
    (¬Lasts expires now ∧ now / 1000000000 < 2 ^ 32 ∧ ∃ e,
      self.load mac (Base64Url.encode (self.signed mac expires entries)) now data = .error (.err e) data) ∨
    (¬Lasts expires now ∧ 2 ^ 32 ≤ now / 1000000000 ∧
      self.load mac (Base64Url.encode (self.signed mac expires entries)) now data =
        .error (.panic .assertion) data) := by
  have hauthentic := self.signed_authentic mac expires entries
  have hrun := hauthentic.run now data
  rw [self.expiryOf_signed mac hbound entries] at hrun
  unfold load
  rw [Base64Url.decode_encode]
  simp only [if_neg (Nat.not_lt.mpr hauthentic.length)]
  split at hrun
  · next hlasts => exact .inl ⟨hlasts, _, hrun⟩
  · next hlasts =>
      split at hrun
      · next hclock => exact .inr (.inl ⟨hlasts, hclock, _, hrun⟩)
      · next hclock => exact .inr (.inr ⟨hlasts, Nat.not_lt.mp hclock, hrun⟩)

theorem signSession_run {σ : Type} {self : Session} (mac : Mac) (session : SessionData) (now : ℕ)
    {maxAge : ℕ} (hage : self.maxAge = some (maxAge : ℤ)) (s : σ) :
    (self.signSession mac session now : Act σ Bytes) s =
      if (now + maxAge) / 1000000000 < 2 ^ 63 then
        .ok (Base64Url.encode (self.signed mac (min ((now + maxAge) / 1000000000) (2 ^ 32 - 1))
          session.entries)) s
      else .error (.panic .assertion) s := by
  have hseconds : ((now : ℤ) + (maxAge : ℤ)).tdiv 1000000000 = ((now + maxAge) / 1000000000 : ℕ) := by
    rw [Int.tdiv_eq_ediv_of_nonneg (by omega)]
    norm_cast
  unfold signSession expiresAt
  rw [hage]
  simp only
  rw [hseconds]
  generalize (now + maxAge) / 1000000000 = seconds
  have hmin : (min (seconds : ℤ) (2 ^ 32 - 1)).toNat = min seconds (2 ^ 32 - 1) := by omega
  split
  · next hfits =>
      have hcast : decide (-2 ^ 63 ≤ (seconds : ℤ) ∧ (seconds : ℤ) < 2 ^ 63) = true :=
        decide_eq_true (by omega)
      have hclamp : decide (0 ≤ min (seconds : ℤ) (2 ^ 32 - 1)) = true := decide_eq_true (by omega)
      rw [hcast, hclamp, hmin]
      rfl
  · next hlarge =>
      have hcast : decide (-2 ^ 63 ≤ (seconds : ℤ) ∧ (seconds : ℤ) < 2 ^ 63) = false :=
        decide_eq_false (by omega)
      rw [hcast]
      rfl

/-- A text that was signed at one time is looked at, at another: there is no trap, and it is accepted as
long as its time has not passed. -/
def LastsAsSigned (self : Session) (mac : Mac) (session : SessionData) (signedAt maxAge loadedAt : ℕ) :
    Prop :=
  ∃ raw, (self.signSession mac session signedAt : Act SessionData Bytes) {} = .ok raw {} ∧
    (∀ p s, self.load mac raw loadedAt {} ≠ .error (.panic p) s) ∧
    ((∃ loaded, self.load mac raw loadedAt {} = .ok () loaded) ↔
      loadedAt / 1000000000 ≤ (signedAt + maxAge) / 1000000000)

/-- **A session lasts as long as it should**, exactly when its last second fits an `i64`, and is zero only
if the clock is there too, and otherwise the clock fits a `u32`. -/
theorem lastsAsSigned_iff {self : Session} (mac : Mac) (session : SessionData)
    {signedAt maxAge loadedAt : ℕ} (hage : self.maxAge = some (maxAge : ℤ)) :
    self.LastsAsSigned mac session signedAt maxAge loadedAt ↔
      (signedAt + maxAge) / 1000000000 < 2 ^ 63 ∧
        if (signedAt + maxAge) / 1000000000 = 0 then loadedAt / 1000000000 = 0
        else loadedAt / 1000000000 < 2 ^ 32 := by
  unfold LastsAsSigned
  simp only [signSession_run mac session signedAt hage]
  generalize (signedAt + maxAge) / 1000000000 = last
  by_cases hfits : last < 2 ^ 63
  · have hcases := @load_signed_cases self mac (min last (2 ^ 32 - 1)) (by omega)
      session.entries loadedAt {}
    have hlasts : Lasts (min last (2 ^ 32 - 1)) loadedAt ↔ last = 0 ∨
        loadedAt / 1000000000 < 2 ^ 32 ∧ loadedAt / 1000000000 ≤ last := by
      unfold Lasts
      omega
    rw [hlasts] at hcases
    simp only [hfits, true_and]
    constructor
    · rintro ⟨raw, heq, htraps, haccepts⟩
      cases heq
      rcases hcases with ⟨h, hok⟩ | ⟨h, hclock, e, herror⟩ | ⟨h, hclock, hpanic⟩
      · have hle := haccepts.mp hok
        split <;> omega
      · split
        · next hzero => exact absurd (.inl hzero) h
        · exact hclock
      · exact absurd hpanic (htraps _ _)
    · intro hcondition
      refine ⟨_, rfl, ?_, ?_⟩
      · intro p s hpanic
        rcases hcases with ⟨h, _, hok⟩ | ⟨h, hclock, e, herror⟩ | ⟨h, hclock, hpanic'⟩
        · rw [hok] at hpanic
          cases hpanic
        · rw [herror] at hpanic
          cases hpanic
        · split at hcondition
          · next hzero => exact h (.inl hzero)
          · omega
      · rcases hcases with ⟨h, hok⟩ | ⟨h, hclock, e, herror⟩ | ⟨h, hclock, hpanic⟩
        · refine iff_of_true hok ?_
          split at hcondition <;> omega
        · refine iff_of_false ?_ ?_
          · rintro ⟨loaded, hok⟩
            rw [herror] at hok
            cases hok
          · exact fun hle => h (.inr ⟨hclock, hle⟩)
        · split at hcondition
          · next hzero => exact absurd (.inl hzero) h
          · omega
  · simp only [hfits, false_and, iff_false]
    rintro ⟨raw, heq, -⟩
    cases heq

theorem lastsAsSigned_sample :
    hourly.LastsAsSigned blankMac {} 1700000000000000000 3600000000000 1700000001000000000 :=
  (lastsAsSigned_iff blankMac {} rfl).mpr ⟨by decide, by decide⟩

/-- One hour from ten seconds before the `u32` is full: the clock passes it within the hour, and the cookie
that should be accepted brings the server down. -/
theorem lastsAsSigned_not :
    hourly.maxAge = some ((3600000000000 : ℕ) : ℤ) ∧
      faults (.panic .assertion) (do
        let raw ← hourly.signSession blankMac {} 4294967286000000000
        hourly.load blankMac raw 4294967306000000000) {} = true ∧
      ¬hourly.LastsAsSigned blankMac {} 4294967286000000000 3600000000000 4294967306000000000 := by
  have hfaults : faults (.panic .assertion) (do
      let raw ← hourly.signSession blankMac {} 4294967286000000000
      hourly.load blankMac raw 4294967306000000000) {} = true := by decide +kernel
  refine ⟨rfl, hfaults, ?_⟩
  rintro ⟨raw, hsign, htraps, -⟩
  obtain ⟨s, hpanic⟩ := faults_iff.mp hfaults
  rw [bind_ok hsign] at hpanic
  exact htraps _ s hpanic

end Session
end Dusty
