import Dusty.Session

/-! # What the text of a session holds

A session holds no key twice and no zero byte, whatever a handler does to it.  So its text is read
back as it was written (`loadDecoded_signed`), as long as it has not expired. -/

namespace Dusty

open Act

namespace SessionData

/-- No key is there twice, and no entry holds the separator. -/
structure Sound (data : SessionData) : Prop where
  unique : (data.entries.map (·.key)).Nodup
  text : ∀ entry ∈ data.entries, 0 ∉ entry.key ∧ 0 ∉ entry.value

theorem sound_empty : ({} : SessionData).Sound := ⟨List.nodup_nil, by simp⟩

/-! ### What a handler does -/

theorem map_key_assign (key value : Bytes) (entries : List SessionEntry) :
    (assign key value entries).map (·.key) = entries.map (·.key) := by
  induction entries with
  | nil => rfl
  | cons entry rest ih =>
      rw [assign]
      split
      · rfl
      · rw [List.map_cons, ih, List.map_cons]

theorem mem_assign {key value : Bytes} {entry : SessionEntry} {entries : List SessionEntry}
    (h : entry ∈ assign key value entries) : entry ∈ entries ∨ entry = ⟨key, value⟩ := by
  induction entries with
  | nil => cases h
  | cons first rest ih =>
      rw [assign] at h
      split at h
      · next hkey =>
          rcases List.mem_cons.mp h with rfl | h
          · exact .inr (by rw [hkey])
          · exact .inl (List.mem_cons_of_mem _ h)
      · rcases List.mem_cons.mp h with rfl | h
        · exact .inl List.mem_cons_self
        · exact (ih h).imp_left (List.mem_cons_of_mem _)

theorem set_dropLast_perm {α : Type} (pre post : List α) (x : α) {last : α}
    (h : (pre ++ x :: post).getLast? = some last) :
    ((pre ++ x :: post).set pre.length last).dropLast.Perm (pre ++ post) := by
  have hset : (pre ++ x :: post).set pre.length last = pre ++ last :: post := by
    rw [List.set_append_right _ _ le_rfl, Nat.sub_self, List.set_cons_zero]
  rw [hset]
  rcases List.eq_nil_or_concat post with rfl | ⟨post, y, rfl⟩
  · rw [List.dropLast_concat, List.append_nil]
  · rw [List.concat_eq_append, ← List.cons_append, ← List.append_assoc] at h ⊢
    rw [List.getLast?_concat] at h
    cases h
    rw [List.dropLast_concat]
    exact (List.perm_append_singleton _ post).symm.append_left pre

/-- The entries without the first one that has the key. -/
theorem swapRemove_perm {key : Bytes} {entries : List SessionEntry}
    (h : entries.any (·.key == key) = true) :
    ∃ pre entry post, entries = pre ++ entry :: post ∧ entry.key = key ∧
      (swapRemove key entries).Perm (pre ++ post) := by
  obtain ⟨i, hi⟩ : ∃ i, entries.findIdx? (·.key == key) = some i := by
    rw [← Option.isSome_iff_exists, List.findIdx?_isSome]
    exact h
  obtain ⟨hlt, hkey, -⟩ := List.findIdx?_eq_some_iff_getElem.mp hi
  have hsplit : entries.take i ++ entries[i] :: entries.drop (i + 1) = entries := by
    rw [← List.drop_eq_getElem_cons hlt, List.take_append_drop]
  refine ⟨entries.take i, entries[i], entries.drop (i + 1), hsplit.symm, beq_iff_eq.mp hkey, ?_⟩
  obtain ⟨last, hlast⟩ : ∃ last, entries.getLast? = some last :=
    ⟨_, List.getLast?_eq_some_getLast (List.ne_nil_of_length_pos (by omega))⟩
  have hperm := set_dropLast_perm (entries.take i) (entries.drop (i + 1)) entries[i]
    (by rw [hsplit, hlast])
  rw [hsplit, List.length_take_of_le hlt.le] at hperm
  unfold swapRemove
  rw [hi, hlast]
  exact hperm

/-- **`set` keeps a session sound.** -/
theorem Sound.set {self self' : SessionData} (h : self.Sound) {key value : Bytes}
    (hset : self.set key value = .ok self') : self'.Sound := by
  unfold SessionData.set at hset
  split at hset
  · cases hset
  · next htext =>
      rw [not_or] at htext
      split at hset
      · cases hset
        refine ⟨?_, fun entry hentry => ?_⟩
        · rw [map_key_assign]
          exact h.unique
        · rcases mem_assign hentry with hentry | rfl
          · exact h.text entry hentry
          · exact htext
      · next hnew =>
          split at hset
          · cases hset
            refine ⟨?_, fun entry hentry => ?_⟩
            · rw [List.map_append, List.nodup_append]
              refine ⟨h.unique, List.nodup_singleton _, ?_⟩
              intro k hk k' hk'
              rw [List.map_singleton, List.mem_singleton] at hk'
              subst hk'
              rintro rfl
              obtain ⟨entry, hentry, hkey⟩ := List.mem_map.mp hk
              exact hnew (List.any_eq_true.mpr ⟨entry, hentry, by simpa using hkey⟩)
            · rcases List.mem_append.mp hentry with hentry | hentry
              · exact h.text entry hentry
              · rw [List.mem_singleton.mp hentry]
                exact htext
          · cases hset

/-- **`remove` keeps a session sound.** -/
theorem Sound.remove {self : SessionData} (h : self.Sound) (key : Bytes) :
    (self.remove key).Sound := by
  unfold SessionData.remove
  split
  · next hany =>
      obtain ⟨pre, entry, post, heq, -, hperm⟩ := swapRemove_perm hany
      have hsub : (pre ++ post).Sublist self.entries := by
        rw [heq]
        exact (List.Sublist.refl pre).append (List.sublist_cons_self entry post)
      refine ⟨?_, fun e he => h.text e (hsub.subset (hperm.subset he))⟩
      exact (hperm.map _).nodup_iff.mpr (h.unique.sublist (hsub.map _))
  · exact h

theorem sound_clear (self : SessionData) : self.clear.Sound := ⟨List.nodup_nil, by simp [clear]⟩

/-- The entries that are complete: two pieces are a key and its value. -/
def completePairs : List Bytes → List SessionEntry
  | key :: value :: rest => ⟨key, value⟩ :: completePairs rest
  | _ => []

/-- What `load` adds to a session: the first pairs, as long as there is room. -/
theorem addPairs_eq (pieces : List Bytes) (data : SessionData) :
    (Session.addPairs pieces data).entries =
        data.entries ++ (completePairs pieces).take (16 - data.entries.length) ∧
      (Session.addPairs pieces data).modified = data.modified := by
  fun_induction Session.addPairs pieces data with
  | case1 key value rest data hroom ih =>
      obtain ⟨hentries, hmodified⟩ := ih
      refine ⟨?_, hmodified⟩
      have htake : 16 - data.entries.length = 16 - (data.entries.length + 1) + 1 := by omega
      rw [hentries, completePairs, htake, List.take_succ_cons, List.append_assoc, List.length_append]
      rfl
  | case2 key value rest data hfull =>
      have htake : 16 - data.entries.length = 0 := by omega
      rw [htake, List.take_zero, List.append_nil]
      exact ⟨rfl, rfl⟩
  | case3 pieces data hshort =>
      have hnone : completePairs pieces = [] := by
        unfold completePairs
        split
        · next key value rest => exact absurd rfl (hshort key value rest)
        · rfl
      rw [hnone, List.take_nil, List.append_nil]
      exact ⟨rfl, rfl⟩

theorem completePairs_flatMap (entries : List SessionEntry) :
    completePairs (entries.flatMap (fun entry => [entry.key, entry.value]) ++ [[]]) = entries := by
  induction entries with
  | nil => rfl
  | cons entry rest ih =>
      rw [List.flatMap_cons]
      simp only [List.cons_append, List.nil_append, completePairs, ih]

/-- What has been added to a session, if there is room. -/
theorem addPairs_entries (entries : List SessionEntry) {data : SessionData}
    (h : data.entries.length + entries.length ≤ 16) :
    (Session.addPairs (entries.flatMap (fun entry => [entry.key, entry.value]) ++ [[]]) data).entries =
        data.entries ++ entries ∧
      (Session.addPairs (entries.flatMap (fun entry => [entry.key, entry.value]) ++ [[]])
        data).modified = data.modified := by
  obtain ⟨hentries, hmodified⟩ :=
    addPairs_eq (entries.flatMap (fun entry => [entry.key, entry.value]) ++ [[]]) data
  rw [hentries, completePairs_flatMap, List.take_of_length_le (by omega)]
  exact ⟨rfl, hmodified⟩

end SessionData

namespace Session

open SessionData

/-! ### The text -/

theorem splitScalar_payload {entries : List SessionEntry}
    (h : ∀ entry ∈ entries, 0 ∉ entry.key ∧ 0 ∉ entry.value) :
    splitScalar (payload entries) 0 =
      entries.flatMap (fun entry => [entry.key, entry.value]) ++ [[]] := by
  induction entries with
  | nil => rfl
  | cons entry rest ih =>
      obtain ⟨hkey, hvalue⟩ := h entry List.mem_cons_self
      have hpayload : payload (entry :: rest) =
          entry.key ++ 0 :: (entry.value ++ 0 :: payload rest) := by
        unfold payload
        rw [List.flatMap_cons]
        simp only [List.append_assoc, List.cons_append, List.nil_append]
      rw [hpayload, splitScalar_append, splitScalar_append, splitScalar_of_notMem hkey,
        splitScalar_of_notMem hvalue, ih fun e he => h e (List.mem_cons_of_mem _ he),
        List.flatMap_cons]
      rfl

theorem readLittleEndian_littleEndian32 {n : ℕ} (h : n < 2 ^ 32) :
    readLittleEndian (littleEndian32 n) = n := by
  have hbyte (m : ℕ) : m.toUInt8.toNat = m % 256 := UInt8.toNat_ofNat'
  unfold littleEndian32 readLittleEndian
  simp only [readLittleEndian, hbyte]
  omega

/-- The text has not expired: it does not expire, or the clock has not passed it. -/
def Lasts (expiresAt now : ℕ) : Prop :=
  expiresAt = 0 ∨ now / 1000000000 < 2 ^ 32 ∧ now / 1000000000 ≤ expiresAt

instance (expiresAt now : ℕ) : Decidable (Lasts expiresAt now) :=
  inferInstanceAs (Decidable (_ ∨ _))

theorem expiry_run (expires now : ℕ) (data : SessionData) :
    (Act.when (expires != 0) (do
      Act.assert (decide (now / 1000000000 < 2 ^ 32))
      Act.when (decide (expires < now / 1000000000)) (Act.fail .expired)) : Act SessionData Unit) data =
      if Lasts expires now then .ok () data
      else if now / 1000000000 < 2 ^ 32 then .error (.err .expired) data
      else .error (.panic .assertion) data := by
  by_cases hzero : expires = 0
  · have hlasts : Lasts expires now := .inl hzero
    rw [if_pos hlasts, hzero]
    rfl
  · rw [show (expires != 0) = true from bne_iff_ne.mpr hzero, Act.when_true]
    by_cases hclock : now / 1000000000 < 2 ^ 32
    · rw [bind_ok (assert_true (decide_eq_true hclock) data)]
      by_cases hlate : expires < now / 1000000000
      · have hlasts : ¬Lasts expires now := by
          rintro (h | h)
          · exact hzero h
          · exact absurd h.2 (Nat.not_le.mpr hlate)
        rw [decide_eq_true hlate, if_neg hlasts, if_pos hclock]
        rfl
      · have hlasts : Lasts expires now := .inr ⟨hclock, Nat.not_lt.mp hlate⟩
        rw [decide_eq_false hlate, if_pos hlasts]
        rfl
    · have hlasts : ¬Lasts expires now := by
        rintro (h | h)
        · exact hzero h
        · exact hclock h.1
      rw [bind_run, assert_run, decide_eq_false hclock, if_neg hlasts, if_neg hclock]
      rfl

/-! ### The checks -/

/-- The decoded text is of version 1, and signed. -/
structure Authentic (config : Session) (mac : Mac) (decoded : Bytes) : Prop where
  length : 40 ≤ decoded.length
  version : decoded.head? = some 1
  signature : (decoded.drop 8).take 32 = mac.sign config.secretKey (decoded.take 8 ++ decoded.drop 40)

/-- The `expires_at` of a decoded text. -/
def expiryOf (decoded : Bytes) : ℕ := readLittleEndian ((decoded.take 8).drop 4)

theorem head?_take_eight (decoded : Bytes) : (decoded.take 8).head? = decoded.head? := by
  cases decoded with
  | nil => rfl
  | cons b rest => rfl

/-- What `load` does with a decoded text that is signed. -/
theorem Authentic.run {self : Session} {mac : Mac} {decoded : Bytes} (h : self.Authentic mac decoded)
    (now : ℕ) (data : SessionData) :
    self.loadDecoded mac decoded now data =
      if Lasts (expiryOf decoded) now then .ok () (addPairs (splitScalar (decoded.drop 40) 0) data)
      else if now / 1000000000 < 2 ^ 32 then .error (.err .expired) data
      else .error (.panic .assertion) data := by
  have hexpiry := expiry_run (expiryOf decoded) now data
  unfold expiryOf at hexpiry ⊢
  unfold loadDecoded
  simp only [head?_take_eight]
  rw [if_neg (not_not.mpr h.version), if_neg (not_not.mpr h.signature)]
  split at hexpiry
  · next hlasts =>
      rw [if_pos hlasts, bind_ok hexpiry]
      rfl
  · next hlasts =>
      rw [if_neg hlasts]
      split at hexpiry
      · next hclock => rw [if_pos hclock, bind_error hexpiry]
      · next hclock => rw [if_neg hclock, bind_error hexpiry]

theorem loadDecoded_rejects {self : Session} {mac : Mac} {decoded : Bytes} (hlength : 40 ≤ decoded.length)
    (h : ¬self.Authentic mac decoded) (now : ℕ) (data : SessionData) :
    ∃ e, self.loadDecoded mac decoded now data = .error (.err e) data := by
  unfold loadDecoded
  simp only [head?_take_eight]
  split
  · exact ⟨_, rfl⟩
  · next hversion =>
      split
      · exact ⟨_, rfl⟩
      · next hsig => exact absurd ⟨hlength, not_not.mp hversion, not_not.mp hsig⟩ h

/-- What is signed: eight bytes, the signature, and the entries. -/
theorem signed_parts (self : Session) (mac : Mac) (expiresAt : ℕ) (entries : List SessionEntry) :
    (self.signed mac expiresAt entries).take 8 = header expiresAt ∧
      ((self.signed mac expiresAt entries).drop 8).take 32 =
        mac.sign self.secretKey (header expiresAt ++ payload entries) ∧
      (self.signed mac expiresAt entries).drop 40 = payload entries := by
  have hsig := mac.length_sign self.secretKey (header expiresAt ++ payload entries)
  have hsigned : self.signed mac expiresAt entries = header expiresAt ++
      (mac.sign self.secretKey (header expiresAt ++ payload entries) ++ payload entries) :=
    List.append_assoc _ _ _
  have hrest : (self.signed mac expiresAt entries).drop 8 =
      mac.sign self.secretKey (header expiresAt ++ payload entries) ++ payload entries := by
    rw [hsigned]
    exact List.drop_left' rfl
  refine ⟨?_, ?_, ?_⟩
  · rw [hsigned]
    exact List.take_left' rfl
  · rw [hrest, List.take_left' hsig]
  · rw [show 40 = 8 + 32 from rfl, ← List.drop_drop, hrest, List.drop_left' hsig]

theorem signed_authentic (self : Session) (mac : Mac) (expiresAt : ℕ) (entries : List SessionEntry) :
    self.Authentic mac (self.signed mac expiresAt entries) := by
  obtain ⟨htake, hsig, hdrop⟩ := self.signed_parts mac expiresAt entries
  refine ⟨?_, ?_, ?_⟩
  · unfold signed header littleEndian32
    simp only [List.length_append, mac.length_sign, List.length_cons, List.length_nil]
    omega
  · rw [← head?_take_eight, htake]
    rfl
  · rw [hsig, htake, hdrop]

theorem expiryOf_signed (self : Session) (mac : Mac) {expiresAt : ℕ} (h : expiresAt < 2 ^ 32)
    (entries : List SessionEntry) : expiryOf (self.signed mac expiresAt entries) = expiresAt := by
  unfold expiryOf
  rw [(self.signed_parts mac expiresAt entries).1]
  exact readLittleEndian_littleEndian32 h

/-- **A session is read back as it was signed.** -/
theorem loadDecoded_signed (self : Session) (mac : Mac) {data : SessionData} (hdata : data.Sound)
    {expiresAt now : ℕ} (hbound : expiresAt < 2 ^ 32) (hlasts : Lasts expiresAt now) :
    ∃ loaded, self.loadDecoded mac (self.signed mac expiresAt data.entries) now {} = .ok () loaded ∧
      loaded.entries = data.entries ∧ loaded.modified = false := by
  have hroom : ({} : SessionData).entries.length + data.entries.length ≤ 16 := by
    rw [List.length_nil, Nat.zero_add]
    exact data.fits
  obtain ⟨hentries, hmodified⟩ := addPairs_entries data.entries hroom
  have hrun := (self.signed_authentic mac expiresAt data.entries).run now {}
  rw [self.expiryOf_signed mac hbound, if_pos hlasts, (self.signed_parts mac expiresAt data.entries).2.2,
    splitScalar_payload hdata.text] at hrun
  exact ⟨_, hrun, hentries, hmodified⟩

/-- **The value of the cookie** is read back as it was signed. -/
theorem load_signed (self : Session) (mac : Mac) {data : SessionData} (hdata : data.Sound)
    {expiresAt now : ℕ} (hbound : expiresAt < 2 ^ 32) (hlasts : Lasts expiresAt now) :
    ∃ loaded,
      self.load mac (Base64Url.encode (self.signed mac expiresAt data.entries)) now {} =
        .ok () loaded ∧ loaded.entries = data.entries ∧ loaded.modified = false := by
  have hlength : ¬(self.signed mac expiresAt data.entries).length < 40 :=
    Nat.not_lt.mpr (self.signed_authentic mac expiresAt data.entries).length
  unfold load
  rw [Base64Url.decode_encode]
  simp only [if_neg hlength]
  exact self.loadDecoded_signed mac hdata hbound hlasts

/-! ### Samples -/

/-- A session that lasts for an hour. -/
def hourly : Session := { secretKey := [], maxAge := some 3600000000000 }

/-- A signature that says nothing. -/
def blankMac : Mac := ⟨fun _ _ => List.replicate 32 0, fun _ _ => List.length_replicate⟩

end Session
end Dusty
