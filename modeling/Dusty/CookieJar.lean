import Dusty.Cookie
import Dusty.Http

/-! # What a client keeps of a cookie

A client reads the name, the value and the lifetime out of the text of a `Set-Cookie` field, keeps
them, and sends the pair back until it expires.  What `serializeCookie` writes is read as it was
meant: `serializeCookie_pair` and `serializeCookie_lifetime`.  What the client sends is read by `Cookie.get`
(`get_header`). -/

namespace Dusty

/-- A pair the client has stored, and when it expires, in nanoseconds. -/
structure StoredCookie where
  value : Bytes
  expires : Option ℕ
deriving DecidableEq, Repr

/-- The pair has not expired. -/
def StoredCookie.live (self : StoredCookie) (now : ℕ) : Bool :=
  self.expires.all fun expires => decide (now < expires)

namespace SetCookie

/-- The name, which ends at the first `=`. -/
def name (text : Bytes) : Bytes := (text.takeWhile (· ≠ 59)).takeWhile (· ≠ 61)

/-- The value, which ends at the first `;`. -/
def value (text : Bytes) : Bytes := ((text.takeWhile (· ≠ 59)).dropWhile (· ≠ 61)).drop 1

/-- The seconds of a `Max-Age` attribute, of which there are none below zero. -/
def maxAgeOf (piece : Bytes) : Option ℕ :=
  let trimmed := piece.dropWhile (· == 32)
  if eqlIgnoreCase (trimmed.takeWhile (· ≠ 61)) (ascii "Max-Age") then
    match (trimmed.dropWhile (· ≠ 61)).drop 1 with
    | 45 :: _ => some 0
    | digits => readNat 10 digits
  else none

/-- The seconds the cookie lasts: the last such attribute counts. -/
def lifetime (text : Bytes) : Option ℕ := ((splitScalar text 59).tail.filterMap maxAgeOf).getLast?

/-- When the cookie expires that was set at `now`. -/
def expires (now : ℕ) (text : Bytes) : Option ℕ :=
  (lifetime text).map fun seconds => if seconds = 0 then 0 else now + seconds * 1000000000

/-- What the client has stored under the name when it has seen one more `Set-Cookie` field. -/
def store (cookieName : Bytes) (now : ℕ) (jar : Option StoredCookie) (text : Bytes) :
    Option StoredCookie :=
  if name text = cookieName then some ⟨value text, expires now text⟩ else jar

/-- The `Set-Cookie` fields. -/
def texts (headers : Headers) : List Bytes :=
  (headers.entries.filter (·.isFor (ascii "Set-Cookie"))).map (·.value)

/-- What the client has stored under the name when it has seen the response. -/
def keep (cookieName : Bytes) (now : ℕ) (headers : Headers) (jar : Option StoredCookie) :
    Option StoredCookie :=
  (texts headers).foldl (store cookieName now) jar

theorem foldl_store_of_ne {cookieName : Bytes} {now : ℕ} {texts : List Bytes}
    (h : ∀ text ∈ texts, name text ≠ cookieName) (jar : Option StoredCookie) :
    texts.foldl (store cookieName now) jar = jar := by
  induction texts generalizing jar with
  | nil => rfl
  | cons text rest ih =>
      rw [List.foldl_cons, store, if_neg (h text List.mem_cons_self)]
      exact ih (fun t ht => h t (List.mem_cons_of_mem _ ht)) jar

theorem keep_of_ne {cookieName : Bytes} {headers : Headers}
    (h : ∀ text ∈ texts headers, name text ≠ cookieName) (now : ℕ) (jar : Option StoredCookie) :
    keep cookieName now headers jar = jar := foldl_store_of_ne h jar

theorem keep_add {cookieName text : Bytes} {headers headers' : Headers}
    (hadd : headers.add (ascii "Set-Cookie") text = .ok headers') (hname : name text = cookieName)
    (now : ℕ) (jar : Option StoredCookie) :
    keep cookieName now headers' jar = some ⟨value text, expires now text⟩ := by
  have htexts : texts headers' = texts headers ++ [text] := by
    unfold Headers.add at hadd
    split at hadd
    · cases hadd
      have hself : (HeaderEntry.make (ascii "Set-Cookie") text).isFor (ascii "Set-Cookie") = true := by
        rw [HeaderEntry.isFor_eq]
        exact eqlIgnoreCase_refl _
      unfold texts
      rw [List.filter_append, List.map_append]
      simp only [List.filter_cons, hself, if_true, List.filter_nil, List.map_cons, List.map_nil]
      rfl
    · cases hadd
  unfold keep
  rw [htexts, List.foldl_append, List.foldl_cons, List.foldl_nil, store, if_pos hname]

/-! ### What `serializeCookie` writes -/

/-- The attributes in front of `Max-Age`. -/
def scope (opts : CookieOpts) : Bytes :=
  (if opts.path.length ≠ 0 then ascii "; Path=" ++ opts.path else [])
    ++ (if opts.domain.length ≠ 0 then ascii "; Domain=" ++ opts.domain else [])

/-- The attributes behind `Max-Age`. -/
def flags (opts : CookieOpts) : Bytes :=
  (if opts.httpOnly then ascii "; HttpOnly" else [])
    ++ (if opts.secure then ascii "; Secure" else [])
    ++ (if opts.partitioned then ascii "; Partitioned" else [])
    ++ Cookie.sameSiteAttribute opts.sameSite

theorem maxAgeAttribute_ok {σ : Type} {maxAge : Option ℤ} {age : Bytes} {s s' : σ}
    (h : Cookie.maxAgeAttribute maxAge s = .ok age s') :
    s' = s ∧ (maxAge = none ∧ age = [] ∨ ∃ nanoseconds, maxAge = some nanoseconds ∧
      age = ascii "; Max-Age=" ++ Cookie.fmtInt (nanoseconds.tdiv 1000000000)) := by
  cases maxAge with
  | none =>
      cases h
      exact ⟨rfl, .inl ⟨rfl, rfl⟩⟩
  | some nanoseconds =>
      obtain ⟨_, s₁, hassert, h⟩ := Act.bind_eq_ok.mp h
      cases h
      rw [Act.assert_run] at hassert
      split at hassert
      · cases hassert
        exact ⟨rfl, .inr ⟨nanoseconds, rfl, rfl⟩⟩
      · cases hassert

theorem serializeCookie_ok {σ : Type} {cookieName raw text : Bytes} {opts : CookieOpts} {s s' : σ}
    (h : Cookie.serializeCookie cookieName raw opts s = .ok text s') :
    s' = s ∧ Cookie.validCookieName cookieName = true ∧ Cookie.validCookieValue raw = true ∧
      ∃ age, Cookie.maxAgeAttribute opts.maxAge s = .ok age s ∧
        text = cookieName ++ 61 :: (Cookie.quoted raw ++ (scope opts ++ (age ++ flags opts))) := by
  unfold Cookie.serializeCookie at h
  split at h
  · cases h
  · next hname =>
      split at h
      · cases h
      · next hvalue =>
          obtain ⟨age, s₁, hage, h⟩ := Act.bind_eq_ok.mp h
          cases h
          obtain rfl := (maxAgeAttribute_ok hage).1
          refine ⟨rfl, by simpa using hname, by simpa using hvalue, age, hage, ?_⟩
          simp only [scope, flags, List.append_assoc, List.cons_append, List.nil_append]

/-- Attributes follow, if anything does. -/
def Begins (bytes : Bytes) : Prop := bytes = [] ∨ ∃ more, bytes = 59 :: more

theorem Begins.append {bytes more : Bytes} (h : Begins bytes) (h' : Begins more) :
    Begins (bytes ++ more) := by
  rcases h with rfl | ⟨rest, rfl⟩
  · exact h'
  · exact .inr ⟨rest ++ more, rfl⟩

theorem Begins.of_ite {b : Prop} [Decidable b] {bytes : Bytes} (h : Begins bytes) :
    Begins (if b then bytes else []) := by
  split
  · exact h
  · exact .inl rfl

theorem scope_begins (opts : CookieOpts) : Begins (scope opts) :=
  (Begins.of_ite (.inr ⟨_, rfl⟩)).append (.of_ite (.inr ⟨_, rfl⟩))

theorem flags_begins (opts : CookieOpts) : Begins (flags opts) := by
  refine (((Begins.of_ite (.inr ⟨_, rfl⟩)).append (.of_ite (.inr ⟨_, rfl⟩))).append
    (.of_ite (.inr ⟨_, rfl⟩))).append ?_
  rcases opts.sameSite with _ | _ | _ | _
  · exact .inl rfl
  · exact .inr ⟨_, rfl⟩
  · exact .inr ⟨_, rfl⟩
  · exact .inr ⟨_, rfl⟩

theorem age_begins {σ : Type} {maxAge : Option ℤ} {age : Bytes} {s s' : σ}
    (h : Cookie.maxAgeAttribute maxAge s = .ok age s') : Begins age := by
  obtain ⟨-, ⟨-, rfl⟩ | ⟨nanoseconds, -, rfl⟩⟩ := maxAgeAttribute_ok h
  · exact .inl rfl
  · exact .inr ⟨_, rfl⟩

theorem flags_age (opts : CookieOpts) : (splitScalar (flags opts) 59).tail.filterMap maxAgeOf = [] := by
  unfold flags
  generalize opts.httpOnly = httpOnly, opts.secure = secure, opts.partitioned = partitioned,
    opts.sameSite = sameSite
  rcases sameSite with _ | _ | _ | _ <;> revert httpOnly secure partitioned <;> decide +kernel

theorem validCookieName_mem {cookieName : Bytes} (h : Cookie.validCookieName cookieName = true) :
    ∀ c ∈ cookieName, c ≠ 59 ∧ c ≠ 61 := by
  intro c hc
  unfold Cookie.validCookieName at h
  rw [Bool.and_eq_true, List.all_eq_true] at h
  have hbyte := h.2 c hc
  constructor
  · rintro rfl
    revert hbyte
    decide
  · rintro rfl
    revert hbyte
    decide

theorem quoted_mem {raw : Bytes} (h : Cookie.validCookieValue raw = true) :
    ∀ c ∈ Cookie.quoted raw, c ≠ 59 := by
  unfold Cookie.validCookieValue at h
  rw [List.all_eq_true] at h
  have hraw : ∀ c ∈ raw, c ≠ 59 := by
    rintro c hc rfl
    have hbyte := h 59 hc
    revert hbyte
    decide
  unfold Cookie.quoted
  split
  · intro c hc
    simp only [List.cons_append, List.mem_cons, List.mem_append, List.not_mem_nil, or_false] at hc
    rcases hc with rfl | hc | rfl
    · decide
    · exact hraw c hc
    · decide
  · exact hraw

theorem serializeCookie_first {σ : Type} {cookieName raw text : Bytes} {opts : CookieOpts} {s s' : σ}
    (h : Cookie.serializeCookie cookieName raw opts s = .ok text s') :
    text.takeWhile (· ≠ 59) = cookieName ++ 61 :: Cookie.quoted raw := by
  obtain ⟨-, hname, hvalue, age, hage, rfl⟩ := serializeCookie_ok h
  have hbegins : Begins (scope opts ++ (age ++ flags opts)) :=
    (scope_begins opts).append ((age_begins hage).append (flags_begins opts))
  have hmem : ∀ c ∈ cookieName ++ 61 :: Cookie.quoted raw, decide (c ≠ 59) = true := by
    intro c hc
    rcases List.mem_append.mp hc with hc | hc
    · exact decide_eq_true (validCookieName_mem hname c hc).1
    · rcases List.mem_cons.mp hc with rfl | hc
      · decide
      · exact decide_eq_true (quoted_mem hvalue c hc)
  rw [← List.cons_append, ← List.append_assoc, List.takeWhile_append_of_pos hmem]
  rcases hbegins with hnil | ⟨more, hcons⟩
  · rw [hnil, List.takeWhile_nil, List.append_nil]
  · rw [hcons, List.takeWhile_cons_of_neg (by decide), List.append_nil]

/-- **The pair is read as it was written.** -/
theorem serializeCookie_pair {σ : Type} {cookieName raw text : Bytes} {opts : CookieOpts} {s s' : σ}
    (h : Cookie.serializeCookie cookieName raw opts s = .ok text s') :
    name text = cookieName ∧ value text = Cookie.quoted raw := by
  obtain ⟨-, hname, -⟩ := serializeCookie_ok h
  have htoken : ∀ c ∈ cookieName, decide (c ≠ 61) = true :=
    fun c hc => decide_eq_true (validCookieName_mem hname c hc).2
  unfold name value
  rw [serializeCookie_first h, List.takeWhile_append_of_pos htoken, List.dropWhile_append_of_pos htoken]
  constructor
  · rw [List.takeWhile_cons_of_neg (by decide), List.append_nil]
  · rw [List.dropWhile_cons_of_neg (by decide), List.drop_one, List.tail_cons]

/-- A piece in front of what begins with a delimiter, if there is anything. -/
theorem splitScalar_begins {piece bytes : Bytes} (hpiece : 59 ∉ piece) (h : Begins bytes) :
    splitScalar (piece ++ bytes) 59 = piece :: (splitScalar bytes 59).tail := by
  rcases h with rfl | ⟨more, rfl⟩
  · rw [List.append_nil, splitScalar_of_notMem hpiece]
    rfl
  · rw [splitScalar_append, splitScalar_of_notMem hpiece, splitScalar_delimiter]
    rfl

theorem fmtInt_notMem (n : ℤ) : 59 ∉ Cookie.fmtInt n := by
  have hdigits : ∀ n : ℕ, 59 ∉ fmtNat 10 n := fun n hmem => absurd (fmtNat_digits n 59 hmem) (by decide)
  unfold Cookie.fmtInt
  split
  · exact fun hmem => (List.mem_cons.mp hmem).elim (by decide) (hdigits _)
  · exact hdigits _

theorem maxAgeOf_fmtInt (seconds : ℤ) :
    maxAgeOf (ascii " Max-Age=" ++ Cookie.fmtInt seconds) = some seconds.toNat := by
  have htrim : (ascii " Max-Age=" ++ Cookie.fmtInt seconds).dropWhile (· == 32) =
      ascii "Max-Age" ++ 61 :: Cookie.fmtInt seconds := rfl
  have hname : (ascii "Max-Age" ++ 61 :: Cookie.fmtInt seconds).takeWhile (· ≠ 61) = ascii "Max-Age" := rfl
  have hvalue : ((ascii "Max-Age" ++ 61 :: Cookie.fmtInt seconds).dropWhile (· ≠ 61)).drop 1 =
      Cookie.fmtInt seconds := rfl
  unfold maxAgeOf
  simp only [htrim, hname, hvalue, eqlIgnoreCase_refl, if_true]
  unfold Cookie.fmtInt
  by_cases hneg : seconds < 0
  · rw [if_pos hneg]
    simp only
    rw [Int.toNat_of_nonpos hneg.le]
  · rw [if_neg hneg]
    have habs : seconds.natAbs = seconds.toNat := by omega
    rw [habs]
    have hdigits := fmtNat_digits seconds.toNat
    have hread : readNat 10 (fmtNat 10 seconds.toNat) = some seconds.toNat :=
      readNat_fmtNat (by decide) (by decide) _
    generalize fmtNat 10 seconds.toNat = digits at hdigits hread
    split
    · exact absurd (hdigits 45 List.mem_cons_self) (by decide)
    · exact hread

/-- **The lifetime is read as it was meant**: none that is given is below zero. -/
theorem serializeCookie_lifetime {σ : Type} {cookieName raw text : Bytes} {opts : CookieOpts} {s s' : σ}
    {nanoseconds : ℤ} (hage : opts.maxAge = some nanoseconds)
    (h : Cookie.serializeCookie cookieName raw opts s = .ok text s') :
    lifetime text = some (nanoseconds.tdiv 1000000000).toNat := by
  obtain ⟨-, -, -, age, hattribute, rfl⟩ := serializeCookie_ok h
  obtain ⟨-, ⟨hnone, -⟩ | ⟨_, hsome, rfl⟩⟩ := maxAgeAttribute_ok hattribute
  · rw [hage] at hnone
    cases hnone
  rw [hage] at hsome
  cases hsome
  generalize nanoseconds.tdiv 1000000000 = seconds
  have hpiece : 59 ∉ ascii " Max-Age=" ++ Cookie.fmtInt seconds := fun hmem =>
    (List.mem_append.mp hmem).elim (by decide) (fmtInt_notMem seconds)
  have hsplit : splitScalar (cookieName ++ 61 :: (Cookie.quoted raw ++ (scope opts ++
      (ascii "; Max-Age=" ++ Cookie.fmtInt seconds ++ flags opts)))) 59 =
      splitScalar (cookieName ++ 61 :: (Cookie.quoted raw ++ scope opts)) 59 ++
        (ascii " Max-Age=" ++ Cookie.fmtInt seconds) :: (splitScalar (flags opts) 59).tail := by
    rw [← splitScalar_begins hpiece (flags_begins opts), ← splitScalar_append]
    simp only [List.append_assoc, List.cons_append]
    rfl
  obtain ⟨first, rest, hfirst⟩ := List.exists_cons_of_ne_nil
    (List.splitOn_ne_nil (59 : UInt8) (cookieName ++ 61 :: (Cookie.quoted raw ++ scope opts)))
  unfold lifetime
  rw [hsplit, splitScalar, hfirst, List.cons_append, List.tail_cons, List.filterMap_append,
    List.filterMap_cons_some (maxAgeOf_fmtInt seconds), flags_age, List.getLast?_concat]

end SetCookie

/-! ### What a client sends -/

/-- A pair has a value under a name if it is the name, a `=` and the value. -/
theorem Cookie.valueOf_iff {cookieName pair value : Bytes} :
    Cookie.valueOf cookieName pair = some value ↔ pair = cookieName ++ 61 :: value := by
  unfold Cookie.valueOf
  constructor
  · intro h
    split at h
    · cases h
    · split at h
      · cases h
      · next hstarts =>
          rw [Bool.not_eq_true', Bool.not_eq_false, List.isPrefixOf_iff_prefix] at hstarts
          obtain ⟨rest, rfl⟩ := hstarts
          rw [List.getElem?_append_right le_rfl, Nat.sub_self, ← List.drop_drop, List.drop_left] at h
          split at h
          · cases h
          · next hmark =>
              cases rest with
              | nil => exact absurd (by simp) hmark
              | cons c rest =>
                  cases h
                  rw [not_not] at hmark
                  rw [Option.some.inj hmark]
                  rfl
  · rintro rfl
    have hlength : ¬(cookieName ++ 61 :: value).length ≤ cookieName.length := by
      rw [List.length_append, List.length_cons]
      omega
    have hstarts : cookieName.isPrefixOf (cookieName ++ 61 :: value) = true :=
      List.isPrefixOf_iff_prefix.mpr (List.prefix_append _ _)
    rw [if_neg hlength, hstarts, List.getElem?_append_right le_rfl, Nat.sub_self, ← List.drop_drop,
      List.drop_left]
    rfl

/-- A pair of a `Cookie` field. -/
structure CookiePair where
  name : Bytes
  value : Bytes
  name_ok : ∀ c ∈ name, c ≠ 59 ∧ c ≠ 61 ∧ c ≠ 32
  value_ok : 59 ∉ value

namespace CookiePair

/-- The text of a pair. -/
def text (self : CookiePair) : Bytes := self.name ++ 61 :: self.value

/-- The field, as a client writes it. -/
def header (pairs : List CookiePair) : Bytes := (ascii "; ").intercalate (pairs.map text)

theorem text_notMem (self : CookiePair) : 59 ∉ self.text := by
  intro hmem
  rcases List.mem_append.mp hmem with hname | hvalue
  · exact (self.name_ok 59 hname).1 rfl
  · rcases List.mem_cons.mp hvalue with h | hvalue
    · cases h
    · exact self.value_ok hvalue

theorem dropWhile_text (self : CookiePair) : self.text.dropWhile (· == 32) = self.text := by
  unfold text
  cases hname : self.name with
  | nil => rfl
  | cons c name =>
      have hblank : (c == 32) = false :=
        beq_eq_false_iff_ne.mpr (self.name_ok c (hname ▸ List.mem_cons_self)).2.2
      rw [List.cons_append, List.dropWhile_cons_of_neg]
      rw [hblank]
      exact Bool.false_ne_true

theorem pairs_header : ∀ {pairs : List CookiePair}, pairs ≠ [] → Cookie.pairs (header pairs) = pairs.map text
  | [], hne => absurd rfl hne
  | [pair], _ => by
      unfold header Cookie.pairs
      rw [List.map_singleton, List.intercalate_singleton, splitScalar_of_notMem pair.text_notMem,
        List.map_singleton, dropWhile_text]
  | pair :: next :: rest, _ => by
      have hrest := @pairs_header (next :: rest) (List.cons_ne_nil _ _)
      have hheader : header (pair :: next :: rest) = pair.text ++ 59 :: 32 :: header (next :: rest) := by
        unfold header
        rw [List.map_cons, List.intercalate_cons_of_ne_nil (by simp), List.append_assoc]
        rfl
      obtain ⟨piece, pieces, hpieces, hblank⟩ := splitScalar_cons (show (32 : UInt8) ≠ 59 by decide)
        (header (next :: rest))
      unfold Cookie.pairs at hrest ⊢
      rw [hpieces, List.map_cons] at hrest
      rw [hheader, splitScalar_append, splitScalar_of_notMem pair.text_notMem, hblank, List.singleton_append,
        List.map_cons, List.map_cons, dropWhile_text, List.map_cons, ← hrest]
      rfl

theorem valueOf_text (self : CookiePair) {cookieName : Bytes} (hname : 61 ∉ cookieName) :
    Cookie.valueOf cookieName self.text = if self.name = cookieName then some self.value else none := by
  by_cases hsame : self.name = cookieName
  · rw [if_pos hsame, Cookie.valueOf_iff, ← hsame]
    rfl
  · rw [if_neg hsame, Option.eq_none_iff_forall_ne_some]
    intro value hvalue
    have hown : ∀ c ∈ self.name, decide (c ≠ 61) = true :=
      fun c hc => decide_eq_true (self.name_ok c hc).2.1
    have hother : ∀ c ∈ cookieName, decide (c ≠ 61) = true :=
      fun c hc => decide_eq_true fun h => hname (h ▸ hc)
    have htake := congrArg (List.takeWhile fun c => decide (c ≠ 61)) (Cookie.valueOf_iff.mp hvalue)
    unfold text at htake
    rw [List.takeWhile_append_of_pos hown, List.takeWhile_append_of_pos hother,
      List.takeWhile_cons_of_neg (by decide), List.takeWhile_cons_of_neg (by decide),
      List.append_nil, List.append_nil] at htake
    exact hsame htake

/-- **The first pair with a name is the one that is read.** -/
theorem get_header (pairs : List CookiePair) {cookieName : Bytes} (hname : 61 ∉ cookieName) :
    Cookie.get (header pairs) cookieName =
      (pairs.find? fun pair => decide (pair.name = cookieName)).map (·.value) := by
  by_cases hnil : pairs = []
  · subst hnil
    rfl
  unfold Cookie.get
  rw [pairs_header hnil]
  clear hnil
  induction pairs with
  | nil => rfl
  | cons pair rest ih =>
      rw [List.map_cons, List.findSome?_cons, valueOf_text pair hname, List.find?_cons]
      by_cases hsame : pair.name = cookieName
      · rw [if_pos hsame, decide_eq_true hsame]
        rfl
      · rw [if_neg hsame, decide_eq_false hsame]
        exact ih

end CookiePair
end Dusty
