import Dusty.CookieJar
import Dusty.Response

/-! # What a client reads in the text of a cookie

A client cuts the text of a `Set-Cookie` field at every `;`, and each piece at its first `=`.  It finds
the name, the value and the attributes that the options name, each once and none besides, exactly when the
value needs no quotes, which belong to it for the client, and neither the path nor the domain holds a `;` or
has blanks around it: `setCookie_attributes_iff`. -/

namespace Dusty

/-- Only a space or a comma in a value has it quoted. -/
theorem Cookie.quoted_eq_iff (value : Bytes) : Cookie.quoted value = value ↔ 44 ∉ value ∧ 32 ∉ value := by
  unfold Cookie.quoted
  split
  · next h =>
      refine iff_of_false (fun heq => ?_) ?_
      · have hlength := congrArg List.length heq
        rw [List.length_append, List.length_cons, List.length_singleton] at hlength
        omega
      · rintro ⟨hcomma, hblank⟩
        obtain ⟨c, hc, hmatch⟩ := List.any_eq_true.mp h
        rcases Bool.or_eq_true_iff.mp hmatch with heq | heq
        · exact hcomma (beq_iff_eq.mp heq ▸ hc)
        · exact hblank (beq_iff_eq.mp heq ▸ hc)
  · next h =>
      refine iff_of_true rfl ⟨fun hmem => h ?_, fun hmem => h ?_⟩
      · exact List.any_eq_true.mpr ⟨44, hmem, by decide⟩
      · exact List.any_eq_true.mpr ⟨32, hmem, by decide⟩

namespace SetCookie

/-! ### The reader -/

/-- The two sides of the first `=`, without the blanks around them. -/
def readPair (piece : Bytes) : Bytes × Bytes :=
  (trimBlanks (piece.takeWhile (· ≠ 61)), trimBlanks ((piece.dropWhile (· ≠ 61)).drop 1))

/-- What a client makes of the text. -/
structure Parsed where
  name : Bytes
  value : Bytes
  attributes : List (Bytes × Bytes)
deriving DecidableEq

/-- The first piece is the name and the value, with the quotes that may stand around it, and the others are
the attributes.  A text without a name is none. -/
def parse (text : Bytes) : Option Parsed :=
  match splitScalar text 59 with
  | [] => none
  | pair :: attributes =>
      if 61 ∉ pair ∨ (readPair pair).1 = [] then none
      else some ⟨(readPair pair).1, (readPair pair).2, attributes.map readPair⟩

/-! ### The attributes -/

/-- The attributes that the options name. -/
def attributes (opts : CookieOpts) : List (Bytes × Bytes) :=
  (if opts.path.length ≠ 0 then [(ascii "Path", opts.path)] else [])
    ++ (if opts.domain.length ≠ 0 then [(ascii "Domain", opts.domain)] else [])
    ++ (opts.maxAge.toList.map fun maxAge => (ascii "Max-Age", Cookie.fmtInt (maxAge.tdiv 1000000000)))
    ++ (if opts.httpOnly then [(ascii "HttpOnly", [])] else [])
    ++ (if opts.secure then [(ascii "Secure", [])] else [])
    ++ (if opts.partitioned then [(ascii "Partitioned", [])] else [])
    ++ (match opts.sameSite with
      | none => []
      | some .lax => [(ascii "SameSite", ascii "Lax")]
      | some .strict => [(ascii "SameSite", ascii "Strict")]
      | some .none => [(ascii "SameSite", ascii "None")])

/-- An attribute, behind its `;`. -/
def attributeText (a : Bytes × Bytes) : Bytes :=
  32 :: (a.1 ++ if a.2.length ≠ 0 then 61 :: a.2 else [])

/-- The attributes, each behind a `;`. -/
def attributesText (attributes : List (Bytes × Bytes)) : Bytes :=
  attributes.flatMap fun a => 59 :: attributeText a

theorem attributesText_append (as bs : List (Bytes × Bytes)) :
    attributesText (as ++ bs) = attributesText as ++ attributesText bs := List.flatMap_append

theorem attributesText_ite {b : Prop} [Decidable b] (a : Bytes × Bytes) :
    attributesText (if b then [a] else []) = if b then 59 :: attributeText a else [] := by
  split
  · exact List.append_nil _
  · rfl

/-- The names of attributes: short texts that the reader does not cut. -/
def Plain (attributeName : Bytes) : Prop :=
  59 ∉ attributeName ∧ 61 ∉ attributeName ∧ trimBlanks attributeName = attributeName

instance (attributeName : Bytes) : Decidable (Plain attributeName) := inferInstanceAs (Decidable (_ ∧ _))

/-- A text that is read as it was written. -/
def Whole (text : Bytes) : Prop := 59 ∉ text ∧ trimBlanks text = text

instance (text : Bytes) : Decidable (Whole text) := inferInstanceAs (Decidable (_ ∧ _))

theorem fmtInt_ne_nil (n : ℤ) : Cookie.fmtInt n ≠ [] := by
  unfold Cookie.fmtInt
  split
  · exact List.cons_ne_nil _ _
  · exact fmtNat_ne_nil _ _

theorem whole_fmtInt (n : ℤ) : Whole (Cookie.fmtInt n) := by
  refine ⟨fmtInt_notMem n, trimBlanks_of_forall fun c hc => ?_⟩
  have hdigit : ∀ n : ℕ, c ∈ fmtNat 10 n → c ≠ 32 ∧ c ≠ 9 := fun n => fmtNat_ne_blank n c
  unfold Cookie.fmtInt at hc
  split at hc
  · rcases List.mem_cons.mp hc with rfl | hc
    · decide
    · exact hdigit _ hc
  · exact hdigit _ hc

theorem of_mem_ite {b : Prop} [Decidable b] {P : Bytes × Bytes → Prop} {a c : Bytes × Bytes} (hc : P c)
    (ha : a ∈ if b then [c] else []) : P a := by
  split at ha
  · rw [List.mem_singleton.mp ha]
    exact hc
  · cases ha

theorem attributes_plain (opts : CookieOpts) : ∀ a ∈ attributes opts, Plain a.1 := by
  intro a ha
  unfold attributes at ha
  simp only [List.mem_append] at ha
  rcases ha with (((((ha | ha) | ha) | ha) | ha) | ha) | ha
  · exact of_mem_ite (P := fun a => Plain a.1) (show Plain (ascii "Path") by decide) ha
  · exact of_mem_ite (P := fun a => Plain a.1) (show Plain (ascii "Domain") by decide) ha
  · obtain ⟨maxAge, -, rfl⟩ := List.mem_map.mp ha
    exact (by decide : Plain (ascii "Max-Age"))
  · exact of_mem_ite (P := fun a => Plain a.1) (by decide) ha
  · exact of_mem_ite (P := fun a => Plain a.1) (by decide) ha
  · exact of_mem_ite (P := fun a => Plain a.1) (by decide) ha
  · split at ha
    · cases ha
    all_goals
      rw [List.mem_singleton.mp ha]
      decide

/-- Only a path and a domain are texts from outside. -/
theorem attributes_whole_iff (opts : CookieOpts) :
    (∀ a ∈ attributes opts, Whole a.2) ↔ Whole opts.path ∧ Whole opts.domain := by
  have hempty : Whole [] := by decide
  constructor
  · intro h
    unfold attributes at h
    simp only [List.mem_append, or_imp, forall_and] at h
    obtain ⟨⟨⟨⟨⟨⟨hpath, hdomain⟩, -⟩, -⟩, -⟩, -⟩, -⟩ := h
    constructor
    · by_cases hnil : opts.path.length ≠ 0
      · rw [if_pos hnil] at hpath
        exact hpath _ List.mem_cons_self
      · rw [List.length_eq_zero_iff.mp (not_not.mp hnil)]
        exact hempty
    · by_cases hnil : opts.domain.length ≠ 0
      · rw [if_pos hnil] at hdomain
        exact hdomain _ List.mem_cons_self
      · rw [List.length_eq_zero_iff.mp (not_not.mp hnil)]
        exact hempty
  · rintro ⟨hpath, hdomain⟩ a ha
    unfold attributes at ha
    simp only [List.mem_append] at ha
    rcases ha with (((((ha | ha) | ha) | ha) | ha) | ha) | ha
    · exact of_mem_ite (P := fun a => Whole a.2) hpath ha
    · exact of_mem_ite (P := fun a => Whole a.2) hdomain ha
    · obtain ⟨maxAge, -, rfl⟩ := List.mem_map.mp ha
      exact whole_fmtInt _
    · exact of_mem_ite (P := fun a => Whole a.2) hempty ha
    · exact of_mem_ite (P := fun a => Whole a.2) hempty ha
    · exact of_mem_ite (P := fun a => Whole a.2) hempty ha
    · split at ha
      · cases ha
      all_goals
        rw [List.mem_singleton.mp ha]
        decide

/-! ### What is written, and what is read of it -/

/-- **The text** is the name, the value and the attributes of the options. -/
theorem serializeCookie_text {σ : Type} {cookieName raw text : Bytes} {opts : CookieOpts} {s s' : σ}
    (h : Cookie.serializeCookie cookieName raw opts s = .ok text s') :
    text = cookieName ++ 61 :: Cookie.quoted raw ++ attributesText (attributes opts) := by
  obtain ⟨-, -, -, age, hage, rfl⟩ := serializeCookie_ok h
  have hscope : scope opts = attributesText
      ((if opts.path.length ≠ 0 then [(ascii "Path", opts.path)] else [])
        ++ (if opts.domain.length ≠ 0 then [(ascii "Domain", opts.domain)] else [])) := by
    rw [attributesText_append, attributesText_ite, attributesText_ite]
    unfold scope attributeText
    congr 1
    · split <;> rfl
    · split <;> rfl
  have hlifetime : age = attributesText
      (opts.maxAge.toList.map fun maxAge => (ascii "Max-Age", Cookie.fmtInt (maxAge.tdiv 1000000000))) := by
    obtain ⟨-, ⟨hnone, rfl⟩ | ⟨nanoseconds, hsome, rfl⟩⟩ := maxAgeAttribute_ok hage
    · rw [hnone]
      rfl
    · rw [hsome, Option.toList_some, List.map_singleton]
      unfold attributesText attributeText
      rw [List.flatMap_singleton, if_pos (by simpa using fmtInt_ne_nil _)]
      rfl
  have hflags : flags opts = attributesText
      ((if opts.httpOnly then [(ascii "HttpOnly", [])] else [])
        ++ (if opts.secure then [(ascii "Secure", [])] else [])
        ++ (if opts.partitioned then [(ascii "Partitioned", [])] else [])
        ++ (match opts.sameSite with
          | none => []
          | some .lax => [(ascii "SameSite", ascii "Lax")]
          | some .strict => [(ascii "SameSite", ascii "Strict")]
          | some .none => [(ascii "SameSite", ascii "None")])) := by
    simp only [attributesText_append, attributesText_ite]
    unfold flags
    rcases opts.sameSite with _ | _ | _ | _ <;> rfl
  rw [hscope, hlifetime, hflags]
  unfold attributes
  simp only [attributesText_append, List.append_assoc, List.cons_append]

/-- The pieces of the text are those of its attributes. -/
theorem splitScalar_attributesText (first : Bytes) (attributes : List (Bytes × Bytes)) :
    splitScalar (first ++ attributesText attributes) 59 =
      splitScalar first 59 ++ attributes.flatMap fun a => splitScalar (attributeText a) 59 := by
  induction attributes generalizing first with
  | nil =>
      rw [List.flatMap_nil, List.append_nil]
      exact congrArg (splitScalar · 59) (List.append_nil first)
  | cons a rest ih =>
      have htext : first ++ attributesText (a :: rest) =
          first ++ 59 :: (attributeText a ++ attributesText rest) := by
        unfold attributesText
        rw [List.flatMap_cons, List.cons_append]
      rw [htext, splitScalar_append, ih, List.flatMap_cons]

/-- An attribute that is one piece is read, but for the blanks around its value. -/
theorem readPair_attributeText {a : Bytes × Bytes} (h : Plain a.1) :
    readPair (attributeText a) = (a.1, trimBlanks a.2) := by
  obtain ⟨-, hmark, htrim⟩ := h
  have hkeep : ∀ c ∈ 32 :: a.1, decide (c ≠ 61) = true := by
    intro c hc
    rcases List.mem_cons.mp hc with rfl | hc
    · decide
    · exact decide_eq_true fun h => hmark (h ▸ hc)
  have htext : attributeText a = (32 :: a.1) ++ if a.2.length ≠ 0 then 61 :: a.2 else [] := rfl
  unfold readPair
  rw [htext, List.takeWhile_append_of_pos hkeep, List.dropWhile_append_of_pos hkeep]
  by_cases hnil : a.2.length ≠ 0
  · rw [if_pos hnil, List.takeWhile_cons_of_neg (by decide), List.dropWhile_cons_of_neg (by decide),
      List.append_nil, trimBlanks_blank, htrim, List.drop_one, List.tail_cons]
  · rw [if_neg hnil, List.takeWhile_nil, List.append_nil, trimBlanks_blank, htrim,
      List.length_eq_zero_iff.mp (not_not.mp hnil)]
    rfl

theorem attributeText_notMem {a : Bytes × Bytes} (h : Plain a.1) : 59 ∉ attributeText a ↔ 59 ∉ a.2 := by
  unfold attributeText
  by_cases hnil : a.2.length ≠ 0
  · rw [if_pos hnil]
    simp [h.1]
  · rw [if_neg hnil, List.length_eq_zero_iff.mp (not_not.mp hnil)]
    simp [h.1]

/-- There is a piece for each attribute, at the least. -/
theorem length_le_pieces (attributes : List (Bytes × Bytes)) :
    attributes.length ≤ (attributes.flatMap fun a => splitScalar (attributeText a) 59).length := by
  induction attributes with
  | nil => exact le_rfl
  | cons a rest ih =>
      rw [List.flatMap_cons, List.length_append, List.length_cons, length_splitScalar]
      omega

/-- **Attributes are read as they were written** exactly when their values are. -/
theorem map_readPair_iff {attributes : List (Bytes × Bytes)} (hplain : ∀ a ∈ attributes, Plain a.1) :
    (attributes.flatMap fun a => splitScalar (attributeText a) 59).map readPair = attributes ↔
      ∀ a ∈ attributes, Whole a.2 := by
  induction attributes with
  | nil => simp
  | cons a rest ih =>
      have ha := hplain a List.mem_cons_self
      have ih := ih fun a ha => hplain a (List.mem_cons_of_mem _ ha)
      rw [List.forall_mem_cons, ← ih, List.flatMap_cons, List.map_append]
      constructor
      · intro h
        have hlength := congrArg List.length h
        have hrest := length_le_pieces rest
        rw [List.length_append, List.length_map, List.length_map, length_splitScalar, List.length_cons]
          at hlength
        have hmem : 59 ∉ attributeText a := List.count_eq_zero.mp (by omega)
        rw [splitScalar_of_notMem hmem, List.map_singleton, readPair_attributeText ha, List.singleton_append,
          List.cons.injEq] at h
        exact ⟨⟨(attributeText_notMem ha).mp hmem, congrArg Prod.snd h.1⟩, h.2⟩
      · rintro ⟨⟨hmem, htrim⟩, h⟩
        rw [splitScalar_of_notMem ((attributeText_notMem ha).mpr hmem), List.map_singleton,
          readPair_attributeText ha, htrim, h]
        rfl

/-- The bytes of a name and of a value that are accepted. -/
theorem validCookieName_bytes {cookieName : Bytes} (h : Cookie.validCookieName cookieName = true) :
    cookieName ≠ [] ∧ ∀ c ∈ cookieName, c ≠ 32 ∧ c ≠ 9 := by
  unfold Cookie.validCookieName at h
  rw [Bool.and_eq_true, List.all_eq_true] at h
  refine ⟨bne_iff_ne.mp h.1, fun c hc => ?_⟩
  have hbyte := h.2 c hc
  constructor
  · rintro rfl
    revert hbyte
    decide
  · rintro rfl
    revert hbyte
    decide

theorem validCookieValue_bytes {raw : Bytes} (h : Cookie.validCookieValue raw = true) :
    ∀ c ∈ raw, c ≠ 9 := by
  unfold Cookie.validCookieValue at h
  rw [List.all_eq_true] at h
  rintro c hc rfl
  have hbyte := h 9 hc
  revert hbyte
  decide

theorem trimBlanks_quoted {raw : Bytes} (h : Cookie.validCookieValue raw = true) :
    trimBlanks (Cookie.quoted raw) = Cookie.quoted raw := by
  unfold Cookie.quoted
  split
  · refine trimBlanks_of_ends ?_ ?_
    · intro c hc
      cases hc
      decide
    · intro c hc
      rw [List.cons_append, ← List.cons_append, List.getLast?_concat] at hc
      cases hc
      decide
  · next hplain =>
      refine trimBlanks_of_forall fun c hc => ⟨?_, validCookieValue_bytes h c hc⟩
      rintro rfl
      exact hplain (List.any_eq_true.mpr ⟨32, hc, by decide⟩)

/-- What a client makes of the text that `serializeCookie` writes. -/
theorem parse_serializeCookie {σ : Type} {cookieName raw text : Bytes} {opts : CookieOpts} {s s' : σ}
    (h : Cookie.serializeCookie cookieName raw opts s = .ok text s') :
    parse text = some ⟨cookieName, Cookie.quoted raw,
      ((attributes opts).flatMap fun a => splitScalar (attributeText a) 59).map readPair⟩ := by
  obtain ⟨-, hname, hvalue, -⟩ := serializeCookie_ok h
  obtain ⟨hne, htoken⟩ := validCookieName_bytes hname
  have hpair : 59 ∉ cookieName ++ 61 :: Cookie.quoted raw := by
    intro hmem
    rcases List.mem_append.mp hmem with hmem | hmem
    · exact (validCookieName_mem hname 59 hmem).1 rfl
    · rcases List.mem_cons.mp hmem with hmem | hmem
      · cases hmem
      · exact quoted_mem hvalue 59 hmem rfl
  have hkeep : ∀ c ∈ cookieName, decide (c ≠ 61) = true :=
    fun c hc => decide_eq_true (validCookieName_mem hname c hc).2
  have hread : readPair (cookieName ++ 61 :: Cookie.quoted raw) = (cookieName, Cookie.quoted raw) := by
    unfold readPair
    rw [List.takeWhile_append_of_pos hkeep, List.dropWhile_append_of_pos hkeep,
      List.takeWhile_cons_of_neg (by decide), List.dropWhile_cons_of_neg (by decide), List.append_nil,
      List.drop_one, List.tail_cons, trimBlanks_of_forall htoken, trimBlanks_quoted hvalue]
  unfold parse
  rw [serializeCookie_text h, splitScalar_attributesText, splitScalar_of_notMem hpair,
    List.singleton_append]
  simp only
  rw [hread, if_neg (by simp [hne])]

/-! ### The room -/

/-- What `serializeCookie` reserves. -/
def estimatedLen (cookieName raw : Bytes) (opts : CookieOpts) : ℕ :=
  cookieName.length + raw.length + opts.path.length + opts.domain.length + 110

/-- What it appends without looking at the room. -/
def unchecked (cookieName raw : Bytes) (opts : CookieOpts) : Bytes :=
  cookieName ++ 61 :: (Cookie.quoted raw ++ scope opts)

theorem unchecked_fits (cookieName raw : Bytes) (opts : CookieOpts) :
    (unchecked cookieName raw opts).length ≤ estimatedLen cookieName raw opts := by
  have hquoted : (Cookie.quoted raw).length ≤ raw.length + 2 := by
    unfold Cookie.quoted
    split
    · rw [List.length_append, List.length_cons, List.length_singleton]
    · exact Nat.le_add_right _ _
  have hpath : (if opts.path.length ≠ 0 then ascii "; Path=" ++ opts.path else []).length ≤
      7 + opts.path.length := by
    split
    · rw [List.length_append]
      exact le_rfl
    · exact Nat.zero_le _
  have hdomain : (if opts.domain.length ≠ 0 then ascii "; Domain=" ++ opts.domain else []).length ≤
      9 + opts.domain.length := by
    split
    · rw [List.length_append]
      exact le_rfl
    · exact Nat.zero_le _
  unfold unchecked estimatedLen scope
  simp only [List.length_append, List.length_cons]
  omega

/-! ### The cookies of a response -/

theorem setCookie_ok {cookieName raw : Bytes} {opts : CookieOpts} {res res' : Response}
    (h : Response.setCookie cookieName raw opts res = .ok () res') :
    ∃ text, Cookie.serializeCookie cookieName raw opts res = .ok text res ∧
      res.headers.add (ascii "Set-Cookie") text = .ok res'.headers := by
  unfold Response.setCookie at h
  rw [Act.bind_ok (Act.get_run res)] at h
  split at h
  · cases h
  · obtain ⟨text, res₁, htext, h⟩ := Act.bind_eq_ok.mp h
    obtain rfl := (serializeCookie_ok htext).1
    refine ⟨text, htext, ?_⟩
    split at h
    · cases h
    · cases hadd : res₁.headers.add (ascii "Set-Cookie") text with
      | error e =>
          rw [hadd] at h
          cases h
      | ok headers =>
          rw [hadd] at h
          cases h
          rfl

/-- **A cookie is read as it was asked for**, with each of its attributes once and none besides, exactly when the
value needs no quotes and neither the path nor the domain holds a `;` or has blanks around it; and the room is
enough. -/
theorem setCookie_attributes_iff {cookieName raw : Bytes} {opts : CookieOpts} {res res' : Response}
    (h : Response.setCookie cookieName raw opts res = .ok () res') :
    ∃ text, Cookie.serializeCookie cookieName raw opts res = .ok text res ∧
      res.headers.add (ascii "Set-Cookie") text = .ok res'.headers ∧
      (unchecked cookieName raw opts).length ≤ estimatedLen cookieName raw opts ∧
      (parse text = some ⟨cookieName, raw, attributes opts⟩ ↔
        (44 ∉ raw ∧ 32 ∉ raw) ∧ (59 ∉ opts.path ∧ trimBlanks opts.path = opts.path) ∧
          59 ∉ opts.domain ∧ trimBlanks opts.domain = opts.domain) := by
  obtain ⟨text, htext, hadd⟩ := setCookie_ok h
  refine ⟨text, htext, hadd, unchecked_fits cookieName raw opts, ?_⟩
  have hattributes := (map_readPair_iff (attributes_plain opts)).trans (attributes_whole_iff opts)
  rw [parse_serializeCookie htext, ← Cookie.quoted_eq_iff, Option.some.injEq, Parsed.mk.injEq]
  constructor
  · rintro ⟨-, hvalue, hread⟩
    exact ⟨hvalue, hattributes.mp hread⟩
  · rintro ⟨hvalue, hwhole⟩
    exact ⟨rfl, hvalue, hattributes.mpr hwhole⟩

/-- One with a path, in a fresh response. -/
theorem setCookie_attributes_sample :
    ∃ res', Response.setCookie (ascii "id") (ascii "a1") { path := ascii "/app", secure := true }
        (.init {} 8) = .ok () res' ∧
      ∃ text, Cookie.serializeCookie (ascii "id") (ascii "a1") { path := ascii "/app", secure := true }
          (Response.init {} 8) = .ok text (Response.init {} 8) ∧
        (Response.init {} 8).headers.add (ascii "Set-Cookie") text = .ok res'.headers ∧
        (unchecked (ascii "id") (ascii "a1") { path := ascii "/app", secure := true }).length ≤
          estimatedLen (ascii "id") (ascii "a1") { path := ascii "/app", secure := true } ∧
        (parse text = some ⟨ascii "id", ascii "a1", attributes { path := ascii "/app", secure := true }⟩ ↔
          (44 ∉ ascii "a1" ∧ 32 ∉ ascii "a1") ∧ (59 ∉ ascii "/app" ∧ trimBlanks (ascii "/app") = ascii "/app") ∧
            59 ∉ ([] : Bytes) ∧ trimBlanks [] = []) := by
  have hreturns : Act.returns (Response.setCookie (ascii "id") (ascii "a1")
      { path := ascii "/app", secure := true }) (.init {} 8) = true := by decide +kernel
  obtain ⟨_, res', hrun⟩ := Act.returns_iff.mp hreturns
  exact ⟨res', hrun, setCookie_attributes_iff hrun⟩

/-- A path with a `;` in it is accepted, and what is behind that is an attribute that nobody asked for. -/
theorem setCookie_attributes_not :
    Act.returns (Response.setCookie (ascii "id") (ascii "1") { path := ascii "/;Domain=example.com" })
        (.init {} 8) = true ∧
      Act.yields (fun text _ => decide (parse text = some ⟨ascii "id", ascii "1",
          [(ascii "Path", ascii "/"), (ascii "Domain", ascii "example.com")]⟩) &&
        decide (parse text ≠ some ⟨ascii "id", ascii "1",
          attributes { path := ascii "/;Domain=example.com" }⟩))
        (Cookie.serializeCookie (ascii "id") (ascii "1") { path := ascii "/;Domain=example.com" })
        (Response.init {} 8) = true := by
  constructor <;> decide +kernel

end SetCookie
end Dusty
