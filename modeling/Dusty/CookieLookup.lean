import Dusty.CookieText
import Mathlib.Data.List.DropRight

/-! # Looking up a cookie

`Cookie.get` and `Cookie.iterator` walk the same pieces of a header, and trim them differently.  They agree
on a name exactly when the piece that `get` answers with ends with no blank, and the name is none that the
iterator cannot give: `get_eq_find_iff`.  Neither takes off the quotes that `serializeCookie` writes, so a
value comes back exactly when it needs none: `get_echoed_iff`. -/

namespace Dusty
namespace Cookie

/-! ### The iterator -/

/-- `Iterator.Entry`. -/
structure Entry where
  name : Bytes
  value : Bytes
deriving DecidableEq, Repr

/-- `std.mem.trim` of blanks. -/
def trim (pair : Bytes) : Bytes := (pair.dropWhile (· == 32)).rdropWhile (· == 32)

/-- The entry of a pair, unless there is no `=` or no name. -/
def entryOf (pair : Bytes) : Option Entry :=
  let trimmed := trim pair
  match indexOfScalar trimmed 61 with
  | none => none
  | some eq => if eq = 0 then none else some ⟨trimmed.take eq, trimmed.drop (eq + 1)⟩

/-- The pair that comes next, and the rest. -/
def cut (rest : Bytes) : Bytes × Bytes :=
  match indexOfScalar rest 59 with
  | some at_ => (rest.take at_, rest.drop (at_ + 1))
  | none => (rest, [])

theorem cut_length {rest : Bytes} (h : rest ≠ []) : (cut rest).2.length < rest.length := by
  have hpos := List.length_pos_iff.mpr h
  unfold cut
  split
  · rw [List.length_drop]
    omega
  · exact hpos

/-- `Iterator.next`: the entry, and what is left of the header. -/
def next (rest : Bytes) : Option (Entry × Bytes) :=
  if h : rest = [] then none
  else
    have := cut_length h
    match entryOf (cut rest).1 with
    | some entry => some (entry, (cut rest).2)
    | none => next (cut rest).2
termination_by rest.length

theorem next_length {rest rest' : Bytes} {entry : Entry} (h : next rest = some (entry, rest')) :
    rest'.length < rest.length := by
  fun_induction next rest with
  | case1 => cases h
  | case2 rest hne hlength entry' hentry =>
      cases h
      exact hlength
  | case3 rest hne hlength hentry ih => exact (ih h).trans hlength

/-- Whatever the iterator gives, of the rest of a header. -/
def entries (rest : Bytes) : List Entry :=
  match h : next rest with
  | none => []
  | some (entry, rest') =>
      have := next_length h
      entry :: entries rest'
termination_by rest.length

/-! ### What it gives -/

theorem indexOfScalar_notMem {s : Bytes} {b : UInt8} (h : b ∉ s) : indexOfScalar s b = none := by
  refine List.findIdx?_eq_none_iff.mpr fun c hc => beq_eq_false_iff_ne.mpr ?_
  rintro rfl
  exact h hc

theorem indexOfScalar_append {pre : Bytes} {b : UInt8} (h : b ∉ pre) (post : Bytes) :
    indexOfScalar (pre ++ b :: post) b = some pre.length := by
  have hnone : pre.findIdx? (· == b) = none := indexOfScalar_notMem h
  unfold indexOfScalar
  rw [List.findIdx?_append, hnone, List.findIdx?_cons, beq_self_eq_true]
  simp

theorem entryOf_iff {pair : Bytes} {entry : Entry} :
    entryOf pair = some entry ↔
      trim pair = entry.name ++ 61 :: entry.value ∧ 61 ∉ entry.name ∧ entry.name ≠ [] := by
  unfold entryOf
  simp only
  by_cases hmem : 61 ∈ trim pair
  · obtain ⟨pre, post, htrim, hpre⟩ := List.eq_append_cons_of_mem hmem
    rw [htrim, indexOfScalar_append hpre]
    simp only [List.take_left, ← List.drop_drop, List.drop_left, List.drop_one, List.tail_cons]
    constructor
    · intro h
      split at h
      · cases h
      · next hlength =>
          cases h
          exact ⟨rfl, hpre, fun hnil => hlength (List.length_eq_zero_iff.mpr hnil)⟩
    · rintro ⟨heq, hname, hne⟩
      have hfirst := congrArg (List.takeWhile fun c => decide (c ≠ 61)) heq
      have hkeep : ∀ c ∈ pre, decide (c ≠ 61) = true := by
        intro c hc
        refine decide_eq_true ?_
        rintro rfl
        exact hpre hc
      have hkeep' : ∀ c ∈ entry.name, decide (c ≠ 61) = true := by
        intro c hc
        refine decide_eq_true ?_
        rintro rfl
        exact hname hc
      rw [List.takeWhile_append_of_pos hkeep, List.takeWhile_append_of_pos hkeep',
        List.takeWhile_cons_of_neg (by decide), List.takeWhile_cons_of_neg (by decide), List.append_nil,
        List.append_nil] at hfirst
      subst hfirst
      rw [if_neg fun h => hne (List.length_eq_zero_iff.mp h), (List.cons.inj (List.append_cancel_left heq)).2]
  · rw [indexOfScalar_notMem hmem]
    refine iff_of_false (fun h => by cases h) ?_
    rintro ⟨heq, -⟩
    exact hmem (heq ▸ List.mem_append_right _ List.mem_cons_self)

/-- One step of the iterator is one piece of the header. -/
theorem filterMap_cut (rest : Bytes) :
    (splitScalar rest 59).filterMap entryOf =
      (entryOf (cut rest).1).toList ++ (splitScalar (cut rest).2 59).filterMap entryOf := by
  have hcons (pair : Bytes) (pieces : List Bytes) :
      (pair :: pieces).filterMap entryOf = (entryOf pair).toList ++ pieces.filterMap entryOf := by
    cases hentry : entryOf pair with
    | none => rw [List.filterMap_cons_none hentry]; rfl
    | some entry => rw [List.filterMap_cons_some hentry]; rfl
  unfold cut
  by_cases hmem : 59 ∈ rest
  · obtain ⟨pre, post, rfl, hpre⟩ := List.eq_append_cons_of_mem hmem
    rw [indexOfScalar_append hpre, splitScalar_append, splitScalar_of_notMem hpre, List.singleton_append,
      hcons]
    simp only [List.take_left, ← List.drop_drop, List.drop_left, List.drop_one, List.tail_cons]
  · rw [indexOfScalar_notMem hmem, splitScalar_of_notMem hmem, hcons]
    rfl

/-- The iterator skips the pieces that hold no entry. -/
theorem next_spec (rest : Bytes) :
    (splitScalar rest 59).filterMap entryOf = match next rest with
      | none => []
      | some (entry, rest') => entry :: (splitScalar rest' 59).filterMap entryOf := by
  fun_induction next rest with
  | case1 => rfl
  | case2 rest hne hlength entry hentry =>
      rw [filterMap_cut, hentry]
      rfl
  | case3 rest hne hlength hentry ih =>
      rw [filterMap_cut, hentry, ← ih]
      rfl

/-- **The iterator gives the entries of the pieces**, in order. -/
theorem entries_eq (header : Bytes) : entries header = (splitScalar header 59).filterMap entryOf := by
  fun_induction entries header with
  | case1 rest hnext =>
      rw [next_spec, hnext]
  | case2 rest entry rest' hnext hlength ih =>
      rw [next_spec rest, hnext, ih]

/-! ### Both of them -/

theorem rdropWhile_append_cons {p : UInt8 → Bool} {c : UInt8} (hc : ¬p c = true) (front back : Bytes) :
    (front ++ c :: back).rdropWhile p = front ++ c :: back.rdropWhile p := by
  induction back using List.reverseRecOn with
  | nil => rw [List.rdropWhile_concat_neg _ _ _ hc, List.rdropWhile_nil]
  | append_singleton back b ih =>
      rw [← List.cons_append, ← List.append_assoc, List.rdropWhile_concat, List.rdropWhile_concat, ih]
      split
      · rfl
      · rw [List.append_assoc, List.cons_append]

theorem rdropWhile_eq_iff (name value : Bytes) :
    value.rdropWhile (· == 32) = value ↔ (name ++ 61 :: value).getLast? ≠ some 32 := by
  rw [List.rdropWhile_eq_self_iff]
  cases value using List.reverseRecOn with
  | nil => simp
  | append_singleton value b =>
      rw [← List.cons_append, ← List.append_assoc, List.getLast?_concat]
      simp

/-- A pair that `get` answers with is an entry of the iterator, but for the blanks at its end, unless its
name is one that the iterator does not give. -/
theorem entryOf_of_valueOf {pair name value : Bytes} (h : pair.dropWhile (· == 32) = name ++ 61 :: value)
    (hname : 61 ∉ name) (hne : name ≠ []) :
    entryOf pair = some ⟨name, value.rdropWhile (· == 32)⟩ := by
  refine entryOf_iff.mpr ⟨?_, hname, hne⟩
  unfold trim
  rw [h, rdropWhile_append_cons (by decide)]

theorem valueOf_of_entryOf {pair : Bytes} {entry : Entry} (h : entryOf pair = some entry) :
    ∃ blanks, pair.dropWhile (· == 32) = entry.name ++ 61 :: (entry.value ++ blanks) := by
  obtain ⟨htrim, -, -⟩ := entryOf_iff.mp h
  unfold trim at htrim
  refine ⟨(pair.dropWhile (· == 32)).rtakeWhile (· == 32), ?_⟩
  have hsplit := List.rdropWhile_append_rtakeWhile (p := (· == 32)) (l := pair.dropWhile (· == 32))
  rw [htrim] at hsplit
  rw [← List.cons_append, ← List.append_assoc, hsplit]

/-- Where they look the same name up, they do it the same way. -/
def Agree (name trimmed : Bytes) : Prop := name ≠ [] ∧ 61 ∉ name ∧ trimmed.getLast? ≠ some 32

/-- **One after the other**, of any pieces. -/
theorem findSome_eq_find_iff (pieces : List Bytes) (name : Bytes) :
    (pieces.map (·.dropWhile (· == 32))).findSome? (valueOf name) =
        ((pieces.filterMap entryOf).find? fun entry => decide (entry.name = name)).map (·.value) ↔
      ∀ trimmed, (pieces.map (·.dropWhile (· == 32))).find? (fun t => (name ++ [61]).isPrefixOf t) =
        some trimmed → Agree name trimmed := by
  induction pieces with
  | nil => simp
  | cons pair rest ih =>
      rw [List.map_cons, List.findSome?_cons, List.find?_cons]
      by_cases hmatch : (name ++ [61]).isPrefixOf (pair.dropWhile (· == 32)) = true
      · obtain ⟨value, hvalue⟩ := List.isPrefixOf_iff_prefix.mp hmatch
        rw [List.append_assoc, List.singleton_append] at hvalue
        rw [valueOf_iff.mpr hvalue.symm, hmatch]
        simp only [Option.some.injEq, forall_eq']
        unfold Agree
        by_cases hgiven : name ≠ [] ∧ 61 ∉ name
        · obtain ⟨hne, hname⟩ := hgiven
          rw [List.filterMap_cons_some (entryOf_of_valueOf hvalue.symm hname hne), List.find?_cons,
            decide_eq_true rfl, Option.map_some, Option.some.injEq, eq_comm, ← hvalue,
            rdropWhile_eq_iff name value]
          simp [hne, hname]
        · refine iff_of_false ?_ fun h => hgiven ⟨h.1, h.2.1⟩
          intro hsome
          obtain ⟨entry, hfind, -⟩ := Option.map_eq_some_iff.mp hsome.symm
          have hentry : entry.name = name := by
            have hfound := List.find?_some hfind
            exact of_decide_eq_true hfound
          obtain ⟨piece, -, hpiece⟩ := List.mem_filterMap.mp (List.mem_of_find?_eq_some hfind)
          obtain ⟨-, hmark, hne⟩ := entryOf_iff.mp hpiece
          exact hgiven ⟨hentry ▸ hne, hentry ▸ hmark⟩
      · have hvalue : valueOf name (pair.dropWhile (· == 32)) = none := by
          rw [Option.eq_none_iff_forall_ne_some]
          intro value hvalue
          refine hmatch (List.isPrefixOf_iff_prefix.mpr ⟨value, ?_⟩)
          rw [valueOf_iff.mp hvalue, List.append_assoc, List.singleton_append]
        have hother : ((pair :: rest).filterMap entryOf).find? (fun entry => decide (entry.name = name)) =
            (rest.filterMap entryOf).find? fun entry => decide (entry.name = name) := by
          cases hentry : entryOf pair with
          | none => rw [List.filterMap_cons_none hentry]
          | some entry =>
              rw [List.filterMap_cons_some hentry, List.find?_cons_of_neg]
              intro hname
              obtain ⟨blanks, hpair⟩ := valueOf_of_entryOf hentry
              rw [of_decide_eq_true hname] at hpair
              refine hmatch (List.isPrefixOf_iff_prefix.mpr ⟨entry.value ++ blanks, ?_⟩)
              rw [hpair, List.append_assoc, List.singleton_append]
        rw [hvalue, hother, Bool.eq_false_of_not_eq_true hmatch]
        exact ih

/-- **`get` agrees with the iterator** exactly when the first piece, but for the blanks in front of it, that
begins with the name and a `=` ends with no blank, and the name is not empty and holds no `=`. -/
theorem get_eq_find_iff (header name : Bytes) :
    get header name = ((entries header).find? fun entry => decide (entry.name = name)).map (·.value) ↔
      ∀ trimmed, (pairs header).find? (fun t => (name ++ [61]).isPrefixOf t) = some trimmed →
        name ≠ [] ∧ 61 ∉ name ∧ trimmed.getLast? ≠ some 32 := by
  rw [entries_eq]
  exact findSome_eq_find_iff (splitScalar header 59) name

/-- Blanks at the end of a pair belong to the value for `get` only; and only it finds a name that is
empty. -/
theorem get_eq_find_not :
    get (ascii "a=1 ; b=2") (ascii "a") = some (ascii "1 ") ∧
      entries (ascii "a=1 ; b=2") = [⟨ascii "a", ascii "1"⟩, ⟨ascii "b", ascii "2"⟩] ∧
      get (ascii "=orphan") [] = some (ascii "orphan") ∧ entries (ascii "=orphan") = [] := by
  simp only [entries_eq]
  decide

/-! ### What a client echoes -/

/-- The header of a client that has stored a cookie, with others in front of it and behind it. -/
def echo (before : List CookiePair) (text : Bytes) (after : List CookiePair) : Bytes :=
  (ascii "; ").intercalate (before.map CookiePair.text ++ text.takeWhile (· ≠ 59) :: after.map CookiePair.text)

/-- **A value comes back** exactly when it needs no quotes. -/
theorem get_echoed_iff {σ : Type} {name value text : Bytes} {opts : CookieOpts} {s s' : σ}
    {before after : List CookiePair} (h : serializeCookie name value opts s = .ok text s')
    (hbefore : ∀ pair ∈ before, pair.name ≠ name) :
    get (echo before text after) name = some value ↔ 44 ∉ value ∧ 32 ∉ value := by
  obtain ⟨-, hname, hvalue, -⟩ := SetCookie.serializeCookie_ok h
  have hbytes (c : UInt8) (hc : c ∈ name) : c ≠ 59 ∧ c ≠ 61 ∧ c ≠ 32 :=
    ⟨(SetCookie.validCookieName_mem hname c hc).1, (SetCookie.validCookieName_mem hname c hc).2,
      ((SetCookie.validCookieName_bytes hname).2 c hc).1⟩
  let pair : CookiePair := ⟨name, quoted value, hbytes, fun hmem => SetCookie.quoted_mem hvalue 59 hmem rfl⟩
  have hpair : text.takeWhile (· ≠ 59) = pair.text := SetCookie.serializeCookie_first h
  have hecho : echo before text after = CookiePair.header (before ++ pair :: after) := by
    unfold echo CookiePair.header
    rw [hpair, List.map_append, List.map_cons]
  have hfind : (before ++ pair :: after).find? (fun other => decide (other.name = name)) = some pair := by
    rw [List.find?_append, List.find?_eq_none.mpr fun other hother => by simpa using hbefore other hother,
      List.find?_cons, decide_eq_true (show pair.name = name from rfl)]
    rfl
  rw [hecho, CookiePair.get_header _ fun hmem => (hbytes 61 hmem).2.1 rfl, hfind, Option.map_some,
    Option.some.injEq]
  exact quoted_eq_iff value

/-- A cookie of another name. -/
def themePair : CookiePair where
  name := ascii "theme"
  value := ascii "dark"
  name_ok := by decide
  value_ok := by decide

theorem get_echoed_sample :
    Act.gives (ascii "id=\"a,b\"; Secure")
        (serializeCookie (ascii "id") (ascii "a,b") { secure := true }) () = true ∧
      (get (echo [themePair] (ascii "id=\"a,b\"; Secure") []) (ascii "id") = some (ascii "a,b") ↔
        44 ∉ ascii "a,b" ∧ 32 ∉ ascii "a,b") := by
  have hgives : Act.gives (ascii "id=\"a,b\"; Secure")
      (serializeCookie (ascii "id") (ascii "a,b") { secure := true }) () = true := by decide +kernel
  obtain ⟨_, hrun⟩ := Act.gives_iff.mp hgives
  refine ⟨hgives, get_echoed_iff hrun fun pair hpair => ?_⟩
  rw [List.mem_singleton.mp hpair]
  decide

/-- The quotes come back with the value. -/
theorem get_echoed_not :
    Act.gives (ascii "id=\"a b\"") (serializeCookie (ascii "id") (ascii "a b") {}) () = true ∧
      echo [] (ascii "id=\"a b\"") [] = ascii "id=\"a b\"" ∧
      get (ascii "id=\"a b\"") (ascii "id") = some (ascii "\"a b\"") := by
  refine ⟨?_, ?_, ?_⟩ <;> decide +kernel

end Cookie
end Dusty
