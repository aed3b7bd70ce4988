import Dusty.Escapes

/-! # Fields of an URL-encoded text

A piece between two `&` is a field, and fields make a map in which a later one overrides an earlier
one.  `collect` takes the pieces one after the other, up to a limit on the number of names;
`collect_cases` is how that ends. -/

namespace Dusty

namespace StringMap

/-- The map with more fields. -/
def add (m : StringMap) (fields : List (Bytes × Bytes)) : StringMap :=
  fields.foldl (fun m field => m.insert field.1 field.2) m

/-- The map of fields. -/
def ofFields (fields : List (Bytes × Bytes)) : StringMap := add ∅ fields

/-- No field comes when there are as many names as there may be. -/
def Room (limit : ℕ) (m : StringMap) (fields : List (Bytes × Bytes)) : Prop :=
  ∀ i < fields.length, count (m.add (fields.take i)) < limit

theorem room_nil (limit : ℕ) (m : StringMap) : Room limit m [] := FieldMap.room_nil limit m

theorem room_cons {limit : ℕ} {m : StringMap} {field : Bytes × Bytes} {fields : List (Bytes × Bytes)} :
    Room limit m (field :: fields) ↔ m.count < limit ∧ Room limit (m.insert field.1 field.2) fields :=
  FieldMap.room_cons

/-- Names that come with room are within the limit. -/
theorem Room.count_le {limit : ℕ} {m : StringMap} {fields : List (Bytes × Bytes)}
    (h : Room limit m fields) (hm : m.count ≤ limit) : (m.add fields).count ≤ limit :=
  FieldMap.Room.card_le h hm

end StringMap

namespace UrlEncoded

open Request

/-- The name of a field: what is before the first `=`. -/
def nameText (piece : Bytes) : Bytes := piece.takeWhile (· ≠ 61)

/-- The value: what is behind it, if there is one. -/
def valueText (piece : Bytes) : Bytes := (piece.dropWhile (· ≠ 61)).drop 1

/-- A piece between two `&`; `none` if an escape is broken. -/
def fieldOf (piece : Bytes) : Option (Bytes × Bytes) := do
  let name ← percentDecode (nameText piece)
  let value ← percentDecode (valueText piece)
  some (name, value)

/-- One piece after the other. -/
def collect (limit : ℕ) (tooMany : Error) : List Bytes → StringMap → Option Error × StringMap
  | [], m => (none, m)
  | piece :: rest, m =>
      if limit ≤ m.count then (some tooMany, m)
      else match fieldOf piece with
        | none => (some .invalidEscapeSequence, m)
        | some field => collect limit tooMany rest (m.insert field.1 field.2)

/-- **How `collect` ends**: with all fields, or at a piece for which there is no room, or at a piece
with a broken escape. -/
theorem collect_cases (limit : ℕ) (tooMany : Error) (pieces : List Bytes) (m : StringMap) :
    (∃ fields, pieces.mapM fieldOf = some fields ∧ m.Room limit fields ∧
        collect limit tooMany pieces m = (none, m.add fields)) ∨
      ∃ pre piece post fields, pieces = pre ++ piece :: post ∧ pre.mapM fieldOf = some fields ∧
        m.Room limit fields ∧
        (limit ≤ (m.add fields).count ∧ collect limit tooMany pieces m = (some tooMany, m.add fields) ∨
          (m.add fields).count < limit ∧ fieldOf piece = none ∧
            collect limit tooMany pieces m = (some .invalidEscapeSequence, m.add fields)) := by
  induction pieces generalizing m with
  | nil => exact .inl ⟨[], rfl, StringMap.room_nil limit m, rfl⟩
  | cons piece rest ih =>
      rw [collect]
      by_cases hfull : limit ≤ m.count
      · rw [if_pos hfull]
        exact .inr ⟨[], piece, rest, [], rfl, rfl, StringMap.room_nil limit m, .inl ⟨hfull, rfl⟩⟩
      · rw [if_neg hfull]
        cases hfield : fieldOf piece with
        | none =>
            exact .inr ⟨[], piece, rest, [], rfl, rfl, StringMap.room_nil limit m,
              .inr ⟨Nat.lt_of_not_le hfull, hfield, rfl⟩⟩
        | some field =>
            rcases ih (m.insert field.1 field.2) with ⟨fields, hfields, hroom, hend⟩ |
                ⟨pre, broken, post, fields, hpieces, hfields, hroom, hend⟩
            · refine .inl ⟨field :: fields, ?_, ?_, hend⟩
              · rw [List.mapM_cons, hfield, hfields]
                rfl
              · exact StringMap.room_cons.mpr ⟨Nat.lt_of_not_le hfull, hroom⟩
            · refine .inr ⟨piece :: pre, broken, post, field :: fields, ?_, ?_, ?_, hend⟩
              · rw [hpieces, List.cons_append]
              · rw [List.mapM_cons, hfield, hfields]
                rfl
              · exact StringMap.room_cons.mpr ⟨Nat.lt_of_not_le hfull, hroom⟩

theorem mapM_cons_some {piece : Bytes} {rest : List Bytes} {fields : List (Bytes × Bytes)}
    (h : (piece :: rest).mapM fieldOf = some fields) :
    ∃ field later, fieldOf piece = some field ∧ rest.mapM fieldOf = some later ∧
      fields = field :: later := by
  rw [List.mapM_cons] at h
  obtain ⟨field, hfield, h⟩ := Option.bind_eq_some_iff.mp h
  obtain ⟨later, hlater, h⟩ := Option.bind_eq_some_iff.mp h
  exact ⟨field, later, hfield, hlater, (Option.some.inj h).symm⟩

/-- All pieces are taken if they are fields and come with room. -/
theorem collect_of_room {limit : ℕ} (tooMany : Error) {pieces : List Bytes} {m : StringMap}
    {fields : List (Bytes × Bytes)} (hfields : pieces.mapM fieldOf = some fields)
    (hroom : m.Room limit fields) : collect limit tooMany pieces m = (none, m.add fields) := by
  induction pieces generalizing m fields with
  | nil =>
      cases hfields
      rfl
  | cons piece rest ih =>
      obtain ⟨field, later, hfield, hlater, rfl⟩ := mapM_cons_some hfields
      obtain ⟨hfirst, hrest⟩ := StringMap.room_cons.mp hroom
      rw [collect, if_neg (Nat.not_le.mpr hfirst), hfield]
      exact ih hlater hrest

theorem collect_fst_eq_none {limit : ℕ} {tooMany : Error} {pieces : List Bytes} {m : StringMap} :
    (collect limit tooMany pieces m).1 = none ↔
      ∃ fields, pieces.mapM fieldOf = some fields ∧ m.Room limit fields := by
  constructor
  · intro hnone
    rcases collect_cases limit tooMany pieces m with ⟨fields, hfields, hroom, -⟩ |
        ⟨pre, piece, post, fields, -, -, -, ⟨-, hend⟩ | ⟨-, -, hend⟩⟩
    · exact ⟨fields, hfields, hroom⟩
    · rw [hend] at hnone
      cases hnone
    · rw [hend] at hnone
      cases hnone
  · rintro ⟨fields, hfields, hroom⟩
    rw [collect_of_room tooMany hfields hroom]

/-! ### Empty pieces -/

/-- An empty piece is a field without a name or a value. -/
theorem fieldOf_nil : fieldOf [] = some ([], []) := rfl

theorem filter_full {piece : Bytes} (h : piece ≠ []) (rest : List Bytes) :
    (piece :: rest).filter (· ≠ []) = piece :: rest.filter (· ≠ []) :=
  List.filter_cons_of_pos (decide_eq_true h)

/-- Without the empty pieces there are the fields of the others. -/
theorem mapM_full {pieces : List Bytes} :
    pieces.mapM fieldOf = none ↔ (pieces.filter (· ≠ [])).mapM fieldOf = none := by
  induction pieces with
  | nil => simp
  | cons piece rest ih =>
      by_cases hempty : piece = []
      · subst hempty
        rw [List.filter_cons_of_neg (by simp), ← ih, List.mapM_cons, fieldOf_nil]
        cases rest.mapM fieldOf <;> simp
      · rw [filter_full hempty, List.mapM_cons, List.mapM_cons]
        cases fieldOf piece with
        | none => exact iff_of_true rfl rfl
        | some field =>
            cases hrest : rest.mapM fieldOf with
            | none => rw [ih.mp hrest]
            | some fields =>
                cases hfull : (rest.filter (· ≠ [])).mapM fieldOf with
                | none => rw [ih.mpr hfull] at hrest; cases hrest
                | some full => simp

/-- The fields of the pieces with and without the empty ones. -/
inductive Thinned : List (Bytes × Bytes) → List (Bytes × Bytes) → Prop
  | nil : Thinned [] []
  | empty {fields full : List (Bytes × Bytes)} (h : Thinned fields full) :
      Thinned (([], []) :: fields) full
  | cons (field : Bytes × Bytes) {fields full : List (Bytes × Bytes)} (h : Thinned fields full) :
      Thinned (field :: fields) (field :: full)

theorem thinned_fields {pieces : List Bytes} {fields full : List (Bytes × Bytes)}
    (hfields : pieces.mapM fieldOf = some fields)
    (hfull : (pieces.filter (· ≠ [])).mapM fieldOf = some full) : Thinned fields full := by
  induction pieces generalizing fields full with
  | nil =>
      cases hfields
      cases hfull
      exact .nil
  | cons piece rest ih =>
      obtain ⟨field, later, hfield, hlater, rfl⟩ := mapM_cons_some hfields
      by_cases hempty : piece = []
      · subst hempty
        rw [List.filter_cons_of_neg (by simp)] at hfull
        cases hfield
        exact .empty (ih hlater hfull)
      · rw [filter_full hempty] at hfull
        obtain ⟨field', more, hfield', hmore, rfl⟩ := mapM_cons_some hfull
        rw [hfield] at hfield'
        cases hfield'
        exact .cons field (ih hlater hmore)

theorem Thinned.room {limit : ℕ} {fields full : List (Bytes × Bytes)} (h : Thinned fields full)
    {m m' : StringMap} (hkeys : m'.keys ⊆ m.keys) (hroom : m.Room limit fields) :
    m'.Room limit full := by
  induction h generalizing m m' with
  | nil => exact StringMap.room_nil limit m'
  | empty h ih =>
      refine ih (hkeys.trans ?_) (StringMap.room_cons.mp hroom).2
      rw [StringMap.keys_insert]
      exact Finset.subset_insert _ _
  | cons field h ih =>
      obtain ⟨hfirst, hrest⟩ := StringMap.room_cons.mp hroom
      refine StringMap.room_cons.mpr ⟨(Finset.card_le_card hkeys).trans_lt hfirst, ih ?_ hrest⟩
      rw [StringMap.keys_insert, StringMap.keys_insert]
      exact Finset.insert_subset_insert _ hkeys

/-- The empty pieces say nothing about another name. -/
theorem Thinned.lookup {fields full : List (Bytes × Bytes)} (h : Thinned fields full)
    {m m' : StringMap} {name : Bytes} (hname : name ≠ []) (hsame : m.lookup name = m'.lookup name) :
    (m.add fields).lookup name = (m'.add full).lookup name := by
  induction h generalizing m m' with
  | nil => exact hsame
  | empty h ih => exact ih (by rw [Finmap.lookup_insert_of_ne _ hname, hsame])
  | cons field h ih =>
      refine ih ?_
      by_cases hfield : name = field.1
      · subst hfield
        rw [Finmap.lookup_insert, Finmap.lookup_insert]
      · rw [Finmap.lookup_insert_of_ne _ hfield, Finmap.lookup_insert_of_ne _ hfield, hsame]

/-- The last field with a name is the one in the map. -/
theorem lookup_ofFields (fields : List (Bytes × Bytes)) (name : Bytes) :
    (StringMap.ofFields fields).lookup name = fields.reverse.lookup name :=
  (FieldMap.lookup_add ∅ fields name).trans (by rw [Finmap.lookup_empty, Option.or_none])

/-- **The maps are one** if the last word on the empty name is the same. -/
theorem Thinned.ofFields_eq {fields full : List (Bytes × Bytes)} (h : Thinned fields full) :
    StringMap.ofFields fields = .ofFields full ↔
      fields.reverse.lookup ([] : Bytes) = full.reverse.lookup [] := by
  rw [← lookup_ofFields, ← lookup_ofFields]
  constructor
  · intro heq
    rw [heq]
  · intro hempty
    refine Finmap.ext_lookup fun name => ?_
    by_cases hname : name = []
    · subst hname
      exact hempty
    · exact h.lookup hname rfl

theorem cut_piece (piece : Bytes) :
    match indexOfScalar piece 61 with
    | some sep => nameText piece = piece.take sep ∧ valueText piece = piece.drop (sep + 1)
    | none => nameText piece = piece ∧ valueText piece = [] := by
  unfold indexOfScalar nameText valueText
  induction piece with
  | nil => exact ⟨rfl, rfl⟩
  | cons b piece ih =>
      rw [List.findIdx?_cons]
      by_cases hb : b = 61
      · subst hb
        exact ⟨rfl, rfl⟩
      · have hne : (b == 61) = false := by simpa using hb
        rw [hne, List.takeWhile_cons_of_pos (by simpa using hb),
          List.dropWhile_cons_of_pos (by simpa using hb)]
        cases hi : piece.findIdx? (· == 61) with
        | none =>
            rw [hi] at ih
            exact ⟨congrArg _ ih.1, ih.2⟩
        | some i =>
            rw [hi] at ih
            exact ⟨congrArg _ ih.1, ih.2⟩

theorem parsePair_eq (piece : Bytes) (req : Request) :
    parsePair piece req = match fieldOf piece with
      | some field => .ok field req
      | none => .error (.err .invalidEscapeSequence) req := by
  have hcut := cut_piece piece
  unfold parsePair fieldOf
  cases hsep : indexOfScalar piece 61 with
  | none =>
      rw [hsep] at hcut
      rw [hcut.1, hcut.2, show percentDecode [] = some [] from rfl]
      simp only [Act.bind_run, urlUnescape_eq]
      cases percentDecode piece <;> rfl
  | some sep =>
      rw [hsep] at hcut
      rw [hcut.1, hcut.2]
      simp only [Act.bind_run, urlUnescape_eq]
      cases percentDecode (piece.take sep) with
      | none => rfl
      | some name => cases percentDecode (piece.drop (sep + 1)) <;> rfl

end UrlEncoded
end Dusty
