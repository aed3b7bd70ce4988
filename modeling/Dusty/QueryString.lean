import Dusty.UrlEncoded

/-! # Query strings

`parseQueryString` is `collect` over the pieces that are not empty (`parsePairs_eq`): the room it
reserves, by counting the `&`, is enough for whatever the loop puts into the map. -/

namespace Dusty

open Act UrlEncoded

namespace Request

/-- The pieces that are looked at. -/
def fullPieces (queryString : Bytes) : List Bytes := (splitScalar queryString 38).filter (· ≠ [])

/-- How a run ends that collects into the query map. -/
def collected (req : Request) : Option Error × StringMap → EStateM.Result Fault Request Unit
  | (none, m) => .ok () (req.setQuery m)
  | (some e, m) => .error (.err e) (req.setQuery m)

/-- **The loop of `parseQueryString` collects**, if there is room for what it may put. -/
theorem parsePairs_eq (reserved : ℕ) (pieces : List Bytes) (req : Request)
    (hroom : min (req.query.count + (pieces.filter (· ≠ [])).length) req.config.maxQueryCount ≤ reserved) :
    parsePairs reserved pieces req = req.collected
      (collect req.config.maxQueryCount .tooManyQueryParams (pieces.filter (· ≠ [])) req.query) := by
  induction pieces generalizing req with
  | nil => rfl
  | cons piece rest ih =>
      rw [parsePairs]
      by_cases hempty : piece = []
      · subst hempty
        rw [if_pos (show ([] : Bytes).length = 0 from rfl)]
        exact ih req hroom
      · have hfilter := filter_full hempty rest
        rw [hfilter, List.length_cons] at hroom
        rw [if_neg (by simpa using hempty), bind_ok (get_run req), hfilter, collect]
        by_cases hfull : req.config.maxQueryCount ≤ req.query.count
        · rw [if_pos hfull, if_pos hfull]
          rfl
        · rw [if_neg hfull, if_neg hfull, bind_run, parsePair_eq]
          cases hfield : fieldOf piece with
          | none => rfl
          | some field =>
              have hput : putAssumeCapacity reserved req.query field.1 field.2 req =
                  .ok (req.query.insert field.1 field.2) req := by
                unfold putAssumeCapacity
                rw [if_pos (.inr (by omega))]
                rfl
              have hless : StringMap.count (req.query.insert field.1 field.2) +
                  (rest.filter (· ≠ [])).length ≤
                    req.query.count + ((rest.filter (· ≠ [])).length + 1) := by
                have hinsert := StringMap.count_insert_le req.query field.1 field.2
                omega
              have hrest := ih (req.setQuery (req.query.insert field.1 field.2))
                ((min_le_min hless le_rfl).trans hroom)
              simp only
              rw [bind_ok hput, bind_ok (modify_run _ _)]
              exact hrest

/-- `parseQueryString` collects, if there can be as much room as it asks for. -/
theorem parseQueryString_eq (queryString : Bytes) (req : Request)
    (hfits : min (queryString.count 38 + 1) req.config.maxQueryCount ≤ StringMap.maxReserved) :
    parseQueryString queryString (req.setQuery ∅) = req.collected
      (collect req.config.maxQueryCount .tooManyQueryParams (fullPieces queryString) ∅) := by
  unfold parseQueryString
  by_cases hempty : queryString = []
  · subst hempty
    rfl
  · have hroom : min ((req.setQuery ∅).query.count +
        ((splitScalar queryString 38).filter (· ≠ [])).length) (req.setQuery ∅).config.maxQueryCount ≤
          min (queryString.count 38 + 1) req.config.maxQueryCount := by
      have hlength := List.length_filter_le (· ≠ []) (splitScalar queryString 38)
      rw [length_splitScalar] at hlength
      have hzero : (req.setQuery ∅).query.count = 0 := rfl
      rw [hzero, Nat.zero_add]
      exact min_le_min hlength le_rfl
    have hassert : (Act.assert (decide (min (queryString.count 38 + 1)
        (req.setQuery ∅).config.maxQueryCount ≤ StringMap.maxReserved)) : Act Request Unit) (req.setQuery ∅) =
          .ok () (req.setQuery ∅) := assert_true (decide_eq_true hfits) _
    rw [if_neg (by simpa using hempty), bind_ok (get_run _), bind_ok hassert]
    exact parsePairs_eq _ _ _ hroom

/-- The map holds the fields of the pieces that are not empty, a later one over an earlier one, or the
run has stopped at the first piece for which there is no room below the limit, or whose escapes are
broken.  The map never has more keys than the limit. -/
def QueryExact (queryString : Bytes) (req : Request) : Prop :=
  (∃ fields, (fullPieces queryString).mapM fieldOf = some fields ∧
      StringMap.Room req.config.maxQueryCount ∅ fields ∧
      (StringMap.ofFields fields).count ≤ req.config.maxQueryCount ∧
      parseQueryString queryString (req.setQuery ∅) = .ok () (req.setQuery (.ofFields fields))) ∨
    ∃ pre piece post fields, fullPieces queryString = pre ++ piece :: post ∧
      pre.mapM fieldOf = some fields ∧ StringMap.Room req.config.maxQueryCount ∅ fields ∧
      (StringMap.ofFields fields).count ≤ req.config.maxQueryCount ∧
      ((StringMap.ofFields fields).count = req.config.maxQueryCount ∧
          parseQueryString queryString (req.setQuery ∅) =
            .error (.err .tooManyQueryParams) (req.setQuery (.ofFields fields)) ∨
        (StringMap.ofFields fields).count < req.config.maxQueryCount ∧ fieldOf piece = none ∧
          parseQueryString queryString (req.setQuery ∅) =
            .error (.err .invalidEscapeSequence) (req.setQuery (.ofFields fields)))

/-- **Query parsing is exact**, and never puts a key for which no room was reserved, if there can be as
much room as it asks for. -/
theorem parseQueryString_exact (queryString : Bytes) (req : Request)
    (hfits : min (queryString.count 38 + 1) req.config.maxQueryCount ≤ StringMap.maxReserved) :
    QueryExact queryString req := by
  unfold QueryExact
  rw [parseQueryString_eq queryString req hfits]
  rcases collect_cases req.config.maxQueryCount .tooManyQueryParams (fullPieces queryString) ∅ with
    ⟨fields, hfields, hroom, hend⟩ | ⟨pre, piece, post, fields, hpieces, hfields, hroom, hend⟩
  · exact .inl ⟨fields, hfields, hroom, hroom.count_le (Nat.zero_le _), by rw [hend]; rfl⟩
  · have hcount : (StringMap.ofFields fields).count ≤ req.config.maxQueryCount :=
      hroom.count_le (Nat.zero_le _)
    refine .inr ⟨pre, piece, post, fields, hpieces, hfields, hroom, hcount, ?_⟩
    rcases hend with ⟨hfull, hend⟩ | ⟨hless, hbroken, hend⟩
    · exact .inl ⟨hcount.antisymm hfull, by rw [hend]; rfl⟩
    · exact .inr ⟨hless, hbroken, by rw [hend]; rfl⟩

theorem parseQueryString_exact_sample :
    min ((ascii "a=1&&a=%32").count 38 + 1) 2 ≤ StringMap.maxReserved ∧
      QueryExact (ascii "a=1&&a=%32") { config := { maxQueryCount := 2 } } :=
  ⟨by decide, parseQueryString_exact (ascii "a=1&&a=%32") { config := { maxQueryCount := 2 } } (by decide)⟩

theorem parseQueryString_panics {queryString : Bytes} {req : Request} (hne : queryString.length ≠ 0)
    (hlarge : StringMap.maxReserved < min (queryString.count 38 + 1) req.config.maxQueryCount) :
    parseQueryString queryString req = .error (.panic .assertion) req := by
  have hassert : (Act.assert
      (decide (min (queryString.count 38 + 1) req.config.maxQueryCount ≤ StringMap.maxReserved)) :
        Act Request Unit) req = .error (.panic .assertion) req := by
    rw [assert_run, if_neg (by simpa using hlarge)]
  unfold parseQueryString
  rw [if_neg hne, bind_ok (get_run req), bind_error hassert]

/-- A query string of `&`, and a limit, one past what there can be room for. -/
theorem parseQueryString_panics_sample :
    parseQueryString (List.replicate 1717986918 38) { config := { maxQueryCount := 1717986919 } } =
      .error (.panic .assertion) { config := { maxQueryCount := 1717986919 } } := by
  refine parseQueryString_panics ?_ ?_
  · rw [List.length_replicate]
    norm_num
  · rw [List.count_replicate_self]
    norm_num [StringMap.maxReserved]

end Request
end Dusty
