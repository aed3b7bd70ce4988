import Dusty.Request

/-! # Percent escapes

What a text with escapes stands for is a relation (`Escaped`) and a function (`percentDecode`).
`urlUnescape` computes the function in two passes, of which the first counts what the second fills:
the two stay in step on every text without a broken escape (`urlUnescape_escaped`). -/

namespace Dusty
namespace Request

/-! ### What a text stands for -/

/-- Each byte is written as itself, as its two digits in base 16, or as `+` for a space. -/
inductive Escaped : Bytes → Bytes → Prop
  | nil : Escaped [] []
  | literal {b : UInt8} {text s : Bytes} (hpercent : b ≠ 37) (hplus : b ≠ 43)
      (h : Escaped text s) : Escaped (b :: text) (b :: s)
  | escape {b hi lo : UInt8} {text s : Bytes} (hhi : charToDigit 16 hi = some (b.toNat / 16))
      (hlo : charToDigit 16 lo = some (b.toNat % 16)) (h : Escaped text s) :
      Escaped (37 :: hi :: lo :: text) (b :: s)
  | plus {text s : Bytes} (h : Escaped text s) : Escaped (43 :: text) (32 :: s)

/-- Two digits in base 16 come first. -/
def startsWithHex : Bytes → Bool
  | hi :: lo :: _ => isHex hi && isHex lo
  | _ => false

/-- There is a `%` that two digits do not follow. -/
def BrokenEscape (text : Bytes) : Prop :=
  ∃ pre post, text = pre ++ 37 :: post ∧ startsWithHex post = false

/-- The text that is written; `none` if an escape is broken. -/
def percentDecode : Bytes → Option Bytes
  | [] => some []
  | 37 :: hi :: lo :: rest =>
      if isHex hi && isHex lo then
        (percentDecode rest).map ((decodeHex hi <<< 4 ||| decodeHex lo) :: ·)
      else none
  | 37 :: _ => none
  | 43 :: rest => (percentDecode rest).map (32 :: ·)
  | b :: rest => (percentDecode rest).map (b :: ·)

theorem isHex_iff (c : UInt8) :
    (isHex c = true ↔ (charToDigit 16 c).isSome = true) ∧
      ∀ d, charToDigit 16 c = some d → decodeHex c = d.toUInt8 ∧ d < 16 := by
  have hall : ∀ n < 256, (isHex (UInt8.ofNat n) = true ↔
      (charToDigit 16 (UInt8.ofNat n)).isSome = true) ∧
      ∀ d ∈ charToDigit 16 (UInt8.ofNat n), decodeHex (UInt8.ofNat n) = d.toUInt8 ∧ d < 16 := by
    decide +kernel
  have hc := hall c.toNat c.toNat_lt
  rw [UInt8.ofNat_toNat] at hc
  exact hc

theorem decodeHex_byte {b hi lo : UInt8} (hhi : charToDigit 16 hi = some (b.toNat / 16))
    (hlo : charToDigit 16 lo = some (b.toNat % 16)) : decodeHex hi <<< 4 ||| decodeHex lo = b := by
  have hall : ∀ n < 256, ((n / 16).toUInt8 <<< (4 : UInt8) ||| (n % 16).toUInt8) =
      UInt8.ofNat n := by
    decide +kernel
  rw [((isHex_iff hi).2 _ hhi).1, ((isHex_iff lo).2 _ hlo).1, hall b.toNat b.toNat_lt,
    UInt8.ofNat_toNat]

theorem exists_byte {hi lo : UInt8} (hhi : isHex hi = true) (hlo : isHex lo = true) :
    ∃ b : UInt8, charToDigit 16 hi = some (b.toNat / 16) ∧ charToDigit 16 lo = some (b.toNat % 16) := by
  obtain ⟨h, hh⟩ := Option.isSome_iff_exists.mp ((isHex_iff hi).1.mp hhi)
  obtain ⟨l, hl⟩ := Option.isSome_iff_exists.mp ((isHex_iff lo).1.mp hlo)
  have hh16 := ((isHex_iff hi).2 h hh).2
  have hl16 := ((isHex_iff lo).2 l hl).2
  have hbyte : (UInt8.ofNat (16 * h + l)).toNat = 16 * h + l := by
    rw [UInt8.toNat_ofNat']
    omega
  refine ⟨UInt8.ofNat (16 * h + l), ?_, ?_⟩
  · rw [hh, hbyte]
    congr 1
    omega
  · rw [hl, hbyte]
    congr 1
    omega

theorem percentDecode_escaped {text s : Bytes} (h : Escaped text s) : percentDecode text = some s := by
  induction h with
  | nil => rfl
  | literal hpercent hplus _ ih =>
      rw [percentDecode, ih]
      · rfl
      · rintro hi lo rest rfl
        exact absurd rfl hpercent
      · exact hpercent
      · exact hplus
  | escape hhi hlo _ ih =>
      have hhex : (isHex _ && isHex _) = true :=
        Bool.and_eq_true_iff.mpr ⟨(isHex_iff _).1.mpr (Option.isSome_of_eq_some hhi),
          (isHex_iff _).1.mpr (Option.isSome_of_eq_some hlo)⟩
      rw [percentDecode, if_pos hhex, ih, decodeHex_byte hhi hlo]
      rfl
  | plus _ ih =>
      rw [percentDecode, ih]
      rfl

theorem escaped_of_percentDecode {text s : Bytes} (h : percentDecode text = some s) :
    Escaped text s := by
  fun_induction percentDecode text generalizing s with
  | case1 =>
      cases h
      exact .nil
  | case2 hi lo rest hhex ih =>
      rw [Bool.and_eq_true] at hhex
      obtain ⟨t, ht, rfl⟩ := Option.map_eq_some_iff.mp h
      obtain ⟨b, hhi, hlo⟩ := exists_byte hhex.1 hhex.2
      rw [decodeHex_byte hhi hlo]
      exact .escape hhi hlo (ih ht)
  | case3 hi lo rest hhex => cases h
  | case4 rest hrest => cases h
  | case5 rest ih =>
      obtain ⟨t, ht, rfl⟩ := Option.map_eq_some_iff.mp h
      exact .plus (ih ht)
  | case6 b rest hescape hpercent hplus ih =>
      obtain ⟨t, ht, rfl⟩ := Option.map_eq_some_iff.mp h
      exact .literal hpercent hplus (ih ht)

/-! ### Broken escapes -/

theorem brokenEscape_cons {b : UInt8} (text : Bytes) (h : b ≠ 37) :
    BrokenEscape (b :: text) ↔ BrokenEscape text := by
  constructor
  · rintro ⟨pre, post, heq, hpost⟩
    cases pre with
    | nil => exact absurd (List.cons.inj heq).1 h
    | cons c pre => exact ⟨pre, post, (List.cons.inj heq).2, hpost⟩
  · rintro ⟨pre, post, rfl, hpost⟩
    exact ⟨b :: pre, post, rfl, hpost⟩

theorem isHex_ne_percent {c : UInt8} (h : isHex c = true) : c ≠ 37 := by
  rintro rfl
  exact absurd h (by decide)

/-- **A text can be read unless it has a broken escape.** -/
theorem percentDecode_eq_none {text : Bytes} : percentDecode text = none ↔ BrokenEscape text := by
  fun_induction percentDecode text with
  | case1 => simp [BrokenEscape]
  | case2 hi lo rest hhex ih =>
      have hboth := Bool.and_eq_true_iff.mp hhex
      rw [Option.map_eq_none_iff, ih, ← brokenEscape_cons rest (isHex_ne_percent hboth.2),
        ← brokenEscape_cons (lo :: rest) (isHex_ne_percent hboth.1)]
      constructor
      · rintro ⟨pre, post, heq, hpost⟩
        exact ⟨37 :: pre, post, congrArg _ heq, hpost⟩
      · rintro ⟨pre, post, heq, hpost⟩
        cases pre with
        | nil =>
            obtain rfl := (List.cons.inj heq).2
            rw [startsWithHex, hhex] at hpost
            cases hpost
        | cons c pre => exact ⟨pre, post, (List.cons.inj heq).2, hpost⟩
  | case3 hi lo rest hhex =>
      exact iff_of_true rfl ⟨[], hi :: lo :: rest, rfl, Bool.eq_false_iff.mpr hhex⟩
  | case4 rest hrest =>
      refine iff_of_true rfl ⟨[], rest, rfl, ?_⟩
      unfold startsWithHex
      split
      · next hi lo rest' => exact absurd rfl (hrest hi lo rest')
      · rfl
  | case5 rest ih => rw [Option.map_eq_none_iff, ih, brokenEscape_cons rest (by decide)]
  | case6 b rest hescape hpercent hplus ih =>
      rw [Option.map_eq_none_iff, ih, brokenEscape_cons rest hpercent]

/-! ### The two passes -/

theorem length_escaped {text s : Bytes} (h : Escaped text s) : s.length ≤ text.length := by
  induction h with
  | nil => exact le_rfl
  | literal _ _ _ ih => exact Nat.succ_le_succ ih
  | escape _ _ _ ih =>
      simp only [List.length_cons]
      omega
  | plus _ ih => exact Nat.succ_le_succ ih

/-- The first pass counts what is written, and where nothing is to be changed it is the text. -/
theorem measureEscapes_escaped {text s : Bytes} (h : Escaped text s) :
    ∃ hasPlus, measureEscapes text = some (hasPlus, s.length) ∧
      (s.length = text.length → hasPlus = false → s = text) := by
  induction h with
  | nil => exact ⟨false, rfl, fun _ _ => rfl⟩
  | @literal b text s hpercent hplus _ ih =>
      obtain ⟨hasPlus, hmeasure, hsame⟩ := ih
      refine ⟨hasPlus, ?_, fun hlength hno => congrArg _ (hsame (Nat.succ.inj hlength) hno)⟩
      rw [measureEscapes, hmeasure]
      · rfl
      · rintro hi lo rest rfl
        exact absurd rfl hpercent
      · exact hpercent
      · exact hplus
  | @escape b hi lo text s hhi hlo h ih =>
      obtain ⟨hasPlus, hmeasure, -⟩ := ih
      have hhex : (isHex hi && isHex lo) = true :=
        Bool.and_eq_true_iff.mpr ⟨(isHex_iff _).1.mpr (Option.isSome_of_eq_some hhi),
          (isHex_iff _).1.mpr (Option.isSome_of_eq_some hlo)⟩
      refine ⟨hasPlus, by rw [measureEscapes, if_pos hhex, hmeasure]; rfl, fun hlength _ => ?_⟩
      have hle := length_escaped h
      simp only [List.length_cons] at hlength
      omega
  | plus _ ih =>
      obtain ⟨hasPlus, hmeasure, -⟩ := ih
      exact ⟨true, by rw [measureEscapes, hmeasure]; rfl, fun _ hno => by cases hno⟩

/-- The first pass fails where an escape is broken. -/
theorem measureEscapes_broken {text : Bytes} (h : percentDecode text = none) :
    measureEscapes text = none := by
  fun_induction percentDecode text with
  | case1 => cases h
  | case2 hi lo rest hhex ih =>
      rw [measureEscapes, if_pos hhex, ih (Option.map_eq_none_iff.mp h)]
      rfl
  | case3 hi lo rest hhex => rw [measureEscapes, if_neg hhex]
  | case4 rest hrest => rw [measureEscapes]; exact hrest
  | case5 rest ih =>
      rw [measureEscapes, ih (Option.map_eq_none_iff.mp h)]
      rfl
  | case6 b rest hescape hpercent hplus ih =>
      rw [measureEscapes, ih (Option.map_eq_none_iff.mp h)]
      · rfl
      · exact hescape
      · exact hpercent
      · exact hplus

/-- The second pass by its index: the output, and where the index ends.  `none` is an index past
the end. -/
def fillFrom (input : Bytes) : ℕ → ℕ → Option (Bytes × ℕ)
  | 0, inI => some ([], inI)
  | n + 1, inI =>
      match input[inI]? with
      | none => none
      | some b =>
          if b = 37 then
            match input[inI + 1]?, input[inI + 2]? with
            | some hi, some lo =>
                (fillFrom input n (inI + 3)).map fun (out, stop) =>
                  ((decodeHex hi <<< 4 ||| decodeHex lo) :: out, stop)
            | _, _ => none
          else if b = 43 then (fillFrom input n (inI + 1)).map fun (out, stop) => (32 :: out, stop)
          else (fillFrom input n (inI + 1)).map fun (out, stop) => (b :: out, stop)

/-- The index stands for what is left of the input. -/
theorem fillFrom_eq (input : Bytes) (n inI : ℕ) :
    (fillFrom input n inI).map (·.1) = fillUnescaped n (input.drop inI) := by
  induction n generalizing inI with
  | zero => rfl
  | succ n ih =>
      have hget (k : ℕ) : input[inI + k]? = (input.drop inI)[k]? := by rw [List.getElem?_drop]
      have hnext (k : ℕ) : input.drop (inI + k) = (input.drop inI).drop k := by rw [List.drop_drop]
      have hmap (k : ℕ) (b : UInt8) :
          ((fillFrom input n (inI + k)).map fun (out, stop) => (b :: out, stop)).map (·.1) =
            (fillUnescaped n ((input.drop inI).drop k)).map (b :: ·) := by
        rw [← hnext, ← ih, Option.map_map, Option.map_map]
        rfl
      unfold fillFrom
      rw [show input[inI]? = (input.drop inI)[0]? from hget 0, hget 1, hget 2]
      generalize input.drop inI = rest at hmap
      match rest with
      | [] => rfl
      | 37 :: hi :: lo :: rest => exact hmap 3 _
      | [37] => rfl
      | [37, _] => rfl
      | 43 :: rest => exact hmap 1 32
      | b :: rest =>
          by_cases hpercent : b = 37
          · subst hpercent
            match rest with
            | [] => rfl
            | [_] => rfl
            | hi :: lo :: rest => exact hmap 3 _
          · by_cases hplus : b = 43
            · subst hplus
              exact hmap 1 32
            · rw [fillUnescaped]
              · rw [List.getElem?_cons_zero]
                simp only [if_neg hpercent, if_neg hplus]
                exact hmap 1 b
              · rintro hi lo rest' rfl
                exact absurd rfl hpercent
              · exact hpercent
              · exact hplus

/-- **The second pass reads the whole input and no more**, when the output is full. -/
theorem fillFrom_escaped {text s : Bytes} (h : Escaped text s) (pre : Bytes) :
    fillFrom (pre ++ text) s.length pre.length = some (s, (pre ++ text).length) := by
  have hget (pre text : Bytes) (k : ℕ) : (pre ++ text)[pre.length + k]? = text[k]? := by
    rw [List.getElem?_append_right (Nat.le_add_right _ _), Nat.add_sub_cancel_left]
  induction h generalizing pre with
  | nil => rw [List.append_nil]; rfl
  | @literal b text s hpercent hplus _ ih =>
      have hrest := ih (pre ++ [b])
      rw [List.append_assoc, List.length_append, List.length_singleton, List.singleton_append] at hrest
      rw [List.length_cons, fillFrom]
      rw [show (pre ++ b :: text)[pre.length]? = some b from hget pre (b :: text) 0]
      simp only [if_neg hpercent, if_neg hplus]
      rw [hrest]
      rfl
  | @escape b hi lo text s hhi hlo _ ih =>
      have hrest := ih (pre ++ [37, hi, lo])
      rw [List.append_assoc, List.length_append, show [37, hi, lo].length = 3 from rfl] at hrest
      rw [List.length_cons, fillFrom]
      rw [show (pre ++ 37 :: hi :: lo :: text)[pre.length]? = some 37 from
          hget pre (37 :: hi :: lo :: text) 0,
        show (pre ++ 37 :: hi :: lo :: text)[pre.length + 1]? = some hi from
          hget pre (37 :: hi :: lo :: text) 1,
        show (pre ++ 37 :: hi :: lo :: text)[pre.length + 2]? = some lo from
          hget pre (37 :: hi :: lo :: text) 2]
      show Option.map _ (fillFrom (pre ++ ([37, hi, lo] ++ text)) s.length (pre.length + 3)) = _
      rw [hrest, decodeHex_byte hhi hlo]
      rfl
  | @plus text s _ ih =>
      have hrest := ih (pre ++ [43])
      rw [List.append_assoc, List.length_append, List.length_singleton, List.singleton_append] at hrest
      rw [List.length_cons, fillFrom]
      rw [show (pre ++ 43 :: text)[pre.length]? = some 43 from hget pre (43 :: text) 0]
      show Option.map _ (fillFrom (pre ++ 43 :: text) s.length (pre.length + 1)) = _
      rw [hrest]
      rfl

/-! ### `urlUnescape` -/

theorem urlUnescape_eq {σ : Type} (input : Bytes) (st : σ) :
    urlUnescape input st = match percentDecode input with
      | some s => .ok s st
      | none => .error (.err .invalidEscapeSequence) st := by
  unfold urlUnescape
  cases hdecode : percentDecode input with
  | none => rw [measureEscapes_broken hdecode]; rfl
  | some s =>
      have hescaped := escaped_of_percentDecode hdecode
      obtain ⟨hasPlus, hmeasure, hsame⟩ := measureEscapes_escaped hescaped
      have hfill : fillUnescaped s.length input = some s := by
        have hout := fillFrom_eq input s.length 0
        rw [show fillFrom input s.length 0 = some (s, input.length) from
          fillFrom_escaped hescaped []] at hout
        exact hout.symm
      rw [hmeasure]
      simp only
      split
      · next hunchanged => rw [hsame hunchanged.1 hunchanged.2]; rfl
      · rw [hfill]; rfl

/-- **`urlUnescape` inverts percent encoding**: every text that stands for bytes is read as these,
and it fails exactly on a `%` that two digits do not follow; whatever length the first pass finds,
the second pass fills it without an index past the end and ends at the end. -/
theorem urlUnescape_escaped {σ : Type} (input : Bytes) (st : σ) :
    (∀ s, Escaped input s → urlUnescape input st = .ok s st) ∧
      ((∃ s, urlUnescape input st = .ok s st) ↔ ¬BrokenEscape input) ∧
      (urlUnescape input st = .error (.err .invalidEscapeSequence) st ↔ BrokenEscape input) ∧
      ∀ hasPlus n, measureEscapes input = some (hasPlus, n) →
        ∃ out, fillFrom input n 0 = some (out, input.length) ∧ fillUnescaped n input = some out := by
  rw [urlUnescape_eq]
  refine ⟨fun s hs => ?_, ?_, ?_, fun hasPlus n hmeasure => ?_⟩
  · rw [percentDecode_escaped hs]
  · rw [← percentDecode_eq_none]
    cases percentDecode input <;> simp
  · rw [← percentDecode_eq_none]
    cases percentDecode input <;> simp
  · cases hdecode : percentDecode input with
    | none =>
        rw [measureEscapes_broken hdecode] at hmeasure
        cases hmeasure
    | some s =>
        have hescaped := escaped_of_percentDecode hdecode
        obtain ⟨_, hmeasure', -⟩ := measureEscapes_escaped hescaped
        rw [hmeasure'] at hmeasure
        cases hmeasure
        have hfill : fillFrom input s.length 0 = some (s, input.length) := fillFrom_escaped hescaped []
        refine ⟨s, hfill, ?_⟩
        have hout := fillFrom_eq input s.length 0
        rw [hfill] at hout
        exact hout.symm

end Request
end Dusty
