/-
Written numbers are read back. The text of a decimal is read as a decimal of
the same value (`readDecimal?_layout`), with or without a point or an exponent;
so the text of a double, which is that of a decimal nearest to it, is read as
that double (`readBinary64?_number`). Nought loses its sign.
-/
import Mathlib.Data.Nat.Cast.Field
import ReversePolish.Number.Reading
import ReversePolish.Proofs.Number.Digits
import ReversePolish.Rendering

namespace ReversePolish
namespace Numeral

/-! ## Digits -/

theorem valueOf_append (ds es : List Char) :
    valueOf (ds ++ es) = valueOf ds * 10 ^ es.length + valueOf es := by
  have joined : valueOf (ds ++ es) = Nat.ofDigitChars 10 es (valueOf ds) :=
    Nat.ofDigitChars_append 0
  rw [joined, Nat.ofDigitChars_eq_ofDigitChars_zero, Nat.mul_comm]
  rfl

@[simp] theorem valueOf_zeros (n : Nat) : valueOf (List.replicate n '0') = 0 :=
  (Nat.ofDigitChars_replicate_zero ..).trans (Nat.mul_zero _)

@[simp] theorem valueOf_digitsOf (n : Nat) : valueOf (digitsOf n) = n :=
  Nat.ofDigitChars_toDigits (by decide) (by decide)

/-- A text of digits alone. -/
def AllDigits (cs : List Char) : Prop := ∀ c ∈ cs, c.isDigit = true

theorem allDigits_digitsOf (n : Nat) : AllDigits (digitsOf n) := fun _ hc =>
  Nat.isDigit_of_mem_toDigits (by decide) (by decide) hc

theorem allDigits_zeros (n : Nat) : AllDigits (List.replicate n '0') := fun c hc => by
  rw [List.eq_of_mem_replicate hc]
  rfl

theorem AllDigits.append {ds es : List Char} (h : AllDigits ds) (h' : AllDigits es) :
    AllDigits (ds ++ es) := fun c hc => (List.mem_append.mp hc).elim (h c) (h' c)

theorem AllDigits.take {ds : List Char} (h : AllDigits ds) (n : Nat) : AllDigits (ds.take n) :=
  fun c hc => h c (List.mem_of_mem_take hc)

theorem AllDigits.drop {ds : List Char} (h : AllDigits ds) (n : Nat) : AllDigits (ds.drop n) :=
  fun c hc => h c (List.mem_of_mem_drop hc)

theorem length_digitsOf {n : Nat} (some : n ≠ 0) : (digitsOf n).length = digitCount n :=
  (if_neg some).symm

/-! ## Reading a decimal -/

/-- A text that does not go on with a digit. -/
def NoDigit (cs : List Char) : Prop := ∀ c ∈ cs.head?, c.isDigit = false

theorem noDigit_nil : NoDigit [] := fun c hc => by cases hc

/-- Characters of a kind are read up to where they end. -/
theorem span_append {p : Char → Bool} {cs rest : List Char} (h : ∀ c ∈ cs, p c = true)
    (ends : ∀ c ∈ rest.head?, p c = false) :
    (cs ++ rest).takeWhile p = cs ∧ (cs ++ rest).dropWhile p = rest := by
  rw [List.takeWhile_append_of_pos h, List.dropWhile_append_of_pos h]
  cases rest with
  | nil => simp
  | cons c rest =>
    have stops := ends c rfl
    simp [stops]

/-- A decimal with a point. -/
theorem readDecimal?_point {before after rest : List Char} (h : AllDigits before)
    (h' : AllDigits after) (some : before ≠ []) (ends : NoDigit rest) :
    readDecimal? (before ++ '.' :: (after ++ rest)) =
      (readExponent? rest).map fun e => ⟨valueOf (before ++ after), e - after.length⟩ := by
  have point : NoDigit ('.' :: (after ++ rest)) := by simp [NoDigit]
  obtain ⟨taken, dropped⟩ := span_append h point
  obtain ⟨taken', dropped'⟩ := span_append h' ends
  simp [readDecimal?, taken, dropped, taken', dropped', some]

/-- A decimal without one. -/
theorem readDecimal?_plain {before rest : List Char} (h : AllDigits before) (some : before ≠ [])
    (ends : NoDigit rest) (point : ∀ c ∈ rest.head?, c ≠ '.') :
    readDecimal? (before ++ rest) = (readExponent? rest).map fun e => ⟨valueOf before, e⟩ := by
  obtain ⟨taken, dropped⟩ := span_append h ends
  simp only [readDecimal?, taken, dropped]
  split
  next => exact absurd rfl (point '.' rfl)
  next => simp [some]

/-! ## Exponents -/

theorem readExponent?_sign {ds : List Char} (h : AllDigits ds) (some : ds ≠ []) (negative : Bool) :
    readExponent? ('e' :: (if negative then '-' else '+') :: ds) =
      .some (if negative then -(valueOf ds) else valueOf ds) := by
  have all : ds.all Char.isDigit = true := List.all_eq_true.mpr h
  cases negative <;> simp [readExponent?, splitSign, all, some]

theorem readExponent?_exponentText (e : ℤ) : readExponent? (exponentText e) = some e := by
  have value : valueOf (List.replicate (2 - (digitsOf e.natAbs).length) '0' ++
      digitsOf e.natAbs) = e.natAbs := by
    rw [valueOf_append, valueOf_zeros, valueOf_digitsOf, Nat.zero_mul, Nat.zero_add]
  have read := readExponent?_sign ((allDigits_zeros (2 - (digitsOf e.natAbs).length)).append
    (allDigits_digitsOf e.natAbs)) (List.append_ne_nil_of_right_ne_nil _ Nat.toDigits_ne_nil)
    (decide (e < 0))
  have magnitude : (if decide (e < 0) = true then -(e.natAbs : ℤ) else e.natAbs) = e := by
    split
    next h => have := of_decide_eq_true h; omega
    next h => have := of_decide_eq_false (Bool.eq_false_iff.mpr h); omega
  rw [value, magnitude] at read
  simpa [exponentText] using read

/-! ## Decimals -/

theorem readExponent?_nil : readExponent? [] = some 0 := rfl

/-- Digits around a point are read as a decimal of those digits. -/
theorem readDecimal?_positional {ds : List Char} (h : AllDigits ds) (some : ds ≠ [])
    (places : ℤ) :
    ∃ d, readDecimal? (positional ds places) = .some d ∧
      d.value = Decimal.value ⟨valueOf ds, places - ds.length⟩ := by
  have nought : AllDigits ['0'] := allDigits_zeros 1
  unfold positional
  split
  next small =>
    -- Nought stands before the point, and zeros fill the places up to the digits.
    have after := (allDigits_zeros (-places).toNat).append h
    have read := readDecimal?_point nought after (List.cons_ne_nil '0' []) noDigit_nil
    have value : valueOf (['0'] ++ (List.replicate (-places).toNat '0' ++ ds)) = valueOf ds := by
      rw [← List.append_assoc, valueOf_append]
      have zeros : valueOf (['0'] ++ List.replicate (-places).toNat '0') = 0 :=
        valueOf_zeros ((-places).toNat + 1)
      rw [zeros, Nat.zero_mul, Nat.zero_add]
    rw [readExponent?_nil, value, List.append_nil] at read
    refine ⟨_, read, congrArg (fun e => Decimal.value ⟨valueOf ds, e⟩) ?_⟩
    simp only [List.length_append, List.length_replicate]
    omega
  next large =>
    split
    next long =>
      -- Zeros fill the places from the digits to the point.
      have before := h.append (allDigits_zeros (places.toNat - ds.length))
      have read :=
        readDecimal?_point before nought (List.append_ne_nil_of_left_ne_nil some _) noDigit_nil
      have value : valueOf (ds ++ List.replicate (places.toNat - ds.length) '0' ++ ['0']) =
          valueOf ds * 10 ^ (places.toNat - ds.length + 1) := by
        have zeros : valueOf (List.replicate (places.toNat - ds.length) '0' ++ ['0']) = 0 := by
          rw [← List.replicate_succ']
          exact valueOf_zeros _
        rw [List.append_assoc, valueOf_append, zeros, Nat.add_zero]
        simp
      rw [readExponent?_nil, value] at read
      refine ⟨_, read, ?_⟩
      rw [Decimal.value_shift]
      refine congrArg (fun e => Decimal.value ⟨valueOf ds, e⟩) ?_
      simp only [List.length_singleton]
      omega
    next short =>
      -- The point stands among the digits.
      have filled : ds.take places.toNat ≠ [] := by
        simp only [ne_eq, List.take_eq_nil_iff, some, or_false]
        omega
      have read :=
        readDecimal?_point (h.take places.toNat) (h.drop places.toNat) filled noDigit_nil
      rw [readExponent?_nil, List.append_nil, List.take_append_drop] at read
      refine ⟨_, read, congrArg (fun e => Decimal.value ⟨valueOf ds, e⟩) ?_⟩
      simp only [List.length_drop]
      omega

/-- Digits with an exponent are read as a decimal of those digits. -/
theorem readDecimal?_scientific {ds : List Char} (h : AllDigits ds) (some : ds ≠ []) (e : ℤ) :
    readDecimal? (scientific ds e) = .some ⟨valueOf ds, e - (ds.length - 1 : Nat)⟩ := by
  have filled : ds.take 1 ≠ [] := by simpa using some
  have ends : NoDigit (exponentText e) := fun c hc => by
    cases hc
    rfl
  unfold scientific
  split
  next single =>
    have read := readDecimal?_plain (h.take 1) filled ends fun c hc => by
      cases hc
      decide
    rw [readExponent?_exponentText, List.take_of_length_le single] at read
    rw [List.append_nil, List.take_of_length_le single, read]
    simp only [Option.map_some, Option.some.injEq, Decimal.mk.injEq, true_and]
    omega
  next several =>
    have read := readDecimal?_point (h.take 1) (h.drop 1) filled ends
    rw [readExponent?_exponentText, List.take_append_drop] at read
    rw [List.append_assoc, List.cons_append, read]
    simp only [Option.map_some, List.length_drop]

/-- **The text of a decimal is read as a decimal of the same value.** -/
theorem readDecimal?_layout {d : Decimal} (some : d.digits ≠ 0) :
    ∃ d', readDecimal? (layout d) = .some d' ∧ d'.value = d.value := by
  have digits := allDigits_digitsOf d.digits
  have filled : digitsOf d.digits ≠ [] := Nat.toDigits_ne_nil
  have length := length_digitsOf some
  have same :
      (⟨valueOf (digitsOf d.digits), d.top - (digitsOf d.digits).length⟩ : Decimal) = d := by
    rw [valueOf_digitsOf, length]
    simp [Decimal.top]
  unfold layout
  dsimp only
  split
  · obtain ⟨d', read, value⟩ := readDecimal?_positional digits filled (d.top - 1 + 1)
    rw [Int.sub_add_cancel, same] at value
    exact ⟨d', read, value⟩
  · refine ⟨_, readDecimal?_scientific digits filled _, congrArg Decimal.value ?_⟩
    have pos : 0 < (digitsOf d.digits).length := List.length_pos_iff.mpr filled
    have place : d.top - 1 - ((digitsOf d.digits).length - 1 : Nat) =
        d.top - (digitsOf d.digits).length := by omega
    rw [place, same]

/-! ## The characters of numerals -/

/-- The characters in which numbers are written. -/
def isNumeralChar (c : Char) : Bool := c.isDigit || ['.', 'e', '+', '-'].contains c

/-- A text of such characters that begins with a digit. -/
structure Unsigned (cs : List Char) : Prop where
  chars : ∀ c ∈ cs, isNumeralChar c = true
  digit : ∃ c rest, cs = c :: rest ∧ c.isDigit = true

theorem AllDigits.chars {ds : List Char} (h : AllDigits ds) : ∀ c ∈ ds, isNumeralChar c = true :=
  fun c hc => by simp [isNumeralChar, h c hc]

theorem AllDigits.unsigned {ds rest : List Char} (h : AllDigits ds) (some : ds ≠ [])
    (chars : ∀ c ∈ rest, isNumeralChar c = true) : Unsigned (ds ++ rest) := by
  refine ⟨fun c hc => (List.mem_append.mp hc).elim (h.chars c) (chars c), ?_⟩
  cases ds with
  | nil => exact absurd rfl some
  | cons c ds => exact ⟨c, ds ++ rest, rfl, h c (List.mem_cons_self ..)⟩

theorem chars_cons {c : Char} {cs : List Char} (h : isNumeralChar c = true)
    (chars : ∀ c ∈ cs, isNumeralChar c = true) : ∀ d ∈ c :: cs, isNumeralChar d = true :=
  List.forall_mem_cons.mpr ⟨h, chars⟩

theorem chars_sign {cs : List Char} (chars : ∀ c ∈ cs, isNumeralChar c = true) (negative : Bool) :
    ∀ c ∈ sign negative ++ cs, isNumeralChar c = true := by
  cases negative with
  | true => exact chars_cons rfl chars
  | false => exact chars

theorem chars_exponentText (e : ℤ) : ∀ c ∈ exponentText e, isNumeralChar c = true := by
  have digits := ((allDigits_zeros (2 - (digitsOf e.natAbs).length)).append
    (allDigits_digitsOf e.natAbs)).chars
  refine chars_cons rfl (chars_cons ?_ digits)
  split <;> rfl

theorem unsigned_positional {ds : List Char} (h : AllDigits ds) (some : ds ≠ []) (places : ℤ) :
    Unsigned (positional ds places) := by
  unfold positional
  split
  · exact (allDigits_zeros 1).unsigned (List.cons_ne_nil '0' [])
      (chars_cons rfl ((allDigits_zeros _).append h).chars)
  · split
    · exact (h.append (allDigits_zeros _)).unsigned (List.append_ne_nil_of_left_ne_nil some _)
        (chars_cons rfl (allDigits_zeros 1).chars)
    · have filled : ds.take places.toNat ≠ [] := by
        simp only [ne_eq, List.take_eq_nil_iff, some, or_false]
        omega
      exact (h.take _).unsigned filled (chars_cons rfl (h.drop _).chars)

theorem unsigned_scientific {ds : List Char} (h : AllDigits ds) (some : ds ≠ []) (e : ℤ) :
    Unsigned (scientific ds e) := by
  have filled : ds.take 1 ≠ [] := by simpa using some
  unfold scientific
  rw [List.append_assoc]
  refine (h.take 1).unsigned filled fun c hc =>
    (List.mem_append.mp hc).elim ?_ (chars_exponentText e c)
  split
  · intro none
    cases none
  · exact chars_cons rfl (h.drop 1).chars c

theorem unsigned_layout (d : Decimal) : Unsigned (layout d) := by
  unfold layout
  dsimp only
  split
  · exact unsigned_positional (allDigits_digitsOf _) Nat.toDigits_ne_nil _
  · exact unsigned_scientific (allDigits_digitsOf _) Nat.toDigits_ne_nil _

/-! ## Numerals -/

theorem toNat_of_isDigit {c : Char} (h : c.isDigit = true) : 48 ≤ c.toNat ∧ c.toNat ≤ 57 := by
  simpa [Char.isDigit, UInt32.le_iff_toNat_le] using h

theorem isBlank_eq_false {c : Char} (low : 32 < c.toNat) (high : c.toNat < 128) :
    isBlank c = false := by
  have tab : ¬ c.toNat < 9 ∧ ¬ c.toNat ≤ 13 := by omega
  have space : ¬ c.toNat < 32 ∧ ¬ c.toNat ≤ 32 := by omega
  have next : c.toNat < 133 := by omega
  simp [isBlank, blankRanges, inRanges, tab, space, next]

/-- What is special to a reader about other characters is not about those of numerals. -/
theorem numeralChar_plain {c : Char} (h : isNumeralChar c = true) :
    normal c = c ∧ isBlank c = false ∧ c ≠ '_' := by
  have code : 32 < c.toNat ∧ c.toNat < 128 ∧ c ≠ '_' := by
    rcases Bool.or_eq_true_iff.mp h with digit | other
    · have := toNat_of_isDigit digit
      refine ⟨by omega, by omega, ?_⟩
      rintro rfl
      cases digit
    · have cases : c = '.' ∨ c = 'e' ∨ c = '+' ∨ c = '-' := by simpa using other
      rcases cases with rfl | rfl | rfl | rfl <;> decide
  obtain ⟨low, high, apart⟩ := code
  exact ⟨if_pos high, isBlank_eq_false low high, apart⟩

theorem dropWhile_isBlank {cs : List Char} (h : ∀ c ∈ cs, isNumeralChar c = true) :
    cs.dropWhile isBlank = cs := by
  cases cs with
  | nil => rfl
  | cons c cs => simp [(numeralChar_plain (h c (List.mem_cons_self ..))).2.1]

theorem trim_chars {cs : List Char} (h : ∀ c ∈ cs, isNumeralChar c = true) : trim cs = cs := by
  unfold trim
  rw [dropWhile_isBlank h, dropWhile_isBlank fun c hc => h c (List.mem_reverse.mp hc),
    List.reverse_reverse]

theorem map_normal {cs : List Char} (h : ∀ c ∈ cs, isNumeralChar c = true) :
    cs.map normal = cs :=
  (List.map_congr_left fun c hc => (numeralChar_plain (h c hc)).1).trans (List.map_id cs)

theorem joinDigits_chars {cs : List Char} (h : ∀ c ∈ cs, isNumeralChar c = true) (before : Char) :
    joinDigits before cs = some cs := by
  induction cs generalizing before with
  | nil => rfl
  | cons c cs ih =>
    have apart := (numeralChar_plain (h c (List.mem_cons_self ..))).2.2
    have rest := ih (fun c hc => h c (List.mem_cons_of_mem _ hc)) c
    simp [joinDigits, apart, rest]

/-- A text that begins with a digit is none of the words. -/
theorem readWord?_digit {c : Char} (digit : c.isDigit = true) (negative : Bool) (cs : List Char) :
    readWord? negative (c :: cs) = none := by
  have code := toNat_of_isDigit digit
  have lower : c.toLower = c := by
    refine dif_neg fun upper => ?_
    have letter : 65 ≤ c.toNat := UInt32.le_iff_toNat_le.mp upper.1
    omega
  have apart (s : String) (first : Char) (hs : s.toList.head? = some first)
      (word : first.isDigit = false) : String.ofList ((c :: cs).map Char.toLower) ≠ s := by
    rintro rfl
    simp only [String.toList_ofList, List.map_cons, List.head?_cons, lower] at hs
    cases hs
    rw [digit] at word
    cases word
  unfold readWord?
  dsimp only
  rw [if_neg, if_neg]
  · exact apart "nan" 'n' rfl rfl
  · exact not_or.mpr ⟨apart "inf" 'i' rfl rfl, apart "infinity" 'i' rfl rfl⟩

theorem splitSign_sign {cs : List Char} (h : Unsigned cs) (negative : Bool) :
    splitSign (sign negative ++ cs) = (negative, cs) := by
  obtain ⟨c, rest, rfl, digit⟩ := h.digit
  cases negative with
  | true => rfl
  | false =>
    unfold sign splitSign
    split
    next heq => cases heq; cases digit
    next heq => cases heq; cases digit
    next => rfl

/-- A numeral without blanks is its sign and a decimal. -/
theorem readBinary64?_decimal {cs : List Char} {d : Decimal} (h : Unsigned cs)
    (read : readDecimal? cs = some d) (negative : Bool) :
    readBinary64? (sign negative ++ cs) = some (match d.nearest with
      | some size => .finite negative size
      | none => .infinite negative) := by
  have chars := chars_sign h.chars negative
  obtain ⟨c, rest, hcs, digit⟩ := h.digit
  have word : readWord? negative cs = none := hcs ▸ readWord?_digit digit negative rest
  cases nearest : d.nearest <;>
    simp only [readBinary64?, map_normal chars, trim_chars chars, joinDigits_chars chars,
      splitSign_sign h, word, read, nearest, Option.bind_eq_bind, Option.bind_some]

end Numeral

/-! ## Numbers in expressions -/

namespace Magnitude

/-- A magnitude without a part after the point is its whole part. -/
theorem value_of_isWhole {x : Magnitude} (h : x.isWhole = true) : x.value = x.whole := by
  have divides : x.toFraction.den ∣ x.toFraction.num := by
    have part : 2 ^ (-x.exponent).toNat ∣ x.significand :=
      Nat.dvd_of_mod_eq_zero (by simpa [isWhole] using h)
    exact Dvd.dvd.mul_right part _
  have den : (x.toFraction.den : ℚ) ≠ 0 := by exact_mod_cast x.den_toFraction.ne'
  rw [whole, Fraction.floor, Nat.cast_div divides den]
  exact x.value_toFraction.symm

theorem whole_eq_zero_iff {x : Magnitude} (h : x.isWhole = true) :
    x.whole = 0 ↔ x.significand = 0 := by
  have value := value_of_isWhole h
  constructor
  · intro none
    by_contra some
    rw [none, Nat.cast_zero] at value
    exact (value_pos some).ne' value
  · intro none
    rw [Magnitude.value, none, Nat.cast_zero, zero_mul] at value
    exact_mod_cast value.symm

end Magnitude

namespace Rendering
open Numeral

/-- The text of a finite number is a sign, if it is negative and not nought, and a decimal whose
nearest double it is. -/
theorem number_eq {x : Float} {negative : Bool} {size : Magnitude}
    (hx : Binary64.ofFloat x = .finite negative size) (h : size.Canonical) :
    ∃ cs d, (number x).toList = sign (negative && size.significand != 0) ++ cs ∧ Unsigned cs ∧
      readDecimal? cs = some d ∧ d.nearest = some size := by
  unfold number
  rw [hx]
  dsimp only
  by_cases whole : (size.isWhole && decide (size.whole < wholeBelow)) = true
  · have isWhole := (Bool.and_eq_true_iff.mp whole).1
    have digits := allDigits_digitsOf size.whole
    have filled : digitsOf size.whole ≠ [] := Nat.toDigits_ne_nil
    have read := readDecimal?_plain digits filled noDigit_nil fun c hc => by cases hc
    have unsigned := digits.unsigned filled fun c (hc : c ∈ []) => by cases hc
    rw [List.append_nil] at read unsigned
    refine ⟨digitsOf size.whole, ⟨valueOf (digitsOf size.whole), 0⟩, ?_, unsigned, read, ?_⟩
    · rw [if_pos whole]
      have written : (toString size.whole).toList = digitsOf size.whole := Nat.toList_repr
      have signs : (size.whole != 0) = (size.significand != 0) := by
        rw [Bool.eq_iff_iff, bne_iff_ne, bne_iff_ne, ne_eq, Magnitude.whole_eq_zero_iff isWhole]
      rw [signs, ← written]
      cases negative && size.significand != 0 with
      | true => rw [if_pos rfl, String.toList_append]; rfl
      | false => rfl
    · refine Decimal.nearest_of_value h ?_
      rw [valueOf_digitsOf, Magnitude.value_of_isWhole isWhole, Decimal.value, zpow_zero, mul_one]
  · have some : size.significand ≠ 0 := by
      intro none
      refine whole ?_
      have isWhole : size.isWhole = true := by simp [Magnitude.isWhole, none]
      simp [isWhole, (Magnitude.whole_eq_zero_iff isWhole).mpr none, wholeBelow]
    have digits : size.fewest.digits ≠ 0 := by
      intro none
      have nearest := h.nearest_fewest
      rw [Decimal.nearest_of_digits_eq_zero none] at nearest
      exact some (Option.some.inj nearest ▸ rfl)
    obtain ⟨d, read, value⟩ := readDecimal?_layout digits
    refine ⟨layout size.fewest, d, ?_, unsigned_layout _, read, ?_⟩
    · have signs : (size.significand != 0) = true := bne_iff_ne.mpr some
      rw [if_neg whole, ofFloat, hx, ofBinary64, signs, Bool.and_true, String.toList_ofList]
    · rw [Decimal.nearest_congr value]
      exact h.nearest_fewest

/-- **The text of a number is read back**, though nought without its sign. -/
theorem readBinary64?_number {x : Float} {negative : Bool} {size : Magnitude}
    (hx : Binary64.ofFloat x = .finite negative size) (h : size.Canonical) :
    readBinary64? (number x).toList = some (.finite (negative && size.significand != 0) size) := by
  obtain ⟨cs, d, text, unsigned, read, nearest⟩ := number_eq hx h
  rw [text, readBinary64?_decimal unsigned read, nearest]

end Rendering
end ReversePolish
