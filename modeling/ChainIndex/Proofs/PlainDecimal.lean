/-
Decimals in plain notation: digits with an optional fraction, and neither a sign nor an
exponent. Of the texts that are made of digits and points the reader takes exactly these, of
any length, and reads the number that the digits before and behind the point write.
-/
import ChainIndex.Coin
import ChainIndex.Proofs.DecimalValue
import ChainIndex.Proofs.Outcomes
import ChainIndex.Proofs.Spelling
import Mathlib.Data.List.TakeWhile
import Mathlib.Tactic.FieldSimp
import Mathlib.Tactic.Positivity

namespace ChainIndex

namespace Text

/-- Digits behind others move these up by a place each. -/
theorem ofDigits_append (cs ds : List Char) :
    ofDigits (cs ++ ds) = 10 ^ ds.length * ofDigits cs + ofDigits ds :=
  (Nat.ofDigitChars_append 0).trans Nat.ofDigitChars_eq_ofDigitChars_zero

/-- The digits of a number, with zeros before them to a given length. -/
def paddedDigits (n length : Nat) : List Char :=
  List.replicate (length - (Nat.toDigits 10 n).length) '0' ++ Nat.toDigits 10 n

theorem ofDigits_zeros (k : Nat) : ofDigits (List.replicate k '0') = 0 :=
  Nat.ofDigitChars_replicate_zero.trans (Nat.mul_zero _)

theorem isDigit_zeros {k : Nat} {c : Char} (h : c ∈ List.replicate k '0') :
    isDigit c = true := by
  rw [List.eq_of_mem_replicate h]
  rfl

theorem isDigit_paddedDigits {n length : Nat} {c : Char} (h : c ∈ paddedDigits n length) :
    isDigit c = true :=
  (List.mem_append.mp h).elim isDigit_zeros isDigit_toDigits

theorem ofDigits_paddedDigits (n length : Nat) : ofDigits (paddedDigits n length) = n := by
  rw [paddedDigits, ofDigits_append, ofDigits_zeros, ofDigits_toDigits, Nat.mul_zero,
    Nat.zero_add]

theorem le_length_paddedDigits (n length : Nat) : length ≤ (paddedDigits n length).length := by
  rw [paddedDigits, List.length_append, List.length_replicate]
  omega

end Text

/-- A text of digits with an optional fraction. One of the two may be empty. -/
structure PlainDecimal where
  whole : List Char
  fraction : Option (List Char)
  digits : ∀ c ∈ whole ++ fraction.getD [], Text.isDigit c = true
  some_digit : whole ++ fraction.getD [] ≠ []

namespace PlainDecimal

/-- The digits behind the point. -/
def places (p : PlainDecimal) : List Char := p.fraction.getD []

/-- The characters of the text. -/
def chars (p : PlainDecimal) : List Char :=
  p.whole ++ match p.fraction with
    | none => []
    | some places => '.' :: places

/-- The number that is written. -/
def value (p : PlainDecimal) : ℚ :=
  Text.ofDigits p.whole + Text.ofDigits p.places / 10 ^ p.places.length

/-- The decimal that is read: all digits, at the scale of the fraction. -/
def decimal (p : PlainDecimal) : Decimal :=
  ⟨Text.ofDigits (p.whole ++ p.places), p.places.length⟩

theorem value_decimal (p : PlainDecimal) : p.decimal.value = p.value := by
  have shift : (10 : ℚ) ^ p.places.length ≠ 0 := by positivity
  rw [Decimal.value, decimal, value, zpow_neg, zpow_natCast, Text.ofDigits_append]
  push_cast
  field_simp

theorem value_nonneg (p : PlainDecimal) : 0 ≤ p.value := by
  unfold value
  positivity

theorem decimal_nonneg (p : PlainDecimal) : 0 ≤ p.decimal.digits :=
  Int.natCast_nonneg _

theorem isAmountChar_chars (p : PlainDecimal) : ∀ c ∈ p.chars, Coin.isAmountChar c = true := by
  obtain ⟨whole, fraction, digits, -⟩ := p
  intro c hc
  rw [Coin.isAmountChar, Bool.or_eq_true, beq_iff_eq]
  rcases List.mem_append.mp hc with hw | hf
  · exact .inl (digits c (List.mem_append_left _ hw))
  · cases fraction with
    | none => cases hf
    | some places =>
      rcases List.mem_cons.mp hf with rfl | hp
      · exact .inr rfl
      · exact .inl (digits c (List.mem_append_right _ hp))

/-- The first point of the text stands behind the whole part. -/
theorem cut_chars (p : PlainDecimal) : p.chars.takeWhile (· != '.') = p.whole ∧
    (p.chars.dropWhile (· != '.')).drop 1 = p.places := by
  obtain ⟨whole, fraction, digits, -⟩ := p
  have noPoint : ∀ c ∈ whole, (c != '.') = true := fun c hc => by
    have digit := digits c (List.mem_append_left _ hc)
    rw [bne_iff_ne]
    rintro rfl
    revert digit
    decide
  rw [chars, List.takeWhile_append_of_pos noPoint, List.dropWhile_append_of_pos noPoint]
  cases fraction <;> simp [places]

theorem chars_ne_nil (p : PlainDecimal) : p.chars ≠ [] := by
  obtain ⟨whole, fraction, -, some⟩ := p
  cases fraction with
  | none => exact some
  | some places => exact List.append_ne_nil_of_right_ne_nil _ (List.cons_ne_nil _ _)

/-- Digits with a point before the last of them. -/
def pointBefore (places : Nat) {cs : List Char} (digits : ∀ c ∈ cs, Text.isDigit c = true)
    (some_digit : cs ≠ []) : PlainDecimal where
  whole := cs.take (cs.length - places)
  fraction := some (cs.drop (cs.length - places))
  digits := by simpa using digits
  some_digit := by simpa using some_digit

theorem decimal_pointBefore {cs : List Char} {places : Nat}
    {digits : ∀ c ∈ cs, Text.isDigit c = true} {some_digit : cs ≠ []} (h : places ≤ cs.length) :
    (pointBefore places digits some_digit).decimal = ⟨Text.ofDigits cs, places⟩ := by
  have length : (cs.drop (cs.length - places)).length = places := by
    rw [List.length_drop]
    omega
  simp only [decimal, PlainDecimal.places, pointBefore, Option.getD_some,
    List.take_append_drop, length]

end PlainDecimal

/-! ## Reading -/

namespace Decimal

open PlainDecimal

variable {cs : List Char} {d : Decimal}

/-- No other character is part of an amount. -/
theorem ne_of_amount {c other : Char} (h : Coin.isAmountChar c = true)
    (no : Coin.isAmountChar other = false) : c ≠ other := by
  rintro rfl
  rw [no] at h
  cases h

theorem isExponentMark_of_amount {c : Char} (h : Coin.isAmountChar c = true) :
    isExponentMark c = false := by
  rw [isExponentMark, Bool.or_eq_false_iff, beq_eq_false_iff_ne, beq_eq_false_iff_ne]
  exact ⟨ne_of_amount h (by decide), ne_of_amount h (by decide)⟩

/-- Without a sign a numeral is all digits. -/
theorem digitText_of_amount (plain : ∀ c ∈ cs, Coin.isAmountChar c = true) :
    digitText cs = (digitText.unsignedText cs).map Int.ofNat := by
  have noMinus : Coin.isAmountChar '-' = false := by decide
  have noPlus : Coin.isAmountChar '+' = false := by decide
  unfold digitText
  split
  · simp [noMinus] at plain
  · simp [noPlus] at plain
  · rfl

theorem unsignedText_of_amount (plain : ∀ c ∈ cs, Coin.isAmountChar c = true) (some : cs ≠ []) :
    digitText.unsignedText cs =
      if cs.all Text.isDigit then .ok (Text.ofDigits cs) else .error (.numeral .invalidDigit) := by
  have noBar : Coin.isAmountChar '_' = false := by decide
  have apart {c : Char} (hc : c ∈ cs) : c ≠ '_' := ne_of_amount (plain c hc) noBar
  have solid : cs.filter (· != '_') = cs :=
    List.filter_eq_self.mpr fun c hc => bne_iff_ne.mpr (apart hc)
  have digits : (cs.all fun c => Text.isDigit c || c == '_') = cs.all Text.isDigit := by
    rw [Bool.eq_iff_iff, List.all_eq_true, List.all_eq_true]
    refine forall₂_congr fun c hc => ?_
    rw [beq_eq_false_iff_ne.mpr (apart hc), Bool.or_false]
  rw [digitText.unsignedText.eq_def]
  split
  · exact absurd rfl some
  · simp [noBar] at plain
  · rw [solid, digits]

/-- Of digits and points only digits are a numeral. -/
theorem digitText_eq_ok_iff (plain : ∀ c ∈ cs, Coin.isAmountChar c = true) {n : Int} :
    digitText cs = .ok n ↔
      cs ≠ [] ∧ (∀ c ∈ cs, Text.isDigit c = true) ∧ n = Text.ofDigits cs := by
  rw [digitText_of_amount plain]
  by_cases some : cs = []
  · subst some
    simp [digitText.unsignedText, Except.map]
  · rw [unsignedText_of_amount plain some, ← List.all_eq_true]
    split
    · next all => simp [Except.map, some, all, eq_comm]
    · next other => simp [Except.map, other]

/-- The characters before and behind the point. -/
theorem ofChars?_of_amount (plain : ∀ c ∈ cs, Coin.isAmountChar c = true) :
    ofChars? cs =
      if cs.isEmpty then .error .empty
      else do
        let places := (cs.dropWhile (· != '.')).drop 1
        let digits ← digitText (cs.takeWhile (· != '.') ++ places)
        return ⟨digits, places.length⟩ := by
  have noMark : ∀ c ∈ cs, (!isExponentMark c) = true := fun c hc => by
    rw [isExponentMark_of_amount (plain c hc), Bool.not_false]
  have base : cs.takeWhile (!isExponentMark ·) = cs := List.takeWhile_eq_self_iff.mpr noMark
  have exponent : cs.dropWhile (!isExponentMark ·) = [] := List.dropWhile_eq_nil_iff.mpr noMark
  rw [ofChars?, base, exponent]
  change (if cs.isEmpty then _ else _) = _
  simp only [Int.sub_zero]

/-- A text is cut at its first point. -/
theorem cut_at_point (cs : List Char) : cs.takeWhile (· != '.') ++
    (match (cs.dropWhile (· != '.')).tail? with
      | none => []
      | some places => '.' :: places) = cs := by
  induction cs with
  | nil => rfl
  | cons c cs ih =>
    by_cases point : c = '.'
    · subst point
      simp
    · simp only [List.takeWhile_cons, List.dropWhile_cons, bne_iff_ne, ne_eq, point,
        not_false_eq_true, if_true, List.cons_append, ih]

theorem getD_tail? (cs : List Char) : cs.tail?.getD [] = cs.drop 1 := by
  cases cs <;> rfl

/-- **Of digits and points exactly the plain decimals are read.** -/
theorem ofChars?_eq_ok_iff (plain : ∀ c ∈ cs, Coin.isAmountChar c = true) :
    ofChars? cs = .ok d ↔ ∃ p : PlainDecimal, p.chars = cs ∧ p.decimal = d := by
  rw [ofChars?_of_amount plain]
  constructor
  · intro h
    have both : ∀ c ∈ cs.takeWhile (· != '.') ++ (cs.dropWhile (· != '.')).drop 1,
        Coin.isAmountChar c = true := by
      intro c hc
      rcases List.mem_append.mp hc with hw | hf
      · exact plain c ((List.takeWhile_sublist _).subset hw)
      · exact plain c ((List.dropWhile_sublist _).subset (List.mem_of_mem_drop hf))
    split at h
    · cases h
    · obtain ⟨n, read, h⟩ := bind_eq_ok h
      cases h
      obtain ⟨some, digits, rfl⟩ := (digitText_eq_ok_iff both).mp read
      rw [← getD_tail?] at some digits
      refine ⟨⟨_, (cs.dropWhile (· != '.')).tail?, digits, some⟩, cut_at_point cs, ?_⟩
      rw [decimal, places, getD_tail?]
  · rintro ⟨p, rfl, rfl⟩
    have plainDigits : ∀ c ∈ p.whole ++ p.places, Coin.isAmountChar c = true := fun c hc => by
      rw [Coin.isAmountChar, p.digits c hc, Bool.true_or]
    have digits : digitText (p.whole ++ p.places) = .ok (Text.ofDigits (p.whole ++ p.places)) :=
      (digitText_eq_ok_iff plainDigits).mpr ⟨p.some_digit, p.digits, rfl⟩
    obtain ⟨before, behind⟩ := p.cut_chars
    rw [if_neg (by simpa using p.chars_ne_nil), before, behind]
    simp only
    rw [digits]
    rfl

/-! ## Writing -/

/-- **A decimal that is not negative is written as a plain decimal of its value.** -/
theorem exists_plain_of_render (nonneg : 0 ≤ d.digits) :
    ∃ p : PlainDecimal, p.chars = d.render.toList ∧ p.value = d.value := by
  obtain ⟨n, scale⟩ := d
  obtain ⟨n, rfl⟩ := Int.eq_ofNat_of_zero_le nonneg
  have sign : ¬ (n : Int) < 0 := by omega
  have digits : toString n = String.ofList (Nat.toDigits 10 n) := rfl
  rw [render]
  simp only [sign, if_false, Int.natAbs_natCast, digits]
  by_cases noFraction : scale ≤ 0
  · obtain ⟨k, rfl⟩ : ∃ k : Nat, scale = -k := ⟨(-scale).toNat, by omega⟩
    have text : ∀ c ∈ Nat.toDigits 10 n ++ List.replicate k '0', Text.isDigit c = true :=
      fun c hc => (List.mem_append.mp hc).elim Text.isDigit_toDigits Text.isDigit_zeros
    refine ⟨⟨Nat.toDigits 10 n ++ List.replicate k '0', none, ?_, ?_⟩, ?_, ?_⟩
    · simpa using text
    · simp [Nat.toDigits_ne_nil]
    · simp [chars, noFraction]
    · simp [PlainDecimal.value, places, Text.ofDigits_append, Text.ofDigits_zeros,
        Text.ofDigits_toDigits, Decimal.value, mul_comm]
  · obtain ⟨k, rfl⟩ : ∃ k : Nat, scale = k := ⟨scale.toNat, by omega⟩
    have long := Text.le_length_paddedDigits n (k + 1)
    have digits : ∀ c ∈ Text.paddedDigits n (k + 1), Text.isDigit c = true :=
      fun _ => Text.isDigit_paddedDigits
    refine ⟨pointBefore k digits (List.ne_nil_of_length_pos (by omega)), ?_, ?_⟩
    · rw [if_neg noFraction]
      simp [chars, pointBefore, Text.paddedDigits]
    · rw [← value_decimal, decimal_pointBefore (by omega), Text.ofDigits_paddedDigits]

end Decimal

end ChainIndex
