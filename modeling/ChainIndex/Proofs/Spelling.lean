/-
Texts that read back as what they spell: whole numbers in decimal digits, byte strings
in base64, and keys, whose base64 is found among the spellings that a key may have. The
blanks around a text are not part of what it spells.
-/
import ChainIndex.Address
import ChainIndex.Text.Numeral
import Mathlib.Data.List.TakeWhile

namespace ChainIndex

/-! ## Numerals -/

namespace Text

variable {cs : List Char}

theorem isDigit_of_char {c : Char} (h : c.isDigit = true) : isDigit c = true := by
  simpa [isDigit, Char.isDigit, Char.le_def] using h

/-- A run of digits is read as a whole, if it is within the limit. -/
theorem digitsUpTo_run {limit : Nat} {complaint : NumeralError}
    (digits : ∀ c ∈ cs, isDigit c = true) :
    digitsUpTo limit complaint cs =
      if ofDigits cs ≤ limit then .ok (ofDigits cs) else .error complaint := by
  have run : cs.takeWhile isDigit = cs := List.takeWhile_eq_self_iff.mpr digits
  simp only [digitsUpTo, run, Nat.lt_irrefl, if_false]
  by_cases small : ofDigits cs ≤ limit
  · rw [if_neg (Nat.not_lt.mpr small), if_pos small]
  · rw [if_pos (Nat.not_le.mp small), if_neg small]

theorem digitsUpTo_digits {limit : Nat} {complaint : NumeralError}
    (digits : ∀ c ∈ cs, isDigit c = true) (small : ofDigits cs ≤ limit) :
    digitsUpTo limit complaint cs = .ok (ofDigits cs) := by
  rw [digitsUpTo_run digits, if_pos small]

theorem unsigned?_digits {high : Nat} (digits : ∀ c ∈ cs, isDigit c = true) (some : cs ≠ []) :
    unsigned? high cs = digitsUpTo high .tooLarge cs := by
  have noSign : isDigit '+' = false := by decide
  unfold unsigned?
  split
  · exact absurd rfl some
  · simp [noSign] at digits
  · simp [noSign] at digits
  · rfl

theorem signed?_digits {low high : Nat} (digits : ∀ c ∈ cs, isDigit c = true) (some : cs ≠ []) :
    signed? low high cs = (digitsUpTo high .tooLarge cs).map Int.ofNat := by
  have noPlus : isDigit '+' = false := by decide
  have noMinus : isDigit '-' = false := by decide
  unfold signed?
  split
  · exact absurd rfl some
  · simp [noPlus] at digits
  · simp [noMinus] at digits
  · simp [noPlus] at digits
  · simp [noMinus] at digits
  · rfl

theorem isDigit_toDigits {n : Nat} {c : Char} (h : c ∈ Nat.toDigits 10 n) : isDigit c = true :=
  isDigit_of_char (Nat.isDigit_of_mem_toDigits (by decide) (by decide) h)

theorem ofDigits_toDigits (n : Nat) : ofDigits (Nat.toDigits 10 n) = n :=
  Nat.ofDigitChars_ten_toDigits

theorem digitsUpTo_toDigits {limit n : Nat} {complaint : NumeralError} (small : n ≤ limit) :
    digitsUpTo limit complaint (Nat.toDigits 10 n) = .ok n := by
  have read : digitsUpTo limit complaint (Nat.toDigits 10 n) = .ok (ofDigits (Nat.toDigits 10 n)) :=
    digitsUpTo_digits (fun _ hc => isDigit_toDigits hc) (by rwa [ofDigits_toDigits])
  rwa [ofDigits_toDigits] at read

theorem toList_toString (n : Nat) : (toString n).toList = Nat.toDigits 10 n :=
  Nat.toList_repr

theorem word64?_toString {n : Nat} (small : n ≤ maxWord64) : word64? (toString n) = some n := by
  rw [word64?, toList_toString, unsigned?_digits (fun _ hc => isDigit_toDigits hc)
    Nat.toDigits_ne_nil, digitsUpTo_toDigits small]
  rfl

theorem int64?_toString {n : Nat} (small : n ≤ maxInt64) : int64? (toString n) = some (n : Int) := by
  rw [int64?, readInt64, toList_toString, signed?_digits (fun _ hc => isDigit_toDigits hc)
    Nat.toDigits_ne_nil, digitsUpTo_toDigits small]
  rfl

theorem toList_toString_int (n : Int) :
    (toString n).toList = (if n < 0 then ['-'] else []) ++ Nat.toDigits 10 n.natAbs := by
  cases n with
  | ofNat m =>
    have natural : ¬ Int.ofNat m < 0 := Int.not_lt.mpr (Int.natCast_nonneg m)
    rw [if_neg natural]
    exact toList_toString m
  | negSucc m =>
    have text : toString (Int.negSucc m) = "-" ++ toString (m + 1) := rfl
    rw [if_pos (Int.negSucc_lt_zero m), text, String.toList_append, toList_toString]
    rfl

/-- One digit or more that write an integer, behind at most one sign. -/
def IsNumeral (n : Int) (s : String) : Prop :=
  ∃ sign digits, s.toList = sign ++ digits ∧ digits ≠ [] ∧ (∀ c ∈ digits, isDigit c = true) ∧
    ((sign = [] ∨ sign = ['+']) ∧ n = ofDigits digits ∨ sign = ['-'] ∧ n = -ofDigits digits)

theorem isNumeral_toString (n : Int) : IsNumeral n (toString n) := by
  refine ⟨if n < 0 then ['-'] else [], Nat.toDigits 10 n.natAbs, toList_toString_int n,
    Nat.toDigits_ne_nil, fun c => isDigit_toDigits, ?_⟩
  rw [ofDigits_toDigits]
  split
  · exact .inr ⟨rfl, by omega⟩
  · exact .inl ⟨.inl rfl, by omega⟩

variable {n : Int} {s : String}

theorem fitsInt64_iff : fitsInt64 n = true ↔ -(maxInt64 + 1 : Int) ≤ n ∧ n ≤ maxInt64 := by
  rw [fitsInt64, Bool.and_eq_true, decide_eq_true_eq, decide_eq_true_eq]

theorem bits_of_fitsInt64 (h : fitsInt64 n = true) :
    -(maxInt64 + 1 : Int) ≤ n ∧ n ≤ maxWord64 := by
  have wide : maxInt64 ≤ maxWord64 := by decide
  rw [fitsInt64_iff] at h
  omega

theorem signed?_of_isNumeral {low high : Nat} (h : IsNumeral n s) :
    (signed? low high s.toList).toOption =
      if -(low : Int) ≤ n ∧ n ≤ high then some n else none := by
  obtain ⟨sign, digits, text, nonempty, each, value⟩ := h
  obtain ⟨d, ds, rfl⟩ := List.exists_cons_of_ne_nil nonempty
  have upward : ((digitsUpTo high .tooLarge (d :: ds)).map Int.ofNat).toOption =
      if -(low : Int) ≤ ofDigits (d :: ds) ∧ (ofDigits (d :: ds) : Int) ≤ high
      then some (ofDigits (d :: ds) : Int) else none := by
    rw [digitsUpTo_run each]
    split
    · rw [if_pos (by omega)]
      rfl
    · rw [if_neg (by omega)]
      rfl
  obtain ⟨rfl | rfl, rfl⟩ | ⟨rfl, rfl⟩ := value
  · rw [text, List.nil_append, signed?_digits each nonempty, upward]
  · rw [text]
    exact upward
  · have minus : signed? low high s.toList =
        (digitsUpTo low .tooSmall (d :: ds)).map fun n => -Int.ofNat n := by
      rw [text]
      rfl
    rw [minus, digitsUpTo_run each]
    split
    · rw [if_pos (by omega)]
      rfl
    · rw [if_neg (by omega)]
      rfl

/-- A numeral is read as its integer if that is in range, and not read otherwise. -/
theorem int64?_of_isNumeral (h : IsNumeral n s) :
    int64? s = if fitsInt64 n then some n else none := by
  rw [int64?, readInt64, signed?_of_isNumeral h]
  simp only [fitsInt64_iff]
  rfl

theorem isEmpty_of_isNumeral (h : IsNumeral n s) : s.isEmpty = false := by
  obtain ⟨sign, digits, text, nonempty, -⟩ := h
  rw [Bool.eq_false_iff]
  intro empty
  rw [String.isEmpty_iff.mp empty] at text
  exact nonempty (List.append_eq_nil_iff.mp text.symm).2

/-! ## Blanks around a text -/

variable {before after : List Char}

theorem trimChars_blank_append (blank : ∀ c ∈ before, isBlank c = true) :
    trimChars (before ++ cs) = trimChars cs := by
  rw [trimChars, List.dropWhile_append_of_pos blank, trimChars]

theorem trimChars_append_blank (blank : ∀ c ∈ after, isBlank c = true) :
    trimChars (cs ++ after) = trimChars cs := by
  have behind : ∀ c ∈ after.reverse, isBlank c = true :=
    fun c hc => blank c (List.mem_reverse.mp hc)
  rw [trimChars, trimChars, List.dropWhile_append]
  split
  · next none =>
    rw [List.dropWhile_eq_nil_iff.mpr blank, List.isEmpty_iff.mp none]
  · rw [List.reverse_append, List.dropWhile_append_of_pos behind]

/-- What is trimmed off are blanks on both sides. -/
theorem exists_around (cs : List Char) : ∃ before after,
    (∀ c ∈ before, isBlank c = true) ∧ (∀ c ∈ after, isBlank c = true) ∧
      before ++ trimChars cs ++ after = cs := by
  refine ⟨cs.takeWhile isBlank, ((cs.dropWhile isBlank).reverse.takeWhile isBlank).reverse,
    fun c => List.mem_takeWhile_imp,
    fun c hc => List.mem_takeWhile_imp (List.mem_reverse.mp hc), ?_⟩
  rw [trimChars, List.append_assoc, ← List.reverse_append, List.takeWhile_append_dropWhile,
    List.reverse_reverse, List.takeWhile_append_dropWhile]

theorem trimChars_trimChars (cs : List Char) : trimChars (trimChars cs) = trimChars cs := by
  obtain ⟨before, after, hb, ha, around⟩ := exists_around cs
  calc trimChars (trimChars cs)
      = trimChars (before ++ trimChars cs ++ after) := by
        rw [trimChars_append_blank ha, trimChars_blank_append hb]
    _ = trimChars cs := by rw [around]

theorem trimChars_eq_nil_iff : trimChars cs = [] ↔ ∀ c ∈ cs, isBlank c = true := by
  constructor
  · intro h
    obtain ⟨before, after, hb, ha, around⟩ := exists_around cs
    rw [h, List.append_nil] at around
    intro c hc
    rw [← around] at hc
    exact (List.mem_append.mp hc).elim (hb c) (ha c)
  · intro blank
    have trimmed : trimChars (cs ++ []) = trimChars [] := trimChars_blank_append blank
    rwa [List.append_nil] at trimmed

/-- What is left does not begin with a blank. -/
theorem isBlank_head_trimChars {c : Char} (h : (trimChars cs).head? = some c) :
    isBlank c = false := by
  have front : trimChars cs <+: cs.dropWhile isBlank := by
    rw [trimChars, ← List.reverse_suffix, List.reverse_reverse]
    exact List.dropWhile_suffix isBlank
  obtain ⟨rest, trimmed⟩ := List.head?_eq_some_iff.mp h
  obtain ⟨after, whole⟩ := front
  have first := List.head?_dropWhile_not isBlank cs
  rw [← whole, trimmed] at first
  exact first

/-- Blanks inside a text stay. -/
theorem trimChars_of_ends {first last : Char} (hf : isBlank first = false)
    (hl : isBlank last = false) (starts : cs.head? = some first) (ends : cs.getLast? = some last) :
    trimChars cs = cs := by
  have front : cs.dropWhile isBlank = cs := by
    obtain ⟨rest, rfl⟩ := List.head?_eq_some_iff.mp starts
    simp [hf]
  have back : cs.reverse.dropWhile isBlank = cs.reverse := by
    obtain ⟨rest, rfl⟩ := List.getLast?_eq_some_iff.mp ends
    simp [hl]
  rw [trimChars, front, back, List.reverse_reverse]

/-- A text without blanks is left as it is. -/
theorem trimChars_of_solid (solid : ∀ c ∈ cs, isBlank c = false) : trimChars cs = cs := by
  cases cs with
  | nil => rfl
  | cons c rest =>
    have last := List.getLast_mem (List.cons_ne_nil c rest)
    exact trimChars_of_ends (solid c List.mem_cons_self) (solid _ last) rfl
      (List.getLast?_eq_some_getLast _)

end Text

/-! ## Base64 -/

namespace Bytes

/-- A text is read from its own bytes only. -/
theorem toText?_eq_some_iff {bs : Bytes} {s : String} : toText? bs = some s ↔ bs = ofText s := by
  constructor
  · intro h
    rw [toText?, String.fromUTF8?] at h
    split at h
    · cases h
      rfl
    · cases h
  · rintro rfl
    exact toText?_ofText s

/-- Hex spells a byte with two digits. -/
theorem length_ofHexChars? {cs : List Char} {bs : Bytes} (h : ofHexChars? cs = some bs) :
    cs.length = 2 * bs.length := by
  induction cs using ofHexChars?.induct generalizing bs with
  | case1 =>
    cases h
    rfl
  | case2 => cases h
  | case3 c d rest ih =>
    simp only [ofHexChars?, Option.bind_eq_bind, Option.bind_eq_some_iff] at h
    obtain ⟨high, -, low, -, tail, read, same⟩ := h
    cases same
    simp only [List.length_cons, ih read]
    omega

namespace Base64

theorem symbol_solid : ∀ n, n < 64 → Text.isBlank (symbol n) = false := by
  decide

theorem decodeChars?_group {w x y z : Char} (full : z ≠ '=') (rest : List Char) :
    decodeChars? (w :: x :: y :: z :: rest) = do
      let w ← value? w
      let x ← value? x
      let y ← value? y
      let z ← value? z
      let bs ← decodeChars? rest
      return UInt8.ofNat (w * 4 + x / 16) :: UInt8.ofNat (x % 16 * 16 + y / 4) ::
        UInt8.ofNat (y % 4 * 64 + z) :: bs := by
  rw [decodeChars?]
  · exact fun _ pad _ => full pad
  · exact fun pad _ => full pad

theorem ofNat_of_eq {n : Nat} {b : UInt8} (h : n = b.toNat) : UInt8.ofNat n = b :=
  h ▸ UInt8.ofNat_toNat

/-- A symbol and the upper bits of the next one are a byte. -/
theorem first_byte (a : UInt8) (low : Nat) (h : low < 16) :
    UInt8.ofNat (a.toNat / 4 * 4 + (a.toNat % 4 * 16 + low) / 16) = a := by
  have := a.toNat_lt
  exact ofNat_of_eq (by omega)

/-- The halves of a byte in two symbols, beside the bits of its neighbours. -/
theorem second_byte (high : Nat) (b : UInt8) (low : Nat) (h : low < 4) :
    UInt8.ofNat ((high * 16 + b.toNat / 16) % 16 * 16 + (b.toNat % 16 * 4 + low) / 4) = b := by
  have := b.toNat_lt
  exact ofNat_of_eq (by omega)

/-- The lower bits of a symbol and the whole next one are a byte. -/
theorem third_byte (high : Nat) (c : UInt8) :
    UInt8.ofNat ((high * 4 + c.toNat / 64) % 4 * 64 + c.toNat % 64) = c := by
  have := c.toNat_lt
  exact ofNat_of_eq (by omega)

/-- What base64 spells is read back. -/
theorem decodeChars?_encodeChars (bs : Bytes) : decodeChars? (encodeChars bs) = some bs := by
  induction bs using encodeChars.induct with
  | case1 => rfl
  | case2 a =>
    have ha := a.toNat_lt
    have first := first_byte a 0 (by decide)
    have padded : a.toNat % 4 * 16 % 16 = 0 := by omega
    rw [Nat.add_zero] at first
    simp only [encodeChars, decodeChars?, value?_symbol (a.toNat / 4) (by omega),
      value?_symbol (a.toNat % 4 * 16) (by omega), Option.bind_eq_bind, Option.bind_some,
      if_pos padded, first]
  | case3 a b =>
    have ha := a.toNat_lt
    have hb := b.toNat_lt
    have first := first_byte a (b.toNat / 16) (by omega)
    have second := second_byte (a.toNat % 4) b 0 (by decide)
    have padded : b.toNat % 16 * 4 % 4 = 0 := by omega
    rw [Nat.add_zero] at second
    rw [encodeChars, decodeChars?]
    · simp only [value?_symbol (a.toNat / 4) (by omega),
        value?_symbol (a.toNat % 4 * 16 + b.toNat / 16) (by omega),
        value?_symbol (b.toNat % 16 * 4) (by omega), Option.bind_eq_bind, Option.bind_some,
        if_pos padded, first, second]
    · exact symbol_ne_pad _ (by omega)
  | case4 a b c rest ih =>
    have ha := a.toNat_lt
    have hb := b.toNat_lt
    have hc := c.toNat_lt
    rw [encodeChars, decodeChars?_group (symbol_ne_pad (c.toNat % 64) (by omega)), ih]
    simp only [value?_symbol (a.toNat / 4) (by omega),
      value?_symbol (a.toNat % 4 * 16 + b.toNat / 16) (by omega),
      value?_symbol (b.toNat % 16 * 4 + c.toNat / 64) (by omega),
      value?_symbol (c.toNat % 64) (by omega), Option.bind_eq_bind, Option.bind_some,
      first_byte a (b.toNat / 16) (by omega), second_byte _ b (c.toNat / 64) (by omega),
      third_byte]
    rfl

theorem decode?_encode (bs : Bytes) : decode? (encode bs) = some bs := by
  rw [decode?, encode, String.toList_ofList, decodeChars?_encodeChars]

/-- A value belongs to one symbol only. -/
theorem symbol_of_value? {c : Char} {n : Nat} (h : value? c = some n) : n < 64 ∧ symbol n = c := by
  have back {first last : Char} (hc : first ≤ c ∧ c ≤ last) :
      first.toNat + (c.toNat - first.toNat) = c.toNat ∧ c.toNat ≤ last.toNat := by
    have low : first.toNat ≤ c.toNat := hc.1
    exact ⟨by omega, hc.2⟩
  unfold value? at h
  split at h
  · next range =>
    obtain ⟨same, high⟩ := back range
    have few : c.toNat - 'A'.toNat < 26 := by
      have : 'Z'.toNat = 'A'.toNat + 25 := rfl
      omega
    cases h
    refine ⟨by omega, ?_⟩
    rw [symbol, if_pos few, same, Char.ofNat_toNat]
  · split at h
    · next range =>
      obtain ⟨same, high⟩ := back range
      have few : c.toNat - 'a'.toNat < 26 := by
        have : 'z'.toNat = 'a'.toNat + 25 := rfl
        omega
      cases h
      refine ⟨by omega, ?_⟩
      rw [symbol, if_neg (by omega), if_pos (by omega), Nat.add_sub_cancel, same, Char.ofNat_toNat]
    · split at h
      · next range =>
        obtain ⟨same, high⟩ := back range
        have few : c.toNat - '0'.toNat < 10 := by
          have : '9'.toNat = '0'.toNat + 9 := rfl
          omega
        cases h
        refine ⟨by omega, ?_⟩
        rw [symbol, if_neg (by omega), if_neg (by omega), if_pos (by omega), Nat.add_sub_cancel,
          same, Char.ofNat_toNat]
      · split at h
        · next plus =>
          cases h
          exact ⟨by decide, plus ▸ rfl⟩
        · split at h
          · next slash =>
            cases h
            exact ⟨by decide, slash ▸ rfl⟩
          · cases h

theorem toNat_ofNat_of_lt {n : Nat} (h : n < 256) : (UInt8.ofNat n).toNat = n := by
  rw [UInt8.toNat_ofNat']
  exact Nat.mod_eq_of_lt h

/-- Nothing is read but what is spelt in the one way. -/
theorem encodeChars_of_decodeChars? {cs : List Char} {bs : Bytes} (h : decodeChars? cs = some bs) :
    encodeChars bs = cs := by
  induction cs using decodeChars?.induct generalizing bs with
  | case1 =>
    cases h
    rfl
  | case2 w x =>
    simp only [decodeChars?, Option.bind_eq_bind, Option.bind_eq_some_iff] at h
    obtain ⟨wn, hw, xn, hx, h⟩ := h
    obtain ⟨smallW, rfl⟩ := symbol_of_value? hw
    obtain ⟨smallX, rfl⟩ := symbol_of_value? hx
    split at h
    · cases h
      have first := toNat_ofNat_of_lt (n := wn * 4 + xn / 16) (by omega)
      have upper : (wn * 4 + xn / 16) / 4 = wn := by omega
      have lower : (wn * 4 + xn / 16) % 4 * 16 = xn := by omega
      rw [encodeChars, first, upper, lower]
    · cases h
  | case3 w x y full =>
    rw [decodeChars?] at h
    · simp only [Option.bind_eq_bind, Option.bind_eq_some_iff] at h
      obtain ⟨wn, hw, xn, hx, yn, hy, h⟩ := h
      obtain ⟨smallW, rfl⟩ := symbol_of_value? hw
      obtain ⟨smallX, rfl⟩ := symbol_of_value? hx
      obtain ⟨smallY, rfl⟩ := symbol_of_value? hy
      split at h
      · cases h
        have first := toNat_ofNat_of_lt (n := wn * 4 + xn / 16) (by omega)
        have second := toNat_ofNat_of_lt (n := xn % 16 * 16 + yn / 4) (by omega)
        have upper : (wn * 4 + xn / 16) / 4 = wn := by omega
        have middle : (wn * 4 + xn / 16) % 4 * 16 + (xn % 16 * 16 + yn / 4) / 16 = xn := by omega
        have lower : (xn % 16 * 16 + yn / 4) % 16 * 4 = yn := by omega
        rw [encodeChars, first, second, upper, middle, lower]
      · cases h
    · exact full
  | case4 w x y z rest two one ih =>
    rw [decodeChars?] at h
    · simp only [Option.bind_eq_bind, Option.bind_eq_some_iff] at h
      obtain ⟨wn, hw, xn, hx, yn, hy, zn, hz, tail, read, h⟩ := h
      obtain ⟨smallW, rfl⟩ := symbol_of_value? hw
      obtain ⟨smallX, rfl⟩ := symbol_of_value? hx
      obtain ⟨smallY, rfl⟩ := symbol_of_value? hy
      obtain ⟨smallZ, rfl⟩ := symbol_of_value? hz
      cases h
      have first := toNat_ofNat_of_lt (n := wn * 4 + xn / 16) (by omega)
      have second := toNat_ofNat_of_lt (n := xn % 16 * 16 + yn / 4) (by omega)
      have third := toNat_ofNat_of_lt (n := yn % 4 * 64 + zn) (by omega)
      have symbols : (wn * 4 + xn / 16) / 4 = wn ∧
          (wn * 4 + xn / 16) % 4 * 16 + (xn % 16 * 16 + yn / 4) / 16 = xn ∧
          (xn % 16 * 16 + yn / 4) % 16 * 4 + (yn % 4 * 64 + zn) / 64 = yn ∧
          (yn % 4 * 64 + zn) % 64 = zn := by omega
      rw [encodeChars, first, second, third, symbols.1, symbols.2.1, symbols.2.2.1, symbols.2.2.2,
        ih read]
    · exact two
    · exact one
  | case5 cs none two one group =>
    rw [decodeChars?] at h
    · cases h
    · exact none
    · exact two
    · exact one
    · exact group

/-- A byte string is read from its one spelling. -/
theorem decode?_eq_some_iff {s : String} {bs : Bytes} : decode? s = some bs ↔ s = encode bs := by
  constructor
  · intro h
    rw [encode, encodeChars_of_decodeChars? h, String.ofList_toList]
  · rintro rfl
    exact decode?_encode bs

/-- Three bytes are spelt by four characters, and the last ones by four too. -/
theorem length_encodeChars (bs : Bytes) : (encodeChars bs).length = (bs.length + 2) / 3 * 4 := by
  induction bs using encodeChars.induct with
  | case1 => rfl
  | case2 a => simp [encodeChars]
  | case3 a b => simp [encodeChars]
  | case4 a b c rest ih =>
    simp only [encodeChars, List.length_cons, ih]
    omega

/-- Base64 has no blanks. -/
theorem encodeChars_solid (bs : Bytes) : ∀ c ∈ encodeChars bs, Text.isBlank c = false := by
  have pad : Text.isBlank '=' = false := by decide
  induction bs using encodeChars.induct with
  | case1 => exact fun c hc => absurd hc List.not_mem_nil
  | case2 a =>
    have ha := a.toNat_lt
    simp only [encodeChars, List.forall_mem_cons]
    exact ⟨symbol_solid _ (by omega), symbol_solid _ (by omega), pad, pad,
      fun c hc => absurd hc List.not_mem_nil⟩
  | case3 a b =>
    have ha := a.toNat_lt
    have hb := b.toNat_lt
    simp only [encodeChars, List.forall_mem_cons]
    exact ⟨symbol_solid _ (by omega), symbol_solid _ (by omega), symbol_solid _ (by omega), pad,
      fun c hc => absurd hc List.not_mem_nil⟩
  | case4 a b c rest ih =>
    have ha := a.toNat_lt
    have hb := b.toNat_lt
    have hc := c.toNat_lt
    simp only [encodeChars, List.forall_mem_cons]
    exact ⟨symbol_solid _ (by omega), symbol_solid _ (by omega), symbol_solid _ (by omega),
      symbol_solid _ (by omega), ih⟩

theorem trim_encode (bs : Bytes) : Text.trim (encode bs) = encode bs := by
  rw [Text.trim, encode, String.toList_ofList, Text.trimChars_of_solid (encodeChars_solid bs)]

end Base64

end Bytes

/-! ## Keys -/

theorem PublicKey.length_of_ofBytes? {key : Bytes} {hint : String} {k : PublicKey}
    (h : ofBytes? key hint = some k) : key.length = 32 ∨ key.length = 33 := by
  unfold ofBytes? at h
  split at h
  · next short => exact .inl short.2
  · split at h
    · next long => exact .inr long
    · cases h

namespace AddressBook

/-- The base64 of a supported key is read as that key. -/
theorem readKey?_encode (book : AddressBook) {key : Bytes} {hint : String} {k : PublicKey}
    (supported : PublicKey.ofBytes? key hint = some k) :
    book.readKey? (Bytes.Base64.encode key) hint = some k := by
  have length := PublicKey.length_of_ofBytes? supported
  have noHex : (Bytes.ofHex? (Bytes.Base64.encode key)).bind (PublicKey.ofBytes? · hint) = none := by
    cases read : Bytes.ofHex? (Bytes.Base64.encode key) with
    | none => rfl
    | some bs =>
      -- As hex the 44 characters would spell 22 bytes.
      rw [Bytes.ofHex?, Bytes.Base64.encode, String.toList_ofList] at read
      have digits := Bytes.length_ofHexChars? read
      rw [Bytes.Base64.length_encodeChars] at digits
      cases other : PublicKey.ofBytes? bs hint with
      | none => exact other
      | some k' =>
        have := PublicKey.length_of_ofBytes? other
        omega
  rw [readKey?, noHex, Bytes.Base64.decode?_encode, Option.bind_some, supported]
  rfl

/-- A supported key has the same address in base64 as in bytes. -/
theorem ofKeyText_encode (book : AddressBook) {key : Bytes} {hint : String} {k : PublicKey}
    (supported : PublicKey.ofBytes? key hint = some k) :
    book.ofKeyText (Bytes.Base64.encode key) hint = book.ofKeyBytes key hint := by
  simp only [ofKeyText, Bytes.Base64.trim_encode, book.readKey?_encode supported, ofKeyBytes,
    supported]

end AddressBook

end ChainIndex
