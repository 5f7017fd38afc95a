/-
Lists of coins in texts. A coin is written as a plain decimal and a denomination with blanks
around the two, and a list as such texts with commas between them. What is written so is read
as the same coins in the same order, amounts of any length without loss, and nothing else is
read: a text that is not blank is a list only if it is written so.
-/
import ChainIndex.Proofs.PlainDecimal

namespace ChainIndex

/-! ## Parts between commas -/

namespace Coin

variable {before after : List Char}

theorem splitCommas_eq (cs : List Char) : splitCommas cs = cs.splitOn ',' := by
  induction cs with
  | nil => rfl
  | cons c cs ih =>
    rw [splitCommas, ih, List.splitOn_cons_eq_if_modifyHead]
    by_cases comma : c = ','
    · simp [comma]
    · cases parts : cs.splitOn ',' with
      | nil => exact absurd parts (List.splitOn_ne_nil _ _)
      | cons part parts => simp [comma]

theorem noComma_of_blank {cs : List Char} (blank : ∀ c ∈ cs, Text.isBlank c = true) : ',' ∉ cs := by
  intro there
  have := blank ',' there
  revert this
  decide

/-- What stands before a text is in its first part. -/
theorem splitOn_append_left (before cs : List Char) (noComma : ',' ∉ before) :
    (before ++ cs).splitOn ',' = (cs.splitOn ',').modifyHead (before ++ ·) := by
  induction before with
  | nil =>
    rw [List.nil_append]
    cases cs.splitOn ',' <;> rfl
  | cons c before ih =>
    obtain ⟨other, rest⟩ := not_or.mp (List.mem_cons.not.mp noComma)
    have apart : (c == ',') = false := beq_eq_false_iff_ne.mpr (Ne.symm other)
    rw [List.cons_append, List.splitOn_cons_eq_if_modifyHead, apart, if_neg Bool.false_ne_true,
      ih rest, List.modifyHead_modifyHead]
    rfl

/-- What stands behind a text is in its last part. -/
theorem splitOn_append_right (cs : List Char) (noComma : ',' ∉ after) : ∃ parts last,
    cs.splitOn ',' = parts ++ [last] ∧ (cs ++ after).splitOn ',' = parts ++ [last ++ after] := by
  induction cs with
  | nil => exact ⟨[], [], rfl, List.splitOn_eq_singleton noComma⟩
  | cons c cs ih =>
    obtain ⟨parts, last, whole, longer⟩ := ih
    rw [List.cons_append, List.splitOn_cons_eq_if_modifyHead, List.splitOn_cons_eq_if_modifyHead,
      whole, longer]
    split
    · exact ⟨[] :: parts, last, rfl, rfl⟩
    · cases parts with
      | nil => exact ⟨[], c :: last, rfl, rfl⟩
      | cons part parts => exact ⟨(c :: part) :: parts, last, rfl, rfl⟩

/-- The blanks around a text are at the ends of its parts. -/
theorem map_trimChars_splitOn (cs : List Char) :
    ((Text.trimChars cs).splitOn ',').map Text.trimChars =
      (cs.splitOn ',').map Text.trimChars := by
  obtain ⟨before, after, hb, ha, around⟩ := Text.exists_around cs
  obtain ⟨parts, last, whole, longer⟩ :=
    splitOn_append_right (before ++ Text.trimChars cs) (noComma_of_blank ha)
  rw [around] at longer
  have back : (cs.splitOn ',').map Text.trimChars =
      ((before ++ Text.trimChars cs).splitOn ',').map Text.trimChars := by
    rw [longer, whole, List.map_append, List.map_append, List.map_singleton, List.map_singleton,
      Text.trimChars_append_blank ha]
  rw [back, splitOn_append_left _ _ (noComma_of_blank hb)]
  cases (Text.trimChars cs).splitOn ',' with
  | nil => rfl
  | cons part parts =>
    rw [List.modifyHead_cons, List.map_cons, List.map_cons, Text.trimChars_blank_append hb]

/-- Blanks around a part do not count. -/
theorem ofPart_trimChars (part : List Char) : ofPart (Text.trimChars part) = ofPart part := by
  rw [ofPart, Text.trimChars_trimChars, ofPart]

theorem mapM_ofPart_splitOn (cs : List Char) :
    ((Text.trimChars cs).splitOn ',').mapM ofPart = (cs.splitOn ',').mapM ofPart := by
  have trimmed (parts : List (List Char)) :
      parts.mapM ofPart = (parts.map Text.trimChars).mapM ofPart := by
    rw [List.mapM_map]
    exact congrArg (parts.mapM ·) (funext fun part => (ofPart_trimChars part).symm)
  rw [trimmed, map_trimChars_splitOn, ← trimmed]

/-- A text that is not blank has one coin in each of its parts. -/
theorem listOfChars_eq (cs : List Char) : listOfChars cs =
    if cs.all Text.isBlank then .ok [] else (cs.splitOn ',').mapM ofPart := by
  have blank : (Text.trimChars cs).isEmpty = cs.all Text.isBlank := by
    rw [Bool.eq_iff_iff, List.isEmpty_iff, Text.trimChars_eq_nil_iff, List.all_eq_true]
  rw [listOfChars, splitCommas_eq, mapM_ofPart_splitOn]
  exact if_congr (by rw [blank]) rfl rfl

end Coin

/-! ## Written coins -/

/-- A coin as it may stand in a list. -/
structure WrittenCoin where
  before : List Char
  amount : PlainDecimal
  between : List Char
  denom : String
  after : List Char
  blank : ∀ c ∈ before ++ between ++ after, Text.isBlank c = true
  valid : Coin.isDenom denom = true

namespace WrittenCoin

def chars (w : WrittenCoin) : List Char :=
  w.before ++ (w.amount.chars ++ (w.between ++ w.denom.toList)) ++ w.after

/-- The coin that is read. -/
def coin (w : WrittenCoin) : Coin := ⟨w.amount.decimal, w.denom⟩

/-- Coins with commas between them. -/
def listChars (ws : List WrittenCoin) : List Char :=
  [','].intercalate (ws.map chars)

variable (w : WrittenCoin)

theorem blank_before : ∀ c ∈ w.before, Text.isBlank c = true :=
  fun c hc => w.blank c (List.mem_append_left _ (List.mem_append_left _ hc))

theorem blank_between : ∀ c ∈ w.between, Text.isBlank c = true :=
  fun c hc => w.blank c (List.mem_append_left _ (List.mem_append_right _ hc))

theorem blank_after : ∀ c ∈ w.after, Text.isBlank c = true :=
  fun c hc => w.blank c (List.mem_append_right _ hc)

end WrittenCoin

namespace Coin

/-- The characters of a denomination. -/
theorem isDenom_iff {denom : String} : isDenom denom = true ↔ ∃ first rest,
    denom.toList = first :: rest ∧ isLetter first = true ∧ (∀ c ∈ rest, isDenomChar c = true) ∧
      1 ≤ rest.length ∧ rest.length ≤ 127 := by
  rw [isDenom]
  cases denom.toList with
  | nil => simp
  | cons first rest => simp [and_assoc]

theorem solid_of_denomChar {c : Char} (h : isDenomChar c = true) : Text.isBlank c = false := by
  have inRange {first last : Char} (range : first ≤ c ∧ c ≤ last) (low : 33 ≤ first.toNat)
      (high : last.toNat ≤ 126) : 33 ≤ c.toNat ∧ c.toNat ≤ 126 :=
    ⟨le_trans low range.1, le_trans range.2 high⟩
  have visible : 33 ≤ c.toNat ∧ c.toNat ≤ 126 := by
    simp only [isDenomChar, isLetter, Text.isDigit, Bool.or_eq_true, Bool.and_eq_true,
      decide_eq_true_eq, beq_iff_eq] at h
    rcases h with (((((letter | digit) | rfl) | rfl) | rfl) | rfl) | rfl
    · exact letter.elim (inRange · (by decide) (by decide)) (inRange · (by decide) (by decide))
    · exact inRange digit (by decide) (by decide)
    all_goals decide
  simp only [Text.isBlank, Bool.or_eq_false_iff, Bool.and_eq_false_iff, decide_eq_false_iff_not,
    beq_eq_false_iff_ne]
  omega

theorem denomChar_of_amountChar {c : Char} (h : isAmountChar c = true) : isDenomChar c = true := by
  rw [isAmountChar, Bool.or_eq_true] at h
  simp only [isDenomChar, Bool.or_eq_true]
  tauto

/-- An amount ends where the letters of a denomination begin. -/
theorem amountChar_of_letter {c : Char} (h : isLetter c = true) : isAmountChar c = false := by
  have high : 'A'.toNat ≤ c.toNat := by
    simp only [isLetter, Bool.or_eq_true, Bool.and_eq_true, decide_eq_true_eq] at h
    exact h.elim (fun small => le_trans (by decide) small.1) fun capital => capital.1
  rw [Bool.eq_false_iff]
  intro amount
  simp only [isAmountChar, Text.isDigit, Bool.or_eq_true, Bool.and_eq_true, decide_eq_true_eq,
    beq_iff_eq] at amount
  have low : c.toNat ≤ '9'.toNat :=
    amount.elim (fun digit => digit.2) fun point => point ▸ by decide
  exact absurd (le_trans high low) (by decide)

theorem denomChars_of_isDenom {denom : String} (h : isDenom denom = true) :
    ∀ c ∈ denom.toList, isDenomChar c = true := by
  obtain ⟨first, rest, chars, letter, others, -⟩ := isDenom_iff.mp h
  rw [chars, List.forall_mem_cons]
  exact ⟨by simp [isDenomChar, letter], others⟩

/-- A coin of two texts is a decimal and a denomination. -/
theorem ofParts_eq_ok_iff {amount denom : String} {c : Coin} : ofParts amount denom = .ok c ↔
    Decimal.ofChars? (Text.trimChars amount.toList) = .ok c.amount ∧ isDenom denom = true ∧
      c.denom = denom := by
  have parsed : Decimal.parse? (Text.trim amount) =
      Decimal.ofChars? (Text.trimChars amount.toList) := by
    rw [Decimal.parse?, Text.trim, String.toList_ofList]
  rw [ofParts, parsed]
  cases read : Decimal.ofChars? (Text.trimChars amount.toList) with
  | error e =>
    refine iff_of_false (fun h => ?_) fun h => ?_
    · cases h
    · cases h.1
  | ok value =>
    rw [mapError_bind_of_ok rfl]
    obtain ⟨amount', denom'⟩ := c
    split
    · next valid =>
      simp only [Except.ok.injEq, Coin.mk.injEq, valid, true_and]
      exact and_congr_right fun _ => eq_comm
    · next invalid =>
      refine iff_of_false (fun h => ?_) fun h => invalid h.2.1
      cases h

end Coin

namespace WrittenCoin

variable (w : WrittenCoin)

theorem solid_amount : ∀ c ∈ w.amount.chars, Text.isBlank c = false :=
  fun c hc => Coin.solid_of_denomChar
    (Coin.denomChar_of_amountChar (w.amount.isAmountChar_chars c hc))

theorem solid_denom : ∀ c ∈ w.denom.toList, Text.isBlank c = false :=
  fun c hc => Coin.solid_of_denomChar (Coin.denomChars_of_isDenom w.valid c hc)

theorem denom_ne_nil : w.denom.toList ≠ [] := by
  obtain ⟨first, rest, chars, -⟩ := Coin.isDenom_iff.mp w.valid
  rw [chars]
  exact List.cons_ne_nil _ _

theorem trimChars_chars : Text.trimChars w.chars =
    w.amount.chars ++ (w.between ++ w.denom.toList) := by
  obtain ⟨first, rest, amount⟩ := List.exists_cons_of_ne_nil w.amount.chars_ne_nil
  have last := List.getLast?_eq_some_getLast w.denom_ne_nil
  have hf : Text.isBlank first = false := w.solid_amount first (amount ▸ List.mem_cons_self)
  have hl : Text.isBlank (w.denom.toList.getLast w.denom_ne_nil) = false :=
    w.solid_denom _ (List.getLast_mem _)
  rw [chars, Text.trimChars_append_blank w.blank_after, Text.trimChars_blank_append w.blank_before]
  refine Text.trimChars_of_ends hf hl ?_ ?_
  · rw [amount]
    rfl
  · rw [← List.append_assoc, List.getLast?_append, last]
    rfl

/-- Behind the amount stands no character of an amount. -/
theorem amount_ends : (w.between ++ w.denom.toList).takeWhile Coin.isAmountChar = [] ∧
    (w.between ++ w.denom.toList).dropWhile Coin.isAmountChar = w.between ++ w.denom.toList := by
  have ends {c : Char} {cs : List Char} (h : Coin.isAmountChar c = false) :
      (c :: cs).takeWhile Coin.isAmountChar = [] ∧
        (c :: cs).dropWhile Coin.isAmountChar = c :: cs := by
    simp [h]
  cases blanks : w.between with
  | nil =>
    obtain ⟨first, rest, denom, letter, -⟩ := Coin.isDenom_iff.mp w.valid
    rw [denom]
    exact ends (Coin.amountChar_of_letter letter)
  | cons c between =>
    have blank := w.blank_between c (blanks ▸ List.mem_cons_self)
    refine ends (Bool.eq_false_iff.mpr fun amount => ?_)
    rw [Coin.solid_of_denomChar (Coin.denomChar_of_amountChar amount)] at blank
    cases blank

/-- **A written coin is read.** -/
theorem ofPart_chars : Coin.ofPart w.chars = .ok w.coin := by
  have amount : (w.amount.chars ++ (w.between ++ w.denom.toList)).takeWhile Coin.isAmountChar =
      w.amount.chars := by
    rw [List.takeWhile_append_of_pos w.amount.isAmountChar_chars, w.amount_ends.1, List.append_nil]
  have rest : (w.amount.chars ++ (w.between ++ w.denom.toList)).dropWhile Coin.isAmountChar =
      w.between ++ w.denom.toList := by
    rw [List.dropWhile_append_of_pos w.amount.isAmountChar_chars, w.amount_ends.2]
  have denom : Text.trimChars (w.between ++ w.denom.toList) = w.denom.toList := by
    rw [Text.trimChars_blank_append w.blank_between, Text.trimChars_of_solid w.solid_denom]
  rw [Coin.ofPart, w.trimChars_chars, amount, rest, denom, String.ofList_toList,
    if_neg (by simp [w.denom_ne_nil]), if_neg (by simp [w.amount.chars_ne_nil])]
  refine Coin.ofParts_eq_ok_iff.mpr ⟨?_, w.valid, rfl⟩
  rw [String.toList_ofList, Text.trimChars_of_solid w.solid_amount]
  exact (Decimal.ofChars?_eq_ok_iff w.amount.isAmountChar_chars).mpr ⟨w.amount, rfl, rfl⟩

end WrittenCoin

namespace Coin

/-- **A part of a list is a coin exactly if one is written there.** -/
theorem ofPart_eq_ok_iff {part : List Char} {c : Coin} :
    ofPart part = .ok c ↔ ∃ w : WrittenCoin, w.chars = part ∧ w.coin = c := by
  refine ⟨fun h => ?_, ?_⟩
  · obtain ⟨before, after, hb, ha, around⟩ := Text.exists_around part
    rw [ofPart] at h
    split at h
    · cases h
    split at h
    · cases h
    obtain ⟨read, valid, denom⟩ := ofParts_eq_ok_iff.mp h
    have plain : ∀ c ∈ (Text.trimChars part).takeWhile isAmountChar, isAmountChar c = true :=
      fun c => List.mem_takeWhile_imp
    rw [String.toList_ofList, Text.trimChars_of_solid fun c hc =>
      solid_of_denomChar (denomChar_of_amountChar (plain c hc))] at read
    obtain ⟨amount, text, value⟩ := (Decimal.ofChars?_eq_ok_iff plain).mp read
    obtain ⟨between, behind, hbt, hbh, inside⟩ :=
      Text.exists_around ((Text.trimChars part).dropWhile isAmountChar)
    have blank : ∀ c ∈ before ++ between ++ (behind ++ after), Text.isBlank c = true := by
      simp only [List.forall_mem_append]
      exact ⟨⟨hb, hbt⟩, hbh, ha⟩
    refine ⟨⟨before, amount, between, c.denom, behind ++ after, blank, denom ▸ valid⟩, ?_, ?_⟩
    · calc before ++ (amount.chars ++ (between ++ c.denom.toList)) ++ (behind ++ after)
          = before ++ (amount.chars ++ (between ++ c.denom.toList ++ behind)) ++ after := by
            simp only [List.append_assoc]
        _ = before ++ Text.trimChars part ++ after := by
            rw [denom, String.toList_ofList, inside, text, List.takeWhile_append_dropWhile]
        _ = part := around
    · rw [WrittenCoin.coin, value]
  · rintro ⟨w, rfl, rfl⟩
    exact w.ofPart_chars

/-! ## Written lists -/

theorem noComma_of_denomChar {c : Char} (h : isDenomChar c = true) : c ≠ ',' := by
  rintro rfl
  revert h
  decide

end Coin

namespace WrittenCoin

theorem noComma (w : WrittenCoin) : ',' ∉ w.chars := by
  simp only [chars, List.mem_append, not_or]
  refine ⟨⟨Coin.noComma_of_blank w.blank_before, ?_, Coin.noComma_of_blank w.blank_between, ?_⟩,
    Coin.noComma_of_blank w.blank_after⟩
  · exact fun h => Coin.noComma_of_denomChar
      (Coin.denomChar_of_amountChar (w.amount.isAmountChar_chars _ h)) rfl
  · exact fun h => Coin.noComma_of_denomChar (Coin.denomChars_of_isDenom w.valid _ h) rfl

theorem exists_solid (w : WrittenCoin) : ∃ c ∈ w.chars, Text.isBlank c = false := by
  obtain ⟨first, rest, amount⟩ := List.exists_cons_of_ne_nil w.amount.chars_ne_nil
  have there : first ∈ w.amount.chars := amount ▸ List.mem_cons_self
  refine ⟨first, ?_, w.solid_amount first there⟩
  exact List.mem_append_left _ (List.mem_append_right _ (List.mem_append_left _ there))

theorem splitOn_listChars {ws : List WrittenCoin} (some : ws ≠ []) :
    (listChars ws).splitOn ',' = ws.map chars := by
  refine List.splitOn_intercalate ',' (fun part there => ?_) (by simpa using some)
  obtain ⟨w, -, rfl⟩ := List.mem_map.mp there
  exact w.noComma

theorem not_blank_listChars {ws : List WrittenCoin} (some : ws ≠ []) :
    (listChars ws).all Text.isBlank = false := by
  obtain ⟨w, ws, rfl⟩ := List.exists_cons_of_ne_nil some
  obtain ⟨c, there, solid⟩ := w.exists_solid
  have inside : c ∈ listChars (w :: ws) := by
    cases ws with
    | nil => simpa [listChars] using there
    | cons w' ws =>
      rw [listChars, List.map_cons, List.map_cons, List.intercalate_cons_cons, List.append_assoc]
      exact List.mem_append_left _ there
  rw [List.all_eq_false]
  exact ⟨c, inside, by simp [solid]⟩

end WrittenCoin

namespace Coin

/-- Each part is written by one of the coins, in order. -/
theorem mapM_ofPart_eq_ok_iff {parts : List (List Char)} {coins : List Coin} :
    parts.mapM ofPart = .ok coins ↔ ∃ ws : List WrittenCoin,
      ws.map WrittenCoin.chars = parts ∧ ws.map WrittenCoin.coin = coins := by
  constructor
  · intro h
    have each := mapM_eq_ok_iff.mp h
    clear h
    induction each with
    | nil => exact ⟨[], rfl, rfl⟩
    | cons head _ ih =>
      obtain ⟨w, rfl, rfl⟩ := ofPart_eq_ok_iff.mp head
      obtain ⟨ws, rfl, rfl⟩ := ih
      exact ⟨w :: ws, rfl, rfl⟩
  · rintro ⟨ws, rfl, rfl⟩
    exact mapM_map_eq_pure fun w _ => w.ofPart_chars

/-- **A text is a list of coins exactly if it is blank or written coins with commas between
them.** -/
theorem parseList_eq_ok_iff {s : String} {coins : List Coin} : parseList s = .ok coins ↔
    (∀ c ∈ s.toList, Text.isBlank c = true) ∧ coins = [] ∨
      ∃ ws : List WrittenCoin, ws ≠ [] ∧ WrittenCoin.listChars ws = s.toList ∧
        ws.map WrittenCoin.coin = coins := by
  rw [parseList, listOfChars_eq]
  split
  · next blank =>
    constructor
    · intro h
      cases h
      exact .inl ⟨List.all_eq_true.mp blank, rfl⟩
    · rintro (⟨-, rfl⟩ | ⟨ws, some, text, -⟩)
      · rfl
      · rw [← text, WrittenCoin.not_blank_listChars some] at blank
        cases blank
  · next solid =>
    rw [mapM_ofPart_eq_ok_iff]
    constructor
    · rintro ⟨ws, parts, coins⟩
      refine .inr ⟨ws, ?_, ?_, coins⟩
      · rintro rfl
        exact List.splitOn_ne_nil _ _ parts.symm
      · rw [WrittenCoin.listChars, parts, List.intercalate_splitOn]
    · rintro (⟨blank, -⟩ | ⟨ws, some, text, coins⟩)
      · exact absurd (List.all_eq_true.mpr blank) solid
      · exact ⟨ws, by rw [← text, WrittenCoin.splitOn_listChars some], coins⟩

end Coin

/-! ## Coins in their own writing -/

namespace WrittenCoin

/-- A coin in the decimal notation of its amount, with blanks around it. -/
theorem exists_written {c : Coin} (nonneg : 0 ≤ c.amount.value)
    (valid : Coin.isDenom c.denom = true) {before after : String}
    (hb : ∀ d ∈ before.toList, Text.isBlank d = true)
    (ha : ∀ d ∈ after.toList, Text.isBlank d = true) : ∃ w : WrittenCoin,
      w.chars = (before ++ c.amount.render ++ c.denom ++ after).toList ∧ w.denom = c.denom ∧
        w.amount.value = c.amount.value := by
  have digits : 0 ≤ c.amount.digits := by
    have := nonneg_of_mul_nonneg_left nonneg (Decimal.ten_zpow_pos (-c.amount.scale))
    exact_mod_cast this
  obtain ⟨amount, text, value⟩ := Decimal.exists_plain_of_render digits
  refine ⟨⟨before.toList, amount, [], c.denom, after.toList, ?_, valid⟩, ?_, rfl, value⟩
  · simp only [List.append_nil, List.forall_mem_append]
    exact ⟨hb, ha⟩
  · simp [chars, text]

/-- Coins in their own notation, one for each. -/
theorem exists_written_list {given : List Coin}
    (fine : ∀ c ∈ given, 0 ≤ c.amount.value ∧ Coin.isDenom c.denom = true) {before after : String}
    (hb : ∀ d ∈ before.toList, Text.isBlank d = true)
    (ha : ∀ d ∈ after.toList, Text.isBlank d = true) : ∃ ws : List WrittenCoin,
      String.ofList (listChars ws) =
        ",".intercalate (given.map fun c => before ++ c.amount.render ++ c.denom ++ after) ∧
      List.Forall₂ (fun c w => w.denom = c.denom ∧ w.amount.value = c.amount.value) given ws := by
  have each : ∃ ws : List WrittenCoin,
      ws.map chars = given.map (fun c => (before ++ c.amount.render ++ c.denom ++ after).toList) ∧
      List.Forall₂ (fun c w => w.denom = c.denom ∧ w.amount.value = c.amount.value) given ws := by
    induction given with
    | nil => exact ⟨[], rfl, .nil⟩
    | cons c given ih =>
      obtain ⟨⟨nonneg, valid⟩, others⟩ := List.forall_mem_cons.mp fine
      obtain ⟨w, text, same⟩ := exists_written nonneg valid hb ha
      obtain ⟨ws, texts, alike⟩ := ih others
      exact ⟨w :: ws, by rw [List.map_cons, List.map_cons, text, texts], .cons same alike⟩
  obtain ⟨ws, texts, alike⟩ := each
  refine ⟨ws, String.toList_inj.mp ?_, alike⟩
  rw [String.toList_ofList, String.toList_intercalate, listChars, texts, List.map_map]
  rfl

/-- What is written is read, in order and of the same value. -/
theorem parseList_listChars (ws : List WrittenCoin) :
    Coin.parseList (String.ofList (listChars ws)) = .ok (ws.map coin) := by
  rw [Coin.parseList_eq_ok_iff, String.toList_ofList]
  cases ws with
  | nil => exact .inl ⟨by simp [listChars], rfl⟩
  | cons w ws => exact .inr ⟨w :: ws, List.cons_ne_nil _ _, rfl, rfl⟩

end WrittenCoin

namespace Coin

/-- **Coin lists are read exactly.** Coins whose amounts are plain decimals of any length,
joined with their denominations and separated by commas, are read back in order with amounts
of the same values, whatever blanks stand around the commas; so are coins in the notation
of their own amounts, and a blank text is the empty list. Of a list that is read no amount
is negative and every denomination is valid, and it has one coin for each part between
commas, none if the text is blank. -/
theorem lists_parse_exactly :
    (∀ ws : List WrittenCoin, ∃ coins,
      parseList (String.ofList (WrittenCoin.listChars ws)) = .ok coins ∧
      List.Forall₂ (fun w c => c.denom = w.denom ∧ c.amount.value = w.amount.value) ws coins) ∧
    (∀ given : List Coin, (∀ c ∈ given, 0 ≤ c.amount.value ∧ isDenom c.denom = true) →
      ∀ before after : String, (∀ d ∈ before.toList ++ after.toList, Text.isBlank d = true) →
      ∃ coins, parseList (",".intercalate (given.map fun c =>
          before ++ c.amount.render ++ c.denom ++ after)) = .ok coins ∧
        List.Forall₂ (fun c c' => c'.denom = c.denom ∧ c'.amount.value = c.amount.value)
          given coins) ∧
    (∀ s, (∀ d ∈ s.toList, Text.isBlank d = true) → parseList s = .ok []) ∧
    ∀ s coins, parseList s = .ok coins →
      (∀ c ∈ coins, 0 ≤ c.amount.value ∧ isDenom c.denom = true) ∧
        coins.length = if s.toList.all Text.isBlank then 0 else (s.toList.splitOn ',').length := by
  have same (ws : List WrittenCoin) : List.Forall₂
      (fun w c => c.denom = w.denom ∧ c.amount.value = w.amount.value) ws
      (ws.map WrittenCoin.coin) := by
    rw [List.forall₂_map_right_iff, List.forall₂_same]
    exact fun w _ => ⟨rfl, w.amount.value_decimal⟩
  refine ⟨fun ws => ⟨_, WrittenCoin.parseList_listChars ws, same ws⟩, ?_, ?_, ?_⟩
  · intro given fine before after blank
    obtain ⟨hb, ha⟩ := List.forall_mem_append.mp blank
    obtain ⟨ws, text, alike⟩ := WrittenCoin.exists_written_list fine hb ha
    refine ⟨_, text ▸ WrittenCoin.parseList_listChars ws, ?_⟩
    rw [List.forall₂_map_right_iff]
    exact alike.imp fun c w h => ⟨h.1, w.amount.value_decimal.trans h.2⟩
  · exact fun s blank => parseList_eq_ok_iff.mpr (.inl ⟨blank, rfl⟩)
  · intro s coins read
    rcases parseList_eq_ok_iff.mp read with ⟨blank, rfl⟩ | ⟨ws, some, text, rfl⟩
    · rw [if_pos (List.all_eq_true.mpr blank)]
      exact ⟨fun c h => absurd h List.not_mem_nil, rfl⟩
    · rw [← text, WrittenCoin.not_blank_listChars some, WrittenCoin.splitOn_listChars some,
        if_neg Bool.false_ne_true, List.length_map, List.length_map]
      refine ⟨fun c there => ?_, rfl⟩
      obtain ⟨w, -, rfl⟩ := List.mem_map.mp there
      exact ⟨w.amount.value_decimal.symm ▸ w.amount.value_nonneg, w.valid⟩

/-- Amounts with and without a fraction and one longer than any machine word, beside
denominations that begin like an exponent or hold points, slashes and digits. -/
def oddCoins : List Coin :=
  [⟨⟨15, 1⟩, "e5"⟩, ⟨⟨123456789012345678901234567890, -2⟩, "ibc/27.3"⟩, ⟨⟨5, 3⟩, "Eth"⟩]

def oddText : String :=
  " 1.5e5\t, 12345678901234567890123456789000ibc/27.3\t, 0.005Eth\t"

theorem lists_parse_exactly_oddCoins :
    (∀ c ∈ oddCoins, 0 ≤ c.amount.value ∧ isDenom c.denom = true) ∧
    (∃ coins, parseList oddText = .ok coins ∧
      List.Forall₂ (fun c c' => c'.denom = c.denom ∧ c'.amount.value = c.amount.value)
        oddCoins coins ∧
      coins.length = (oddText.toList.splitOn ',').length) ∧
    parseList " \n" = .ok [] := by
  obtain ⟨-, own, blank, converse⟩ := lists_parse_exactly
  have fine : ∀ c ∈ oddCoins, 0 ≤ c.amount.value ∧ isDenom c.denom = true := by
    have valid : ∀ c ∈ oddCoins, 0 ≤ c.amount.digits ∧ isDenom c.denom = true := by decide
    exact fun c hc => ⟨Decimal.value_nonneg (valid c hc).1, (valid c hc).2⟩
  have text : ",".intercalate (oddCoins.map fun c => " " ++ c.amount.render ++ c.denom ++ "\t") =
      oddText := by
    decide +kernel
  have blanks : ∀ d ∈ " ".toList ++ "\t".toList, Text.isBlank d = true :=
    List.all_eq_true.mp (by decide)
  obtain ⟨coins, read, same⟩ := own oddCoins fine " " "\t" blanks
  rw [text] at read
  refine ⟨fine, ⟨coins, read, same, ?_⟩, blank " \n" (List.all_eq_true.mp (by decide))⟩
  have solid : oddText.toList.all Text.isBlank = false := by decide
  rw [(converse oddText coins read).2, solid, if_neg Bool.false_ne_true]

end Coin

end ChainIndex
