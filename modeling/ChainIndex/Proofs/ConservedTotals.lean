/-
A multi-send conserves value. Its handler compares two tables of sums, from which coins of
nothing are left out. If no amount is negative, a denomination is in a table exactly if its
sum is not zero, so the tables are equal exactly if the sums of every denomination are; and
what is then stored is one entry for each coin that an output receives, in order, which add
up to what the inputs gave.
-/
import ChainIndex.Handler.Message
import ChainIndex.Proofs.DecimalValue
import ChainIndex.Proofs.Outcomes
import Mathlib.Algebra.BigOperators.Group.List.Lemmas
import Mathlib.Algebra.Order.BigOperators.Group.List
import Mathlib.Data.String.Basic
import Mathlib.Tactic.Linarith

namespace ChainIndex

open Wire (CoinText)

/-! ## Sums by denomination -/

section

variable {α β : Type} {denomOf : α → String} {valueOf : α → ℚ} {denom : String} {xs : List α}

/-- The sum of the values of one denomination. -/
def totalIn (denomOf : α → String) (valueOf : α → ℚ) (denom : String) (xs : List α) : ℚ :=
  (xs.map fun x => if denomOf x = denom then valueOf x else 0).sum

@[simp] theorem totalIn_nil : totalIn denomOf valueOf denom [] = 0 := rfl

@[simp] theorem totalIn_cons (x : α) : totalIn denomOf valueOf denom (x :: xs) =
    (if denomOf x = denom then valueOf x else 0) + totalIn denomOf valueOf denom xs := by
  simp [totalIn]

/-- What is passed over is worth nothing, and the rest keeps its denomination and its value. -/
theorem totalIn_filterMap {f : α → Option β} {denomOf' : β → String} {valueOf' : β → ℚ}
    (none : ∀ x ∈ xs, f x = none → valueOf x = 0)
    (some : ∀ x ∈ xs, ∀ y, f x = some y → denomOf' y = denomOf x ∧ valueOf' y = valueOf x) :
    totalIn denomOf' valueOf' denom (xs.filterMap f) = totalIn denomOf valueOf denom xs := by
  induction xs with
  | nil => rfl
  | cons x xs ih =>
    have rest := ih (fun y hy => none y (List.mem_cons_of_mem x hy))
      fun y hy => some y (List.mem_cons_of_mem x hy)
    cases kept : f x with
    | none => simp [List.filterMap_cons_none kept, rest, none x List.mem_cons_self kept]
    | some y =>
      obtain ⟨sameDenom, sameValue⟩ := some x List.mem_cons_self y kept
      simp [List.filterMap_cons_some kept, rest, sameDenom, sameValue]

theorem totalIn_filter (xs : List α) : totalIn denomOf valueOf denom (xs.filter (valueOf · ≠ 0)) =
    totalIn denomOf valueOf denom xs := by
  rw [← List.filterMap_eq_filter]
  refine totalIn_filterMap (fun x _ dropped => ?_) fun x _ y kept => ?_
  · simpa [Option.guard] using dropped
  · obtain rfl : x = y := (by simpa [Option.guard] using kept : valueOf x ≠ 0 ∧ x = y).2
    exact ⟨rfl, rfl⟩

theorem totalIn_of_forall₂ {denomOf' : β → String} {valueOf' : β → ℚ} {ys : List β}
    (same : List.Forall₂ (fun x y => denomOf' y = denomOf x ∧ valueOf' y = valueOf x) xs ys) :
    totalIn denomOf' valueOf' denom ys = totalIn denomOf valueOf denom xs := by
  induction same with
  | nil => rfl
  | cons first _ ih => simp [first, ih]

theorem totalIn_pos (positive : ∀ x ∈ xs, 0 < valueOf x) (there : ∃ x ∈ xs, denomOf x = denom) :
    0 < totalIn denomOf valueOf denom xs := by
  have nonneg (ys : List α) (h : ∀ y ∈ ys, 0 < valueOf y) :
      0 ≤ totalIn denomOf valueOf denom ys := by
    refine List.sum_nonneg fun v hv => ?_
    obtain ⟨y, hy, rfl⟩ := List.mem_map.mp hv
    split
    · exact (h y hy).le
    · exact le_rfl
  obtain ⟨x, hx, same⟩ := there
  obtain ⟨before, after, rfl⟩ := List.append_of_mem hx
  have whole : totalIn denomOf valueOf denom (before ++ x :: after) =
      totalIn denomOf valueOf denom before + (valueOf x + totalIn denomOf valueOf denom after) := by
    simp [totalIn, same]
  have first := nonneg before fun y hy => positive y (by simp [hy])
  have last := nonneg after fun y hy => positive y (by simp [hy])
  have here := positive x hx
  rw [whole]
  linarith

theorem totalIn_eq_zero (absent : ∀ x ∈ xs, denomOf x ≠ denom) :
    totalIn denomOf valueOf denom xs = 0 := by
  refine List.sum_eq_zero fun v hv => ?_
  obtain ⟨x, hx, rfl⟩ := List.mem_map.mp hv
  exact if_neg (absent x hx)

end

/-! ## Tables of sums -/

namespace MessageHandler.Totals

/-- What a table has for a denomination. -/
def sumOf (denom : String) (t : Totals) : ℚ := totalIn (·.1) (·.2.value) denom t

/-- A table in ascending order, in which every sum is positive. -/
structure Positive (t : Totals) : Prop where
  sorted : t.Pairwise (·.1 < ·.1)
  positive : ∀ e ∈ t, 0 < e.2.value

variable {s t : Totals} {denom : String} {amount : Decimal}

theorem sumOf_add (other : String) : (add denom amount t).sumOf other =
    (if denom = other then amount.value else 0) + t.sumOf other := by
  induction t with
  | nil => simp [add, sumOf, Decimal.value_add]
  | cons e t ih =>
    obtain ⟨d, total⟩ := e
    unfold sumOf at ih ⊢
    unfold add
    split
    · next same =>
      subst same
      by_cases here : denom = other <;> simp [here, Decimal.value_add]
      ring
    · split
      · simp [Decimal.value_add]
      · rw [totalIn_cons, totalIn_cons, ih]
        ring

theorem mem_add {e : String × Decimal} (h : e ∈ add denom amount t) :
    e.1 = denom ∨ e ∈ t := by
  induction t with
  | nil =>
    rw [add, List.mem_singleton] at h
    exact .inl (congrArg Prod.fst h)
  | cons first t ih =>
    obtain ⟨d, total⟩ := first
    unfold add at h
    split at h
    · next same =>
      rcases List.mem_cons.mp h with rfl | h
      · exact .inl same.symm
      · exact .inr (List.mem_cons_of_mem _ h)
    · split at h
      · rcases List.mem_cons.mp h with rfl | h
        · exact .inl rfl
        · exact .inr h
      · rcases List.mem_cons.mp h with rfl | h
        · exact .inr List.mem_cons_self
        · exact (ih h).imp_right (List.mem_cons_of_mem _)

theorem Positive.add (h : t.Positive) (more : 0 < amount.value) :
    (Totals.add denom amount t).Positive := by
  obtain ⟨sorted, positive⟩ := h
  induction t with
  | nil => exact ⟨by simp [Totals.add], by simpa [Totals.add, Decimal.value_add] using more⟩
  | cons first t ih =>
    obtain ⟨d, total⟩ := first
    obtain ⟨least, sorted'⟩ := List.pairwise_cons.mp sorted
    obtain ⟨here, positive'⟩ := List.forall_mem_cons.mp positive
    unfold Totals.add
    split
    · exact ⟨List.pairwise_cons.mpr ⟨least, sorted'⟩, List.forall_mem_cons.mpr
        ⟨by simpa [Decimal.value_add] using add_pos here more, positive'⟩⟩
    · next other =>
      split
      · next before =>
        refine ⟨List.pairwise_cons.mpr ⟨fun e he => ?_, sorted⟩, List.forall_mem_cons.mpr
          ⟨by simpa [Decimal.value_add] using more, positive⟩⟩
        rcases List.mem_cons.mp he with rfl | he
        · exact before
        · exact before.trans (least e he)
      · next notBefore =>
        obtain ⟨rest, more'⟩ := ih sorted' positive'
        refine ⟨List.pairwise_cons.mpr ⟨fun e he => ?_, rest⟩,
          List.forall_mem_cons.mpr ⟨here, more'⟩⟩
        rcases mem_add he with same | he
        · exact same ▸ lt_of_le_of_ne (not_lt.mp notBefore) (Ne.symm other)
        · exact least e he

/-- A table is made of coins one after another. -/
theorem ofCoins_spec {coins : List Coin} (positive : ∀ c ∈ coins, 0 < c.amount.value) :
    (ofCoins coins).Positive ∧
      ∀ denom, (ofCoins coins).sumOf denom = totalIn (·.denom) (·.amount.value) denom coins := by
  have general (t : Totals) (ordered : t.Positive) :
      let after := coins.foldl (fun totals c => Totals.add c.denom c.amount totals) t
      after.Positive ∧ ∀ denom, after.sumOf denom =
        totalIn (·.denom) (·.amount.value) denom coins + t.sumOf denom := by
    induction coins generalizing t with
    | nil => exact ⟨ordered, fun denom => by simp⟩
    | cons c coins ih =>
      obtain ⟨first, rest⟩ := List.forall_mem_cons.mp positive
      obtain ⟨ordered', sums⟩ := ih rest _ (ordered.add first)
      refine ⟨ordered', fun denom => ?_⟩
      rw [List.foldl_cons, sums, sumOf_add, totalIn_cons]
      ring
  obtain ⟨ordered, sums⟩ := general [] ⟨.nil, by simp⟩
  exact ⟨ordered, fun denom => (sums denom).trans (add_zero _)⟩

/-- A denomination below all others of a table has no sum there. -/
theorem sumOf_of_below (below : ∀ e ∈ t, denom < e.1) : t.sumOf denom = 0 :=
  totalIn_eq_zero fun e he => (below e he).ne'

theorem sumOf_head_pos {e : String × Decimal} (h : Positive (e :: t)) :
    0 < sumOf e.1 (e :: t) :=
  totalIn_pos h.positive ⟨e, List.mem_cons_self, rfl⟩

/-- **Tables of positive sums are the same exactly if every denomination has the same sum.** -/
theorem sameAs_iff (hs : s.Positive) (ht : t.Positive) :
    s.sameAs t = true ↔ ∀ denom, s.sumOf denom = t.sumOf denom := by
  induction s generalizing t with
  | nil =>
    cases t with
    | nil => simp [sameAs]
    | cons e t =>
      refine iff_of_false (by simp [sameAs]) fun same => ?_
      exact (sumOf_head_pos ht).ne (same e.1)
  | cons d s ih =>
    cases t with
    | nil =>
      refine iff_of_false (by simp [sameAs]) fun same => ?_
      exact (sumOf_head_pos hs).ne' (same d.1)
    | cons e t =>
      obtain ⟨belowS, sortedS⟩ := List.pairwise_cons.mp hs.sorted
      obtain ⟨belowT, sortedT⟩ := List.pairwise_cons.mp ht.sorted
      have rest := ih (t := t) ⟨sortedS, (List.forall_mem_cons.mp hs.positive).2⟩
        ⟨sortedT, (List.forall_mem_cons.mp ht.positive).2⟩
      have heads : sameAs (d :: s) (e :: t) = true ↔
          d.1 = e.1 ∧ d.2.value = e.2.value ∧ sameAs s t = true := by
        simp only [sameAs, List.length_cons, List.zip_cons_cons, List.all_cons, Bool.and_eq_true,
          beq_iff_eq, Nat.add_right_cancel_iff, Decimal.sameValue_iff]
        tauto
      rw [heads, rest]
      constructor
      · rintro ⟨key, value, same⟩ denom
        have same := same denom
        unfold sumOf at same ⊢
        rw [totalIn_cons, totalIn_cons, key, value, same]
      · intro same
        -- The smaller of two first denominations would be missing in the other table.
        have key : d.1 = e.1 := by
          rcases lt_trichotomy d.1 e.1 with before | key | before
          · have missing : sumOf d.1 (e :: t) = 0 := sumOf_of_below fun x hx => by
              rcases List.mem_cons.mp hx with rfl | hx
              · exact before
              · exact before.trans (belowT x hx)
            exact absurd (same d.1) (missing ▸ (sumOf_head_pos hs).ne')
          · exact key
          · have missing : sumOf e.1 (d :: s) = 0 := sumOf_of_below fun x hx => by
              rcases List.mem_cons.mp hx with rfl | hx
              · exact before
              · exact before.trans (belowS x hx)
            exact absurd (same e.1) (missing ▸ (sumOf_head_pos ht).ne)
        have value : d.2.value = e.2.value := by
          have here := same d.1
          unfold sumOf at here
          rw [totalIn_cons, totalIn_cons, if_pos rfl, if_pos key.symm,
            totalIn_eq_zero fun x hx => (belowS x hx).ne',
            totalIn_eq_zero fun x hx => key ▸ (belowT x hx).ne', add_zero, add_zero] at here
          exact here
        refine ⟨key, value, fun denom => ?_⟩
        have all := same denom
        unfold sumOf at all ⊢
        rw [totalIn_cons, totalIn_cons, key, value] at all
        exact add_left_cancel all

end MessageHandler.Totals

/-! ## Coins of messages -/

namespace Wire.CoinText

/-- The amount is a decimal. -/
def Parses (c : CoinText) : Prop := ∃ amount, Decimal.parse? c.amount = .ok amount

/-- The coin that is meant, unless it is of nothing or its amount is no decimal. -/
def moved? (c : CoinText) : Option Coin :=
  match Decimal.parse? c.amount with
  | .ok amount => if amount.isZero then none else some ⟨amount, c.denom⟩
  | .error _ => none

/-- The number that is meant; of an amount that is no decimal nothing is. -/
def value (c : CoinText) : ℚ := ((Decimal.parse? c.amount).toOption.map Decimal.value).getD 0

variable {c : CoinText} {coin : Coin}

theorem value_of_not_moved (h : c.moved? = none) : c.value = 0 := by
  unfold moved? at h
  unfold value
  split at h
  · next amount parsed =>
    split at h
    · next zero => simp [parsed, Except.toOption, Decimal.value_eq_zero_iff.mpr zero]
    · cases h
  · next e refused => simp [refused, Except.toOption]

theorem of_moved (h : c.moved? = some coin) :
    Decimal.parse? c.amount = .ok coin.amount ∧ coin.denom = c.denom ∧
      coin.amount.value = c.value ∧ coin.amount.value ≠ 0 := by
  unfold moved? at h
  unfold value
  split at h
  · next amount parsed =>
    split at h
    · cases h
    · next some =>
      cases h
      refine ⟨parsed, rfl, by simp [parsed, Except.toOption], fun zero => some ?_⟩
      exact Decimal.value_eq_zero_iff.mp zero
  · cases h

end Wire.CoinText

namespace AddressCoins

def allTexts (parts : List AddressCoins) : List CoinText := parts.flatMap (·.coins)

/-- The coins of inputs or outputs, each with the address beside which it stands. -/
def placed (parts : List AddressCoins) : List (String × CoinText) :=
  parts.flatMap fun part => part.coins.map (part.address, ·)

/-- The sum that inputs or outputs say in a denomination. -/
def total (denom : String) (parts : List AddressCoins) : ℚ :=
  totalIn CoinText.denom CoinText.value denom (allTexts parts)

theorem total_eq_placed (denom : String) (parts : List AddressCoins) :
    total denom parts = totalIn (·.2.denom) (·.2.value) denom (placed parts) := by
  have texts : (placed parts).map (·.2) = allTexts parts := by
    rw [placed, allTexts, List.map_flatMap]
    exact congrArg (parts.flatMap ·) (funext fun part => by simp)
  rw [total, ← texts, totalIn, totalIn, List.map_map]
  rfl

end AddressCoins

namespace MessageHandler

variable {typeUrl : String} {cs : List CoinText} {parts : List AddressCoins} {coins : List Coin}

theorem payloadCoin_eq_ok_iff {c : CoinText} {coin : Coin} : payloadCoin typeUrl c = .ok coin ↔
    Decimal.parse? c.amount = .ok coin.amount ∧ coin.denom = c.denom := by
  rw [payloadCoin]
  cases parsed : Decimal.parse? c.amount with
  | error e =>
    refine iff_of_false (fun h => ?_) fun h => ?_
    · cases h
    · cases h.1
  | ok amount =>
    obtain ⟨amount', denom⟩ := coin
    constructor
    · intro h
      cases h
      exact ⟨rfl, rfl⟩
    · rintro ⟨same, rfl⟩
      cases same
      rfl

theorem exists_payloadCoin_iff {c : CoinText} :
    (∃ coin, payloadCoin typeUrl c = .ok coin) ↔ c.Parses := by
  simp only [payloadCoin_eq_ok_iff]
  constructor
  · rintro ⟨coin, parsed, -⟩
    exact ⟨_, parsed⟩
  · rintro ⟨amount, parsed⟩
    exact ⟨⟨amount, c.denom⟩, parsed, rfl⟩

/-- Of coins that were read those of nothing are left out. -/
theorem filter_of_read {read : List Coin}
    (each : List.Forall₂ (fun c coin => payloadCoin typeUrl c = .ok coin) cs read) :
    read.filter (!·.amount.isZero) = cs.filterMap CoinText.moved? := by
  induction each with
  | nil => rfl
  | @cons c coin cs read first _ ih =>
    obtain ⟨parsed, denom⟩ := payloadCoin_eq_ok_iff.mp first
    have moved : c.moved? = if coin.amount.isZero then none else some coin := by
      rw [CoinText.moved?, parsed, ← denom]
    cases zero : coin.amount.isZero with
    | true =>
      rw [zero, if_pos rfl] at moved
      simp [zero, List.filterMap_cons_none moved, ih]
    | false =>
      rw [zero, if_neg Bool.false_ne_true] at moved
      simp [zero, List.filterMap_cons_some moved, ih]

/-- Coins can be read exactly if all amounts are decimals. -/
theorem payloadCoins_eq_ok_iff : payloadCoins typeUrl cs = .ok coins ↔
    (∀ c ∈ cs, c.Parses) ∧ coins = cs.filterMap CoinText.moved? := by
  have parses : (∃ read, cs.mapM (payloadCoin typeUrl) = .ok read) ↔ ∀ c ∈ cs, c.Parses := by
    simp only [exists_mapM_eq_ok_iff, exists_payloadCoin_iff]
  rw [← parses]
  constructor
  · intro h
    obtain ⟨read, whole, h⟩ := bind_eq_ok h
    cases h
    exact ⟨⟨read, whole⟩, filter_of_read (mapM_eq_ok_iff.mp whole)⟩
  · rintro ⟨⟨read, whole⟩, rfl⟩
    rw [payloadCoins, whole, ← filter_of_read (mapM_eq_ok_iff.mp whole)]
    rfl

theorem allCoins_eq_ok_iff : allCoins typeUrl parts = .ok coins ↔
    (∀ c ∈ AddressCoins.allTexts parts, c.Parses) ∧
      coins = (AddressCoins.allTexts parts).filterMap CoinText.moved? := by
  have parses : (∃ read, (parts.mapM fun part => payloadCoins typeUrl part.coins) = .ok read) ↔
      ∀ c ∈ AddressCoins.allTexts parts, c.Parses := by
    simp only [exists_mapM_eq_ok_iff, payloadCoins_eq_ok_iff, exists_and_left, exists_eq, and_true,
      AddressCoins.allTexts, List.forall_mem_flatMap]
  have flat {read : List (List Coin)}
      (whole : (parts.mapM fun part => payloadCoins typeUrl part.coins) = .ok read) :
      read.flatten = (AddressCoins.allTexts parts).filterMap CoinText.moved? := by
    have each := mapM_eq_ok_iff.mp whole
    clear parses whole
    induction each with
    | nil => rfl
    | cons first _ ih =>
      rw [List.flatten_cons, ih, (payloadCoins_eq_ok_iff.mp first).2, ← List.filterMap_append]
      rfl
  rw [← parses]
  constructor
  · intro h
    obtain ⟨read, whole, h⟩ := bind_eq_ok h
    cases h
    exact ⟨⟨read, whole⟩, flat whole⟩
  · rintro ⟨⟨read, whole⟩, rfl⟩
    rw [allCoins, whole, ← flat whole]
    rfl

/-- The coins that inputs or outputs move. -/
def movedCoins (parts : List AddressCoins) : List Coin :=
  (AddressCoins.allTexts parts).filterMap CoinText.moved?

/-- One entry for each coin that an output receives. -/
def receipts (m : TxMessage) (msg : MultiSend) : List MessageData :=
  msg.outputs.flatMap fun output =>
    m.entries (onlyAddress msg.inputs) output.address (output.coins.filterMap CoinText.moved?)

variable {m : TxMessage} {msg : MultiSend} {data : List MessageData}

theorem receipts_of_parses (parses : ∀ c ∈ AddressCoins.allTexts msg.outputs, c.Parses) :
    (do
      let data ← msg.outputs.mapM fun output => do
        let coins ← payloadCoins m.typeUrl output.coins
        return m.entries (onlyAddress msg.inputs) output.address coins
      return data.flatten) = (.ok (receipts m msg) : Except MessageHandlerError _) := by
  have each : (msg.outputs.map id).mapM (fun output => do
        let coins ← payloadCoins m.typeUrl output.coins
        return m.entries (onlyAddress msg.inputs) output.address coins) =
      (pure (msg.outputs.map fun output => m.entries (onlyAddress msg.inputs) output.address
        (output.coins.filterMap CoinText.moved?)) : Except MessageHandlerError _) := by
    refine mapM_map_eq_pure fun output there => ?_
    have coins : payloadCoins m.typeUrl output.coins =
        .ok (output.coins.filterMap CoinText.moved?) :=
      payloadCoins_eq_ok_iff.mpr ⟨List.forall_mem_flatMap.mp parses output there, rfl⟩
    rw [id, coins]
    rfl
  rw [List.map_id] at each
  rw [each, receipts, List.flatMap_def]
  rfl

/-- What the handler of multi-sends accepts, and what it reads. -/
theorem readMultiSend_eq_ok_iff (read : m.payloadAs Wire.multiSend? Json.multiSend? = .ok msg) :
    readMultiSend m = .ok data ↔
      (∀ c ∈ AddressCoins.allTexts msg.inputs, c.Parses) ∧
      (∀ c ∈ AddressCoins.allTexts msg.outputs, c.Parses) ∧
      (Totals.ofCoins (movedCoins msg.inputs)).sameAs (Totals.ofCoins (movedCoins msg.outputs)) ∧
      data = receipts m msg := by
  constructor
  · intro h
    obtain ⟨msg', read', h⟩ := bind_eq_ok h
    cases read'.symm.trans read
    obtain ⟨sent, hs, h⟩ := bind_eq_ok h
    obtain ⟨received, hr, h⟩ := bind_eq_ok h
    obtain ⟨parsesIn, rfl⟩ := allCoins_eq_ok_iff.mp hs
    obtain ⟨parsesOut, rfl⟩ := allCoins_eq_ok_iff.mp hr
    dsimp only at h
    split at h
    · obtain ⟨_, h, -⟩ := bind_eq_ok h
      cases h
    · next same =>
      refine ⟨parsesIn, parsesOut, by simpa [movedCoins] using same, ?_⟩
      exact (Except.ok.inj ((receipts_of_parses parsesOut).symm.trans h)).symm
  · rintro ⟨parsesIn, parsesOut, same, rfl⟩
    have sent : allCoins m.typeUrl msg.inputs = .ok (movedCoins msg.inputs) :=
      allCoins_eq_ok_iff.mpr ⟨parsesIn, rfl⟩
    have received : allCoins m.typeUrl msg.outputs = .ok (movedCoins msg.outputs) :=
      allCoins_eq_ok_iff.mpr ⟨parsesOut, rfl⟩
    rw [readMultiSend, read]
    change (allCoins m.typeUrl msg.inputs >>= _) = _
    rw [sent]
    change (allCoins m.typeUrl msg.outputs >>= _) = _
    rw [received]
    change ite ((!Totals.sameAs _ _) = true) _ _ = _
    rw [same]
    exact receipts_of_parses parsesOut

/-- An entry is the receipt of a coin beside an address. -/
structure IsReceipt (m : TxMessage) (msg : MultiSend) (placed : String × CoinText)
    (e : MessageData) : Prop where
  receiver : e.receiver = placed.1
  denom : e.denom = placed.2.denom
  amount : Decimal.parse? placed.2.amount = .ok e.amount
  messageIndex : e.messageIndex = m.index
  typeUrl : e.typeUrl = m.typeUrl
  /-- The sender is known if there is one input only. -/
  sender_one : ∀ input, msg.inputs = [input] → e.sender = input.address
  sender_many : msg.inputs.length ≠ 1 → e.sender = ""

/-- The coins of something, in order. -/
def received (parts : List AddressCoins) : List (String × CoinText) :=
  (AddressCoins.placed parts).filter (·.2.value ≠ 0)

theorem isReceipt_entry {output : AddressCoins} {c : CoinText} {coin : Coin}
    (h : c.moved? = some coin) :
    IsReceipt m msg (output.address, c)
      { messageIndex := m.index, typeUrl := m.typeUrl, sender := onlyAddress msg.inputs,
        receiver := output.address, amount := coin.amount, denom := coin.denom } := by
  obtain ⟨parsed, denom, -, -⟩ := CoinText.of_moved h
  refine ⟨rfl, denom, parsed, rfl, rfl, ?_, fun many => ?_⟩
  · intro input one
    rw [one]
    rfl
  · show onlyAddress msg.inputs = ""
    unfold onlyAddress
    split
    · next input one => exact absurd (by rw [one]; rfl) many
    · rfl

theorem receipts_of_output (output : AddressCoins) (cs : List CoinText) :
    List.Forall₂ (IsReceipt m msg) ((cs.map (output.address, ·)).filter (·.2.value ≠ 0))
      (m.entries (onlyAddress msg.inputs) output.address (cs.filterMap CoinText.moved?)) := by
  induction cs with
  | nil => exact .nil
  | cons c cs ih =>
    cases moved : c.moved? with
    | none =>
      rw [List.filterMap_cons_none moved, List.map_cons,
        List.filter_cons_of_neg (by simp [CoinText.value_of_not_moved moved])]
      exact ih
    | some coin =>
      obtain ⟨-, -, value, some⟩ := CoinText.of_moved moved
      rw [List.filterMap_cons_some moved, List.map_cons,
        List.filter_cons_of_pos (by simpa [← value] using some)]
      exact .cons (isReceipt_entry moved) ih

theorem receipts_received (m : TxMessage) (msg : MultiSend) :
    List.Forall₂ (IsReceipt m msg) (received msg.outputs) (receipts m msg) := by
  unfold received receipts AddressCoins.placed
  induction msg.outputs with
  | nil => exact .nil
  | cons output outputs ih =>
    rw [List.flatMap_cons, List.flatMap_cons, List.filter_append]
    exact List.rel_append (receipts_of_output output output.coins) ih

theorem totalIn_receipts (m : TxMessage) (msg : MultiSend) (denom : String) :
    totalIn (·.denom) (·.amount.value) denom (receipts m msg) =
      AddressCoins.total denom msg.outputs := by
  have same : List.Forall₂ (fun (c : String × CoinText) (e : MessageData) =>
      e.denom = c.2.denom ∧ e.amount.value = c.2.value)
      (received msg.outputs) (receipts m msg) := by
    refine (receipts_received m msg).imp fun c e h => ⟨h.denom, ?_⟩
    rw [CoinText.value, h.amount]
    rfl
  rw [AddressCoins.total_eq_placed, totalIn_of_forall₂ same]
  exact totalIn_filter _

theorem totalIn_movedCoins (denom : String) (parts : List AddressCoins) :
    totalIn (·.denom) (·.amount.value) denom (movedCoins parts) =
      AddressCoins.total denom parts := by
  refine totalIn_filterMap (fun c _ => CoinText.value_of_not_moved) fun c _ coin moved => ?_
  obtain ⟨-, denom, value, -⟩ := CoinText.of_moved moved
  exact ⟨denom, value⟩

/-- No amount is negative. -/
def NonNegative (parts : List AddressCoins) : Prop :=
  ∀ c ∈ AddressCoins.allTexts parts, ∀ amount, Decimal.parse? c.amount = .ok amount →
    0 ≤ amount.value

theorem movedCoins_pos {parts : List AddressCoins} (nonneg : NonNegative parts) :
    ∀ coin ∈ movedCoins parts, 0 < coin.amount.value := by
  intro coin there
  obtain ⟨c, listed, moved⟩ := List.mem_filterMap.mp there
  obtain ⟨parsed, -, -, some⟩ := CoinText.of_moved moved
  exact lt_of_le_of_ne (nonneg c listed _ parsed) some.symm

theorem sameAs_movedCoins_iff {parts others : List AddressCoins} (nonneg : NonNegative parts)
    (nonneg' : NonNegative others) :
    (Totals.ofCoins (movedCoins parts)).sameAs (Totals.ofCoins (movedCoins others)) = true ↔
      ∀ denom, AddressCoins.total denom parts = AddressCoins.total denom others := by
  obtain ⟨ordered, sums⟩ := Totals.ofCoins_spec (movedCoins_pos nonneg)
  obtain ⟨ordered', sums'⟩ := Totals.ofCoins_spec (movedCoins_pos nonneg')
  rw [Totals.sameAs_iff ordered ordered']
  simp only [sums, sums', totalIn_movedCoins]

/-- **A multi-send conserves value.** If none of its amounts is negative, a multi-send is
accepted exactly if all amounts are decimals and the inputs give of each denomination what the
outputs receive. Then there is one entry for each coin of something that an output receives, in
order, and of each denomination they add up to what the inputs gave. -/
theorem multi_send_conserves (read : m.payloadAs Wire.multiSend? Json.multiSend? = .ok msg)
    (nonnegIn : NonNegative msg.inputs) (nonnegOut : NonNegative msg.outputs) :
    ((∃ data, readMultiSend m = .ok data) ↔
      (∀ c ∈ AddressCoins.allTexts msg.inputs ++ AddressCoins.allTexts msg.outputs, c.Parses) ∧
        ∀ denom, AddressCoins.total denom msg.inputs = AddressCoins.total denom msg.outputs) ∧
    ∀ data, readMultiSend m = .ok data →
      List.Forall₂ (IsReceipt m msg) (received msg.outputs) data ∧
      ∀ denom, totalIn (·.denom) (·.amount.value) denom data =
        AddressCoins.total denom msg.inputs := by
  have balanced := sameAs_movedCoins_iff nonnegIn nonnegOut
  constructor
  · simp only [readMultiSend_eq_ok_iff read, balanced, List.forall_mem_append, exists_and_left,
      exists_eq, and_true, and_assoc]
  · intro data accepted
    obtain ⟨-, -, same, rfl⟩ := (readMultiSend_eq_ok_iff read).mp accepted
    refine ⟨receipts_received m msg, fun denom => ?_⟩
    rw [totalIn_receipts, balanced.mp same denom]

/-- Two inputs, and two outputs that share out what they give; the amounts are of different
scales, and one is of nothing. -/
def poolPayment : MultiSend where
  inputs := [⟨"a", [⟨"uatom", "30.0"⟩]⟩, ⟨"b", [⟨"uosmo", "5"⟩, ⟨"uatom", "0"⟩]⟩]
  outputs := [⟨"c", [⟨"uatom", "10"⟩]⟩, ⟨"d", [⟨"uosmo", "5"⟩, ⟨"uatom", "20.00"⟩]⟩]

def poolMessage : TxMessage :=
  ⟨1, multiSendType, .raw (Wire.write (Wire.ofMultiSend poolPayment)), []⟩

def poolReceipts : List MessageData := [
  ⟨1, multiSendType, "", "c", ⟨10, 0⟩, "uatom"⟩, ⟨1, multiSendType, "", "d", ⟨5, 0⟩, "uosmo"⟩,
  ⟨1, multiSendType, "", "d", ⟨2000, 2⟩, "uatom"⟩]

theorem nonNegative_of_digits {parts : List AddressCoins}
    (h : ∀ c ∈ AddressCoins.allTexts parts,
      ((Decimal.parse? c.amount).toOption.all (0 ≤ ·.digits)) = true) : NonNegative parts := by
  intro c there amount parsed
  have digits := h c there
  rw [parsed] at digits
  exact Decimal.value_nonneg (of_decide_eq_true digits)

theorem multi_send_conserves_poolPayment :
    poolMessage.payloadAs Wire.multiSend? Json.multiSend? = .ok poolPayment ∧
    NonNegative poolPayment.inputs ∧ NonNegative poolPayment.outputs ∧
    readMultiSend poolMessage = .ok poolReceipts ∧
    List.Forall₂ (IsReceipt poolMessage poolPayment) (received poolPayment.outputs) poolReceipts ∧
    ∀ denom, totalIn (·.denom) (·.amount.value) denom poolReceipts =
      AddressCoins.total denom poolPayment.inputs := by
  have read : poolMessage.payloadAs Wire.multiSend? Json.multiSend? = .ok poolPayment := by
    decide +kernel
  have nonnegIn : NonNegative poolPayment.inputs := nonNegative_of_digits (by decide +kernel)
  have nonnegOut : NonNegative poolPayment.outputs := nonNegative_of_digits (by decide +kernel)
  have accepted : readMultiSend poolMessage = .ok poolReceipts := by decide +kernel
  obtain ⟨receipts, totals⟩ := (multi_send_conserves read nonnegIn nonnegOut).2 _ accepted
  exact ⟨read, nonnegIn, nonnegOut, accepted, receipts, totals⟩

end MessageHandler

end ChainIndex
