/-
Amounts of logs in whole units. What a handler takes out of an event's coin list is the
greatest whole number that is not above the amount written there, of any length. Events of
blocks give an entry for every coin, and withdrawals only for coins of at least one unit. The
coins of a withdrawal are those of one event of its log, and which event that is depends on
the events that there are.
-/
import ChainIndex.Handler.Event
import ChainIndex.Handler.Message
import ChainIndex.Proofs.CoinLists

namespace ChainIndex

/-! ## Whole units -/

/-- An amount of a denomination is what a coin comes to in whole units. -/
structure Coin.WholeUnits (c : Coin) (amount : Decimal) (denom : String) : Prop where
  whole : ∃ n : Nat, amount = .ofNat n
  le : amount.value ≤ c.amount.value
  lt : c.amount.value < amount.value + 1
  denom : denom = c.denom

namespace Coin

variable {c : Coin} {coins : List Coin}

theorem wholeUnits_truncate (nonneg : 0 ≤ c.amount.digits) :
    c.WholeUnits c.amount.truncate c.denom := by
  rw [Decimal.truncate_eq_floor nonneg]
  refine ⟨⟨_, rfl⟩, ?_, ?_, rfl⟩
  · rw [Decimal.value_ofNat]
    exact Nat.floor_le (Decimal.value_nonneg nonneg)
  · rw [Decimal.value_ofNat]
    exact Nat.lt_floor_add_one _

/-- The coin comes to a unit or more. -/
def hasUnits (c : Coin) : Bool := ⌊c.amount.value⌋₊ ≠ 0

theorem isZero_truncate (nonneg : 0 ≤ c.amount.digits) :
    (!c.amount.truncate.isZero) = c.hasUnits := by
  rw [Decimal.truncate_eq_floor nonneg, hasUnits, Decimal.isZero, Bool.eq_iff_iff]
  simp only [Decimal.ofNat, Bool.not_eq_true', beq_eq_false_iff_ne, decide_eq_true_eq, ne_eq,
    Int.natCast_eq_zero]

/-- No amount of a list has a sign. -/
theorem digits_nonneg_of_parseList {s : String} (read : parseList s = .ok coins) :
    ∀ c ∈ coins, 0 ≤ c.amount.digits := by
  rcases parseList_eq_ok_iff.mp read with ⟨-, rfl⟩ | ⟨ws, -, -, rfl⟩
  · exact fun c there => absurd there List.not_mem_nil
  · intro c there
    obtain ⟨w, -, rfl⟩ := List.mem_map.mp there
    exact w.amount.decimal_nonneg

end Coin

/-! ## Events -/

namespace EventHandler

/-- What an event is read as, one entry for each of its coins. -/
theorem read_addressAmount {eventType addressKey given : String} {source : EventSource} {e : Event}
    {data : List EventData}
    (h : (addressAmount eventType addressKey source).read given e = .ok data) :
    ∃ address coins, Coin.parseList (e.attributeD "amount") = .ok coins ∧
      data = entries address source coins := by
  change readAddressAmount eventType addressKey source given e = .ok data at h
  rw [readAddressAmount] at h
  split at h
  · cases h
  · obtain ⟨address, -, h⟩ := bind_eq_ok h
    obtain ⟨coins, read, h⟩ := bind_eq_ok h
    cases h
    exact ⟨address, coins, mapError_eq_ok read, rfl⟩

end EventHandler

/-! ## Withdrawals -/

/-- The event that tells the coins of a reward: its own, or else that of the transfer. -/
inductive RewardSource (m : TxMessage) : Event → Prop
  | own {e : Event} (here : m.event? "withdraw_rewards" = some e) : RewardSource m e
  | transfer {e : Event} (missing : m.event? "withdraw_rewards" = none)
      (here : m.event? "transfer" = some e) : RewardSource m e

/-- The event that tells the coins of a commission: its own, or else the one that names who
received it. A transfer only counts where no receiver is named before it. -/
inductive CommissionSource (m : TxMessage) : Event → Prop
  | own {e : Event} (here : m.event? "withdraw_commission" = some e) : CommissionSource m e
  | received {e : Event} {receiver : String} (missing : m.event? "withdraw_commission" = none)
      (here : m.event? "coin_received" = some e) (named : e.attribute? "receiver" = some receiver) :
      CommissionSource m e
  | transfer {e : Event} {recipient : String} (missing : m.event? "withdraw_commission" = none)
      (unnamed : ∀ r, m.event? "coin_received" = some r → r.attribute? "receiver" = none)
      (here : m.event? "transfer" = some e) (named : e.attribute? "recipient" = some recipient) :
      CommissionSource m e

namespace MessageHandler

variable {typeUrl sender receiver : String} {e : Event} {coins : List Coin} {m : TxMessage}
  {data : List MessageData}

/-- The entries are the coins of an event that come to a unit or more. -/
def PaysOut (e : Event) (data : List MessageData) : Prop :=
  ∃ coins, Coin.parseList (e.attributeD "amount") = .ok coins ∧
    List.Forall₂ (fun c d => c.WholeUnits d.amount d.denom) (coins.filter Coin.hasUnits) data

theorem logCoins_eq_ok (h : logCoins typeUrl e = .ok coins) :
    ∃ written, Coin.parseList (e.attributeD "amount") = .ok written ∧
      coins = (written.filter Coin.hasUnits).map fun c => ⟨c.amount.truncate, c.denom⟩ := by
  rw [logCoins] at h
  obtain ⟨written, read, h⟩ := bind_eq_ok h
  cases h
  have read := mapError_eq_ok read
  refine ⟨written, read, ?_⟩
  rw [List.filter_map]
  refine congrArg (List.map _) (List.filter_congr fun c there => ?_)
  exact Coin.isZero_truncate (Coin.digits_nonneg_of_parseList read c there)

theorem paysOut_of_logCoins (h : logCoins typeUrl e = .ok coins) :
    PaysOut e (m.entries sender receiver coins) := by
  obtain ⟨written, read, rfl⟩ := logCoins_eq_ok h
  refine ⟨written, read, ?_⟩
  rw [TxMessage.entries, List.map_map, List.forall₂_map_right_iff, List.forall₂_same]
  intro c there
  exact Coin.wholeUnits_truncate
    (Coin.digits_nonneg_of_parseList read c (List.mem_of_mem_filter there))

theorem paysOut_of_entries
    (h : (do return m.entries sender receiver (← logCoins typeUrl e)) = Except.ok data) :
    PaysOut e data := by
  obtain ⟨coins, read, h⟩ := bind_eq_ok h
  cases h
  exact paysOut_of_logCoins read

/-- A reward without any source is empty. -/
theorem read_withdrawReward (h : withdrawReward.read m = .ok data) :
    (∃ e, RewardSource m e ∧ PaysOut e data) ∨ (¬ ∃ e, RewardSource m e) ∧ data = [] := by
  change readWithdrawReward m = .ok data at h
  rw [readWithdrawReward] at h
  obtain ⟨msg, -, h⟩ := bind_eq_ok h
  cases own : m.event? "withdraw_rewards" with
  | some e =>
    rw [own] at h
    exact .inl ⟨e, .own own, paysOut_of_entries h⟩
  | none =>
    rw [own] at h
    cases transfer : m.event? "transfer" with
    | some e =>
      rw [transfer] at h
      exact .inl ⟨e, .transfer own transfer, paysOut_of_entries h⟩
    | none =>
      rw [transfer] at h
      cases h
      refine .inr ⟨?_, rfl⟩
      rintro ⟨e, here | ⟨-, here⟩⟩
      · cases own.symm.trans here
      · cases transfer.symm.trans here

/-- Where a commission has no event of its own, the payout is its source. -/
theorem commissionSource_of_payout (missing : m.event? "withdraw_commission" = none)
    (h : payout? m = some (receiver, e)) : CommissionSource m e := by
  rw [payout?, Option.or_eq_some_iff] at h
  rcases h with received | ⟨unnamed, transfer⟩
  · obtain ⟨e', here, received⟩ := Option.bind_eq_some_iff.mp received
    obtain ⟨named, name, pair⟩ := Option.bind_eq_some_iff.mp received
    cases pair
    exact .received missing here name
  · obtain ⟨e', here, transfer⟩ := Option.bind_eq_some_iff.mp transfer
    obtain ⟨named, name, pair⟩ := Option.bind_eq_some_iff.mp transfer
    cases pair
    refine .transfer missing (fun r received => ?_) here name
    exact Option.eq_none_iff_forall_ne_some.mpr (by simpa [received] using unnamed)

theorem read_withdrawCommission (h : withdrawCommission.read m = .ok data) :
    ∃ e, CommissionSource m e ∧ PaysOut e data := by
  change readWithdrawCommission m = .ok data at h
  rw [readWithdrawCommission] at h
  obtain ⟨msg, -, h⟩ := bind_eq_ok h
  split at h
  · next own =>
    exact ⟨_, .own own, paysOut_of_entries h⟩
  · next receiver source payout missing =>
    exact ⟨_, commissionSource_of_payout missing payout, paysOut_of_entries h⟩
  · next withdrawn unnamed own =>
    obtain ⟨coins, read, h⟩ := bind_eq_ok h
    split at h
    · next none =>
      cases h
      rw [List.isEmpty_iff.mp none] at read
      have paid : PaysOut withdrawn (m.entries "" "" []) := paysOut_of_logCoins read
      exact ⟨_, .own own, paid⟩
    · cases h
  · cases h

end MessageHandler

/-! ## Handlers -/

/-- **Amounts in logs are floored to whole units.** An event that is read for an address gives
an entry for every coin of its amount, in order, and a withdrawal that is read gives one for
every coin of its source that comes to a unit or more, in order. Each entry has the coin's
denomination and the greatest whole number that is not above the coin's amount. A reward
without a source is empty, and a commission always has one. -/
theorem log_amounts_are_floored :
    (∀ eventType addressKey source given e data,
      (EventHandler.addressAmount eventType addressKey source).read given e = .ok data →
      ∃ coins, Coin.parseList (e.attributeD "amount") = .ok coins ∧
        List.Forall₂ (fun c d => c.WholeUnits d.amount d.denom) coins data) ∧
    (∀ m data, MessageHandler.withdrawReward.read m = .ok data →
      (∃ e, RewardSource m e ∧ MessageHandler.PaysOut e data) ∨
        (¬ ∃ e, RewardSource m e) ∧ data = []) ∧
    ∀ m data, MessageHandler.withdrawCommission.read m = .ok data →
      ∃ e, CommissionSource m e ∧ MessageHandler.PaysOut e data := by
  refine ⟨?_, fun m data => MessageHandler.read_withdrawReward,
    fun m data => MessageHandler.read_withdrawCommission⟩
  intro eventType addressKey source given e data h
  obtain ⟨address, coins, read, rfl⟩ := EventHandler.read_addressAmount h
  refine ⟨coins, read, ?_⟩
  rw [EventHandler.entries, List.forall₂_map_right_iff, List.forall₂_same]
  exact fun c there => Coin.wholeUnits_truncate (Coin.digits_nonneg_of_parseList read c there)

/-- An amount beyond any machine word, one of less than a unit, and a whole one. -/
def longAmount : String :=
  "12345678901234567890123456789.999uatom, 0.999999999999999999ustake,3uosmo"

/-- A reward that is told by the transfer alone. -/
def rewardByTransfer : TxMessage where
  index := 0
  typeUrl := MessageHandler.withdrawRewardType
  payload := .json
    (.object [("delegator_address", .string "a"), ("validator_address", .string "v")])
  events := [⟨"transfer", [⟨"recipient", "b"⟩, ⟨"amount", longAmount⟩]⟩]

/-- A commission whose receipt names no receiver, so that the transfer tells it. -/
def commissionByTransfer : TxMessage where
  index := 0
  typeUrl := MessageHandler.withdrawCommissionType
  payload := .json (.object [("validator_address", .string "v")])
  events := [⟨"coin_received", [⟨"amount", "7uatom"⟩]⟩,
    ⟨"transfer", [⟨"recipient", "b"⟩, ⟨"amount", longAmount⟩]⟩]

/-- The coins of the two that come to a unit or more. -/
def paidInUnits (m : TxMessage) : List MessageData :=
  m.entries "" "b" [⟨.ofNat 12345678901234567890123456789, "uatom"⟩, ⟨.ofNat 3, "uosmo"⟩]

theorem log_amounts_are_floored_longAmount :
    let event : Event := ⟨"rewards", [⟨"validator", "v"⟩, ⟨"amount", longAmount⟩]⟩
    let data := EventHandler.entries "v" .validatorRewards
      [⟨.ofNat 12345678901234567890123456789, "uatom"⟩, ⟨.zero, "ustake"⟩, ⟨.ofNat 3, "uosmo"⟩]
    (EventHandler.validatorRewards.read "rewards" event = .ok data ∧
      ∃ coins, Coin.parseList (event.attributeD "amount") = .ok coins ∧
        List.Forall₂ (fun c d => c.WholeUnits d.amount d.denom) coins data) ∧
    (MessageHandler.withdrawReward.read rewardByTransfer = .ok (paidInUnits rewardByTransfer) ∧
      ∃ e, RewardSource rewardByTransfer e ∧
        MessageHandler.PaysOut e (paidInUnits rewardByTransfer)) ∧
    MessageHandler.withdrawCommission.read commissionByTransfer =
        .ok (paidInUnits commissionByTransfer) ∧
      ∃ e, CommissionSource commissionByTransfer e ∧
        MessageHandler.PaysOut e (paidInUnits commissionByTransfer) := by
  intro event data
  obtain ⟨events, rewards, commissions⟩ := log_amounts_are_floored
  have event_read : EventHandler.validatorRewards.read "rewards" event = .ok data := by
    decide +kernel
  have reward_read : MessageHandler.withdrawReward.read rewardByTransfer =
      .ok (paidInUnits rewardByTransfer) := by
    decide +kernel
  have commission_read : MessageHandler.withdrawCommission.read commissionByTransfer =
      .ok (paidInUnits commissionByTransfer) := by
    decide +kernel
  refine ⟨⟨event_read, events _ _ _ _ event data event_read⟩, ⟨reward_read, ?_⟩,
    commission_read, commissions _ _ commission_read⟩
  exact (rewards _ _ reward_read).resolve_right fun none => List.cons_ne_nil _ _ none.2

end ChainIndex
