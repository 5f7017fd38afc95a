/-
Dropping messages commutes with handling them. What handlers read of a message bears its
index, so of distinct messages it is known which entry belongs to which. If all messages of
a transaction can be handled, those that a filter keeps can, and what is read of them is what
was read of all without the entries of the others, in the same order. The logs of the others
are dropped with them; nothing else of the transaction changes.
-/
import ChainIndex.Process
import ChainIndex.Proofs.Precedence
import ChainIndex.Proofs.Site
import Mathlib.Data.List.Nodup

namespace ChainIndex

/-! ## Handlers that tag their data -/

/-- Whatever the handler reads of a message bears the index of the message. -/
def MessageHandler.Tags (h : MessageHandler) : Prop :=
  ∀ m data, h.read m = .ok data → ∀ d ∈ data, d.messageIndex = m.index

def MessageRegistry.Tags (registry : MessageRegistry) : Prop :=
  ∀ typeUrl, ∀ h ∈ HandlerTable.get registry typeUrl, h.handler.Tags

theorem TxMessage.entries_tagged {m : TxMessage} {sender receiver : String} {coins : List Coin}
    {d : MessageData} (h : d ∈ m.entries sender receiver coins) : d.messageIndex = m.index := by
  obtain ⟨coin, -, rfl⟩ := List.mem_map.mp h
  rfl

namespace MessageHandler

theorem send_tags : send.Tags := by
  intro m data accepted d mem
  obtain ⟨msg, -, accepted⟩ := bind_eq_ok accepted
  obtain ⟨_, -, accepted⟩ := bind_eq_ok accepted
  obtain ⟨coins, -, accepted⟩ := bind_eq_ok accepted
  cases accepted
  exact TxMessage.entries_tagged mem

theorem multiSend_tags : multiSend.Tags := by
  intro m data accepted d mem
  obtain ⟨msg, -, accepted⟩ := bind_eq_ok accepted
  obtain ⟨sent, -, accepted⟩ := bind_eq_ok accepted
  obtain ⟨received, -, accepted⟩ := bind_eq_ok accepted
  dsimp only at accepted
  split at accepted
  · obtain ⟨_, accepted, -⟩ := bind_eq_ok accepted
    cases accepted
  · obtain ⟨parts, each, accepted⟩ := bind_eq_ok accepted
    cases accepted
    obtain ⟨part, listed, mem⟩ := List.mem_flatten.mp mem
    obtain ⟨output, -, read⟩ := exists_of_mem_mapM each listed
    obtain ⟨coins, -, read⟩ := bind_eq_ok read
    cases read
    exact TxMessage.entries_tagged mem

theorem withdrawReward_tags : withdrawReward.Tags := by
  intro m data accepted d mem
  obtain ⟨msg, -, accepted⟩ := bind_eq_ok accepted
  dsimp only at accepted
  split at accepted
  · obtain ⟨coins, -, accepted⟩ := bind_eq_ok accepted
    cases accepted
    exact TxMessage.entries_tagged mem
  · cases accepted
    exact TxMessage.entries_tagged mem

theorem withdrawCommission_tags : withdrawCommission.Tags := by
  intro m data accepted d mem
  obtain ⟨msg, -, accepted⟩ := bind_eq_ok accepted
  split at accepted
  · obtain ⟨coins, -, accepted⟩ := bind_eq_ok accepted
    cases accepted
    exact TxMessage.entries_tagged mem
  · obtain ⟨coins, -, accepted⟩ := bind_eq_ok accepted
    cases accepted
    exact TxMessage.entries_tagged mem
  · obtain ⟨coins, -, accepted⟩ := bind_eq_ok accepted
    split at accepted
    · cases accepted
      cases mem
    · cases accepted
  · cases accepted

end MessageHandler

/-! ## Registering them -/

/-- Handlers that tag their data are all that the registration brings. -/
def MessageRegistration.KeepsTags (r : MessageRegistration) : Prop :=
  ∀ registry : MessageRegistry, registry.Tags → MessageRegistry.Tags (r.run.run registry).2

namespace MessageRegistry

theorem register_keepsTags (isGeneric : Bool) (typeUrl id : String) {handler : MessageHandler}
    (tags : handler.Tags) : (register isGeneric typeUrl id handler).KeepsTags := by
  intro registry others key h mem
  let call : MessageCall := ⟨isGeneric, typeUrl, id, handler⟩
  change h ∈ roster.handlers (roster.step registry call) key at mem
  rw [lawful_roster.handlers_step] at mem
  split at mem
  · rcases List.mem_cons.mp ((Registered.place_perm _ _).mem_iff.mp mem) with rfl | mem
    · exact tags
    · exact others key h mem
  · exact others key h mem

theorem keepsTags_bind {first second : MessageRegistration} (here : first.KeepsTags)
    (there : second.KeepsTags) :
    MessageRegistration.KeepsTags (first >>= fun _ => second) := by
  intro registry tags
  have middle := here registry tags
  rcases ran : first.run.run registry with ⟨result, after⟩
  rw [ran] at middle
  cases result with
  | ok u => exact (Call.run_bind_ok ran) ▸ there after middle
  | error e => exact (Call.run_bind_error ran) ▸ middle

theorem registerGenericSet_keepsTags : registerGenericSet.KeepsTags :=
  keepsTags_bind (register_keepsTags _ _ _ MessageHandler.send_tags) <|
    keepsTags_bind (register_keepsTags _ _ _ MessageHandler.multiSend_tags) <|
      keepsTags_bind (register_keepsTags _ _ _ MessageHandler.withdrawReward_tags)
        (register_keepsTags _ _ _ MessageHandler.withdrawCommission_tags)

end MessageRegistry

/-! ## Messages that are kept -/

/-- The type is one of those listed; without a list every type is. -/
def Filters.Lists (fs : Filters) (typeUrl : String) : Prop :=
  fs.messageTypes = [] ∨ typeUrl ∈ fs.messageTypes

instance (fs : Filters) (typeUrl : String) : Decidable (fs.Lists typeUrl) :=
  inferInstanceAs (Decidable (_ ∨ _))

/-- What is kept of a transaction, of whose messages this was read. -/
structure Filters.Spares (fs : Filters) (tx : TxRecord) (data : List MessageData)
    (kept : TxRecord) : Prop where
  messages : kept.messages = tx.messages.filter (fs.Lists ·.typeUrl)
  /-- A log of a message goes with the message. -/
  logs : ∃ goes : Nat → Bool, (∀ m ∈ tx.messages, goes m.index = decide (fs.Lists m.typeUrl)) ∧
    kept.logs = tx.logs.filter (goes ·.index)
  data : kept.data = data.filter fun d => kept.messages.any (·.index == d.messageIndex)
  rest : kept = { tx with messages := kept.messages, logs := kept.logs, data := kept.data }

namespace Filters

variable {fs : Filters} {tx : TxRecord}

theorem keepsMessage_eq (typeUrl : String) :
    fs.keepsMessage typeUrl = decide (fs.Lists typeUrl) := by
  rw [Bool.eq_iff_iff, decide_eq_true_iff]
  simp [keepsMessage, Lists]

/-- By its index a message is known to be kept or dropped. -/
theorem any_index_kept {ms : List TxMessage} (distinct : (ms.map (·.index)).Nodup)
    (keep : TxMessage → Bool) {m : TxMessage} (mem : m ∈ ms) :
    ((ms.filter keep).any (·.index == m.index)) = keep m := by
  cases kept : keep m with
  | true => exact List.any_eq_true.mpr ⟨m, List.mem_filter.mpr ⟨mem, kept⟩, by simp⟩
  | false =>
    refine List.any_eq_false.mpr fun other there same => ?_
    obtain ⟨listed, keptOther⟩ := List.mem_filter.mp there
    obtain rfl : other = m :=
      List.inj_on_of_nodup_map distinct listed mem (by simpa using same)
    rw [kept] at keptOther
    cases keptOther

theorem keepMessages_messages :
    (fs.keepMessages tx).messages = tx.messages.filter (fs.Lists ·.typeUrl) := by
  simp only [keepMessages, keepsMessage_eq]
  split
  · rfl
  · next whole =>
    refine (List.filter_eq_self.mpr ?_).symm
    exact List.length_filter_eq_length_iff.mp
      (Nat.le_antisymm (List.length_filter_le _ _) (Nat.le_of_not_lt whole))

theorem keepMessages_logs (distinct : (tx.messages.map (·.index)).Nodup) :
    ∃ goes : Nat → Bool, (∀ m ∈ tx.messages, goes m.index = decide (fs.Lists m.typeUrl)) ∧
      (fs.keepMessages tx).logs = tx.logs.filter (goes ·.index) := by
  have kept : (fs.keepMessages tx).messages = _ := keepMessages_messages
  simp only [keepMessages, keepsMessage_eq] at kept ⊢
  split
  · exact ⟨fun i => (tx.messages.filter (fs.Lists ·.typeUrl)).any (·.index == i),
      fun m mem => any_index_kept distinct (fs.Lists ·.typeUrl) mem, rfl⟩
  · next whole =>
    -- Nothing is dropped, so that the logs are not looked at.
    rw [if_neg whole] at kept
    refine ⟨fun _ => true, fun m mem => ?_, (List.filter_eq_self.mpr fun _ _ => rfl).symm⟩
    exact (List.filter_eq_self.mp kept.symm m mem).symm

end Filters

namespace MessageRegistry

variable {registry : MessageRegistry} {txHash : String}

theorem dispatchMessage_tagged (tags : registry.Tags) {m : TxMessage} {part : List MessageData}
    (h : registry.dispatchMessage txHash m = .ok part) : ∀ d ∈ part, d.messageIndex = m.index := by
  rw [dispatchMessage_eq_offer, Registered.offer_eq_ok_iff] at h
  rcases h with ⟨-, rfl⟩ | ⟨before, handler, after, listed, -, read⟩
  · simp
  · exact tags m.typeUrl handler (by simp [listed]) m part read

/-- Some of the messages are handled if all are, and what is read of them is told by its index. -/
theorem dispatch_filter (tags : registry.Tags) (keep : TxMessage → Bool) (goes : Nat → Bool)
    {ms : List TxMessage} {parts : List (List MessageData)}
    (agree : ∀ m ∈ ms, goes m.index = keep m)
    (each : List.Forall₂ (fun m part => registry.dispatchMessage txHash m = .ok part) ms parts) :
    ∃ kept, (ms.filter keep).mapM (registry.dispatchMessage txHash) = .ok kept ∧
      kept.flatten = parts.flatten.filter (goes ·.messageIndex) := by
  induction each with
  | nil => exact ⟨[], rfl, rfl⟩
  | @cons m part ms parts first _ ih =>
    obtain ⟨here, others⟩ := List.forall_mem_cons.mp agree
    obtain ⟨kept, rest, same⟩ := ih others
    have tagged := dispatchMessage_tagged tags first
    rw [List.flatten_cons, List.filter_append]
    cases chosen : keep m with
    | true =>
      have all : part.filter (goes ·.messageIndex) = part :=
        List.filter_eq_self.mpr fun d mem => by rw [tagged d mem, here, chosen]
      refine ⟨part :: kept, ?_, by rw [List.flatten_cons, same, all]⟩
      rw [List.filter_cons_of_pos chosen, List.mapM_cons, first, rest]
      rfl
    | false =>
      have none : part.filter (goes ·.messageIndex) = [] :=
        List.filter_eq_nil_iff.mpr fun d mem => by simp [tagged d mem, here, chosen]
      refine ⟨kept, ?_, by rw [same, none, List.nil_append]⟩
      rw [List.filter_cons_of_neg (by simp [chosen]), rest]

end MessageRegistry

/-- **Dropping messages commutes with handling them.** The handlers that suit every chain tag
their data. Whatever the registry of handlers that do, if all messages of a transaction can be
handled, and no two have the same index, then handling goes well of those that are kept, and
gives, in order, the entries that belong to them. -/
theorem handling_commutes_with_dropping :
    MessageRegistry.registerGenericSet.KeepsTags ∧
    ∀ (p : Processor) (tx : TxRecord) (data : List MessageData), p.messageHandlers.Tags →
      (tx.messages.map (·.index)).Nodup → p.messageHandlers.dispatch tx = .ok data →
      ∃ kept, p.handleMessages tx = .ok kept ∧ p.filters.Spares tx data kept := by
  refine ⟨MessageRegistry.registerGenericSet_keepsTags, fun p tx data tags distinct whole => ?_⟩
  obtain ⟨parts, each, whole⟩ := bind_eq_ok whole
  cases whole
  let kept := p.filters.keepMessages tx
  have messages : kept.messages = tx.messages.filter (p.filters.Lists ·.typeUrl) :=
    Filters.keepMessages_messages
  have same : kept = { tx with messages := kept.messages, logs := kept.logs } := by
    dsimp only [kept, Filters.keepMessages]
    split <;> rfl
  obtain ⟨handled, goesWell, entries⟩ := MessageRegistry.dispatch_filter tags
    (p.filters.Lists ·.typeUrl) (fun i => kept.messages.any (·.index == i))
    (fun m mem => by rw [messages]; exact Filters.any_index_kept distinct _ mem)
    (mapM_eq_ok_iff.mp each)
  refine ⟨{ kept with data := handled.flatten }, ?_, messages,
    Filters.keepMessages_logs distinct, entries, ?_⟩
  · have handles : p.messageHandlers.dispatch kept = .ok handled.flatten := by
      rw [MessageRegistry.dispatch, messages, same, goesWell]
      rfl
    rw [Processor.handleMessages, handles]
    rfl
  · rw [same]

/-! ## A reward between two transfers -/

def rewardBetweenSends : TxRecord :=
  let send (receiver amount : String) : Payload :=
    .json (.object [("from_address", .string "a"), ("to_address", .string receiver),
      ("amount", .array [.object [("denom", .string "uatom"), ("amount", .string amount)]])])
  let reward : Payload :=
    .json (.object [("delegator_address", .string "a"), ("validator_address", .string "v")])
  { (default : TxRecord) with
    messages := [
      ⟨0, MessageHandler.sendType, send "b" "10", []⟩,
      ⟨1, MessageHandler.withdrawRewardType, reward,
        [⟨"withdraw_rewards", [⟨"amount", "3uatom"⟩]⟩]⟩,
      ⟨2, MessageHandler.sendType, send "c" "5", []⟩]
    logs := [⟨0, "first", []⟩, ⟨1, "second", []⟩, ⟨2, "third", []⟩] }

def readOfAll : List MessageData := [
  ⟨0, MessageHandler.sendType, "a", "b", ⟨10, 0⟩, "uatom"⟩,
  ⟨1, MessageHandler.withdrawRewardType, "", "a", ⟨3, 0⟩, "uatom"⟩,
  ⟨2, MessageHandler.sendType, "a", "c", ⟨5, 0⟩, "uatom"⟩]

/-- The handlers that suit every chain, and a filter that keeps transfers only. -/
def keepingSends : Processor where
  config := .plain 1
  decoder := { book := ⟨"noble", by decide⟩, messageTypes := [] }
  eventHandlers := .empty
  messageHandlers := (MessageRegistry.registerGenericSet.run.run []).2
  filters := { Filters.none with messageTypes := [MessageHandler.sendType] }

theorem handling_commutes_with_dropping_rewards :
    keepingSends.messageHandlers.Tags ∧ (rewardBetweenSends.messages.map (·.index)).Nodup ∧
    keepingSends.messageHandlers.dispatch rewardBetweenSends = .ok readOfAll ∧
    ∃ kept, keepingSends.handleMessages rewardBetweenSends = .ok kept ∧
      kept.messages.map (·.index) = [0, 2] ∧ kept.logs.map (·.index) = [0, 2] ∧
      kept.data.map (·.receiver) = ["b", "c"] ∧
      keepingSends.filters.Spares rewardBetweenSends readOfAll kept := by
  have empty : MessageRegistry.Tags [] := fun _ _ mem => absurd mem List.not_mem_nil
  have tags : keepingSends.messageHandlers.Tags := handling_commutes_with_dropping.1 [] empty
  have distinct : (rewardBetweenSends.messages.map (·.index)).Nodup := by decide
  have read : keepingSends.messageHandlers.dispatch rewardBetweenSends = .ok readOfAll := by
    decide +kernel
  obtain ⟨kept, handled, keeps⟩ := handling_commutes_with_dropping.2 _ _ _ tags distinct read
  have seen : (keepingSends.handleMessages rewardBetweenSends).toOption.map
      (fun tx => (tx.messages.map (·.index), tx.logs.map (·.index), tx.data.map (·.receiver))) =
        some ([0, 2], [0, 2], ["b", "c"]) := by decide +kernel
  rw [handled] at seen
  simp only [Except.toOption, Option.map_some, Option.some.injEq, Prod.mk.injEq] at seen
  exact ⟨tags, distinct, read, kept, handled, seen.1, seen.2.1, seen.2.2, keeps⟩

end ChainIndex
