/-
Which events reach which message of a transaction that ran. Without a list of logs in
the raw log an event goes to the message that its first `msg_index` attribute names, and
to no other; the other events reach no message. With a list each message has the events
of the first log of its index, where a negative index counts as zero.
-/
import ChainIndex.Proofs.JsonText
import ChainIndex.Tx.Normal
import Mathlib.Data.List.Nodup

namespace ChainIndex

/-! ## Tags -/

namespace Event

/-- The first attribute `msg_index` spells this number. -/
def IsTagged (e : Event) (i : Nat) : Prop :=
  ∃ before value after, e.attributes = before ++ ⟨"msg_index", value⟩ :: after ∧
    (∀ a ∈ before, a.key ≠ "msg_index") ∧ Text.word64? value = some i

variable {e : Event} {i j : Nat}

theorem attribute?_eq_some_iff {key value : String} : e.attribute? key = some value ↔
    ∃ before after, e.attributes = before ++ ⟨key, value⟩ :: after ∧ ∀ a ∈ before, a.key ≠ key := by
  rw [attribute?, Option.map_eq_some_iff]
  simp only [List.find?_eq_some_iff_append, Bool.not_eq_true', beq_eq_false_iff_ne, beq_iff_eq]
  constructor
  · rintro ⟨⟨_, _⟩, ⟨rfl, before, after, split, first⟩, rfl⟩
    exact ⟨before, after, split, first⟩
  · rintro ⟨before, after, split, first⟩
    exact ⟨⟨key, value⟩, ⟨rfl, before, after, split, first⟩, rfl⟩

theorem isTagged_iff : e.IsTagged i ↔ (e.attribute? "msg_index").bind Text.word64? = some i := by
  rw [Option.bind_eq_some_iff]
  constructor
  · rintro ⟨before, value, after, split, first, spelt⟩
    exact ⟨value, attribute?_eq_some_iff.mpr ⟨before, after, split, first⟩, spelt⟩
  · rintro ⟨value, found, spelt⟩
    obtain ⟨before, after, split, first⟩ := attribute?_eq_some_iff.mp found
    exact ⟨before, value, after, split, first, spelt⟩

instance : Decidable (e.IsTagged i) := decidable_of_iff _ isTagged_iff.symm

theorem IsTagged.unique (h : e.IsTagged i) (h' : e.IsTagged j) : i = j := by
  rw [isTagged_iff] at h h'
  exact Option.some.inj (h.symm.trans h')

end Event

/-! ## Logs -/

/-- The message that a log in the raw log is of; a negative index counts as zero. -/
def SearchLog.IsOf (l : SearchLog) (i : Nat) : Prop :=
  l.messageIndex = i ∨ l.messageIndex < 0 ∧ i = 0

instance {l : SearchLog} {i : Nat} : Decidable (l.IsOf i) :=
  inferInstanceAs (Decidable (_ ∨ _))

namespace MessageLog

theorem taggedIndex?_eq_some_iff {count i : Nat} {e : Event} :
    taggedIndex? count e = some i ↔ e.IsTagged i ∧ i < count := by
  rw [taggedIndex?, Option.filter_eq_some_iff, decide_eq_true_eq, Event.isTagged_iff]

theorem index_group (events : List Event) (count : Nat) :
    (group events count).map (·.index) = List.range count := by
  rw [group, List.map_map]
  exact List.map_id _

theorem find?_group {events : List Event} {count i : Nat} (h : i < count) :
    (group events count).find? (·.index == i) = some ⟨i, "", events.filter (·.IsTagged i)⟩ := by
  have tags : events.filter (fun e => taggedIndex? count e == some i) =
      events.filter (·.IsTagged i) := by
    refine List.filter_congr fun e _ => ?_
    rw [beq_eq_decide, decide_eq_decide, taggedIndex?_eq_some_iff, and_iff_left h]
  have place : (List.range count).find? (· == i) = some i := List.find?_range_eq_some.mpr
    ⟨beq_self_eq_true i, List.mem_range.mpr h, fun j hj => by simpa using Nat.ne_of_lt hj⟩
  rw [group, List.find?_map]
  refine (congrArg (Option.map _) place).trans ?_
  rw [Option.map_some, tags]

theorem ofResult_tagged {rawLog : String} (noList : (Text.trim rawLog).toList.head? ≠ some '[')
    (events : List Event) (count : Nat) :
    ofResult 0 rawLog events count = .ok (group events count) := by
  rw [ofResult, if_neg (by decide), if_neg noList]

theorem ofResult_listed {rawLog : String} {entries : List SearchLog}
    (listed : (Json.ofText? (Text.trim rawLog)).bind (Json.list SearchLog.ofJson?) = some entries)
    (events : List Event) (count : Nat) :
    ofResult 0 rawLog events count = .ok (entries.map ofSearch) := by
  obtain ⟨j, text, logs⟩ := Option.bind_eq_some_iff.mp listed
  have read : ofRawLog? (Text.trim rawLog) = some (entries.map ofSearch) := by
    rw [ofRawLog?, text, Option.bind_eq_bind, Option.bind_some, logs]
    rfl
  have bracket : (Text.trim rawLog).toList.head? = some '[' := by
    cases j with
    | array items => exact Json.head?_trim_of_array text
    | _ => cases logs
  rw [ofResult, if_neg (by decide), if_pos bracket]
  simp only [read]

theorem index_ofSearch_eq_iff {l : SearchLog} {i : Nat} : (ofSearch l).index = i ↔ l.IsOf i := by
  have index : (ofSearch l).index = l.messageIndex.toNat := rfl
  rw [index, SearchLog.IsOf]
  omega

theorem find?_ofSearch (entries : List SearchLog) (i : Nat) :
    ((entries.map ofSearch).find? (·.index == i)).map (·.events) =
      (entries.find? (·.IsOf i)).map (·.events) := by
  have same : ((fun l : MessageLog => l.index == i) ∘ ofSearch) = fun l => decide (l.IsOf i) := by
    funext l
    rw [Function.comp_apply, beq_eq_decide, decide_eq_decide, index_ofSearch_eq_iff]
  rw [List.find?_map, same, Option.map_map]
  rfl

end MessageLog

/-! ## Messages -/

theorem attachEvents_eq (logs : List MessageLog) (messages : List TxMessage) :
    attachEvents logs messages = messages.map fun m => { m with
      events := ((logs.find? (·.index == m.index)).map (·.events)).getD m.events } := by
  refine List.map_congr_left fun m _ => ?_
  cases logs.find? (·.index == m.index) <;> rfl

variable {messages : List TxMessage} {count : Nat} {events : List Event}

theorem index_lt (numbered : messages.map (·.index) = List.range count) {m : TxMessage}
    (hm : m ∈ messages) : m.index < count :=
  List.mem_range.mp (numbered ▸ List.mem_map_of_mem (f := (·.index)) hm)

theorem attachEvents_group (numbered : messages.map (·.index) = List.range count) :
    attachEvents (MessageLog.group events count) messages =
      messages.map fun m => { m with events := events.filter (·.IsTagged m.index) } := by
  rw [attachEvents_eq]
  refine List.map_congr_left fun m hm => ?_
  rw [MessageLog.find?_group (index_lt numbered hm)]
  rfl

theorem attachEvents_ofSearch (bare : ∀ m ∈ messages, m.events = []) (entries : List SearchLog) :
    attachEvents (entries.map MessageLog.ofSearch) messages = messages.map fun m => { m with
      events := ((entries.find? (·.IsOf m.index)).map (·.events)).getD [] } := by
  rw [attachEvents_eq]
  refine List.map_congr_left fun m hm => ?_
  rw [MessageLog.find?_ofSearch, bare m hm]

/-- Messages with one place are one message. -/
theorem eq_of_index_eq (numbered : messages.map (·.index) = List.range count) {m m' : TxMessage}
    (hm : m ∈ messages) (hm' : m' ∈ messages) (same : m.index = m'.index) : m = m' :=
  List.inj_on_of_nodup_map (numbered ▸ List.nodup_range) hm hm' same

/-- Of a transaction that ran, without a list of logs in the raw log: there is one log for
each message, in order, and a message is given the events that are tagged with its index,
as they are and in their order; an event that is tagged with no index of a message reaches
none, and no event reaches two. With such a list a message is given the events of the
first log that is of it, and none if there is no such log. -/
theorem events_reach_their_message (numbered : messages.map (·.index) = List.range count)
    (bare : ∀ m ∈ messages, m.events = []) (rawLog : String) (events : List Event) :
    ((Text.trim rawLog).toList.head? ≠ some '[' →
      ∃ logs, MessageLog.ofResult 0 rawLog events count = .ok logs ∧
        logs.map (·.index) = List.range count ∧
        attachEvents logs messages =
          messages.map (fun m => { m with events := events.filter (·.IsTagged m.index) }) ∧
        (∀ e, (∀ i < count, ¬ e.IsTagged i) → ∀ m ∈ attachEvents logs messages, e ∉ m.events) ∧
        ∀ m ∈ attachEvents logs messages, ∀ m' ∈ attachEvents logs messages, ∀ e,
          e ∈ m.events → e ∈ m'.events → m = m') ∧
    ∀ entries,
      (Json.ofText? (Text.trim rawLog)).bind (Json.list SearchLog.ofJson?) = some entries →
      ∃ logs, MessageLog.ofResult 0 rawLog events count = .ok logs ∧
        attachEvents logs messages = messages.map fun m => { m with
          events := ((entries.find? (·.IsOf m.index)).map (·.events)).getD [] } := by
  constructor
  · intro noList
    refine ⟨_, MessageLog.ofResult_tagged noList events count, MessageLog.index_group events count,
      attachEvents_group numbered, ?_, ?_⟩
    · intro e untagged m attached reached
      rw [attachEvents_group numbered] at attached
      obtain ⟨m, hm, rfl⟩ := List.mem_map.mp attached
      exact untagged m.index (index_lt numbered hm) (of_decide_eq_true (List.mem_filter.mp reached).2)
    · intro m attached m' attached' e reached reached'
      rw [attachEvents_group numbered] at attached attached'
      obtain ⟨m, hm, rfl⟩ := List.mem_map.mp attached
      obtain ⟨m', hm', rfl⟩ := List.mem_map.mp attached'
      have tagged : e.IsTagged m.index := of_decide_eq_true (List.mem_filter.mp reached).2
      have tagged' : e.IsTagged m'.index := of_decide_eq_true (List.mem_filter.mp reached').2
      rw [eq_of_index_eq numbered hm hm' (tagged.unique tagged')]
  · intro entries listed
    exact ⟨_, MessageLog.ofResult_listed listed events count, attachEvents_ofSearch bare entries⟩

def firstMessage : TxMessage := ⟨0, "/first", .raw [], []⟩

def secondMessage : TxMessage := ⟨1, "/second", .raw [], []⟩

def spentEvent : Event := ⟨"coin_spent", [⟨"msg_index", "0"⟩]⟩

def movedEvent : Event :=
  ⟨"transfer", [⟨"amount", "5uatom"⟩, ⟨"msg_index", "1"⟩, ⟨"msg_index", "0"⟩]⟩

/-- Events of two messages, between those of no message. -/
def mixedEvents : List Event :=
  [⟨"tx", []⟩, movedEvent, ⟨"transfer", [⟨"msg_index", "2"⟩]⟩, spentEvent,
    ⟨"tx", [⟨"msg_index", ""⟩]⟩]

/-- A log of no message, with an event. -/
def strayLog : SearchLog := ⟨-1, "", [⟨"transfer", []⟩]⟩

/-- The list with this log as a node writes it. -/
def strayRawLog : String :=
  "[\x7b\"msg_index\":-1,\"events\":[\x7b\"type\":\"transfer\"\x7d]\x7d]"

theorem strayRawLog_lists : (Json.ofText? (Text.trim strayRawLog)).bind
    (Json.list SearchLog.ofJson?) = some [strayLog] := by
  have trimmed : Text.trim strayRawLog = strayRawLog := by rfl
  rw [trimmed, Json.ofText?, strayRawLog, String.toList_ofList]
  rfl

theorem events_reach_their_message_mixed :
    [firstMessage, secondMessage].map (·.index) = List.range 2 ∧
      (∀ m ∈ [firstMessage, secondMessage], m.events = []) ∧
      (∃ logs, MessageLog.ofResult 0 "" mixedEvents 2 = .ok logs ∧
        (attachEvents logs [firstMessage, secondMessage]).map (·.events) =
          [[spentEvent], [movedEvent]]) ∧
      ∃ logs, MessageLog.ofResult 0 strayRawLog mixedEvents 2 = .ok logs ∧
        (attachEvents logs [firstMessage, secondMessage]).map (·.events) =
          [strayLog.events, []] := by
  have numbered : [firstMessage, secondMessage].map (·.index) = List.range 2 := by decide
  have bare : ∀ m ∈ [firstMessage, secondMessage], m.events = [] := by decide
  obtain ⟨logs, ran, -, attached, -⟩ :=
    (events_reach_their_message numbered bare "" mixedEvents).1 (by decide)
  obtain ⟨listed, ran', attached'⟩ :=
    (events_reach_their_message numbered bare strayRawLog mixedEvents).2 _ strayRawLog_lists
  refine ⟨numbered, bare, ⟨logs, ran, ?_⟩, listed, ran', ?_⟩
  · rw [attached]
    decide
  · rw [attached']
    decide

/-- It is not so that a message has the events of the first log whose index is its own: the
log of a negative index is taken for one of the first message. -/
theorem stray_events_reach_first_message :
    ¬ ∀ entries : List SearchLog,
      (Json.ofText? (Text.trim strayRawLog)).bind (Json.list SearchLog.ofJson?) = some entries →
      ∃ logs, MessageLog.ofResult 0 strayRawLog [] 1 = .ok logs ∧
        attachEvents logs [firstMessage] = [firstMessage].map fun m => { m with
          events := ((entries.find? fun l => l.messageIndex = (m.index : Int)).map
            (·.events)).getD [] } := by
  intro claimed
  obtain ⟨logs, ran, attached⟩ := claimed _ strayRawLog_lists
  rw [MessageLog.ofResult_listed strayRawLog_lists] at ran
  cases ran
  have events := congrArg (List.map TxMessage.events) attached
  exact absurd events (by decide)

end ChainIndex
