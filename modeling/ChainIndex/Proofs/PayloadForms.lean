/-
A message is read alike in both forms of its payload. The canonical bytes of a message
and the object in which a node shows it are read as the same record, whatever the order
of the object's members, so a handler comes to the same with either: the same data, or
the same refusal, which is then about the message and not about how it is written.
-/
import ChainIndex.Handler.Message
import ChainIndex.Proofs.Encoding

namespace ChainIndex

/-! ## Objects -/

namespace Json

/-- An object with these members and no others, in any order. -/
def HasMembers (members : List (String × Json)) (j : Json) : Prop :=
  ∃ listed, j = .object listed ∧ listed.Perm members

/-- An array whose items show these values in order. -/
def ShowsAll {α : Type} (shows : α → Json → Prop) (xs : List α) (j : Json) : Prop :=
  ∃ items, j = .array items ∧ List.Forall₂ shows xs items

variable {members listed : List (String × Json)} {j : Json}

/-- A key that is there once is found by filtering and by looking it up. -/
theorem filter_key (once : (members.map (·.1)).Nodup) (key : String) :
    members.filter (·.1 == key) = (members.lookup key).toList.map (key, ·) := by
  induction members with
  | nil => rfl
  | cons m members ih =>
    obtain ⟨k, v⟩ := m
    rw [List.map_cons, List.nodup_cons] at once
    rw [List.filter_cons, List.lookup_cons]
    by_cases here : key = k
    · subst here
      have others : members.filter (·.1 == key) = [] := List.filter_eq_nil_iff.mpr
        fun m hm same => once.1 (List.mem_map.mpr ⟨m, hm, by simpa using same⟩)
      simp [others]
    · simp [Ne.symm here, beq_false_of_ne here, ih once.2]

theorem onlyMember_of_perm (same : listed.Perm members) (once : (members.map (·.1)).Nodup)
    (key : String) : onlyMember listed key = some (members.lookup key) := by
  have found : (listed.filter (·.1 == key)).Perm _ := same.filter _
  rw [filter_key once] at found
  unfold onlyMember
  cases there : members.lookup key with
  | none =>
    rw [there] at found
    rw [List.perm_nil.mp found]
  | some v =>
    rw [there] at found
    rw [List.perm_singleton.mp found]

/-- In whatever order the members stand, the same one is found. -/
theorem lookup_of_perm (same : listed.Perm members) (once : (members.map (·.1)).Nodup)
    (key : String) : listed.lookup key = members.lookup key := by
  have found := onlyMember_of_perm same once key
  rw [onlyMember_of_perm (.refl listed) (((same.map _).nodup_iff).mpr once)] at found
  exact Option.some.inj found

theorem lookup_zip_map {α : Type} (f : String → α) {names : List String} {name : String}
    (listed : name ∈ names) : (names.zip (names.map f)).lookup name = some (f name) := by
  induction names with
  | nil => cases listed
  | cons first names ih =>
    rw [List.map_cons, List.zip_cons_cons, List.lookup_cons]
    by_cases here : name = first
    · simp [here]
    · simp [beq_false_of_ne here, ih ((List.mem_cons.mp listed).resolve_left here)]

theorem fields_object (listed : List (String × Json)) (names : List String) :
    (Json.object listed).fields names =
      (names.mapM (onlyMember listed)).bind fun found =>
        some fun name => ((names.zip found).lookup name).join :=
  rfl

/-- A record is read out of an object by the names of its fields; their order makes no
difference, and neither do other members. -/
theorem HasMembers.fields (h : j.HasMembers members) (once : (members.map (·.1)).Nodup)
    (names : List String) :
    ∃ f, j.fields names = some f ∧ ∀ name ∈ names, f name = members.lookup name := by
  obtain ⟨listed, rfl, same⟩ := h
  let value (name : String) : Option Json := members.lookup name
  have found : (names.map id).mapM (onlyMember listed) = some (names.map value) :=
    mapM_map_eq_pure fun name _ => onlyMember_of_perm same once name
  rw [List.map_id] at found
  refine ⟨fun name => ((names.zip (names.map value)).lookup name).join, ?_, fun name mem => ?_⟩
  · rw [fields_object, found]
    rfl
  · exact congrArg Option.join (lookup_zip_map value mem)

theorem ShowsAll.list_of_mem {α : Type} {shows : α → Json → Prop} {read : Json → Option α}
    {xs : List α} (each : ∀ x ∈ xs, ∀ j, shows x j → read j = some x) (h : j.ShowsAll shows xs) :
    list read j = some xs := by
  obtain ⟨items, rfl, shown⟩ := h
  rw [Json.list]
  induction shown with
  | nil => rfl
  | cons first _ ih =>
    have read := each _ List.mem_cons_self _ first
    simp [List.mapM_cons, read, ih fun x hx => each x (List.mem_cons_of_mem _ hx)]

theorem ShowsAll.list {α : Type} {shows : α → Json → Prop} {read : Json → Option α} {xs : List α}
    (each : ∀ x j, shows x j → read j = some x) (h : j.ShowsAll shows xs) :
    list read j = some xs :=
  h.list_of_mem fun x _ => each x

end Json

/-! ## Messages with their handlers -/

/-- A value of one of the message types that have a handler. -/
inductive HandledMessage where
  | send (m : Send)
  | multiSend (m : MultiSend)
  | withdrawReward (m : WithdrawReward)
  | withdrawCommission (m : WithdrawCommission)

namespace HandledMessage

def handler : HandledMessage → MessageHandler
  | send _ => .send
  | multiSend _ => .multiSend
  | withdrawReward _ => .withdrawReward
  | withdrawCommission _ => .withdrawCommission

/-- The canonical encoding. -/
def bytes : HandledMessage → Bytes
  | send m => Wire.write (Wire.ofSend m)
  | multiSend m => Wire.write (Wire.ofMultiSend m)
  | withdrawReward m => Wire.write (Wire.ofWithdrawReward m)
  | withdrawCommission m => Wire.write (Wire.ofWithdrawCommission m)

end HandledMessage

namespace Json

def ShowsCoin (c : Wire.CoinText) (j : Json) : Prop :=
  j.HasMembers [("denom", .string c.denom), ("amount", .string c.amount)]

def ShowsAddressCoins (a : AddressCoins) (j : Json) : Prop :=
  ∃ coins, ShowsAll ShowsCoin a.coins coins ∧
    j.HasMembers [("address", .string a.address), ("coins", coins)]

/-- The object in which a node shows a message, with its type as one more member. -/
def ShowsMessage (m : HandledMessage) (j : Json) : Prop :=
  ∃ type : Json, match m with
    | .send m => ∃ amount, ShowsAll ShowsCoin m.amount amount ∧
        j.HasMembers [("@type", type), ("from_address", .string m.sender),
          ("to_address", .string m.receiver), ("amount", amount)]
    | .multiSend m => ∃ inputs outputs, ShowsAll ShowsAddressCoins m.inputs inputs ∧
        ShowsAll ShowsAddressCoins m.outputs outputs ∧
          j.HasMembers [("@type", type), ("inputs", inputs), ("outputs", outputs)]
    | .withdrawReward m => j.HasMembers [("@type", type),
        ("delegator_address", .string m.delegator), ("validator_address", .string m.validator)]
    | .withdrawCommission m => j.HasMembers [("@type", type),
        ("validator_address", .string m.validator)]

/-! ## Reading objects -/

variable {j : Json}

theorem coinText?_of_shows (c : Wire.CoinText) (j : Json) (h : ShowsCoin c j) :
    coinText? j = some c := by
  obtain ⟨f, fields, found⟩ := h.fields (by simp) ["denom", "amount"]
  simp [coinText?, fields, Fields.getD, found, text, List.lookup_cons]

theorem addressCoins?_of_shows (a : AddressCoins) (j : Json) (h : ShowsAddressCoins a j) :
    addressCoins? j = some a := by
  obtain ⟨coins, shown, h⟩ := h
  obtain ⟨f, fields, found⟩ := h.fields (by simp) ["address", "coins"]
  simp [addressCoins?, fields, Fields.getD, found, text, List.lookup_cons,
    shown.list coinText?_of_shows]

theorem send?_of_shows {m : Send} (h : ShowsMessage (.send m) j) : send? j = some m := by
  obtain ⟨type, amount, shown, h⟩ := h
  obtain ⟨f, fields, found⟩ := h.fields (by simp) ["from_address", "to_address", "amount"]
  simp [send?, fields, Fields.getD, found, text, List.lookup_cons, shown.list coinText?_of_shows]

theorem multiSend?_of_shows {m : MultiSend} (h : ShowsMessage (.multiSend m) j) :
    multiSend? j = some m := by
  obtain ⟨type, inputs, outputs, shownInputs, shownOutputs, h⟩ := h
  obtain ⟨f, fields, found⟩ := h.fields (by simp) ["inputs", "outputs"]
  simp [multiSend?, fields, Fields.getD, found, List.lookup_cons,
    shownInputs.list addressCoins?_of_shows, shownOutputs.list addressCoins?_of_shows]

theorem withdrawReward?_of_shows {m : WithdrawReward} (h : ShowsMessage (.withdrawReward m) j) :
    withdrawReward? j = some m := by
  obtain ⟨type, h⟩ := h
  obtain ⟨f, fields, found⟩ := h.fields (by simp) ["delegator_address", "validator_address"]
  simp [withdrawReward?, fields, Fields.getD, found, text, List.lookup_cons]

theorem withdrawCommission?_of_shows {m : WithdrawCommission}
    (h : ShowsMessage (.withdrawCommission m) j) : withdrawCommission? j = some m := by
  obtain ⟨type, h⟩ := h
  obtain ⟨f, fields, found⟩ := h.fields (by simp) ["validator_address"]
  simp [withdrawCommission?, fields, Fields.getD, found, text, List.lookup_cons]

end Json

/-! ## Reading bytes -/

namespace Wire

variable {n : Nat}

theorem ofSend_eq (m : Send) :
    ofSend m = ofText 1 m.sender ++ ofText 2 m.receiver ++ ofRecords 3 ofCoinText m.amount := rfl

theorem ofAddressCoins_eq (a : AddressCoins) :
    ofAddressCoins a = ofText 1 a.address ++ ofRecords 2 ofCoinText a.coins := rfl

theorem ofMultiSend_eq (m : MultiSend) :
    ofMultiSend m = ofRecords 1 ofAddressCoins m.inputs ++ ofRecords 2 ofAddressCoins m.outputs :=
  rfl

theorem spells_coinText (c : CoinText) : Spells coinText? n (ofCoinText c) c := spells_coin c

theorem spells_send (m : Send) : Spells send? (n + 1) (ofSend m) m where
  writable := by simp [ofSend_eq, writable_ofText, writable_ofRecords]
  reads small := by
    have sender : text 1 (ofSend m) = some m.sender := text_of_values (by simp [ofSend_eq])
    have receiver : text 2 (ofSend m) = some m.receiver := text_of_values (by simp [ofSend_eq])
    have amount : records (n + 1) coinText? 3 (ofSend m) = some (m.amount.map id) :=
      records_of_values (fun c _ => spells_coinText c) small (by simp [ofSend_eq])
    simp [send?, sender, receiver, amount]

theorem spells_addressCoins (a : AddressCoins) :
    Spells addressCoins? (n + 1) (ofAddressCoins a) a where
  writable := by simp [ofAddressCoins_eq, writable_ofText, writable_ofRecords]
  reads small := by
    have address : text 1 (ofAddressCoins a) = some a.address :=
      text_of_values (by simp [ofAddressCoins_eq])
    have coins : records (n + 1) coinText? 2 (ofAddressCoins a) = some (a.coins.map id) :=
      records_of_values (fun c _ => spells_coinText c) small (by simp [ofAddressCoins_eq])
    simp [addressCoins?, address, coins]

theorem spells_multiSend (m : MultiSend) : Spells multiSend? (n + 2) (ofMultiSend m) m where
  writable := by simp [ofMultiSend_eq, writable_ofRecords]
  reads small := by
    have inputs : records (n + 2) addressCoins? 1 (ofMultiSend m) = some (m.inputs.map id) :=
      records_of_values (fun a _ => spells_addressCoins a) small (by simp [ofMultiSend_eq])
    have outputs : records (n + 2) addressCoins? 2 (ofMultiSend m) = some (m.outputs.map id) :=
      records_of_values (fun a _ => spells_addressCoins a) small (by simp [ofMultiSend_eq])
    simp [multiSend?, inputs, outputs]

theorem spells_withdrawReward (m : WithdrawReward) :
    Spells withdrawReward? n (ofWithdrawReward m) m where
  writable := by simp [ofWithdrawReward, writable_ofText]
  reads _ := by
    have delegator : text 1 (ofWithdrawReward m) = some m.delegator :=
      text_of_values (by simp [ofWithdrawReward])
    have validator : text 2 (ofWithdrawReward m) = some m.validator :=
      text_of_values (by simp [ofWithdrawReward])
    simp [withdrawReward?, delegator, validator]

theorem spells_withdrawCommission (m : WithdrawCommission) :
    Spells withdrawCommission? n (ofWithdrawCommission m) m where
  writable := by simp [ofWithdrawCommission, writable_ofText]
  reads _ := by
    have validator : text 1 (ofWithdrawCommission m) = some m.validator :=
      text_of_values (by simp [ofWithdrawCommission])
    simp [withdrawCommission?, validator]

end Wire

/-! ## What handlers make of a payload -/

namespace HandledMessage

/-- What the payload is read as is this value. -/
def IsReadFrom (payload : Payload) : HandledMessage → Prop
  | send m => payload.read? Wire.send? Json.send? = some m
  | multiSend m => payload.read? Wire.multiSend? Json.multiSend? = some m
  | withdrawReward m => payload.read? Wire.withdrawReward? Json.withdrawReward? = some m
  | withdrawCommission m =>
    payload.read? Wire.withdrawCommission? Json.withdrawCommission? = some m

theorem isReadFrom_bytes (m : HandledMessage) (small : m.bytes.length < Wire.maxLength) :
    m.IsReadFrom (.raw m.bytes) := by
  cases m with
  | send m => exact (Wire.spells_send m).message small
  | multiSend m => exact (Wire.spells_multiSend m).message small
  | withdrawReward m => exact (Wire.spells_withdrawReward m).message small
  | withdrawCommission m => exact (Wire.spells_withdrawCommission m).message small

theorem isReadFrom_shown {m : HandledMessage} {j : Json} (shown : Json.ShowsMessage m j) :
    m.IsReadFrom (.json j) := by
  cases m with
  | send m => exact Json.send?_of_shows shown
  | multiSend m => exact Json.multiSend?_of_shows shown
  | withdrawReward m => exact Json.withdrawReward?_of_shows shown
  | withdrawCommission m => exact Json.withdrawCommission?_of_shows shown

variable {m : HandledMessage} {payload other : Payload}

/-- A handler looks at a payload only to read it. -/
theorem read_congr (here : m.IsReadFrom payload) (there : m.IsReadFrom other) (index : Nat)
    (typeUrl : String) (events : List Event) :
    m.handler.read ⟨index, typeUrl, payload, events⟩ =
      m.handler.read ⟨index, typeUrl, other, events⟩ := by
  cases m with
  | send m =>
    simp only [IsReadFrom] at here there
    simp only [handler, MessageHandler.send, MessageHandler.readSend, TxMessage.payloadAs, here,
      there]
    rfl
  | multiSend m =>
    simp only [IsReadFrom] at here there
    simp only [handler, MessageHandler.multiSend, MessageHandler.readMultiSend,
      TxMessage.payloadAs, here, there]
    rfl
  | withdrawReward m =>
    simp only [IsReadFrom] at here there
    simp only [handler, MessageHandler.withdrawReward, MessageHandler.readWithdrawReward,
      TxMessage.payloadAs, here, there]
    rfl
  | withdrawCommission m =>
    simp only [IsReadFrom] at here there
    simp only [handler, MessageHandler.withdrawCommission, MessageHandler.readWithdrawCommission,
      TxMessage.payloadAs, here, there]
    rfl

end HandledMessage

/-! ## Refusals -/

/-- The payload was read, whatever was then found wrong. -/
def MessageHandlerError.IsOfContent {α : Type} (result : Except MessageHandlerError α) : Prop :=
  ∀ typeUrl, result ≠ .error (.unreadable typeUrl)

open MessageHandlerError (IsOfContent)

namespace MessageHandler

variable {α β : Type}

theorem isOfContent_ok (a : α) : IsOfContent (.ok a) := fun _ h => by cases h

theorem isOfContent_bind {x : Except MessageHandlerError α} {f : α → Except MessageHandlerError β}
    (first : IsOfContent x) (rest : ∀ a, IsOfContent (f a)) : IsOfContent (x >>= f) := by
  intro typeUrl h
  cases x with
  | ok a => exact rest a typeUrl h
  | error e =>
    cases h
    exact first typeUrl rfl

theorem isOfContent_mapM {f : α → Except MessageHandlerError β} {xs : List α}
    (each : ∀ x, IsOfContent (f x)) : IsOfContent (xs.mapM f) := by
  intro typeUrl h
  obtain ⟨before, x, after, -, -, refused⟩ := mapM_eq_error_iff.mp h
  exact each x typeUrl refused

theorem isOfContent_payloadCoins (typeUrl : String) (cs : List Wire.CoinText) :
    IsOfContent (payloadCoins typeUrl cs) := by
  refine isOfContent_bind (isOfContent_mapM fun c => ?_) fun coins => isOfContent_ok _
  refine isOfContent_bind (fun other h => ?_) fun amount => isOfContent_ok _
  cases parsed : Decimal.parse? c.amount <;> rw [parsed] at h <;> cases h

theorem isOfContent_logCoins (typeUrl : String) (e : Event) : IsOfContent (logCoins typeUrl e) := by
  refine isOfContent_bind (fun other h => ?_) fun coins => isOfContent_ok _
  cases parsed : Coin.parseList (e.attributeD "amount") <;> rw [parsed] at h <;> cases h

theorem isOfContent_checkRecipient (m : TxMessage) (receiver : String) :
    IsOfContent (checkRecipient m receiver) := by
  intro typeUrl h
  unfold checkRecipient at h
  split at h
  · split at h <;> cases h
  · cases h

theorem isOfContent_allCoins (typeUrl : String) (parts : List AddressCoins) :
    IsOfContent (allCoins typeUrl parts) :=
  isOfContent_bind (isOfContent_mapM fun part => isOfContent_payloadCoins typeUrl part.coins)
    fun _ => isOfContent_ok _

theorem isOfContent_payloadAs {m : TxMessage} {wire : Nat → List Wire.Field → Option α}
    {json : Json → Option α} {a : α} (read : m.payload.read? wire json = some a) :
    IsOfContent (m.payloadAs wire json) := by
  rw [TxMessage.payloadAs, read]
  exact isOfContent_ok a

end MessageHandler

namespace HandledMessage

open MessageHandler

/-- What a handler refuses of a payload that can be read is its content. -/
theorem isOfContent_read {m : HandledMessage} {payload : Payload} (read : m.IsReadFrom payload)
    (index : Nat) (typeUrl : String) (events : List Event) :
    IsOfContent (m.handler.read ⟨index, typeUrl, payload, events⟩) := by
  cases m with
  | send m =>
    refine isOfContent_bind (isOfContent_payloadAs read) fun msg => ?_
    exact isOfContent_bind (isOfContent_checkRecipient _ _) fun _ =>
      isOfContent_bind (isOfContent_payloadCoins _ _) fun coins => isOfContent_ok _
  | multiSend m =>
    refine isOfContent_bind (isOfContent_payloadAs read) fun msg => ?_
    refine isOfContent_bind (isOfContent_allCoins _ _) fun sent =>
      isOfContent_bind (isOfContent_allCoins _ _) fun received => ?_
    have entries : IsOfContent (do
        let data ← msg.outputs.mapM fun output => do
          let coins ← payloadCoins typeUrl output.coins
          return TxMessage.entries ⟨index, typeUrl, payload, events⟩ (onlyAddress msg.inputs)
            output.address coins
        return data.flatten) :=
      isOfContent_bind (isOfContent_mapM fun output =>
        isOfContent_bind (isOfContent_payloadCoins _ _) fun coins => isOfContent_ok _)
        fun data => isOfContent_ok _
    dsimp only
    split
    · exact isOfContent_bind (fun other h => by cases h) fun _ => entries
    · exact entries
  | withdrawReward m =>
    refine isOfContent_bind (isOfContent_payloadAs read) fun msg => ?_
    dsimp only
    split
    · exact isOfContent_bind (isOfContent_logCoins _ _) fun coins => isOfContent_ok _
    · exact isOfContent_ok _
  | withdrawCommission m =>
    refine isOfContent_bind (isOfContent_payloadAs read) fun msg => ?_
    split
    · exact isOfContent_bind (isOfContent_logCoins _ _) fun coins => isOfContent_ok _
    · exact isOfContent_bind (isOfContent_logCoins _ _) fun coins => isOfContent_ok _
    · refine isOfContent_bind (isOfContent_logCoins _ _) fun coins => ?_
      split
      · exact isOfContent_ok _
      · exact fun other h => by cases h
    · exact fun other h => by cases h

/-- **Both forms of a payload are read alike.** With the canonical bytes of a message and with
the object that shows it, its handler accepts both with the same data, or refuses both for the
same reason, which is not that the payload could not be read. -/
theorem forms_read_alike (m : HandledMessage) (index : Nat) (typeUrl : String)
    (events : List Event) {j : Json} (small : m.bytes.length < Wire.maxLength)
    (shown : Json.ShowsMessage m j) :
    let raw := m.handler.read ⟨index, typeUrl, .raw m.bytes, events⟩
    let json := m.handler.read ⟨index, typeUrl, .json j, events⟩
    (∃ data, raw = .ok data ∧ json = .ok data) ∨
      ∃ e, raw = .error e ∧ json = .error e ∧ ∀ other, e ≠ .unreadable other := by
  intro raw json
  have read := m.isReadFrom_bytes small
  have same : raw = json := read_congr read (isReadFrom_shown shown) index typeUrl events
  have content : IsOfContent raw := isOfContent_read read index typeUrl events
  rw [← same]
  cases result : raw with
  | ok data => exact .inl ⟨data, rfl, rfl⟩
  | error e => exact .inr ⟨e, rfl, rfl, fun other h => content other (h ▸ result)⟩

/-- One input for two outputs, one of which receives two coins and the other one none. -/
def splitPayment : HandledMessage :=
  .multiSend ⟨[⟨"a", [⟨"uatom", "3"⟩]⟩], [⟨"b", [⟨"uatom", "2"⟩, ⟨"uatom", "1.0"⟩]⟩, ⟨"", []⟩]⟩

/-- The object of a coin or of an input, with its members in reverse. -/
def reversed (members : List (String × Json)) : Json := .object members.reverse

def splitPaymentInputs : Json :=
  .array [reversed [("address", .string "a"),
    ("coins", .array [reversed [("denom", .string "uatom"), ("amount", .string "3")]])]]

def splitPaymentOutputs : Json :=
  .array [reversed [("address", .string "b"),
      ("coins", .array [reversed [("denom", .string "uatom"), ("amount", .string "2")],
        reversed [("denom", .string "uatom"), ("amount", .string "1.0")]])],
    reversed [("address", .string ""), ("coins", .array [])]]

def splitPaymentObject : Json :=
  reversed [("@type", .string MessageHandler.multiSendType), ("inputs", splitPaymentInputs),
    ("outputs", splitPaymentOutputs)]

theorem reversed_hasMembers (members : List (String × Json)) :
    (reversed members).HasMembers members :=
  ⟨_, rfl, members.reverse_perm⟩

theorem splitPaymentObject_shown : Json.ShowsMessage splitPayment splitPaymentObject := by
  refine ⟨_, splitPaymentInputs, splitPaymentOutputs, ⟨_, rfl, .cons ?_ .nil⟩,
    ⟨_, rfl, .cons ?_ (.cons ?_ .nil)⟩, reversed_hasMembers _⟩
  · exact ⟨_, ⟨_, rfl, .cons (reversed_hasMembers _) .nil⟩, reversed_hasMembers _⟩
  · exact ⟨_, ⟨_, rfl, .cons (reversed_hasMembers _) (.cons (reversed_hasMembers _) .nil)⟩,
      reversed_hasMembers _⟩
  · exact ⟨_, ⟨_, rfl, .nil⟩, reversed_hasMembers _⟩

theorem forms_read_alike_splitPayment :
    splitPayment.bytes.length < Wire.maxLength ∧
    Json.ShowsMessage splitPayment splitPaymentObject ∧
    splitPayment.handler.read ⟨4, "/m", .json splitPaymentObject, []⟩ = .ok [
      ⟨4, "/m", "a", "b", ⟨2, 0⟩, "uatom"⟩, ⟨4, "/m", "a", "b", ⟨10, 1⟩, "uatom"⟩] := by
  have small : splitPayment.bytes.length < Wire.maxLength := by decide +kernel
  have raw : splitPayment.handler.read ⟨4, "/m", .raw splitPayment.bytes, []⟩ = .ok [
      ⟨4, "/m", "a", "b", ⟨2, 0⟩, "uatom"⟩, ⟨4, "/m", "a", "b", ⟨10, 1⟩, "uatom"⟩] := by
    decide +kernel
  refine ⟨small, splitPaymentObject_shown, ?_⟩
  rcases forms_read_alike splitPayment 4 "/m" [] small splitPaymentObject_shown with
    ⟨data, accepted, json⟩ | ⟨e, refused, -⟩
  · rw [json, ← accepted, raw]
  · cases raw.symm.trans refused

end HandledMessage

end ChainIndex
