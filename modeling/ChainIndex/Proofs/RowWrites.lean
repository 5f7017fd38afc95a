/-
What a write does to each row. A row that a write leaves depends on nothing but the
write and the row that was there under the same key. So a batch that is written twice
leaves what it leaves when it is written once, and writes that meet in no row, or
only in the block that both know alike, may come in either order.
-/
import ChainIndex.Proofs.AllOrNothing
import ChainIndex.Proofs.Commute

namespace ChainIndex

open Database

/-! ## Rows that a write leaves -/

namespace Database

/-- The row of a transaction with all rows that belong to it. -/
def TxRow.whole (chainId : String) (tx : TxRecord) : Except RowError TxRow := do
  let row ← Step.txRow chainId tx
  let messages ← tx.messages.mapM MessageRow.ofMessage
  let fees ← tx.fees.mapM FeeRow.ofFee
  let data ← tx.data.mapM MessageDataRow.ofData
  return { row with messages, fees, data }

/-- The last transaction of some hash decides. -/
def TxRow.after (chainId : String) (txs : List TxRecord) (key : String × String)
    (old : Option TxRow) : Option TxRow :=
  match txs.reverse.find? fun tx => (chainId, tx.hash) == key with
  | some tx => (TxRow.whole chainId tx).toOption
  | none => old

def FailedBlockRow.closed (row : FailedBlockRow) : FailedBlockRow :=
  { row with resolved := true }

end Database

namespace StoreWrite

/-- The denominations that the write names. -/
def denoms : StoreWrite → List String
  | failure _ => []
  | txs b => b.txs.flatMap fun tx => tx.fees.map (·.denom)
  | events b => b.data.map (·.denom)

def onBlock (w : StoreWrite) (key : String × Int) (old : Option BlockRow) : Option BlockRow :=
  match w with
  | failure _ => old
  | txs b =>
    if key = (b.chainId, b.height) then some (BlockRow.written b.header b.indexed old) else old
  | events b =>
    if key = (b.chainId, b.height) then
      some (BlockRow.written b.header (some .blockEvents) old) else old

def onTx (w : StoreWrite) (key : String × String) (old : Option TxRow) : Option TxRow :=
  match w with
  | txs b => TxRow.after b.chainId b.txs key old
  | _ => old

def onEvents (w : StoreWrite) (key : String × Int) (old : Option (List BlockEventRow)) :
    Option (List BlockEventRow) :=
  match w with
  | events b =>
    if key = (b.chainId, b.height) then (b.events.mapM (Step.eventRow b.chainId)).toOption
    else old
  | _ => old

def onEventData (w : StoreWrite) (key : String × Int) (old : Option (List EventDataRow)) :
    Option (List EventDataRow) :=
  match w with
  | events b =>
    if key = (b.chainId, b.height) then (b.data.mapM (Step.dataRow b.chainId)).toOption else old
  | _ => old

def onFailure (w : StoreWrite) (key : String × Int × String) (old : Option FailedBlockRow) :
    Option FailedBlockRow :=
  match w with
  | failure r =>
    if key = (r.chainId, r.height, r.kind.name) then some (FailedBlockRow.written r old) else old
  | txs b =>
    if b.isComplete ∧ key = (b.chainId, b.height, DataKind.transactions.name) then
      old.map (·.closed) else old
  | events b =>
    if key = (b.chainId, b.height, DataKind.blockEvents.name) then old.map (·.closed) else old

def onDenom (w : StoreWrite) (base : String) (old : Option DenomRow) : Option DenomRow :=
  if base ∈ w.denoms then some (old.getD .unnamed) else old

end StoreWrite

/-! ## Writes among each other -/

namespace StoreWrite

/-- Two writes that may come in either order: those of different places that share no
transaction, and the two batches of one block. -/
inductive Independent : StoreWrite → StoreWrite → Prop
  | apart {w w'} (places : w.place ≠ w'.place) (hashes : ∀ key ∈ w.txKeys, key ∉ w'.txKeys) :
    Independent w w'
  | siblings {b : TxBatch} {e : EventBatch} (place : (b.chainId, b.height) = (e.chainId, e.height))
    (hash : b.blockHash = e.blockHash) (time : b.time = e.time) : Independent (.txs b) (.events e)
  | siblings' {b : TxBatch} {e : EventBatch} (place : (b.chainId, b.height) = (e.chainId, e.height))
    (hash : b.blockHash = e.blockHash) (time : b.time = e.time) : Independent (.events e) (.txs b)

variable {w w' : StoreWrite}

theorem onBlock_elsewhere {key : String × Int} (other : key ≠ w.place) (old : Option BlockRow) :
    w.onBlock key old = old := by
  cases w with
  | failure r => rfl
  | txs b => exact if_neg other
  | events b => exact if_neg other

theorem onEvents_elsewhere {key : String × Int} (other : key ≠ w.place)
    (old : Option (List BlockEventRow)) : w.onEvents key old = old := by
  cases w with
  | failure r => rfl
  | txs b => rfl
  | events b => exact if_neg other

theorem onEventData_elsewhere {key : String × Int} (other : key ≠ w.place)
    (old : Option (List EventDataRow)) : w.onEventData key old = old := by
  cases w with
  | failure r => rfl
  | txs b => rfl
  | events b => exact if_neg other

theorem onFailure_elsewhere {key : String × Int × String} (other : (key.1, key.2.1) ≠ w.place)
    (old : Option FailedBlockRow) : w.onFailure key old = old := by
  cases w with
  | failure r =>
    refine if_neg fun same => other ?_
    rw [same]
    rfl
  | txs b =>
    refine if_neg fun same => other ?_
    rw [same.2]
    rfl
  | events b =>
    refine if_neg fun same => other ?_
    rw [same]
    rfl

theorem onTx_elsewhere {key : String × String} (other : key ∉ w.txKeys) (old : Option TxRow) :
    w.onTx key old = old := by
  cases w with
  | failure r => rfl
  | events b => rfl
  | txs b =>
    have none : (b.txs.reverse.find? fun tx => (b.chainId, tx.hash) == key) = none := by
      refine List.find?_eq_none.mpr fun tx mem same => other ?_
      have same : (b.chainId, tx.hash) = key := by simpa using same
      exact List.mem_map.mpr ⟨tx, List.mem_reverse.mp mem, same⟩
    unfold onTx TxRow.after
    dsimp only
    rw [none]

/-- Of two changes one of which changes nothing either may come first. -/
theorem commute_of_idle {α : Type} {g g' : α → α} (h : (∀ a, g a = a) ∨ ∀ a, g' a = a) (a : α) :
    g (g' a) = g' (g a) := by
  rcases h with idle | idle
  · rw [idle, idle]
  · rw [idle, idle]

/-- A place is another one than that of one of two writes. -/
theorem elsewhere_of_apart (places : w.place ≠ w'.place) (place : String × Int) :
    place ≠ w.place ∨ place ≠ w'.place := by
  by_cases here : place = w.place
  · exact .inr (here ▸ places)
  · exact .inl here

/-- The two batches of a block say the same of it, but for the proposer and the flags. -/
theorem onBlock_siblings {b : TxBatch} {e : EventBatch}
    (place : (b.chainId, b.height) = (e.chainId, e.height)) (hash : b.blockHash = e.blockHash)
    (time : b.time = e.time) (key : String × Int) (old : Option BlockRow) :
    (txs b).onBlock key ((events e).onBlock key old) =
      (events e).onBlock key ((txs b).onBlock key old) := by
  unfold onBlock
  dsimp only
  rw [← place]
  by_cases here : key = (b.chainId, b.height)
  · simp only [if_pos here]
    simp [BlockRow.written, TxBatch.header, EventBatch.header, hash, time, Bool.or_comm,
      Bool.or_left_comm]
  · simp only [if_neg here]

theorem onBlock_commute (h : w.Independent w') (key : String × Int) (old : Option BlockRow) :
    w.onBlock key (w'.onBlock key old) = w'.onBlock key (w.onBlock key old) := by
  cases h with
  | apart places hashes =>
    exact commute_of_idle
      ((elsewhere_of_apart places key).imp onBlock_elsewhere onBlock_elsewhere) old
  | siblings place hash time => exact onBlock_siblings place hash time key old
  | siblings' place hash time => exact (onBlock_siblings place hash time key old).symm

theorem onTx_commute (h : w.Independent w') (key : String × String) (old : Option TxRow) :
    w.onTx key (w'.onTx key old) = w'.onTx key (w.onTx key old) := by
  cases h with
  | apart places hashes =>
    refine commute_of_idle ?_ old
    by_cases here : key ∈ w.txKeys
    · exact .inr (onTx_elsewhere (hashes key here))
    · exact .inl (onTx_elsewhere here)
  | siblings place hash time => rfl
  | siblings' place hash time => rfl

theorem onEvents_commute (h : w.Independent w') (key : String × Int)
    (old : Option (List BlockEventRow)) :
    w.onEvents key (w'.onEvents key old) = w'.onEvents key (w.onEvents key old) := by
  cases h with
  | apart places hashes =>
    exact commute_of_idle
      ((elsewhere_of_apart places key).imp onEvents_elsewhere onEvents_elsewhere) old
  | siblings place hash time => rfl
  | siblings' place hash time => rfl

theorem onEventData_commute (h : w.Independent w') (key : String × Int)
    (old : Option (List EventDataRow)) :
    w.onEventData key (w'.onEventData key old) = w'.onEventData key (w.onEventData key old) := by
  cases h with
  | apart places hashes =>
    exact commute_of_idle
      ((elsewhere_of_apart places key).imp onEventData_elsewhere onEventData_elsewhere) old
  | siblings place hash time => rfl
  | siblings' place hash time => rfl

/-- No failure is one of both kinds of data. -/
theorem onFailure_siblings (b : TxBatch) (e : EventBatch) (key : String × Int × String)
    (old : Option FailedBlockRow) :
    (txs b).onFailure key ((events e).onFailure key old) =
      (events e).onFailure key ((txs b).onFailure key old) := by
  refine commute_of_idle ?_ old
  by_cases kind : key.2.2 = DataKind.transactions.name
  · refine .inr fun old => if_neg fun same => ?_
    rw [same] at kind
    have kind : DataKind.blockEvents.name = DataKind.transactions.name := kind
    exact absurd kind (by decide)
  · refine .inl fun old => if_neg fun same => kind ?_
    rw [same.2]

theorem onFailure_commute (h : w.Independent w') (key : String × Int × String)
    (old : Option FailedBlockRow) :
    w.onFailure key (w'.onFailure key old) = w'.onFailure key (w.onFailure key old) := by
  cases h with
  | apart places hashes =>
    exact commute_of_idle ((elsewhere_of_apart places (key.1, key.2.1)).imp
      onFailure_elsewhere onFailure_elsewhere) old
  | siblings place hash time => exact onFailure_siblings _ _ key old
  | siblings' place hash time => exact (onFailure_siblings _ _ key old).symm

/-- A denomination that is there stays as it is, so the order makes no difference. -/
theorem onDenom_commute (w w' : StoreWrite) (base : String) (old : Option DenomRow) :
    w.onDenom base (w'.onDenom base old) = w'.onDenom base (w.onDenom base old) := by
  unfold onDenom
  by_cases here : base ∈ w.denoms <;> by_cases there : base ∈ w'.denoms <;> simp [here, there]

/-! ## Writes after themselves -/

theorem onBlock_twice (w : StoreWrite) (key : String × Int) (old : Option BlockRow) :
    w.onBlock key (w.onBlock key old) = w.onBlock key old := by
  cases w with
  | failure r => rfl
  | txs b =>
    unfold onBlock
    dsimp only
    split
    · cases old <;> simp [BlockRow.written, TxBatch.header]
    · rfl
  | events b =>
    unfold onBlock
    dsimp only
    split
    · cases old <;> simp [BlockRow.written, EventBatch.header]
    · rfl

theorem onTx_twice (w : StoreWrite) (key : String × String) (old : Option TxRow) :
    w.onTx key (w.onTx key old) = w.onTx key old := by
  cases w with
  | failure r => rfl
  | events b => rfl
  | txs b =>
    unfold onTx TxRow.after
    dsimp only
    split <;> rfl

theorem onEvents_twice (w : StoreWrite) (key : String × Int) (old : Option (List BlockEventRow)) :
    w.onEvents key (w.onEvents key old) = w.onEvents key old := by
  cases w with
  | failure r => rfl
  | txs b => rfl
  | events b =>
    unfold onEvents
    dsimp only
    split <;> rfl

theorem onEventData_twice (w : StoreWrite) (key : String × Int) (old : Option (List EventDataRow)) :
    w.onEventData key (w.onEventData key old) = w.onEventData key old := by
  cases w with
  | failure r => rfl
  | txs b => rfl
  | events b =>
    unfold onEventData
    dsimp only
    split <;> rfl

/-- A failure that a batch resolves is resolved once; recording one again would count. -/
theorem onFailure_twice (batch : ∀ r, w ≠ failure r) (key : String × Int × String)
    (old : Option FailedBlockRow) :
    w.onFailure key (w.onFailure key old) = w.onFailure key old := by
  cases w with
  | failure r => exact absurd rfl (batch r)
  | txs b =>
    unfold onFailure
    dsimp only
    split
    · rw [Option.map_map]
      rfl
    · rfl
  | events b =>
    unfold onFailure
    dsimp only
    split
    · rw [Option.map_map]
      rfl
    · rfl

theorem onDenom_twice (w : StoreWrite) (base : String) (old : Option DenomRow) :
    w.onDenom base (w.onDenom base old) = w.onDenom base old := by
  unfold onDenom
  split <;> rfl

end StoreWrite

/-! ## Steps row by row -/

namespace Database

theorem TxRow.after_cons (chainId : String) (tx : TxRecord) (txs : List TxRecord)
    (key : String × String) (old : Option TxRow) :
    TxRow.after chainId (tx :: txs) key old = TxRow.after chainId txs key
      (if key = (chainId, tx.hash) then (TxRow.whole chainId tx).toOption else old) := by
  unfold TxRow.after
  rw [List.reverse_cons, List.find?_append]
  cases txs.reverse.find? fun tx => (chainId, tx.hash) == key with
  | some last => rfl
  | none =>
    by_cases same : key = (chainId, tx.hash)
    · simp [same]
    · simp [same, Ne.symm same]

variable {α β : Type} {applied : Nat} {table : TableName}

theorem Step.apply_insert {rows : Except RowError α} {change : α → Tables → Tables}
    (fits : (Step.insert table (rows.map change)).Fits applied) :
    ∃ r, rows = .ok r ∧ (Step.insert table (rows.map change)).apply = change r := by
  cases rows with
  | error e => cases fits.2
  | ok r => exact ⟨r, rfl, rfl⟩

/-- Inserting several rows changes the tables as it says, also if there are none. -/
theorem Tables.after_insertAll {rows : List α} {read : α → Except RowError β}
    {change : List β → Tables → Tables}
    (fits : ∀ step ∈ Step.insertAll table rows read change, step.Fits applied) :
    ∃ r, rows.mapM read = .ok r ∧ ∀ t : Tables, (rows = [] → change [] t = t) →
      t.after (Step.insertAll table rows read change) = change r t := by
  cases rows with
  | nil => exact ⟨[], rfl, fun t none => (none rfl).symm⟩
  | cons row rows =>
    have inserted : Step.insertAll table (row :: rows) read change =
      [.insert table (((row :: rows).mapM read).map change)] := rfl
    rw [inserted] at fits ⊢
    obtain ⟨r, read, apply⟩ := Step.apply_insert (fits _ List.mem_cons_self)
    refine ⟨r, read, fun t _ => ?_⟩
    rw [after_cons, after_nil, apply]

namespace Tables

/-! ### Blocks, denominations and failures -/

theorem get?_addDenoms (bases : List String) (t : Tables) (base : String) :
    (t.addDenoms bases).denoms.get? base =
      if base ∈ bases then some ((t.denoms.get? base).getD .unnamed) else t.denoms.get? base := by
  have step (denoms : Table String DenomRow) :
      (bases.foldl (fun ds b => Table.update b (·.getD .unnamed) ds) denoms).get? base =
        if base ∈ bases then some ((denoms.get? base).getD .unnamed) else denoms.get? base := by
    induction bases generalizing denoms with
    | nil => rfl
    | cons first rest ih =>
      rw [List.foldl_cons, ih, Table.get?_update]
      by_cases here : base = first
      · simp [here]
      · simp [here]
  exact step t.denoms

theorem get?_resolveFailure (t : Tables) (key other : String × Int × String) :
    (t.resolveFailure key).failures.get? other =
      if other = key then (t.failures.get? other).map (·.closed) else t.failures.get? other := by
  unfold resolveFailure openFailure?
  by_cases same : other = key
  · subst same
    rw [if_pos rfl]
    cases found : t.failures.get? other with
    | none => exact found
    | some row =>
      cases resolved : row.resolved with
      | false => simp [Option.filter, resolved, FailedBlockRow.closed]
      | true =>
        have closed : row.closed = row := by rw [FailedBlockRow.closed, ← resolved]
        simp [Option.filter, resolved, closed, found]
  · rw [if_neg same]
    split
    · exact Table.get?_put_other same _ _
    · rfl

/-! ### Transactions -/

/-- Nothing but the row of one transaction has changed. -/
structure TxChanged (key : String × String) (g : Option TxRow → Option TxRow) (t t' : Tables) :
    Prop where
  rest : t' = { t with txs := t'.txs }
  row : ∀ other, t'.txs.get? other = if other = key then g (t.txs.get? other) else t.txs.get? other

variable {key : String × String} {t t' t'' : Tables}

theorem TxChanged.trans {g g' : Option TxRow → Option TxRow} (first : TxChanged key g t t')
    (second : TxChanged key g' t' t'') : TxChanged key (g' ∘ g) t t'' where
  rest := by
    rw [second.rest, first.rest]
  row other := by
    rw [second.row, first.row]
    by_cases same : other = key
    · simp only [if_pos same, Function.comp_apply]
    · simp only [if_neg same]

theorem txChanged_update (key : String × String) (f : Option TxRow → TxRow) (t : Tables) :
    TxChanged key (fun old => some (f old)) t { t with txs := t.txs.update key f } where
  rest := rfl
  row other := by
    rw [Table.get?_update]
    by_cases same : other = key
    · rw [if_pos same, if_pos same, same]
    · rw [if_neg same, if_neg same]

theorem txChanged_onTx (key : String × String) (f : TxRow → TxRow) (t : Tables) :
    TxChanged key (Option.map f) t (t.onTx key f) := by
  unfold onTx
  cases found : t.txs.get? key with
  | none =>
    refine ⟨rfl, fun other => ?_⟩
    by_cases same : other = key
    · rw [if_pos same, same, found]
      rfl
    · rw [if_neg same]
  | some row =>
    refine ⟨rfl, fun other => ?_⟩
    rw [Table.get?_put]
    by_cases same : other = key
    · rw [if_pos same, if_pos same, same, found]
      rfl
    · rw [if_neg same, if_neg same]

theorem onTx_id (key : String × String) (t : Tables) : t.onTx key id = t := by
  unfold onTx
  split
  · next row found =>
    rw [id_eq, Table.put_of_get? found]
  · rfl

/-- Rows that are added to a transaction, or none. -/
theorem txChanged_insertAll {rows : List α} {read : α → Except RowError β}
    {f : List β → TxRow → TxRow} (none : f [] = id)
    (fits : ∀ step ∈ Step.insertAll table rows read fun r => onTx key (f r), step.Fits applied) :
    ∃ r, rows.mapM read = .ok r ∧ ∀ t : Tables, TxChanged key (Option.map (f r)) t
      (t.after (Step.insertAll table rows read fun r => onTx key (f r))) := by
  obtain ⟨r, read, changed⟩ := after_insertAll fits
  refine ⟨r, read, fun t => ?_⟩
  rw [changed t fun _ => by rw [none, onTx_id]]
  exact txChanged_onTx key (f r) t

/-- Whatever was there of a transaction, afterwards there is all of its record. -/
theorem txChanged_upsertTx {chainId : String} {tx : TxRecord}
    (fits : ∀ step ∈ Step.upsertTx chainId tx, step.Fits applied) (t : Tables) :
    TxChanged (chainId, tx.hash) (fun _ => (TxRow.whole chainId tx).toOption) t
      (t.after (Step.upsertTx chainId tx)) := by
  unfold Step.upsertTx at fits ⊢
  simp only [List.forall_mem_append, List.forall_mem_cons] at fits
  obtain ⟨⟨⟨⟨inserts, -⟩, messages⟩, fees⟩, data⟩ := fits
  obtain ⟨row, inserted, insertion⟩ := Step.apply_insert inserts
  obtain ⟨ms, readMessages, addMessages⟩ := txChanged_insertAll (by simp; rfl) messages
  obtain ⟨fs, readFees, addFees⟩ := txChanged_insertAll (by simp; rfl) fees
  obtain ⟨ds, readData, addData⟩ := txChanged_insertAll (by simp; rfl) data
  have whole : (TxRow.whole chainId tx).toOption =
      some { row with messages := ms, fees := fs, data := ds } := by
    unfold TxRow.whole
    rw [inserted, readMessages, readFees, readData]
    rfl
  simp only [after_append, after_cons, after_nil, insertion]
  -- The row itself, the rows of three tables deleted, and those of three inserted.
  have changed := ((((((txChanged_update (chainId, tx.hash) row.written t).trans
    (txChanged_onTx _ (fun row => { row with messages := [] }) _)).trans
    (txChanged_onTx _ (fun row => { row with fees := [] }) _)).trans
    (txChanged_onTx _ (fun row => { row with data := [] }) _)).trans
    (addMessages _)).trans (addFees _)).trans (addData _)
  refine ⟨changed.rest, fun other => (changed.row other).trans ?_⟩
  rw [whole]
  cases t.txs.get? other <;> rfl

/-- Transactions one after another: of each hash the last one is there. -/
theorem txs_after {chainId : String} {txs : List TxRecord}
    (fits : ∀ step ∈ txs.flatMap (Step.upsertTx chainId), step.Fits applied) (t : Tables) :
    t.after (txs.flatMap (Step.upsertTx chainId)) =
        { t with txs := (t.after (txs.flatMap (Step.upsertTx chainId))).txs } ∧
      ∀ key, (t.after (txs.flatMap (Step.upsertTx chainId))).txs.get? key =
        TxRow.after chainId txs key (t.txs.get? key) := by
  induction txs generalizing t with
  | nil => exact ⟨rfl, fun key => rfl⟩
  | cons tx txs ih =>
    rw [List.flatMap_cons, List.forall_mem_append] at fits
    obtain ⟨first, later⟩ := fits
    have changed := txChanged_upsertTx first t
    obtain ⟨rest, rows⟩ := ih later (t.after (Step.upsertTx chainId tx))
    rw [List.flatMap_cons, after_append]
    refine ⟨?_, fun key => ?_⟩
    · rw [rest, changed.rest]
    · rw [rows, changed.row, TxRow.after_cons]

/-! ### Denominations and events -/

/-- The bases that are inserted are those that are named. -/
theorem eq_of_checked {bases r : List String} (read : bases.mapM (fun base => do
      checkTexts [base]
      return base) = .ok r) : r = bases := by
  induction bases generalizing r with
  | nil =>
    cases read
    rfl
  | cons base bases ih =>
    rw [List.mapM_cons] at read
    obtain ⟨first, checked, read⟩ := bind_eq_ok read
    obtain ⟨rest, later, read⟩ := bind_eq_ok read
    obtain ⟨_, -, checked⟩ := bind_eq_ok checked
    cases checked
    cases read
    rw [ih later]

theorem after_backfillDenoms {bases : List String}
    (fits : ∀ step ∈ Step.backfillDenoms bases, step.Fits applied) (t : Tables) :
    t.after (Step.backfillDenoms bases) = t.addDenoms (ascending bases) := by
  obtain ⟨r, read, changed⟩ := after_insertAll fits
  rw [← eq_of_checked read]
  exact changed t fun _ => rfl

theorem after_replaceEvents {b : EventBatch}
    (fits : ∀ step ∈ Step.replaceEvents b, step.Fits applied) (t : Tables) :
    ∃ events data, b.events.mapM (Step.eventRow b.chainId) = .ok events ∧
      b.data.mapM (Step.dataRow b.chainId) = .ok data ∧
      t.after (Step.replaceEvents b) =
        setEventData (b.chainId, b.height) data (setEvents (b.chainId, b.height) events t) := by
  unfold Step.replaceEvents at fits ⊢
  simp only [List.forall_mem_append] at fits
  obtain ⟨⟨-, fitEvents⟩, fitData⟩ := fits
  obtain ⟨events, readEvents, addEvents⟩ := after_insertAll fitEvents
  obtain ⟨data, readData, addData⟩ := after_insertAll fitData
  refine ⟨events, data, readEvents, readData, ?_⟩
  simp only [after_append, after_cons, after_nil]
  rw [addEvents, addData]
  · simp [Step.apply, setEvents, setEventData, Table.put_put]
  · intro _
    simp [Step.apply, setEvents, setEventData, Table.put_put]
  · intro _
    simp [Step.apply, setEvents, setEventData, Table.put_put]

/-! ### Whole writes -/

/-- The rows are those that a write leaves. -/
structure Changed (w : StoreWrite) (t t' : Tables) : Prop where
  blocks : ∀ key, t'.blocks.get? key = w.onBlock key (t.blocks.get? key)
  txs : ∀ key, t'.txs.get? key = w.onTx key (t.txs.get? key)
  blockEvents : ∀ key, t'.blockEvents.get? key = w.onEvents key (t.blockEvents.get? key)
  eventData : ∀ key, t'.eventData.get? key = w.onEventData key (t.eventData.get? key)
  failures : ∀ key, t'.failures.get? key = w.onFailure key (t.failures.get? key)
  denoms : ∀ base, t'.denoms.get? base = w.onDenom base (t.denoms.get? base)

theorem changed_failure {r : FailureRecord}
    (fits : ∀ step ∈ (StoreWrite.failure r).steps, step.Fits applied) (t : Tables) :
    t.Changed (.failure r) (t.after (StoreWrite.failure r).steps) := by
  obtain ⟨_, -, recorded⟩ := Step.apply_insert (fits _ List.mem_cons_self)
  rw [StoreWrite.steps, after_cons, after_nil, Step.recordFailure, recorded]
  constructor
  case failures =>
    intro key
    rw [Table.get?_update]
    unfold StoreWrite.onFailure
    dsimp only
    split
    · next same => rw [same]
    · rfl
  all_goals exact fun _ => rfl

/-- Resolving a failure changes no other table. -/
theorem resolveFailure_rest (key : String × Int × String) (t : Tables) :
    t.resolveFailure key = { t with failures := (t.resolveFailure key).failures } := by
  unfold resolveFailure
  split <;> rfl

/-- The last step of a batch of transactions, which only a complete one has. -/
theorem after_lastStep (b : TxBatch) (t : Tables) :
    let t' := t.after (if b.isComplete then [.resolve b.chainId b.height .transactions] else [])
    t' = { t with failures := t'.failures } ∧
      ∀ key, t'.failures.get? key = (StoreWrite.txs b).onFailure key (t.failures.get? key) := by
  intro t'
  cases complete : b.isComplete with
  | true =>
    have resolved : t' = t.resolveFailure (b.chainId, b.height, DataKind.transactions.name) := by
      simp only [t', complete]
      rfl
    rw [resolved]
    refine ⟨t.resolveFailure_rest _, fun key => ?_⟩
    rw [get?_resolveFailure]
    simp [StoreWrite.onFailure, complete]
  | false =>
    have kept : t' = t := by
      simp only [t', complete]
      rfl
    rw [kept]
    exact ⟨rfl, fun key => by simp [StoreWrite.onFailure, complete]⟩

/-- What is found of a block that is written. -/
theorem get?_upsertBlock (b : BlockHeader) (indexed : Option DataKind) (t : Tables)
    (key : String × Int) :
    (t.blocks.update (b.chainId, b.height) (BlockRow.written b indexed)).get? key =
      if key = (b.chainId, b.height) then some (BlockRow.written b indexed (t.blocks.get? key))
      else t.blocks.get? key := by
  rw [Table.get?_update]
  split
  · next same => rw [same]
  · rfl

theorem changed_txs {b : TxBatch} (fits : ∀ step ∈ (StoreWrite.txs b).steps, step.Fits applied)
    (t : Tables) : t.Changed (.txs b) (t.after (StoreWrite.txs b).steps) := by
  unfold StoreWrite.steps at fits ⊢
  simp only [List.forall_mem_cons, List.forall_mem_append] at fits
  obtain ⟨block, ⟨denoms, txs⟩, -⟩ := fits
  obtain ⟨_, -, upserted⟩ := Step.apply_insert block
  let named := addDenoms (ascending (b.txs.flatMap fun tx => tx.fees.map (·.denom)))
    { t with
      blocks := t.blocks.update (b.chainId, b.height) (BlockRow.written b.header b.indexed) }
  let stored := named.after (b.txs.flatMap (Step.upsertTx b.chainId))
  let finished := stored.after
    (if b.isComplete then [.resolve b.chainId b.height .transactions] else [])
  have whole : t.after (.upsertBlock b.header b.indexed ::
      (Step.backfillDenoms (b.txs.flatMap fun tx => tx.fees.map (·.denom)) ++
        b.txs.flatMap (Step.upsertTx b.chainId) ++
        if b.isComplete then [.resolve b.chainId b.height .transactions] else [])) = finished := by
    simp only [after_cons, after_append]
    rw [Step.upsertBlock, upserted, after_backfillDenoms denoms]
    rfl
  obtain ⟨rest, rows⟩ := txs_after txs named
  obtain ⟨last, failures⟩ := after_lastStep b stored
  rw [whole]
  constructor
  case blocks =>
    intro key
    have kept : finished.blocks = stored.blocks := (congrArg Tables.blocks last :)
    have kept' : stored.blocks = named.blocks := (congrArg Tables.blocks rest :)
    rw [kept, kept']
    exact t.get?_upsertBlock b.header b.indexed key
  case txs =>
    intro key
    have kept : finished.txs = stored.txs := (congrArg Tables.txs last :)
    rw [kept]
    exact rows key
  case blockEvents =>
    intro key
    have kept : finished.blockEvents = stored.blockEvents := (congrArg Tables.blockEvents last :)
    have kept' : stored.blockEvents = t.blockEvents := (congrArg Tables.blockEvents rest :)
    rw [kept, kept']
    rfl
  case eventData =>
    intro key
    have kept : finished.eventData = stored.eventData := (congrArg Tables.eventData last :)
    have kept' : stored.eventData = t.eventData := (congrArg Tables.eventData rest :)
    rw [kept, kept']
    rfl
  case failures =>
    intro key
    have kept : stored.failures = t.failures := (congrArg Tables.failures rest :)
    rw [← kept]
    exact failures key
  case denoms =>
    intro base
    have kept : finished.denoms = stored.denoms := (congrArg Tables.denoms last :)
    have kept' : stored.denoms = named.denoms := (congrArg Tables.denoms rest :)
    rw [kept, kept', get?_addDenoms]
    simp only [mem_ascending]
    rfl

theorem changed_events {b : EventBatch}
    (fits : ∀ step ∈ (StoreWrite.events b).steps, step.Fits applied) (t : Tables) :
    t.Changed (.events b) (t.after (StoreWrite.events b).steps) := by
  unfold StoreWrite.steps at fits ⊢
  simp only [List.forall_mem_cons, List.forall_mem_append] at fits
  obtain ⟨block, ⟨denoms, events⟩, -⟩ := fits
  obtain ⟨_, -, upserted⟩ := Step.apply_insert block
  let place := (b.chainId, b.height)
  let named := addDenoms (ascending (b.data.map (·.denom)))
    { t with blocks := t.blocks.update place (BlockRow.written b.header (some .blockEvents)) }
  obtain ⟨eventRows, dataRows, readEvents, readData, replaced⟩ := after_replaceEvents events named
  let stored := setEventData place dataRows (setEvents place eventRows named)
  let finished := stored.resolveFailure (b.chainId, b.height, DataKind.blockEvents.name)
  have whole : t.after (.upsertBlock b.header (some .blockEvents) ::
      (Step.backfillDenoms (b.data.map (·.denom)) ++ Step.replaceEvents b ++
        [.resolve b.chainId b.height .blockEvents])) = finished := by
    simp only [after_cons, after_append, after_nil]
    rw [Step.upsertBlock, upserted, after_backfillDenoms denoms]
    exact congrArg (fun t => (Step.resolve b.chainId b.height .blockEvents).apply t) replaced
  have last : finished = { stored with failures := finished.failures } :=
    stored.resolveFailure_rest _
  rw [whole]
  constructor
  case blocks =>
    intro key
    have kept : finished.blocks = named.blocks := (congrArg Tables.blocks last :)
    rw [kept]
    exact t.get?_upsertBlock b.header (some .blockEvents) key
  case txs =>
    intro key
    have kept : finished.txs = t.txs := (congrArg Tables.txs last :)
    rw [kept]
    rfl
  case blockEvents =>
    intro key
    have put : finished.blockEvents = t.blockEvents.put place eventRows :=
      (congrArg Tables.blockEvents last :)
    rw [put, Table.get?_put]
    unfold StoreWrite.onEvents
    dsimp only
    rw [readEvents]
    rfl
  case eventData =>
    intro key
    have put : finished.eventData = t.eventData.put place dataRows :=
      (congrArg Tables.eventData last :)
    rw [put, Table.get?_put]
    unfold StoreWrite.onEventData
    dsimp only
    rw [readData]
    rfl
  case failures =>
    intro key
    exact stored.get?_resolveFailure _ key
  case denoms =>
    intro base
    have kept : finished.denoms = named.denoms := (congrArg Tables.denoms last :)
    rw [kept, get?_addDenoms]
    simp only [mem_ascending]
    rfl

theorem changed_after (w : StoreWrite) (fits : ∀ step ∈ w.steps, step.Fits applied) (t : Tables) :
    t.Changed w (t.after w.steps) := by
  cases w with
  | failure r => exact changed_failure fits t
  | txs b => exact changed_txs fits t
  | events b => exact changed_events fits t

end Tables

end Database

end ChainIndex
