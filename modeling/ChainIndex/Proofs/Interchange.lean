/-
The memory and the database are interchangeable as index stores. After the same
writes, all of which the database accepted, both answer every question alike.
-/
import ChainIndex.Proofs.Session

namespace ChainIndex

/-- A write to an index store. -/
inductive StoreWrite where
  | failure (r : FailureRecord)
  | txs (b : TxBatch)
  | events (b : EventBatch)

namespace StoreWrite

/-- The chain and the height that the write is about. -/
def place : StoreWrite → String × Int
  | failure r => (r.chainId, r.height)
  | txs b => (b.chainId, b.height)
  | events b => (b.chainId, b.height)

/-- What the transactions that the write brings are filed under. -/
def txKeys : StoreWrite → List (String × String)
  | txs b => b.txs.map fun tx => (b.chainId, tx.hash)
  | _ => []

end StoreWrite

/-- A question to an index store. -/
inductive StoreQuestion where
  | highest (chainId : String)
  | status (chainId : String) (low high : Int)
  | heightsWithMessage (chainId typeUrl : String) (low high : Int)
  | unresolved (chainId : String)

inductive StoreAnswer where
  | height (h : Option Int)
  | statuses (ss : List BlockStatus)
  | heights (hs : List Int)
  | failures (rs : List FailureRecord)
  deriving DecidableEq

namespace IndexStore

variable {σ : Type}

def write (store : IndexStore σ) : StoreWrite → Call σ StoreError Unit
  | .failure r => store.recordFailure r
  | .txs b => store.writeTxs b
  | .events b => store.writeEvents b

def ask (store : IndexStore σ) : StoreQuestion → Call σ StoreError StoreAnswer
  | .highest chainId => .height <$> store.highest chainId
  | .status chainId low high => .statuses <$> store.status chainId low high
  | .heightsWithMessage chainId typeUrl low high =>
    .heights <$> store.heightsWithMessage chainId typeUrl low high
  | .unresolved chainId => .failures <$> store.unresolved chainId

end IndexStore

namespace StoreView

def write : StoreWrite → StoreView → StoreView
  | .failure r => recordFailure r
  | .txs b => writeTxs b
  | .events b => writeEvents b

def answer (v : StoreView) : StoreQuestion → StoreAnswer
  | .highest chainId => .height (v.highest chainId)
  | .status chainId low high => .statuses (v.status chainId low high)
  | .heightsWithMessage chainId typeUrl low high =>
    .heights (v.heightsWithMessage chainId typeUrl low high)
  | .unresolved chainId => .failures (v.unresolved chainId)

end StoreView

/-! ## The memory -/

namespace MemoryStore

/-- A write changes the memory as it changes its view. -/
theorem run_write (w : StoreWrite) (m : MemoryStore) (h : m.WellFormed) :
    ∃ m' : MemoryStore, (asStore.write w).run.run m = (.ok (), m') ∧ m'.WellFormed ∧
      m'.view = m.view.write w := by
  cases w with
  | failure r => exact ⟨_, rfl, h.recordFailure r, m.view_recordFailure r⟩
  | txs b => exact ⟨_, rfl, h.writeTxs b, m.view_writeTxs b⟩
  | events b => exact ⟨_, rfl, h.writeEvents b, m.view_writeEvents b⟩

/-- The memory answers as its view does. -/
theorem run_ask (q : StoreQuestion) (m : MemoryStore) (h : m.WellFormed) :
    (asStore.ask q).run.run m = (.ok (m.view.answer q), m) := by
  cases q with
  | highest chainId => rfl
  | status chainId low high => rfl
  | heightsWithMessage chainId typeUrl low high =>
    rw [StoreView.answer, view_heightsWithMessage]
    rfl
  | unresolved chainId =>
    rw [StoreView.answer, view_unresolved h]
    rfl

theorem run_asks (qs : List StoreQuestion) (m : MemoryStore) (h : m.WellFormed) :
    (qs.mapM asStore.ask).run.run m = (.ok (qs.map m.view.answer), m) := by
  induction qs with
  | nil => rfl
  | cons q qs ih =>
    rw [List.mapM_cons, Call.run_bind_ok (run_ask q m h), Call.run_bind_ok ih]
    rfl

end MemoryStore

/-! ## The database -/

namespace Database.Server

variable {φ : Type} {s : Server φ} {db after : Database φ}

/-- A write that is accepted changes the tables as it changes their view. -/
theorem run_write (w : StoreWrite) (h : (s.asStore.write w).run.run db = (.ok (), after)) :
    after.applied = db.applied ∧ after.tables.view = db.tables.view.write w := by
  cases w with
  | failure r => exact Does.recordFailure s r (Call.run_mapError_eq_ok.mp h)
  | txs b => exact Does.transaction s (Does.writeTxs s b) (Call.run_mapError_eq_ok.mp h)
  | events b => exact Does.transaction s (Does.writeEvents s b) (Call.run_mapError_eq_ok.mp h)

/-- A migrated database of a server that fails nothing answers as its view does. -/
theorem run_ask (reliable : s.Reliable) (q : StoreQuestion)
    (migrated : db.applied = Migration.all.length) :
    ∃ faults, (s.asStore.ask q).run.run db =
      (.ok (db.tables.view.answer q), { db with faults }) := by
  -- What is read of a table that every migrated database has.
  have asked {α : Type} (table : TableName) (rows : Tables → α) (wrap : α → StoreAnswer)
      (there : (Schema.latest.table? table).isSome = true) :
      ∃ faults, (wrap <$> asking (s.read table rows)).run.run db =
        (.ok (wrap (rows db.tables)), { db with faults }) := by
    rw [Schema.latest, ← migrated] at there
    obtain ⟨faults, ran⟩ :=
      Yields.read (x := (db.applied, db.tables)) reliable rows there db.faults
    exact ⟨faults, Call.run_map_ok (Call.run_mapError_eq_ok.mpr ran) wrap⟩
  cases q with
  | highest chainId =>
    rw [StoreView.answer, Tables.view_highest]
    exact asked .blocks (·.highest chainId) .height (by decide +kernel)
  | status chainId low high =>
    rw [StoreView.answer, Tables.view_status]
    exact asked .blocks (·.status chainId low high) .statuses (by decide +kernel)
  | heightsWithMessage chainId typeUrl low high =>
    rw [StoreView.answer, Tables.view_heightsWithMessage]
    exact asked .txes (·.heightsWithMessage chainId typeUrl low high) .heights (by decide +kernel)
  | unresolved chainId =>
    rw [StoreView.answer, Tables.view_unresolved]
    exact asked .failedBlocks (·.unresolved chainId) .failures (by decide +kernel)

theorem run_asks (reliable : s.Reliable) (qs : List StoreQuestion)
    (migrated : db.applied = Migration.all.length) :
    ∃ faults, (qs.mapM s.asStore.ask).run.run db =
      (.ok (qs.map db.tables.view.answer), { db with faults }) := by
  induction qs generalizing db with
  | nil => exact ⟨db.faults, rfl⟩
  | cons q qs ih =>
    obtain ⟨faults, ran⟩ := run_ask reliable q migrated
    have migrated' : ({ db with faults } : Database φ).applied = _ := migrated
    obtain ⟨faults', ran'⟩ := ih migrated'
    refine ⟨faults', ?_⟩
    rw [List.mapM_cons, Call.run_bind_ok ran, Call.run_bind_ok ran']
    rfl

end Database.Server

/-! ## Both -/

/-- A migrated database that shows the same as a memory. -/
structure Mirrors {φ : Type} (db : Database φ) (m : MemoryStore) : Prop where
  applied : db.applied = Database.Migration.all.length
  view : db.tables.view = m.view
  wellFormed : m.WellFormed

namespace Mirrors

open Database (Server)

variable {φ : Type} {s : Server φ} {db after : Database φ} {m : MemoryStore}

/-- After a write that the database accepts both show the same again. -/
theorem write (h : Mirrors db m) {w : StoreWrite}
    (accepted : (s.asStore.write w).run.run db = (.ok (), after)) :
    ∃ m', (MemoryStore.asStore.write w).run.run m = (.ok (), m') ∧ Mirrors after m' := by
  obtain ⟨m', ran, wellFormed, view'⟩ := m.run_write w h.wellFormed
  obtain ⟨applied, view⟩ := Server.run_write w accepted
  refine ⟨m', ran, applied.trans h.applied, ?_, wellFormed⟩
  rw [view, h.view, view']

theorem writes (h : Mirrors db m) {ws : List StoreWrite}
    (accepted : (ws.forM s.asStore.write).run.run db = (.ok (), after)) :
    ∃ m', (ws.forM MemoryStore.asStore.write).run.run m = (.ok (), m') ∧ Mirrors after m' := by
  induction ws generalizing db m with
  | nil =>
    cases accepted
    exact ⟨m, rfl, h⟩
  | cons w ws ih =>
    obtain ⟨_, between, first, rest⟩ := Call.run_bind_eq_ok accepted
    obtain ⟨m₁, ran, h₁⟩ := h.write first
    obtain ⟨m₂, ran', h₂⟩ := ih h₁ rest
    exact ⟨m₂, (Call.run_bind_ok ran).trans ran', h₂⟩

/-- A migrated database without rows shows what an empty memory shows. -/
theorem empty (faults : φ) :
    Mirrors ⟨Database.Migration.all.length, .empty, faults⟩ .empty :=
  ⟨rfl, rfl, MemoryStore.wellFormed_empty⟩

end Mirrors

/-- After the same writes to an empty memory and to an empty migrated database,
in which no statement failed, both stores answer all questions, and alike. -/
theorem Database.Server.answers_as_memory {φ : Type} {s : Server φ} (reliable : s.Reliable)
    {faults : φ} {db after : Database φ} {writes : List StoreWrite}
    (questions : List StoreQuestion)
    (migrated : (s.migrate (.up none)).run.run (.new faults) = (.ok (), db))
    (written : (writes.forM s.asStore.write).run.run db = (.ok (), after)) :
    ∃ answers,
      ((questions.mapM s.asStore.ask).run.run after).1 = .ok answers ∧
      ((do
        writes.forM MemoryStore.asStore.write
        questions.mapM MemoryStore.asStore.ask).run.run .empty).1 = .ok answers := by
  obtain ⟨faults', ran⟩ := Yields.migrate reliable faults
  obtain ⟨-, rfl⟩ := Prod.mk.inj (migrated.symm.trans ran)
  obtain ⟨m, ran, mirrors⟩ := (Mirrors.empty faults').writes written
  obtain ⟨_, asked⟩ := run_asks reliable questions mirrors.applied
  refine ⟨questions.map m.view.answer, ?_, ?_⟩
  · rw [asked, mirrors.view]
  · rw [Call.run_bind_ok ran, MemoryStore.run_asks questions m mirrors.wellFormed]

/-- A failure that the batch of its height resolves, and one that stays. -/
def smallHistory : List StoreWrite := [
  .failure {
    height := 1
    chainId := "c"
    chainName := "c"
    kind := .transactions
    reason := .blockQuery },
  .txs {
    chainId := "c"
    height := 1
    blockHash := "B1"
    time := default
    proposer := ""
    txs := [{ (default : TxRecord) with
      hash := "A"
      height := 1
      messages := [⟨0, "/m", .raw [], []⟩] }]
    unprocessable := [] },
  .failure {
    height := 2
    chainId := "c"
    chainName := "c"
    kind := .blockEvents
    reason := .missingTxs }]

theorem Database.Server.answers_as_memory_smallHistory :
    let migrated : Database Unit := ⟨Migration.all.length, .empty, ()⟩
    let after := ((smallHistory.forM sound.asStore.write).run.run migrated).2
    let questions : List StoreQuestion :=
      [.highest "c", .status "c" 1 2, .heightsWithMessage "c" "/m" 1 2, .unresolved "c"]
    sound.Reliable ∧ ∃ answers,
      ((questions.mapM sound.asStore.ask).run.run after).1 = .ok answers ∧
        ((do
          smallHistory.forM MemoryStore.asStore.write
          questions.mapM MemoryStore.asStore.ask).run.run .empty).1 = .ok answers := by
  have reliable : sound.Reliable := fun _ _ => rfl
  obtain ⟨⟨⟩, migrated⟩ := Yields.migrate reliable ()
  have accepted : ((smallHistory.forM sound.asStore.write).run.run
      ⟨Migration.all.length, .empty, ()⟩).1 = .ok () := by decide +kernel
  exact ⟨reliable, answers_as_memory reliable _ migrated (Prod.ext accepted rfl)⟩

end ChainIndex
