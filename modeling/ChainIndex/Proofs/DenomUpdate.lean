/-
An update of the denominations. Its statements never meet a row that is there already: what
a list repeats is written once, and a base becomes a unit only of a denomination that has
none. So whatever the lists repeat, an update that goes well has written all that they say,
and leaves no denomination without a unit.
-/
import ChainIndex.Denom.Update
import ChainIndex.Json.Printer
import ChainIndex.Proofs.Batching
import ChainIndex.Proofs.DenomRows
import ChainIndex.Proofs.FailureJournal
import ChainIndex.Proofs.Session

namespace ChainIndex

open Database

namespace Database

variable {φ α β : Type}

/-- From these rows, the session is never refused because a row is there already; and where
it is accepted, it comes to a value and rows as described and applies no migration. -/
def Attains (n : Nat) (session : Session φ α) (t : Tables) (post : α → Tables → Prop) : Prop :=
  ∀ faults result after, session.run.run ⟨n, t, faults⟩ = (result, after) →
    match result with
    | .ok a => after.applied = n ∧ post a after.tables
    | .error e => e ≠ RowError.repeated.message

namespace Attains

variable {n : Nat} {t : Tables} {session : Session φ α} {next : α → Session φ β}
  {mid : α → Tables → Prop} {post : β → Tables → Prop} {s : Server φ} {table : TableName}

theorem pure {a : α} (h : mid a t) : Attains n (Pure.pure a : Session φ α) t mid := by
  intro faults result after ran
  cases ran
  exact ⟨rfl, h⟩

theorem throw {e : String} (other : e ≠ RowError.repeated.message) :
    Attains n (MonadExcept.throw e : Session φ α) t mid := by
  intro faults result after ran
  cases ran
  exact other

theorem bind (first : Attains n session t mid)
    (rest : ∀ a t', mid a t' → Attains n (next a) t' post) :
    Attains n (session >>= next) t post := by
  intro faults result after h
  rcases ran : session.run.run ⟨n, t, faults⟩ with ⟨answer, ⟨n', t', faults'⟩⟩
  have reached := first faults _ _ ran
  cases answer with
  | ok a =>
    obtain ⟨rfl, there⟩ := reached
    rw [Call.run_bind_ok ran] at h
    exact rest a t' there faults' _ _ h
  | error e =>
    rw [Call.run_bind_error ran] at h
    cases h
    exact reached

theorem get_bind {next : Database φ → Session φ β}
    (rest : ∀ faults, Attains n (next ⟨n, t, faults⟩) t post) :
    Attains n (MonadState.get >>= next) t post := by
  intro faults result after h
  rw [Call.run_bind_ok Call.run_get] at h
  exact rest faults faults _ _ h

theorem modify (change : Tables → Tables) :
    Attains n (modify fun db => { db with tables := change db.tables } : Session φ Unit) t
      fun _ t' => t' = change t := by
  intro faults result after ran
  cases ran
  exact ⟨rfl, rfl⟩

theorem mono {mid' : α → Tables → Prop} (h : Attains n session t mid)
    (weaker : ∀ a t', mid a t' → mid' a t') : Attains n session t mid' := by
  intro faults result after ran
  have reached := h faults _ _ ran
  cases result with
  | ok a => exact reached.imp_right (weaker a _)
  | error e => exact reached

/-! ### Reasons of refusals -/

theorem failed_ne_repeated (text : String) : text ++ " failed" ≠ RowError.repeated.message := by
  intro same
  have last := congrArg (fun s : String => s.toList.getLast?) same
  simp [RowError.message] at last

theorem execute (s : Server φ) (statement : Statement) (t : Tables) :
    Attains n (s.execute statement) t fun _ t' => t' = t := by
  intro faults result after ran
  rw [Server.run_execute] at ran
  obtain ⟨rfl, rfl⟩ := Prod.mk.inj ran
  split
  · next accepted => exact ⟨rfl, rfl⟩
  · next e refused =>
    split at refused
    · cases refused
      exact failed_ne_repeated _
    · cases refused

theorem read (s : Server φ) (table : TableName) (rows : Tables → α) (t : Tables) :
    Attains n (s.read table rows) t fun a t' => a = rows t ∧ t' = t := by
  have query : Attains n (s.query .select table) t fun _ t' => t' = t := by
    refine get_bind fun faults => ?_
    cases hasTable (⟨n, t, faults⟩ : Database φ) table with
    | true => exact execute s _ t
    | false =>
      refine throw fun same => ?_
      have first := congrArg (fun s : String => s.toList.head?) same
      simp [RowError.message] at first
  refine query.bind ?_
  rintro _ _ rfl
  exact get_bind fun _ => pure ⟨rfl, rfl⟩

/-- What is inserted can be stored, or is refused for another reason. -/
theorem insert (s : Server φ) (table : TableName) {rows : Except RowError β}
    (change : β → Tables → Tables) (fresh : rows ≠ .error .repeated) (t : Tables) :
    Attains n (s.insert table rows change) t fun _ t' => ∃ r, rows = .ok r ∧ t' = change r t := by
  refine get_bind fun faults => ?_
  cases hasColumns (⟨n, t, faults⟩ : Database φ) table with
  | false =>
    refine throw fun same => ?_
    have first := congrArg (fun s : String => s.toList.head?) same
    simp [RowError.message] at first
  | true =>
    refine (execute s _ t).bind ?_
    rintro _ _ rfl
    cases rows with
    | ok r => exact (modify (change r)).mono fun _ _ changed => ⟨r, rfl, changed⟩
    | error e =>
      refine throw ?_
      cases e with
      | repeated => exact absurd rfl fresh
      | nul => decide
      | tooLong => decide

/-- Rows that can be stored as they are, unless a text holds a NUL. -/
theorem insertChecked (s : Server φ) (table : TableName) {rows : Except RowError β} {r : β}
    (checked : rows = .error .nul ∨ rows = .ok r) (change : β → Tables → Tables) (t : Tables) :
    Attains n (s.insert table rows change) t fun _ t' => t' = change r t := by
  refine (insert s table change ?_ t).mono ?_
  · rcases checked with rfl | rfl <;> simp
  · rintro _ _ ⟨r', read, rfl⟩
    rcases checked with rfl | rfl
    · cases read
    · cases read
      rfl

theorem transaction (s : Server φ) (body : Attains n session t mid) :
    Attains n (s.transaction session) t mid := by
  have statements : Attains n (do
      s.execute .start
      let result ← session
      s.execute .commit
      return result) t mid := by
    refine (execute s _ t).bind ?_
    rintro _ _ rfl
    refine body.bind fun a t' there => (execute s _ t').bind ?_
    rintro _ _ rfl
    exact pure there
  intro faults result after h
  have reached := statements faults
  dsimp only [Server.transaction, ExceptT.run, ExceptT.mk, StateT.run] at reached h
  split at h
  · next ran =>
    cases h
    exact reached _ _ ran
  · next ran =>
    cases h
    exact reached _ _ ran

/-! ### Denominations -/

theorem checkTexts_ne_repeated (texts : List String) : checkTexts texts ≠ .error .repeated := by
  unfold checkTexts
  split <;> simp

/-- A name that is listed more than once stands once among the units of a statement. -/
theorem checkUnits_unitRows (units : List DenomUnit) :
    Server.checkUnits (unitRows units) = .error .nul ∨
      Server.checkUnits (unitRows units) = .ok (unitRows units) := by
  unfold Server.checkUnits checkTexts
  rw [if_pos (nodup_unitRows units)]
  split
  · exact .inr rfl
  · exact .inl rfl

theorem upsertDenom (s : Server φ) (d : DenomMetadata) (t : Tables) :
    Attains n (s.upsertDenom d) t fun _ t' =>
      t' = { t with denoms := t.denoms.update d.base (DenomRow.named d) } := by
  refine (insert s .denoms _ (checkTexts_ne_repeated _) t).mono ?_
  rintro _ _ ⟨_, -, rfl⟩
  rfl

theorem upsertUnits (s : Server φ) (base : String) (units : List DenomUnit) (t : Tables) :
    Attains n (s.upsertUnits base (unitRows units)) t fun _ t' =>
      t' = t.onDenom base (DenomRow.addUnits (unitRows units)) := by
  unfold Server.upsertUnits
  split
  · next none =>
    rw [List.isEmpty_iff.mp none]
    exact pure (t.onDenom_addUnits_nil base).symm
  · exact insertChecked s .denomUnits (checkUnits_unitRows units) _ t

/-- The statements for a denomination write its row as a whole. -/
theorem upsertAll (s : Server φ) (listed : List DenomMetadata) (t : Tables) :
    Attains n (s.upsertAll listed) t fun _ t' => t' = t.relist listed := by
  induction listed generalizing t with
  | nil => exact pure rfl
  | cons d ds ih =>
    have row : Attains n (do
        s.upsertDenom d
        s.upsertUnits d.base (unitRows d.units)) t fun _ t' => t' = t.relist [d] := by
      refine (upsertDenom s d t).bind ?_
      rintro _ _ rfl
      refine (upsertUnits s d.base d.units _).mono ?_
      rintro _ _ rfl
      exact t.onDenom_update d.base (DenomRow.named d) _
    refine row.bind ?_
    rintro _ _ rfl
    refine (ih (t.relist [d])).mono ?_
    rintro _ _ rfl
    exact Tables.relist_relist [d] ds t

theorem upsertMetadata (s : Server φ) (listed : List DenomMetadata) (t : Tables) :
    Attains n (s.upsertMetadata listed) t fun count t' =>
      count = listed.length ∧ t' = t.relist listed :=
  transaction s <| (upsertAll s listed t).bind fun _ _ there => pure ⟨rfl, there⟩

/-- A base that its denomination has not as a unit yet can be inserted, or holds a NUL. -/
theorem checkBase {base : String} (new : Server.hasUnit t base base = false) :
    let check : Except RowError String := do
      checkTexts [base]
      if Server.hasUnit t base base then MonadExcept.throw .repeated else return base
    check = .error .nul ∨ check = .ok base := by
  rw [new]
  cases storable : isText base with
  | true => exact .inr (by simp [checkTexts, storable])
  | false => exact .inl (by simp [checkTexts, storable])

theorem insertBaseUnits (s : Server φ) {bases : List String}
    (new : ∀ base ∈ bases, Server.hasUnit t base base = false) :
    Attains n (s.insertBaseUnits bases) t fun _ t' => t' = t.addBaseUnits bases := by
  have checked := mapM_self_or_error fun base mem => checkBase (new base mem)
  refine get_bind fun faults => ?_
  unfold Server.insertMany
  split
  · next none =>
    rw [List.isEmpty_iff.mp none]
    exact pure rfl
  · exact insertChecked s .denomUnits checked _ t

theorem backfillUnits (s : Server φ) (unique : (t.denoms.map (·.1)).Nodup) :
    Attains n s.backfillUnits t fun count t' =>
      count = t.withoutUnits.length ∧ t' = t.fillUnits := by
  refine (read s .denoms _ t).bind ?_
  rintro _ t' ⟨-, same⟩
  subst t'
  refine (read s .denomUnits _ t).bind ?_
  rintro missing t' ⟨rfl, same⟩
  subst t'
  split
  · next none =>
    rw [Tables.fillUnits, List.isEmpty_iff.mp none]
    exact pure ⟨rfl, rfl⟩
  · have new (base : String) (mem : base ∈ t.withoutUnits) :
        Server.hasUnit t base base = false := by
      obtain ⟨row, found, none⟩ := (Tables.mem_withoutUnits unique).mp mem
      simp [Server.hasUnit, found, none]
    exact transaction s <| (insertBaseUnits s new).bind fun _ _ there => pure ⟨rfl, there⟩

end Attains

end Database

/-! ## Downloads -/

/-- All assets of a document, also those without a base. -/
def AssetList.assets? (j : Json) : Option (List DenomMetadata) := do
  let f ← j.fields ["chain_name", "assets"]
  f.getD "assets" [] (Json.list assetOfJson?)

/-- The assets that have a base. -/
def AssetList.withBase (assets : List DenomMetadata) : List DenomMetadata :=
  assets.filter (!·.base.isEmpty)

theorem AssetList.ofJson?_eq_some {j : Json} {l : AssetList} (read : ofJson? j = some l) :
    ∃ assets, assets? j = some assets ∧ l.denoms = withBase assets := by
  obtain ⟨f, fields, read⟩ := Option.bind_eq_some_iff.mp read
  obtain ⟨_, -, read⟩ := Option.bind_eq_some_iff.mp read
  obtain ⟨assets, found, read⟩ := Option.bind_eq_some_iff.mp read
  cases read
  exact ⟨assets, Option.bind_eq_some_iff.mpr ⟨f, fields, found⟩, rfl⟩

/-- Nothing that an update writes has changed. -/
def Database.Untouched {φ : Type} (db db' : Database φ) : Prop :=
  db'.applied = db.applied ∧ db'.tables = db.tables

namespace Downloader

variable {σ φ : Type}

/-- At some time these assets were found at the address. -/
def Publishes (d : Downloader σ) (url : String) (assets : List DenomMetadata) : Prop :=
  ∃ s answer s' text j, (d.get url).run.run s = (.ok answer, s') ∧ answer.isSuccess = true ∧
    answer.wholeBody = .ok text ∧ Json.ofText? text = some j ∧ AssetList.assets? j = some assets

/-- Downloads do nothing to the rows. -/
structure LeavesRows (d : Downloader (Database φ)) : Prop where
  get : ∀ url db, Untouched db ((d.get url).run.run db).2
  pause : ∀ span, (d.pause span).Always Untouched

theorem publishes_of_once {d : Downloader σ} {url : String} {s s' : σ} {l : AssetList}
    (ran : (d.once url).run.run s = (.ok l, s')) :
    ∃ assets, d.Publishes url assets ∧ l.denoms = AssetList.withBase assets := by
  obtain ⟨answer, between, got, read⟩ := Call.run_bind_eq_ok ran
  have listed : AssetList.ofAnswer url answer = .ok l := congrArg Prod.fst read
  unfold AssetList.ofAnswer at listed
  split at listed
  · next success =>
    obtain ⟨text, body, listed⟩ := bind_eq_ok listed
    split at listed
    · next l' parsed =>
      cases listed
      obtain ⟨j, json, read⟩ := Option.bind_eq_some_iff.mp parsed
      obtain ⟨assets, found, denoms⟩ := AssetList.ofJson?_eq_some read
      exact ⟨assets, ⟨s, answer, between, text, j, got, success, body, json, found⟩, denoms⟩
    · cases listed
  · cases listed

theorem publishes_of_fetch {d : Downloader σ} {url : String} {s s' : σ} {l : AssetList}
    (fetched : (d.fetch url).outcome.Gives s (.ok l) s') :
    ∃ assets, d.Publishes url assets ∧ l.denoms = AssetList.withBase assets := by
  obtain ⟨before, after, once⟩ := RetryPolicy.exists_of_gives_retryFrom fetched
  obtain ⟨result, ran, same⟩ := Task.gives_ofCall_iff.mp once
  rw [mapError_id] at same
  exact publishes_of_once (ran.trans (congrArg (·, after) same.symm))

theorem LeavesRows.fetch {d : Downloader (Database φ)} (h : d.LeavesRows) {url : String}
    {db after : Database φ} {result : Except NodeError AssetList}
    (fetched : (d.fetch url).outcome.Gives db result after) : Untouched db after := by
  have once (db : Database φ) : Untouched db ((d.once url).run.run db).2 := by
    have kept := h.get url db
    rcases got : (d.get url).run.run db with ⟨result, db'⟩
    rw [got] at kept
    cases result with
    | ok answer => exact (congrArg Prod.snd (Call.run_bind_ok got)).symm ▸ kept
    | error e => exact (congrArg Prod.snd (Call.run_bind_error got)).symm ▸ kept
  have always : (d.fetch url).outcome.Always Untouched :=
    d.retry.always_retryFrom h.pause (Task.always_ofCall once) _ 0
  exact always.gives (fun _ => ⟨rfl, rfl⟩)
    (fun _ _ _ first later => ⟨later.1.trans first.1, later.2.trans first.2⟩) fetched

/-- A download that goes well from this state brings these assets. -/
def Brings (d : Downloader (Database φ)) (db : Database φ) (url : String)
    (assets : List DenomMetadata) : Prop :=
  ∃ l after, (d.fetch url).outcome.Gives db (.ok l) after ∧ d.Publishes url assets ∧
    l.denoms = AssetList.withBase assets

end Downloader

/-! ## Updates -/

/-- Some row was there already. -/
def DenomUpdateError.IsRepeat : DenomUpdateError → Prop
  | fetch _ _ => False
  | store _ cause | backfill cause => cause = .database RowError.repeated.message

namespace DenomUpdate

variable {φ α β : Type}

/-- From this state, the task never fails because a row is there already; and where it goes
well, it comes to a value and a state as described. -/
def Achieves (task : Task (Database φ) DenomUpdateError α) (db : Database φ)
    (post : α → Database φ → Prop) : Prop :=
  ∀ result after, task.outcome.Gives db result after →
    match result with
    | .ok a => post a after
    | .error e => ¬e.IsRepeat

/-- The assets that an update downloads, list by list: each list is downloaded from the state
in which the writing of those before it leaves the database. -/
inductive Downloads (s : Server φ) (d : Downloader (Database φ)) :
    Database φ → List (String × String) → List (List DenomMetadata) → Prop
  | nil (db : Database φ) : Downloads s d db [] []
  | cons {db next : Database φ} {chainId url : String} {assets : List DenomMetadata} {count : Nat}
      {lists : List (String × String)} {published : List (List DenomMetadata)}
      (first : d.Brings db url assets)
      (written : ((ofServer s d.fetch).updateChain chainId url).outcome.Gives db (.ok count) next)
      (others : Downloads s d next lists published) :
      Downloads s d db ((chainId, url) :: lists) (assets :: published)

namespace Achieves

variable {db : Database φ} {task : Task (Database φ) DenomUpdateError α}
  {next : α → Task (Database φ) DenomUpdateError β} {mid : α → Database φ → Prop}
  {post : β → Database φ → Prop} {d : Downloader (Database φ)}

theorem pure {a : α} (h : mid a db) :
    Achieves (Pure.pure a : Task (Database φ) DenomUpdateError α) db mid := by
  intro result after gives
  cases gives
  exact h

theorem bind (first : Achieves task db mid)
    (rest : ∀ a db', mid a db' → Achieves (next a) db' post) :
    Achieves (task >>= next) db post := by
  intro result after gives
  obtain ⟨e, rfl, ran⟩ | ⟨a, db', ran, later⟩ := Task.gives_bind_cases gives
  · exact first _ _ ran
  · exact rest a db' (first _ _ ran) _ _ later

theorem mono {mid' : α → Database φ → Prop} (h : Achieves task db mid)
    (weaker : ∀ a db', task.outcome.Gives db (.ok a) db' → mid a db' → mid' a db') :
    Achieves task db mid' := by
  intro result after gives
  have reached := h _ _ gives
  cases result with
  | ok a => exact weaker a after gives reached
  | error e => exact reached

/-- A session as a part of an update. -/
theorem asking {session : Session φ α} {wrap : StoreError → DenomUpdateError}
    {rows : α → Tables → Prop} (h : Attains db.applied session db.tables rows)
    (plain : ∀ cause, (wrap cause).IsRepeat → cause = .database RowError.repeated.message) :
    Achieves (Task.ofCall wrap (Server.asking session)) db fun a after =>
      after.applied = db.applied ∧ rows a after.tables := by
  intro result after gives
  obtain ⟨answer, ran, rfl⟩ := Task.gives_ofCall_iff.mp gives
  rcases asked : session.run.run db with ⟨answered, after'⟩
  have reached := h db.faults _ _ asked
  cases answered with
  | ok a =>
    cases (Call.run_mapError_eq_ok.mpr asked).symm.trans ran
    exact reached
  | error cause =>
    cases (Call.run_mapError_of_error asked).symm.trans ran
    intro repeats
    exact reached (StoreError.database.inj (plain _ repeats))

/-- A download as a part of an update. -/
theorem download (h : d.LeavesRows) (chainId url : String) (db : Database φ) :
    Achieves (Task.ofTask (.fetch chainId) (d.fetch url)) db fun l after =>
      Untouched db after ∧ ∃ assets, d.Brings db url assets ∧
        l.denoms = AssetList.withBase assets := by
  intro result after gives
  obtain ⟨answer, fetched, rfl⟩ := Task.gives_ofTask_iff.mp gives
  cases answer with
  | ok l =>
    obtain ⟨assets, published, denoms⟩ := Downloader.publishes_of_fetch fetched
    exact ⟨h.fetch fetched, assets, ⟨l, after, fetched, published, denoms⟩, denoms⟩
  | error cause => exact id

theorem updateChain (h : d.LeavesRows) (s : Server φ) (chainId url : String) (db : Database φ) :
    Achieves ((ofServer s d.fetch).updateChain chainId url) db fun count after =>
      ∃ assets, d.Brings db url assets ∧ count = (AssetList.withBase assets).length ∧
        after.applied = db.applied ∧
          after.tables = db.tables.relist (AssetList.withBase assets) := by
  refine (download h chainId url db).bind ?_
  rintro l fetched ⟨⟨applied, tables⟩, assets, found, denoms⟩
  have stored : Achieves (Task.ofCall (.store chainId) ((ofServer s d.fetch).upsert l.denoms))
    fetched _ := asking (Attains.upsertMetadata s l.denoms _) fun _ repeats => repeats
  refine stored.mono ?_
  rintro _ after - ⟨same, rfl, rows⟩
  exact ⟨assets, found, by rw [denoms], same.trans applied, by rw [rows, tables, denoms]⟩

/-- The lists are written one after another. -/
theorem updateChains (h : d.LeavesRows) (s : Server φ) (lists : List (String × String))
    (db : Database φ) :
    Achieves (lists.mapM fun (chainId, url) => (ofServer s d.fetch).updateChain chainId url) db
      fun counts after => ∃ published, Downloads s d db lists published ∧
        counts = published.map (fun assets => (AssetList.withBase assets).length) ∧
          after.applied = db.applied ∧
            after.tables = db.tables.relist (AssetList.withBase published.flatten) := by
  have : LawfulMonad (Task (Database φ) DenomUpdateError) := Task.lawful
  induction lists generalizing db with
  | nil => exact pure ⟨[], .nil db, rfl, rfl, rfl⟩
  | cons list lists ih =>
    have first := (updateChain h s list.1 list.2 db).mono fun _ _ gives reached =>
      And.intro gives reached
    rw [List.mapM_cons]
    refine first.bind ?_
    rintro _ middle ⟨written, assets, found, rfl, applied, rows⟩
    refine (ih middle).bind ?_
    rintro _ after ⟨published, each, rfl, applied', rows'⟩
    refine pure ⟨assets :: published, .cons found written each, rfl, applied'.trans applied, ?_⟩
    rw [rows', rows, Tables.relist_relist, List.flatten_cons, AssetList.withBase,
      AssetList.withBase, AssetList.withBase, List.filter_append]

/-- The whole update, with the rows that it leaves. -/
theorem run (h : d.LeavesRows) (s : Server φ) (unique : UniqueRows db.tables.denoms)
    (lists : List (String × String)) :
    Achieves ((ofServer s d.fetch).run lists) db fun summary after => ∃ published,
      Downloads s d db lists published ∧ after.applied = db.applied ∧
        after.tables = (db.tables.relist (AssetList.withBase published.flatten)).fillUnits ∧
          summary.listed = (AssetList.withBase published.flatten).length ∧
            summary.backfilled =
              (db.tables.relist (AssetList.withBase published.flatten)).withoutUnits.length := by
  refine (updateChains h s lists db).bind ?_
  rintro _ middle ⟨published, each, rfl, applied, rows⟩
  have listedRows : UniqueRows middle.tables.denoms := by
    rw [rows]
    exact unique.relistRows _
  have filled : Achieves (Task.ofCall .backfill (ofServer s d.fetch).backfill) middle _ :=
    asking (Attains.backfillUnits s listedRows.1) fun _ repeats => repeats
  refine filled.bind ?_
  rintro _ after ⟨applied', rfl, rows'⟩
  refine pure ⟨published, each, applied'.trans applied, by rw [rows', rows], ?_, by rw [rows]⟩
  change (published.map fun assets => (AssetList.withBase assets).length).foldl (· + ·) 0 = _
  rw [← List.sum_eq_foldl_nat]
  simp [AssetList.withBase, List.filter_flatten, List.length_flatten, Function.comp_def]

end Achieves

end DenomUpdate

/-- **What an update of the denominations does.** Whatever lists it downloads, however often a
base or a unit is repeated in them, an update that goes well has written all that they say and
given its base as a unit to each denomination that had no unit at all; it has changed nothing
else, and its summary counts the assets with a base and the units given at the end. Whether it
goes well or not, it is never because a row was there already. -/
theorem update_relists_denoms {φ : Type} {d : Downloader (Database φ)} (quiet : d.LeavesRows)
    {db : Database φ} (unique : UniqueRows db.tables.denoms) (s : Server φ)
    (lists : List (String × String)) :
    let update := (DenomUpdate.ofServer s d.fetch).run lists
    (∀ summary after, update.outcome.Gives db (.ok summary) after →
      ∃ published, DenomUpdate.Downloads s d db lists published ∧
        let listed := AssetList.withBase published.flatten
        Relisted listed db.tables.denoms after.tables.denoms ∧
        after.applied = db.applied ∧
        after.tables = { db.tables with denoms := after.tables.denoms } ∧
        summary.listed = listed.length ∧
        summary.backfilled =
          (after.tables.denoms.map (·.1)).countP (isBare listed db.tables.denoms)) ∧
    ∀ e after, update.outcome.Gives db (.error e) after → ¬e.IsRepeat := by
  have achieves := DenomUpdate.Achieves.run quiet s unique lists
  refine ⟨fun summary after gives => ?_, fun e after gives => achieves _ _ gives⟩
  obtain ⟨published, each, applied, rows, listed, backfilled⟩ := achieves _ _ gives
  refine ⟨published, each, ?_, applied, ?_, listed, ?_⟩
  · rw [rows]
    exact Tables.relisted_fillUnits unique _
  · rw [rows, Tables.fillUnits_rest]
    rfl
  · rw [backfilled, rows]
    exact Tables.length_withoutUnits_relist unique _

/-! ## Two lists that repeat a base and a unit -/

/-- The second list names a base of the first again, and one that has no units anywhere. -/
def repeatedLists (url : String) : Json :=
  let unit (name : String) (exponent : Nat) : Json :=
    .object [("denom", .string name), ("exponent", .ofNat exponent)]
  let asset (base symbol : String) (units : List Json) : Json :=
    .object [("base", .string base), ("name", .string symbol), ("symbol", .string symbol),
      ("denom_units", .array units)]
  let assets := if url = "first" then
      [asset "uosmo" "OSMOSIS" [unit "osmo" 3, unit "osmo" 6], asset "" "NONE" []]
    else [asset "uosmo" "OSMO" [unit "big" 4294967295], asset "uion" "ION" []]
  .object [("assets", .array assets)]

def repeatingLists : Downloader (Database Unit) where
  get url := Call.ofExcept (.ok ⟨200, some (repeatedLists url).render⟩)
  retry := .ofSeconds 1 2
  pause _ := .done ()
  patience := 1

/-- One denomination with a unit, one that a list renames, and one that nobody has named. -/
def threeDenoms : Database Unit :=
  ⟨Migration.all.length,
    { Tables.empty with
      denoms := [("uatom", ⟨"Atom", "ATOM", [("atom", 6)]⟩),
        ("uosmo", ⟨"UNKNOWN", "UNKNOWN", [("osmo", 1), ("nosmo", 9)]⟩),
        ("ujuno", ⟨"UNKNOWN", "UNKNOWN", []⟩)] }, ()⟩

def threeDenomsUpdated : Table String DenomRow := [
  ("uatom", ⟨"Atom", "ATOM", [("atom", 6)]⟩),
  ("uosmo", ⟨"OSMO", "OSMO", [("osmo", 6), ("nosmo", 9), ("big", 2147483647)]⟩),
  ("ujuno", ⟨"UNKNOWN", "UNKNOWN", [("ujuno", 0)]⟩), ("uion", ⟨"ION", "ION", [("uion", 0)]⟩)]

theorem repeatingLists_leavesRows : repeatingLists.LeavesRows where
  get _ _ := ⟨rfl, rfl⟩
  pause _ := Unending.always_done _

theorem update_relists_threeDenoms :
    let update := (DenomUpdate.ofServer Server.sound repeatingLists.fetch).run
      [("osmosis-1", "first"), ("juno-1", "second")]
    repeatingLists.LeavesRows ∧ UniqueRows threeDenoms.tables.denoms ∧
    ∃ after published, update.outcome.Gives threeDenoms (.ok ⟨3, 2⟩) after ∧
      after.tables.denoms = threeDenomsUpdated ∧
      DenomUpdate.Downloads Server.sound repeatingLists threeDenoms
        [("osmosis-1", "first"), ("juno-1", "second")] published ∧
      Relisted (AssetList.withBase published.flatten) threeDenoms.tables.denoms
        threeDenomsUpdated := by
  intro update
  have unique : UniqueRows threeDenoms.tables.denoms := by
    refine ⟨by decide +kernel, fun base row mem => ?_⟩
    have each : ∀ entry ∈ threeDenoms.tables.denoms, (entry.2.units.map (·.1)).Nodup := by
      decide +kernel
    exact each _ mem
  have ran : ((update.outcome.run.run threeDenoms).1,
      (update.outcome.run.run threeDenoms).2.tables.denoms) =
        (some (.ok ⟨3, 2⟩), threeDenomsUpdated) := by decide +kernel
  obtain ⟨ends, rows⟩ := Prod.mk.inj ran
  have gives := Unending.gives_of_run ends
  generalize (update.outcome.run.run threeDenoms).2 = after at gives rows
  obtain ⟨accepted, -⟩ := update_relists_denoms repeatingLists_leavesRows unique Server.sound
    [("osmosis-1", "first"), ("juno-1", "second")]
  obtain ⟨published, each, relisted, -⟩ := accepted _ after gives
  rw [rows] at relisted
  exact ⟨repeatingLists_leavesRows, unique, after, published, gives, rows, each, relisted⟩

end ChainIndex
