/-
Where a run takes place. A `Setting` is everything of a run that the indexer does
not decide: a node that may answer anything, a clock, handlers and filters, and
the calls of the store that fail, all of which may depend on a world outside that
every call may change. A `Site` is that world beside the store's memory and a
journal of what was done to the memory. A failing call leaves the memory as it
was; a failure that could not be recorded is in the journal as missed.
-/
import ChainIndex.Pipeline.Basic
import ChainIndex.Proofs.Client
import ChainIndex.Proofs.Outcomes
import ChainIndex.Proofs.StoreEffect

namespace ChainIndex

/-- A call of a store. -/
inductive StoreCall where
  | highest (chainId : String)
  | status (chainId : String) (low high : Int)
  | heightsWithMessage (chainId typeUrl : String) (low high : Int)
  | unresolved (chainId : String)
  | recordFailure (r : FailureRecord)
  | writeTxs (b : TxBatch)
  | writeEvents (b : EventBatch)

structure Site (ω : Type) where
  outside : ω
  memory : MemoryStore
  journal : List StoreEffect

structure Setting (ω : Type) where
  node : Node ω
  retry : RetryPolicy
  pause : Span → Unending ω Unit
  patience : Nat
  decoder : Decoder
  eventHandlers : EventRegistry
  messageHandlers : MessageRegistry
  filters : Filters
  fileText : (path : String) → Option String
  /-- The error of a call of the store that fails. -/
  fault : StoreCall → StateM ω (Option StoreError)

namespace Site

variable {ω α : Type}

def setOutside (outside : ω) (s : Site ω) : Site ω := { s with outside }

/-- The site after some effects. -/
def emit (es : List StoreEffect) (s : Site ω) : Site ω :=
  { s with memory := replay es s.memory, journal := s.journal ++ es }

/-- A call of the store, which fails where there is a fault. -/
def call (fault : StateM ω (Option StoreError)) (done : Site ω → α × Site ω)
    (failed : Site ω → Site ω) : Call (Site ω) StoreError α :=
  ExceptT.mk fun s =>
    match fault.run s.outside with
    | (some e, outside) => (.error e, failed (s.setOutside outside))
    | (none, outside) => (.ok (done (s.setOutside outside)).1, (done (s.setOutside outside)).2)

/-- A call that asks the memory something. -/
def ask (fault : StateM ω (Option StoreError)) (question : MemoryStore → α) :
    Call (Site ω) StoreError α :=
  call fault (fun s => (question s.memory, s)) id

/-- A call that writes to the memory. -/
def write (fault : StateM ω (Option StoreError)) (done failed : List StoreEffect) :
    Call (Site ω) StoreError Unit :=
  call fault (fun s => ((), s.emit done)) (·.emit failed)

theorem call_run (fault : StateM ω (Option StoreError)) (done : Site ω → α × Site ω)
    (failed : Site ω → Site ω) (s : Site ω) :
    (call fault done failed).run.run s =
      match (fault.run s.outside).1 with
      | some e => (.error e, failed (s.setOutside (fault.run s.outside).2))
      | none => (.ok (done (s.setOutside (fault.run s.outside).2)).1,
          (done (s.setOutside (fault.run s.outside).2)).2) := by
  obtain ⟨fails, outside, answered⟩ : ∃ fails outside, fault.run s.outside = (fails, outside) :=
    ⟨_, _, rfl⟩
  change (match fault.run s.outside with
    | (some e, outside) => (Except.error e, failed (s.setOutside outside))
    | (none, outside) =>
      (.ok (done (s.setOutside outside)).1, (done (s.setOutside outside)).2)) = _
  rw [answered]
  cases fails <;> rfl

end Site

namespace Setting

variable {ω : Type}

/-- The memory as a store, some calls of which fail. -/
def store (p : Setting ω) : IndexStore (Site ω) where
  highest chainId := Site.ask (p.fault (.highest chainId)) (·.highest chainId)
  status chainId low high :=
    Site.ask (p.fault (.status chainId low high)) (·.status chainId low high)
  heightsWithMessage chainId typeUrl low high :=
    Site.ask (p.fault (.heightsWithMessage chainId typeUrl low high))
      (·.heightsWithMessage chainId typeUrl low high)
  unresolved chainId := Site.ask (p.fault (.unresolved chainId)) (·.unresolved chainId)
  recordFailure r := Site.write (p.fault (.recordFailure r)) [.recorded r] [.missed r]
  writeTxs b := Site.write (p.fault (.writeTxs b)) [.wroteTxs b] []
  writeEvents b := Site.write (p.fault (.writeEvents b)) [.wroteEvents b] []

def client (p : Setting ω) : Client (Site ω) where
  node := p.node.onPart (·.outside) Site.setOutside
  retry := p.retry
  pause span := (p.pause span).onPart (·.outside) Site.setOutside
  patience := p.patience

def processor (p : Setting ω) (config : Config) : Processor where
  config := config
  decoder := p.decoder
  eventHandlers := p.eventHandlers
  messageHandlers := p.messageHandlers
  filters := p.filters

/-- The indexer with a configuration in this setting. -/
def pipeline (p : Setting ω) (config : Config) : Pipeline (Site ω) where
  config := config
  client := p.client
  store := p.store
  processor := p.processor config
  fileText := p.fileText

/-- Some call of the store may fail. -/
def CanFail (p : Setting ω) : Prop :=
  ∃ call w, ((p.fault call).run w).1 ≠ none

end Setting

/-! ## Effects of calls -/

/-- A call has left these effects, and nothing else on the memory. -/
def Emits {ω : Type} (es : List StoreEffect) (s s' : Site ω) : Prop :=
  s'.memory = replay es s.memory ∧ s'.journal = s.journal ++ es

/-- A call has left the memory alone. -/
abbrev Quiet {ω : Type} : Site ω → Site ω → Prop := Emits []

section

variable {ω : Type} {s s' s'' : Site ω} {es fs : List StoreEffect}

theorem Emits.trans (h : Emits es s s') (h' : Emits fs s' s'') : Emits (es ++ fs) s s'' := by
  refine ⟨?_, ?_⟩
  · rw [h'.1, h.1, replay_append]
  · rw [h'.2, h.2, List.append_assoc]

/-- The journal says which effects a call had. -/
theorem Emits.unique (h : Emits es s s') (h' : Emits fs s s') : es = fs :=
  List.append_cancel_left (h.2.symm.trans h'.2)

theorem quiet_setOutside (outside : ω) (s : Site ω) : Quiet s (s.setOutside outside) :=
  ⟨rfl, (List.append_nil _).symm⟩

theorem emits_emit (outside : ω) (es : List StoreEffect) (s : Site ω) :
    Emits es s ((s.setOutside outside).emit es) :=
  ⟨rfl, rfl⟩

end

namespace Setting

variable {ω α : Type} (p : Setting ω)

theorem always_client : p.client.Always Quiet where
  node := {
    status := fun _ => quiet_setOutside _ _
    block := fun _ _ => quiet_setOutside _ _
    blockResults := fun _ _ => quiet_setOutside _ _
    txPage := fun _ _ _ _ => quiet_setOutside _ _ }
  pause _ := Unending.always_onPart (Unending.always_true _) fun s w _ => quiet_setOutside w s

theorem quiet_ask (fault : StateM ω (Option StoreError)) (question : MemoryStore → α)
    (s : Site ω) : Quiet s ((Site.ask fault question).run.run s).2 := by
  rw [Site.ask, Site.call_run]
  split <;> exact quiet_setOutside _ s

/-- A call that writes has its effects, or it fails. -/
theorem emits_write (fault : StateM ω (Option StoreError)) (done failed : List StoreEffect)
    (s : Site ω) :
    (((Site.write fault done failed).run.run s).1 = .ok () ∧
        Emits done s ((Site.write fault done failed).run.run s).2) ∨
      (fault.run s.outside).1 ≠ none ∧
        ((Site.write fault done failed).run.run s).1 ≠ .ok () ∧
        Emits failed s ((Site.write fault done failed).run.run s).2 := by
  rw [Site.write, Site.call_run]
  split
  · next e failed =>
    exact .inr ⟨by simp [failed], by simp, emits_emit _ _ s⟩
  · exact .inl ⟨rfl, emits_emit _ _ s⟩

end Setting

/-! ## What a computation leaves -/

namespace Unending

variable {ω α β : Type}

/-- The computation can come to its end with a value, and its calls have left
these effects by then, if others may do anything between two of its calls. -/
def Leaves : Unending (Site ω) α → List StoreEffect → α → Prop
  | .done b, es, a => es = [] ∧ b = a
  | .never, _, _ => False
  | .call rest effect, es, a =>
    ∃ s now later, Emits now s (effect s) ∧ (rest s).Leaves later a ∧ es = now ++ later

variable {es : List StoreEffect}

@[simp] theorem leaves_done {a b : α} : (.done b : Unending (Site ω) α).Leaves es a ↔
    es = [] ∧ b = a := Iff.rfl

@[simp] theorem leaves_never {a : α} : (.never : Unending (Site ω) α).Leaves es a ↔ False := Iff.rfl

theorem leaves_bind {x : Unending (Site ω) α} {f : α → Unending (Site ω) β} {b : β} :
    (x >>= f).Leaves es b ↔
      ∃ now a later, x.Leaves now a ∧ (f a).Leaves later b ∧ es = now ++ later := by
  induction x generalizing es with
  | done a =>
    constructor
    · intro h
      exact ⟨[], a, es, ⟨rfl, rfl⟩, h, rfl⟩
    · rintro ⟨_, _, _, ⟨rfl, rfl⟩, h, rfl⟩
      exact h
  | never =>
    constructor
    · exact False.elim
    · rintro ⟨_, _, _, h, _⟩
      exact h
  | call rest effect ih =>
    constructor
    · rintro ⟨s, first, _, emits, left, rfl⟩
      obtain ⟨now, a, later, hx, hf, rfl⟩ := (ih s).mp left
      exact ⟨first ++ now, a, later, ⟨s, first, now, emits, hx, rfl⟩, hf,
        (List.append_assoc ..).symm⟩
    · rintro ⟨_, a, later, ⟨s, first, now, emits, hx, rfl⟩, hf, rfl⟩
      exact ⟨s, first, now ++ later, emits, (ih s).mpr ⟨now, a, later, hx, hf, rfl⟩,
        List.append_assoc ..⟩

theorem leaves_map {x : Unending (Site ω) α} {f : α → β} {b : β} :
    (f <$> x).Leaves es b ↔ ∃ a, x.Leaves es a ∧ f a = b := by
  rw [map_def, leaves_bind]
  constructor
  · rintro ⟨now, a, _, hx, ⟨rfl, rfl⟩, rfl⟩
    exact ⟨a, by rwa [List.append_nil], rfl⟩
  · rintro ⟨a, hx, rfl⟩
    exact ⟨es, a, [], hx, ⟨rfl, rfl⟩, (List.append_nil es).symm⟩

theorem leaves_ofState {m : StateM (Site ω) α} {a : α} :
    (ofState m).Leaves es a ↔ ∃ s, Emits es s (m.run s).2 ∧ (m.run s).1 = a := by
  constructor
  · rintro ⟨s, now, _, emits, ⟨rfl, value⟩, rfl⟩
    rw [List.append_nil]
    exact ⟨s, emits, value⟩
  · rintro ⟨s, emits, value⟩
    exact ⟨s, es, [], emits, ⟨rfl, value⟩, (List.append_nil es).symm⟩

/-- A computation with quiet calls leaves nothing. -/
theorem Leaves.of_quiet {x : Unending (Site ω) α} (quiet : x.Always Quiet) {a : α}
    (h : x.Leaves es a) : es = [] := by
  induction x generalizing es with
  | done b => exact h.1
  | never => exact h.elim
  | call rest effect ih =>
    obtain ⟨s, now, later, emits, left, rfl⟩ := h
    rw [emits.unique (quiet s).1, ih s (quiet s).2 left, List.append_nil]

/-- What a quiet computation comes to when nobody else acts. -/
theorem leaves_of_run {x : Unending (Site ω) α} (quiet : x.Always Quiet) {s : Site ω} {a : α}
    (h : (x.run.run s).1 = some a) : x.Leaves [] a := by
  induction x generalizing s with
  | done b =>
    cases h
    exact ⟨rfl, rfl⟩
  | never => cases h
  | call rest effect ih =>
    exact ⟨s, [], [], (quiet s).1, ih s (quiet s).2 h, rfl⟩

/-! ## What a computation keeps to -/

/-- Every call has effects that `P` allows, whatever others do between two of
them, and a value is as `Q` says. -/
def Keeps (P : StoreEffect → Prop) (Q : α → Prop) : Unending (Site ω) α → Prop
  | .done a => Q a
  | .never => True
  | .call rest effect =>
    ∀ s, (∃ es, Emits es s (effect s) ∧ ∀ e ∈ es, P e) ∧ (rest s).Keeps P Q

variable {P P' : StoreEffect → Prop}

theorem Keeps.mono {Q Q' : α → Prop} {x : Unending (Site ω) α} (h : x.Keeps P Q)
    (hP : ∀ e, P e → P' e) (hQ : ∀ a, Q a → Q' a) : x.Keeps P' Q' := by
  induction x with
  | done a => exact hQ a h
  | never => trivial
  | call rest effect ih =>
    intro s
    obtain ⟨es, emits, allowed⟩ := (h s).1
    exact ⟨⟨es, emits, fun e he => hP e (allowed e he)⟩, ih s (h s).2⟩

theorem Keeps.bind {Q : α → Prop} {Q' : β → Prop} {x : Unending (Site ω) α}
    {f : α → Unending (Site ω) β} (hx : x.Keeps P Q) (hf : ∀ a, Q a → (f a).Keeps P Q') :
    (x >>= f).Keeps P Q' := by
  induction x with
  | done a => exact hf a hx
  | never => trivial
  | call rest effect ih => exact fun s => ⟨(hx s).1, ih s (hx s).2⟩

theorem keeps_of_quiet {x : Unending (Site ω) α} (quiet : x.Always Quiet) :
    x.Keeps P fun _ => True := by
  induction x with
  | done a => trivial
  | never => trivial
  | call rest effect ih =>
    exact fun s => ⟨⟨[], (quiet s).1, fun _ h => absurd h List.not_mem_nil⟩, ih s (quiet s).2⟩

theorem keeps_ofState {Q : α → Prop} {m : StateM (Site ω) α}
    (h : ∀ s, (∃ es, Emits es s (m.run s).2 ∧ ∀ e ∈ es, P e) ∧ Q (m.run s).1) :
    (ofState m).Keeps P Q :=
  h

end Unending

namespace Task

variable {ω ε ε' α β : Type} {es : List StoreEffect}

theorem leaves_bind {x : Task (Site ω) ε α} {f : α → Task (Site ω) ε β} {o : Except ε β} :
    (x >>= f).outcome.Leaves es o ↔
      (∃ now a later, x.outcome.Leaves now (.ok a) ∧ (f a).outcome.Leaves later o ∧
          es = now ++ later) ∨
        ∃ e, x.outcome.Leaves es (.error e) ∧ o = .error e := by
  rw [outcome_bind, Unending.leaves_bind]
  constructor
  · rintro ⟨now, answer, later, hx, hf, rfl⟩
    cases answer with
    | ok a => exact .inl ⟨now, a, later, hx, hf, rfl⟩
    | error e =>
      obtain ⟨rfl, rfl⟩ := hf
      exact .inr ⟨e, by rwa [List.append_nil], rfl⟩
  · rintro (⟨now, a, later, hx, hf, rfl⟩ | ⟨e, hx, rfl⟩)
    · exact ⟨now, .ok a, later, hx, hf, rfl⟩
    · exact ⟨es, .error e, [], hx, ⟨rfl, rfl⟩, (List.append_nil es).symm⟩

theorem leaves_ofUnending {x : Unending (Site ω) α} {o : Except ε α} :
    (ofUnending x).outcome.Leaves es o ↔ ∃ a, x.Leaves es a ∧ .ok a = o :=
  Unending.leaves_map

theorem leaves_ofCall {call : Call (Site ω) ε α} {o : Except ε α} :
    (ofCall id call).outcome.Leaves es o ↔
      ∃ s, Emits es s (call.run.run s).2 ∧ (call.run.run s).1 = o := by
  rw [outcome_ofCall, Unending.leaves_ofState]
  constructor
  · rintro ⟨s, emits, value⟩
    exact ⟨s, emits, (mapError_id _).symm.trans value⟩
  · rintro ⟨s, emits, value⟩
    exact ⟨s, emits, (mapError_id _).trans value⟩

variable {P : StoreEffect → Prop}

theorem keeps_bind {x : Task (Site ω) ε α} {f : α → Task (Site ω) ε β} {Q : Except ε α → Prop}
    {Q' : Except ε β → Prop} (hx : x.outcome.Keeps P Q)
    (ok : ∀ a, Q (.ok a) → (f a).outcome.Keeps P Q') (error : ∀ e, Q (.error e) → Q' (.error e)) :
    (x >>= f).outcome.Keeps P Q' := by
  rw [outcome_bind]
  refine hx.bind fun answer h => ?_
  cases answer with
  | ok a => exact ok a h
  | error e => exact error e h

theorem keeps_ofUnending {x : Unending (Site ω) α} {Q : α → Prop} (hx : x.Keeps P Q) :
    (ofUnending x : Task (Site ω) ε α).outcome.Keeps P fun o => ∃ a, o = .ok a ∧ Q a :=
  hx.bind fun a h => ⟨a, rfl, h⟩

theorem keeps_ofCall {call : Call (Site ω) ε α} {Q : Except ε α → Prop}
    (h : (Unending.ofState call.outcome).Keeps P Q) : (ofCall id call).outcome.Keeps P Q := by
  intro s
  refine ⟨(h s).1, ?_⟩
  change Q (Except.mapError id (call.run.run s).1)
  rw [mapError_id]
  exact (h s).2

end Task

/-! ## A small setting -/

/-- A node with fixed answers. -/
def Node.fixed (status : NodeStatus) (block : Int → Except NodeError Block)
    (results : Int → Except NodeError BlockResults) (page : Int → Except NodeError SearchPage) :
    Node Unit where
  name := "fixed"
  status := Call.ofExcept (.ok status)
  block height := Call.ofExcept (block height)
  blockResults height := Call.ofExcept (results height)
  txPage height _ _ := Call.ofExcept (page height)

/-- A setting in which every call is tried once and none of the store fails. -/
def Setting.plain (node : Node Unit) : Setting Unit where
  node := node
  retry := .ofSeconds 1 2
  pause _ := .done ()
  patience := 40
  decoder := { book := ⟨"cosmos", by decide⟩, messageTypes := [] }
  eventHandlers := .empty
  messageHandlers := []
  filters := .none
  fileText _ := none
  fault _ := return none

theorem Setting.plain_sound (node : Node Unit) : ¬(Setting.plain node).CanFail := by
  rintro ⟨call, w, fails⟩
  exact fails rfl

/-- A configuration that follows the tip up to an end, for both kinds, without a
search. -/
def Config.plain (endBlock : Int) : Config where
  chain := {
    chainId := "chain-1", chainName := "chain", accountHrp := "cosmos", rpcUrl := "", restUrl := "",
    timeoutSeconds := 1 }
  database := { url := "", dryRun := true }
  indexer := {
    startBlock := 1, endBlock, reindex := false, reindexMessageType := "", blockInputFile := "",
    throttle := .zero, rpcWorkers := 2, retryAttempts := 1, retryMaxWait := 2,
    indexBlockEvents := true, indexTransactions := true, reattemptFailedBlocks := false,
    exitWhenCaughtUp := true, epochIdentifier := none, waitForChain := false,
    waitForChainDelay := 1, skipTxSearch := true, base64Attributes := false, blockTimer := 1000,
    writerBatchSize := 1, writerBatchTimeoutMillis := 500, writerMaxRetries := 1, filterFile := "" }

end ChainIndex
