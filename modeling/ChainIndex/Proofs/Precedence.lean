/-
The order in which handlers are tried, after any history of registrations. A
registration is accepted if the handler handles what it is registered for and its id is
new under that key; one that is refused changes no list. So the list of a key holds the
accepted handlers of that key, those made for one chain in the order of their
registration and behind them the generic ones in theirs. The registries of events and of
messages are two cases of the same: a roster.
-/
import ChainIndex.Handler.Event
import ChainIndex.Handler.Message
import ChainIndex.Proofs.Outcomes

namespace ChainIndex

namespace Registered

variable {α β ε : Type}

/-- Those made for one chain, then the generic ones. -/
def inOrder (hs : List (Registered α)) : List (Registered α) :=
  hs.filter (!·.isGeneric) ++ hs.filter (·.isGeneric)

/-- A handler takes its place behind those of its sort. -/
theorem place_inOrder (h : Registered α) (hs : List (Registered α)) :
    h.place (inOrder hs) = inOrder (hs ++ [h]) := by
  have specific : ∀ g ∈ hs.filter (!·.isGeneric), (!g.isGeneric) = true :=
    fun g hg => (List.mem_filter.mp hg).2
  have front : (inOrder hs).takeWhile (!·.isGeneric) = hs.filter (!·.isGeneric) := by
    rw [inOrder, List.takeWhile_append_of_pos specific]
    cases generic : hs.filter (·.isGeneric) with
    | nil => simp
    | cons g gs =>
      have first : g ∈ hs.filter (·.isGeneric) := generic ▸ List.mem_cons_self
      simp [(List.mem_filter.mp first).2]
  have back : (inOrder hs).dropWhile (!·.isGeneric) = hs.filter (·.isGeneric) := by
    rw [inOrder, List.dropWhile_append_of_pos specific]
    cases generic : hs.filter (·.isGeneric) with
    | nil => rfl
    | cons g gs =>
      have first : g ∈ hs.filter (·.isGeneric) := generic ▸ List.mem_cons_self
      simp [(List.mem_filter.mp first).2]
  unfold place
  split
  · next generic => simp [inOrder, generic]
  · next other =>
    rw [front, back]
    simp [inOrder, other]

theorem place_perm (h : Registered α) (hs : List (Registered α)) : (h.place hs).Perm (h :: hs) := by
  unfold place
  split
  · exact List.perm_append_singleton h hs
  · refine List.perm_middle.trans ?_
    rw [List.takeWhile_append_dropWhile]

/-- The handler handles the list's key, and its id is new there. -/
def Fits (handles : α → String) (key : String) (h : Registered α) (hs : List (Registered α)) :
    Prop :=
  handles h.handler = key ∧ h.id ∉ hs.map (·.id)

variable {handles : α → String} {key : String} {h : Registered α} {hs : List (Registered α)}

theorem any_id : hs.any (·.id == h.id) = true ↔ h.id ∈ hs.map (·.id) := by
  simp [List.any_eq_true, List.mem_map]

theorem insert_of_fits (fits : h.Fits handles key hs) :
    h.insert handles key hs = .ok (h.place hs) := by
  have fresh : ¬hs.any (·.id == h.id) = true := fun known => fits.2 (any_id.mp known)
  rw [insert, if_neg (Decidable.not_not.mpr fits.1), if_neg fresh]

theorem insert_of_not_fits (misfit : ¬h.Fits handles key hs) :
    ∃ e, h.insert handles key hs = .error e := by
  unfold insert
  split
  · exact ⟨_, rfl⟩
  · next same =>
    split
    · exact ⟨_, rfl⟩
    · next fresh =>
      exact absurd ⟨Decidable.not_not.mp same, fun known => fresh (any_id.mpr known)⟩ misfit

/-- The first handler of the list that accepts gives this, and those before it refuse. -/
def Answers (run : α → Except ε β) (hs : List (Registered α)) (b : β) : Prop :=
  ∃ before h after, hs = before ++ h :: after ∧
    (∀ g ∈ before, ∃ e, run g.handler = .error e) ∧ run h.handler = .ok b

theorem firstOk?_eq_some_iff {run : α → Except ε β} {b : β} :
    firstOk? run hs = some b ↔ Answers run hs b := by
  rw [firstOk?, List.findSome?_eq_some_iff]
  simp only [toOption_eq_some_iff, toOption_eq_none_iff, Answers]
  grind

theorem firstOk?_eq_none_iff {run : α → Except ε β} :
    firstOk? run hs = none ↔ ∀ h ∈ hs, ∃ e, run h.handler = .error e := by
  rw [firstOk?, List.findSome?_eq_none_iff]
  simp only [toOption_eq_none_iff]

/-- What comes of handing something to the handlers: nothing if there are none, else what the
first that accepts gives, or an error. -/
def offer (run : α → Except ε (List β)) (exhausted : ε) (hs : List (Registered α)) :
    Except ε (List β) :=
  match hs with
  | [] => .ok []
  | h :: hs =>
    match firstOk? run (h :: hs) with
    | some data => .ok data
    | none => .error exhausted

section

variable {run : α → Except ε (List β)} {exhausted e : ε}

theorem offer_eq_ok_iff {data : List β} :
    offer run exhausted hs = .ok data ↔ hs = [] ∧ data = [] ∨ Answers run hs data := by
  cases hs with
  | nil => simp [offer, Answers, eq_comm]
  | cons h hs =>
    rw [or_iff_right fun none => List.cons_ne_nil h hs none.1, ← firstOk?_eq_some_iff, offer]
    cases firstOk? run (h :: hs) <;> simp

theorem offer_eq_error_iff :
    offer run exhausted hs = .error e ↔
      (hs ≠ [] ∧ ∀ h ∈ hs, ∃ e, run h.handler = .error e) ∧ e = exhausted := by
  cases hs with
  | nil => simp [offer]
  | cons h hs =>
    rw [and_iff_right (List.cons_ne_nil h hs), ← firstOk?_eq_none_iff, offer]
    cases firstOk? run (h :: hs) <;> simp [eq_comm]

end

end Registered

/-! ## Rosters -/

/-- A registry as the lists of handlers that it has under its keys, and as calls that
register one handler each. -/
structure Roster (ρ γ κ α ε : Type) where
  handlers : ρ → κ → List (Registered α)
  register : γ → ExceptT ε (StateM ρ) Unit
  key : γ → κ
  entry : γ → Registered α
  /-- What a handler says that it handles, and what the handlers of a key must handle. -/
  handles : α → String
  handled : κ → String

namespace Roster

variable {ρ γ κ α ε : Type} [DecidableEq κ] (R : Roster ρ γ κ α ε)

/-- The registry after a call, whether it was accepted or refused. -/
def step (r : ρ) (call : γ) : ρ := ((R.register call).run.run r).2

def after (calls : List γ) (r : ρ) : ρ := calls.foldl R.step r

/-- The registry accepts a call. -/
def accepts (r : ρ) (call : γ) : Bool := ((R.register call).run.run r).1.isOk

/-- The calls that are accepted, each by the registry of its time. -/
def accepted : List γ → ρ → List γ
  | [], _ => []
  | call :: calls, r =>
    if R.accepts r call then call :: accepted calls (R.step r call)
    else accepted calls (R.step r call)

/-- The handlers of a key that are accepted, in the order of their registration. -/
def acceptedAt (calls : List γ) (r : ρ) (key : κ) : List (Registered α) :=
  ((R.accepted calls r).filter (R.key · = key)).map R.entry

/-- The handler of a call handles the key that it is registered for, and its id is new
there. -/
def Fits (r : ρ) (call : γ) : Prop :=
  (R.entry call).Fits R.handles (R.handled (R.key call)) (R.handlers r (R.key call))

/-- A call that fits is accepted and puts its handler in its place in the list of its key;
one that does not is refused and changes no list. -/
structure Lawful : Prop where
  of_fits : ∀ r call, R.Fits r call → R.accepts r call = true ∧ ∀ key,
    R.handlers (R.step r call) key =
      if R.key call = key then (R.entry call).place (R.handlers r key) else R.handlers r key
  of_not_fits : ∀ r call, ¬R.Fits r call → R.accepts r call = false ∧ ∀ key,
    R.handlers (R.step r call) key = R.handlers r key

/-- What a registry holds after a history. -/
structure InOrder (calls : List γ) (r : ρ) : Prop where
  /-- Of a key, the accepted handlers: those made for one chain and then the generic ones,
  each sort in the order of registration. -/
  order : ∀ key, R.handlers (R.after calls r) key =
    (R.acceptedAt calls r key).filter (!·.isGeneric) ++
      (R.acceptedAt calls r key).filter (·.isGeneric)
  distinct : ∀ key, ((R.handlers (R.after calls r) key).map (·.id)).Nodup
  declared : ∀ key, ∀ h ∈ R.handlers (R.after calls r) key, R.handles h.handler = R.handled key
  /-- A further call is accepted if its handler handles the key and has a new id there. -/
  accepts_iff : ∀ call, R.accepts (R.after calls r) call = true ↔
    R.handles (R.entry call).handler = R.handled (R.key call) ∧
      (R.entry call).id ∉ (R.handlers (R.after calls r) (R.key call)).map (·.id)

variable {R}

theorem Lawful.accepts_iff (law : R.Lawful) (r : ρ) (call : γ) :
    R.accepts r call = true ↔ R.Fits r call := by
  by_cases fits : R.Fits r call
  · simp [(law.of_fits r call fits).1, fits]
  · simp [(law.of_not_fits r call fits).1, fits]

theorem Lawful.handlers_step (law : R.Lawful) (r : ρ) (call : γ) (key : κ) :
    R.handlers (R.step r call) key =
      if R.accepts r call = true ∧ R.key call = key then (R.entry call).place (R.handlers r key)
      else R.handlers r key := by
  by_cases fits : R.Fits r call
  · obtain ⟨accepts, lists⟩ := law.of_fits r call fits
    simp [accepts, lists]
  · obtain ⟨refuses, lists⟩ := law.of_not_fits r call fits
    simp [refuses, lists]

/-- The run lemma: what was in order before stays so, with the accepted handlers behind. -/
theorem Lawful.handlers_after (law : R.Lawful) (key : κ) {calls : List γ} {r : ρ}
    {before : List (Registered α)} (start : R.handlers r key = Registered.inOrder before) :
    R.handlers (R.after calls r) key =
      Registered.inOrder (before ++ R.acceptedAt calls r key) := by
  induction calls generalizing r before with
  | nil => simpa [after, acceptedAt, accepted] using start
  | cons call calls ih =>
    have now := law.handlers_step r call key
    rw [start] at now
    change R.handlers (R.after calls (R.step r call)) key = _
    by_cases accepts : R.accepts r call = true
    · by_cases here : R.key call = key
      · rw [if_pos ⟨accepts, here⟩, Registered.place_inOrder] at now
        rw [ih now]
        simp [acceptedAt, accepted, accepts, here]
      · rw [if_neg fun h => here h.2] at now
        rw [ih now]
        simp [acceptedAt, accepted, accepts, here]
    · rw [if_neg fun h => accepts h.1] at now
      rw [ih now]
      simp [acceptedAt, accepted, accepts]

/-- The ids of a key are distinct and its handlers handle it. -/
def Sound (R : Roster ρ γ κ α ε) (r : ρ) : Prop :=
  ∀ key, ((R.handlers r key).map (·.id)).Nodup ∧
    ∀ h ∈ R.handlers r key, R.handles h.handler = R.handled key

theorem Lawful.sound_step (law : R.Lawful) {r : ρ} (sound : R.Sound r) (call : γ) :
    R.Sound (R.step r call) := by
  intro key
  rw [law.handlers_step]
  split
  · next here =>
    obtain ⟨accepts, rfl⟩ := here
    obtain ⟨handles, fresh⟩ := (law.accepts_iff r call).mp accepts
    have moved := (R.entry call).place_perm (R.handlers r (R.key call))
    refine ⟨?_, fun h hh => ?_⟩
    · rw [(moved.map (·.id)).nodup_iff, List.map_cons]
      exact List.nodup_cons.mpr ⟨fresh, (sound _).1⟩
    · rcases List.mem_cons.mp (moved.mem_iff.mp hh) with rfl | hh
      · exact handles
      · exact (sound _).2 h hh
  · exact sound key

theorem Lawful.sound_after (law : R.Lawful) {r : ρ} (sound : R.Sound r) (calls : List γ) :
    R.Sound (R.after calls r) := by
  induction calls generalizing r with
  | nil => exact sound
  | cons call calls ih => exact ih (law.sound_step sound call)

theorem Lawful.inOrder (law : R.Lawful) {r : ρ} (empty : ∀ key, R.handlers r key = [])
    (calls : List γ) : R.InOrder calls r := by
  have sound : R.Sound r := by
    intro key
    simp [empty]
  constructor
  case order =>
    intro key
    have start : R.handlers r key = Registered.inOrder [] := empty key
    rw [law.handlers_after key start]
    rfl
  case distinct => exact fun key => (law.sound_after sound calls key).1
  case declared => exact fun key => (law.sound_after sound calls key).2
  case accepts_iff => exact fun call => law.accepts_iff _ call

end Roster

/-! ## The handlers of events -/

/-- A call that registers a handler of block events, for all blocks or for those that
begin an epoch. -/
inductive EventCall where
  | always (isGeneric : Bool) (position : BlockPosition) (eventType id : String)
    (handler : EventHandler)
  | epoch (name : String) (position : BlockPosition) (eventType id : String)
    (handler : EventHandler)

namespace EventCall

/-- The epoch, if there is one, the position and the type. -/
def key : EventCall → Option String × BlockPosition × String
  | always _ position eventType _ _ => (none, position, eventType)
  | epoch name position eventType _ _ => (some name, position, eventType)

def entry : EventCall → Registered EventHandler
  | always isGeneric _ _ id handler => { id, isGeneric, handler }
  | epoch _ _ _ id handler => { id, isGeneric := false, handler }

def register : EventCall → EventRegistration
  | always isGeneric position eventType id handler =>
    EventRegistry.register isGeneric position eventType id handler
  | epoch name position eventType id handler =>
    EventRegistry.registerEpoch name position eventType id handler

end EventCall

namespace EventHandlers

variable {position : BlockPosition} {eventType : String} {h : Registered EventHandler}
  {t : EventHandlers}

theorem register_of_fits
    (fits : h.Fits EventHandler.eventType eventType (HandlerTable.get t (position, eventType))) :
    (register position eventType h).run.run t = (.ok (), HandlerTable.set (position, eventType)
      (h.place (HandlerTable.get t (position, eventType))) t) := by
  have ran : (register position eventType h).run.run t = (.ok (),
      HandlerTable.set (position, eventType) (h.place (HandlerTable.get t (position, eventType)))
        (HandlerTable.set (position, eventType) (HandlerTable.get t (position, eventType)) t)) := by
    rw [register, Call.run_bind_ok Call.run_get, Call.run_bind_ok (Call.run_modify _),
      Registered.insert_of_fits fits]
    rfl
  rw [ran, HandlerTable.set_set]

/-- A handler that is refused leaves a list that may have been missing. -/
theorem register_of_not_fits
    (misfit : ¬h.Fits EventHandler.eventType eventType (HandlerTable.get t (position, eventType))) :
    ∃ e, (register position eventType h).run.run t = (.error e,
      HandlerTable.set (position, eventType) (HandlerTable.get t (position, eventType)) t) := by
  obtain ⟨e, refused⟩ := Registered.insert_of_not_fits misfit
  refine ⟨.registration e, ?_⟩
  rw [register, Call.run_bind_ok Call.run_get, Call.run_bind_ok (Call.run_modify _), refused]
  rfl

theorem dispatchEvent_eq_offer {height : Int} {e : Event} :
    t.dispatchEvent height position e = Registered.offer (fun h => h.read e.eventType e)
      (.exhausted e.eventType height) (HandlerTable.get t (position, e.eventType)) := by
  unfold dispatchEvent Registered.offer
  cases HandlerTable.get t (position, e.eventType) with
  | nil => rfl
  | cons h hs =>
    dsimp only
    cases Registered.firstOk? (fun h : EventHandler => h.read e.eventType e) (h :: hs) <;> rfl

end EventHandlers

namespace EventRegistry

/-- The handlers of all blocks, or those of an epoch. -/
def scope (registry : EventRegistry) : Option String → EventHandlers
  | none => registry.always
  | some epoch => registry.epochHandlers epoch

def roster : Roster EventRegistry EventCall (Option String × BlockPosition × String) EventHandler
    EventHandlerError where
  handlers registry key := HandlerTable.get (registry.scope key.1) key.2
  register := EventCall.register
  key := EventCall.key
  entry := EventCall.entry
  handles := EventHandler.eventType
  handled key := key.2.2

variable {registry : EventRegistry}

/-- The registry with other handlers for all blocks, or for an epoch. -/
def setScope (place : Option String) (t : EventHandlers) (registry : EventRegistry) :
    EventRegistry :=
  match place with
  | none => { registry with always := t }
  | some epoch => registry.setEpoch epoch t

theorem scope_setScope (place other : Option String) (t : EventHandlers) :
    (registry.setScope place t).scope other =
      if other = place then t else registry.scope other := by
  have kept {epoch name : String} (ne : name ≠ epoch) (es : List (String × EventHandlers)) :
      (es.filter (·.1 != epoch)).lookup name = es.lookup name := by
    induction es with
    | nil => rfl
    | cons first es ih =>
      obtain ⟨k, handlers⟩ := first
      by_cases same : k = epoch
      · subst same
        have apart : (name == k) = false := by simpa using ne
        simpa [List.lookup_cons, apart] using ih
      · simp [same, List.lookup_cons, ih]
  cases place with
  | none => cases other <;> simp [scope, setScope]; rfl
  | some epoch =>
    cases other with
    | none => rfl
    | some name =>
      by_cases same : name = epoch
      · simp [scope, setScope, setEpoch, epochHandlers, same]
      · have apart : (name == epoch) = false := by simpa using same
        simp [scope, setScope, setEpoch, epochHandlers, same, List.lookup_cons, apart, kept same]

/-- The registry with another list under a key. -/
def setHandlers (key : Option String × BlockPosition × String) (hs : List (Registered EventHandler))
    (registry : EventRegistry) : EventRegistry :=
  registry.setScope key.1 (HandlerTable.set key.2 hs (registry.scope key.1))

theorem handlers_setHandlers (key other : Option String × BlockPosition × String)
    (hs : List (Registered EventHandler)) :
    roster.handlers (registry.setHandlers key hs) other =
      if key = other then hs else roster.handlers registry other := by
  change HandlerTable.get ((registry.setHandlers key hs).scope other.1) other.2 = _
  rw [setHandlers, scope_setScope]
  by_cases here : key = other
  · subst here
    simp
  · rw [if_neg here]
    split
    · next place =>
      have apart : other.2 ≠ key.2 := fun same => here (Prod.ext place.symm same.symm)
      rw [HandlerTable.get_set_other _ _ apart, ← place]
      rfl
    · rfl

/-- A call acts on the handlers of its epoch, or on those of all blocks. -/
theorem run_register {call : EventCall} {result : Except EventHandlerError Unit} {t : EventHandlers}
    (acted : (EventHandlers.register call.key.2.1 call.key.2.2 call.entry).run.run
      (registry.scope call.key.1) = (result, t)) :
    call.register.run.run registry = (result, registry.setScope call.key.1 t) := by
  cases call with
  | always isGeneric position eventType id handler =>
    exact congrArg (fun acted => (acted.1, registry.setScope none acted.2)) acted
  | epoch name position eventType id handler =>
    exact congrArg (fun acted => (acted.1, registry.setScope (some name) acted.2)) acted

/-- A call that fits gives its key a list with the new handler in its place. -/
theorem run_of_fits {call : EventCall} (fits : roster.Fits registry call) :
    call.register.run.run registry = (.ok (), registry.setHandlers call.key
      (call.entry.place (roster.handlers registry call.key))) :=
  run_register (EventHandlers.register_of_fits fits)

/-- One that does not is refused, and its key keeps its list, or has an empty one. -/
theorem run_of_not_fits {call : EventCall} (misfit : ¬roster.Fits registry call) :
    ∃ e, call.register.run.run registry =
      (.error e, registry.setHandlers call.key (roster.handlers registry call.key)) := by
  obtain ⟨e, refused⟩ := EventHandlers.register_of_not_fits misfit
  exact ⟨e, run_register refused⟩

theorem lawful_roster : roster.Lawful := by
  constructor
  case of_fits =>
    intro registry call fits
    have ran := run_of_fits fits
    refine ⟨congrArg (fun result => result.1.isOk) ran, fun key => ?_⟩
    have after : roster.step registry call = registry.setHandlers call.key
        (call.entry.place (roster.handlers registry call.key)) := congrArg Prod.snd ran
    rw [after, handlers_setHandlers]
    by_cases here : call.key = key
    · subst here
      rfl
    · rw [if_neg here]
      exact (if_neg here).symm
  case of_not_fits =>
    intro registry call misfit
    obtain ⟨e, ran⟩ := run_of_not_fits misfit
    refine ⟨congrArg (fun result => result.1.isOk) ran, fun key => ?_⟩
    have after : roster.step registry call =
        registry.setHandlers call.key (roster.handlers registry call.key) := congrArg Prod.snd ran
    rw [after, handlers_setHandlers]
    split
    · next here => rw [here]
    · rfl

theorem handlers_empty (key : Option String × BlockPosition × String) :
    roster.handlers .empty key = [] := by
  obtain ⟨place, key⟩ := key
  cases place <;> rfl

end EventRegistry

/-! ## The handlers of messages -/

/-- A call that registers a handler of messages. -/
structure MessageCall where
  isGeneric : Bool
  typeUrl : String
  id : String
  handler : MessageHandler

namespace MessageRegistry

def roster : Roster MessageRegistry MessageCall String MessageHandler MessageHandlerError where
  handlers := HandlerTable.get
  register call := register call.isGeneric call.typeUrl call.id call.handler
  key := MessageCall.typeUrl
  entry call := { id := call.id, isGeneric := call.isGeneric, handler := call.handler }
  handles := MessageHandler.typeUrl
  handled := id

variable {registry : MessageRegistry}

theorem run_register_of_ok {isGeneric : Bool} {typeUrl id : String} {handler : MessageHandler}
    {hs : List (Registered MessageHandler)}
    (accepted : Registered.insert MessageHandler.typeUrl typeUrl ⟨id, isGeneric, handler⟩
      (HandlerTable.get registry typeUrl) = .ok hs) :
    (register isGeneric typeUrl id handler).run.run registry =
      (.ok (), HandlerTable.set typeUrl hs registry) := by
  rw [register, Call.run_bind_ok Call.run_get, accepted]
  rfl

theorem run_register_of_error {isGeneric : Bool} {typeUrl id : String} {handler : MessageHandler}
    {e : RegistrationError}
    (refused : Registered.insert MessageHandler.typeUrl typeUrl ⟨id, isGeneric, handler⟩
      (HandlerTable.get registry typeUrl) = .error e) :
    (register isGeneric typeUrl id handler).run.run registry =
      (.error (.registration e), registry) := by
  rw [register, Call.run_bind_ok Call.run_get, refused]
  rfl

theorem lawful_roster : roster.Lawful := by
  constructor
  case of_fits =>
    intro registry call fits
    have ran := run_register_of_ok (Registered.insert_of_fits fits)
    refine ⟨congrArg (fun result => result.1.isOk) ran, fun key => ?_⟩
    have after : roster.step registry call = HandlerTable.set call.typeUrl
        ((roster.entry call).place (HandlerTable.get registry call.typeUrl)) registry :=
      congrArg Prod.snd ran
    change HandlerTable.get (roster.step registry call) key =
      if call.typeUrl = key then (roster.entry call).place (HandlerTable.get registry key)
      else HandlerTable.get registry key
    rw [after]
    by_cases here : call.typeUrl = key
    · subst here
      simp
    · rw [if_neg here, HandlerTable.get_set_other _ _ (Ne.symm here)]
  case of_not_fits =>
    intro registry call misfit
    obtain ⟨e, refused⟩ := Registered.insert_of_not_fits misfit
    have ran := run_register_of_error refused
    refine ⟨congrArg (fun result => result.1.isOk) ran, fun key => ?_⟩
    exact congrArg (roster.handlers · key) (congrArg Prod.snd ran)

theorem dispatchMessage_eq_offer {txHash : String} {m : TxMessage} :
    registry.dispatchMessage txHash m = Registered.offer (·.read m) (.exhausted m.typeUrl txHash)
      (HandlerTable.get registry m.typeUrl) := by
  unfold dispatchMessage Registered.offer
  cases HandlerTable.get registry m.typeUrl with
  | nil => rfl
  | cons h hs =>
    dsimp only
    cases Registered.firstOk? (fun h : MessageHandler => h.read m) (h :: hs) <;> rfl

end MessageRegistry

/-- **Handlers keep their precedence.** After any calls to an empty registry, of events
or of messages, the handlers of a key are those of the accepted calls, the ones made for
one chain or for an epoch before the generic ones and each sort in the order of
registration; they have distinct ids and handle their key, and a further call is accepted
if and only if it fits. The first of them that accepts an event or message gives its
data. -/
theorem handlers_keep_precedence :
    (∀ calls : List EventCall,
      EventRegistry.roster.InOrder calls .empty ∧ ∀ place height position e data,
        let registry := EventRegistry.roster.after calls .empty
        let handlers := EventRegistry.roster.handlers registry (place, position, e.eventType)
        (registry.scope place).dispatchEvent height position e = .ok data ↔
          handlers = [] ∧ data = [] ∨
            Registered.Answers (fun h => h.read e.eventType e) handlers data) ∧
    ∀ calls : List MessageCall,
      MessageRegistry.roster.InOrder calls [] ∧ ∀ txHash m data,
        let registry := MessageRegistry.roster.after calls []
        let handlers := MessageRegistry.roster.handlers registry m.typeUrl
        registry.dispatchMessage txHash m = .ok data ↔
          handlers = [] ∧ data = [] ∨ Registered.Answers (·.read m) handlers data := by
  constructor
  · intro calls
    refine ⟨EventRegistry.lawful_roster.inOrder EventRegistry.handlers_empty calls, ?_⟩
    intro place height position e data
    dsimp only
    rw [EventHandlers.dispatchEvent_eq_offer]
    exact Registered.offer_eq_ok_iff
  · intro calls
    refine ⟨MessageRegistry.lawful_roster.inOrder (fun _ => rfl) calls, ?_⟩
    intro txHash m data
    dsimp only
    rw [MessageRegistry.dispatchMessage_eq_offer]
    exact Registered.offer_eq_ok_iff

/-- A handler made for one chain comes before one that was there already, and a second
handler of one id is refused. -/
example :
    let call (isGeneric : Bool) (id : String) : EventCall :=
      .always isGeneric .beginBlock "rewards" id .validatorRewards
    (EventRegistry.roster.after [call true "a", call false "b", call true "b", call false "c"]
      .empty).ids .beginBlock "rewards" = ["b", "c", "a"] := by
  decide

end ChainIndex
