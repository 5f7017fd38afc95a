/-
What the calls to a node make of an answer with an unsuccessful status. The call
for a page of transactions never takes one. A Tendermint call looks at the status
only where the body is no JSON: it takes what the body carries, if that has the
shape asked for. Block results have a default for each of their fields, so almost
any object that a gateway answers with is taken for the results of an empty block.
-/
import ChainIndex.Node.Tendermint
import ChainIndex.Proofs.Outcomes

namespace ChainIndex

/-! ## What an answer carries -/

/-- The value is an object with an error in it. -/
def Json.ReportsError (j : Json) : Prop := ∃ e, j.get? "error" = some e ∧ e ≠ .null

namespace Http.Answer

/-- The value of the body, if it came to its end and is JSON. -/
def json? (a : Answer) : Option Json := a.body.bind Json.parse?

/-- The body reports no error and has the value as its result, or is the value itself where it
has no result. -/
inductive Carries (a : Answer) : Json → Prop
  | result {whole j : Json} (body : a.json? = some whole) (fine : ¬whole.ReportsError)
      (found : whole.get? "result" = some j) : Carries a j
  | bare {whole : Json} (body : a.json? = some whole) (fine : ¬whole.ReportsError)
      (absent : whole.get? "result" = none) : Carries a whole

end Http.Answer

variable {α σ : Type} {j : Json} {a : Http.Answer}

theorem openEnvelope_of_reportsError (h : j.ReportsError) : ∃ e, openEnvelope j = .error e := by
  obtain ⟨e, found, reported⟩ := h
  refine ⟨.ofReport e, ?_⟩
  unfold openEnvelope
  split
  · next missing =>
    rw [missing] at found
    cases found
  · next null =>
    rw [null] at found
    cases found
    exact absurd rfl reported
  · next e' found' =>
    rw [found'] at found
    cases found
    rfl

theorem openEnvelope_of_fine (h : ¬j.ReportsError) :
    openEnvelope j = .ok ((j.get? "result").getD j) := by
  unfold openEnvelope
  split
  · rfl
  · rfl
  · next e other found => exact absurd ⟨e, found, other⟩ h

/-- What is behind the envelope of the body is what the answer carries. -/
theorem Http.Answer.carries_iff {whole : Json} (body : a.json? = some whole) :
    a.Carries j ↔ openEnvelope whole = .ok j := by
  constructor
  · intro carried
    cases carried with
    | result body' fine found =>
      obtain rfl : whole = _ := Option.some.inj (body.symm.trans body')
      rw [openEnvelope_of_fine fine, found, Option.getD_some]
    | bare body' fine absent =>
      obtain rfl : whole = _ := Option.some.inj (body.symm.trans body')
      rw [openEnvelope_of_fine fine, absent, Option.getD_none]
  · intro opened
    by_cases fine : whole.ReportsError
    · obtain ⟨e, refused⟩ := openEnvelope_of_reportsError fine
      cases refused.symm.trans opened
    · rw [openEnvelope_of_fine fine] at opened
      cases opened
      cases found : whole.get? "result" with
      | some j => exact .result body fine found
      | none => exact .bare body fine found

theorem Http.Answer.Carries.exists_json (h : a.Carries j) : ∃ whole, a.json? = some whole := by
  cases h with
  | result body => exact ⟨_, body⟩
  | bare body => exact ⟨_, body⟩

theorem Http.Answer.wholeBody_eq_ok_iff {text : String} :
    a.wholeBody = .ok text ↔ a.body = some text := by
  rw [wholeBody]
  cases a.body <;> simp

/-! ## Reading an answer -/

/-- Reading a Tendermint answer goes well with what the answer carries, whatever its status is. -/
theorem readEnvelope_eq_ok_iff {read : Json → Option α} {url : String} {x : α} :
    readEnvelope read url a = .ok x ↔ ∃ j, a.Carries j ∧ read j = some x := by
  constructor
  · intro h
    obtain ⟨text, arrived, h⟩ := bind_eq_ok h
    split at h
    · cases h
    · next whole parsed =>
      obtain ⟨j, opened, h⟩ := bind_eq_ok h
      have body : a.json? = some whole :=
        Option.bind_eq_some_iff.mpr ⟨text, Http.Answer.wholeBody_eq_ok_iff.mp arrived, parsed⟩
      split at h
      · next found =>
        cases h
        exact ⟨j, (Http.Answer.carries_iff body).mpr opened, found⟩
      · cases h
  · rintro ⟨j, carried, found⟩
    obtain ⟨whole, body⟩ := carried.exists_json
    obtain ⟨text, arrived, parsed⟩ := Option.bind_eq_some_iff.mp body
    have opened := (Http.Answer.carries_iff body).mp carried
    have arrived := Http.Answer.wholeBody_eq_ok_iff.mpr arrived
    simp only [readEnvelope, arrived, bind, Except.bind, parsed, opened, found]

/-- A REST answer with an unsuccessful status is an error, whatever it says. -/
theorem readPlain_of_unsuccessful (h : a.isSuccess = false) (read : Json → Option α)
    (url : String) (x : α) : readPlain read url a ≠ .ok x := by
  intro taken
  obtain ⟨text, -, taken⟩ := bind_eq_ok taken
  rw [h, if_neg Bool.false_ne_true] at taken
  split at taken <;> cases taken

theorem readBlock_eq_ok_iff {height : Int} {url : String} {block : Block} :
    readBlock height url a = .ok block ↔
      ∃ j, a.Carries j ∧ (BlockText.ofJson? j).bind BlockText.block? = some block := by
  constructor
  · intro h
    obtain ⟨written, read, h⟩ := bind_eq_ok h
    obtain ⟨j, carried, found⟩ := readEnvelope_eq_ok_iff.mp read
    split at h
    · next decoded =>
      cases h
      exact ⟨j, carried, Option.bind_eq_some_iff.mpr ⟨written, found, decoded⟩⟩
    · cases h
  · rintro ⟨j, carried, found⟩
    obtain ⟨written, found, decoded⟩ := Option.bind_eq_some_iff.mp found
    have read : readEnvelope BlockText.ofJson? url a = .ok written :=
      readEnvelope_eq_ok_iff.mpr ⟨j, carried, found⟩
    simp only [readBlock, read, bind, Except.bind, decoded]

theorem Json.lookup_of_missing (names : List String) (name : String) :
    ((names.zip (names.map fun _ => (none : Option Json))).lookup name).join = none := by
  induction names with
  | nil => rfl
  | cons first rest ih =>
    rw [List.map_cons, List.zip_cons_cons, List.lookup_cons]
    split
    · rfl
    · exact ih

/-- In an object without the members of a record every field is missing. -/
theorem Json.fields_of_foreign {names : List String} {members : List (String × Json)}
    (foreign : ∀ m ∈ members, m.1 ∉ names) :
    ∃ f : Json.Fields, Json.fields names (.object members) = some f ∧ ∀ name, f name = none := by
  have missing : ∀ name ∈ names, Json.onlyMember members name = pure none := by
    intro name field
    have others : members.filter (fun m => m.1 == name) = [] :=
      List.filter_eq_nil_iff.mpr fun m hm same => foreign m hm (beq_iff_eq.mp same ▸ field)
    rw [Json.onlyMember, others]
    rfl
  have found : (names.map id).mapM (Json.onlyMember members) = pure (names.map fun _ => none) :=
    mapM_map_eq_pure missing
  rw [List.map_id] at found
  refine ⟨_, ?_, Json.lookup_of_missing names⟩
  change (names.mapM (Json.onlyMember members)).bind _ = _
  rw [found]
  rfl

/-- An object without the members of block results is read as the results of an empty block. -/
theorem BlockResults.ofJson?_of_foreign {members : List (String × Json)}
    (foreign : ∀ m ∈ members, m.1 ∉ fieldNames) :
    ofJson? (.object members) = some .empty := by
  obtain ⟨f, read, absent⟩ := Json.fields_of_foreign foreign
  simp only [ofJson?, read, Option.bind_some, bind, Json.Fields.getD, absent]
  rfl

/-- The keys of an object. -/
def Json.keys? : Json → Option (List String)
  | .object members => some (members.map (·.1))
  | _ => none

/-- An object with neither an error nor a result nor a member of block results carries itself, and
that is read as the results of an empty block. -/
theorem Http.Answer.carries_of_foreign {keys : List String}
    (keyed : a.json?.bind Json.keys? = some keys)
    (foreign : ∀ key ∈ keys, key ∉ "error" :: "result" :: BlockResults.fieldNames) :
    ∃ j, a.Carries j ∧ BlockResults.ofJson? j = some .empty := by
  obtain ⟨whole, body, object⟩ := Option.bind_eq_some_iff.mp keyed
  unfold Json.keys? at object
  split at object
  · next members =>
    cases object
    have others : ∀ m ∈ members, m.1 ∉ "error" :: "result" :: BlockResults.fieldNames :=
      fun m hm => foreign m.1 (List.mem_map_of_mem hm)
    have absent : ∀ key ∈ "error" :: "result" :: BlockResults.fieldNames,
        (Json.object members).get? key = none := fun key listed =>
      List.lookup_eq_none_iff.mpr fun m hm => bne_iff_ne.mpr fun same => others m hm (same ▸ listed)
    have fine : ¬(Json.object members).ReportsError := by
      rintro ⟨e, reported, -⟩
      cases (absent "error" List.mem_cons_self).symm.trans reported
    have bare := absent "result" (List.mem_cons_of_mem _ List.mem_cons_self)
    exact ⟨_, .bare body fine bare, BlockResults.ofJson?_of_foreign fun m hm listed =>
      others m hm (List.mem_cons_of_mem _ (List.mem_cons_of_mem _ listed))⟩
  · cases object

/-! ## The calls -/

/-- A call to a node, with what it asks for and the type of what it gives. -/
inductive NodeCall : Type → Type where
  | status : NodeCall NodeStatus
  | block (height : Int) : NodeCall Block
  | blockResults (height : Int) : NodeCall BlockResults
  | txPage (height : Int) (offset limit : Nat) : NodeCall SearchPage

namespace NodeCall

def ask (node : Node σ) : NodeCall α → Call σ NodeError α
  | status => node.status
  | block height => node.block height
  | blockResults height => node.blockResults height
  | txPage height offset limit => node.txPage height offset limit

/-- The address that the call gets its answer from. -/
def address (e : Endpoints) : NodeCall α → String
  | status => e.rpc ++ "/" ++ "status" ++ Http.query []
  | block height => e.rpc ++ "/" ++ "block" ++ Http.query [("height", toString height)]
  | blockResults height =>
    e.rpc ++ "/" ++ "block_results" ++ Http.query [("height", toString height)]
  | txPage height offset limit =>
    e.rest ++ "/" ++ "cosmos/tx/v1beta1/txs" ++ Http.query (Endpoints.pageItems height offset limit)

/-- The call goes to the Tendermint endpoint. -/
def IsTendermint : NodeCall α → Prop
  | txPage .. => False
  | _ => True

/-- What the call reads in a value. -/
def read? : NodeCall α → Json → Option α
  | status, j => NodeStatus.ofJson? j
  | block _, j => (BlockText.ofJson? j).bind BlockText.block?
  | blockResults _, j => BlockResults.ofJson? j
  | txPage .., j => SearchPage.ofJson? j

end NodeCall

namespace Endpoints

variable {e : Endpoints} {get : String → Call σ NodeError Http.Answer} {s s' : σ}

theorem ask_of_received {base path : String} {items : List (String × String)}
    {read : String → Http.Answer → Except NodeError α}
    (received : (get (base ++ "/" ++ path ++ Http.query items)).run.run s = (.ok a, s')) :
    ((ask get base path items read).run.run s) = (read (base ++ "/" ++ path) a, s') := by
  rw [ask, Call.run_bind_ok received]
  rfl

/-- An unsuccessful answer is taken for data exactly if it comes from the Tendermint endpoint
and carries something that the call can read. -/
theorem ok_of_unsuccessful_iff {c : NodeCall α} {x : α}
    (received : (get (c.address e)).run.run s = (.ok a, s')) (unsuccessful : a.isSuccess = false) :
    ((c.ask (e.node get)).run.run s).1 = .ok x ↔
      c.IsTendermint ∧ ∃ j, a.Carries j ∧ c.read? j = some x := by
  cases c with
  | status =>
    change ((Endpoints.ask get e.rpc _ _ _).run.run s).1 = _ ↔ True ∧ _
    rw [ask_of_received received, true_and]
    exact readEnvelope_eq_ok_iff
  | block height =>
    change ((Endpoints.ask get e.rpc _ _ _).run.run s).1 = _ ↔ True ∧ _
    rw [ask_of_received received, true_and]
    exact readBlock_eq_ok_iff
  | blockResults height =>
    change ((Endpoints.ask get e.rpc _ _ _).run.run s).1 = _ ↔ True ∧ _
    rw [ask_of_received received, true_and]
    exact readEnvelope_eq_ok_iff
  | txPage height offset limit =>
    refine iff_of_false ?_ fun h => h.1
    intro taken
    unfold NodeCall.ask node at taken
    dsimp only at taken
    split at taken
    · cases taken
    · rw [ask_of_received received] at taken
      exact readPlain_of_unsuccessful unsuccessful _ _ _ taken

/-- An answer with an unsuccessful status is taken for data exactly if it comes from the Tendermint
endpoint and carries something that the call can read. An object with neither an error nor a
result nor a member of block results is taken for the results of an empty block. -/
theorem unsuccessful_taken_iff (e : Endpoints) (get : String → Call σ NodeError Http.Answer)
    {a : Http.Answer} (unsuccessful : a.isSuccess = false) :
    (∀ {α : Type} (c : NodeCall α) (s s' : σ),
      (get (c.address e)).run.run s = (.ok a, s') → ∀ x,
        ((c.ask (e.node get)).run.run s).1 = .ok x ↔
          c.IsTendermint ∧ ∃ j, a.Carries j ∧ c.read? j = some x) ∧
    ∀ (height : Int) (s s' : σ) (keys : List String),
      (get ((NodeCall.blockResults height).address e)).run.run s = (.ok a, s') →
      a.json?.bind Json.keys? = some keys →
      (∀ key ∈ keys, key ∉ "error" :: "result" :: BlockResults.fieldNames) →
      (((e.node get).blockResults height).run.run s).1 = .ok .empty := by
  refine ⟨fun c s s' received x => ok_of_unsuccessful_iff received unsuccessful, ?_⟩
  intro height s s' keys received body foreign
  obtain ⟨j, carried, read⟩ := Http.Answer.carries_of_foreign body foreign
  have taken : (((NodeCall.blockResults height).ask (e.node get)).run.run s).1 = .ok .empty :=
    (ok_of_unsuccessful_iff received unsuccessful).mpr ⟨trivial, j, carried, read⟩
  exact taken

/-- What a proxy answers that does not reach the node. -/
def badGateway : Http.Answer := ⟨502, some "\x7b\"message\": \"Bad Gateway\"\x7d"⟩

theorem keys_badGateway : badGateway.json?.bind Json.keys? = some ["message"] := by
  simp only [Http.Answer.json?, badGateway, Option.bind_some, Json.parse?, Json.ofText?]
  rw [String.toList_ofList]
  decide +kernel

theorem foreign_badGateway :
    ∀ key ∈ ["message"], key ∉ "error" :: "result" :: BlockResults.fieldNames := by
  decide +kernel

/-- Endpoints behind that proxy. -/
def unreachable : Endpoints := ⟨"http://node", "http://gateway"⟩

theorem unsuccessful_taken_badGateway :
    badGateway.isSuccess = false ∧
    badGateway.json?.bind Json.keys? = some ["message"] ∧
    (∀ key ∈ ["message"], key ∉ "error" :: "result" :: BlockResults.fieldNames) ∧
    (((unreachable.node fun _ => (pure badGateway : Call Unit NodeError _)).blockResults 1).run.run
      ()).1 = .ok .empty :=
  ⟨by decide, keys_badGateway, foreign_badGateway,
    (unsuccessful_taken_iff unreachable (fun _ => pure badGateway) (by decide)).2 1 () () ["message"]
      rfl keys_badGateway foreign_badGateway⟩

/-- Not every unsuccessful answer is an error: the words of a proxy are the results of a block. -/
theorem badGateway_taken_for_results :
    ¬∀ (e : Endpoints) (get : String → Call Unit NodeError Http.Answer) (a : Http.Answer),
      a.isSuccess = false → ∀ {α : Type} (c : NodeCall α),
        (get (c.address e)).run.run () = (.ok a, ()) →
        ∃ error, ((c.ask (e.node get)).run.run ()).1 = .error error := by
  intro claim
  obtain ⟨error, refused⟩ :=
    claim unreachable (fun _ => pure badGateway) badGateway (by decide) (.blockResults 1) rfl
  obtain ⟨j, carried, read⟩ := Http.Answer.carries_of_foreign keys_badGateway foreign_badGateway
  have taken : (((NodeCall.blockResults 1).ask (unreachable.node fun _ =>
      (pure badGateway : Call Unit NodeError _))).run.run ()).1 = .ok .empty :=
    (ok_of_unsuccessful_iff rfl (by decide)).mpr ⟨trivial, j, carried, read⟩
  cases taken.symm.trans refused

end Endpoints

end ChainIndex
