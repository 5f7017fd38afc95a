/-
Who signs a transaction, and who pays what for it. Both are booked from the transaction
alone, before its result is looked at; the result decides only of messages and logs. So a
transaction that failed has the signers and fees that it would have had, and no result of a
transaction that failed makes a difference to whether it can be booked at all.
-/
import ChainIndex.Proofs.AuthInfoJson
import ChainIndex.Proofs.Encoding
import ChainIndex.Tx.Normal
import Mathlib.Data.List.Induction

namespace ChainIndex

/-! Each element once -/

/-- The second list has the elements of the first one, each at its first place. -/
structure FirstPlaces {α : Type} [DecidableEq α] (xs ys : List α) : Prop where
  mem : ∀ x, x ∈ ys ↔ x ∈ xs
  order : ys.Pairwise fun x y => xs.idxOf x < xs.idxOf y

section

variable {α : Type} [DecidableEq α] {xs ys : List α} {x : α}

theorem FirstPlaces.nodup (h : FirstPlaces xs ys) : ys.Nodup :=
  h.order.imp fun before same => by
    rw [same] at before
    exact Nat.lt_irrefl _ before

theorem FirstPlaces.old (h : FirstPlaces xs ys) (known : x ∈ xs) : FirstPlaces (xs ++ [x]) ys where
  mem y := by
    rw [h.mem, List.mem_append, List.mem_singleton]
    exact ⟨.inl, fun either => either.elim id fun same => same ▸ known⟩
  order := by
    refine h.order.imp_of_mem fun hy hz before => ?_
    rwa [List.idxOf_append_of_mem ((h.mem _).mp hy), List.idxOf_append_of_mem ((h.mem _).mp hz)]

theorem FirstPlaces.new (h : FirstPlaces xs ys) (fresh : x ∉ xs) :
    FirstPlaces (xs ++ [x]) (ys ++ [x]) where
  mem y := by rw [List.mem_append, List.mem_append, h.mem]
  order := by
    refine List.pairwise_append.mpr ⟨?_, List.pairwise_singleton _ x, fun y hy z hz => ?_⟩
    · refine h.order.imp_of_mem fun hy hz before => ?_
      rwa [List.idxOf_append_of_mem ((h.mem _).mp hy), List.idxOf_append_of_mem ((h.mem _).mp hz)]
    · obtain rfl := List.mem_singleton.mp hz
      have known : y ∈ xs := (h.mem y).mp hy
      rw [List.idxOf_append_of_mem known, List.idxOf_append_of_notMem fresh]
      have inside : xs.idxOf y < xs.length := List.idxOf_lt_length_of_mem known
      omega

theorem distinct_snoc (xs : List α) (x : α) :
    distinct (xs ++ [x]) = if x ∈ distinct xs then distinct xs else distinct xs ++ [x] := by
  rw [distinct, List.foldl_append]
  rfl

theorem firstPlaces_distinct (xs : List α) : FirstPlaces xs (distinct xs) := by
  induction xs using List.reverseRecOn with
  | nil => exact ⟨fun _ => Iff.rfl, .nil⟩
  | append_singleton xs x ih =>
    rw [distinct_snoc]
    split
    · next known => exact ih.old ((ih.mem x).mp known)
    · next fresh => exact ih.new fun known => fresh ((ih.mem x).mpr known)

end

/-! What is booked -/

/-- Who pays a fee: the payer that is named, or else the first signer, or else nobody. -/
inductive PaysFee (named : String) (signers : List String) : String → Prop
  | named (some : named ≠ "") : PaysFee named signers named
  | first {signer rest} (none : named = "") (order : signers = signer :: rest) :
    PaysFee named signers signer
  | nobody (none : named = "") (unsigned : signers = []) : PaysFee named signers ""

/-- The signers and fees of a transaction are those of its auth info, whose keys have these
addresses. -/
structure TxRecord.Books (t : TxRecord) (addresses : List String) : Prop where
  /-- The keys sign in their order, each address once, and then the payer that is named. -/
  signers : ∃ own, FirstPlaces addresses own ∧ t.signers =
    own ++ if t.authInfo.fee.payer = "" ∨ t.authInfo.fee.payer ∈ own then []
      else [t.authInfo.fee.payer]
  once : t.signers.Nodup
  /-- There is a fee for each coin that is not zero, and no other. -/
  fees : List.Forall₂ (fun coin fee => fee.amount = coin.amount ∧ fee.denom = coin.denom ∧
      PaysFee t.authInfo.fee.payer t.signers fee.payer)
    (t.authInfo.fee.amount.filter fun coin => coin.amount.digits ≠ 0) t.fees

theorem collectSigners_eq (addresses : List String) (payer : String) :
    collectSigners addresses payer = distinct addresses ++
      if payer = "" ∨ payer ∈ distinct addresses then [] else [payer] := by
  unfold collectSigners
  by_cases none : payer = ""
  · simp [none]
  · have some : payer.isEmpty = false := by simpa using none
    rw [some, if_neg Bool.false_ne_true, distinct_snoc]
    by_cases known : payer ∈ distinct addresses
    · simp [known]
    · simp [known, none]

theorem nodup_collectSigners (addresses : List String) (payer : String) :
    (collectSigners addresses payer).Nodup :=
  (firstPlaces_distinct _).nodup

/-- The fees are paid by one and the same payer. -/
theorem collectFees_spec (fee : FeeOffer) (signers : List String) :
    List.Forall₂ (fun coin (paid : Fee) => paid.amount = coin.amount ∧ paid.denom = coin.denom ∧
        PaysFee fee.payer signers paid.payer)
      (fee.amount.filter fun coin => coin.amount.digits ≠ 0) (collectFees fee signers) := by
  have pays : PaysFee fee.payer signers
      (if fee.payer.isEmpty then signers.head?.getD "" else fee.payer) := by
    by_cases none : fee.payer = ""
    · rw [if_pos (by simpa using none)]
      cases signers with
      | nil => exact .nobody none rfl
      | cons signer rest => exact .first none rfl
    · rw [if_neg (by simpa using none)]
      exact .named none
  have kept : (fee.amount.filter fun coin => decide (coin.amount.digits ≠ 0)) =
      fee.amount.filter (!·.amount.isZero) :=
    List.filter_congr fun coin _ => decide_not.trans (congrArg _ (beq_eq_decide _ _).symm)
  unfold collectFees
  dsimp only
  rw [kept, List.forall₂_map_right_iff]
  exact List.forall₂_same.mpr fun coin _ => ⟨rfl, rfl, pays⟩

/-! Results that make no difference -/

/-- What is made of a transaction with each of the results that it may have: `accounts` are
the auth info and the addresses of its keys, and they are had without the result. -/
structure BookedFrom {ρ : Type} (code : ρ → Nat) (record : ρ → Except DecodeError TxRecord)
    (accounts : Except DecodeError (AuthInfo × List String)) : Prop where
  refused : ∀ e, accounts = .error e → ∀ r, record r = .error e
  booked : ∀ r t, record r = .ok t → ∃ addresses, accounts = .ok (t.authInfo, addresses) ∧
    t.signers = collectSigners addresses t.authInfo.fee.payer ∧
    t.fees = collectFees t.authInfo.fee t.signers
  failed : ∀ a, accounts = .ok a → ∀ r, code r ≠ 0 → ∃ t, record r = .ok t
  bare : ∀ r t, code r ≠ 0 → record r = .ok t → t.messages = [] ∧ t.logs = []

/-- How a transaction ran makes no difference to what is booked. -/
structure BlindToResult {ρ : Type} (code : ρ → Nat) (record : ρ → Except DecodeError TxRecord) :
    Prop where
  /-- With any two results that give a record, the signers, fees and auth info are the same. -/
  same : ∀ r r' t t', record r = .ok t → record r' = .ok t' →
    t.signers = t'.signers ∧ t.fees = t'.fees ∧ t.authInfo = t'.authInfo
  /-- Of the results of a transaction that failed all give a record or none does, and then for
  the same reason. -/
  alike : ∀ r r', code r ≠ 0 → code r' ≠ 0 →
    ((∃ t, record r = .ok t) ↔ ∃ t', record r' = .ok t') ∧
      ∀ e, record r = .error e ↔ record r' = .error e
  /-- A transaction that would have been recorded if it had run is recorded if it failed. -/
  kept : ∀ r r' t, record r = .ok t → code r' ≠ 0 → ∃ t', record r' = .ok t'
  bare : ∀ r t, code r ≠ 0 → record r = .ok t → t.messages = [] ∧ t.logs = []

section

variable {ρ : Type} {code : ρ → Nat} {record : ρ → Except DecodeError TxRecord}
  {accounts : Except DecodeError (AuthInfo × List String)}

theorem BookedFrom.books (h : BookedFrom code record accounts) {r : ρ} {t : TxRecord}
    (made : record r = .ok t) :
    ∃ addresses, accounts = .ok (t.authInfo, addresses) ∧ t.Books addresses := by
  obtain ⟨addresses, found, signers, fees⟩ := h.booked r t made
  refine ⟨addresses, found, ⟨distinct addresses, firstPlaces_distinct addresses, ?_⟩, ?_, ?_⟩
  · rw [signers, collectSigners_eq]
  · rw [signers]
    exact nodup_collectSigners _ _
  · rw [fees]
    exact collectFees_spec _ _

theorem BookedFrom.exists_iff (h : BookedFrom code record accounts) {r : ρ} (failed : code r ≠ 0) :
    (∃ t, record r = .ok t) ↔ ∃ a, accounts = .ok a := by
  constructor
  · rintro ⟨t, made⟩
    obtain ⟨addresses, found, -⟩ := h.booked r t made
    exact ⟨_, found⟩
  · rintro ⟨a, found⟩
    exact h.failed a found r failed

theorem BookedFrom.blind (h : BookedFrom code record accounts) : BlindToResult code record where
  same r r' t t' made made' := by
    obtain ⟨addresses, found, signers, fees⟩ := h.booked r t made
    obtain ⟨addresses', found', signers', fees'⟩ := h.booked r' t' made'
    rw [found] at found'
    obtain ⟨auth, rfl⟩ := Prod.mk.inj (Except.ok.inj found')
    rw [← auth] at signers' fees'
    have signed : t.signers = t'.signers := signers.trans signers'.symm
    exact ⟨signed, by rw [fees, fees', signed], auth⟩
  alike r r' failed failed' := by
    cases found : accounts with
    | error e =>
      rw [h.refused e found r, h.refused e found r']
      exact ⟨Iff.rfl, fun _ => Iff.rfl⟩
    | ok a =>
      obtain ⟨t, made⟩ := h.failed a found r failed
      obtain ⟨t', made'⟩ := h.failed a found r' failed'
      rw [made, made']
      exact ⟨iff_of_true ⟨t, rfl⟩ ⟨t', rfl⟩,
        fun e => iff_of_false (fun same => by cases same) fun same => by cases same⟩
  kept r r' t made failed' := by
    obtain ⟨addresses, found, -⟩ := h.booked r t made
    exact h.failed _ found r' failed'
  bare := h.bare

/-- Had the transaction failed, the same would be booked, without messages and logs. -/
theorem BlindToResult.exists_failed (h : BlindToResult code record) {r r' : ρ} {t : TxRecord}
    (made : record r = .ok t) (failed : code r' ≠ 0) :
    ∃ t', record r' = .ok t' ∧
      (t.signers = t'.signers ∧ t.fees = t'.fees ∧ t.authInfo = t'.authInfo) ∧
      t'.messages = [] ∧ t'.logs = [] := by
  obtain ⟨t', made'⟩ := h.kept r r' t made failed
  exact ⟨t', made', h.same r r' t t' made made', h.bare r' t' failed made'⟩

end

namespace Decoder

variable (d : Decoder) (block : Block)

/-- The auth info of a transaction in bytes, with the addresses of its keys. -/
def rawAccounts (bs : Bytes) : Except DecodeError (AuthInfo × List String) := do
  let decoded ← d.decode bs
  let addresses ← d.signerAddresses decoded.authInfo
  return (decoded.authInfo, addresses)

theorem bookedFrom_raw (bs : Bytes) :
    BookedFrom TxResult.code (d.normalizeRaw block bs) (d.rawAccounts bs) where
  refused e found r := by
    unfold rawAccounts at found
    unfold normalizeRaw
    cases read : d.decode bs with
    | error e' =>
      rw [read] at found
      cases found
      rfl
    | ok decoded =>
      rw [read] at found
      change (d.signerAddresses decoded.authInfo >>= _) = _ at found
      change (d.signerAddresses decoded.authInfo >>= _) = _
      cases resolved : d.signerAddresses decoded.authInfo with
      | error e' =>
        rw [resolved] at found
        cases found
        rfl
      | ok addresses =>
        rw [resolved] at found
        cases found
  booked r t made := by
    obtain ⟨decoded, read, made⟩ := bind_eq_ok made
    obtain ⟨addresses, resolved, made⟩ := bind_eq_ok made
    obtain ⟨messages, -, made⟩ := bind_eq_ok made
    cases made
    refine ⟨addresses, ?_, rfl, rfl⟩
    rw [rawAccounts, read]
    exact congrArg (· >>= fun addresses => pure (decoded.authInfo, addresses)) resolved
  failed a found r failed := by
    obtain ⟨decoded, read, found⟩ := bind_eq_ok found
    obtain ⟨addresses, resolved, -⟩ := bind_eq_ok found
    have none : rawMessages decoded r = .ok ([], []) := if_pos failed
    cases made : d.normalizeRaw block bs r with
    | ok t => exact ⟨t, rfl⟩
    | error e =>
      simp [normalizeRaw, read, resolved, none, bind, Except.bind, pure, Except.pure] at made
  bare r t failed made := by
    obtain ⟨decoded, -, made⟩ := bind_eq_ok made
    obtain ⟨addresses, -, made⟩ := bind_eq_ok made
    obtain ⟨messages, shown, made⟩ := bind_eq_ok made
    rw [rawMessages, if_pos failed] at shown
    cases shown
    cases made
    exact ⟨rfl, rfl⟩

theorem bookedFrom_found (tx : SearchTx) :
    BookedFrom SearchResult.code (d.normalizeFound block tx) (d.jsonAuthInfo tx.authInfo) where
  refused e found r := by
    rw [normalizeFound, found]
    rfl
  booked r t made := by
    obtain ⟨⟨auth, addresses⟩, found, made⟩ := bind_eq_ok made
    obtain ⟨messages, -, made⟩ := bind_eq_ok made
    cases made
    exact ⟨addresses, found, rfl, rfl⟩
  failed a found r failed := by
    have none : foundMessages tx r = .ok ([], []) := if_pos failed
    cases made : d.normalizeFound block tx r with
    | ok t => exact ⟨t, rfl⟩
    | error e => simp [normalizeFound, found, none, bind, Except.bind, pure, Except.pure] at made
  bare r t failed made := by
    obtain ⟨auth, -, made⟩ := bind_eq_ok made
    obtain ⟨messages, shown, made⟩ := bind_eq_ok made
    rw [foundMessages, if_pos failed] at shown
    cases shown
    cases made
    exact ⟨rfl, rfl⟩

/-! The addresses of the keys -/

theorem rawAccounts_keys {bs : Bytes} {auth : AuthInfo} {addresses : List String}
    (found : d.rawAccounts bs = .ok (auth, addresses)) :
    (∃ decoded, d.decode bs = .ok decoded ∧ decoded.authInfo = auth) ∧
      List.Forall₂ (fun key address => d.keyAddress key = .ok address)
        (auth.signers.flatMap (·.keys)) addresses := by
  obtain ⟨decoded, read, found⟩ := bind_eq_ok found
  obtain ⟨addresses, resolved, found⟩ := bind_eq_ok found
  cases found
  exact ⟨⟨decoded, read, rfl⟩, mapM_eq_ok_iff.mp resolved⟩

/-- The accounts can be had if the transaction can be decoded and each of its keys has an
address. -/
theorem exists_rawAccounts_iff {bs : Bytes} : (∃ a, d.rawAccounts bs = .ok a) ↔
    ∃ decoded, d.decode bs = .ok decoded ∧ ∀ key ∈ decoded.authInfo.signers.flatMap (·.keys),
      ∃ address, d.keyAddress key = .ok address := by
  constructor
  · rintro ⟨a, found⟩
    obtain ⟨decoded, read, found⟩ := bind_eq_ok found
    obtain ⟨addresses, resolved, -⟩ := bind_eq_ok found
    exact ⟨decoded, read, exists_mapM_eq_ok_iff.mp ⟨addresses, resolved⟩⟩
  · rintro ⟨decoded, read, each⟩
    obtain ⟨addresses, resolved⟩ := exists_mapM_eq_ok_iff.mpr each
    refine ⟨(decoded.authInfo, addresses), ?_⟩
    rw [rawAccounts, read]
    exact congrArg (· >>= fun addresses => pure (decoded.authInfo, addresses)) resolved

/-- **Who signs and what is paid does not depend on how a transaction ran.** Of a transaction
in bytes and of one in a search answer, every result that gives a record gives the same
signers, fees and auth info, results of failures are all alike, and the signers and fees are
booked as the auth info and the addresses of its keys say. A transaction that failed gives a
record if its auth info can be read and its keys have addresses. -/
theorem accounts_of_any_result :
    (∀ bs, BlindToResult TxResult.code (d.normalizeRaw block bs) ∧
      (∀ result, result.code ≠ 0 → ((∃ t, d.normalizeRaw block bs result = .ok t) ↔
        ∃ decoded, d.decode bs = .ok decoded ∧
          ∀ key ∈ decoded.authInfo.signers.flatMap (·.keys),
            ∃ address, d.keyAddress key = .ok address)) ∧
      ∀ result t, d.normalizeRaw block bs result = .ok t →
        (∃ decoded, d.decode bs = .ok decoded ∧ decoded.authInfo = t.authInfo) ∧
        ∃ addresses, List.Forall₂ (fun key address => d.keyAddress key = .ok address)
            (t.authInfo.signers.flatMap (·.keys)) addresses ∧
          t.Books addresses) ∧
    ∀ tx, BlindToResult SearchResult.code (d.normalizeFound block tx) ∧
      (∀ result, result.code ≠ 0 → ((∃ t, d.normalizeFound block tx result = .ok t) ↔
        ∃ auth addresses, d.ReadsAuthInfo tx.authInfo auth addresses)) ∧
      ∀ result t, d.normalizeFound block tx result = .ok t →
        ∃ addresses, d.ReadsAuthInfo tx.authInfo t.authInfo addresses ∧ t.Books addresses := by
  refine ⟨fun bs => ⟨(d.bookedFrom_raw block bs).blind, fun result failed => ?_,
      fun result t made => ?_⟩,
    fun tx => ⟨(d.bookedFrom_found block tx).blind, fun result failed => ?_,
      fun result t made => ?_⟩⟩
  · exact ((d.bookedFrom_raw block bs).exists_iff failed).trans d.exists_rawAccounts_iff
  · obtain ⟨addresses, found, books⟩ := (d.bookedFrom_raw block bs).books made
    obtain ⟨read, resolved⟩ := d.rawAccounts_keys found
    exact ⟨read, addresses, resolved, books⟩
  · rw [(d.bookedFrom_found block tx).exists_iff failed, Prod.exists]
    simp only [d.jsonAuthInfo_eq_ok_iff]
  · obtain ⟨addresses, found, books⟩ := (d.bookedFrom_found block tx).books made
    exact ⟨addresses, d.jsonAuthInfo_eq_ok_iff.mp found, books⟩

def threes : KeyDraft := .single ⟨"/cosmos.crypto.ed25519.PubKey", List.replicate 32 3⟩ (by decide)

def threesAddress : String := "osmo1vj92t3telvc08zhhgnvh6mkggrr6jynhmfjkf9"

/-- A key that signs twice, and a coin of nothing. -/
def sharedKey : TxDraft where
  messages := [⟨"/cosmos.gov.v1beta1.MsgVote", []⟩]
  memo := ""
  timeoutHeight := 0
  critical := []
  nonCritical := []
  signers := [⟨threes, 1⟩, ⟨threes, 2⟩]
  fee := some ⟨[⟨⟨"uion", "0"⟩, ⟨⟨0, 0⟩, "uion"⟩, rfl⟩, smallCoin], 200000, "", ""⟩
  signatures := []

/-- In JSON, a key and a coin of nothing and another payer of the fee. -/
def withPayer : SearchTx :=
  { SearchTx.empty with
    messages := [.object [("@type", .string "/cosmos.gov.v1beta1.MsgVote")]]
    authInfo := .object [
      ("fee", .object [
        ("amount", .array [
          .object [("amount", .string "0"), ("denom", .string "uion")],
          .object [("amount", .string " 500"), ("denom", .string "uosmo")]]),
        ("gas_limit", .string "200000"), ("payer", .string "osmo1payer")]),
      ("signer_infos", .array [.object [
        ("public_key", .object [("@type", .string "/cosmos.crypto.ed25519.PubKey"),
          ("key", .string "AwMDAwMDAwMDAwMDAwMDAwMDAwMDAwMDAwMDAwMDAwM=")]),
        ("sequence", .string "7")]])] }

theorem accounts_of_any_result_sharedKey :
    let block : Block := ⟨5, "B5", ⟨0, 0⟩, "", [sharedKey.encode]⟩
    let outOfGas : TxResult := { TxResult.empty with code := 11 }
    let foundOutOfGas : SearchResult := { SearchResult.empty with code := 11 }
    (∃ t t', unregistered.normalizeRaw block sharedKey.encode .empty = .ok t ∧
      unregistered.normalizeRaw block sharedKey.encode outOfGas = .ok t' ∧
      t.signers = t'.signers ∧ t.fees = t'.fees ∧ t.authInfo = t'.authInfo ∧
      t'.messages = [] ∧ t'.logs = [] ∧
      t'.signers = [threesAddress] ∧ t'.fees = [⟨⟨500, 0⟩, "uosmo", threesAddress⟩]) ∧
    ∃ t t', unregistered.normalizeFound block withPayer .empty = .ok t ∧
      unregistered.normalizeFound block withPayer foundOutOfGas = .ok t' ∧
      t.signers = t'.signers ∧ t.fees = t'.fees ∧ t.authInfo = t'.authInfo ∧
      t'.messages = [] ∧ t'.logs = [] ∧
      t'.signers = [threesAddress, "osmo1payer"] ∧
      t'.fees = [⟨⟨500, 0⟩, "uosmo", "osmo1payer"⟩] ∧
      ∃ addresses, unregistered.ReadsAuthInfo withPayer.authInfo t'.authInfo addresses := by
  intro block outOfGas foundOutOfGas
  have accounts := accounts_of_any_result unregistered block
  constructor
  · have paid : ((unregistered.normalizeRaw block sharedKey.encode .empty).toOption.map
        fun t => (t.signers, t.fees)) =
          some ([threesAddress], [⟨⟨500, 0⟩, "uosmo", threesAddress⟩]) := by
      decide +kernel
    obtain ⟨t, made, shown⟩ := Option.map_eq_some_iff.mp paid
    have made := toOption_eq_some_iff.mp made
    obtain ⟨signers, fees⟩ := Prod.mk.inj shown
    have failed : outOfGas.code ≠ 0 := by decide
    obtain ⟨t', made', ⟨sameSigners, sameFees, sameAuth⟩, messages, logs⟩ :=
      (accounts.1 sharedKey.encode).1.exists_failed made failed
    exact ⟨t, t', made, made', sameSigners, sameFees, sameAuth, messages, logs,
      sameSigners ▸ signers, sameFees ▸ fees⟩
  · have paid : ((unregistered.normalizeFound block withPayer .empty).toOption.map
        fun t => (t.signers, t.fees)) =
          some ([threesAddress, "osmo1payer"], [⟨⟨500, 0⟩, "uosmo", "osmo1payer"⟩]) := by
      decide +kernel
    obtain ⟨t, made, shown⟩ := Option.map_eq_some_iff.mp paid
    have made := toOption_eq_some_iff.mp made
    obtain ⟨signers, fees⟩ := Prod.mk.inj shown
    obtain ⟨blind, -, books⟩ := accounts.2 withPayer
    have failed : foundOutOfGas.code ≠ 0 := by decide
    obtain ⟨t', made', ⟨sameSigners, sameFees, sameAuth⟩, messages, logs⟩ :=
      blind.exists_failed made failed
    obtain ⟨addresses, read, -⟩ := books foundOutOfGas t' made'
    exact ⟨t, t', made, made', sameSigners, sameFees, sameAuth, messages, logs,
      sameSigners ▸ signers, sameFees ▸ fees, addresses, read⟩

end Decoder

end ChainIndex
