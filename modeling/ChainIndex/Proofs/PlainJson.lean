/-
Plain JSON values. A value has one if no part of it is unreadable; its items are then
the plain values of the items, and a member is the plain value of the last one that
was written under its key.
-/
import ChainIndex.Json.Record
import ChainIndex.Proofs.Outcomes

namespace ChainIndex.Json

/-! ## Members -/

theorem lookup_member (k key : String) (v : Json) (members : List (String × Json)) :
    ((k, v) :: members).lookup key = if key = k then some v else members.lookup key := by
  rw [List.lookup_cons]
  by_cases same : key = k
  · simp [same]
  · simp [same, beq_false_of_ne same]

theorem lookup_putMember (k key : String) (v : Json) (members : List (String × Json)) :
    (putMember k v members).lookup key = if key = k then some v else members.lookup key := by
  induction members with
  | nil => exact lookup_member k key v []
  | cons first rest ih =>
    obtain ⟨k', v'⟩ := first
    unfold putMember
    by_cases here : k = k'
    · subst here
      rw [if_pos rfl, lookup_member, lookup_member]
      split <;> rfl
    · rw [if_neg here]
      split
      · exact lookup_member ..
      · rw [lookup_member, ih, lookup_member]
        by_cases other : key = k'
        · rw [if_pos other, if_neg fun same => here (same.symm.trans other), if_pos other]
        · rw [if_neg other, if_neg other]

/-- Of several members of a key the last one is kept. -/
theorem lookup_sortMembers (members : List (String × Json)) (key : String) :
    (sortMembers members).lookup key = members.reverse.lookup key := by
  -- A member that was put in last hides those of its key that are sorted in already.
  have general (sorted : List (String × Json)) :
      (members.foldl (fun sorted m => putMember m.1 m.2 sorted) sorted).lookup key =
        (members.reverse.lookup key).or (sorted.lookup key) := by
    induction members generalizing sorted with
    | nil => rfl
    | cons m members ih =>
      rw [List.foldl_cons, ih, lookup_putMember, List.reverse_cons, List.lookup_append,
        Option.or_assoc, lookup_member, List.lookup_nil]
      split <;> rfl
  rw [sortMembers, general, List.lookup_nil, Option.or_none]

theorem lookup_of_mem {members : List (String × Json)} (once : (members.map (·.1)).Nodup)
    {m : String × Json} (hm : m ∈ members) : members.lookup m.1 = some m.2 := by
  induction members with
  | nil => cases hm
  | cons first members ih =>
    rw [List.map_cons, List.nodup_cons] at once
    rw [lookup_member]
    obtain rfl | later := List.mem_cons.mp hm
    · rw [if_pos rfl]
    · have other : m.1 ≠ first.1 := fun same => once.1 (List.mem_map.mpr ⟨m, later, same⟩)
      rw [if_neg other, ih once.2 later]

theorem putMember_perm {k : String} (v : Json) {members : List (String × Json)}
    (new : k ∉ members.map (·.1)) : (putMember k v members).Perm ((k, v) :: members) := by
  induction members with
  | nil => exact .refl _
  | cons first members ih =>
    rw [List.map_cons, List.mem_cons, not_or] at new
    rw [putMember, if_neg new.1]
    split
    · exact .refl _
    · exact ((ih new.2).cons first).trans (.swap (k, v) first members)

/-- Sorting drops no member of an object that has every key once. -/
theorem sortMembers_perm {members : List (String × Json)} (distinct : (members.map (·.1)).Nodup) :
    (sortMembers members).Perm members := by
  -- Of a member that is still to be put in, no key is sorted in yet.
  have general (sorted : List (String × Json)) (once : ((sorted ++ members).map (·.1)).Nodup) :
      (members.foldl (fun sorted m => putMember m.1 m.2 sorted) sorted).Perm
        (sorted ++ members) := by
    clear distinct
    induction members generalizing sorted with
    | nil => rw [List.append_nil, List.foldl_nil]
    | cons m members ih =>
      have moved : (sorted ++ m :: members).Perm (m :: sorted ++ members) := List.perm_middle
      have once := ((moved.map _).nodup_iff).mp once
      have new : m.1 ∉ sorted.map (·.1) := fun there => (List.nodup_cons.mp once).1 <| by
        obtain ⟨m', there, same⟩ := List.mem_map.mp there
        exact List.mem_map.mpr ⟨m', List.mem_append_left _ there, same⟩
      have put := (putMember_perm m.2 new).append_right members
      have once := ((put.map (·.1)).nodup_iff).mpr once
      exact (ih _ once).trans (put.trans moved.symm)
  exact general [] distinct

theorem Fields.getD_of_eq {α : Type} {f : Fields} {name : String} {j : Json} (h : f name = some j)
    (default : α) (read : Json → Option α) : f.getD name default read = read j := by
  rw [getD, h]

/-! ## Readable values -/

/-- The value has a plain value: no part of it is unreadable. -/
def IsReadable (j : Json) : Prop := j.canonical.isSome = true

/-- The plain value of a readable one. -/
def plain (j : Json) : Json := j.canonical.getD .null

variable {j : Json} {items : List Json} {members : List (String × Json)}

theorem IsReadable.canonical (h : j.IsReadable) : j.canonical = some j.plain := by
  obtain ⟨c, hc⟩ := Option.isSome_iff_exists.mp h
  rw [plain, hc, Option.getD_some]

theorem IsReadable.null : IsReadable .null := rfl

theorem IsReadable.string (s : String) : IsReadable (.string s) := rfl

theorem IsReadable.ofNat (n : Nat) : IsReadable (.ofNat n) := rfl

theorem mapM_canonical (h : ∀ j ∈ items, j.IsReadable) :
    items.mapM canonical = some (items.map plain) := by
  have read : (items.map id).mapM canonical = some (items.map plain) :=
    mapM_map_eq_pure fun j hj => (h j hj).canonical
  rwa [List.map_id] at read

theorem canonicalItems_eq_mapM (items : List Json) : canonicalItems items = items.mapM canonical := by
  induction items with
  | nil => rfl
  | cons j items ih => rw [canonicalItems, ih, List.mapM_cons]

theorem canonicalMembers_eq (h : ∀ m ∈ members, m.2.IsReadable) :
    canonicalMembers members = some (members.map fun m => (m.1, m.2.plain)) := by
  induction members with
  | nil => rfl
  | cons m members ih =>
    obtain ⟨k, j⟩ := m
    have first : j.canonical = some j.plain := (h (k, j) List.mem_cons_self).canonical
    rw [canonicalMembers, first, ih fun m hm => h m (List.mem_cons_of_mem _ hm)]
    rfl

theorem canonical_array (h : ∀ j ∈ items, j.IsReadable) :
    canonical (.array items) = some (.array (items.map plain)) := by
  rw [canonical, canonicalItems_eq_mapM, mapM_canonical h]
  rfl

theorem canonical_object (h : ∀ m ∈ members, m.2.IsReadable) :
    canonical (.object members) =
      some (.object (sortMembers (members.map fun m => (m.1, m.2.plain)))) := by
  rw [canonical, canonicalMembers_eq h]
  rfl

theorem IsReadable.array (h : ∀ j ∈ items, j.IsReadable) : IsReadable (.array items) := by
  rw [IsReadable, canonical_array h]
  rfl

theorem IsReadable.object (h : ∀ m ∈ members, m.2.IsReadable) : IsReadable (.object members) := by
  rw [IsReadable, canonical_object h]
  rfl

/-- A readable array has readable items only. -/
theorem IsReadable.of_mem_items (h : IsReadable (.array items)) : ∀ j ∈ items, j.IsReadable := by
  rw [IsReadable, Json.canonical, Option.isSome_map] at h
  induction items with
  | nil => exact fun j hj => absurd hj List.not_mem_nil
  | cons first items ih =>
    obtain ⟨all, hall⟩ := Option.isSome_iff_exists.mp h
    rw [canonicalItems] at hall
    obtain ⟨plain, here, hall⟩ := Option.bind_eq_some_iff.mp hall
    obtain ⟨plains, others, -⟩ := Option.bind_eq_some_iff.mp hall
    exact List.forall_mem_cons.mpr ⟨Option.isSome_of_eq_some here,
      ih (Option.isSome_of_eq_some others)⟩

/-- A readable object has readable members only. -/
theorem IsReadable.of_mem_members (h : IsReadable (.object members)) :
    ∀ m ∈ members, m.2.IsReadable := by
  rw [IsReadable, Json.canonical, Option.isSome_map] at h
  induction members with
  | nil => exact fun m hm => absurd hm List.not_mem_nil
  | cons first members ih =>
    obtain ⟨all, hall⟩ := Option.isSome_iff_exists.mp h
    rw [canonicalMembers] at hall
    obtain ⟨plain, here, hall⟩ := Option.bind_eq_some_iff.mp hall
    obtain ⟨plains, others, -⟩ := Option.bind_eq_some_iff.mp hall
    exact List.forall_mem_cons.mpr ⟨Option.isSome_of_eq_some here,
      ih (Option.isSome_of_eq_some others)⟩

theorem plain_array (h : ∀ j ∈ items, j.IsReadable) :
    plain (.array items) = .array (items.map plain) := by
  rw [plain, canonical_array h, Option.getD_some]

theorem plain_object (h : ∀ m ∈ members, m.2.IsReadable) :
    plain (.object members) = .object (sortMembers (members.map fun m => (m.1, m.2.plain))) := by
  rw [plain, canonical_object h, Option.getD_some]

/-- An object that has no key twice keeps all its members when it is made plain. -/
theorem exists_plain_object (once : (members.map (·.1)).Nodup)
    (readable : ∀ m ∈ members, m.2.IsReadable) :
    ∃ listed, plain (.object members) = .object listed ∧
      listed.Perm (members.map fun m => (m.1, m.2.plain)) ∧ (listed.map (·.1)).Nodup := by
  have keys : (members.map fun m => (m.1, m.2.plain)).map (·.1) = members.map (·.1) := List.map_map
  have sorted := sortMembers_perm (keys ▸ once)
  exact ⟨_, plain_object readable, sorted, ((sorted.map (·.1)).nodup_iff).mpr (keys ▸ once)⟩

theorem lookup_map_plain (members : List (String × Json)) (key : String) :
    (members.map fun m => (m.1, m.2.plain)).lookup key = (members.lookup key).map plain := by
  induction members with
  | nil => rfl
  | cons m members ih =>
    rw [List.map_cons, lookup_member, ih, lookup_member]
    split <;> rfl

/-- In a plain object the last member of a key is found, made plain. -/
theorem get?_plain (h : ∀ m ∈ members, m.2.IsReadable) (key : String) :
    (plain (.object members)).get? key = (members.reverse.lookup key).map plain := by
  rw [plain_object h, ← lookup_map_plain, List.map_reverse]
  exact lookup_sortMembers _ key

variable {key : String}

theorem textAt_of_get? {text : String} (h : j.get? key = some (.string text)) :
    j.textAt key = text := by
  rw [textAt, h]

/-- In a plain object the items of an array are plain. -/
theorem itemsAt_plain (h : ∀ m ∈ members, m.2.IsReadable)
    (found : members.reverse.lookup key = some (.array items))
    (readable : ∀ j ∈ items, j.IsReadable) :
    (plain (.object members)).itemsAt key = items.map plain := by
  rw [itemsAt, get?_plain h, found, Option.map_some, plain_array readable]

end ChainIndex.Json
