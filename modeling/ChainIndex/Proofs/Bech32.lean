/-
Bech32 strings read back as what they were written from. Two facts carry this. The
checksum is linear: the residue of the groups of a text is, in exclusive or, what
the text gives with six zeros behind it and what the last six groups give alone, so
six groups that spell the wanted difference can always be found. And bytes cut into
groups of five bits are put together again whatever bits are pending on either side.
-/
import ChainIndex.Bech32
import ChainIndex.Proofs.Outcomes
import Mathlib.Algebra.Group.Nat.Defs

namespace ChainIndex.Bech32

/-! ## The checksum is linear -/

/-- The generators that the bits of `top` add to a residue. -/
def feedback (gs : List (Nat × Nat)) (top r : Nat) : Nat :=
  gs.foldl (fun r (g, i) => if (top >>> i) % 2 = 1 then r ^^^ g else r) r

theorem checksumStep_eq (r group : Nat) : checksumStep r group =
    feedback generators.zipIdx (r >>> 25) (((r &&& 0x1ffffff) <<< 5) ^^^ group) := rfl

theorem feedback_xor (gs : List (Nat × Nat)) (s t a b : Nat) :
    feedback gs (s ^^^ t) (a ^^^ b) = feedback gs s a ^^^ feedback gs t b := by
  induction gs generalizing a b with
  | nil => rfl
  | cons entry gs ih =>
    obtain ⟨g, i⟩ := entry
    have bit : ((s ^^^ t) >>> i) % 2 = 1 ↔ ¬((s >>> i) % 2 = 1 ↔ (t >>> i) % 2 = 1) := by
      rw [Nat.shiftRight_xor_distrib, Nat.xor_mod_two_eq_one]
    have step (top r : Nat) : feedback ((g, i) :: gs) top r =
        feedback gs top (if (top >>> i) % 2 = 1 then r ^^^ g else r) := rfl
    rw [step, step, step, ← ih]
    congr 1
    by_cases hs : (s >>> i) % 2 = 1 <;> by_cases ht : (t >>> i) % 2 = 1 <;>
      simp only [bit, hs, ht, if_true, if_false, not_true, not_false_iff, iff_true, iff_false]
    · rw [Nat.xor_assoc, ← Nat.xor_assoc g, Nat.xor_comm g b, Nat.xor_assoc b, Nat.xor_self,
        Nat.xor_zero]
    · rw [Nat.xor_assoc, Nat.xor_comm b, Nat.xor_assoc]
    · rw [Nat.xor_assoc]

theorem checksumStep_xor (r s g h : Nat) :
    checksumStep (r ^^^ s) (g ^^^ h) = checksumStep r g ^^^ checksumStep s h := by
  have shifted : (((r ^^^ s) &&& 0x1ffffff) <<< 5) ^^^ (g ^^^ h) =
      (((r &&& 0x1ffffff) <<< 5) ^^^ g) ^^^ (((s &&& 0x1ffffff) <<< 5) ^^^ h) := by
    rw [Nat.and_xor_distrib_right, Nat.shiftLeft_xor_distrib]
    ac_rfl
  rw [checksumStep_eq, checksumStep_eq, checksumStep_eq, shifted, Nat.shiftRight_xor_distrib,
    feedback_xor]

/-- The residue that a run of groups leaves of an earlier one. -/
def residueFrom (start : Nat) (groups : List Nat) : Nat :=
  groups.foldl checksumStep start

theorem residue_append (xs ys : List Nat) : residue (xs ++ ys) = residueFrom (residue xs) ys :=
  List.foldl_append

/-- The groups act on their own beside what was there before them. -/
theorem residueFrom_xor (r s : Nat) (groups : List Nat) : residueFrom (r ^^^ s) groups =
    residueFrom r (List.replicate groups.length 0) ^^^ residueFrom s groups := by
  induction groups generalizing r s with
  | nil => rfl
  | cons g groups ih =>
    have step := checksumStep_xor r s 0 g
    rw [Nat.zero_xor] at step
    change residueFrom (checksumStep (r ^^^ s) g) groups = _
    rw [step, ih]
    rfl

/-! ## Six groups that spell a residue -/

theorem feedback_lt {gs : List (Nat × Nat)} (small : ∀ entry ∈ gs, entry.1 < 2 ^ 30) (top : Nat)
    {r : Nat} (hr : r < 2 ^ 30) : feedback gs top r < 2 ^ 30 := by
  induction gs generalizing r with
  | nil => exact hr
  | cons entry gs ih =>
    obtain ⟨g, i⟩ := entry
    have hg : g < 2 ^ 30 := small (g, i) List.mem_cons_self
    refine ih (fun e he => small e (List.mem_cons_of_mem _ he)) ?_
    dsimp only
    split
    · exact Nat.xor_lt_two_pow hr hg
    · exact hr

theorem checksumStep_lt (r : Nat) {group : Nat} (h : group < 32) :
    checksumStep r group < 2 ^ 30 := by
  have low : r &&& 0x1ffffff < 2 ^ 25 := Nat.and_lt_two_pow _ (by decide)
  have high : (r &&& 0x1ffffff) <<< 5 < 2 ^ 30 := by
    rw [Nat.shiftLeft_eq]
    omega
  have group : group < 2 ^ 30 := by omega
  exact feedback_lt (by decide) _ (Nat.xor_lt_two_pow high group)

/-- A residue has thirty bits once six zeros were read. -/
theorem residue_zeros_lt (groups : List Nat) :
    residue (groups ++ List.replicate 6 0) < 2 ^ 30 := by
  have last : groups ++ List.replicate 6 0 = groups ++ List.replicate 5 0 ++ [0] := by simp
  rw [last, residue_append]
  exact checksumStep_lt _ (by decide)

/-- While a residue has no high bits a step only moves it up. -/
theorem checksumStep_small {r : Nat} (h : r < 2 ^ 25) (group : Nat) :
    checksumStep r group = (r <<< 5) ^^^ group := by
  have top : r >>> 25 = 0 := by
    rw [Nat.shiftRight_eq_div_pow]
    exact Nat.div_eq_of_lt h
  have low : r &&& 0x1ffffff = r := by
    rw [show (0x1ffffff : Nat) = 2 ^ 25 - 1 from rfl, Nat.and_two_pow_sub_one_eq_mod,
      Nat.mod_eq_of_lt h]
  have none (gs : List (Nat × Nat)) (r : Nat) : feedback gs 0 r = r := by
    induction gs with
    | nil => rfl
    | cons entry gs ih =>
      change feedback gs 0 (if (0 >>> entry.2) % 2 = 1 then r ^^^ entry.1 else r) = r
      rw [Nat.zero_shiftRight, if_neg (by decide), ih]
  rw [checksumStep_eq, top, none, low]

/-- A number is its lower five bits behind the rest of it. -/
theorem shift_xor_low (n shift : Nat) :
    ((n >>> (shift + 5)) <<< 5) ^^^ ((n >>> shift) % 32) = n >>> shift := by
  have upper : n >>> (shift + 5) = (n >>> shift) >>> 5 := Nat.shiftRight_add n shift 5
  rw [upper]
  generalize n >>> shift = m
  refine Nat.eq_of_testBit_eq fun i => ?_
  rw [Nat.testBit_xor, Nat.testBit_shiftLeft, Nat.testBit_shiftRight,
    show (32 : Nat) = 2 ^ 5 from rfl, Nat.testBit_mod_two_pow]
  by_cases h : i < 5
  · have low : ¬5 ≤ i := by omega
    simp [h, low]
  · have high : 5 ≤ i := by omega
    have place : 5 + (i - 5) = i := by omega
    simp [h, high, place]

/-- The six groups of a number of thirty bits, the upper ones first. -/
def spelled (r : Nat) : List Nat :=
  [25, 20, 15, 10, 5, 0].map fun shift => (r >>> shift) % 32

theorem residueFrom_spelled {r : Nat} (h : r < 2 ^ 30) : residueFrom 0 (spelled r) = r := by
  have part {shift : Nat} (bound : 5 ≤ shift) : r >>> shift < 2 ^ 25 := by
    rw [Nat.shiftRight_eq_div_pow]
    have larger : 2 ^ 5 ≤ 2 ^ shift := Nat.pow_le_pow_right (by decide) bound
    exact Nat.div_lt_of_lt_mul (by omega)
  have step (shift : Nat) :
      checksumStep (r >>> (shift + 5)) ((r >>> shift) % 32) = r >>> shift := by
    rw [checksumStep_small (part (by omega)), shift_xor_low]
  have first : checksumStep 0 ((r >>> 25) % 32) = r >>> 25 := by
    have none : r >>> (25 + 5) = 0 := by
      rw [Nat.shiftRight_eq_div_pow]
      exact Nat.div_eq_of_lt h
    have top := step 25
    rwa [none] at top
  simp only [spelled, residueFrom, List.map_cons, List.map_nil, List.foldl_cons, List.foldl_nil,
    first]
  rw [step 20, step 15, step 10, step 5, step 0, Nat.shiftRight_zero]

/-- Behind the checksum that is written the residue is that of bech32. -/
theorem residue_checksum (hrp : List Char) (groups : List Nat) :
    residue (hrpGroups hrp ++ groups ++ checksum hrp groups) = bech32Residue := by
  let r := residue (hrpGroups hrp ++ groups ++ List.replicate 6 0)
  have spells : checksum hrp groups = spelled (r ^^^ bech32Residue) := rfl
  have small : r ^^^ bech32Residue < 2 ^ 30 :=
    Nat.xor_lt_two_pow (residue_zeros_lt _) (by decide)
  have length : (spelled (r ^^^ bech32Residue)).length = 6 := rfl
  have both := residueFrom_xor (residue (hrpGroups hrp ++ groups)) 0 (spelled (r ^^^ bech32Residue))
  rw [Nat.xor_zero, length, ← residue_append, ← residue_append, residueFrom_spelled small] at both
  rw [spells, both, ← Nat.xor_assoc, Nat.xor_self, Nat.zero_xor]

theorem checksum_lt (hrp : List Char) (groups : List Nat) : ∀ g ∈ checksum hrp groups, g < 32 := by
  intro g hg
  obtain ⟨shift, -, rfl⟩ := List.mem_map.mp hg
  exact Nat.mod_lt _ (by decide)

theorem length_checksum (hrp : List Char) (groups : List Nat) : (checksum hrp groups).length = 6 :=
  rfl

/-! ## Groups of five bits -/

/-- A group that completes a byte. -/
theorem ofGroups_byte (left byte low : Nat) {pending bits group : Nat} (rest : List Nat)
    (whole : bits + 5 = left + 8) (hlow : low < 2 ^ left)
    (value : pending * 32 + group = byte * 2 ^ left + low) :
    ofGroups pending bits (group :: rest) = UInt8.ofNat byte :: ofGroups low left rest := by
  have enough : 8 ≤ bits + 5 := by omega
  have kept : bits + 5 - 8 = left := by omega
  have upper : (byte * 2 ^ left + low) / 2 ^ left = byte := by
    rw [Nat.mul_comm, Nat.mul_add_div (Nat.two_pow_pos left), Nat.div_eq_of_lt hlow, Nat.add_zero]
  have lower : (byte * 2 ^ left + low) % 2 ^ left = low := by
    rw [Nat.mul_comm, Nat.mul_add_mod, Nat.mod_eq_of_lt hlow]
  rw [ofGroups, if_pos enough, kept, value]
  change UInt8.ofNat ((byte * 2 ^ left + low) / 2 ^ left) ::
    ofGroups ((byte * 2 ^ left + low) % 2 ^ left) left rest = _
  rw [upper, lower]

/-- A group that does not. -/
theorem ofGroups_wait (value : Nat) {pending bits group : Nat} (rest : List Nat)
    (few : bits + 5 < 8) (same : pending * 32 + group = value) :
    ofGroups pending bits (group :: rest) = ofGroups value (bits + 5) rest := by
  rw [ofGroups, if_neg (Nat.not_le.mpr few), same]

/-- The reader and the writer between two bytes. Of the byte that the writer took last
the reader has the upper bits while the writer still has the lower ones, or they have
both dealt with it. -/
def Reads (data : Bytes) : Prop :=
  ofGroups 0 0 (toGroups 0 0 data) = data ∧
    ∀ bits high low, 0 < bits → bits < 5 → low < 2 ^ bits →
      ofGroups high (8 - bits) (toGroups low bits data) =
        UInt8.ofNat (high * 2 ^ bits + low) :: data

theorem reads_nil : Reads [] := by
  refine ⟨rfl, fun bits high low some few hlow => ?_⟩
  have last : toGroups low bits [] = [low * 2 ^ (5 - bits)] := by
    rw [toGroups, if_neg (Nat.ne_of_gt some)]
    rfl
  have split : 2 ^ bits * 2 ^ (5 - bits) = 32 := by
    rw [← Nat.pow_add, Nat.add_sub_cancel' (by omega)]
  rw [last, ofGroups_byte (5 - bits) (high * 2 ^ bits + low) 0 []
    (by omega) (Nat.two_pow_pos _) (by rw [Nat.add_mul, Nat.mul_assoc, split, Nat.add_zero])]
  rfl

theorem reads_cons (b : UInt8) {data : Bytes} (h : Reads data) : Reads (b :: data) := by
  have hb := b.toNat_lt
  have upper (k : Nat) : UInt8.ofNat (b.toNat / 2 ^ k * 2 ^ k + b.toNat % 2 ^ k) = b := by
    rw [Nat.div_add_mod']
    exact UInt8.ofNat_toNat
  obtain ⟨even, odd⟩ := h
  have goOn {k : Nat} (some : 0 < k) (few : k < 5) :
      ofGroups (b.toNat / 2 ^ k) (8 - k) (toGroups (b.toNat % 2 ^ k) k data) = b :: data := by
    rw [odd k _ _ some few (Nat.mod_lt _ (Nat.two_pow_pos k)), upper]
  refine ⟨?_, fun bits high low some few hlow => ?_⟩
  · have written : toGroups 0 0 (b :: data) =
        (0 * 256 + b.toNat) / 8 :: toGroups ((0 * 256 + b.toNat) % 8) 3 data := rfl
    rw [written, Nat.zero_mul, Nat.zero_add, ofGroups_wait _ _ (by decide) (Nat.zero_add _)]
    exact goOn (k := 3) (by decide) (by decide)
  obtain rfl | rfl | rfl | rfl : bits = 1 ∨ bits = 2 ∨ bits = 3 ∨ bits = 4 := by omega
  -- A byte gives one group if few bits are pending, and two otherwise.
  · have written : toGroups low 1 (b :: data) =
        (low * 256 + b.toNat) / 16 :: toGroups ((low * 256 + b.toNat) % 16) 4 data := rfl
    have kept : (low * 256 + b.toNat) % 16 = b.toNat % 2 ^ 4 := by omega
    rw [written, kept, ofGroups_byte 4 (high * 2 ^ 1 + low) (b.toNat / 2 ^ 4) _ (by decide)
      (by omega) (by omega)]
    exact congrArg (_ :: ·) (goOn (by decide) (by decide))
  · have written : toGroups low 2 (b :: data) =
        (low * 256 + b.toNat) / 32 :: (low * 256 + b.toNat) / 1 % 32 ::
          toGroups ((low * 256 + b.toNat) % 1) 0 data := rfl
    rw [written, Nat.mod_one,
      ofGroups_byte 3 (high * 2 ^ 2 + low) (b.toNat / 32) _ (by decide) (by omega) (by omega),
      ofGroups_byte 0 b.toNat 0 _ (by decide) (by decide) (by omega),
      even, UInt8.ofNat_toNat]
  · have written : toGroups low 3 (b :: data) =
        (low * 256 + b.toNat) / 64 :: (low * 256 + b.toNat) / 2 % 32 ::
          toGroups ((low * 256 + b.toNat) % 2) 1 data := rfl
    have kept : (low * 256 + b.toNat) % 2 = b.toNat % 2 ^ 1 := by omega
    rw [written, kept,
      ofGroups_byte 2 (high * 2 ^ 3 + low) (b.toNat / 64) _ (by decide) (by omega) (by omega),
      ofGroups_wait (b.toNat / 2 ^ 1) _ (by decide) (by omega)]
    exact congrArg (_ :: ·) (goOn (by decide) (by decide))
  · have written : toGroups low 4 (b :: data) =
        (low * 256 + b.toNat) / 128 :: (low * 256 + b.toNat) / 4 % 32 ::
          toGroups ((low * 256 + b.toNat) % 4) 2 data := rfl
    have kept : (low * 256 + b.toNat) % 4 = b.toNat % 2 ^ 2 := by omega
    rw [written, kept,
      ofGroups_byte 1 (high * 2 ^ 4 + low) (b.toNat / 128) _ (by decide) (by omega) (by omega),
      ofGroups_wait (b.toNat / 2 ^ 2) _ (by decide) (by omega)]
    exact congrArg (_ :: ·) (goOn (by decide) (by decide))

theorem ofGroups_toGroups (data : Bytes) : ofGroups 0 0 (toGroups 0 0 data) = data := by
  have reads : Reads data := by
    induction data with
    | nil => exact reads_nil
    | cons b data ih => exact reads_cons b ih
  exact reads.1

/-- The groups of a byte string hold its bits and what fills up the last one. -/
theorem length_toGroups {pending bits : Nat} (few : bits < 5) (data : Bytes) :
    (toGroups pending bits data).length = (bits + 8 * data.length + 4) / 5 := by
  induction data generalizing pending bits with
  | nil =>
    unfold toGroups
    split
    · next none =>
      subst none
      rfl
    · simp only [List.length_cons, List.length_nil]
      omega
  | cons b data ih =>
    unfold toGroups
    dsimp only
    split
    · have fewer : bits + 8 - 10 < 5 := by omega
      simp only [List.length_cons, ih fewer]
      omega
    · have fewer : bits + 8 - 5 < 5 := by omega
      simp only [List.length_cons, ih fewer]
      omega

theorem toGroups_lt {pending bits : Nat} (few : bits < 5) (small : pending < 2 ^ bits)
    (data : Bytes) : ∀ g ∈ toGroups pending bits data, g < 32 := by
  induction data generalizing pending bits with
  | nil =>
    unfold toGroups
    split
    · simp
    · have room : 2 ^ bits * 2 ^ (5 - bits) = 32 := by
        rw [← Nat.pow_add, Nat.add_sub_cancel' (by omega)]
      have filled : pending * 2 ^ (5 - bits) < 2 ^ bits * 2 ^ (5 - bits) :=
        Nat.mul_lt_mul_of_pos_right small (Nat.two_pow_pos _)
      simpa [room] using filled
  | cons b data ih =>
    have hb := b.toNat_lt
    have upper : (pending * 256 + b.toNat) / Nat.pow 2 (bits + 8 - 5) < 32 := by
      have room : 2 ^ (bits + 8 - 5) * 32 = 2 ^ bits * 256 := by
        rw [show bits + 8 - 5 = bits + 3 by omega, Nat.pow_add]
        omega
      refine Nat.div_lt_of_lt_mul ?_
      change pending * 256 + b.toNat < 2 ^ (bits + 8 - 5) * 32
      omega
    unfold toGroups
    dsimp only
    split
    · simp only [List.forall_mem_cons]
      exact ⟨upper, Nat.mod_lt _ (by decide),
        ih (by omega) (Nat.mod_lt _ (Nat.two_pow_pos _))⟩
    · simp only [List.forall_mem_cons]
      exact ⟨upper, ih (by omega) (Nat.mod_lt _ (Nat.two_pow_pos _))⟩

/-! ## Texts -/

theorem group?_symbol : ∀ g, g < 32 → group? (symbol g) = some g := by
  decide

theorem symbol_lower : ∀ g, g < 32 → (symbol g).isUpper = false ∧ symbol g ≠ '1' := by
  decide

theorem lower_visible {c : Char} (h : 33 ≤ c.toNat ∧ c.toNat ≤ 126) :
    (33 ≤ c.toLower.toNat ∧ c.toLower.toNat ≤ 126) ∧ c.toLower.isUpper = false ∧
      c.toLower.toLower = c.toLower := by
  have each : ∀ n, n < 127 → 33 ≤ (Char.ofNat n).toNat ∧ (Char.ofNat n).toNat ≤ 126 →
      (33 ≤ (Char.ofNat n).toLower.toNat ∧ (Char.ofNat n).toLower.toNat ≤ 126) ∧
        (Char.ofNat n).toLower.isUpper = false ∧
        (Char.ofNat n).toLower.toLower = (Char.ofNat n).toLower := by
    decide
  have this := each c.toNat (by omega)
  rw [Char.ofNat_toNat] at this
  exact this h

/-- The characters of a human-readable part, in lower case. -/
theorem lower_hrp {hrp : String} (h : isHrp hrp = true) : ∀ c ∈ hrp.toList.map Char.toLower,
    (33 ≤ c.toNat ∧ c.toNat ≤ 126) ∧ c.isUpper = false ∧ c.toLower = c := by
  simp only [isHrp, Bool.and_eq_true, decide_eq_true_eq, List.all_eq_true] at h
  intro c hc
  obtain ⟨written, hwritten, rfl⟩ := List.mem_map.mp hc
  exact lower_visible (h.1.2 written hwritten)

theorem isHrp_lower {hrp : String} (h : isHrp hrp = true) :
    isHrp (String.ofList (hrp.toList.map Char.toLower)) = true := by
  have lower := lower_hrp h
  have noUpper : (hrp.toList.map Char.toLower).any Char.isUpper = false := by
    rw [List.any_eq_false]
    intro c hc
    simp [(lower c hc).2.1]
  simp only [isHrp, Bool.and_eq_true, decide_eq_true_eq] at h
  simp only [isHrp, String.toList_ofList, Bool.and_eq_true, decide_eq_true_eq, List.all_eq_true,
    noUpper, List.length_map]
  exact ⟨⟨h.1.1, fun c hc => (lower c hc).1⟩, rfl⟩

theorem guard_bind {α : Type} {p : Prop} [Decidable p] (h : p) (f : Unit → Option α) :
    (guard p >>= f) = f () := by
  rw [show (guard p : Option Unit) = some () from if_pos h]
  rfl

/-- The last separator stands before the data characters. -/
theorem decode?_eq {s : String} {hrp data : List Char} (split : s.toList = hrp ++ '1' :: data)
    (last : ∀ c ∈ data, c ≠ '1') : decode? s = do
      guard (!(s.toList.any Char.isUpper && s.toList.any Char.isLower))
      guard (isHrp (String.ofList hrp))
      let groups ← data.mapM group?
      guard (6 ≤ groups.length)
      let r := residue (hrpGroups hrp ++ groups)
      guard (r = bech32Residue ∨ r = bech32mResidue)
      return (String.ofList hrp, ofGroups 0 0 (groups.take (groups.length - 6))) := by
  have reversed : s.toList.reverse = data.reverse ++ '1' :: hrp.reverse := by simp [split]
  have other : ∀ c ∈ data.reverse, (c != '1') = true := by
    intro c hc
    simpa using last c (List.mem_reverse.mp hc)
  have front : s.toList.reverse.takeWhile (· != '1') = data.reverse := by
    rw [reversed, List.takeWhile_append_of_pos other]
    simp
  have back : s.toList.reverse.dropWhile (· != '1') = '1' :: hrp.reverse := by
    rw [reversed, List.dropWhile_append_of_pos other]
    simp
  unfold decode?
  dsimp only
  rw [front, back]
  dsimp only
  rw [List.reverse_reverse, List.reverse_reverse]

/-- **A bech32 string reads back.** What is written under a human-readable part is read
as its lower case and the same bytes. -/
theorem decode?_encode {hrp : String} (h : isHrp hrp = true) (data : Bytes) :
    decode? (encode hrp data) = some (String.ofList (hrp.toList.map Char.toLower), data) := by
  let low := hrp.toList.map Char.toLower
  let groups := toGroups 0 0 data
  let all := groups ++ checksum low groups
  have small : ∀ g ∈ all, g < 32 := by
    intro g hg
    rcases List.mem_append.mp hg with hg | hg
    · exact toGroups_lt (by decide) (by decide) data g hg
    · exact checksum_lt low groups g hg
  have written : (encode hrp data).toList = low ++ '1' :: all.map symbol := String.toList_ofList
  have symbols : ∀ c ∈ all.map symbol, c.isUpper = false ∧ c ≠ '1' := by
    intro c hc
    obtain ⟨g, hg, rfl⟩ := List.mem_map.mp hc
    exact symbol_lower g (small g hg)
  have lowHrp : isHrp (String.ofList low) = true := isHrp_lower h
  have noUpper : (encode hrp data).toList.any Char.isUpper = false := by
    rw [written, List.any_eq_false]
    intro c hc
    rcases List.mem_append.mp hc with hc | hc
    · simp [(lower_hrp h c hc).2.1]
    · rcases List.mem_cons.mp hc with rfl | hc
      · decide
      · simp [(symbols c hc).1]
  have read : (all.map symbol).mapM group? = some all := by
    have each : ∀ g ∈ all, group? (symbol g) = pure (id g) :=
      fun g hg => group?_symbol g (small g hg)
    have := mapM_map_eq_pure each
    rwa [List.map_id] at this
  have length : all.length = groups.length + 6 := List.length_append
  have front : all.take (all.length - 6) = groups := by
    rw [length, Nat.add_sub_cancel]
    exact List.take_left
  have enough : 6 ≤ all.length := by omega
  have same : residue (hrpGroups low ++ all) = bech32Residue := by
    rw [← List.append_assoc]
    exact residue_checksum low groups
  rw [decode?_eq written fun c hc => (symbols c hc).2, noUpper, lowHrp, read, Bool.false_and,
    Bool.not_false, guard_bind rfl, guard_bind rfl]
  change (guard (6 ≤ all.length) >>= _ : Option (String × Bytes)) = _
  rw [guard_bind enough]
  dsimp only
  rw [guard_bind (.inl same), front, ofGroups_toGroups]
  rfl

end ChainIndex.Bech32
