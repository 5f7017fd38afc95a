/-
JSON text that is read back. What is written of a value is read as that value, if it
holds no fraction and no part that is unreadable, its integers have at most 64 bits, and
its arrays and objects are not nested too deeply. An integer of any size is read as
`Json.ofWhole`.
-/
import ChainIndex.Json.Printer
import ChainIndex.Json.Reader
import ChainIndex.Proofs.PlainJson
import ChainIndex.Proofs.Spelling

namespace ChainIndex.Json

namespace Reader

variable {cs rest : List Char}

/-! ## Strings -/

theorem hexValue?_hexDigit : ∀ n, n < 16 → hexValue? (hexDigit n) = some n := by
  decide

variable {c : Char} {units : List Nat}

theorem stringUnits_short {name : Char} (meant : shortEscape? name = some c)
    (h : stringUnits cs = some (units, rest)) :
    stringUnits ('\\' :: name :: cs) = some (c.toNat :: units, rest) := by
  have notUnicode : name ≠ 'u' := by
    rintro rfl
    cases meant
  unfold stringUnits
  split
  · next same => cases same
  · next same =>
    cases same
    exact absurd rfl notUnicode
  · next same =>
    cases same
    simp only [meant, h, Option.bind_eq_bind, Option.bind_some]
    rfl
  · next other same =>
    cases same
    exact (other _ _ rfl rfl).elim
  · next same => cases same

theorem stringUnits_control {n : Nat} (small : n < 0x20) (h : stringUnits cs = some (units, rest)) :
    stringUnits ('\\' :: 'u' :: '0' :: '0' :: hexDigit (n / 16) :: hexDigit (n % 16) :: cs) =
      some (n :: units, rest) := by
  have zero : hexValue? '0' = some 0 := by decide
  have high := hexValue?_hexDigit (n / 16) (by omega)
  have low := hexValue?_hexDigit (n % 16) (by omega)
  have value : ((0 * 16 + 0) * 16 + n / 16) * 16 + n % 16 = n := by omega
  simp only [stringUnits, zero, high, low, h, Option.bind_eq_bind, Option.bind_some, value]
  rfl

theorem stringUnits_plain (notQuote : c ≠ '"') (notSlash : c ≠ '\\') (printable : ¬ c.toNat < 0x20)
    (h : stringUnits cs = some (units, rest)) :
    stringUnits (c :: cs) = some (c.toNat :: units, rest) := by
  unfold stringUnits
  split
  · next same =>
    cases same
    exact absurd rfl notQuote
  · next same =>
    cases same
    exact absurd rfl notSlash
  · next same =>
    cases same
    exact absurd rfl notSlash
  · next same =>
    cases same
    rw [if_neg printable, h]
    rfl
  · next same => cases same

/-- An escaped character is read as that character. -/
theorem stringUnits_escapeChar (c : Char) (h : stringUnits cs = some (units, rest)) :
    stringUnits (escapeChar c ++ cs) = some (c.toNat :: units, rest) := by
  unfold escapeChar
  split
  · next same => exact stringUnits_short (congrArg some same.symm) h
  split
  · next same => exact stringUnits_short (congrArg some same.symm) h
  split
  · next same => exact stringUnits_short (congrArg some same.symm) h
  split
  · next same => exact stringUnits_short (congrArg some same.symm) h
  split
  · next same => exact stringUnits_short (congrArg some same.symm) h
  split
  · next same => exact stringUnits_short (congrArg some same.symm) h
  split
  · next same => exact stringUnits_short (congrArg some same.symm) h
  split
  · next small => exact stringUnits_control small h
  · next notQuote notSlash _ _ _ _ _ printable =>
    exact stringUnits_plain notQuote notSlash printable h

theorem stringUnits_escaped (cs rest : List Char) :
    stringUnits (cs.flatMap escapeChar ++ '"' :: rest) = some (cs.map Char.toNat, rest) := by
  induction cs with
  | nil => rfl
  | cons c cs ih =>
    rw [List.flatMap_cons, List.append_assoc]
    exact stringUnits_escapeChar c ih

/-- A character is no half of a surrogate pair. -/
theorem no_surrogate (c : Char) :
    isHighSurrogate c.toNat = false ∧ isLowSurrogate c.toNat = false := by
  have valid : c.toNat < 0xD800 ∨ 0xDFFF < c.toNat ∧ c.toNat < 0x110000 := c.valid
  constructor
  · rw [isHighSurrogate, Bool.and_eq_false_iff, decide_eq_false_iff_not, decide_eq_false_iff_not]
    omega
  · rw [isLowSurrogate, Bool.and_eq_false_iff, decide_eq_false_iff_not, decide_eq_false_iff_not]
    omega

theorem joinUnits_chars (cs : List Char) : joinUnits (cs.map Char.toNat) = some cs := by
  induction cs with
  | nil => rfl
  | cons c cs ih =>
    obtain ⟨high, low⟩ := no_surrogate c
    cases cs with
    | nil => simp [joinUnits, high, low]
    | cons d cs =>
      rw [List.map_cons] at ih
      simp [joinUnits, high, low, ih]

theorem stringBody_escaped (cs rest : List Char) :
    stringBody (cs.flatMap escapeChar ++ '"' :: rest) = some (some (String.ofList cs), rest) := by
  rw [stringBody, stringUnits_escaped, Option.map_some]
  simp only [joinUnits_chars, Option.map_some]

/-! ## Whole numbers -/

/-- What may follow a value: the end of the text, or the mark after an item or a member. -/
def EndsValue (rest : List Char) : Prop :=
  ∀ c ∈ rest.head?, c = ',' ∨ c = ']' ∨ c = '\x7d'

theorem EndsValue.nil : EndsValue [] := by
  rintro c ⟨⟩

theorem EndsValue.cons (h : c = ',' ∨ c = ']' ∨ c = '\x7d') : EndsValue (c :: rest) := by
  rintro d ⟨⟩
  exact h

theorem digitRun_digits (digits : ∀ c ∈ cs, Text.isDigit c = true) (some : cs ≠ [])
    (ends : EndsValue rest) : digitRun (cs ++ rest) = .some (cs, rest) := by
  have behind : rest.takeWhile Text.isDigit = [] ∧ rest.dropWhile Text.isDigit = rest := by
    cases rest with
    | nil => exact ⟨rfl, rfl⟩
    | cons c rest =>
      have noDigit : Text.isDigit c = false := by
        obtain rfl | rfl | rfl := ends c rfl <;> decide
      simp [noDigit]
  rw [digitRun, List.takeWhile_append_of_pos digits, List.dropWhile_append_of_pos digits, behind.1,
    behind.2, List.append_nil]
  cases cs with
  | nil => exact absurd rfl some
  | cons c cs => rfl

/-- The digits of a positive number do not begin with a zero. -/
theorem head?_toDigits {n : Nat} (pos : 0 < n) : (Nat.toDigits 10 n).head? ≠ some '0' := by
  induction n using Nat.strongRecOn with
  | ind n ih =>
    by_cases small : n < 10
    · have chars : ∀ d, d < 10 → 0 < d → some d.digitChar ≠ some '0' := by decide
      rw [Nat.toDigits_of_lt_base small]
      exact chars n small pos
    · rw [Nat.toDigits_of_base_le (by decide) (by omega), List.head?_append_of_ne_nil]
      · exact ih (n / 10) (by omega) (by omega)
      · exact Nat.toDigits_ne_nil

theorem exponentPart_ends (ends : EndsValue rest) : exponentPart rest = some (none, rest) := by
  cases rest with
  | nil => rfl
  | cons c rest =>
    have noLetter : ¬ (c = 'e' ∨ c = 'E') := by
      obtain rfl | rfl | rfl := ends c rfl <;> decide
    unfold exponentPart
    exact if_neg noLetter

theorem magnitude_toDigits (negative : Bool) (n : Nat) (ends : EndsValue rest) :
    magnitude negative (Nat.toDigits 10 n ++ rest) = some (ofDigits negative n, rest) := by
  have run : digitRun (Nat.toDigits 10 n ++ rest) = some (Nat.toDigits 10 n, rest) :=
    digitRun_digits (fun c => Text.isDigit_toDigits) Nat.toDigits_ne_nil ends
  have lead : (Nat.toDigits 10 n).head? ≠ some '0' ∨ (Nat.toDigits 10 n).length = 1 := by
    obtain rfl | pos := Nat.eq_zero_or_pos n
    · exact .inr rfl
    · exact .inl (head?_toDigits pos)
  refine Option.bind_eq_some_iff.mpr ⟨_, run, Option.bind_eq_some_iff.mpr ⟨(), if_pos lead, ?_⟩⟩
  have exponent := exponentPart_ends ends
  have value := congrArg (fun n => some (ofDigits negative n, rest)) (Text.ofDigits_toDigits n)
  -- There is no point behind the digits, whatever ends the number.
  cases rest with
  | nil =>
    exact Option.bind_eq_some_iff.mpr ⟨(none, _), rfl,
      Option.bind_eq_some_iff.mpr ⟨_, exponent, value⟩⟩
  | cons c rest =>
    obtain rfl | rfl | rfl := ends c rfl
    all_goals exact Option.bind_eq_some_iff.mpr ⟨(none, _), rfl,
      Option.bind_eq_some_iff.mpr ⟨_, exponent, value⟩⟩

end Reader

/-- What the decimal digits of an integer are read as, a number if it has at most 64 bits. -/
def ofWhole (n : Int) : Json := Reader.ofDigits (decide (n < 0)) n.natAbs

theorem ofWhole_of_bits {n : Int} (low : -(Text.maxInt64 + 1 : Int) ≤ n)
    (high : n ≤ Text.maxWord64) : ofWhole n = .ofInt n := by
  unfold ofWhole Reader.ofDigits
  by_cases negative : n < 0
  · have magnitude : (n.natAbs : Int) = -n := Int.ofNat_natAbs_of_nonpos (by omega)
    rw [if_pos (decide_eq_true negative), if_pos (by omega), magnitude, Int.neg_neg]
    rfl
  · have magnitude : (n.natAbs : Int) = n := Int.natAbs_of_nonneg (by omega)
    rw [if_neg (by simpa using negative), if_pos (by omega), magnitude]
    rfl

theorem ofWhole_number_or_unreadable (n : Int) :
    (∃ k, ofWhole n = .number k) ∨ ofWhole n = .unreadable := by
  unfold ofWhole Reader.ofDigits
  repeat' split
  · exact .inl ⟨_, rfl⟩
  · exact .inl ⟨_, rfl⟩
  · exact .inr rfl
  · exact .inl ⟨_, rfl⟩
  · exact .inl ⟨_, rfl⟩
  · exact .inr rfl

namespace Reader

variable {rest : List Char} {depth fuel : Nat}

/-- A character that a number may begin with. -/
def StartsNumber (c : Char) : Prop := c = '-' ∨ Text.isDigit c = true

theorem StartsNumber.solid {c : Char} (h : StartsNumber c) : isSpace c = false ∧ c ≠ ']' := by
  constructor
  · rw [isSpace, Bool.eq_false_iff]
    simp only [ne_eq, Bool.or_eq_true, beq_iff_eq]
    rintro (((rfl | rfl) | rfl) | rfl) <;> exact absurd h (by unfold StartsNumber; decide)
  · rintro rfl
    exact absurd h (by unfold StartsNumber; decide)

theorem toDigits_starts (n : Nat) :
    ∃ c cs, Nat.toDigits 10 n = c :: cs ∧ Text.isDigit c = true := by
  obtain ⟨c, cs, digits⟩ := List.exists_cons_of_ne_nil (Nat.toDigits_ne_nil (n := n) (b := 10))
  have first : c ∈ Nat.toDigits 10 n := digits ▸ List.mem_cons_self
  exact ⟨c, cs, digits, Text.isDigit_toDigits first⟩

theorem toString_starts (n : Int) : ∃ c cs, (toString n).toList = c :: cs ∧ StartsNumber c := by
  rw [Text.toList_toString_int]
  split
  · exact ⟨_, _, rfl, .inl rfl⟩
  · obtain ⟨c, cs, digits, first⟩ := toDigits_starts n.natAbs
    exact ⟨c, cs, digits, .inr first⟩

theorem number_toString (n : Int) (ends : EndsValue rest) :
    number ((toString n).toList ++ rest) = some (ofWhole n, rest) := by
  rw [Text.toList_toString_int, ofWhole]
  by_cases negative : n < 0
  · rw [if_pos negative, decide_eq_true negative]
    exact magnitude_toDigits true n.natAbs ends
  · rw [if_neg negative, decide_eq_false negative, List.nil_append,
      ← magnitude_toDigits false n.natAbs ends]
    obtain ⟨c, cs, digits, first⟩ := toDigits_starts n.natAbs
    rw [digits]
    unfold number
    split
    · next same =>
      cases same
      cases first
    · rfl

/-! ## Values -/

theorem value_number {c : Char} {cs : List Char} (starts : StartsNumber c) :
    value (fuel + 1) depth (c :: cs) = number (c :: cs) := by
  unfold value
  split
  any_goals rename_i same; cases same; exact absurd starts (by unfold StartsNumber; decide)
  rfl

theorem value_quote (cs : List Char) :
    value (fuel + 1) depth (quoteChars cs ++ rest) = some (.string (String.ofList cs), rest) := by
  have body := stringBody_escaped cs rest
  rw [quoteChars, List.append_assoc, List.cons_append, List.cons_append, List.nil_append, value,
    body]
  rfl

/-- A value that is read from what is written of it, at a level and with what follows. -/
structure ReadsBack (depth : Nat) (j : Json) : Prop where
  starts : ∃ c cs, j.render.toList = c :: cs ∧ isSpace c = false ∧ c ≠ ']'
  reads (fuel : Nat) (rest : List Char) : 2 * j.render.toList.length ≤ fuel → EndsValue rest →
    value fuel depth (j.render.toList ++ rest) = some (j, rest)

theorem ReadsBack.of_succ {j : Json}
    (starts : ∃ c cs, j.render.toList = c :: cs ∧ isSpace c = false ∧ c ≠ ']')
    (reads : ∀ fuel rest, 2 * j.render.toList.length ≤ fuel + 1 → EndsValue rest →
      value (fuel + 1) depth (j.render.toList ++ rest) = some (j, rest)) : ReadsBack depth j := by
  refine ⟨starts, fun fuel rest enough ends => ?_⟩
  obtain ⟨c, cs, text, -⟩ := starts
  have long : j.render.toList.length = cs.length + 1 := congrArg List.length text
  obtain ⟨fuel, rfl⟩ : ∃ less, fuel = less + 1 := ⟨fuel - 1, by omega⟩
  exact reads fuel rest enough ends

/-- The items of an array as they are written. -/
def itemsText (items : List Json) : List Char := [','].intercalate (items.map (·.render.toList))

def memberText (m : String × Json) : List Char := quoteChars m.1.toList ++ ':' :: m.2.render.toList

/-- The members of an object as they are written. -/
def membersText (members : List (String × Json)) : List Char :=
  [','].intercalate (members.map memberText)

theorem toList_render_array (items : List Json) :
    (render (.array items)).toList = '[' :: itemsText items ++ [']'] := by
  have texts : renderItems items = items.map render := by
    induction items with
    | nil => rfl
    | cons j items ih => rw [renderItems, ih, List.map_cons]
  rw [render, String.toList_append, String.toList_append, String.toList_intercalate, texts,
    List.map_map]
  rfl

theorem toList_render_object (members : List (String × Json)) :
    (render (.object members)).toList = '\x7b' :: membersText members ++ ['\x7d'] := by
  have texts : (renderMembers members).map String.toList = members.map memberText := by
    induction members with
    | nil => rfl
    | cons m members ih =>
      rw [renderMembers, List.map_cons, List.map_cons, ih, String.toList_append,
        String.toList_append, quote, String.toList_ofList, List.append_assoc]
      rfl
  rw [render, String.toList_append, String.toList_append, String.toList_intercalate, texts]
  rfl

theorem skipSpace_of_solid {c : Char} {cs : List Char} (solid : isSpace c = false) :
    skipSpace (c :: cs) = c :: cs := by
  rw [skipSpace, List.dropWhile_cons_of_neg (by simpa using solid)]

theorem ReadsBack.skipSpace {j : Json} (h : ReadsBack depth j) (rest : List Char) :
    skipSpace (j.render.toList ++ rest) = j.render.toList ++ rest := by
  obtain ⟨c, cs, text, solid, -⟩ := h.starts
  rw [text, List.cons_append, skipSpace_of_solid solid]

theorem itemsText_singleton (j : Json) : itemsText [j] = j.render.toList :=
  List.intercalate_singleton

theorem itemsText_cons_cons (j k : Json) (js : List Json) :
    itemsText (j :: k :: js) = j.render.toList ++ ',' :: itemsText (k :: js) := by
  rw [itemsText, List.map_cons, List.map_cons, List.intercalate_cons_cons, List.append_assoc]
  rfl

theorem itemsText_starts {j : Json} (first : ReadsBack depth j) (js : List Json) :
    ∃ c cs, itemsText (j :: js) = c :: cs ∧ isSpace c = false ∧ c ≠ ']' := by
  obtain ⟨c, cs, text, starts⟩ := first.starts
  cases js with
  | nil => exact ⟨c, cs, (itemsText_singleton j).trans text, starts⟩
  | cons k js =>
    rw [itemsText_cons_cons, text]
    exact ⟨c, _, rfl, starts⟩

theorem items_text {js : List Json} (each : ∀ j ∈ js, ReadsBack depth j) (some : js ≠ [])
    (enough : 2 * (itemsText js).length + 1 ≤ fuel) :
    items fuel depth (itemsText js ++ ']' :: rest) = .some (js, rest) := by
  induction js generalizing fuel with
  | nil => exact absurd rfl some
  | cons j js ih =>
    obtain ⟨fuel, rfl⟩ : ∃ less, fuel = less + 1 := ⟨fuel - 1, by omega⟩
    have first := each j List.mem_cons_self
    cases js with
    | nil =>
      rw [itemsText_singleton] at enough ⊢
      have value := first.reads fuel (']' :: rest) (by omega) (.cons (.inr (.inl rfl)))
      exact Option.bind_eq_some_iff.mpr ⟨_, value, rfl⟩
    | cons k js =>
      have others := fun j hj => each j (List.mem_cons_of_mem _ hj)
      obtain ⟨c, cs, text, solid, -⟩ := itemsText_starts (others k List.mem_cons_self) js
      rw [itemsText_cons_cons, List.length_append, List.length_cons] at enough
      have value := first.reads fuel (',' :: (itemsText (k :: js) ++ ']' :: rest)) (by omega)
        (.cons (.inl rfl))
      have behind : items fuel depth (itemsText (k :: js) ++ ']' :: rest) = .some (k :: js, rest) :=
        ih others (List.cons_ne_nil k js) (by omega)
      rw [itemsText_cons_cons, List.append_assoc, List.cons_append]
      refine Option.bind_eq_some_iff.mpr ⟨_, value, ?_⟩
      rw [text, List.cons_append, ← skipSpace_of_solid solid] at behind
      rw [text]
      exact Option.bind_eq_some_iff.mpr ⟨_, behind, rfl⟩

theorem array_text {js : List Json} (each : ∀ j ∈ js, ReadsBack (depth + 1) j)
    (enough : 2 * (itemsText js).length + 1 ≤ fuel) :
    value (fuel + 1) depth ('[' :: (itemsText js ++ ']' :: rest)) =
      some (atDepth depth (.array js), rest) := by
  cases js with
  | nil => rfl
  | cons j js =>
    obtain ⟨c, cs, text, solid, notClosed⟩ := itemsText_starts (each j List.mem_cons_self) js
    have items : items fuel (depth + 1) (itemsText (j :: js) ++ ']' :: rest) =
        some (j :: js, rest) := items_text each (List.cons_ne_nil j js) enough
    rw [text, List.cons_append] at items ⊢
    rw [value, skipSpace_of_solid solid]
    split
    · next closed =>
      cases closed
      exact absurd rfl notClosed
    · rw [items]
      rfl

theorem membersText_singleton (m : String × Json) : membersText [m] = memberText m :=
  List.intercalate_singleton

theorem membersText_cons_cons (m m' : String × Json) (ms : List (String × Json)) :
    membersText (m :: m' :: ms) = memberText m ++ ',' :: membersText (m' :: ms) := by
  rw [membersText, List.map_cons, List.map_cons, List.intercalate_cons_cons, List.append_assoc]
  rfl

theorem membersText_starts (m : String × Json) (ms : List (String × Json)) :
    ∃ cs, membersText (m :: ms) = '"' :: cs := by
  cases ms with
  | nil => exact ⟨_, membersText_singleton m⟩
  | cons m' ms => exact ⟨_, membersText_cons_cons m m' ms⟩

theorem memberText_append (m : String × Json) (rest : List Char) :
    memberText m ++ rest =
      '"' :: (m.1.toList.flatMap escapeChar ++ '"' :: ':' :: (m.2.render.toList ++ rest)) := by
  simp [memberText, quoteChars]

theorem length_lt_memberText (m : String × Json) :
    m.2.render.toList.length < (memberText m).length := by
  simp [memberText]
  omega

theorem members_text {ms : List (String × Json)} (each : ∀ m ∈ ms, ReadsBack depth m.2)
    (some : ms ≠ []) (enough : 2 * (membersText ms).length + 1 ≤ fuel) :
    members fuel depth (membersText ms ++ '\x7d' :: rest) = .some (.some ms, rest) := by
  induction ms generalizing fuel with
  | nil => exact absurd rfl some
  | cons m ms ih =>
    obtain ⟨fuel, rfl⟩ : ∃ less, fuel = less + 1 := ⟨fuel - 1, by omega⟩
    have first := each m List.mem_cons_self
    have short := length_lt_memberText m
    have key (rest : List Char) : stringBody (m.1.toList.flatMap escapeChar ++ '"' :: rest) =
        .some (.some m.1, rest) := by
      rw [stringBody_escaped, String.ofList_toList]
    cases ms with
    | nil =>
      rw [membersText_singleton] at enough ⊢
      have value := first.reads fuel ('\x7d' :: rest) (by omega) (.cons (.inr (.inr rfl)))
      rw [← first.skipSpace] at value
      rw [memberText_append]
      refine Option.bind_eq_some_iff.mpr ⟨_, key _, ?_⟩
      exact Option.bind_eq_some_iff.mpr ⟨_, value, rfl⟩
    | cons m' ms =>
      have others := fun m hm => each m (List.mem_cons_of_mem _ hm)
      obtain ⟨cs, text⟩ := membersText_starts m' ms
      rw [membersText_cons_cons, List.length_append, List.length_cons] at enough
      have behind : members fuel depth (membersText (m' :: ms) ++ '\x7d' :: rest) =
          .some (.some (m' :: ms), rest) := ih others (List.cons_ne_nil m' ms) (by omega)
      have value := first.reads fuel (',' :: (membersText (m' :: ms) ++ '\x7d' :: rest)) (by omega)
        (.cons (.inl rfl))
      rw [← first.skipSpace] at value
      rw [membersText_cons_cons, List.append_assoc, List.cons_append, memberText_append]
      refine Option.bind_eq_some_iff.mpr ⟨_, key _, ?_⟩
      refine Option.bind_eq_some_iff.mpr ⟨_, value, ?_⟩
      rw [text] at behind ⊢
      exact Option.bind_eq_some_iff.mpr ⟨_, behind, rfl⟩

theorem object_text {ms : List (String × Json)} (each : ∀ m ∈ ms, ReadsBack (depth + 1) m.2)
    (enough : 2 * (membersText ms).length + 1 ≤ fuel) :
    value (fuel + 1) depth ('\x7b' :: (membersText ms ++ '\x7d' :: rest)) =
      some (atDepth depth (.object ms), rest) := by
  cases ms with
  | nil => rfl
  | cons m ms =>
    obtain ⟨cs, text⟩ := membersText_starts m ms
    have members : members fuel (depth + 1) (membersText (m :: ms) ++ '\x7d' :: rest) =
        some (some (m :: ms), rest) := members_text each (List.cons_ne_nil m ms) enough
    rw [text, List.cons_append] at members ⊢
    rw [value, skipSpace_of_solid (by decide)]
    split
    · next closed => cases closed
    · rw [members]
      rfl

end Reader

/-- Arrays and objects stand at no more than so many levels below each other; there is no
fraction in the value, no part that is unreadable, and no integer of more than 64 bits. -/
inductive Legible : Nat → Json → Prop where
  | null {levels : Nat} : Legible levels .null
  | bool {levels : Nat} (b : Bool) : Legible levels (.bool b)
  | whole {levels : Nat} {n : Int} (low : -(Text.maxInt64 + 1 : Int) ≤ n)
      (high : n ≤ Text.maxWord64) : Legible levels (.ofInt n)
  | string {levels : Nat} (s : String) : Legible levels (.string s)
  | array {levels : Nat} {items : List Json} (each : ∀ j ∈ items, Legible levels j) :
      Legible (levels + 1) (.array items)
  | object {levels : Nat} {members : List (String × Json)}
      (each : ∀ m ∈ members, Legible levels m.2) : Legible (levels + 1) (.object members)

variable {levels : Nat} {j : Json}

namespace Legible

open Reader

theorem isReadable (h : Legible levels j) : j.IsReadable := by
  induction h with
  | null | bool | whole | string => rfl
  | array _ ih => exact .array ih
  | object _ ih => exact .object ih

theorem mono {more : Nat} (h : Legible levels j) (fewer : levels ≤ more) : Legible more j := by
  induction h generalizing more with
  | null => exact .null
  | bool b => exact .bool b
  | whole low high => exact .whole low high
  | string s => exact .string s
  | array _ ih =>
    obtain ⟨more, rfl⟩ : ∃ below, more = below + 1 := ⟨more - 1, by omega⟩
    exact .array fun j hj => ih j hj (by omega)
  | object _ ih =>
    obtain ⟨more, rfl⟩ : ∃ below, more = below + 1 := ⟨more - 1, by omega⟩
    exact .object fun m hm => ih m hm (by omega)

/-- A legible value is read back at every level that leaves room for its own. -/
theorem readsBack {depth : Nat} (h : Legible levels j) (room : depth + levels ≤ maxDepth + 1) :
    ReadsBack depth j := by
  induction h generalizing depth with
  | null => exact .of_succ ⟨'n', _, rfl, by decide, by decide⟩ fun _ _ _ _ => rfl
  | bool b =>
    cases b with
    | false => exact .of_succ ⟨'f', _, rfl, by decide, by decide⟩ fun _ _ _ _ => rfl
    | true => exact .of_succ ⟨'t', _, rfl, by decide, by decide⟩ fun _ _ _ _ => rfl
  | @whole _ n low high =>
    obtain ⟨c, cs, text, starts⟩ := toString_starts n
    refine .of_succ ⟨c, cs, text, starts.solid⟩ fun fuel rest _ ends => ?_
    have number := number_toString n ends
    rw [ofWhole_of_bits low high, text] at number
    have chars : (ofInt n).render.toList = c :: cs := text
    rw [chars, List.cons_append, value_number starts]
    exact number
  | string s =>
    have chars : (render (.string s)).toList = quoteChars s.toList := String.toList_ofList
    refine .of_succ ⟨'"', _, chars, by decide, by decide⟩ fun fuel rest _ _ => ?_
    rw [chars, value_quote, String.ofList_toList]
  | @array levels js each ih =>
    have chars := toList_render_array js
    refine .of_succ ⟨'[', _, chars, by decide, by decide⟩ fun fuel rest enough _ => ?_
    have shallow : atDepth depth (.array js) = .array js := if_pos (by omega)
    rw [chars, List.length_append, List.length_cons, List.length_singleton] at enough
    rw [chars, List.append_assoc, ← shallow]
    exact array_text (fun j hj => ih j hj (by omega)) (by omega)
  | @object levels ms each ih =>
    have chars := toList_render_object ms
    refine .of_succ ⟨'\x7b', _, chars, by decide, by decide⟩ fun fuel rest enough _ => ?_
    have shallow : atDepth depth (.object ms) = .object ms := if_pos (by omega)
    rw [chars, List.length_append, List.length_cons, List.length_singleton] at enough
    rw [chars, List.append_assoc, ← shallow]
    exact object_text (fun m hm => ih m hm (by omega)) (by omega)

end Legible

theorem ofText?_of_value {s : String} {c : Char} {cs : List Char} (text : s.toList = c :: cs)
    (solid : Reader.isSpace c = false)
    (read : ∀ fuel, 2 * s.toList.length ≤ fuel + 1 →
      Reader.value (fuel + 1) 1 s.toList = some (j, [])) : ofText? s = some j := by
  have front : Reader.skipSpace s.toList = s.toList := by
    rw [text, Reader.skipSpace_of_solid solid]
  rw [ofText?, ofChars?, front, read _ (by omega)]
  rfl

/-- What is written of a legible value is read as that value. -/
theorem ofText?_render (h : Legible maxDepth j) : ofText? j.render = some j := by
  have back : Reader.ReadsBack 1 j := h.readsBack (by omega)
  obtain ⟨c, cs, text, solid, -⟩ := back.starts
  refine ofText?_of_value text solid fun fuel enough => ?_
  have read := back.reads (fuel + 1) [] enough .nil
  rwa [List.append_nil] at read

theorem parse?_render (h : Legible maxDepth j) : parse? j.render = some j.plain := by
  rw [parse?, ofText?_render h, Option.bind_some, h.isReadable.canonical]

/-- An integer of any size is read from its decimal digits. -/
theorem ofText?_toString (n : Int) : ofText? (toString n) = some (ofWhole n) := by
  obtain ⟨c, cs, text, starts⟩ := Reader.toString_starts n
  refine ofText?_of_value text starts.solid.1 fun fuel _ => ?_
  have read := Reader.number_toString n .nil
  rw [List.append_nil] at read
  rw [text] at read ⊢
  rwa [Reader.value_number starts]

/-! ## Arrays -/

namespace Reader

variable {negative : Bool} {cs rest : List Char} {items : List Json}

theorem ofDigits_ne_array {n : Nat} : ofDigits negative n ≠ .array items := by
  unfold ofDigits
  intro h
  repeat' split at h
  all_goals cases h

theorem ofDecimal_ne_array {digits : Nat} {exponent : Int} :
    ofDecimal negative digits exponent ≠ .array items := by
  unfold ofDecimal
  intro h
  split at h
  all_goals cases h

theorem magnitude_ne_array : magnitude negative cs ≠ some (.array items, rest) := by
  intro h
  obtain ⟨⟨whole, behind⟩, -, h⟩ := Option.bind_eq_some_iff.mp h
  obtain ⟨-, -, h⟩ := Option.bind_eq_some_iff.mp h
  split at h
  all_goals
    obtain ⟨⟨decimals, behind⟩, -, h⟩ := Option.bind_eq_some_iff.mp h
    obtain ⟨⟨exponent, behind⟩, -, h⟩ := Option.bind_eq_some_iff.mp h
    have value := congrArg Prod.fst (Option.some.inj h)
    cases decimals with
    | none =>
      cases exponent with
      | none => exact ofDigits_ne_array value
      | some => exact ofDecimal_ne_array value
    | some => exact ofDecimal_ne_array value

/-- An array begins with its bracket. -/
theorem head?_of_value_array {fuel depth : Nat}
    (h : value fuel depth cs = some (.array items, rest)) : cs.head? = some '[' := by
  cases fuel with
  | zero => cases h
  | succ fuel =>
    unfold value at h
    split at h
    · cases h
    · cases h
    · cases h
    · obtain ⟨⟨text, behind⟩, -, h⟩ := Option.map_eq_some_iff.mp h
      cases text <;> cases h
    · rfl
    · split at h
      · unfold atDepth at h
        split at h <;> cases h
      · obtain ⟨⟨found, behind⟩, -, h⟩ := Option.map_eq_some_iff.mp h
        cases found with
        | none => cases h
        | some ms =>
          unfold atDepth at h
          simp only [Option.elim_some] at h
          split at h <;> cases h
    · unfold number at h
      split at h
      · exact absurd h magnitude_ne_array
      · exact absurd h magnitude_ne_array

end Reader

theorem head?_of_ofText?_array {s : String} {items : List Json}
    (h : ofText? s = some (.array items)) : (Reader.skipSpace s.toList).head? = some '[' := by
  unfold ofText? ofChars? at h
  split at h
  · next read =>
    split at h
    · cases h
      exact Reader.head?_of_value_array read
    · cases h
  · cases h

theorem isBlank_of_isSpace {c : Char} (h : Reader.isSpace c = true) : Text.isBlank c = true := by
  simp only [Reader.isSpace, Bool.or_eq_true, beq_iff_eq] at h
  obtain ((rfl | rfl) | rfl) | rfl := h <;> decide

/-- A trimmed text that is read as an array begins with its bracket. -/
theorem head?_trim_of_array {s : String} {items : List Json}
    (h : ofText? (Text.trim s) = some (.array items)) : (Text.trim s).toList.head? = some '[' := by
  have bracket := head?_of_ofText?_array h
  rw [Text.trim, String.toList_ofList] at bracket ⊢
  cases trimmed : Text.trimChars s.toList with
  | nil => rw [trimmed] at bracket; exact bracket
  | cons c cs =>
    have notBlank : Text.isBlank c = false :=
      Text.isBlank_head_trimChars (congrArg List.head? trimmed)
    have solid : Reader.isSpace c = false := by
      rw [Bool.eq_false_iff]
      intro space
      rw [isBlank_of_isSpace space] at notBlank
      cases notBlank
    rwa [trimmed, Reader.skipSpace_of_solid solid] at bracket

end ChainIndex.Json
