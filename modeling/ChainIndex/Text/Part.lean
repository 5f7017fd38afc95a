/-
Texts inside texts. `splitAtFirst?` cuts a text around the first occurrence of
a part, if it occurs.
-/

namespace ChainIndex.Text

/-- The characters before and behind the first occurrence of a part. -/
def splitAtFirst? (part : List Char) : List Char → Option (List Char × List Char)
  | [] => if part.isEmpty then some ([], []) else none
  | c :: rest =>
    if part.isPrefixOf (c :: rest) then some ([], (c :: rest).drop part.length)
    else (splitAtFirst? part rest).map fun (before, behind) => (c :: before, behind)

def hasPart (part : String) (s : String) : Bool :=
  (splitAtFirst? part.toList s.toList).isSome

/-- No cut is made exactly if the part does not occur. -/
theorem splitAtFirst?_eq_none_iff {part cs : List Char} :
    splitAtFirst? part cs = none ↔ ¬ part <:+: cs := by
  induction cs with
  | nil => simp [splitAtFirst?]
  | cons c rest ih =>
    rw [splitAtFirst?, List.infix_cons_iff, ← List.isPrefixOf_iff_prefix]
    by_cases here : part.isPrefixOf (c :: rest) = true
    · simp [here]
    · simp [here, ih]

end ChainIndex.Text
