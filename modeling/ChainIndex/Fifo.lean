/-
First-in first-out queues in two lists: the front in order, and what was pushed
since in reverse. `toList` is the queue's content in order; pushing adds at its
end and popping takes from its beginning.
-/

namespace ChainIndex

structure Fifo (α : Type) where
  front : List α
  back : List α

namespace Fifo

variable {α : Type}

def empty : Fifo α := ⟨[], []⟩

def toList (q : Fifo α) : List α := q.front ++ q.back.reverse

def size (q : Fifo α) : Nat := q.front.length + q.back.length

def push (q : Fifo α) (a : α) : Fifo α := { q with back := a :: q.back }

/-- The first element and the rest. -/
def pop? (q : Fifo α) : Option (α × Fifo α) :=
  match q.front with
  | a :: front => some (a, { q with front })
  | [] =>
    match q.back.reverse with
    | a :: front => some (a, ⟨front, []⟩)
    | [] => none

@[simp] theorem toList_empty : (empty : Fifo α).toList = [] := rfl

@[simp] theorem toList_push (q : Fifo α) (a : α) : (q.push a).toList = q.toList ++ [a] := by
  simp [toList, push]

@[simp] theorem length_toList (q : Fifo α) : q.toList.length = q.size := by
  simp [toList, size]

theorem toList_of_pop? {q rest : Fifo α} {a : α} (h : q.pop? = some (a, rest)) :
    q.toList = a :: rest.toList := by
  unfold pop? at h
  split at h
  · next front =>
    cases h
    simp [toList, front]
  · next front =>
    split at h
    · next back =>
      cases h
      simp [toList, front, back]
    · cases h

end Fifo

end ChainIndex
