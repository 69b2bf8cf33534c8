import Mathlib.Data.List.Basic

namespace WgMesh.TerminatedLines

/-!
# Fields that end with a mark

A sequence is cut into the fields that a mark ends; what follows the last mark
belongs to no field yet.  Fields can be read piece by piece if the pieces are
cut behind a mark.
-/

variable {α : Type} {mark : α}

/-- A sequence that is empty or ends with a mark. -/
def Terminated (mark : α) (items : List α) : Prop :=
  items = [] ∨ ∃ front, items = front ++ [mark]

theorem Terminated.append
    {front back : List α}
    (first : Terminated mark front)
    (second : Terminated mark back) :
    Terminated mark (front ++ back) := by
  rcases second with rfl | ⟨start, rfl⟩
  · rwa [List.append_nil]
  · exact Or.inr ⟨front ++ start, by rw [List.append_assoc]⟩

variable [DecidableEq α]

/-- The index of the last mark. -/
def lastIndexOf (mark : α) : List α → Option Nat
  | [] => none
  | item :: rest =>
      match lastIndexOf mark rest with
      | some index => some (index + 1)
      | none => if item = mark then some 0 else none

/-- The parts between marks that are not empty. -/
def parts (mark : α) (items : List α) : List (List α) :=
  (items.splitOn mark).filter fun part => decide (part ≠ [])

/-- The fields of a sequence that end with a mark and are not empty. -/
def fields (mark : α) (items : List α) : List (List α) :=
  ((items.splitOn mark).dropLast).filter fun part => decide (part ≠ [])

/-- Without a mark there is no last one. -/
theorem not_mem_of_lastIndexOf
    {items : List α}
    (none : lastIndexOf mark items = none) :
    mark ∉ items := by
  induction items with
  | nil => exact List.not_mem_nil
  | cons item rest inductionHypothesis =>
      rw [lastIndexOf] at none
      split at none
      · cases none
      · rename_i restNone
        split at none
        · cases none
        · rename_i different
          rw [List.mem_cons, not_or]
          exact ⟨Ne.symm different, inductionHypothesis restNone⟩

/-- Behind the last mark there is no further one. -/
theorem split_of_lastIndexOf
    {items : List α}
    {index : Nat}
    (isLast : lastIndexOf mark items = some index) :
    ∃ back,
      items = items.take index ++ mark :: back ∧
        (items.take index).length = index ∧ mark ∉ back := by
  induction items generalizing index with
  | nil => cases isLast
  | cons item rest inductionHypothesis =>
      rw [lastIndexOf] at isLast
      split at isLast
      · rename_i restIndex restLast
        obtain ⟨back, shape, length, absent⟩ := inductionHypothesis restLast
        cases isLast
        refine ⟨back, ?_, ?_, absent⟩
        · rw [List.take_succ_cons, List.cons_append]
          exact congrArg (item :: ·) shape
        · rw [List.take_succ_cons, List.length_cons, length]
      · rename_i restNone
        split at isLast
        · rename_i isMark
          cases isLast
          exact ⟨rest, by rw [isMark]; rfl, rfl,
            not_mem_of_lastIndexOf restNone⟩
        · cases isLast

theorem fields_mark
    (front back : List α) :
    fields mark (front ++ mark :: back) =
      parts mark front ++ fields mark back := by
  unfold fields parts
  rw [List.splitOn_append_cons_self,
    List.dropLast_append_of_ne_nil (List.splitOn_ne_nil mark back),
    List.filter_append]

theorem fields_of_not_mem
    {items : List α}
    (absent : mark ∉ items) :
    fields mark items = [] := by
  rw [fields, List.splitOn_eq_singleton absent]
  rfl

theorem Terminated.fields_append
    {front : List α}
    (terminated : Terminated mark front)
    (back : List α) :
    fields mark (front ++ back) = fields mark front ++ fields mark back := by
  rcases terminated with rfl | ⟨start, rfl⟩
  · rw [List.nil_append, fields_of_not_mem List.not_mem_nil, List.nil_append]
  · rw [List.append_assoc, List.singleton_append, fields_mark, fields_mark,
      fields_of_not_mem List.not_mem_nil, List.append_nil]

end WgMesh.TerminatedLines
