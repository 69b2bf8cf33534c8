import Mathlib.Algebra.BigOperators.Group.List.Basic
import WgMesh.RowTables

namespace WgMesh.KeyedTotals

/-!
# Totals of rows with one key

A table that accumulates amounts is read through the total of each key.  An
accumulating upsert adds its amount to the total of its own key and to no other,
so the totals of a loop of upserts are the totals of what was written.
-/

open RowTables

variable {Row Key Amount : Type}
variable [DecidableEq Key] [AddCommMonoid Amount]

/-- The total amount of the rows with a key. -/
def totalAt
    (key : Row → Key)
    (amount : Row → Amount)
    (wanted : Key)
    (rows : List Row) : Amount :=
  ((rows.filter (fun row => decide (key row = wanted))).map amount).sum

/-- The amount of one row, if it has the key. -/
def amountAt
    (key : Row → Key)
    (amount : Row → Amount)
    (wanted : Key)
    (row : Row) : Amount :=
  if key row = wanted then amount row else 0

section Totals

variable {key : Row → Key} {amount : Row → Amount} {wanted : Key}

/-- A row with the key has its amount. -/
theorem amountAt_of_eq
    {row : Row}
    (same : key row = wanted) :
    amountAt key amount wanted row = amount row :=
  if_pos same

/-- A row with another key has no amount. -/
theorem amountAt_of_ne
    {row : Row}
    (different : key row ≠ wanted) :
    amountAt key amount wanted row = 0 :=
  if_neg different

/-- No rows, no amount. -/
theorem totalAt_nil : totalAt key amount wanted [] = 0 :=
  rfl

/-- The first row counts if it has the key. -/
theorem totalAt_cons
    (row : Row)
    (rows : List Row) :
    totalAt key amount wanted (row :: rows) =
      amountAt key amount wanted row + totalAt key amount wanted rows := by
  unfold totalAt amountAt
  by_cases same : key row = wanted
  · simp only [List.filter_cons, same, decide_true, if_true, List.map_cons,
      List.sum_cons]
  · simp only [List.filter_cons, same, decide_false, Bool.false_eq_true,
      if_false, zero_add]

/-- The rows of two lists. -/
theorem totalAt_append
    (first second : List Row) :
    totalAt key amount wanted (first ++ second) =
      totalAt key amount wanted first + totalAt key amount wanted second := by
  unfold totalAt
  rw [List.filter_append, List.map_append, List.sum_append]

/-- The order of the rows does not matter. -/
theorem totalAt_perm
    {first second : List Row}
    (same : first.Perm second) :
    totalAt key amount wanted first = totalAt key amount wanted second :=
  ((same.filter _).map amount).sum_eq

/-- The total of a key adds up what each row has for it. -/
theorem totalAt_eq_sum
    (rows : List Row) :
    totalAt key amount wanted rows =
      (rows.map (amountAt key amount wanted)).sum := by
  induction rows with
  | nil => rfl
  | cons row rest inductionHypothesis =>
      rw [totalAt_cons, inductionHypothesis, List.map_cons, List.sum_cons]

end Totals

section Measures

variable {key : Row → Key} {measure : Row → Amount} {added : Amount}

variable {merge : Row → Row} {rows : List Row}

/-- Updating the one row of a key adds to any sum over the rows what it adds
to that row. -/
theorem sum_updateWhere
    {wanted : Key}
    (distinct : (rows.map key).Nodup)
    (present : ∃ row ∈ rows, key row = wanted)
    (adds :
      ∀ row ∈ rows, key row = wanted →
        measure (merge row) = measure row + added) :
    ((updateWhere (fun row => decide (key row = wanted)) merge rows).map
        measure).sum =
      (rows.map measure).sum + added := by
  induction rows with
  | nil =>
      obtain ⟨row, member, -⟩ := present
      exact (List.not_mem_nil member).elim
  | cons row rest inductionHypothesis =>
      rw [List.map_cons, List.nodup_cons] at distinct
      change
        (((if decide (key row = wanted) = true then merge row else row) ::
            updateWhere (fun row => decide (key row = wanted)) merge
              rest).map measure).sum = _
      rw [List.map_cons, List.map_cons, List.sum_cons, List.sum_cons]
      by_cases isKey : key row = wanted
      · -- The key occurs once, so the rest is left alone.
        have others :
            updateWhere (fun row => decide (key row = wanted)) merge rest =
              rest := by
          refine updateWhere_of_countP_eq_zero (List.countP_eq_zero.mpr ?_)
          intro other member same
          refine distinct.1 (List.mem_map.mpr ⟨other, member, ?_⟩)
          rw [of_decide_eq_true same, isKey]
        rw [others, if_pos (decide_eq_true isKey),
          adds row List.mem_cons_self isKey, add_right_comm]
      · obtain ⟨found, member, isFound⟩ := present
        have inRest : found ∈ rest := by
          rcases List.mem_cons.mp member with isRow | inRest
          · exact (isKey (isRow ▸ isFound)).elim
          · exact inRest
        rw [if_neg (by simpa using isKey),
          inductionHypothesis distinct.2 ⟨found, inRest, isFound⟩
            (fun other later => adds other (List.mem_cons_of_mem _ later)),
          add_assoc]

/-- An accumulating upsert adds the same to any sum over the rows, whether it
finds its row or not. -/
theorem sum_upsert
    {fresh : Row}
    (distinct : (rows.map key).Nodup)
    (starts : measure fresh = added)
    (adds :
      ∀ row ∈ rows, key row = key fresh →
        measure (merge row) = measure row + added) :
    ((upsert key merge fresh rows).map measure).sum =
      (rows.map measure).sum + added := by
  unfold upsert
  split
  · rename_i present
    obtain ⟨row, member, isKey⟩ := List.any_eq_true.mp present
    exact sum_updateWhere distinct ⟨row, member, of_decide_eq_true isKey⟩ adds
  · rw [List.map_append, List.sum_append, List.map_singleton,
      List.sum_singleton, starts]

/-- Where keys are distinct, the total of a key is the amount of its row. -/
theorem totalAt_of_mem
    {amount : Row → Amount}
    (distinct : (rows.map key).Nodup)
    {row : Row}
    (member : row ∈ rows) :
    totalAt key amount (key row) rows = amount row := by
  induction rows with
  | nil => exact (List.not_mem_nil member).elim
  | cons first rest inductionHypothesis =>
      rw [List.map_cons, List.nodup_cons] at distinct
      rw [totalAt_cons]
      rcases List.mem_cons.mp member with rfl | later
      · have others : totalAt key amount (key row) rest = 0 := by
          rw [totalAt_eq_sum]
          refine List.sum_eq_zero ?_
          intro part isPart
          obtain ⟨other, otherMember, rfl⟩ := List.mem_map.mp isPart
          exact amountAt_of_ne fun same =>
            distinct.1 (List.mem_map.mpr ⟨other, otherMember, same⟩)
        rw [others, amountAt_of_eq rfl, add_zero]
      · rw [inductionHypothesis distinct.2 later, amountAt_of_ne, zero_add]
        exact fun same =>
          distinct.1 (List.mem_map.mpr ⟨row, later, same.symm⟩)

/-- An accumulating upsert adds its amount to the total of its key, if it adds
it to a row with that total. -/
theorem totalAt_upsert
    {amount : Row → Amount}
    {wanted : Key}
    {fresh : Row}
    (distinct : (rows.map key).Nodup)
    (sameKey : ∀ row, key (merge row) = key row)
    (adds :
      ∀ row, key fresh = wanted →
        amount row = totalAt key amount wanted rows →
          amount (merge row) = amount row + amount fresh) :
    totalAt key amount wanted (upsert key merge fresh rows) =
      totalAt key amount wanted rows + amountAt key amount wanted fresh := by
  rw [totalAt_eq_sum, totalAt_eq_sum]
  refine sum_upsert distinct rfl ?_
  intro row member isKey
  unfold amountAt
  rw [sameKey, isKey]
  split
  · rename_i same
    refine adds row same ?_
    rw [← same, ← isKey]
    exact (totalAt_of_mem distinct member).symm
  · rw [add_zero]

end Measures

end WgMesh.KeyedTotals
