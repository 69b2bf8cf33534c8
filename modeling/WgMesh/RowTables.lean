import Mathlib.Data.List.Basic
import Mathlib.Data.List.Nodup

namespace WgMesh.RowTables

/-!
# Tables as lists of rows

A table is the list of its rows in the order of their integer row ids.  A new
row gets the id after the largest one in use, so the id of a removed last row
is used again.  The functions take the id column as a parameter.
-/

variable {Row Key : Type} {idOf : Row → Int}

/-- The row id SQLite assigns next: one more than the largest in use. -/
def nextID (idOf : Row → Int) (rows : List Row) : Int :=
  rows.foldr (fun row top => if top < idOf row then idOf row else top) 0 + 1

/-- Rows stand in the order of their ids, which are therefore distinct. -/
def Ascending (idOf : Row → Int) (rows : List Row) : Prop :=
  rows.Pairwise (fun first second => idOf first < idOf second)

instance (idOf : Row → Int) (rows : List Row) :
    Decidable (Ascending idOf rows) :=
  inferInstanceAs (Decidable (rows.Pairwise _))

/-- Apply an update to the rows that satisfy a condition. -/
def updateWhere
    (condition : Row → Bool)
    (update : Row → Row)
    (rows : List Row) : List Row :=
  rows.map (fun row => if condition row then update row else row)

/-- The row whose column has a value. -/
def rowWith? [DecidableEq Key]
    (column : Row → Key)
    (value : Key)
    (rows : List Row) : Option Row :=
  rows.find? (fun row => decide (column row = value))

variable {rows : List Row} {row fresh : Row} {update merge : Row → Row}
  {column key : Row → Key} {value : Key} {condition : Row → Bool} {Item : Type}
  {put : Item → Row → Row} {items : List Item}

/-- The next id is larger than every id in use. -/
theorem lt_nextID
    (member : row ∈ rows) :
    idOf row < nextID idOf rows := by
  induction rows with
  | nil =>
      simp at member
  | cons head rest inductionHypothesis =>
      simp only [nextID, List.foldr_cons] at inductionHypothesis ⊢
      rcases List.mem_cons.mp member with isHead | inRest
      · subst head
        split <;> omega
      · have below := inductionHypothesis inRest
        split <;> omega

/-- A row with the next id can be added at the end. -/
theorem Ascending.append_new
    (ascending : Ascending idOf rows)
    (new : idOf row = nextID idOf rows) :
    Ascending idOf (rows ++ [row]) := by
  refine List.pairwise_append.mpr ⟨ascending, by simp, ?_⟩
  intro first firstMember second secondMember
  rw [List.mem_singleton.mp secondMember, new]
  exact lt_nextID firstMember

/-- Updates that keep the ids keep the order. -/
theorem Ascending.map
    (ascending : Ascending idOf rows)
    (sameID : ∀ row, idOf (update row) = idOf row) :
    Ascending idOf (rows.map update) := by
  refine List.pairwise_map.mpr (ascending.imp ?_)
  intro first second ordered
  rw [sameID, sameID]
  exact ordered

/-- Removing rows keeps the order. -/
theorem Ascending.filter
    (ascending : Ascending idOf rows)
    (condition : Row → Bool) :
    Ascending idOf (rows.filter condition) :=
  List.Pairwise.filter condition ascending

/-- Ids are distinct. -/
theorem Ascending.nodup
    (ascending : Ascending idOf rows) :
    (rows.map idOf).Nodup := by
  refine List.pairwise_map.mpr (ascending.imp ?_)
  intro first second less
  exact Int.ne_of_lt less

/-- A row is determined by its id. -/
theorem Ascending.eq_of_id
    {first second : Row}
    (ascending : Ascending idOf rows)
    (firstMember : first ∈ rows)
    (secondMember : second ∈ rows)
    (sameID : idOf first = idOf second) :
    first = second :=
  List.inj_on_of_nodup_map ascending.nodup firstMember secondMember sameID

/-- A found row is in the table and has the value looked for. -/
theorem mem_of_rowWith?
    [DecidableEq Key]
    (found : rowWith? column value rows = some row) :
    row ∈ rows ∧ column row = value :=
  ⟨List.mem_of_find?_eq_some found,
    by simpa using List.find?_some found⟩

/-- Nothing is found exactly when no row has the value. -/
theorem rowWith?_eq_none
    [DecidableEq Key] :
    rowWith? column value rows = none ↔
      ∀ row ∈ rows, column row ≠ value := by
  simp [rowWith?, List.find?_eq_none]

/-- In a column without duplicates, a row is found by its own value. -/
theorem rowWith?_eq_some
    [DecidableEq Key]
    (distinct : (rows.map column).Nodup)
    (member : row ∈ rows) :
    rowWith? column (column row) rows = some row := by
  cases found : rowWith? column (column row) rows with
  | none =>
      exact (rowWith?_eq_none.mp found row member rfl).elim
  | some other =>
      obtain ⟨otherMember, same⟩ := mem_of_rowWith? found
      rw [List.inj_on_of_nodup_map distinct otherMember member same]

/-- A row after an update is an old row, changed or not. -/
theorem mem_updateWhere :
    row ∈ updateWhere condition update rows ↔
      ∃ old, old ∈ rows ∧
        row = if condition old then update old else old := by
  constructor
  · intro member
    obtain ⟨old, oldMember, shape⟩ := List.mem_map.mp member
    exact ⟨old, oldMember, shape.symm⟩
  · rintro ⟨old, oldMember, shape⟩
    exact List.mem_map.mpr ⟨old, oldMember, shape.symm⟩

/-- An update that does not touch a column leaves the column as it is. -/
theorem map_updateWhere
    (rows : List Row)
    (untouched : ∀ row, column (update row) = column row) :
    (updateWhere condition update rows).map column = rows.map column := by
  simp only [updateWhere, List.map_map]
  apply List.map_congr_left
  intro row _
  simp only [Function.comp_apply]
  split
  · exact untouched row
  · rfl

/-- A value of an untouched column stays in it. -/
theorem mem_map_updateWhere
    (untouched : ∀ row, column (update row) = column row)
    (member : value ∈ rows.map column) :
    value ∈ (updateWhere condition update rows).map column := by
  rw [map_updateWhere rows untouched]
  exact member

/-- Looking a row up after an update of other columns. -/
theorem rowWith?_updateWhere
    [DecidableEq Key]
    (rows : List Row)
    (value : Key)
    (untouched : ∀ row, column (update row) = column row) :
    rowWith? column value (updateWhere condition update rows) =
      (rowWith? column value rows).map
        (fun row => if condition row then update row else row) := by
  unfold rowWith? updateWhere
  rw [List.find?_map]
  congr 2
  funext row
  simp only [Function.comp_apply]
  split
  · rw [untouched]
  · rfl

/-- Without duplicates, a key occurs once or not at all. -/
theorem filter_eraseDups
    [DecidableEq Key]
    (keys : List Key)
    (key : Key) :
    keys.eraseDups.filter (· == key) = if key ∈ keys then [key] else [] := by
  -- `eraseDups` recurses on a filtered tail, so the induction is on length.
  induction length : keys.length using Nat.strongRecOn
    generalizing keys with
  | _ size inductionHypothesis =>
      cases keys with
      | nil => simp
      | cons first rest =>
          have shorter :
              (rest.filter (fun other => !other == first)).length < size := by
            rw [← length]
            exact Nat.lt_succ_of_le (List.length_filter_le _ _)
          rw [List.eraseDups_cons, List.filter_cons,
            inductionHypothesis _ shorter _ rfl]
          by_cases same : first = key
          · simp [same]
          · simp [same, Ne.symm same]

/-- Conditions that agree on the rows give the same update. -/
theorem updateWhere_congr
    {first second : Row → Bool}
    (agree : ∀ row ∈ rows, first row = second row) :
    updateWhere first update rows = updateWhere second update rows := by
  apply List.map_congr_left
  intro row member
  rw [agree row member]

/-- An update that applies to no row changes nothing. -/
theorem updateWhere_of_countP_eq_zero
    (none : rows.countP condition = 0) :
    updateWhere condition update rows = rows := by
  rw [List.countP_eq_zero] at none
  unfold updateWhere
  conv_rhs => rw [← List.map_id rows]
  apply List.map_congr_left
  intro row member
  simp [none row member]

/-- A loop of updates that never concern the first row works on the others. -/
private theorem foldl_updateWhere_cons
    {key : Item → Int}
    {head : Row}
    (rest : List Row)
    (untouched : ∀ item ∈ items, key item ≠ idOf head) :
    items.foldl
        (fun rows item =>
          updateWhere (fun row => idOf row == key item) (put item) rows)
        (head :: rest) =
      head ::
        items.foldl
          (fun rows item =>
            updateWhere (fun row => idOf row == key item) (put item) rows)
          rest := by
  induction items generalizing rest with
  | nil =>
      rfl
  | cons item others inductionHypothesis =>
      have headKept : (idOf head == key item) = false :=
        beq_false_of_ne (untouched item List.mem_cons_self).symm
      simp only [List.foldl_cons, updateWhere, List.map_cons, headKept,
        Bool.false_eq_true, ↓reduceIte]
      exact inductionHypothesis _ fun other member =>
        untouched other (List.mem_cons_of_mem item member)

/--
A loop that updates one row for each item, where the items list the ids of
the table in order, updates every row once.
-/
theorem foldl_updateWhere_eq_zipWith
    {key : Item → Int}
    (ascending : Ascending idOf rows)
    (keys : items.map key = rows.map idOf)
    (sameID : ∀ item row, idOf (put item row) = idOf row) :
    items.foldl
        (fun rows item =>
          updateWhere (fun row => idOf row == key item) (put item) rows)
        rows =
      List.zipWith put items rows := by
  induction rows generalizing items with
  | nil =>
      simp only [List.map_nil, List.map_eq_nil_iff] at keys
      simp [keys]
  | cons row rest inductionHypothesis =>
      cases items with
      | nil =>
          simp at keys
      | cons item others =>
          obtain ⟨sameHead, sameRest⟩ := List.cons.inj keys
          obtain ⟨below, restAscending⟩ := List.pairwise_cons.mp ascending
          -- The first update concerns the first row only.
          have first :
              updateWhere (fun row => idOf row == key item) (put item)
                  (row :: rest) =
                put item row :: rest := by
            simp only [updateWhere, List.map_cons, sameHead, beq_self_eq_true,
              ↓reduceIte, List.cons.injEq, true_and]
            conv_rhs => rw [← List.map_id rest]
            apply List.map_congr_left
            intro other member
            have different : (idOf other == idOf row) = false :=
              beq_false_of_ne (Int.ne_of_gt (below other member))
            simp [different]
          rw [List.foldl_cons, first, foldl_updateWhere_cons,
            inductionHypothesis restAscending sameRest,
            List.zipWith_cons_cons]
          intro other member
          rw [sameID]
          have otherKey : key other ∈ rest.map idOf :=
            sameRest ▸ List.mem_map_of_mem member
          obtain ⟨holder, holderMember, holderShape⟩ :=
            List.mem_map.mp otherKey
          rw [← holderShape]
          exact Int.ne_of_gt (below holder holderMember)

/-- A row of a zipped list comes from one item and one row. -/
theorem mem_zipWith
    (member : row ∈ List.zipWith put items rows) :
    ∃ item old, item ∈ items ∧ old ∈ rows ∧ row = put item old := by
  induction items generalizing rows with
  | nil =>
      simp at member
  | cons item rest inductionHypothesis =>
      cases rows with
      | nil =>
          simp at member
      | cons head others =>
          rw [List.zipWith_cons_cons] at member
          rcases List.mem_cons.mp member with isFirst | isLater
          · exact ⟨item, head, List.mem_cons_self, List.mem_cons_self,
              isFirst⟩
          · obtain ⟨found, old, foundMember, oldMember, shape⟩ :=
              inductionHypothesis isLater
            exact ⟨found, old, List.mem_cons_of_mem _ foundMember,
              List.mem_cons_of_mem _ oldMember, shape⟩

/-- Updating every row from a list of items keeps an untouched column. -/
theorem map_zipWith
    (enough : items.length = rows.length)
    (untouched : ∀ item row, column (put item row) = column row) :
    (List.zipWith put items rows).map column = rows.map column := by
  induction rows generalizing items with
  | nil =>
      simp
  | cons row rest inductionHypothesis =>
      cases items with
      | nil =>
          simp at enough
      | cons item others =>
          simp only [List.zipWith_cons_cons, List.map_cons, untouched,
            inductionHypothesis (Nat.succ.inj enough)]

/-- `INSERT … ON CONFLICT … DO UPDATE` for one key. -/
def upsert
    [DecidableEq Key]
    (key : Row → Key)
    (merge : Row → Row)
    (fresh : Row)
    (rows : List Row) : List Row :=
  if rows.any (fun row => decide (key row = key fresh)) then
    updateWhere (fun row => decide (key row = key fresh)) merge rows
  else
    rows ++ [fresh]

/-- A row after an upsert is the new one, or an old one, merged or not. -/
theorem mem_upsert
    [DecidableEq Key]
    (member : row ∈ upsert key merge fresh rows) :
    row = fresh ∨ ∃ old ∈ rows, (row = merge old ∨ row = old) := by
  unfold upsert at member
  split at member
  · obtain ⟨old, oldMember, shape⟩ := mem_updateWhere.mp member
    refine Or.inr ⟨old, oldMember, ?_⟩
    split at shape
    · exact Or.inl shape
    · exact Or.inr shape
  · rcases List.mem_append.mp member with isOld | isNew
    · exact Or.inr ⟨row, isOld, Or.inr rfl⟩
    · exact Or.inl (List.mem_singleton.mp isNew)

/-- A property of all rows that merging keeps is kept by an upsert. -/
theorem forall_mem_upsert
    [DecidableEq Key]
    {holds : Row → Prop}
    (ofFresh : holds fresh)
    (ofRows : ∀ row ∈ rows, holds row)
    (ofMerge : ∀ row, holds row → holds (merge row)) :
    ∀ row ∈ upsert key merge fresh rows, holds row := by
  intro row member
  rcases mem_upsert member with rfl | ⟨old, oldMember, rfl | rfl⟩
  · exact ofFresh
  · exact ofMerge old (ofRows old oldMember)
  · exact ofRows row oldMember

/-- Looking a row up after an upsert that keeps keys. -/
theorem rowWith?_upsert
    [DecidableEq Key]
    (fresh : Row)
    (rows : List Row)
    (value : Key)
    (untouched : ∀ row, key (merge row) = key row) :
    rowWith? key value (upsert key merge fresh rows) =
      if value = key fresh then
        some ((rowWith? key value rows).elim fresh merge)
      else rowWith? key value rows := by
  unfold upsert
  cases found : rowWith? key value rows with
  | none =>
      have absent := rowWith?_eq_none.mp found
      split
      · rename_i known
        rw [rowWith?_updateWhere _ _ untouched, found]
        simp only [List.any_eq_true, decide_eq_true_eq] at known
        obtain ⟨row, member, same⟩ := known
        rw [if_neg (fun isFresh => absent row member (same.trans isFresh.symm))]
        rfl
      · unfold rowWith? at found ⊢
        rw [List.find?_append, found]
        by_cases isFresh : value = key fresh
        · simp [isFresh]
        · simp [isFresh, Ne.symm isFresh]
  | some row =>
      obtain ⟨member, isValue⟩ := mem_of_rowWith? found
      split
      · rw [rowWith?_updateWhere _ _ untouched, found]
        by_cases isFresh : value = key fresh
        · simp [isFresh, isValue]
        · simp [isFresh, isValue]
      · rename_i unknown
        have other : value ≠ key fresh := by
          rintro rfl
          exact unknown (List.any_eq_true.mpr ⟨row, member, by simpa⟩)
        unfold rowWith? at found ⊢
        rw [List.find?_append, found, if_neg other]
        rfl

/-- An upsert that keeps keys keeps them distinct. -/
theorem nodup_upsert
    [DecidableEq Key]
    (distinct : (rows.map key).Nodup)
    (sameKey : ∀ row, key (merge row) = key row) :
    ((upsert key merge fresh rows).map key).Nodup := by
  unfold upsert
  split
  · rw [map_updateWhere rows sameKey]
    exact distinct
  · rename_i absent
    rw [List.map_append, List.nodup_append]
    refine ⟨distinct, by simp, ?_⟩
    intro first firstMember second secondMember same
    obtain ⟨row, rowMember, rowKey⟩ := List.mem_map.mp firstMember
    have isFresh : second = key fresh := by simpa using secondMember
    apply absent
    rw [List.any_eq_true]
    exact ⟨row, rowMember, by simp [rowKey, same, isFresh]⟩

/-- In a nullable column without duplicates, a value belongs to one row. -/
theorem eq_of_nodup_filterMap
    {column : Row → Option Key}
    {first second : Row}
    (distinct : (rows.filterMap column).Nodup)
    (firstMember : first ∈ rows)
    (secondMember : second ∈ rows)
    (firstValue : column first = some value)
    (secondValue : column second = some value) :
    first = second := by
  induction rows with
  | nil =>
      cases firstMember
  | cons head rest inductionHypothesis =>
      -- A value in the head's column is in no other row.
      have headOnly :
          ∀ row ∈ rest, column head = some value →
            column row ≠ some value := by
        intro row member headValue rowValue
        rw [List.filterMap_cons, headValue] at distinct
        exact (List.nodup_cons.mp distinct).1
          (List.mem_filterMap.mpr ⟨row, member, rowValue⟩)
      have restDistinct : (rest.filterMap column).Nodup :=
        distinct.sublist
          ((List.sublist_cons_self head rest).filterMap column)
      rcases List.mem_cons.mp firstMember with firstIs | firstIn <;>
        rcases List.mem_cons.mp secondMember with secondIs | secondIn
      · rw [firstIs, secondIs]
      · exact (headOnly second secondIn (firstIs ▸ firstValue)
          secondValue).elim
      · exact (headOnly first firstIn (secondIs ▸ secondValue)
          firstValue).elim
      · exact inductionHypothesis restDistinct firstIn secondIn

/-- In a list of distinct values, one row has each value that occurs. -/
theorem countP_mem_eq_one_iff
    [DecidableEq Key]
    {values : Row → List Key}
    (distinct : (rows.flatMap values).Nodup) :
    rows.countP (fun row => decide (value ∈ values row)) = 1 ↔
      value ∈ rows.flatMap values := by
  induction rows with
  | nil =>
      simp
  | cons head rest inductionHypothesis =>
      rw [List.flatMap_cons] at distinct ⊢
      obtain ⟨-, restDistinct, apart⟩ := List.nodup_append.mp distinct
      by_cases inHead : value ∈ values head
      · have notLater : value ∉ rest.flatMap values :=
          fun later => apart value inHead value later rfl
        have noRow :
            rest.countP (fun row => decide (value ∈ values row)) = 0 := by
          refine List.countP_eq_zero.mpr fun row member holds => notLater ?_
          exact List.mem_flatMap.mpr ⟨row, member, of_decide_eq_true holds⟩
        simp [inHead, noRow]
      · rw [List.countP_cons_of_neg (by simpa using inHead),
          inductionHypothesis restDistinct, List.mem_append]
        simp [inHead]

end WgMesh.RowTables
