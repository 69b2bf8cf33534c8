import WgMesh.CivilTime
import WgMesh.StoreSchema

namespace WgMesh.Store

/-!
# Setup keys

Creating, revoking and consuming provisioning keys, with the statements of
`store.go` and `admin.go`.  Times are stored and compared as texts.
-/

open CivilTime RowTables TextScan Transactions

/-- A random draw in its stored text form, or why the generator failed. -/
abbrev Draw := Except String String

/-- Use a random draw. -/
def drawn (context : String) (draw : Draw) : StoreM String :=
  match draw with
  | .ok text => pure text
  | .error reason => raise (refusal context reason)

/-- Add a setup key. -/
def Tables.addSetupKey (row : SetupKeyRow) (tables : Tables) : Tables :=
  { tables with setupKeys := tables.setupKeys ++ [row] }

/-- The row id the next setup key gets. -/
def Tables.nextSetupKeyID (tables : Tables) : Int :=
  nextID (·.id) tables.setupKeys

/-- The row `CreateNamedSetupKey` inserts. -/
def newSetupKey
    (id : Int)
    (key name : String)
    (maxUses : Int)
    (expiresIn : Int)
    (now : Instant) : SetupKeyRow where
  id := id
  key := key
  name := nullable name
  expiresAt :=
    if expiresIn = 0 then none else some (format (now + expiresIn))
  revokedAt := none
  maxUses := if 0 < maxUses then some maxUses else none
  usesConsumed := 0

/-- `CreateNamedSetupKey`. -/
def createNamedSetupKey
    (name : String)
    (maxUses : Int)
    (expiresIn : Int)
    (now : Instant)
    (draw : Draw) : StoreM String := do
  let key ← drawn "generate setup key" draw
  modify "insert setup key" fun tables =>
    ((), tables.addSetupKey
      (newSetupKey tables.nextSetupKeyID key name maxUses expiresIn now))
  pure key

/-- `CreateSetupKey`. -/
def createSetupKey
    (maxUses : Int)
    (expiresIn : Int)
    (now : Instant)
    (draw : Draw) : StoreM String :=
  createNamedSetupKey "" maxUses expiresIn now draw

/-- The rows an `UPDATE ... SET revoked_at` by id applies to. -/
def SetupKeyRow.isUnrevoked (id : Int) (row : SetupKeyRow) : Bool :=
  row.id == id && row.revokedAt.isNone

/-- The rows an `UPDATE ... SET revoked_at` by id applies to. -/
def PeerRecord.isUnrevoked (id : Int) (row : PeerRecord) : Bool :=
  row.id == id && row.revokedAt.isNone

/-- Mark one setup key revoked. -/
def Tables.revokeSetupKey (id : Int) (at' : String) (tables : Tables) :
    Tables :=
  { tables with
    setupKeys :=
      updateWhere (SetupKeyRow.isUnrevoked id)
        (fun row => { row with revokedAt := some at' })
        tables.setupKeys }

/-- Mark one peer revoked. -/
def Tables.revokePeer (id : Int) (at' : String) (tables : Tables) :
    Tables :=
  { tables with
    peers :=
      updateWhere (PeerRecord.isUnrevoked id)
        (fun row => { row with revokedAt := some at' })
        tables.peers }

/-- `revoke` for a table: no affected row means `ErrNotFound`. -/
def revoke
    (table : String)
    (id : Int)
    (update : Tables → Nat × Tables) : StoreM Unit := do
  let context := "revoke " ++ table ++ " " ++ decimal id
  let rows ← modify context update
  if rows = 0 then
    raise (notFound context)
  else
    pure ()

/-- `RevokeSetupKey`. -/
def revokeSetupKey (id : Int) (now : Instant) : StoreM Unit :=
  revoke "setup_keys" id fun tables =>
    (tables.setupKeys.countP (SetupKeyRow.isUnrevoked id),
      tables.revokeSetupKey id (format now))

/-- `RevokePeer`. -/
def revokePeer (id : Int) (now : Instant) : StoreM Unit :=
  revoke "peers" id fun tables =>
    (tables.peers.countP (PeerRecord.isUnrevoked id),
      tables.revokePeer id (format now))

/-- The setup key of a text. -/
def Tables.setupKeyWith? (tables : Tables) (key : String) :
    Option SetupKeyRow :=
  rowWith? (·.key) key tables.setupKeys

/-- The `WHERE` clause of the consuming `UPDATE`. -/
def SetupKeyRow.isConsumable
    (key now : String)
    (row : SetupKeyRow) : Bool :=
  row.key == key && row.revokedAt.isNone &&
    row.expiresAt.all (fun expires => textLess now expires) &&
    row.maxUses.all (fun limit => decide (row.usesConsumed < limit))

/-- Count one use of a consumable key. -/
def Tables.consumeSetupKey (key now : String) (tables : Tables) : Tables :=
  { tables with
    setupKeys :=
      updateWhere (SetupKeyRow.isConsumable key now)
        (fun row => { row with usesConsumed := row.usesConsumed + 1 })
        tables.setupKeys }

/-- Count one use of the key with a row id. -/
def Tables.countUse (keyID : Int) (tables : Tables) : Tables :=
  { tables with
    setupKeys :=
      updateWhere (fun row => row.id == keyID)
        (fun row => { row with usesConsumed := row.usesConsumed + 1 })
        tables.setupKeys }

/-- `diagnoseKey`: why the consuming `UPDATE` matched nothing. -/
def diagnoseKey (setupKey now : String) : StoreM String := do
  let found ← attempt
    (query failure (fun db => db.tables.setupKeyWith? setupKey))
  pure <|
    match found with
    | .error error =>
        "setup key rejected (diagnosis failed: " ++ error.text ++ ")"
    | .ok none => "unknown setup key"
    | .ok (some row) =>
        match row.revokedAt, row.expiresAt, row.maxUses with
        | some revokedAt, _, _ => "setup key revoked at " ++ revokedAt
        | none, expiresAt, maxUses =>
            if expiresAt.any (fun expires => !textLess now expires) then
              "setup key expired at " ++ orEmpty expiresAt
            else if maxUses.any
                (fun limit => decide (limit ≤ row.usesConsumed)) then
              "setup key exhausted (" ++ decimal row.usesConsumed ++ "/" ++
                decimal (orZero maxUses) ++ " uses)"
            else
              "setup key rejected for unknown reason"

/-- Consume one use of a key and return the key's row id. -/
def consumeSetupKey (setupKey now : String) : StoreM Int := do
  let rows ← modify "consume setup key" fun tables =>
    (tables.setupKeys.countP (SetupKeyRow.isConsumable setupKey now),
      tables.consumeSetupKey setupKey now)
  if rows = 0 then
    let reason ← diagnoseKey setupKey now
    raise (unauthorized reason)
  else
    let found ← select "look up setup key id"
      (fun tables => tables.setupKeyWith? setupKey)
    match found with
    | some row => pure row.id
    | none => raise (failure "look up setup key id: sql: no rows in result set")

theorem readOnly_drawn
    (context : String)
    (draw : Draw) :
    ReadOnly (drawn context draw) := by
  unfold drawn
  split
  · exact readOnly_pure _
  · exact readOnly_raise _

variable {before after : DB} {setupKey now : String}

theorem drawn_ok
    {context text : String}
    {draw : Draw}
    (run : Runs (drawn context draw) before (.ok text) after) :
    draw = .ok text ∧ after = before := by
  unfold drawn at run
  split at run
  · obtain ⟨shape, same⟩ := run.pure_inv
    cases shape
    exact ⟨rfl, same⟩
  · exact run.raise_ok.elim

/-- A created setup key is the drawn one, with the new row added. -/
theorem createNamedSetupKey_ok
    {name key : String}
    {maxUses expiresIn : Int}
    {now : Instant}
    {draw : Draw}
    (run :
      Runs (createNamedSetupKey name maxUses expiresIn now draw)
        before (.ok key) after) :
    draw = .ok key ∧
      after.tables =
        before.tables.addSetupKey
          (newSetupKey before.tables.nextSetupKeyID
            key name maxUses expiresIn now) := by
  obtain ⟨text, start, drawRun, rest⟩ := run.bind_ok
  obtain ⟨drawShape, sameStart⟩ := drawn_ok drawRun
  obtain ⟨_, written, writeRun, last⟩ := rest.bind_ok
  obtain ⟨keyShape, sameEnd⟩ := last.pure_inv
  cases keyShape
  subst start after
  exact ⟨drawShape, (modify_ok writeRun).2⟩

theorem atomic_createNamedSetupKey
    (name : String)
    (maxUses expiresIn : Int)
    (now : Instant)
    (draw : Draw) :
    Atomic (createNamedSetupKey name maxUses expiresIn now draw) :=
  Atomic.after_reading (readOnly_drawn _ _)
    (fun _ => (atomic_modify _ _).then_pure _)

/-- A successful revocation affected a row and stored the update. -/
theorem revoke_ok
    {table : String}
    {id : Int}
    {update : Tables → Nat × Tables}
    (run : Runs (revoke table id update) before (.ok ()) after) :
    (update before.tables).1 ≠ 0 ∧
      after.tables = (update before.tables).2 := by
  obtain ⟨rows, written, writeRun, rest⟩ := run.bind_ok
  obtain ⟨rowsShape, stored⟩ := modify_ok writeRun
  split at rest
  · exact rest.raise_ok.elim
  · rename_i affected
    rw [rest.pure_inv.2]
    exact ⟨rowsShape ▸ affected, stored⟩

/-- A revocation is atomic when affecting no row changes nothing. -/
theorem atomic_revoke
    (table : String)
    (id : Int)
    (update : Tables → Nat × Tables)
    (idle : ∀ tables, (update tables).1 = 0 → (update tables).2 = tables) :
    Atomic (revoke table id update) := by
  intro before failure after run
  rcases run.bind_inv with
    ⟨_, writeRun, -⟩ | ⟨rows, written, writeRun, rest⟩
  · exact atomic_modify _ _ _ _ _ writeRun
  · obtain ⟨rowsShape, stored⟩ := modify_ok writeRun
    split at rest
    · rename_i unaffected
      rw [rest.raise_inv.2]
      apply DB.ext
      rw [stored]
      exact idle _ (rowsShape ▸ unaffected)
    · cases rest.pure_inv.1

theorem atomic_revokeSetupKey
    (id : Int)
    (now : Instant) :
    Atomic (revokeSetupKey id now) := by
  apply atomic_revoke
  intro tables unaffected
  simp only [Tables.revokeSetupKey,
    updateWhere_of_countP_eq_zero unaffected]

theorem atomic_revokePeer
    (id : Int)
    (now : Instant) :
    Atomic (revokePeer id now) := by
  apply atomic_revoke
  intro tables unaffected
  simp only [Tables.revokePeer,
    updateWhere_of_countP_eq_zero unaffected]

theorem DB.eq_of_key
    {db : DB}
    {first second : SetupKeyRow}
    (firstMember : first ∈ db.tables.setupKeys)
    (secondMember : second ∈ db.tables.setupKeys)
    (sameKey : first.key = second.key) :
    first = second :=
  List.inj_on_of_nodup_map db.legal.keyUnique
    firstMember secondMember sameKey

theorem SetupKeyRow.key_of_isConsumable
    {row : SetupKeyRow}
    (consumable : row.isConsumable setupKey now) :
    row.key = setupKey := by
  simp only [SetupKeyRow.isConsumable, Bool.and_eq_true,
    beq_iff_eq] at consumable
  exact consumable.1.1.1

/-- The consuming `UPDATE` counts a use of the one consumable key. -/
theorem DB.consumeSetupKey_eq
    {db : DB}
    {row : SetupKeyRow}
    (member : row ∈ db.tables.setupKeys)
    (consumable : row.isConsumable setupKey now) :
    db.tables.consumeSetupKey setupKey now =
      db.tables.countUse row.id := by
  have rowKey := SetupKeyRow.key_of_isConsumable consumable
  simp only [Tables.consumeSetupKey, Tables.countUse]
  rw [updateWhere_congr]
  intro other otherMember
  by_cases same : other = row
  · subst other
    simpa using consumable
  · have differentID : (other.id == row.id) = false := by
      apply beq_false_of_ne
      intro sameID
      exact same
        (db.legal.keyOrder.eq_of_id otherMember member sameID)
    have differentKey : (other.key == setupKey) = false := by
      apply beq_false_of_ne
      intro sameKey
      exact same
        (db.eq_of_key otherMember member (sameKey.trans rowKey.symm))
    simp [SetupKeyRow.isConsumable, differentID, differentKey]

/--
A consumed key was consumable, and its row id is returned.

Key texts are unique, so the row looked up is the one whose use was counted.
-/
theorem consumeSetupKey_ok
    {keyID : Int}
    (run : Runs (consumeSetupKey setupKey now) before (.ok keyID) after) :
    ∃ row, row ∈ before.tables.setupKeys ∧
      row.isConsumable setupKey now ∧ row.id = keyID ∧
        after.tables = before.tables.countUse keyID := by
  obtain ⟨rows, written, writeRun, rest⟩ := run.bind_ok
  obtain ⟨rowsShape, stored⟩ := modify_ok writeRun
  split at rest
  · obtain ⟨_, _, _, last⟩ := rest.bind_ok
    exact last.raise_ok.elim
  · rename_i affected
    obtain ⟨found, looked, lookRun, last⟩ := rest.bind_ok
    obtain ⟨sameLook, foundShape⟩ := select_ok lookRun
    subst looked
    split at last
    · rename_i found
      obtain ⟨idShape, sameEnd⟩ := last.pure_inv
      cases idShape
      subst after
      obtain ⟨row, member, consumable⟩ :=
        List.countP_pos_iff.mp
          (Nat.pos_of_ne_zero (rowsShape ▸ affected))
      have storedUse :
          written.tables = before.tables.countUse row.id :=
        stored.trans (before.consumeSetupKey_eq member consumable)
      obtain ⟨foundMember, foundKey⟩ :=
        mem_of_rowWith? foundShape.symm
      rw [storedUse] at foundMember
      obtain ⟨old, oldMember, foundOld⟩ :=
        mem_updateWhere.mp foundMember
      -- Counting a use leaves the key text and the id alone.
      have sameKey : old.key = row.key := by
        rw [SetupKeyRow.key_of_isConsumable consumable, ← foundKey,
          foundOld]
        split <;> rfl
      have sameID : row.id = found.id := by
        rw [foundOld, before.eq_of_key oldMember member sameKey]
        split <;> rfl
      exact ⟨row, member, consumable, sameID, sameID ▸ storedUse⟩
    · exact last.raise_ok.elim

end WgMesh.Store
