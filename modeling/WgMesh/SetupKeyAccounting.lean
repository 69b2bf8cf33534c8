import WgMesh.StoreMachine

namespace WgMesh.Store

/-!
# Setup-key accounting over whole runs

A key's counter is compared with the history: the peers that the steps of the
run so far have added with that key.  Expiry is decided by comparing texts;
for four-digit years that comparison is the one of the instants.
-/

open CivilTime FiniteRuns RowTables TextScan Transactions

/-- The peer rows that one database has and the other has not. -/
def newPeers (before after : DB) : List PeerRecord :=
  after.tables.peers.filter
    (fun row => decide (row.id ∉ before.tables.peerIDs))

/-- How many peers a change of the database adds with a setup key. -/
def addedWith (keyID : Int) (before after : DB) : Nat :=
  (newPeers before after).countP (fun row => row.setupKeyID == keyID)

/-- How many peers the steps of a history have added with a setup key. -/
def createdWith (keyID : Int) (past : List Step) : Nat :=
  (past.map
    (fun step => addedWith keyID step.before.db step.after.db)).sum

/-- The columns of a setup key that no operation changes, and revocation. -/
structure SetupKeyRow.Continues (old row : SetupKeyRow) : Prop where
  id : row.id = old.id
  key : row.key = old.key
  expiresAt : row.expiresAt = old.expiresAt
  maxUses : row.maxUses = old.maxUses
  revoked : old.revokedAt.isSome = true → row.revokedAt.isSome = true

/-- An operation with a reply creates a setup key with the row's limits. -/
def Op.Mints (op : Op) (reply : Reply) (key : SetupKeyRow) : Prop :=
  match op, reply with
  | .createSetupKey _ maxUses expiresIn now _, .key text =>
      key.key = text ∧
        key.maxUses = (if 0 < maxUses then some maxUses else none) ∧
        key.expiresAt =
          if expiresIn = 0 then none else some (format (now + expiresIn))
  | .createStaticPeer _ _ _ _, _ =>
      key.maxUses = some 1 ∧ key.expiresAt = none
  | _, _ => False

/-- A step created a setup key with the row's limits. -/
def Step.Mints (step : Step) (key : SetupKeyRow) : Prop :=
  ∃ reply, step.output = .ok reply ∧ step.input.op.Mints reply key

/-- The instant at which the key that an operation creates expires. -/
def Op.expiry : Op → Option Instant
  | .createSetupKey _ _ expiresIn now _ =>
      if expiresIn = 0 then none else some (now + expiresIn)
  | _ => none

variable {before after : DB} {row : PeerRecord} {config : Config}
  {view : NetworkView} {op : Op} {reply : Reply} {key : SetupKeyRow}
  {now : Instant} {past : List Step} {state : State}

theorem newPeers_eq_nil
    (old :
      ∀ row, row ∈ after.tables.peers →
        row.id ∈ before.tables.peerIDs) :
    newPeers before after = [] := by
  apply List.filter_eq_nil_iff.mpr
  intro row member
  simp [old row member]

@[simp] theorem newPeers_self
    (db : DB) :
    newPeers db db = [] :=
  newPeers_eq_nil (fun _ member => List.mem_map_of_mem member)

/-- An appended row with the next id is the one new row. -/
theorem newPeers_append
    (stored : after.tables.peers = before.tables.peers ++ [row])
    (next : row.id = before.tables.nextPeerID) :
    newPeers before after = [row] := by
  have fresh : row.id ∉ before.tables.peerIDs := by
    intro known
    obtain ⟨old, member, same⟩ := List.mem_map.mp known
    exact Tables.nextPeerID_not_mem member (same.trans next)
  have none : newPeers before before = [] := newPeers_self before
  rw [newPeers, stored, List.filter_append]
  rw [newPeers] at none
  rw [none, List.nil_append, List.filter_singleton]
  simp [fresh]

/-- What an operation does to the setup keys, and which peers it adds. -/
inductive KeyEffect
    (config : Config)
    (view : NetworkView)
    (before after : DB) : Op → Reply → Prop where
  | kept
      {op : Op} {reply : Reply}
      (same : after.tables.setupKeys = before.tables.setupKeys)
      (idle : newPeers before after = []) :
      KeyEffect config view before after op reply
  | created
      {name key : String} {maxUses expiresIn : Int} {now : Instant}
      (stored :
        after.tables.setupKeys =
          before.tables.setupKeys ++
            [newSetupKey before.tables.nextSetupKeyID
              key name maxUses expiresIn now])
      (idle : newPeers before after = []) :
      KeyEffect config view before after
        (.createSetupKey name maxUses expiresIn now (.ok key)) (.key key)
  | revoked
      {id : Int} {now : Instant}
      (stored :
        after.tables.setupKeys =
          updateWhere (SetupKeyRow.isUnrevoked id)
            (fun row => { row with revokedAt := some (format now) })
            before.tables.setupKeys)
      (idle : newPeers before after = []) :
      KeyEffect config view before after (.revokeSetupKey id now) .done
  | consumed
      {args : EnrollArgs} {now : Instant} {draw : Draw}
      {result : EnrollResult} {key : SetupKeyRow}
      {token ip ip6 : String}
      (done :
        EnrolledNew config view args now draw before after result
          key token ip ip6) :
      KeyEffect config view before after
        (.enroll args now draw) (.enrolled result)
  | static
      {spec : StaticPeer} {now : Instant} {keyDraw tokenDraw : Draw}
      {info : PeerInfo} {marker token ip ip6 : String}
      (done :
        StaticCreated config view spec now keyDraw tokenDraw before after
          marker token ip ip6) :
      KeyEffect config view before after
        (.createStaticPeer spec now keyDraw tokenDraw) (.peer info)

theorem RowOrigin.createsIn
    (origin : RowOrigin config view before after op reply row)
    (fresh : row.id ∉ before.tables.peerIDs) :
    op.CreatesIn before.tables := by
  rcases origin.continues_or_new with ⟨old, member, continued⟩ | ⟨creates, -⟩
  · rw [continued.id] at fresh
    exact absurd (List.mem_map_of_mem member) fresh
  · exact creates

theorem Effect.newPeers_eq_nil
    (effect : Effect config view before after op reply)
    (idle : ¬ op.CreatesIn before.tables) :
    newPeers before after = [] := by
  apply Store.newPeers_eq_nil
  intro row member
  by_contra fresh
  exact idle ((effect.origin member).createsIn fresh)

/-- Every operation has its effect on the setup keys. -/
theorem Effect.keyEffect
    (effect : Effect config view before after op reply) :
    KeyEffect config view before after op reply := by
  have idle := effect.newPeers_eq_nil
  cases effect with
  | keyCreated stored =>
      exact .created (by rw [stored]; rfl) (idle id)
  | keyRevoked stored =>
      exact .revoked (by rw [stored]; rfl) (idle id)
  | reEnrolled done =>
      refine .kept (by rw [done.stored]; rfl) (idle ?_)
      intro unknown
      rw [Op.CreatesIn, done.found] at unknown
      cases unknown
  | enrolledNew done => exact .consumed done
  | staticCreated done => exact .static done
  | readdressed _ stored => exact .kept (by rw [stored]; rfl) (idle id)
  | migrated _ _ _ _ stored => exact .kept (by rw [stored]; rfl) (idle id)
  | networksLoaded _ _ _ stored => exact .kept (by rw [stored]) (idle id)
  | dnsUpdated _ stored => exact .kept (by rw [stored]) (idle id)
  | peerRevoked _ stored => exact .kept (by rw [stored]; rfl) (idle id)
  | peerRemoved _ stored => exact .kept (by rw [stored]; rfl) (idle id)
  | candidatesSet stored =>
      refine .kept ?_ (idle id)
      rw [stored]
      split <;> rfl
  | offerSet stored => exact .kept (by rw [stored]; rfl) (idle id)
  | exitAssigned done => exact .kept (by rw [done.stored]; rfl) (idle id)
  | ruleAdded _ stored => exact .kept (by rw [stored]; rfl) (idle id)
  | rulesImported _ stored => exact .kept (by rw [stored]) (idle id)
  | ruleDeleted stored => exact .kept (by rw [stored]; rfl) (idle id)
  | reported core => exact .kept core.setupKeys (idle id)

theorem Op.Mints.continued
    {old : SetupKeyRow}
    (mints : op.Mints reply old)
    (continued : old.Continues key) :
    op.Mints reply key := by
  unfold Op.Mints at mints ⊢
  rw [continued.key, continued.maxUses, continued.expiresAt]
  exact mints

theorem SetupKeyRow.Continues.refl
    (row : SetupKeyRow) :
    row.Continues row :=
  ⟨rfl, rfl, rfl, rfl, fun already => already⟩

theorem Op.Mints.expiresAt
    (mints : op.Mints reply key) :
    key.expiresAt = op.expiry.map format := by
  unfold Op.Mints at mints
  split at mints
  · rw [mints.2.2, Op.expiry]
    split <;> rfl
  · exact mints.2
  · exact mints.elim

theorem EnrolledNew.addedWith_eq
    {args : EnrollArgs}
    {draw : Draw}
    {result : EnrollResult}
    {token ip ip6 : String}
    (done :
      EnrolledNew config view args now draw before after result
        key token ip ip6)
    (keyID : Int) :
    addedWith keyID before after = if key.id = keyID then 1 else 0 := by
  have added := newPeers_append
    (congrArg (·.peers) done.stored) rfl
  rw [addedWith, added, List.countP_singleton]
  simp [newPeer]

theorem StaticCreated.addedWith_eq
    {spec : StaticPeer}
    {keyDraw tokenDraw : Draw}
    {marker token ip ip6 : String}
    (done :
      StaticCreated config view spec now keyDraw tokenDraw before after
        marker token ip ip6)
    (keyID : Int) :
    addedWith keyID before after =
      if before.tables.nextSetupKeyID = keyID then 1 else 0 := by
  have added := newPeers_append
    (congrArg (·.peers) done.stored) rfl
  rw [addedWith, added, List.countP_singleton]
  simp [newStaticPeer]

theorem addedWith_of_newPeers_eq_nil
    (idle : newPeers before after = [])
    (keyID : Int) :
    addedWith keyID before after = 0 := by
  rw [addedWith, idle, List.countP_nil]

theorem Tables.nextSetupKeyID_not_mem
    {tables : Tables}
    {row : SetupKeyRow}
    (member : row ∈ tables.setupKeys) :
    row.id ≠ tables.nextSetupKeyID :=
  Int.ne_of_lt (lt_nextID member)

private theorem continues_revokedWhere
    (condition : SetupKeyRow → Bool)
    (at' : String)
    (old : SetupKeyRow) :
    old.Continues
      (if condition old then { old with revokedAt := some at' }
        else old) := by
  split
  · exact ⟨rfl, rfl, rfl, rfl, fun _ => rfl⟩
  · exact .refl old

private theorem continues_countedWhere
    (condition : SetupKeyRow → Bool)
    (old : SetupKeyRow) :
    old.Continues
      (if condition old then
        { old with usesConsumed := old.usesConsumed + 1 }
        else old) := by
  split
  · exact ⟨rfl, rfl, rfl, rfl, fun already => already⟩
  · exact .refl old

/-- No operation deletes a setup key. -/
theorem KeyEffect.forward
    (effect : KeyEffect config view before after op reply)
    {old : SetupKeyRow}
    (member : old ∈ before.tables.setupKeys) :
    ∃ row ∈ after.tables.setupKeys, old.Continues row := by
  cases effect with
  | kept same _ => exact ⟨old, same ▸ member, .refl old⟩
  | created stored _ =>
      exact ⟨old, stored ▸ List.mem_append_left _ member, .refl old⟩
  | revoked stored _ =>
      rw [stored]
      exact ⟨_, mem_updateWhere.mpr ⟨old, member, rfl⟩,
        continues_revokedWhere _ _ old⟩
  | @consumed _ _ _ _ key _ _ _ done =>
      rw [done.stored]
      exact ⟨_, mem_updateWhere.mpr ⟨old, member, rfl⟩,
        continues_countedWhere (fun row => row.id == key.id) old⟩
  | static done =>
      rw [done.stored]
      exact ⟨old, List.mem_append_left _ member, .refl old⟩

/--
After an operation, every key continues an old one, with the peers that the
operation added counted, or is new, with its own peers counted.
-/
theorem KeyEffect.backward
    (effect : KeyEffect config view before after op reply)
    {row : SetupKeyRow}
    (member : row ∈ after.tables.setupKeys) :
    (∃ old ∈ before.tables.setupKeys, old.Continues row ∧
        row.usesConsumed =
          old.usesConsumed + addedWith row.id before after) ∨
      row.id = before.tables.nextSetupKeyID ∧
        row.usesConsumed = addedWith row.id before after ∧
        op.Mints reply row := by
  cases effect with
  | kept same idle =>
      refine Or.inl ⟨row, same ▸ member, .refl row, ?_⟩
      rw [addedWith_of_newPeers_eq_nil idle]
      exact (Int.add_zero _).symm
  | created stored idle =>
      rw [stored] at member
      rcases List.mem_append.mp member with isOld | isNew
      · refine Or.inl ⟨row, isOld, .refl row, ?_⟩
        rw [addedWith_of_newPeers_eq_nil idle]
        exact (Int.add_zero _).symm
      · rw [List.mem_singleton.mp isNew]
        refine Or.inr ⟨rfl, ?_, rfl, rfl, rfl⟩
        rw [addedWith_of_newPeers_eq_nil idle]
        rfl
  | revoked stored idle =>
      rw [stored] at member
      obtain ⟨old, oldMember, rfl⟩ := mem_updateWhere.mp member
      refine Or.inl ⟨old, oldMember, continues_revokedWhere _ _ old, ?_⟩
      rw [addedWith_of_newPeers_eq_nil idle]
      split <;> exact (Int.add_zero _).symm
  | @consumed _ _ _ _ key _ _ _ done =>
      have counts := done.addedWith_eq
      rw [done.stored] at member
      obtain ⟨old, oldMember, rfl⟩ := mem_updateWhere.mp member
      have continued :=
        continues_countedWhere (fun row => row.id == key.id) old
      refine Or.inl ⟨old, oldMember, continued, ?_⟩
      rw [counts, continued.id]
      by_cases used : old.id = key.id
      · simp [used]
      · simp [used, Ne.symm used]
  | static done =>
      have counts := done.addedWith_eq
      rw [done.stored] at member
      rcases List.mem_append.mp member with isOld | isNew
      · refine Or.inl ⟨row, isOld, .refl row, ?_⟩
        rw [counts, if_neg (Tables.nextSetupKeyID_not_mem isOld).symm]
        exact (Int.add_zero _).symm
      · rw [List.mem_singleton.mp isNew]
        refine Or.inr ⟨rfl, ?_, rfl, rfl⟩
        simp [counts, staticSetupKey]

@[simp] theorem createdWith_append_singleton
    (keyID : Int)
    (past : List Step)
    (step : Step) :
    createdWith keyID (past ++ [step]) =
      createdWith keyID past +
        addedWith keyID step.before.db step.after.db := by
  simp [createdWith]

/--
A row was added by a step of the history, with the setup key and the public
key it still has, and its row id has been in the table since.
-/
def PeerRecord.FirstEnrolledIn
    (past : List Step)
    (row : PeerRecord) : Prop :=
  ∃ earlier creation later first,
    past = earlier ++ creation :: later ∧
      first ∈ newPeers creation.before.db creation.after.db ∧
      first.id = row.id ∧ first.publicKey = row.publicKey ∧
      first.setupKeyID = row.setupKeyID ∧
      ∀ step, step ∈ later →
        row.id ∈ step.before.db.tables.peerIDs ∧
          row.id ∈ step.after.db.tables.peerIDs

/-- What holds of the keys and the peers after a history. -/
structure Accounted (past : List Step) (state : State) : Prop where
  counted :
    ∀ key, key ∈ state.db.tables.setupKeys →
      key.usesConsumed = createdWith key.id past
  unborn :
    ∀ keyID, keyID ∉ state.db.tables.setupKeys.map (·.id) →
      createdWith keyID past = 0
  minted :
    ∀ key, key ∈ state.db.tables.setupKeys →
      ∃ step ∈ past, step.Mints key
  firstKeys :
    ∀ row ∈ state.db.tables.peers, row.FirstEnrolledIn past

/-- A row stays first enrolled where it was while it stays in the table. -/
theorem PeerRecord.FirstEnrolledIn.continued
    {old : PeerRecord}
    (first : old.FirstEnrolledIn past)
    (continued : old.Continues row)
    {step : Step}
    (before : old ∈ step.before.db.tables.peers)
    (after : row ∈ step.after.db.tables.peers) :
    row.FirstEnrolledIn (past ++ [step]) := by
  obtain ⟨earlier, creation, later, created, rfl, new, id, key, setupKey,
    since⟩ := first
  refine ⟨earlier, creation, later ++ [step], created, by simp, new,
    id.trans continued.id.symm, key.trans continued.publicKey.symm,
    setupKey.trans continued.setupKeyID.symm, ?_⟩
  intro between member
  rcases List.mem_append.mp member with isOld | isLast
  · rw [continued.id]
    exact since between isOld
  · rw [List.mem_singleton.mp isLast]
    exact ⟨continued.id ▸ List.mem_map_of_mem before,
      List.mem_map_of_mem after⟩

theorem PeerRecord.firstEnrolledIn_of_new
    {step : Step}
    (new : row ∈ newPeers step.before.db step.after.db) :
    row.FirstEnrolledIn (past ++ [step]) :=
  ⟨past, step, [], row, rfl, new, rfl, rfl, rfl, by simp⟩

/-- A step that changes no table keeps the accounts. -/
theorem Accounted.kept
    {past : List Step}
    {step : Step}
    (accounted : Accounted past step.before)
    (same : step.after.db = step.before.db) :
    Accounted (past ++ [step]) step.after := by
  have idle : newPeers step.before.db step.after.db = [] := by
    rw [same, newPeers_self]
  constructor
  · intro key member
    rw [createdWith_append_singleton, addedWith_of_newPeers_eq_nil idle]
    exact accounted.counted key (same ▸ member)
  · intro keyID unborn
    rw [createdWith_append_singleton, addedWith_of_newPeers_eq_nil idle]
    exact accounted.unborn keyID (same ▸ unborn)
  · intro key member
    obtain ⟨minting, earlier, mints⟩ := accounted.minted key (same ▸ member)
    exact ⟨minting, List.mem_append_left _ earlier, mints⟩
  · intro row member
    have old : row ∈ step.before.db.tables.peers := same ▸ member
    exact (accounted.firstKeys row old).continued (.refl row) old member

theorem mem_newPeers :
    row ∈ newPeers before after ↔
      row ∈ after.tables.peers ∧ row.id ∉ before.tables.peerIDs := by
  rw [newPeers, List.mem_filter, decide_eq_true_iff]

theorem addedWith_eq_zero
    {keyID : Int}
    (unborn : keyID ∉ after.tables.setupKeys.map (·.id)) :
    addedWith keyID before after = 0 := by
  apply List.countP_eq_zero.mpr
  intro row member used
  apply unborn
  rw [← beq_iff_eq.mp used]
  exact after.legal.peerSetupKey row (mem_newPeers.mp member).1

/-- A step with an effect keeps the accounts. -/
theorem Accounted.changed
    {config : Config}
    {past : List Step}
    {step : Step}
    {reply : Reply}
    (accounted : Accounted past step.before)
    (output : step.output = .ok reply)
    (effect :
      Effect config step.before.view step.before.db step.after.db
        step.input.op reply) :
    Accounted (past ++ [step]) step.after := by
  have keys := effect.keyEffect
  constructor
  · intro key member
    rw [createdWith_append_singleton]
    rcases keys.backward member with
      ⟨old, oldMember, continued, counted⟩ | ⟨next, counted, -⟩
    · rw [counted, accounted.counted old oldMember, continued.id]
      rfl
    · have unknown :
          key.id ∉ step.before.db.tables.setupKeys.map (·.id) := by
        intro known
        obtain ⟨old, oldMember, same⟩ := List.mem_map.mp known
        exact Tables.nextSetupKeyID_not_mem oldMember (same.trans next)
      rw [counted, accounted.unborn key.id unknown, Nat.zero_add]
  · intro keyID unborn
    have unknown :
        keyID ∉ step.before.db.tables.setupKeys.map (·.id) := by
      intro known
      obtain ⟨old, oldMember, same⟩ := List.mem_map.mp known
      obtain ⟨row, rowMember, continued⟩ := keys.forward oldMember
      exact unborn
        (List.mem_map.mpr ⟨row, rowMember, continued.id.trans same⟩)
    rw [createdWith_append_singleton, accounted.unborn keyID unknown,
      addedWith_eq_zero unborn]
  · intro key member
    rcases keys.backward member with
      ⟨old, oldMember, continued, -⟩ | ⟨-, -, mints⟩
    · obtain ⟨minting, earlier, mintReply, minted, mints⟩ :=
        accounted.minted old oldMember
      exact ⟨minting, List.mem_append_left _ earlier, mintReply, minted,
        mints.continued continued⟩
    · exact ⟨step, List.mem_append_right _ (List.mem_singleton_self _),
        reply, output, mints⟩
  · intro row member
    by_cases known : row.id ∈ step.before.db.tables.peerIDs
    · rcases (effect.origin member).continues_or_new with
        ⟨old, oldMember, continued⟩ | ⟨-, next, -⟩
      · exact (accounted.firstKeys old oldMember).continued
          continued oldMember member
      · obtain ⟨old, oldMember, same⟩ := List.mem_map.mp known
        exact (Tables.nextPeerID_not_mem oldMember (same.trans next)).elim
    · exact PeerRecord.firstEnrolledIn_of_new
        (mem_newPeers.mpr ⟨member, known⟩)

/-- Every step keeps the accounts. -/
theorem Accounted.step
    (config : Config)
    (accounted : Accounted past state)
    (input : Input) :
    Accounted (past ++ [(machine config).visit state input])
      ((machine config).step state input).2 := by
  rcases step_cases config state input with
    ⟨error, shape⟩ | ⟨reply, after, shape, effect⟩
  · refine @Accounted.kept past ((machine config).visit state input)
      accounted ?_
    simp [Machine.visit, shape]
  · refine @Accounted.changed config past
      ((machine config).visit state input) reply accounted ?_ ?_
    · simp [Machine.visit, shape]
    · simpa [Machine.visit, shape] using effect

/-- An empty store has its accounts in order. -/
theorem Accounted.start
    (empty : state.db = DB.empty) :
    Accounted [] state := by
  constructor
  · intro key member
    rw [empty] at member
    cases member
  · intro keyID _
    rfl
  · intro key member
    rw [empty] at member
    cases member
  · intro row member
    rw [empty] at member
    cases member

/--
A key may create a peer at an instant: it is unrevoked, has a use left, and
the instant of expiry that its creation fixed is still to come.
-/
def SetupKeyRow.UsableAt
    (past : List Step)
    (now : Instant)
    (key : SetupKeyRow) : Prop :=
  key.revokedAt = none ∧
    (∀ limit, key.maxUses = some limit → key.usesConsumed < limit) ∧
    ∃ minting ∈ past, minting.Mints key ∧
      ∀ expiry, minting.input.op.expiry = some expiry →
        FourDigitYear now → FourDigitYear expiry → now < expiry

/--
A step adds peers only with a key that is usable at that moment.  A static
peer gets a key of its own, created with its one use consumed.
-/
def Step.CreatesWithUsable (past : List Step) (step : Step) : Prop :=
  ∀ row, row ∈ newPeers step.before.db step.after.db →
    match step.input.op with
    | .enroll args now _ =>
        ∃ key, key ∈ step.before.db.tables.setupKeys ∧
          key.key = args.setupKey ∧ key.id = row.setupKeyID ∧
          key.UsableAt past now
    | .createStaticPeer _ _ _ _ =>
        ∃ key, key ∈ step.after.db.tables.setupKeys ∧
          key.id = row.setupKeyID ∧
          key.id ∉ step.before.db.tables.setupKeys.map (·.id) ∧
          key.revokedAt = none ∧ key.expiresAt = none ∧
          key.maxUses = some 1 ∧ key.usesConsumed = 1
    | _ => False

/--
An `Enroll` of a known public key changes no setup key, and it succeeds only
with the key that first enrolled the row, still unrevoked.
-/
def Step.ReEnrollsWithFirstKey (past : List Step) (step : Step) : Prop :=
  ∀ args now draw row,
    step.input.op = .enroll args now draw →
      step.before.db.tables.peerWithKey? args.publicKey = some row →
        step.after.db.tables.setupKeys =
            step.before.db.tables.setupKeys ∧
          row.FirstEnrolledIn past ∧
          ∀ reply, step.output = .ok reply →
            ∃ key, key ∈ step.before.db.tables.setupKeys ∧
              key.key = args.setupKey ∧ key.id = row.setupKeyID ∧
              key.revokedAt = none

/-- A consumable key is usable at the instant whose text was compared. -/
theorem SetupKeyRow.usableAt_of_isConsumable
    (accounted : Accounted past state)
    {setupKey : String}
    (member : key ∈ state.db.tables.setupKeys)
    (consumable : key.isConsumable setupKey (format now)) :
    key.UsableAt past now := by
  simp only [SetupKeyRow.isConsumable, Bool.and_eq_true,
    Option.isNone_iff_eq_none, Option.all_eq_true,
    decide_eq_true_eq] at consumable
  obtain ⟨⟨⟨-, unrevoked⟩, unexpired⟩, unused⟩ := consumable
  obtain ⟨minting, earlier, reply, minted, mints⟩ :=
    accounted.minted key member
  refine ⟨unrevoked, unused, minting, earlier, ⟨reply, minted, mints⟩, ?_⟩
  intro expiry expires nowYear expiryYear
  have printed : key.expiresAt = some (format expiry) := by
    rw [mints.expiresAt, expires, Option.map_some]
  exact lt_of_textLess_format nowYear expiryYear (unexpired _ printed)

/-- An operation adds peers only with usable keys. -/
theorem Accounted.createsWithUsable
    {step : Step}
    (accounted : Accounted past step.before)
    (effect :
      Effect config step.before.view step.before.db step.after.db
        step.input.op reply) :
    step.CreatesWithUsable past := by
  intro row new
  have keys := effect.keyEffect
  generalize step.input.op = op at keys
  cases keys with
  | kept _ idle | created _ idle | revoked _ idle =>
      rw [idle] at new
      cases new
  | @consumed _ _ _ _ key _ _ _ done =>
      rw [newPeers_append (congrArg (·.peers) done.stored) rfl,
        List.mem_singleton] at new
      subst new
      exact ⟨key, done.member,
        SetupKeyRow.key_of_isConsumable done.consumable, rfl,
        SetupKeyRow.usableAt_of_isConsumable accounted done.member
          done.consumable⟩
  | @static spec _ _ _ _ marker _ _ _ done =>
      rw [newPeers_append (congrArg (·.peers) done.stored) rfl,
        List.mem_singleton] at new
      subst new
      refine ⟨staticSetupKey ("static-" ++ marker)
        (trimSpace spec.hostname) step.before.db.tables.nextSetupKeyID,
        ?_, rfl, ?_, rfl, rfl, rfl, rfl⟩
      · rw [done.stored]
        exact List.mem_append_right _ (List.mem_singleton_self _)
      · intro known
        obtain ⟨old, oldMember, same⟩ := List.mem_map.mp known
        exact Tables.nextSetupKeyID_not_mem oldMember same

/-- A successful re-enrolment presented the first key. -/
theorem Accounted.reEnrollsWithFirstKey
    {step : Step}
    (accounted : Accounted past step.before)
    (effect :
      Effect config step.before.view step.before.db step.after.db
        step.input.op reply) :
    step.ReEnrollsWithFirstKey past := by
  intro args now draw row isEnroll known
  rw [isEnroll] at effect
  cases effect with
  | enrolledNew done =>
      rw [done.unknown] at known
      cases known
  | @reEnrolled _ _ _ _ peer _ _ done =>
      have isPeer : peer = row :=
        Option.some.inj (done.found.symm.trans known)
      subst isPeer
      refine ⟨by rw [done.stored]; rfl,
        accounted.firstKeys peer (mem_of_rowWith? done.found).1, ?_⟩
      intro _ _
      obtain ⟨key, found, unrevoked, same⟩ := done.presented
      obtain ⟨member, text⟩ := mem_of_rowWith? found
      exact ⟨key, member, text, same, unrevoked⟩

/--
After every run from an empty store, each setup key has counted exactly the
peers ever created with it, within its limit.  Whatever the next operation
is, it creates a peer only with a usable key, changes nothing when it fails,
and re-enrols only with the first key and without counting.
-/
theorem setupKeys_accounted
    (config : Config)
    {start : State}
    (empty : start.db = DB.empty)
    (inputs : List Input)
    (next : Input) :
    (∀ key, key ∈ ((machine config).run start inputs).db.tables.setupKeys →
        key.usesConsumed =
            createdWith key.id ((machine config).visits start inputs) ∧
          ∀ limit, key.maxUses = some limit → key.usesConsumed ≤ limit) ∧
      Step.CreatesWithUsable ((machine config).visits start inputs)
        ((machine config).visit ((machine config).run start inputs) next) ∧
      (∀ error,
        ((machine config).step ((machine config).run start inputs) next).1 =
            .error error →
          ((machine config).step ((machine config).run start inputs) next).2 =
            (machine config).run start inputs) ∧
      Step.ReEnrollsWithFirstKey ((machine config).visits start inputs)
        ((machine config).visit
          ((machine config).run start inputs) next) := by
  have accounted :
      Accounted ((machine config).visits start inputs)
        ((machine config).run start inputs) :=
    (machine config).history_invariant (Accounted.start empty)
      (fun _ _ input holds => holds.step config input) inputs
  generalize (machine config).visits start inputs = past at accounted ⊢
  generalize (machine config).run start inputs = state at accounted ⊢
  refine ⟨?_, ?_⟩
  · intro key member
    exact ⟨accounted.counted key member,
      fun limit set =>
        ((state.db.legal.keyChecked key member).2 limit set).1⟩
  rcases step_cases config state next with
    ⟨error, shape⟩ | ⟨reply, after, shape, effect⟩
  · refine ⟨?_, ?_, ?_⟩
    · intro row new
      simp [Machine.visit, shape] at new
    · intro _ _
      rw [shape]
    · intro args now draw row _ known
      refine ⟨by simp [Machine.visit, shape],
        accounted.firstKeys row (mem_of_rowWith? known).1, ?_⟩
      intro reply succeeded
      simp [Machine.visit, shape] at succeeded
  · have stepEffect :
        Effect config state.view state.db
          ((machine config).visit state next).after.db next.op reply := by
      simpa [Machine.visit, shape] using effect
    refine ⟨Accounted.createsWithUsable accounted stepEffect, ?_,
      Accounted.reEnrollsWithFirstKey accounted stepEffect⟩
    intro error failed
    rw [shape] at failed
    cases failed

/-- A key for one use creates a peer. -/
def singleUse : List Input :=
  [ (Op.createSetupKey "" 1 3600000 0 (.ok "key")).accepted,
    (Op.enroll ⟨"key", "first", "", 0, "", ""⟩ 0 (.ok "token 1")).accepted ]

/-- The second peer is refused, and the one use stays the one counted. -/
theorem setupKeys_accounted_singleUse :
    (((machine (Config.sample true)).run State.fresh
          singleUse).db.tables.setupKeys.map
        fun key => (key.usesConsumed, key.maxUses)) = [(1, some 1)] ∧
      ((machine (Config.sample true)).step
          ((machine (Config.sample true)).run State.fresh singleUse)
          (Op.enroll ⟨"key", "second", "", 0, "", ""⟩ 0
            (.ok "token 2")).accepted).1.isOk = false ∧
      ∀ key,
        key ∈ ((machine (Config.sample true)).run State.fresh
            singleUse).db.tables.setupKeys →
          key.usesConsumed =
            createdWith key.id
              ((machine (Config.sample true)).visits State.fresh singleUse) :=
  ⟨by decide +kernel, by decide +kernel,
    fun key member =>
      ((setupKeys_accounted (Config.sample true) rfl singleUse
        (Op.enroll ⟨"key", "second", "", 0, "", ""⟩ 0
          (.ok "token 2")).accepted).1 key member).1⟩

end WgMesh.Store
