import WgMesh.AddressAllocation

namespace WgMesh.Store

/-!
# Overlay addresses under concurrency

Calls that write addresses, interleaved.  SQLite serialises their
transactions: `BeginTx` takes the write lock, and nobody else writes before
the commit.  The prefixes in memory are read and set by separate steps behind
their own mutex, so a transaction may commit with prefixes that a migration
has replaced in the settings table.
-/

open CivilTime FiniteRuns NetAddress RowTables Transactions

/-- A call that writes addresses. -/
inductive Job where
  | enroll (args : EnrollArgs) (now : Instant) (draw : Draw)
  | createStaticPeer (spec : StaticPeer) (now : Instant)
      (keyDraw tokenDraw : Draw)
  | updatePeerAddress (id : Int) (assignedIP assignedIP6 : String)
  | applyNetworkMigration (target4 target6 : Prefix)

/-- The operation a call performs. -/
def Job.op : Job → Op
  | .enroll args now draw => .enroll args now draw
  | .createStaticPeer spec now keyDraw tokenDraw =>
      .createStaticPeer spec now keyDraw tokenDraw
  | .updatePeerAddress id assignedIP assignedIP6 =>
      .updatePeerAddress id assignedIP assignedIP6
  | .applyNetworkMigration target4 target6 =>
      .applyNetworkMigration target4 target6

/-- How far a call has come, with the prefixes it has read. -/
inductive Phase where
  | started
  | began
  | read4 (network4 : Prefix)
  | gated (network4 : Prefix) (v6Enabled : Bool)
  | validated (view : NetworkView)
  | ready (view : NetworkView)
  | committed
  | finished

/-- A call in progress. -/
structure Thread where
  job : Job
  phase : Phase

/-- The shared database and prefixes, the write lock, and all calls. -/
structure World where
  db : DB
  network : Prefix
  network6 : Option Prefix
  writer : Option Nat
  threads : List Thread

/-- Move a call to a phase. -/
def World.move (index : Nat) (phase : Phase) (world : World) : World :=
  { world with
    threads :=
      world.threads.modify index (fun thread => { thread with phase }) }

/-- `BeginTx`: take the write lock, or wait while another call has it. -/
def World.beginTx (index : Nat) (phase : Phase) (world : World) : World :=
  match world.writer with
  | none => { world.move index phase with writer := some index }
  | some _ => world

/-- The phase after a transaction: a migration still has to set memory. -/
def Job.afterCommit : Job → Except StoreError Reply → Phase
  | .applyNetworkMigration _ _, .ok _ => .committed
  | _, _ => .finished

/--
Run the transaction on the prefixes the call has read, up to its commit or
rollback, and release the lock.  Nobody else writes in between.
-/
def World.commit
    (config : Config)
    (index : Nat)
    (job : Job)
    (view : NetworkView)
    (answers : List (Option String))
    (world : World) : World :=
  let ended := perform config view job.op ⟨world.db, answers⟩
  { world.move index (job.afterCommit ended.1) with
    db := ended.2.data
    writer := none }

/-- `setNetworks`, after the commit and outside the transaction. -/
def World.setNetworks (index : Nat) (job : Job) (world : World) : World :=
  match job with
  | .applyNetworkMigration target4 target6 =>
      { world.move index .finished with
        network := target4.masked.masked
        network6 := some target6.masked.masked }
  | _ => world

/-- The prefix reads of a call, in source order. -/
def World.readNext (index : Nat) (job : Job) (world : World) :
    Phase → World
  | .read4 network4 =>
      match job with
      | .applyNetworkMigration _ _ =>
          world.move index
            (.ready ⟨network4, world.network6.isSome, world.network6⟩)
      | _ => world.move index (.gated network4 world.network6.isSome)
  | .gated network4 v6Enabled =>
      let view : NetworkView :=
        ⟨network4, v6Enabled, if v6Enabled then world.network6 else none⟩
      match job with
      | .updatePeerAddress _ _ _ => world.move index (.validated view)
      | _ => world.move index (.ready view)
  | _ => world.move index (.read4 world.network)

/-- Which call runs next, and the driver's answers should it commit. -/
structure Choice where
  thread : Nat
  answers : List (Option String)

/-- The next step of a call. -/
def World.advance
    (config : Config)
    (index : Nat)
    (answers : List (Option String))
    (thread : Thread)
    (world : World) : World :=
  match thread.phase with
  | .started =>
      match thread.job with
      | .updatePeerAddress _ _ _ =>
          -- The only call that reads and validates before `BeginTx`.
          world.readNext index thread.job .started
      | _ => world.beginTx index .began
  | .validated view => world.beginTx index (.ready view)
  | .ready view => world.commit config index thread.job view answers
  | .committed => world.setNetworks index thread.job
  | .finished => world
  | phase => world.readNext index thread.job phase

/-- All calls, interleaved as the choices say. -/
def interleaving (config : Config) : Machine World Choice Unit where
  step world choice :=
    match world.threads[choice.thread]? with
    | none => ((), world)
    | some thread =>
        ((), world.advance config choice.thread choice.answers thread)

/-- The persisted IPv4 prefix. -/
def Tables.persisted4 (tables : Tables) : Option Prefix :=
  tables.settings.networkCIDR.bind parsePrefix

/-- The persisted IPv6 prefix. -/
def Tables.persisted6 (tables : Tables) : Option Prefix :=
  tables.settings.networkCIDR6.bind parsePrefix

/-- A text denotes an address of a network other than its base address. -/
def HostText (network : Prefix) (text : String) : Prop :=
  ∃ addr, addr ∈ parseAddr text ∧
    network.contains addr = true ∧ addr ≠ network.addr

instance (network : Prefix) (text : String) :
    Decidable (HostText network text) :=
  inferInstanceAs (Decidable (∃ addr ∈ parseAddr text, _))

/-- Both addresses of a row lie in their networks. -/
def PeerRecord.Inside
    (network4 network6 : Prefix)
    (row : PeerRecord) : Prop :=
  HostText network4 row.assignedIP ∧
    ∀ text ∈ row.assignedIP6, HostText network6 text

instance (network4 network6 : Prefix) (row : PeerRecord) :
    Decidable (row.Inside network4 network6) :=
  inferInstanceAs (Decidable (_ ∧ ∀ text ∈ row.assignedIP6, _))

/-- Networks are persisted, and every row's addresses lie in them. -/
def Tables.Inside (tables : Tables) : Prop :=
  ∃ network4, network4 ∈ tables.persisted4 ∧
    ∃ network6, network6 ∈ tables.persisted6 ∧
      network4.masked = network4 ∧ network6.masked = network6 ∧
      ∀ row ∈ tables.peers, row.Inside network4 network6

instance (tables : Tables) : Decidable tables.Inside :=
  inferInstanceAs
    (Decidable
      (∃ network4, network4 ∈ tables.persisted4 ∧
        ∃ network6 ∈ tables.persisted6, _))

/-- Whether a call takes an IPv4 address from the prefix it read. -/
def Job.uses4 (tables : Tables) : Job → Bool
  | .enroll args _ _ => (tables.peerWithKey? args.publicKey).isNone
  | .applyNetworkMigration _ _ => false
  | _ => true

/-- Whether a call takes an IPv6 address from the prefix it read. -/
def Job.uses6 (tables : Tables) : Job → Bool
  | .enroll args _ _ =>
      (tables.peerWithKey? args.publicKey).all
        (fun peer => orEmpty peer.assignedIP6 = "")
  | .applyNetworkMigration _ _ => false
  | _ => true

/-- The prefixes that a call read and uses are the persisted ones. -/
def Job.Current
    (tables : Tables)
    (view : NetworkView)
    (job : Job) : Prop :=
  (job.uses4 tables = true → tables.persisted4 = some view.network4) ∧
    (job.uses6 tables = true → view.v6Enabled = true →
      tables.persisted6 = view.network6)

instance (tables : Tables) (view : NetworkView) (job : Job) :
    Decidable (job.Current tables view) :=
  inferInstanceAs (Decidable (_ ∧ (_ → _ → _)))

/-- The prefixes with which a call is about to commit. -/
def Phase.commitView : Phase → Option NetworkView
  | .ready view => some view
  | _ => none

/-- A call that is about to commit has read the persisted prefixes. -/
def World.CommitsCurrent (world : World) (choice : Choice) : Prop :=
  ∀ thread, thread ∈ world.threads[choice.thread]? →
    ∀ view, view ∈ thread.phase.commitView →
      thread.job.Current world.db.tables view

instance (world : World) (choice : Choice) :
    Decidable (world.CommitsCurrent choice) :=
  inferInstanceAs
    (Decidable (∀ thread ∈ world.threads[choice.thread]?, _))

theorem hostText_of_isHost
    {network : Prefix}
    {addr : Addr}
    (host : network.IsHost addr) :
    HostText network addr.text := by
  have parts := Prefix.contains_iff.mp host.member
  refine ⟨addr, parseAddr_text parts.1, host.member, ?_⟩
  intro isBase
  have above := host.above
  rw [isBase] at above
  exact Nat.lt_irrefl _ above

theorem Allocates.hostText
    {network : Prefix}
    {raws : List String}
    {text : String}
    (isNetwork : network.IsNetwork)
    (allocates : Allocates (some network) raws text) :
    HostText network text := by
  obtain ⟨known, addr, knownShape, rfl, lowest⟩ := allocates
  cases knownShape
  exact hostText_of_isHost (lowest isNetwork).host

/-- A new row lies in the networks its addresses were allocated from. -/
theorem NewAddresses.inside
    {view : NetworkView}
    {tables : Tables}
    {ip ip6 : String}
    {network4 network6 : Prefix}
    (addresses : NewAddresses view tables ip ip6)
    (isNetwork4 : network4.IsNetwork)
    (isNetwork6 : network6.IsNetwork)
    (current4 : some network4 = some view.network4)
    (current6 : view.v6Enabled = true → some network6 = view.network6) :
    HostText network4 ip ∧
      ∀ text, nullable ip6 = some text → HostText network6 text := by
  have first := addresses.first
  rw [← current4] at first
  refine ⟨first.hostText isNetwork4, ?_⟩
  intro text filled
  have second := addresses.second
  split at second
  · rename_i enabled
    rw [← current6 enabled] at second
    rw [← nullable_eq_some filled]
    exact second.hostText isNetwork6
  · rw [second] at filled
    cases filled

/-- An IPv6 backfill keeps a row inside. -/
theorem ReEnrolled.inside
    {config : Config}
    {view : NetworkView}
    {args : EnrollArgs}
    {now : Instant}
    {draw : Draw}
    {before after : DB}
    {result : EnrollResult}
    {peer : PeerRecord}
    {token ip6 : String}
    {network4 network6 : Prefix}
    (done :
      ReEnrolled config view args now draw before after result
        peer token ip6)
    (isNetwork6 : network6.IsNetwork)
    (current6 :
      orEmpty peer.assignedIP6 = "" → view.v6Enabled = true →
        some network6 = view.network6)
    (inside : peer.Inside network4 network6) :
    (peer.refresh
        (refreshFor args (config.hashToken token) (format now) ip6)).Inside
      network4 network6 := by
  refine ⟨inside.1, ?_⟩
  intro text filled
  rcases coalesce_eq_some filled with new | old
  · have backfill := done.backfill
    split at backfill
    · rename_i needed
      simp only [Bool.and_eq_true, decide_eq_true_eq] at needed
      rw [← current6 needed.2 needed.1] at backfill
      rw [← nullable_eq_some new]
      exact backfill.hostText isNetwork6
    · rw [backfill] at new
      cases new
  · exact inside.2 text old

/-- A migration leaves its targets persisted and every row inside them. -/
theorem inside_migrate
    {tables : Tables}
    {target4 target6 : Prefix}
    {hosts4 hosts6 : List Addr}
    (first : ∀ addr ∈ hosts4, target4.masked.IsHost addr)
    (second : ∀ addr ∈ hosts6, target6.masked.IsHost addr) :
    (tables.migrate (hosts4.zip hosts6)
      target4.masked target6.masked).Inside := by
  have isNetwork4 := Prefix.masked_isNetwork target4
  have isNetwork6 := Prefix.masked_isNetwork target6
  refine ⟨target4.masked, parsePrefix_text isNetwork4.zoneFree,
    target6.masked, parsePrefix_text isNetwork6.zoneFree,
    isNetwork4.masked_eq, isNetwork6.masked_eq, ?_⟩
  intro row member
  obtain ⟨hosts, old, hostsMember, -, rfl⟩ := mem_zipWith member
  obtain ⟨firstHost, secondHost⟩ := List.of_mem_zip hostsMember
  refine ⟨hostText_of_isHost (first _ firstHost), ?_⟩
  intro text filled
  cases filled
  exact hostText_of_isHost (second _ secondHost)

/-- A call that uses the persisted prefixes keeps every row inside them. -/
theorem Tables.Inside.effect
    {config : Config}
    {view : NetworkView}
    {before after : DB}
    {job : Job}
    {reply : Reply}
    (inside : before.tables.Inside)
    (current : job.Current before.tables view)
    (effect : Effect config view before after job.op reply) :
    after.tables.Inside := by
  obtain ⟨network4, persisted4, network6, persisted6, masked4, masked6,
    rows⟩ := inside
  have isNetwork4 : network4.IsNetwork :=
    masked4 ▸ Prefix.masked_isNetwork network4
  have isNetwork6 : network6.IsNetwork :=
    masked6 ▸ Prefix.masked_isNetwork network6
  -- Whatever keeps the settings only has to keep the rows inside.
  have sameNetworks :
      after.tables.settings = before.tables.settings →
        (∀ row ∈ after.tables.peers, row.Inside network4 network6) →
          after.tables.Inside := by
    intro same rowsAfter
    refine ⟨network4, ?_, network6, ?_, masked4, masked6, rowsAfter⟩
    · rw [Tables.persisted4, same]
      exact persisted4
    · rw [Tables.persisted6, same]
      exact persisted6
  obtain ⟨current4, current6⟩ := current
  rw [Option.mem_def.mp persisted4] at current4
  rw [Option.mem_def.mp persisted6] at current6
  cases job with
  | enroll args now draw =>
      cases effect with
      | @reEnrolled _ _ _ _ peer _ _ done =>
          have known := done.found
          refine sameNetworks (by rw [done.stored]; rfl) ?_
          intro row member
          rw [done.stored] at member
          rcases mem_updatePeer member with old | ⟨old, oldMember, own, rfl⟩
          · exact rows row old
          · have isPeer : old = peer :=
              before.eq_of_peerID oldMember (mem_of_rowWith? known).1 own
            subst isPeer
            refine done.inside isNetwork6 ?_ (rows old oldMember)
            intro missing
            exact current6 (by simp [Job.uses6, known, missing])
      | @enrolledNew _ _ _ _ _ _ _ _ done =>
          have unknown := done.unknown
          obtain ⟨first, second⟩ := done.addresses.inside isNetwork4
            isNetwork6 (current4 (by simp [Job.uses4, unknown]))
            (current6 (by simp [Job.uses6, unknown]))
          refine sameNetworks (by rw [done.stored]; rfl) ?_
          intro row member
          rw [done.stored] at member
          rcases List.mem_append.mp member with old | new
          · exact rows row old
          · rw [List.mem_singleton.mp new]
            exact ⟨first, second⟩
  | createStaticPeer spec now keyDraw tokenDraw =>
      cases effect with
      | staticCreated done =>
          obtain ⟨first, second⟩ := done.addresses.inside isNetwork4
            isNetwork6 (current4 rfl) (current6 rfl)
          refine sameNetworks (by rw [done.stored]; rfl) ?_
          intro row member
          rw [done.stored] at member
          rcases List.mem_append.mp member with old | new
          · exact rows row old
          · rw [List.mem_singleton.mp new]
            exact ⟨first, second⟩
  | updatePeerAddress id assignedIP assignedIP6 =>
      cases effect with
      | readdressed valid stored =>
          have read4 : network4 = view.network4 :=
            Option.some.inj (current4 rfl)
          obtain ⟨host4, enabled6, host6⟩ :=
            validateAddressPair_ok (read4 ▸ isNetwork4)
              (fun enabled known shape => by
                have same := (current6 rfl enabled).trans shape
                exact Option.some.inj same ▸ isNetwork6) valid
          refine sameNetworks (by rw [stored]; rfl) ?_
          intro row member
          rw [stored] at member
          obtain ⟨old, oldMember, shape⟩ := mem_updateWhere.mp member
          split at shape
          · rw [shape]
            refine ⟨hostText_of_isHost (read4 ▸ host4), ?_⟩
            intro text filled
            obtain ⟨addr, addrShape, rfl⟩ :=
              Option.map_eq_some_iff.mp filled
            obtain ⟨known, knownShape, host⟩ := host6 addr addrShape
            rw [addrShape] at enabled6
            have same := (current6 rfl enabled6.symm).trans knownShape
            exact hostText_of_isHost (Option.some.inj same ▸ host)
          · exact shape ▸ rows old oldMember
  | applyNetworkMigration target4 target6 =>
      cases effect with
      | migrated first second _ _ stored =>
          rw [stored]
          apply inside_migrate
          · intro addr member
            exact (Prefix.firstHosts_spec _ _).1 addr (first ▸ member)
          · intro addr member
            exact (Prefix.firstHosts_spec _ _).1 addr (second ▸ member)

@[simp] theorem World.beginTx_db
    (index : Nat)
    (phase : Phase)
    (world : World) :
    (world.beginTx index phase).db = world.db := by
  unfold World.beginTx
  split <;> rfl

@[simp] theorem World.setNetworks_db
    (index : Nat)
    (job : Job)
    (world : World) :
    (world.setNetworks index job).db = world.db := by
  unfold World.setNetworks
  split <;> rfl

@[simp] theorem World.readNext_db
    (index : Nat)
    (job : Job)
    (world : World)
    (phase : Phase) :
    (world.readNext index job phase).db = world.db := by
  unfold World.readNext
  split
  · split <;> rfl
  · dsimp only
    split <;> rfl
  · rfl

/-- A transaction either changes nothing or has its operation's effect. -/
theorem World.commit_cases
    (config : Config)
    (index : Nat)
    (job : Job)
    (view : NetworkView)
    (answers : List (Option String))
    (world : World) :
    (world.commit config index job view answers).db = world.db ∨
      ∃ reply,
        Effect config view world.db
          (world.commit config index job view answers).db job.op reply := by
  have run := Runs.of_session (perform config view job.op)
    ⟨world.db, answers⟩
  cases outcome : (perform config view job.op ⟨world.db, answers⟩).1 with
  | error error =>
      rw [outcome] at run
      exact Or.inl (atomic_perform _ _ _ _ _ _ run)
  | ok reply =>
      rw [outcome] at run
      exact Or.inr ⟨reply, perform_ok run⟩

/-- Only a commit changes the database, and it has its call's effect. -/
theorem interleaving_cases
    (config : Config)
    (world : World)
    (choice : Choice) :
    ((interleaving config).step world choice).2.db = world.db ∨
      ∃ thread view reply,
        world.threads[choice.thread]? = some thread ∧
          thread.phase = .ready view ∧
          Effect config view world.db
            ((interleaving config).step world choice).2.db
            thread.job.op reply := by
  simp only [interleaving]
  split
  · exact Or.inl rfl
  · rename_i thread found
    simp only [World.advance]
    split
    · left
      split
      · exact World.readNext_db ..
      · exact World.beginTx_db ..
    · exact Or.inl (World.beginTx_db ..)
    · rename_i view phase
      rcases world.commit_cases config choice.thread thread.job view
          choice.answers with
        same | ⟨reply, effect⟩
      · exact Or.inl same
      · exact Or.inr ⟨thread, view, reply, found, phase, effect⟩
    · exact Or.inl (World.setNetworks_db ..)
    · exact Or.inl rfl
    · exact Or.inl (World.readNext_db ..)

/-- Every row lies in the persisted networks. -/
def World.Inside (world : World) : Prop :=
  world.db.tables.Inside

instance (world : World) : Decidable world.Inside :=
  inferInstanceAs (Decidable world.db.tables.Inside)

/-- One step that meets the condition keeps every row inside. -/
theorem World.Inside.step
    (config : Config)
    (world : World)
    (choice : Choice)
    (inside : world.Inside)
    (current : world.CommitsCurrent choice) :
    ((interleaving config).step world choice).2.Inside := by
  rcases interleaving_cases config world choice with
    same | ⟨thread, view, reply, found, phase, effect⟩
  · rw [World.Inside, same]
    exact inside
  · refine Tables.Inside.effect inside (current thread found view ?_) effect
    rw [phase]
    rfl

/--
In every interleaving whose transactions commit with the persisted prefixes,
every address lies in the persisted network after every step.
-/
theorem addresses_inside_of_commitsCurrent
    (config : Config)
    {world : World}
    (start : world.Inside)
    {schedule : List Choice}
    (current :
      ∀ visit, visit ∈ (interleaving config).visits world schedule →
        visit.before.CommitsCurrent visit.input) :
    ((interleaving config).run world schedule).Inside ∧
      ∀ visit, visit ∈ (interleaving config).visits world schedule →
        visit.before.Inside :=
  (interleaving config).visits_invariant (World.Inside.step config)
    start current

/-- A store with its prefixes persisted and one setup key. -/
def preparedStore : State :=
  (machine (Config.sample true)).run State.fresh
    [ (Op.loadOrInitNetworkConfig defaultNetwork defaultNetwork6).accepted,
      (Op.createSetupKey "" 0 0 0 (.ok "key")).accepted ]

/-- A migration and an enrolment, called at the same time. -/
def migrationAndEnrolment : World where
  db := preparedStore.db
  network := preparedStore.network
  network6 := preparedStore.network6
  writer := none
  threads :=
    [ ⟨.applyNetworkMigration
          ⟨⟨.v4, 167772160, "", by decide⟩, 8, by decide⟩
          ⟨⟨.v6, 0xfd010000000000000000000000000000, "", by decide⟩, 64,
            by decide⟩,
        .started⟩,
      ⟨.enroll ⟨"key", "peer", "", 0, "", ""⟩ 0 (.ok "token"), .started⟩ ]

/-- Let a call make a number of steps, the driver refusing nothing. -/
def steps (thread count : Nat) : List Choice :=
  List.replicate count ⟨thread, []⟩

/--
The enrolment runs between the commit of the migration and the assignment of
the new prefixes: its row is outside the persisted network.
-/
theorem enrolment_outside_migrated_network :
    migrationAndEnrolment.Inside ∧
      ¬ ((interleaving (Config.sample true)).run migrationAndEnrolment
          (steps 0 4 ++ steps 1 5)).Inside := by
  decide +kernel

/-- After the migration has set the prefixes, the enrolment stays inside. -/
theorem addresses_inside_migrationFirst :
    ((interleaving (Config.sample true)).run migrationAndEnrolment
          (steps 0 5 ++ steps 1 5)).db.tables.peers.map (·.assignedIP) =
        ["10.0.0.1"] ∧
      ((interleaving (Config.sample true)).run migrationAndEnrolment
          (steps 0 5 ++ steps 1 5)).Inside :=
  ⟨by decide +kernel,
    (addresses_inside_of_commitsCurrent (Config.sample true)
      (by decide +kernel) (by decide +kernel)).1⟩

end WgMesh.Store
