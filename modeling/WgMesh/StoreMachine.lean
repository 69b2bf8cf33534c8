import WgMesh.FiniteRuns
import WgMesh.StoreDNS
import WgMesh.StoreReports

namespace WgMesh.Store

/-!
# The store as a machine

Every writing operation of the store, executed one after the other.  Clock
readings, random draws and the driver's answers are part of the input.

`Effect` says once what a successful operation has checked and written; every
invariant of the store is proved by cases on it.
-/

open CivilTime FiniteRuns NetAddress RowTables TextScan Transactions

variable {Value : Type}

/-- A store: its database and the prefixes it keeps in memory. -/
structure State where
  db : DB
  network : Prefix
  network6 : Option Prefix

/-- What a sequential operation reads of the prefixes. -/
def State.view (state : State) : NetworkView where
  network4 := state.network
  v6Enabled := state.network6.isSome
  network6 := state.network6

/-- `setNetworks`. -/
def State.setNetworks (network4 network6 : Prefix) (state : State) : State :=
  { state with
    network := network4.masked
    network6 := some network6.masked }

/-- The writing operations, with their clock readings and random draws. -/
inductive Op where
  | createSetupKey (name : String) (maxUses expiresIn : Int)
      (now : Instant) (draw : Draw)
  | revokeSetupKey (id : Int) (now : Instant)
  | enroll (args : EnrollArgs) (now : Instant) (draw : Draw)
  | createStaticPeer (spec : StaticPeer) (now : Instant)
      (keyDraw tokenDraw : Draw)
  | updatePeerAddress (id : Int) (assignedIP assignedIP6 : String)
  | applyNetworkMigration (target4 target6 : Prefix)
  | loadOrInitNetworkConfig (default4 default6 : Prefix)
  | updateDNSConfig (config : DNSConfig)
  | revokePeer (id : Int) (now : Instant)
  | removePeer (id : Int)
  | updatePeerCandidates (id : Int) (candidates : List AgentCandidate)
  | setAdvertiseExitNode (id : Int) (advertise : Bool)
  | setExitNode (peerID exitPeerID : Int)
  | createACLRule (rule : ACLRuleSpec)
  | importACLRules (rules : List ACLRuleSpec) (replace : Bool)
  | deleteACLRule (id : Int)
  | applyReport (peerID : Int) (observedIP : String)
      (report : ReportRequest) (now : Instant)

/-- What a successful operation returns. -/
inductive Reply where
  | done
  | key (text : String)
  | enrolled (result : EnrollResult)
  | peer (info : PeerInfo)
  | plan (plan : NetworkMigrationPlan)
  | networks (network4 network6 : Prefix)
  | dns (config : DNSConfig)
  | assignment (assignment : ExitAssignment)
  | rule (id : Int)
  | imported (count : Nat)

/-- Run an operation and wrap its result. -/
def answering (wrap : Value → Reply) (action : StoreM Value) :
    StoreM Reply := do
  let value ← action
  pure (wrap value)

/-- The database part of an operation. -/
def perform (config : Config) (view : NetworkView) : Op → StoreM Reply
  | .createSetupKey name maxUses expiresIn now draw =>
      answering .key
        (createNamedSetupKey name maxUses expiresIn now draw)
  | .revokeSetupKey id now =>
      answering (fun _ => .done) (revokeSetupKey id now)
  | .enroll args now draw =>
      answering .enrolled (enroll config view args now draw)
  | .createStaticPeer spec now keyDraw tokenDraw =>
      answering .peer
        (createStaticPeer config view spec now keyDraw tokenDraw)
  | .updatePeerAddress id assignedIP assignedIP6 =>
      answering .peer (updatePeerAddress view id assignedIP assignedIP6)
  | .applyNetworkMigration target4 target6 =>
      answering .plan
        (applyNetworkMigration
          (networkConfig (some view.network4) view.network6)
          target4 target6)
  | .loadOrInitNetworkConfig default4 default6 =>
      answering (fun networks => .networks networks.1 networks.2)
        (loadOrInitNetworkConfig default4 default6)
  | .updateDNSConfig dns => answering .dns (updateDNSConfig dns)
  | .revokePeer id now => answering (fun _ => .done) (revokePeer id now)
  | .removePeer id => answering (fun _ => .done) (removePeer id)
  | .updatePeerCandidates id candidates =>
      answering (fun _ => .done) (updatePeerCandidates id candidates)
  | .setAdvertiseExitNode id advertise =>
      answering (fun _ => .done) (setAdvertiseExitNode id advertise)
  | .setExitNode peerID exitPeerID =>
      answering .assignment (setExitNode peerID exitPeerID)
  | .createACLRule rule => answering .rule (createACLRule rule)
  | .importACLRules rules replace =>
      answering .imported (importACLRules rules replace)
  | .deleteACLRule id => answering (fun _ => .done) (deleteACLRule id)
  | .applyReport peerID observedIP report now =>
      answering (fun _ => .done)
        (applyReport peerID observedIP report now)

/-- What a successful operation does to the prefixes in memory. -/
def remember (state : State) : Op → Reply → State
  | .applyNetworkMigration target4 target6, _ =>
      state.setNetworks target4.masked target6.masked
  | .loadOrInitNetworkConfig _ _, .networks network4 network6 =>
      state.setNetworks network4 network6
  | _, _ => state

/-- An operation together with the driver's answers to its statements. -/
structure Input where
  op : Op
  answers : List (Option String)

/-- The state after an operation that ended in a way. -/
def settle (state : State) (op : Op) :
    Except StoreError Reply → DB → State
  | .ok reply, db => remember { state with db } op reply
  | .error _, db => { state with db }

/-- The store, one operation at a time. -/
def machine (config : Config) :
    Machine State Input (Except StoreError Reply) where
  step state input :=
    let ended :=
      perform config state.view input.op ⟨state.db, input.answers⟩
    (ended.1, settle state input.op ended.1 ended.2.data)

/-- A step of the store, as a run records it. -/
abbrev Step := Visit State Input (Except StoreError Reply)

/-- A store that was just created with the default prefixes. -/
def State.fresh : State where
  db := DB.empty
  network := defaultNetwork
  network6 := some defaultNetwork6

/-- A configuration for concrete runs, with a hash that marks its argument. -/
def Config.sample (defaultAllow : Bool) : Config where
  defaultAllow := defaultAllow
  tokenTTL := 0
  hashToken := fun token => "hash of " ++ token

/-- An operation whose statements the driver accepts. -/
def Op.accepted (op : Op) : Input where
  op := op
  answers := []

/-- What a successful operation has checked and written. -/
inductive Effect
    (config : Config)
    (view : NetworkView)
    (before after : DB) : Op → Reply → Prop where
  | keyCreated
      {name key : String} {maxUses expiresIn : Int} {now : Instant}
      (stored :
        after.tables =
          before.tables.addSetupKey
            (newSetupKey before.tables.nextSetupKeyID
              key name maxUses expiresIn now)) :
      Effect config view before after
        (.createSetupKey name maxUses expiresIn now (.ok key)) (.key key)
  | keyRevoked
      {id : Int} {now : Instant}
      (stored :
        after.tables =
          before.tables.revokeSetupKey id (format now)) :
      Effect config view before after (.revokeSetupKey id now) .done
  | reEnrolled
      {args : EnrollArgs} {now : Instant} {draw : Draw}
      {result : EnrollResult} {peer : PeerRecord} {token ip6 : String}
      (done :
        ReEnrolled config view args now draw before after result
          peer token ip6) :
      Effect config view before after
        (.enroll args now draw) (.enrolled result)
  | enrolledNew
      {args : EnrollArgs} {now : Instant} {draw : Draw}
      {result : EnrollResult} {key : SetupKeyRow}
      {token ip ip6 : String}
      (done :
        EnrolledNew config view args now draw before after result
          key token ip ip6) :
      Effect config view before after
        (.enroll args now draw) (.enrolled result)
  | staticCreated
      {spec : StaticPeer} {now : Instant} {keyDraw tokenDraw : Draw}
      {info : PeerInfo} {marker token ip ip6 : String}
      (done :
        StaticCreated config view spec now keyDraw tokenDraw before after
          marker token ip ip6) :
      Effect config view before after
        (.createStaticPeer spec now keyDraw tokenDraw) (.peer info)
  | readdressed
      {id : Int} {assignedIP assignedIP6 : String} {info : PeerInfo}
      {addr4 : Addr} {addr6 : Option Addr}
      (valid :
        validateAddressPair view assignedIP assignedIP6 =
          .ok (addr4, addr6))
      (stored :
        after.tables =
          before.tables.readdress id addr4.text (addr6.map (·.text))) :
      Effect config view before after
        (.updatePeerAddress id assignedIP assignedIP6) (.peer info)
  | migrated
      {target4 target6 : Prefix} {plan : NetworkMigrationPlan}
      {hosts4 hosts6 : List Addr}
      (first :
        hosts4 = target4.masked.firstHosts before.tables.peers.length)
      (second :
        hosts6 = target6.masked.firstHosts before.tables.peers.length)
      (enough4 : hosts4.length = before.tables.peers.length)
      (enough6 : hosts6.length = before.tables.peers.length)
      (stored :
        after.tables =
          before.tables.migrate (hosts4.zip hosts6)
            target4.masked target6.masked) :
      Effect config view before after
        (.applyNetworkMigration target4 target6) (.plan plan)
  | networksLoaded
      {default4 default6 network4 network6 : Prefix}
      {cidr cidr6 : String}
      (first :
        cidr = orDefault (orEmpty before.tables.settings.networkCIDR)
          default4)
      (second :
        cidr6 = orDefault (orEmpty before.tables.settings.networkCIDR6)
          default6)
      (parsed : parseNetworkConfig cidr cidr6 = .ok (network4, network6))
      (stored :
        after.tables =
          { before.tables with
            settings :=
              { before.tables.settings with
                networkCIDR := some cidr
                networkCIDR6 := some cidr6 } }) :
      Effect config view before after
        (.loadOrInitNetworkConfig default4 default6)
        (.networks network4 network6)
  | dnsUpdated
      {dns normalized : DNSConfig}
      (accepted : normalizeDNSConfig dns = .ok normalized)
      (stored :
        after.tables =
          { before.tables with
            settings := before.tables.settings.withDNS normalized }) :
      Effect config view before after
        (.updateDNSConfig dns) (.dns normalized)
  | peerRevoked
      {id : Int} {now : Instant}
      (row :
        ∃ row, row ∈ before.tables.peers ∧
          PeerRecord.isUnrevoked id row = true)
      (stored :
        after.tables = before.tables.revokePeer id (format now)) :
      Effect config view before after (.revokePeer id now) .done
  | peerRemoved
      {id : Int}
      (row :
        ∃ row, row ∈ before.tables.peers ∧
          PeerRecord.isRemovable id row = true)
      (stored : after.tables = before.tables.removePeer id) :
      Effect config view before after (.removePeer id) .done
  | candidatesSet
      {id : Int} {candidates : List AgentCandidate}
      (stored :
        after.tables =
          if candidates = [] then before.tables
          else before.tables.updatePeer id
            (fun row => { row with candidates })) :
      Effect config view before after
        (.updatePeerCandidates id candidates) .done
  | offerSet
      {id : Int} {advertise : Bool}
      (stored :
        after.tables =
          before.tables.updatePeer id fun row =>
            { row with advertiseExitNode := advertise }) :
      Effect config view before after
        (.setAdvertiseExitNode id advertise) .done
  | exitAssigned
      {peerID exitPeerID : Int} {assignment : ExitAssignment}
      {client : PeerRecord}
      (done : ExitAssigned before after peerID exitPeerID client) :
      Effect config view before after
        (.setExitNode peerID exitPeerID) (.assignment assignment)
  | ruleAdded
      {rule : ACLRuleSpec} {id : Int} {row : ACLRuleRow}
      (accepted : row.Accepted)
      (stored : after.tables = before.tables.addRule row) :
      Effect config view before after (.createACLRule rule) (.rule id)
  | rulesImported
      {rules : List ACLRuleSpec} {replace : Bool} {count : Nat}
      {rows : List ACLRuleRow}
      (accepted : ∀ row ∈ rows, row.Accepted)
      (stored :
        after.tables =
          { before.tables with
            aclRules :=
              (if replace then [] else before.tables.aclRules) ++ rows }) :
      Effect config view before after
        (.importACLRules rules replace) (.imported count)
  | ruleDeleted
      {id : Int}
      (stored : after.tables = before.tables.deleteRule id) :
      Effect config view before after (.deleteACLRule id) .done
  | reported
      {peerID : Int} {observedIP : String} {report : ReportRequest}
      {now : Instant}
      (core :
        SameCore
          (before.tables.updatePeer peerID
            (PeerRecord.reported observedIP report (format now)))
          after.tables) :
      Effect config view before after
        (.applyReport peerID observedIP report now) .done

variable {before after : DB} {reply : Reply} {config : Config} {op : Op}
  {row : PeerRecord}

private theorem answering_ok
    {wrap : Value → Reply}
    {action : StoreM Value}
    (run : Runs (answering wrap action) before (.ok reply) after) :
    ∃ value, reply = wrap value ∧ Runs action before (.ok value) after := by
  obtain ⟨value, middle, first, rest⟩ := run.bind_ok
  obtain ⟨shape, same⟩ := rest.pure_inv
  subst middle
  exact ⟨value, Except.ok.inj shape, first⟩

/-- A successful operation has its effect. -/
theorem perform_ok
    {view : NetworkView}
    (run : Runs (perform config view op) before (.ok reply) after) :
    Effect config view before after op reply := by
  cases op with
  | createSetupKey name maxUses expiresIn now draw =>
      obtain ⟨key, rfl, inner⟩ := answering_ok run
      obtain ⟨rfl, stored⟩ := createNamedSetupKey_ok inner
      exact .keyCreated stored
  | revokeSetupKey id now =>
      obtain ⟨_, rfl, inner⟩ := answering_ok run
      exact .keyRevoked (revoke_ok inner).2
  | enroll args now draw =>
      obtain ⟨result, rfl, inner⟩ := answering_ok run
      rcases enroll_ok inner with
        ⟨peer, token, ip6, done⟩ | ⟨key, token, ip, ip6, done⟩
      · exact .reEnrolled done
      · exact .enrolledNew done
  | createStaticPeer spec now keyDraw tokenDraw =>
      obtain ⟨info, rfl, inner⟩ := answering_ok run
      obtain ⟨marker, token, ip, ip6, done⟩ := createStaticPeer_ok inner
      exact .staticCreated done
  | updatePeerAddress id assignedIP assignedIP6 =>
      obtain ⟨info, rfl, inner⟩ := answering_ok run
      obtain ⟨addr4, addr6, valid, -, stored⟩ := updatePeerAddress_ok inner
      exact .readdressed valid stored
  | applyNetworkMigration target4 target6 =>
      obtain ⟨plan, rfl, inner⟩ := answering_ok run
      obtain ⟨hosts4, hosts6, first, second, enough4, enough6, stored⟩ :=
        applyNetworkMigration_ok inner
      exact .migrated first second enough4 enough6 stored
  | loadOrInitNetworkConfig default4 default6 =>
      obtain ⟨⟨network4, network6⟩, rfl, inner⟩ := answering_ok run
      obtain ⟨cidr, cidr6, first, second, parsed, stored⟩ :=
        loadOrInitNetworkConfig_ok inner
      exact .networksLoaded first second parsed stored
  | updateDNSConfig dns =>
      obtain ⟨normalized, rfl, inner⟩ := answering_ok run
      obtain ⟨accepted, stored⟩ := updateDNSConfig_ok inner
      exact .dnsUpdated accepted stored
  | revokePeer id now =>
      obtain ⟨_, rfl, inner⟩ := answering_ok run
      obtain ⟨affected, stored⟩ := revoke_ok inner
      exact .peerRevoked
        (List.countP_pos_iff.mp (Nat.pos_of_ne_zero affected)) stored
  | removePeer id =>
      obtain ⟨_, rfl, inner⟩ := answering_ok run
      obtain ⟨row, stored⟩ := removePeer_ok inner
      exact .peerRemoved row stored
  | updatePeerCandidates id candidates =>
      obtain ⟨_, rfl, inner⟩ := answering_ok run
      exact .candidatesSet (updatePeerCandidates_ok inner)
  | setAdvertiseExitNode id advertise =>
      obtain ⟨_, rfl, inner⟩ := answering_ok run
      exact .offerSet (modify_ok inner).2
  | setExitNode peerID exitPeerID =>
      obtain ⟨assignment, rfl, inner⟩ := answering_ok run
      obtain ⟨client, done⟩ := setExitNode_ok inner
      exact .exitAssigned done
  | createACLRule rule =>
      obtain ⟨id, rfl, inner⟩ := answering_ok run
      obtain ⟨row, accepted, stored⟩ := insertACLRule_ok inner
      exact .ruleAdded accepted stored
  | importACLRules rules replace =>
      obtain ⟨count, rfl, inner⟩ := answering_ok run
      obtain ⟨rows, accepted, stored⟩ := importACLRules_ok inner
      exact .rulesImported accepted stored
  | deleteACLRule id =>
      obtain ⟨_, rfl, inner⟩ := answering_ok run
      exact .ruleDeleted (deleteACLRule_ok inner)
  | applyReport peerID observedIP report now =>
      obtain ⟨_, rfl, inner⟩ := answering_ok run
      exact .reported (applyReport_ok inner)

/-- An operation that fails changes nothing. -/
theorem atomic_perform
    (config : Config)
    (view : NetworkView)
    (op : Op) :
    Atomic (perform config view op) := by
  cases op with
  | createSetupKey name maxUses expiresIn now draw =>
      exact (atomic_createNamedSetupKey _ _ _ _ _).then_pure _
  | revokeSetupKey id now =>
      exact (atomic_revokeSetupKey _ _).then_pure _
  | enroll args now draw => exact atomic_enroll.then_pure _
  | createStaticPeer spec now keyDraw tokenDraw =>
      exact (atomic_createStaticPeer _ _ _).then_pure _
  | updatePeerAddress id assignedIP assignedIP6 =>
      exact (atomic_updatePeerAddress _ _ _ _).then_pure _
  | applyNetworkMigration target4 target6 =>
      exact (atomic_applyNetworkMigration _ _ _).then_pure _
  | loadOrInitNetworkConfig default4 default6 =>
      exact (atomic_loadOrInitNetworkConfig _ _).then_pure _
  | updateDNSConfig dns => exact (atomic_updateDNSConfig _).then_pure _
  | revokePeer id now => exact (atomic_revokePeer _ _).then_pure _
  | removePeer id => exact (atomic_removePeer _).then_pure _
  | updatePeerCandidates id candidates =>
      exact (atomic_updatePeerCandidates _ _).then_pure _
  | setAdvertiseExitNode id advertise =>
      exact (atomic_modify _ _).then_pure _
  | setExitNode peerID exitPeerID =>
      exact (atomic_setExitNode _ _).then_pure _
  | createACLRule rule => exact (atomic_insertACLRule _).then_pure _
  | importACLRules rules replace =>
      exact (atomic_importACLRules _ _).then_pure _
  | deleteACLRule id => exact (atomic_deleteACLRule _).then_pure _
  | applyReport peerID observedIP report now =>
      exact (atomic_applyReport _ _ _ _).then_pure _

/--
What one step of the store can do: fail and leave everything as it was, or
succeed with its effect on the database and on the prefixes in memory.
-/
theorem step_cases
    (config : Config)
    (state : State)
    (input : Input) :
    (∃ error, (machine config).step state input = (.error error, state)) ∨
      ∃ reply after,
        (machine config).step state input =
            (.ok reply, remember { state with db := after } input.op reply) ∧
          Effect config state.view state.db after input.op reply := by
  have run := Runs.of_session (perform config state.view input.op)
    ⟨state.db, input.answers⟩
  cases outcome :
      (perform config state.view input.op ⟨state.db, input.answers⟩).1 with
  | error error =>
      rw [outcome] at run
      have same := atomic_perform _ _ _ _ _ _ run
      refine Or.inl ⟨error, ?_⟩
      simp only [machine, outcome, settle, same]
  | ok reply =>
      rw [outcome] at run
      refine Or.inr ⟨reply, _, ?_, perform_ok run⟩
      simp only [machine, outcome, settle]

/--
Where a peer row comes from: a row of the database before the operation,
unchanged or changed in the operation's own way, or the operation itself.
-/
inductive RowOrigin
    (config : Config)
    (view : NetworkView)
    (before after : DB) : Op → Reply → PeerRecord → Prop where
  | kept
      {op : Op} {reply : Reply} {old : PeerRecord}
      (member : old ∈ before.tables.peers) :
      RowOrigin config view before after op reply old
  | refreshed
      {args : EnrollArgs} {now : Instant} {draw : Draw}
      {result : EnrollResult} {old : PeerRecord} {token ip6 : String}
      (member : old ∈ before.tables.peers)
      (done :
        ReEnrolled config view args now draw before after result
          old token ip6) :
      RowOrigin config view before after
        (.enroll args now draw) (.enrolled result)
        (old.refresh
          (refreshFor args (config.hashToken token) (format now) ip6))
  | enrolled
      {args : EnrollArgs} {now : Instant} {draw : Draw}
      {result : EnrollResult} {key : SetupKeyRow}
      {token ip ip6 : String}
      (done :
        EnrolledNew config view args now draw before after result
          key token ip ip6) :
      RowOrigin config view before after
        (.enroll args now draw) (.enrolled result)
        (newPeer args key.id ip ip6 (config.hashToken token) (format now)
          before.tables.nextPeerID)
  | static
      {spec : StaticPeer} {now : Instant} {keyDraw tokenDraw : Draw}
      {info : PeerInfo} {marker token ip ip6 : String}
      (done :
        StaticCreated config view spec now keyDraw tokenDraw before after
          marker token ip ip6) :
      RowOrigin config view before after
        (.createStaticPeer spec now keyDraw tokenDraw) (.peer info)
        (newStaticPeer spec before.tables.nextSetupKeyID ip ip6
          (config.hashToken token) (format now) before.tables.nextPeerID)
  | readdressed
      {id : Int} {assignedIP assignedIP6 : String} {info : PeerInfo}
      {addr4 : Addr} {addr6 : Option Addr} {old : PeerRecord}
      (member : old ∈ before.tables.peers)
      (unrevoked : PeerRecord.isUnrevoked id old = true)
      (valid :
        validateAddressPair view assignedIP assignedIP6 =
          .ok (addr4, addr6)) :
      RowOrigin config view before after
        (.updatePeerAddress id assignedIP assignedIP6) (.peer info)
        { old with
          assignedIP := addr4.text
          assignedIP6 := addr6.map (·.text) }
  | moved
      {target4 target6 : Prefix} {plan : NetworkMigrationPlan}
      {host4 host6 : Addr} {old : PeerRecord}
      (member : old ∈ before.tables.peers)
      (first :
        host4 ∈ target4.masked.firstHosts before.tables.peers.length)
      (second :
        host6 ∈ target6.masked.firstHosts before.tables.peers.length) :
      RowOrigin config view before after
        (.applyNetworkMigration target4 target6) (.plan plan)
        (old.movedTo (host4, host6))
  | revoked
      {id : Int} {now : Instant} {old : PeerRecord}
      (member : old ∈ before.tables.peers)
      (unrevoked : PeerRecord.isUnrevoked id old = true) :
      RowOrigin config view before after (.revokePeer id now) .done
        { old with revokedAt := some (format now) }
  | cleared
      {id : Int} {old : PeerRecord}
      (member : old ∈ before.tables.peers)
      (other : old.id ≠ id) :
      RowOrigin config view before after (.removePeer id) .done
        (old.clearReferences id)
  | candidates
      {id : Int} {candidates : List AgentCandidate} {old : PeerRecord}
      (member : old ∈ before.tables.peers)
      (own : old.id = id) :
      RowOrigin config view before after
        (.updatePeerCandidates id candidates) .done
        { old with candidates }
  | offer
      {id : Int} {advertise : Bool} {old : PeerRecord}
      (member : old ∈ before.tables.peers)
      (own : old.id = id) :
      RowOrigin config view before after
        (.setAdvertiseExitNode id advertise) .done
        { old with advertiseExitNode := advertise }
  | exit
      {peerID exitPeerID : Int} {assignment : ExitAssignment}
      {old : PeerRecord}
      (member : old ∈ before.tables.peers)
      (done : ExitAssigned before after peerID exitPeerID old) :
      RowOrigin config view before after
        (.setExitNode peerID exitPeerID) (.assignment assignment)
        { old with exitNodePeerID := assignedExit exitPeerID }
  | reported
      {peerID : Int} {observedIP : String} {report : ReportRequest}
      {now : Instant} {old : PeerRecord}
      (member : old ∈ before.tables.peers)
      (own : old.id = peerID) :
      RowOrigin config view before after
        (.applyReport peerID observedIP report now) .done
        (old.reported observedIP report (format now))

theorem mem_updatePeer
    {tables : Tables}
    {id : Int}
    {update : PeerRecord → PeerRecord}
    (member : row ∈ (tables.updatePeer id update).peers) :
    row ∈ tables.peers ∨
      ∃ old ∈ tables.peers, old.id = id ∧ row = update old := by
  obtain ⟨old, oldMember, shape⟩ := mem_updateWhere.mp member
  split at shape
  · rename_i own
    exact Or.inr ⟨old, oldMember, by simpa using own, shape⟩
  · exact Or.inl (shape ▸ oldMember)

theorem DB.eq_of_peerID
    {db : DB}
    {first second : PeerRecord}
    (firstMember : first ∈ db.tables.peers)
    (secondMember : second ∈ db.tables.peers)
    (sameID : first.id = second.id) :
    first = second :=
  db.legal.peerOrder.eq_of_id firstMember secondMember sameID

theorem DB.eq_of_publicKey
    {db : DB}
    {first second : PeerRecord}
    (firstMember : first ∈ db.tables.peers)
    (secondMember : second ∈ db.tables.peers)
    (sameKey : first.publicKey = second.publicKey) :
    first = second :=
  List.inj_on_of_nodup_map db.legal.publicKeyUnique firstMember
    secondMember sameKey

/-- Every row after an operation has its origin. -/
theorem Effect.origin
    {view : NetworkView}
    (effect : Effect config view before after op reply)
    (member : row ∈ after.tables.peers) :
    RowOrigin config view before after op reply row := by
  cases effect with
  | keyCreated stored => exact .kept (by rwa [stored] at member)
  | keyRevoked stored => exact .kept (by rwa [stored] at member)
  | @reEnrolled args now draw result peer token ip6 done =>
      rw [done.stored] at member
      rcases mem_updatePeer member with old | ⟨old, oldMember, own, rfl⟩
      · exact .kept old
      · have isPeer : old = peer :=
          before.eq_of_peerID oldMember (mem_of_rowWith? done.found).1 own
        subst isPeer
        exact .refreshed oldMember done
  | enrolledNew done =>
      rw [done.stored] at member
      rcases List.mem_append.mp member with old | new
      · exact .kept old
      · rw [List.mem_singleton.mp new]
        exact .enrolled done
  | staticCreated done =>
      rw [done.stored] at member
      rcases List.mem_append.mp member with old | new
      · exact .kept old
      · rw [List.mem_singleton.mp new]
        exact .static done
  | readdressed valid stored =>
      rw [stored] at member
      obtain ⟨old, oldMember, shape⟩ := mem_updateWhere.mp member
      split at shape
      · rename_i unrevoked
        rw [shape]
        exact .readdressed oldMember unrevoked valid
      · rw [shape]
        exact .kept oldMember
  | migrated first second _ _ stored =>
      rw [stored] at member
      obtain ⟨hosts, old, hostsMember, oldMember, shape⟩ :=
        mem_zipWith member
      obtain ⟨firstHost, secondHost⟩ := List.of_mem_zip hostsMember
      rw [shape]
      exact .moved oldMember (first ▸ firstHost) (second ▸ secondHost)
  | networksLoaded _ _ _ stored => exact .kept (by rwa [stored] at member)
  | dnsUpdated _ stored => exact .kept (by rwa [stored] at member)
  | peerRevoked _ stored =>
      rw [stored] at member
      obtain ⟨old, oldMember, shape⟩ := mem_updateWhere.mp member
      split at shape
      · rename_i unrevoked
        rw [shape]
        exact .revoked oldMember unrevoked
      · rw [shape]
        exact .kept oldMember
  | peerRemoved _ stored =>
      rw [stored] at member
      obtain ⟨old, remaining, shape⟩ := List.mem_map.mp member
      obtain ⟨oldMember, other⟩ := List.mem_filter.mp remaining
      rw [← shape]
      exact .cleared oldMember (by simpa using other)
  | candidatesSet stored =>
      rw [stored] at member
      split at member
      · exact .kept member
      · rcases mem_updatePeer member with old | ⟨old, oldMember, own, rfl⟩
        · exact .kept old
        · exact .candidates oldMember own
  | offerSet stored =>
      rw [stored] at member
      rcases mem_updatePeer member with old | ⟨old, oldMember, own, rfl⟩
      · exact .kept old
      · exact .offer oldMember own
  | @exitAssigned peerID exitPeerID assignment client done =>
      rw [done.stored] at member
      rcases mem_updatePeer member with old | ⟨old, oldMember, own, rfl⟩
      · exact .kept old
      · obtain ⟨clientMember, clientID⟩ := mem_of_rowWith? done.found
        have isClient : old = client :=
          before.eq_of_peerID oldMember clientMember
            (own.trans clientID.symm)
        subst isClient
        exact .exit oldMember done
  | ruleAdded _ stored => exact .kept (by rwa [stored] at member)
  | rulesImported _ stored => exact .kept (by rwa [stored] at member)
  | ruleDeleted stored => exact .kept (by rwa [stored] at member)
  | reported core =>
      rw [core.peers] at member
      rcases mem_updatePeer member with old | ⟨old, oldMember, own, rfl⟩
      · exact .kept old
      · exact .reported oldMember own

@[simp] theorem remember_db
    (state : State)
    (op : Op)
    (reply : Reply) :
    (remember state op reply).db = state.db := by
  unfold remember
  split <;> rfl

theorem Tables.nextPeerID_not_mem
    {tables : Tables}
    (member : row ∈ tables.peers) :
    row.id ≠ tables.nextPeerID :=
  Int.ne_of_lt (lt_nextID member)

/-- The columns that no operation changes, and revocation, which is final. -/
structure PeerRecord.Continues (old row : PeerRecord) : Prop where
  id : row.id = old.id
  publicKey : row.publicKey = old.publicKey
  setupKeyID : row.setupKeyID = old.setupKeyID
  peerType : row.peerType = old.peerType
  revoked : old.revokedAt.isSome = true → row.revokedAt = old.revokedAt

theorem PeerRecord.Continues.refl
    (row : PeerRecord) :
    row.Continues row :=
  ⟨rfl, rfl, rfl, rfl, fun _ => rfl⟩

/-- The operations that may add a peer: `Enroll` of a key text without a row,
and `CreateStaticPeer`. -/
def Op.CreatesIn (op : Op) (tables : Tables) : Prop :=
  match op with
  | .enroll args _ _ => tables.peerWithKey? args.publicKey = none
  | .createStaticPeer _ _ _ _ => True
  | _ => False

/-- A row continues an old one, or is new and has newly allocated addresses. -/
theorem RowOrigin.continues_or_new
    {view : NetworkView}
    (origin : RowOrigin config view before after op reply row) :
    (∃ old ∈ before.tables.peers, old.Continues row) ∨
      op.CreatesIn before.tables ∧
        row.id = before.tables.nextPeerID ∧ row.revokedAt = none ∧
        ∃ ip ip6, NewAddresses view before.tables ip ip6 ∧
          row.assignedIP = ip ∧ row.assignedIP6 = nullable ip6 := by
  cases origin with
  | enrolled done =>
      exact Or.inr ⟨done.unknown, rfl, rfl, _, _, done.addresses, rfl, rfl⟩
  | static done =>
      exact Or.inr ⟨trivial, rfl, rfl, _, _, done.addresses, rfl, rfl⟩
  | kept member =>
      exact Or.inl ⟨_, member, rfl, rfl, rfl, rfl, fun _ => rfl⟩
  | refreshed member _ =>
      exact Or.inl ⟨_, member, rfl, rfl, rfl, rfl, fun _ => rfl⟩
  | readdressed member _ _ =>
      exact Or.inl ⟨_, member, rfl, rfl, rfl, rfl, fun _ => rfl⟩
  | moved member _ _ =>
      exact Or.inl ⟨_, member, rfl, rfl, rfl, rfl, fun _ => rfl⟩
  | revoked member unrevoked =>
      -- Only an unrevoked row is revoked, so no revocation time changes.
      refine Or.inl ⟨_, member, rfl, rfl, rfl, rfl, ?_⟩
      intro already
      simp only [PeerRecord.isUnrevoked, Bool.and_eq_true,
        Option.isNone_iff_eq_none] at unrevoked
      rw [unrevoked.2] at already
      cases already
  | cleared member _ =>
      exact Or.inl ⟨_, member, rfl, rfl, rfl, rfl, fun _ => rfl⟩
  | candidates member _ =>
      exact Or.inl ⟨_, member, rfl, rfl, rfl, rfl, fun _ => rfl⟩
  | offer member _ =>
      exact Or.inl ⟨_, member, rfl, rfl, rfl, rfl, fun _ => rfl⟩
  | exit member _ =>
      exact Or.inl ⟨_, member, rfl, rfl, rfl, rfl, fun _ => rfl⟩
  | reported member _ =>
      exact Or.inl ⟨_, member, rfl, rfl, rfl, rfl, fun _ => rfl⟩

/-- Only `RemovePeer` takes a row id away, and only its own. -/
theorem Effect.keepsID
    {view : NetworkView}
    {id : Int}
    (effect : Effect config view before after op reply)
    (member : id ∈ before.tables.peerIDs)
    (other : op ≠ .removePeer id) :
    id ∈ after.tables.peerIDs := by
  unfold Tables.peerIDs at member ⊢
  cases effect with
  | keyCreated stored => rwa [stored]
  | keyRevoked stored => rwa [stored]
  | reEnrolled done =>
      rw [done.stored]
      exact mem_map_updateWhere (fun _ => rfl) member
  | enrolledNew done =>
      rw [done.stored]
      exact List.mem_map.mpr
        ((List.mem_map.mp member).imp
          (fun _ found => ⟨List.mem_append_left _ found.1, found.2⟩))
  | staticCreated done =>
      rw [done.stored]
      exact List.mem_map.mpr
        ((List.mem_map.mp member).imp
          (fun _ found => ⟨List.mem_append_left _ found.1, found.2⟩))
  | readdressed _ stored =>
      rw [stored]
      exact mem_map_updateWhere (fun _ => rfl) member
  | @migrated _ _ _ hosts4 hosts6 _ _ enough4 enough6 stored =>
      rw [stored]
      have enough :
          (hosts4.zip hosts6).length = before.tables.peers.length := by
        rw [List.length_zip, enough4, enough6, Nat.min_self]
      have sameIDs :
          (List.zipWith PeerRecord.movedTo (hosts4.zip hosts6)
            before.tables.peers).map (·.id) =
            before.tables.peers.map (·.id) :=
        map_zipWith enough (fun _ _ => rfl)
      exact sameIDs ▸ member
  | networksLoaded _ _ _ stored => rwa [stored]
  | dnsUpdated _ stored => rwa [stored]
  | peerRevoked _ stored =>
      rw [stored]
      exact mem_map_updateWhere (fun _ => rfl) member
  | @peerRemoved removed _ stored =>
      rw [stored]
      obtain ⟨row, rowMember, rowID⟩ := List.mem_map.mp member
      have remains : row.id ≠ removed := by
        intro same
        exact other (by rw [← same, rowID])
      refine List.mem_map.mpr ⟨row.clearReferences removed, ?_, rowID⟩
      exact List.mem_map.mpr
        ⟨row, List.mem_filter.mpr ⟨rowMember, by simpa using remains⟩, rfl⟩
  | candidatesSet stored =>
      rw [stored]
      split
      · exact member
      · exact mem_map_updateWhere (fun _ => rfl) member
  | offerSet stored =>
      rw [stored]
      exact mem_map_updateWhere (fun _ => rfl) member
  | exitAssigned done =>
      rw [done.stored]
      exact mem_map_updateWhere (fun _ => rfl) member
  | ruleAdded _ stored => rwa [stored]
  | rulesImported _ stored => rwa [stored]
  | ruleDeleted stored => rwa [stored]
  | reported core =>
      rw [core.peers]
      exact mem_map_updateWhere (fun _ => rfl) member

/-- A peer that is not removed has a row that continues its old one. -/
theorem Effect.persists
    {view : NetworkView}
    {old : PeerRecord}
    (effect : Effect config view before after op reply)
    (member : old ∈ before.tables.peers)
    (other : op ≠ .removePeer old.id) :
    ∃ row ∈ after.tables.peers, old.Continues row := by
  obtain ⟨row, rowMember, rowID⟩ :=
    List.mem_map.mp (effect.keepsID (List.mem_map_of_mem member) other)
  refine ⟨row, rowMember, ?_⟩
  rcases (effect.origin rowMember).continues_or_new with
    ⟨source, sourceMember, continued⟩ | ⟨-, new, -⟩
  · have isOld : source = old :=
      before.eq_of_peerID sourceMember member (continued.id ▸ rowID)
    exact isOld ▸ continued
  · exact (Tables.nextPeerID_not_mem member (rowID.symm.trans new)).elim

end WgMesh.Store
