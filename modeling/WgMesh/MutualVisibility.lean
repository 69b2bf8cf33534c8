import WgMesh.ControlPlane

namespace WgMesh

/-!
# Who sees whom

The visibility query is not symmetric in its text: it looks at the gateway and
exit-node columns of one side and at the exit-node column of the other.  It is
symmetric between agents of a reachable store, because agents never have a
gateway, static peers never have an exit node, and no rule joins a peer to
itself.
-/

namespace Store

open FiniteRuns RowTables Transactions

/-- What a peer's type says about its references. -/
structure PeerRecord.Assigned (row : PeerRecord) : Prop where
  agent : row.peerType = .agent → row.gatewayPeerID = none
  static : row.peerType = .static → row.exitNodePeerID = none

/-- References follow the peer types, and rules join different peers. -/
structure DB.Assigned (db : DB) : Prop where
  rows : ∀ row ∈ db.tables.peers, row.Assigned
  rules :
    ∀ rule, rule ∈ db.tables.aclRules →
      ∀ id, rule.srcPeerID = some id → rule.dstPeerID ≠ some id

theorem clearReference_none
    {id : Int}
    {column : Option Int}
    (empty : column = none) :
    clearReference id column = none := by
  rw [empty]
  rfl

theorem clearReference_eq_some
    {id kept : Int}
    {column : Option Int}
    (filled : clearReference id column = some kept) :
    column = some kept := by
  unfold clearReference at filled
  split at filled
  · cases filled
  · exact filled

variable {config : Config} {view : NetworkView} {before after db : DB} {op : Op}
  {reply : Reply} {rule : ACLRuleRow}

/-- Every operation keeps the references in line with the peer types. -/
theorem RowOrigin.assigned
    {row : PeerRecord}
    (assigned : ∀ old ∈ before.tables.peers, old.Assigned)
    (origin : RowOrigin config view before after op reply row) :
    row.Assigned := by
  cases origin with
  | kept member => exact assigned _ member
  | refreshed member _ =>
      exact ⟨(assigned _ member).agent, (assigned _ member).static⟩
  | enrolled _ => exact ⟨fun _ => rfl, fun _ => rfl⟩
  | static _ => exact ⟨nofun, fun _ => rfl⟩
  | readdressed member _ _ =>
      exact ⟨(assigned _ member).agent, (assigned _ member).static⟩
  | moved member _ _ =>
      exact ⟨(assigned _ member).agent, (assigned _ member).static⟩
  | revoked member _ =>
      exact ⟨(assigned _ member).agent, (assigned _ member).static⟩
  | cleared member _ =>
      exact ⟨fun agent => clearReference_none ((assigned _ member).agent agent),
        fun isStatic =>
          clearReference_none ((assigned _ member).static isStatic)⟩
  | candidates member _ =>
      exact ⟨(assigned _ member).agent, (assigned _ member).static⟩
  | offer member _ =>
      exact ⟨(assigned _ member).agent, (assigned _ member).static⟩
  | exit member done =>
      -- The client of an assignment is checked to be an agent.
      refine ⟨(assigned _ member).agent, fun isStatic => ?_⟩
      cases done.agent.symm.trans isStatic
  | reported member _ =>
      exact ⟨(assigned _ member).agent, (assigned _ member).static⟩

/-- A rule after an operation was there before, or was accepted by it. -/
theorem Effect.rule_origin
    (effect : Effect config view before after op reply)
    (member : rule ∈ after.tables.aclRules) :
    rule ∈ before.tables.aclRules ∨ rule.Accepted := by
  cases effect with
  | keyCreated stored => exact Or.inl (by rwa [stored] at member)
  | keyRevoked stored => exact Or.inl (by rwa [stored] at member)
  | reEnrolled done => exact Or.inl (by rwa [done.stored] at member)
  | enrolledNew done => exact Or.inl (by rwa [done.stored] at member)
  | staticCreated done => exact Or.inl (by rwa [done.stored] at member)
  | readdressed _ stored => exact Or.inl (by rwa [stored] at member)
  | migrated _ _ _ _ stored => exact Or.inl (by rwa [stored] at member)
  | networksLoaded _ _ _ stored => exact Or.inl (by rwa [stored] at member)
  | dnsUpdated _ stored => exact Or.inl (by rwa [stored] at member)
  | peerRevoked _ stored => exact Or.inl (by rwa [stored] at member)
  | peerRemoved _ stored =>
      rw [stored] at member
      exact Or.inl (List.mem_filter.mp member).1
  | candidatesSet stored =>
      rw [stored] at member
      split at member
      · exact Or.inl member
      · exact Or.inl member
  | offerSet stored => exact Or.inl (by rwa [stored] at member)
  | exitAssigned done => exact Or.inl (by rwa [done.stored] at member)
  | ruleAdded accepted stored =>
      rw [stored] at member
      rcases List.mem_append.mp member with old | new
      · exact Or.inl old
      · exact Or.inr (List.mem_singleton.mp new ▸ accepted)
  | rulesImported accepted stored =>
      rw [stored] at member
      rcases List.mem_append.mp member with old | new
      · split at old
        · cases old
        · exact Or.inl old
      · exact Or.inr (accepted rule new)
  | ruleDeleted stored =>
      rw [stored] at member
      exact Or.inl (List.mem_filter.mp member).1
  | reported core => exact Or.inl (by rwa [core.aclRules] at member)

theorem Effect.assigned
    (effect : Effect config view before after op reply)
    (assigned : before.Assigned) :
    after.Assigned where
  rows _ member := (effect.origin member).assigned assigned.rows
  rules rule member :=
    (effect.rule_origin member).elim
      (assigned.rules rule) (fun accepted => accepted.irreflexive)

/-- A new store with any prefixes. -/
def State.empty (network : NetAddress.Prefix)
    (network6 : Option NetAddress.Prefix) : State where
  db := DB.empty
  network := network
  network6 := network6

/-- The database of a store is in order. -/
def State.Assigned (state : State) : Prop :=
  state.db.Assigned

/-- References and rules are in order in every reachable store. -/
theorem assigned_run
    (config : Config)
    (network : NetAddress.Prefix)
    (network6 : Option NetAddress.Prefix)
    (inputs : List Input) :
    ((machine config).run (.empty network network6) inputs).Assigned := by
  refine @Machine.run_invariant _ _ _ (machine config) State.Assigned
    ?_ _ ?_ inputs
  · intro state input assigned
    rcases step_cases config state input with
      ⟨error, same⟩ | ⟨reply, after, shape, effect⟩
    · rw [same]
      exact assigned
    · rw [shape, State.Assigned, remember_db]
      exact effect.assigned assigned
  · constructor
    · intro row member
      cases member
    · intro rule member
      cases member

/--
The policy connects two peers: by default, because one is the other's exit
node, or by a rule.
-/
def Tables.Connected
    (tables : Tables)
    (defaultAllow : Bool)
    (first second : PeerRecord) : Prop :=
  defaultAllow = true ∨
    first.exitNodePeerID = some second.id ∨
    second.exitNodePeerID = some first.id ∨
    ∃ rule ∈ tables.aclRules, rule.Within first.id second.id

theorem Tables.Connected.symm
    {tables : Tables}
    {defaultAllow : Bool}
    {first second : PeerRecord}
    (connected : tables.Connected defaultAllow first second) :
    tables.Connected defaultAllow second first := by
  rcases connected with allowed | exit | client | ⟨rule, member, within⟩
  · exact Or.inl allowed
  · exact Or.inr (Or.inr (Or.inl exit))
  · exact Or.inr (Or.inl client)
  · exact Or.inr (Or.inr (Or.inr ⟨rule, member, within.symm⟩))

section Queries

variable {db : DB} {defaultAllow : Bool} {self other : PeerRecord}

theorem DB.orZero_eq_id
    {peer : PeerRecord}
    (member : peer ∈ db.tables.peers)
    {column : Option Int} :
    orZero column = peer.id ↔ column = some peer.id := by
  have positive := db.legal.peerPositive peer member
  cases column with
  | none =>
      have : (0 : Int) ≠ peer.id := by omega
      simpa [orZero] using this
  | some id => simp [orZero]

theorem DB.peerWithID?_eq
    {peer : PeerRecord}
    (member : peer ∈ db.tables.peers) :
    db.tables.peerWithID? peer.id = some peer :=
  rowWith?_eq_some db.legal.peerOrder.nodup member

/-- The visibility query between two peers of the table. -/
theorem DB.isVisible_iff
    (selfMember : self ∈ db.tables.peers)
    (otherMember : other ∈ db.tables.peers) :
    db.tables.isVisible self.id defaultAllow other = true ↔
      other.isActive = true ∧ other.id ≠ self.id ∧
        (other.gatewayPeerID = some self.id ∨
          db.tables.Connected defaultAllow self other) := by
  have exit :
      other.id = orZero self.exitNodePeerID ↔
        self.exitNodePeerID = some other.id :=
    eq_comm.trans (DB.orZero_eq_id otherMember)
  simp only [Tables.isVisible, db.peerWithID?_eq selfMember,
    Option.any_some, Bool.and_eq_true, Bool.or_eq_true, beq_iff_eq,
    bne_iff_ne, Tables.ruleConnects_iff, Tables.Connected, exit]
  tauto

theorem DB.Assigned.isVisible_iff
    (assigned : db.Assigned)
    (selfMember : self ∈ db.tables.peers)
    (otherMember : other ∈ db.tables.peers)
    (agent : other.peerType = .agent)
    (active : other.isActive = true)
    (distinct : self ≠ other) :
    db.tables.isVisible self.id defaultAllow other = true ↔
      db.tables.Connected defaultAllow self other := by
  have noGateway := (assigned.rows other otherMember).agent agent
  have otherID : other.id ≠ self.id := fun same =>
    distinct (db.eq_of_peerID selfMember otherMember same.symm)
  rw [db.isVisible_iff selfMember otherMember, noGateway]
  simp [active, otherID]

end Queries

/-- The ids of the peers that a peer sees under default-deny. -/
def Tables.seenUnderDeny (tables : Tables) (selfID : Int) : List Int :=
  (tables.visibleTo selfID false).map (·.id)

/-- A peer sees the peers for which the visibility query holds. -/
theorem Tables.mem_seenUnderDeny
    {tables : Tables}
    {selfID id : Int} :
    id ∈ tables.seenUnderDeny selfID ↔
      ∃ peer ∈ tables.peers, peer.id = id ∧
        tables.isVisible selfID false peer = true := by
  constructor
  · intro member
    obtain ⟨o, visible, shape⟩ := List.mem_map.mp member
    obtain ⟨peer, peerMember, seen, rfl⟩ := mem_visibleTo.mp visible
    exact ⟨peer, peerMember, shape, seen⟩
  · rintro ⟨peer, peerMember, rfl, seen⟩
    exact List.mem_map_of_mem (mem_visibleTo.mpr ⟨peer, peerMember, seen, rfl⟩)

/-- An agent that a peer sees is connected to it. -/
theorem DB.Assigned.connected_of_seen
    (assigned : db.Assigned)
    {self other : PeerRecord}
    (selfMember : self ∈ db.tables.peers)
    (otherMember : other ∈ db.tables.peers)
    (agent : other.peerType = .agent)
    (seen : other.id ∈ db.tables.seenUnderDeny self.id) :
    db.tables.Connected false self other := by
  obtain ⟨row, rowMember, rowID, visible⟩ := Tables.mem_seenUnderDeny.mp seen
  have isOther := db.eq_of_peerID rowMember otherMember rowID
  subst isOther
  rcases ((db.isVisible_iff selfMember otherMember).mp visible).2.2 with
    gateway | connected
  · cases ((assigned.rows row otherMember).agent agent).symm.trans gateway
  · exact connected

/-- Removing a peer makes no two remaining peers visible to each other. -/
theorem Effect.removal_reveals_nothing
    {removed : Int}
    (effect : Effect config view before after (.removePeer removed) reply)
    {self other : Int}
    (remaining : self ∈ after.tables.peerIDs)
    (seen : other ∈ after.tables.seenUnderDeny self) :
    other ∈ before.tables.seenUnderDeny self := by
  obtain ⟨row, rowMember, rfl, visible⟩ := Tables.mem_seenUnderDeny.mp seen
  obtain ⟨selfRow, selfMember, rfl⟩ := List.mem_map.mp remaining
  cases effect with
  | peerRemoved _ stored =>
      obtain ⟨active, distinct, reason⟩ :=
        (after.isVisible_iff selfMember rowMember).mp visible
      rw [stored] at rowMember selfMember
      obtain ⟨old, oldRemaining, rfl⟩ := List.mem_map.mp rowMember
      obtain ⟨oldSelf, selfRemaining, rfl⟩ := List.mem_map.mp selfMember
      have oldMember := (List.mem_filter.mp oldRemaining).1
      have oldSelfMember := (List.mem_filter.mp selfRemaining).1
      refine Tables.mem_seenUnderDeny.mpr ⟨old, oldMember, rfl, ?_⟩
      refine (before.isVisible_iff oldSelfMember oldMember).mpr
        ⟨active, distinct, ?_⟩
      rcases reason with gateway | allowed | exit | client | rule
      · exact Or.inl (clearReference_eq_some gateway)
      · cases allowed
      · exact Or.inr (Or.inr (Or.inl (clearReference_eq_some exit)))
      · exact Or.inr (Or.inr (Or.inr
          (Or.inl (clearReference_eq_some client))))
      · obtain ⟨connecting, member, within⟩ := rule
        rw [stored] at member
        exact Or.inr (Or.inr (Or.inr (Or.inr
          ⟨connecting, (List.mem_filter.mp member).1, within⟩)))

theorem DB.not_named_of_unused
    (member : rule ∈ db.tables.aclRules)
    {id : Int}
    (unused : id ∉ db.tables.peerIDs) :
    rule.srcPeerID ≠ some id ∧ rule.dstPeerID ≠ some id :=
  ⟨fun source => unused ((db.legal.rulePeers rule member).1 id source),
    fun destination =>
      unused ((db.legal.rulePeers rule member).2 id destination)⟩

/-- A rule that joins different peers, one of them unused, has a wildcard. -/
theorem DB.wildcard_of_within_unused
    (member : rule ∈ db.tables.aclRules)
    (irreflexive : ∀ id, rule.srcPeerID = some id → rule.dstPeerID ≠ some id)
    {unused other : Int}
    (notUsed : unused ∉ db.tables.peerIDs)
    (within : rule.Within unused other) :
    rule.srcPeerID = none ∨ rule.dstPeerID = none := by
  obtain ⟨notSource, notDestination⟩ := DB.not_named_of_unused member notUsed
  cases source : rule.srcPeerID with
  | none => exact Or.inl rfl
  | some first =>
      cases destination : rule.dstPeerID with
      | none => exact Or.inr rfl
      | some second =>
          have isOther : first = other :=
            (within.1 first source).resolve_left
              (fun same => notSource (same ▸ source))
          have alsoOther : second = other :=
            (within.2 second destination).resolve_left
              (fun same => notDestination (same ▸ destination))
          subst isOther alsoOther
          exact (irreflexive _ source destination).elim

/--
Right after its enrolment a new agent is connected to another agent only by a
rule with a wildcard, also when its row id was used before.
-/
theorem Effect.newcomer_connected
    {args : EnrollArgs}
    {now : CivilTime.Instant}
    {draw : Draw}
    {result : EnrollResult}
    (effect :
      Effect config view before after
        (.enroll args now draw) (.enrolled result))
    (assigned : before.Assigned)
    (new : result.peer.id ∉ before.tables.peerIDs)
    {other : PeerRecord}
    (otherMember : other ∈ after.tables.peers)
    (agent : other.peerType = .agent)
    (distinct : other.id ≠ result.peer.id)
    (seen :
      other.id ∈ after.tables.seenUnderDeny result.peer.id ∨
        result.peer.id ∈ after.tables.seenUnderDeny other.id) :
    ∃ rule, rule ∈ after.tables.aclRules ∧
      rule.Within result.peer.id other.id ∧
        (rule.srcPeerID = none ∨ rule.dstPeerID = none) := by
  cases effect with
  | @reEnrolled _ _ _ _ peer _ _ done =>
      rw [done.returned] at new
      exact (new (List.mem_map_of_mem (mem_of_rowWith? done.found).1)).elim
  | @enrolledNew _ _ _ _ key token ip ip6 done =>
      rw [done.returned] at new distinct seen ⊢
      dsimp only [createdRow] at new distinct seen ⊢
      have newMember :
          newPeer args key.id ip ip6 (config.hashToken token)
            (CivilTime.format now) before.tables.nextPeerID ∈
              after.tables.peers := by
        rw [done.stored]
        exact List.mem_append_right _ (List.mem_singleton_self _)
      have oldMember : other ∈ before.tables.peers := by
        rw [done.stored] at otherMember
        rcases List.mem_append.mp otherMember with old | isNew
        · exact old
        · rw [List.mem_singleton.mp isNew] at distinct
          exact (distinct rfl).elim
      have connected :
          after.tables.Connected false
            (newPeer args key.id ip ip6 (config.hashToken token)
              (CivilTime.format now) before.tables.nextPeerID) other := by
        have afterAssigned :=
          (Effect.enrolledNew done).assigned assigned
        rcases seen with forward | backward
        · exact afterAssigned.connected_of_seen newMember otherMember agent
            forward
        · exact (afterAssigned.connected_of_seen otherMember newMember rfl
            backward).symm
      rcases connected with allowed | exit | client | ⟨rule, member, within⟩
      · cases allowed
      · cases exit
      · exact (new
          (before.legal.peerExitNode other oldMember _ client)).elim
      · have known : rule ∈ before.tables.aclRules := by
          rwa [done.stored] at member
        exact ⟨rule, member, within,
          DB.wildcard_of_within_unused known
            (assigned.rules rule known) new within⟩

end Store

namespace Server

open FiniteRuns PairKeys Store Transactions

/-- The part of a report's answer that is built from the visibility query. -/
def ReportResponse.payload (response : ReportResponse) : SyncPayload where
  peers := response.peers
  gatewayRoutes := response.gatewayRoutes
  exitNodeActive := response.exitNodeActive

/-- An answered report carries the payload of the reporting peer's row. -/
theorem handleReport_payload
    {config : Config}
    {relay : Relay}
    {http : Request}
    {body : Body ReportRequest}
    {times : ReportTimes}
    {before after : State}
    {response : ReportResponse}
    (run :
      Runs (handleReport config relay http body times)
        before (.ok (.report response)) after) :
    ∃ peer, peer ∈ after.store.db.tables.peers ∧
      response.payload =
        reportPayload config relay after.punchEpochs after.store.db.tables
          peer := by
  rcases handleReport_inv run with
    ⟨⟨_, _, shape⟩, -⟩ | ⟨report, token, id, -, handled⟩
  · cases shape
  obtain ⟨db, -, ⟨⟨_, _, shape⟩, -⟩ |
    ⟨self, others, epochs, visible, -, rfl, answered⟩⟩ := handled.committed
  · cases shape
  rcases answered with ⟨_, _, shape⟩ | ⟨dns, acl, shape, -⟩
  · cases shape
  · cases shape
    obtain ⟨-, ⟨peer, found, rfl⟩, rfl⟩ := peersForID_ok visible
    obtain ⟨member, rfl⟩ := RowTables.mem_of_rowWith? found
    exact ⟨peer, member, rfl⟩

/-- A payload has an entry for a peer. -/
def SyncPayload.Lists (payload : SyncPayload) (peer : PeerRecord) : Prop :=
  ∃ entry ∈ payload.peers, entry.publicKey = peer.publicKey

/-- A payload marks a peer as the exit node. -/
def SyncPayload.MarksExit (payload : SyncPayload) (peer : PeerRecord) :
    Prop :=
  ∃ entry ∈ payload.peers, entry.publicKey = peer.publicKey ∧
    entry.exitNode = true

section Entries

variable
  {config : Config}
  {relay : Relay}
  {epochs : PunchEpochs}
  {db : DB}
  {self other : PeerRecord}
  {entry : PeerConfigResponse}

@[simp] theorem peerEntry_publicKey
    (self : PeerRow)
    (others : List PeerRow)
    (o : PeerRow) :
    (peerEntry config relay epochs self others o).publicKey =
      o.publicKey := by
  unfold peerEntry
  dsimp only
  split <;> rfl

@[simp] theorem peerEntry_presharedKey
    (self : PeerRow)
    (others : List PeerRow)
    (o : PeerRow) :
    (peerEntry config relay epochs self others o).presharedKey =
      some (derivePairKey config.hkdf self.publicKey o.publicKey).text := by
  unfold peerEntry
  dsimp only
  split <;> rfl

/-- Only agents are marked as exit nodes. -/
@[simp] theorem peerEntry_exitNode
    (self : PeerRow)
    (others : List PeerRow)
    (o : PeerRow) :
    (peerEntry config relay epochs self others o).exitNode =
      (o.peerType != some .static && isExitNodeOf self o) := by
  unfold peerEntry
  dsimp only
  split
  · rename_i isStatic
    simp [isStatic]
  · rename_i notStatic
    simp [notStatic]

/-- The entries of a payload are those of the visible peers. -/
theorem mem_reportPayload :
    entry ∈ (reportPayload config relay epochs db.tables self).peers ↔
      ∃ peer, peer ∈ db.tables.peers ∧
        db.tables.isVisible self.id config.store.defaultAllow peer = true ∧
        hasEntry self.selfRow peer.visibleRow = true ∧
        entry =
          peerEntry config relay epochs self.selfRow
            (db.tables.visibleTo self.id config.store.defaultAllow)
            peer.visibleRow := by
  constructor
  · intro member
    obtain ⟨o, kept, rfl⟩ := List.mem_map.mp member
    obtain ⟨visible, has⟩ := List.mem_filter.mp kept
    obtain ⟨peer, peerMember, seen, rfl⟩ := mem_visibleTo.mp visible
    exact ⟨peer, peerMember, seen, has, rfl⟩
  · rintro ⟨peer, peerMember, seen, has, rfl⟩
    exact List.mem_map_of_mem
      (List.mem_filter.mpr
        ⟨mem_visibleTo.mpr ⟨peer, peerMember, seen, rfl⟩, has⟩)

theorem hasEntry_of_agent
    (agent : other.peerType = .agent)
    (self : PeerRow) :
    hasEntry self other.visibleRow = true := by
  simp [hasEntry, isRoutedMobile, PeerRecord.visibleRow, agent]

/-- An agent is listed exactly for those who see it. -/
theorem lists_iff_visible
    (otherMember : other ∈ db.tables.peers)
    (agent : other.peerType = .agent) :
    (reportPayload config relay epochs db.tables self).Lists other ↔
      db.tables.isVisible self.id config.store.defaultAllow other = true := by
  constructor
  · rintro ⟨entry, member, named⟩
    obtain ⟨peer, peerMember, seen, -, rfl⟩ := mem_reportPayload.mp member
    rw [peerEntry_publicKey] at named
    have isOther := db.eq_of_publicKey peerMember otherMember named
    exact isOther ▸ seen
  · intro seen
    exact ⟨_,
      mem_reportPayload.mpr
        ⟨other, otherMember, seen, hasEntry_of_agent agent _, rfl⟩,
      peerEntry_publicKey _ _ _⟩

theorem presharedKey_of_listed
    (member : entry ∈ (reportPayload config relay epochs db.tables self).peers)
    (named : entry.publicKey = other.publicKey) :
    entry.presharedKey =
      some (derivePairKey config.hkdf self.publicKey other.publicKey).text := by
  obtain ⟨peer, -, -, -, rfl⟩ := mem_reportPayload.mp member
  rw [peerEntry_publicKey] at named
  rw [peerEntry_presharedKey, named]
  rfl

/-- A row reads a peer as its exit node when it stores its id. -/
theorem isExitNodeOf_iff
    (otherMember : other ∈ db.tables.peers) :
    isExitNodeOf self.selfRow other.visibleRow = true ↔
      self.exitNodePeerID = some other.id := by
  have positive := db.legal.peerPositive other otherMember
  have stored :
      orZero self.exitNodePeerID = other.id ↔
        self.exitNodePeerID = some other.id :=
    DB.orZero_eq_id otherMember
  simp only [isExitNodeOf, PeerRecord.selfRow, PeerRecord.visibleRow,
    Bool.and_eq_true, bne_iff_ne, beq_iff_eq]
  rw [@eq_comm _ other.id, stored]
  constructor
  · exact fun both => both.2
  · intro exit
    refine ⟨?_, exit⟩
    rw [stored.mpr exit]
    omega

/-- An agent is marked as exit node by those who store its id. -/
theorem marksExit_iff
    (selfMember : self ∈ db.tables.peers)
    (otherMember : other ∈ db.tables.peers)
    (agent : other.peerType = .agent)
    (active : other.isActive = true) :
    (reportPayload config relay epochs db.tables self).MarksExit other ↔
      self.exitNodePeerID = some other.id ∧ self.id ≠ other.id := by
  constructor
  · rintro ⟨entry, member, named, marked⟩
    obtain ⟨peer, peerMember, seen, -, rfl⟩ := mem_reportPayload.mp member
    rw [peerEntry_publicKey] at named
    have isOther := db.eq_of_publicKey peerMember otherMember named
    subst isOther
    rw [peerEntry_exitNode, Bool.and_eq_true] at marked
    exact ⟨(isExitNodeOf_iff otherMember).mp marked.2,
      ((db.isVisible_iff selfMember otherMember).mp seen).2.1.symm⟩
  · rintro ⟨exit, distinct⟩
    have seen :
        db.tables.isVisible self.id config.store.defaultAllow other = true :=
      (db.isVisible_iff selfMember otherMember).mpr
        ⟨active, distinct.symm, Or.inr (Or.inr (Or.inl exit))⟩
    refine ⟨_,
      mem_reportPayload.mpr
        ⟨other, otherMember, seen, hasEntry_of_agent agent _, rfl⟩,
      peerEntry_publicKey _ _ _, ?_⟩
    rw [peerEntry_exitNode, (isExitNodeOf_iff otherMember).mpr exit]
    simp [PeerRecord.visibleRow, agent]

/-- A peer is told to forward when an active peer stores its id. -/
theorem exitNodeActive_iff
    (selfMember : self ∈ db.tables.peers) :
    (reportPayload config relay epochs db.tables self).exitNodeActive = true ↔
      ∃ client ∈ db.tables.peers, client.isActive = true ∧
        client.exitNodePeerID = some self.id ∧ client.id ≠ self.id := by
  simp only [reportPayload, syncPayload, exitNodeActiveFor,
    List.any_eq_true, beq_iff_eq]
  constructor
  · rintro ⟨o, visible, reads⟩
    obtain ⟨client, clientMember, seen, rfl⟩ := mem_visibleTo.mp visible
    obtain ⟨active, distinct, -⟩ :=
      (db.isVisible_iff selfMember clientMember).mp seen
    exact ⟨client, clientMember, active,
      (DB.orZero_eq_id selfMember).mp reads, distinct⟩
  · rintro ⟨client, clientMember, active, exit, distinct⟩
    have seen :
        db.tables.isVisible self.id config.store.defaultAllow client = true :=
      (db.isVisible_iff selfMember clientMember).mpr
        ⟨active, distinct, Or.inr (Or.inr (Or.inr (Or.inl exit)))⟩
    exact ⟨client.visibleRow,
      mem_visibleTo.mpr ⟨client, clientMember, seen, rfl⟩,
      (DB.orZero_eq_id selfMember).mpr exit⟩

end Entries

/-- An unrevoked agent of the table. -/
structure ActiveAgent (db : DB) (row : PeerRecord) : Prop where
  member : row ∈ db.tables.peers
  agent : row.peerType = .agent
  active : row.isActive = true

/-- Two entries carry one preshared key. -/
def SamePresharedKey (first second : PeerConfigResponse) : Prop :=
  ∃ key : Key, first.presharedKey = some key.text ∧
    second.presharedKey = some key.text

/--
What the payloads of one store state say fits together, over every reachable
state: two agents list each other, with one preshared key, exactly when the
policy connects them; an agent is told to forward exactly when some agent's
payload marks it as exit node; under default-deny a removal reveals nothing;
and a new agent is revealed only by rules with a wildcard.
-/
theorem payloads_agree
    (config : Config)
    (network : NetAddress.Prefix)
    (network6 : Option NetAddress.Prefix)
    (inputs : List Store.Input)
    (state : Store.State)
    (reached :
      state =
        (Store.machine config.store).run (.empty network network6) inputs)
    (relay relay' : Relay)
    (epochs epochs' : PunchEpochs) :
    (∀ first second,
      ActiveAgent state.db first → ActiveAgent state.db second →
      first ≠ second →
        ((reportPayload config relay epochs state.db.tables first).Lists
            second ↔
          state.db.tables.Connected config.store.defaultAllow
            first second) ∧
        ((reportPayload config relay' epochs' state.db.tables second).Lists
            first ↔
          state.db.tables.Connected config.store.defaultAllow
            first second) ∧
        ∀ entry back,
          entry ∈
            (reportPayload config relay epochs state.db.tables first).peers →
          entry.publicKey = second.publicKey →
          back ∈
            (reportPayload config relay' epochs' state.db.tables
              second).peers →
          back.publicKey = first.publicKey →
            SamePresharedKey entry back) ∧
      (∀ self, ActiveAgent state.db self →
        ((reportPayload config relay epochs state.db.tables
            self).exitNodeActive = true ↔
          ∃ client, ActiveAgent state.db client ∧
            (reportPayload config relay' epochs' state.db.tables
              client).MarksExit self)) ∧
      (∀ removed answers next,
        next =
          ((Store.machine config.store).step state
            ⟨.removePeer removed, answers⟩).2 →
        ∀ self other, self ∈ next.db.tables.peerIDs →
          other ∈ next.db.tables.seenUnderDeny self →
            other ∈ state.db.tables.seenUnderDeny self) ∧
      ∀ args now draw answers result next,
        (Store.machine config.store).step state
            ⟨.enroll args now draw, answers⟩ =
          (.ok (.enrolled result), next) →
        result.peer.id ∉ state.db.tables.peerIDs →
        ∀ other ∈ next.db.tables.peers, other.peerType = .agent →
          other.id ≠ result.peer.id →
          (other.id ∈ next.db.tables.seenUnderDeny result.peer.id ∨
            result.peer.id ∈ next.db.tables.seenUnderDeny other.id) →
            ∃ rule, rule ∈ next.db.tables.aclRules ∧
              rule.Within result.peer.id other.id ∧
                (rule.srcPeerID = none ∨ rule.dstPeerID = none) := by
  have assigned : state.db.Assigned := by
    rw [reached]
    exact assigned_run config.store network network6 inputs
  refine ⟨?_, ?_, ?_, ?_⟩
  · intro first second isFirst isSecond distinct
    refine ⟨?_, ?_, ?_⟩
    · rw [lists_iff_visible isSecond.member isSecond.agent,
        assigned.isVisible_iff isFirst.member isSecond.member
          isSecond.agent isSecond.active distinct]
    · rw [lists_iff_visible isFirst.member isFirst.agent,
        assigned.isVisible_iff isSecond.member isFirst.member
          isFirst.agent isFirst.active distinct.symm]
      exact ⟨Tables.Connected.symm, Tables.Connected.symm⟩
    · intro entry back entryMember entryKey backMember backKey
      refine ⟨_, presharedKey_of_listed entryMember entryKey, ?_⟩
      rw [derivePairKey_comm]
      exact presharedKey_of_listed backMember backKey
  · intro self isSelf
    rw [exitNodeActive_iff isSelf.member]
    constructor
    · rintro ⟨client, clientMember, active, exit, distinct⟩
      -- Static peers have no exit node, so the client is an agent.
      have agent : client.peerType = .agent := by
        cases type : client.peerType with
        | agent => rfl
        | static =>
            have none := (assigned.rows client clientMember).static type
            cases none.symm.trans exit
      exact ⟨client, ⟨clientMember, agent, active⟩,
        (marksExit_iff clientMember isSelf.member isSelf.agent
          isSelf.active).mpr ⟨exit, distinct⟩⟩
    · rintro ⟨client, isClient, marked⟩
      obtain ⟨exit, distinct⟩ :=
        (marksExit_iff isClient.member isSelf.member isSelf.agent
          isSelf.active).mp marked
      exact ⟨client, isClient.member, isClient.active, exit, distinct⟩
  · rintro removed answers next rfl self other remaining seen
    rcases step_cases config.store state ⟨.removePeer removed, answers⟩ with
      ⟨error, same⟩ | ⟨reply, after, shape, effect⟩
    · rwa [same] at seen
    · rw [shape] at remaining seen
      rw [remember_db] at remaining seen
      exact effect.removal_reveals_nothing remaining seen
  · intro args now draw answers result next stepped new other otherMember
      agent distinct seen
    rcases step_cases config.store state ⟨.enroll args now draw, answers⟩
      with ⟨error, same⟩ | ⟨reply, after, shape, effect⟩
    · cases stepped.symm.trans same
    · obtain ⟨replied, rfl⟩ := Prod.mk.inj (stepped.symm.trans shape)
      cases Except.ok.inj replied
      rw [remember_db] at otherMember seen ⊢
      exact effect.newcomer_connected assigned new otherMember agent
        distinct seen

/-- Two agents enrol, and the first uses the second as its exit node. -/
def exitPair : List Store.Input :=
  [.createSetupKey "" 5 0 0 (.ok "key"),
    .enroll ⟨"key", "client", "", 0, "", ""⟩ 0 (.ok "first"),
    .enroll ⟨"key", "exit", "", 0, "", ""⟩ 0 (.ok "second"),
    .setAdvertiseExitNode 2 true,
    .setExitNode 1 2].map Op.accepted

/-- The store after that run, under default-deny. -/
def exitPairStore : Store.State :=
  (Store.machine (.sample false)).run
    (.empty defaultNetwork (some defaultNetwork6)) exitPair

/-- The row of the client. -/
def exitClient : PeerRecord where
  id := 1
  publicKey := "client"
  assignedIP := "100.64.0.1"
  assignedIP6 := some "fd00:100:64::1"
  setupKeyID := 1
  authTokenHash := some "hash of first"
  authTokenIssuedAt := some "0000-01-01T00:00:00.000Z"
  exitNodePeerID := some 2

/-- The row of its exit node. -/
def exitNode : PeerRecord where
  id := 2
  publicKey := "exit"
  assignedIP := "100.64.0.2"
  assignedIP6 := some "fd00:100:64::2"
  setupKeyID := 1
  authTokenHash := some "hash of second"
  authTokenIssuedAt := some "0000-01-01T00:00:00.000Z"
  advertiseExitNode := true

/-- The client and its exit node list each other, without any rule. -/
theorem payloads_agree_exitPair :
    exitPairStore.db.tables.aclRules = [] ∧
      (reportPayload (.sample false) (fun _ => none) (fun _ => {})
        exitPairStore.db.tables exitClient).Lists exitNode ∧
      (reportPayload (.sample false) (fun _ => none) (fun _ => {})
        exitPairStore.db.tables exitNode).Lists exitClient ∧
      (reportPayload (.sample false) (fun _ => none) (fun _ => {})
        exitPairStore.db.tables exitNode).exitNodeActive = true := by
  have agree :=
    payloads_agree (.sample false) defaultNetwork (some defaultNetwork6)
      exitPair exitPairStore rfl (fun _ => none) (fun _ => none)
      (fun _ => {}) (fun _ => {})
  have rows : exitPairStore.db.tables.peers = [exitClient, exitNode] := by
    decide +kernel
  have isClient : ActiveAgent exitPairStore.db exitClient :=
    ⟨by simp [rows], rfl, rfl⟩
  have isExit : ActiveAgent exitPairStore.db exitNode :=
    ⟨by simp [rows], rfl, rfl⟩
  obtain ⟨listed, back, -⟩ :=
    agree.1 exitClient exitNode isClient isExit (by decide)
  refine ⟨by decide +kernel, listed.mpr (Or.inr (Or.inl rfl)),
    back.mpr (Or.inr (Or.inl rfl)), ?_⟩
  exact (agree.2.1 exitNode isExit).mpr
    ⟨exitClient, isClient,
      (marksExit_iff isClient.member isExit.member rfl rfl).mpr
        ⟨rfl, by decide⟩⟩

end Server

end WgMesh
