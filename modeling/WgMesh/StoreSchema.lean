import WgMesh.RowTables
import WgMesh.Transactions

namespace WgMesh.Store

/-!
# The control plane's database

The tables of `schema.sql` after all migrations, as far as the store reads
them.  A `DB` carries the proof that its tables satisfy the schema: primary
keys, `UNIQUE` columns, `CHECK`s and foreign keys.  A writing statement that
would break the schema fails, as it does in SQLite.
-/

open RowTables Transactions

variable {Item Value : Type}

/-- A row of `setup_keys`. -/
structure SetupKeyRow where
  id : Int
  key : String
  name : Option String
  expiresAt : Option String
  revokedAt : Option String
  maxUses : Option Int
  usesConsumed : Int
deriving DecidableEq

/-- The column `peer_type`. -/
inductive PeerType where
  | agent
  | static
deriving DecidableEq

/-- The text of the column `peer_type`. -/
def PeerType.text : PeerType → String
  | .agent => "agent"
  | .static => "static"

/-- One self-reported way to reach an agent, `proto.AgentCandidate`. -/
structure AgentCandidate where
  endpoint : String
  type : String
deriving DecidableEq

/--
A row of `peers`.

The column `candidates` holds a JSON array; the model keeps the list it
encodes, and the empty list for `NULL`.
-/
structure PeerRecord where
  id : Int
  publicKey : String
  assignedIP : String
  assignedIP6 : Option String := none
  hostname : Option String := none
  listenPort : Option Int := none
  lastSeenAt : Option String := none
  revokedAt : Option String := none
  setupKeyID : Int
  authTokenHash : Option String := none
  authTokenIssuedAt : Option String := none
  observedIP : Option String := none
  publicEndpoint : Option String := none
  peerType : PeerType := .agent
  gatewayPeerID : Option Int := none
  gatewayEndpoint : Option String := none
  privateKeyEnc : Option String := none
  candidates : List AgentCandidate := []
  natType : Option String := none
  advertiseExitNode : Bool := false
  exitNodePeerID : Option Int := none
  agentVersion : Option String := none
deriving DecidableEq

/-- The peer has not been revoked. -/
def PeerRecord.isActive (peer : PeerRecord) : Bool :=
  peer.revokedAt.isNone

/-- The column `protocol` of `acl_rules`. -/
inductive ACLProtocol where
  | any
  | tcp
  | udp
  | icmp
  | icmpv6
deriving DecidableEq

/-- The text of the column `protocol`. -/
def ACLProtocol.text : ACLProtocol → String
  | .any => "any"
  | .tcp => "tcp"
  | .udp => "udp"
  | .icmp => "icmp"
  | .icmpv6 => "icmpv6"

/-- A row of `acl_rules`; a missing peer id means any peer. -/
structure ACLRuleRow where
  id : Int
  srcPeerID : Option Int
  dstPeerID : Option Int
  name : Option String
  protocol : ACLProtocol
  portMin : Option Int
  portMax : Option Int
deriving DecidableEq

/-- The table `settings`; lists are stored as JSON arrays. -/
structure Settings where
  networkCIDR : Option String := none
  networkCIDR6 : Option String := none
  dnsEnabled : Option Bool := none
  dnsMagic : Option Bool := none
  dnsDomain : Option String := none
  dnsNameservers : Option (List String) := none
  dnsSearchDomains : Option (List String) := none
deriving DecidableEq

/-- A row of `link_stats`. -/
structure LinkStatRow where
  peerID : Int
  remotePeerID : Int
  rxBytes : Int
  txBytes : Int
  lastHandshakeAt : Option String
  updatedAt : String
deriving DecidableEq

/-- A row of `peer_paths`. -/
structure PeerPathRow where
  peerID : Int
  remotePeerID : Int
  state : String
  endpoint : Option String
  updatedAt : String
deriving DecidableEq

/-- A row of `connection_events`. -/
structure ConnectionEventRow where
  id : Int
  reporterPeerID : Int
  remotePeerID : Int
  kind : String
  fromState : Option String
  toState : String
deriving DecidableEq

/-- A row of `flows`. -/
structure FlowRow where
  id : Int
  peerID : Int
  protocol : Int
  srcIP : String
  srcPort : Int
  dstIP : String
  dstPort : Int
  txBytes : Int
  rxBytes : Int
  txPackets : Int
  rxPackets : Int
  reportedAt : String
deriving DecidableEq

/-- A row of `proxy_events`. -/
structure ProxyEventRow where
  id : Int
  peerID : Option Int
  eventAt : String
  method : Option String
  host : Option String
  path : Option String
  status : Int
  durationMS : Int
  reqBytes : Int
  respBytes : Int
  clientIP : Option String
  service : Option String
deriving DecidableEq

/-- All tables, each in the order of its row ids. -/
structure Tables where
  setupKeys : List SetupKeyRow := []
  peers : List PeerRecord := []
  aclRules : List ACLRuleRow := []
  settings : Settings := {}
  linkStats : List LinkStatRow := []
  peerPaths : List PeerPathRow := []
  connectionEvents : List ConnectionEventRow := []
  flows : List FlowRow := []
  proxyEvents : List ProxyEventRow := []
deriving DecidableEq

/-- The ids of the peers, the target of most foreign keys. -/
def Tables.peerIDs (tables : Tables) : List Int :=
  tables.peers.map (·.id)

/-- The `CHECK`s of `setup_keys`. -/
def SetupKeyRow.Checked (row : SetupKeyRow) : Prop :=
  0 ≤ row.usesConsumed ∧
    ∀ limit ∈ row.maxUses, row.usesConsumed ≤ limit ∧ 0 ≤ limit

instance (row : SetupKeyRow) : Decidable row.Checked :=
  inferInstanceAs
    (Decidable
      (0 ≤ row.usesConsumed ∧
        ∀ limit, limit ∈ row.maxUses →
          row.usesConsumed ≤ limit ∧ 0 ≤ limit))

/-- The `CHECK` of `peers`. -/
def PeerRecord.Checked (row : PeerRecord) : Prop :=
  ∀ port ∈ row.listenPort, 1 ≤ port ∧ port ≤ 65535

instance (row : PeerRecord) : Decidable row.Checked :=
  inferInstanceAs
    (Decidable (∀ port ∈ row.listenPort, 1 ≤ port ∧ port ≤ 65535))

/--
Primary keys, `UNIQUE` columns, `CHECK`s and foreign keys.

Row ids are only ever assigned by SQLite, which starts at one.
-/
structure Schema (tables : Tables) : Prop where
  keyOrder : Ascending (·.id) tables.setupKeys
  keyPositive : ∀ row ∈ tables.setupKeys, 0 < row.id
  keyUnique : (tables.setupKeys.map (·.key)).Nodup
  keyChecked : ∀ row ∈ tables.setupKeys, row.Checked
  peerOrder : Ascending (·.id) tables.peers
  peerPositive : ∀ row ∈ tables.peers, 0 < row.id
  publicKeyUnique : (tables.peers.map (·.publicKey)).Nodup
  assignedIPUnique : (tables.peers.map (·.assignedIP)).Nodup
  assignedIP6Unique : (tables.peers.filterMap (·.assignedIP6)).Nodup
  peerChecked : ∀ row ∈ tables.peers, row.Checked
  peerSetupKey :
    ∀ row ∈ tables.peers, row.setupKeyID ∈ tables.setupKeys.map (·.id)
  peerGateway :
    ∀ row ∈ tables.peers, ∀ id, id ∈ row.gatewayPeerID →
      id ∈ tables.peerIDs
  peerExitNode :
    ∀ row ∈ tables.peers, ∀ id, id ∈ row.exitNodePeerID →
      id ∈ tables.peerIDs
  ruleOrder : Ascending (·.id) tables.aclRules
  rulePeers :
    ∀ row ∈ tables.aclRules,
      (∀ id ∈ row.srcPeerID, id ∈ tables.peerIDs) ∧
        ∀ id ∈ row.dstPeerID, id ∈ tables.peerIDs
  linkPeers :
    ∀ row ∈ tables.linkStats,
      row.peerID ∈ tables.peerIDs ∧ row.remotePeerID ∈ tables.peerIDs
  linkUnique :
    (tables.linkStats.map (fun row => (row.peerID, row.remotePeerID))).Nodup
  pathPeers :
    ∀ row ∈ tables.peerPaths,
      row.peerID ∈ tables.peerIDs ∧ row.remotePeerID ∈ tables.peerIDs
  pathUnique :
    (tables.peerPaths.map (fun row => (row.peerID, row.remotePeerID))).Nodup
  eventPeers :
    ∀ row ∈ tables.connectionEvents,
      row.reporterPeerID ∈ tables.peerIDs ∧
        row.remotePeerID ∈ tables.peerIDs
  flowPeers : ∀ row ∈ tables.flows, row.peerID ∈ tables.peerIDs
  proxyPeers :
    ∀ row ∈ tables.proxyEvents, ∀ id, id ∈ row.peerID →
      id ∈ tables.peerIDs

instance (tables : Tables) : Decidable (Schema tables) :=
  decidable_of_iff
    (Ascending (·.id) tables.setupKeys ∧
      (∀ row ∈ tables.setupKeys, 0 < row.id) ∧
      (tables.setupKeys.map (·.key)).Nodup ∧
      (∀ row ∈ tables.setupKeys, row.Checked) ∧
      Ascending (·.id) tables.peers ∧
      (∀ row ∈ tables.peers, 0 < row.id) ∧
      (tables.peers.map (·.publicKey)).Nodup ∧
      (tables.peers.map (·.assignedIP)).Nodup ∧
      (tables.peers.filterMap (·.assignedIP6)).Nodup ∧
      (∀ row ∈ tables.peers, row.Checked) ∧
      (∀ row ∈ tables.peers,
        row.setupKeyID ∈ tables.setupKeys.map (·.id)) ∧
      (∀ row ∈ tables.peers, ∀ id, id ∈ row.gatewayPeerID →
        id ∈ tables.peerIDs) ∧
      (∀ row ∈ tables.peers, ∀ id, id ∈ row.exitNodePeerID →
        id ∈ tables.peerIDs) ∧
      Ascending (·.id) tables.aclRules ∧
      (∀ row ∈ tables.aclRules,
        (∀ id ∈ row.srcPeerID, id ∈ tables.peerIDs) ∧
          ∀ id ∈ row.dstPeerID, id ∈ tables.peerIDs) ∧
      (∀ row ∈ tables.linkStats,
        row.peerID ∈ tables.peerIDs ∧
          row.remotePeerID ∈ tables.peerIDs) ∧
      (tables.linkStats.map
        (fun row => (row.peerID, row.remotePeerID))).Nodup ∧
      (∀ row ∈ tables.peerPaths,
        row.peerID ∈ tables.peerIDs ∧
          row.remotePeerID ∈ tables.peerIDs) ∧
      (tables.peerPaths.map
        (fun row => (row.peerID, row.remotePeerID))).Nodup ∧
      (∀ row ∈ tables.connectionEvents,
        row.reporterPeerID ∈ tables.peerIDs ∧
          row.remotePeerID ∈ tables.peerIDs) ∧
      (∀ row ∈ tables.flows, row.peerID ∈ tables.peerIDs) ∧
      (∀ row ∈ tables.proxyEvents, ∀ id, id ∈ row.peerID →
        id ∈ tables.peerIDs))
    ⟨fun ⟨keyOrder, keyPositive, keyUnique, keyChecked, peerOrder,
        peerPositive, publicKeyUnique, assignedIPUnique,
        assignedIP6Unique, peerChecked, peerSetupKey, peerGateway,
        peerExitNode, ruleOrder, rulePeers, linkPeers, linkUnique,
        pathPeers, pathUnique, eventPeers, flowPeers, proxyPeers⟩ =>
        ⟨keyOrder, keyPositive, keyUnique, keyChecked, peerOrder,
          peerPositive, publicKeyUnique, assignedIPUnique,
          assignedIP6Unique, peerChecked, peerSetupKey, peerGateway,
          peerExitNode, ruleOrder, rulePeers, linkPeers, linkUnique,
          pathPeers, pathUnique, eventPeers, flowPeers, proxyPeers⟩,
      fun ⟨keyOrder, keyPositive, keyUnique, keyChecked, peerOrder,
        peerPositive, publicKeyUnique, assignedIPUnique,
        assignedIP6Unique, peerChecked, peerSetupKey, peerGateway,
        peerExitNode, ruleOrder, rulePeers, linkPeers, linkUnique,
        pathPeers, pathUnique, eventPeers, flowPeers, proxyPeers⟩ =>
        ⟨keyOrder, keyPositive, keyUnique, keyChecked, peerOrder,
          peerPositive, publicKeyUnique, assignedIPUnique,
          assignedIP6Unique, peerChecked, peerSetupKey, peerGateway,
          peerExitNode, ruleOrder, rulePeers, linkPeers, linkUnique,
          pathPeers, pathUnique, eventPeers, flowPeers, proxyPeers⟩⟩

/-- The columns of a peer that the schema constrains. -/
structure PeerColumns where
  id : Int
  publicKey : String
  assignedIP : String
  assignedIP6 : Option String
  listenPort : Option Int
  setupKeyID : Int
  gatewayPeerID : Option Int
  exitNodePeerID : Option Int

/-- The constrained columns of a row. -/
def PeerRecord.columns (row : PeerRecord) : PeerColumns where
  id := row.id
  publicKey := row.publicKey
  assignedIP := row.assignedIP
  assignedIP6 := row.assignedIP6
  listenPort := row.listenPort
  setupKeyID := row.setupKeyID
  gatewayPeerID := row.gatewayPeerID
  exitNodePeerID := row.exitNodePeerID

variable {tables : Tables} {compute : Tables → Value × Tables} {value : Value}

/-- An update of peers that, of the constrained columns, changes the addresses
only is legal when these stay distinct. -/
theorem Schema.updateAddresses
    {condition : PeerRecord → Bool}
    {update : PeerRecord → PeerRecord}
    (legal : Schema tables)
    (same :
      ∀ row,
        (update row).columns =
          { row.columns with
            assignedIP := (update row).assignedIP
            assignedIP6 := (update row).assignedIP6 })
    (unique :
      ((updateWhere condition update tables.peers).map
        (·.assignedIP)).Nodup)
    (unique6 :
      ((updateWhere condition update tables.peers).filterMap
        (·.assignedIP6)).Nodup) :
    Schema
      { tables with peers := updateWhere condition update tables.peers } := by
  have sameID : ∀ row, (update row).id = row.id :=
    fun row => congrArg PeerColumns.id (same row)
  have ids :
      (updateWhere condition update tables.peers).map (·.id) =
        tables.peers.map (·.id) :=
    map_updateWhere _ sameID
  have publicKeys :
      (updateWhere condition update tables.peers).map (·.publicKey) =
        tables.peers.map (·.publicKey) :=
    map_updateWhere _ (fun row => congrArg PeerColumns.publicKey (same row))
  -- A changed row has the other columns of the row it was made from.
  have source :
      ∀ {constraint : PeerColumns → Prop},
        (∀ columns ip ip6, constraint columns →
          constraint { columns with assignedIP := ip, assignedIP6 := ip6 }) →
        (∀ row ∈ tables.peers, constraint row.columns) →
          ∀ row ∈ updateWhere condition update tables.peers,
            constraint row.columns := by
    intro constraint ignores holds row member
    obtain ⟨old, oldMember, rfl⟩ := mem_updateWhere.mp member
    split
    · rw [same old]
      exact ignores _ _ _ (holds old oldMember)
    · exact holds old oldMember
  have known :
      ∀ id, id ∈ tables.peerIDs →
        id ∈ (updateWhere condition update tables.peers).map (·.id) := by
    intro id member
    rw [ids]
    exact member
  exact
    { legal with
      peerOrder := by
        refine legal.peerOrder.map fun row => ?_
        split
        · exact sameID row
        · rfl
      peerPositive :=
        @source (fun columns => 0 < columns.id) (fun _ _ _ holds => holds)
          legal.peerPositive
      publicKeyUnique := publicKeys.symm ▸ legal.publicKeyUnique
      assignedIPUnique := unique
      assignedIP6Unique := unique6
      peerChecked :=
        @source
          (fun columns =>
            ∀ port ∈ columns.listenPort, 1 ≤ port ∧ port ≤ 65535)
          (fun _ _ _ holds => holds) legal.peerChecked
      peerSetupKey :=
        @source
          (fun columns =>
            columns.setupKeyID ∈ tables.setupKeys.map SetupKeyRow.id)
          (fun _ _ _ holds => holds) legal.peerSetupKey
      peerGateway :=
        @source
          (fun columns =>
            ∀ id, id ∈ columns.gatewayPeerID →
              id ∈ (updateWhere condition update tables.peers).map
                PeerRecord.id)
          (fun _ _ _ holds => holds)
          (fun row member id reference =>
            known id (legal.peerGateway row member id reference))
      peerExitNode :=
        @source
          (fun columns =>
            ∀ id, id ∈ columns.exitNodePeerID →
              id ∈ (updateWhere condition update tables.peers).map
                PeerRecord.id)
          (fun _ _ _ holds => holds)
          (fun row member id reference =>
            known id (legal.peerExitNode row member id reference))
      rulePeers := fun row member =>
        ⟨fun id reference =>
            known id ((legal.rulePeers row member).1 id reference),
          fun id reference =>
            known id ((legal.rulePeers row member).2 id reference)⟩
      linkPeers := fun row member =>
        ⟨known _ (legal.linkPeers row member).1,
          known _ (legal.linkPeers row member).2⟩
      pathPeers := fun row member =>
        ⟨known _ (legal.pathPeers row member).1,
          known _ (legal.pathPeers row member).2⟩
      eventPeers := fun row member =>
        ⟨known _ (legal.eventPeers row member).1,
          known _ (legal.eventPeers row member).2⟩
      flowPeers := fun row member => known _ (legal.flowPeers row member)
      proxyPeers := fun row member id reference =>
        known id (legal.proxyPeers row member id reference) }

/-- An update of peers that leaves the constrained columns alone is legal. -/
theorem Schema.updatePeers
    {condition : PeerRecord → Bool}
    {update : PeerRecord → PeerRecord}
    (legal : Schema tables)
    (same : ∀ row, (update row).columns = row.columns) :
    Schema
      { tables with peers := updateWhere condition update tables.peers } := by
  have sameIP : ∀ row, (update row).assignedIP = row.assignedIP :=
    fun row => congrArg PeerColumns.assignedIP (same row)
  have sameIP6 : ∀ row, (update row).assignedIP6 = row.assignedIP6 :=
    fun row => congrArg PeerColumns.assignedIP6 (same row)
  refine legal.updateAddresses ?_ ?_ ?_
  · intro row
    rw [same, sameIP, sameIP6]
    rfl
  · rw [map_updateWhere _ sameIP]
    exact legal.assignedIPUnique
  · have column :
        (updateWhere condition update tables.peers).filterMap
            (·.assignedIP6) =
          tables.peers.filterMap (·.assignedIP6) := by
      unfold updateWhere
      rw [List.filterMap_map]
      refine List.filterMap_congr fun row _ => ?_
      by_cases changed : condition row = true
      · simp [changed, sameIP6]
      · simp [changed]
    rw [column]
    exact legal.assignedIP6Unique

/-- A database: tables that satisfy the schema. -/
structure DB where
  tables : Tables
  legal : Schema tables

/-- A new database. -/
def DB.empty : DB where
  tables := {}
  legal := by decide

@[ext] theorem DB.ext
    {first second : DB}
    (sameTables : first.tables = second.tables) :
    first = second := by
  cases first
  cases second
  subst sameTables
  rfl

/-- Replace the tables unless the schema forbids it. -/
def write
    (compute : Tables → Value × Tables)
    (db : DB) : Except String (Value × DB) :=
  if legal : Schema (compute db.tables).2 then
    .ok ((compute db.tables).1, ⟨(compute db.tables).2, legal⟩)
  else
    .error "constraint failed"

variable {before after : DB}

theorem write_eq_ok
    (written : write compute before = .ok (value, after)) :
    value = (compute before.tables).1 ∧
      after.tables = (compute before.tables).2 := by
  unfold write at written
  split at written
  · cases written
    exact ⟨rfl, rfl⟩
  · cases written

theorem write_eq
    (legal : Schema (compute before.tables).2) :
    write compute before =
      .ok ((compute before.tables).1, ⟨(compute before.tables).2, legal⟩) := by
  unfold write
  rw [dif_pos legal]

theorem Schema.withSettings
    (legal : Schema tables)
    (settings : Settings) :
    Schema { tables with settings } :=
  { legal with }

/-- The database with other settings. -/
def DB.withSettings (db : DB) (settings : Settings) : DB where
  tables := { db.tables with settings }
  legal := db.legal.withSettings settings

/-- The sentinel an error wraps, as `errors.Is` sees it. -/
inductive ErrorKind where
  | unauthorized
  | notFound
  | addressInUse
  | peerExists
  | invalid
  | other
deriving DecidableEq

/-- A store error with its full text. -/
structure StoreError where
  kind : ErrorKind
  text : String
deriving DecidableEq

/-- `fmt.Errorf("context: %w", err)`. -/
def StoreError.wrap (context : String) (error : StoreError) : StoreError :=
  { error with text := context ++ ": " ++ error.text }

/-- An error that wraps no sentinel. -/
def failure (text : String) : StoreError :=
  { kind := .other, text }

/-- A driver error with its context. -/
def refusal (context text : String) : StoreError :=
  failure (context ++ ": " ++ text)

/-- `ErrUnauthorized` with a detail for the logs. -/
def unauthorized (detail : String) : StoreError :=
  { kind := .unauthorized, text := "unauthorized: " ++ detail }

/-- `ErrNotFound` with its context. -/
def notFound (context : String) : StoreError where
  kind := .notFound
  text := context ++ ": not found or already revoked"

/-- `ErrAddressInUse` with a detail. -/
def addressInUse (detail : String) : StoreError where
  kind := .addressInUse
  text := "address already assigned: " ++ detail

/-- `ErrPeerExists` with a detail. -/
def peerExists (detail : String) : StoreError where
  kind := .peerExists
  text := "peer already exists: " ++ detail

/-- `ErrInvalid` with a detail. -/
def invalid (detail : String) : StoreError where
  kind := .invalid
  text := "invalid request: " ++ detail

/-- A store operation on the database. -/
abbrev StoreM := Action DB StoreError

/-- A `SELECT`. -/
def select (context : String) (read : Tables → Value) : StoreM Value :=
  query (refusal context) (fun db => read db.tables)

/-- An `INSERT`, `UPDATE` or `DELETE`. -/
def modify (context : String) (compute : Tables → Value × Tables) :
    StoreM Value :=
  exec (refusal context) (write compute)

/-- `BeginTx`, a body, and `Commit`. -/
def inTransaction (beginContext commitContext : String)
    (body : StoreM Value) : StoreM Value :=
  transaction (refusal beginContext) (fun _ => refusal commitContext) body

theorem select_ok
    {context : String}
    {read : Tables → Value}
    (run : Runs (select context read) before (.ok value) after) :
    after = before ∧ value = read before.tables :=
  run.query_ok

theorem readOnly_select
    (context : String)
    (read : Tables → Value) :
    ReadOnly (select context read) :=
  readOnly_query _ _

theorem modify_ok
    {context : String}
    (run : Runs (modify context compute) before (.ok value) after) :
    value = (compute before.tables).1 ∧
      after.tables = (compute before.tables).2 :=
  write_eq_ok run.exec_ok

theorem atomic_modify
    (context : String)
    (compute : Tables → Value × Tables) :
    Atomic (modify context compute) :=
  atomic_exec _ _

theorem atomic_inTransaction
    (beginContext commitContext : String)
    (body : StoreM Value) :
    Atomic (inTransaction beginContext commitContext body) :=
  atomic_transaction _ _ _

theorem inTransaction_ok
    {beginContext commitContext : String}
    {body : StoreM Value}
    (run :
      Runs (inTransaction beginContext commitContext body)
        before (.ok value) after) :
    Runs body before (.ok value) after :=
  run.transaction_ok

/-- A loop that executes one writing statement for each item. -/
def modifyEach (context : Item → String) (update : Item → Tables → Tables) :
    List Item → StoreM Unit
  | [] => pure ()
  | item :: rest => do
      modify (context item) (fun tables => ((), update item tables))
      modifyEach context update rest

/-- A loop of writing statements that succeeds has executed all of them. -/
theorem modifyEach_ok
    {context : Item → String}
    {update : Item → Tables → Tables}
    {items : List Item}
    (run : Runs (modifyEach context update items) before (.ok ()) after) :
    after.tables =
      items.foldl (fun tables item => update item tables) before.tables := by
  induction items generalizing before with
  | nil =>
      rw [run.pure_inv.2]
      rfl
  | cons item rest inductionHypothesis =>
      obtain ⟨_, middle, first, others⟩ := run.bind_ok
      rw [inductionHypothesis others, (modify_ok first).2]
      rfl

/-- `nullable`: the empty text is stored as `NULL`. -/
def nullable (text : String) : Option String :=
  if text = "" then none else some text

/-- `sql.NullInt64` of a port, valid only when positive. -/
def nullablePort (port : Int) : Option Int :=
  if 0 < port then some port else none

/-- `COALESCE(column, '')`. -/
def orEmpty (column : Option String) : String :=
  column.getD ""

theorem eq_some_orEmpty
    {column : Option String}
    (filled : orEmpty column ≠ "") :
    column = some (orEmpty column) := by
  cases column with
  | none => exact (filled rfl).elim
  | some text => rfl

/-- `COALESCE(column, 0)`. -/
def orZero (column : Option Int) : Int :=
  column.getD 0

/-- `COALESCE(new, old)`. -/
def coalesce (new old : Option Value) : Option Value :=
  new <|> old

end WgMesh.Store
