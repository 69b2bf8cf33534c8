import WgMesh.StorePolicy

namespace WgMesh.Store

/-!
# Reports

Token authentication and the transaction that ingests a telemetry report.
Only the reporter's own row changes among the peers; counters, paths, flows
and access-log entries go to tables that no configuration is built from.
-/

open CivilTime RowTables TextScan Transactions

variable {Item Value : Type}

/-- `natType`: an unknown classification counts as not reported. -/
def natType (v : String) : String :=
  if v = "easy" ∨ v = "hard" ∨ v = "static" then v else ""

/--
`agentVersion`.  A text with a rune outside printable ASCII is dropped in any
case, so its length in runes is its length in bytes where it matters.
-/
def agentVersion (v : String) : String :=
  if v = "" ∨ 64 < v.length then ""
  else if v.toList.any (fun c => c.toNat ≤ 32 || 126 < c.toNat) then ""
  else v

/-- `proto.PeerCounter`. -/
structure PeerCounter where
  peerPublicKey : String
  rxBytes : Int
  txBytes : Int
  lastHandshakeAt : String
deriving DecidableEq

/-- `proto.PeerPathState`. -/
structure PeerPathState where
  peerPublicKey : String
  state : String
  endpoint : String
deriving DecidableEq

/-- `proto.FlowRecord`. -/
structure FlowRecord where
  protocol : Int
  srcIP : String
  srcPort : Int
  dstIP : String
  dstPort : Int
  txBytes : Int
  rxBytes : Int
  txPackets : Int
  rxPackets : Int
deriving DecidableEq

/-- `proto.ProxyEvent`. -/
structure ProxyEvent where
  eventAt : String
  method : String
  host : String
  path : String
  status : Int
  durationMS : Int
  reqBytes : Int
  respBytes : Int
  clientIP : String
  service : String
deriving DecidableEq

/-- `proto.ReportRequest`. -/
structure ReportRequest where
  publicEndpoint : String := ""
  candidates : List AgentCandidate := []
  natType : String := ""
  counters : List PeerCounter := []
  flows : List FlowRecord := []
  pathStates : List PeerPathState := []
  proxyEvents : List ProxyEvent := []
  advertiseExitNode : Bool := false
  version : String := ""
deriving DecidableEq

/-- The token of a row is older than the configured lifetime. -/
def tokenExpired (config : Config) (peer : PeerRecord) (now : Instant) :
    Bool :=
  match peer.authTokenIssuedAt with
  | none => false
  | some text =>
      match parse text with
      | none => false
      | some issued =>
          decide (0 < config.tokenTTL) &&
            decide (config.tokenTTL < now - issued)

/-- The row an auth token belongs to. -/
def Tables.peerWithToken? (tables : Tables) (tokenHash : String) :
    Option PeerRecord :=
  tables.peers.find? fun row =>
    row.authTokenHash == some tokenHash && row.isActive

/-- `AuthenticatePeer`; the lifetime is left out of the expiry text. -/
def authenticatePeer (config : Config) (token : String) (now : Instant) :
    StoreM (Int × String) := do
  let found ← select "authenticate peer"
    (fun tables => tables.peerWithToken? (config.hashToken token))
  match found with
  | none => raise (unauthorized "unknown or revoked peer token")
  | some peer =>
      if tokenExpired config peer now then
        raise
          (unauthorized
            ("token expired (issued " ++ orEmpty peer.authTokenIssuedAt ++
              ")"))
      else
        pure (peer.id, peer.assignedIP)

/-- The `SET` clause of a report. -/
def PeerRecord.reported
    (observedIP : String)
    (report : ReportRequest)
    (now : String)
    (peer : PeerRecord) : PeerRecord :=
  { peer with
    lastSeenAt := some now
    observedIP := coalesce (nullable observedIP) peer.observedIP
    publicEndpoint :=
      coalesce (nullable report.publicEndpoint) peer.publicEndpoint
    candidates :=
      if report.candidates = [] then peer.candidates
      else report.candidates
    natType := coalesce (nullable (Store.natType report.natType)) peer.natType
    agentVersion :=
      coalesce (nullable (Store.agentVersion report.version))
        peer.agentVersion
    advertiseExitNode := report.advertiseExitNode }

/-- `peerIDsByPublicKey`, looked up at one key. -/
def idByKey (ids : List (String × Int)) (publicKey : String) : Option Int :=
  ids.lookup publicKey

/-- `connectionEventKind`. -/
def connectionEventKind (prev next : String) : Option String :=
  let isRelay := fun state =>
    state = "quic-relay" ∨ state = "ws-relay" ∨ state = "udp-relay"
  if prev = next then none
  else if next = "direct" then some "direct"
  else if isRelay next then
    if isRelay prev then none else some "relay"
  else none

/-- An integer of 64 bits. -/
def IsInt64 (n : Int) : Prop :=
  -9223372036854775808 ≤ n ∧ n < 9223372036854775808

instance (n : Int) : Decidable (IsInt64 n) :=
  inferInstanceAs (Decidable (_ ∧ _))

/-- The double nearest to an integer; of two, the even one. -/
def toDouble (n : Int) : Int :=
  let ulp : Int := 2 ^ (n.natAbs.log2 - 52)
  let rest := n % ulp
  let low := n / ulp
  if 2 * rest < ulp ∨ 2 * rest = ulp ∧ low % 2 = 0 then low * ulp
  else (low + 1) * ulp

/-- The `+` of SQLite: integers are added as such where their sum is one of 64
bits, and as doubles otherwise. -/
def sqlAdd (first second : Int) : Int :=
  if IsInt64 first ∧ IsInt64 second ∧ IsInt64 (first + second) then
    first + second
  else
    toDouble (toDouble first + toDouble second)

/-- The accumulating upsert into `link_stats`. -/
def Tables.addLinkStat (row : LinkStatRow) (tables : Tables) : Tables :=
  { tables with
    linkStats :=
      upsert (fun known => (known.peerID, known.remotePeerID))
        (fun known =>
          { known with
            rxBytes := sqlAdd known.rxBytes row.rxBytes
            txBytes := sqlAdd known.txBytes row.txBytes
            lastHandshakeAt :=
              coalesce row.lastHandshakeAt known.lastHandshakeAt
            updatedAt := row.updatedAt })
        row tables.linkStats }

/-- The replacing upsert into `peer_paths`. -/
def Tables.putPath (row : PeerPathRow) (tables : Tables) : Tables :=
  { tables with
    peerPaths :=
      upsert (fun known => (known.peerID, known.remotePeerID))
        (fun known =>
          { known with
            state := row.state
            endpoint := row.endpoint
            updatedAt := row.updatedAt })
        row tables.peerPaths }

/-- Add a connection event. -/
def Tables.addConnectionEvent
    (reporter remote : Int)
    (kind : String)
    (fromState : Option String)
    (toState : String)
    (tables : Tables) : Tables :=
  { tables with
    connectionEvents :=
      tables.connectionEvents ++
        [{ id := nextID (·.id) tables.connectionEvents
           reporterPeerID := reporter
           remotePeerID := remote
           kind
           fromState
           toState }] }

/-- Add a flow. -/
def Tables.addFlow (peerID : Int) (now : String) (flow : FlowRecord)
    (tables : Tables) : Tables :=
  { tables with
    flows :=
      tables.flows ++
        [{ id := nextID (·.id) tables.flows
           peerID
           protocol := flow.protocol
           srcIP := flow.srcIP
           srcPort := flow.srcPort
           dstIP := flow.dstIP
           dstPort := flow.dstPort
           txBytes := flow.txBytes
           rxBytes := flow.rxBytes
           txPackets := flow.txPackets
           rxPackets := flow.rxPackets
           reportedAt := now }] }

/-- Add an access-log entry; one without a time gets the report's. -/
def Tables.addProxyEvent (peerID : Int) (now : String) (event : ProxyEvent)
    (tables : Tables) : Tables :=
  { tables with
    proxyEvents :=
      tables.proxyEvents ++
        [{ id := nextID (·.id) tables.proxyEvents
           peerID := some peerID
           eventAt := if event.eventAt = "" then now else event.eventAt
           method := nullable event.method
           host := nullable event.host
           path := nullable event.path
           status := event.status
           durationMS := event.durationMS
           reqBytes := event.reqBytes
           respBytes := event.respBytes
           clientIP := nullable event.clientIP
           service := nullable event.service }] }

/-- Prepare a statement, then execute it for each item. -/
def preparedEach
    (prepareContext context : String)
    (update : Item → Tables → Tables)
    (items : List Item) : StoreM Unit := do
  statement (refusal prepareContext)
  modifyEach (fun _ => context) update items

/-- The link-counter rows of a report; unknown remote peers are skipped. -/
def linkRows
    (peerID : Int)
    (ids : List (String × Int))
    (now : String)
    (counters : List PeerCounter) : List LinkStatRow :=
  counters.filterMap fun counter =>
    (idByKey ids counter.peerPublicKey).map fun remote =>
      { peerID
        remotePeerID := remote
        rxBytes := counter.rxBytes
        txBytes := counter.txBytes
        lastHandshakeAt := nullable counter.lastHandshakeAt
        updatedAt := now }

/-- Log a path transition that is a connection event. -/
def logTransition
    (peerID remote : Int)
    (prev next : String) : StoreM Unit :=
  match connectionEventKind prev next with
  | none => pure ()
  | some kind =>
      modify "insert connection event" fun tables =>
        ((), tables.addConnectionEvent peerID remote kind (nullable prev)
          next)

/-- The loop over the reported paths; `prev` is read once before it. -/
def recordPaths
    (peerID : Int)
    (ids : List (String × Int))
    (prev : List (Int × String))
    (now : String) : List PeerPathState → StoreM Unit
  | [] => pure ()
  | path :: rest =>
      match idByKey ids path.peerPublicKey with
      | none => recordPaths peerID ids prev now rest
      | some remote => do
          logTransition peerID remote ((prev.lookup remote).getD "")
            path.state
          modify "upsert path state" fun tables =>
            ((), tables.putPath
              { peerID
                remotePeerID := remote
                state := path.state
                endpoint := nullable path.endpoint
                updatedAt := now })
          recordPaths peerID ids prev now rest

/-- `currentPathStates`. -/
def currentPathStates (peerID : Int) : StoreM (List (Int × String)) :=
  select "load path states" fun tables =>
    (tables.peerPaths.filter (fun row => row.peerID == peerID)).map
      fun row => (row.remotePeerID, row.state)

/-- The link counters of a report. -/
def applyCounters
    (peerID : Int)
    (ids : List (String × Int))
    (now : String)
    (counters : List PeerCounter) : StoreM Unit :=
  if counters = [] then
    pure ()
  else
    preparedEach "prepare link stats upsert" "accumulate link stats"
      Tables.addLinkStat (linkRows peerID ids now counters)

/-- The path states of a report. -/
def applyPaths
    (peerID : Int)
    (ids : List (String × Int))
    (now : String)
    (paths : List PeerPathState) : StoreM Unit :=
  if paths = [] then
    pure ()
  else do
    statement (refusal "prepare path state upsert")
    let prev ← currentPathStates peerID
    statement (refusal "prepare connection event insert")
    recordPaths peerID ids prev now paths

/-- The part of a report that refers to other peers by public key. -/
def applyLinks (peerID : Int) (now : String) (report : ReportRequest) :
    StoreM Unit :=
  if report.counters = [] ∧ report.pathStates = [] then
    pure ()
  else do
    let ids ← select "list peer ids" fun tables =>
      tables.peers.map fun row => (row.publicKey, row.id)
    applyCounters peerID ids now report.counters
    applyPaths peerID ids now report.pathStates

/-- The flows of a report. -/
def applyFlows (peerID : Int) (now : String) (flows : List FlowRecord) :
    StoreM Unit :=
  if flows = [] then
    pure ()
  else
    preparedEach "prepare flow insert" "insert flow"
      (Tables.addFlow peerID now) flows

/-- The access-log entries of a report. -/
def applyProxyEvents
    (peerID : Int)
    (now : String)
    (events : List ProxyEvent) : StoreM Unit :=
  if events = [] then
    pure ()
  else
    preparedEach "prepare proxy event insert" "insert proxy event"
      (Tables.addProxyEvent peerID now) events

/-- `ApplyReport`. -/
def applyReport
    (peerID : Int)
    (observedIP : String)
    (report : ReportRequest)
    (now : Instant) : StoreM Unit :=
  inTransaction "begin report transaction" "commit report" do
    modify "update last_seen_at" fun tables =>
      ((), tables.updatePeer peerID
        (PeerRecord.reported observedIP report (format now)))
    applyLinks peerID (format now) report
    applyFlows peerID (format now) report.flows
    applyProxyEvents peerID (format now) report.proxyEvents

/-- The tables that configurations are built from are the same. -/
structure SameCore (first second : Tables) : Prop where
  setupKeys : second.setupKeys = first.setupKeys
  peers : second.peers = first.peers
  aclRules : second.aclRules = first.aclRules
  settings : second.settings = first.settings

theorem SameCore.refl (tables : Tables) : SameCore tables tables :=
  ⟨rfl, rfl, rfl, rfl⟩

theorem SameCore.trans
    {first second third : Tables}
    (earlier : SameCore first second)
    (later : SameCore second third) :
    SameCore first third where
  setupKeys := later.setupKeys.trans earlier.setupKeys
  peers := later.peers.trans earlier.peers
  aclRules := later.aclRules.trans earlier.aclRules
  settings := later.settings.trans earlier.settings

/-- An action that writes to side tables only. -/
abbrev KeepsCore (action : StoreM Value) : Prop :=
  Within (fun before after => SameCore before.tables after.tables) action

section Specifications

theorem keepsCore_of_readOnly
    {action : StoreM Value}
    (readOnly : ReadOnly action) :
    KeepsCore action :=
  readOnly.within fun db => SameCore.refl db.tables

theorem keepsCore_bind
    {first : StoreM Value}
    {next : Value → StoreM Item}
    (firstKeeps : KeepsCore first)
    (nextKeeps : ∀ value, KeepsCore (next value)) :
    KeepsCore (first >>= next) :=
  firstKeeps.bind nextKeeps SameCore.trans

theorem keepsCore_modify
    {context : String}
    {compute : Tables → Value × Tables}
    (side : ∀ tables, SameCore tables (compute tables).2) :
    KeepsCore (modify context compute) := by
  apply within_exec
  · exact fun db => SameCore.refl db.tables
  · intro before value after written
    rw [(write_eq_ok written).2]
    exact side before.tables

theorem keepsCore_modifyEach
    {context : Item → String}
    {update : Item → Tables → Tables}
    (items : List Item)
    (side : ∀ item tables, SameCore tables (update item tables)) :
    KeepsCore (modifyEach context update items) := by
  induction items with
  | nil =>
      exact keepsCore_of_readOnly (readOnly_pure _)
  | cons item rest inductionHypothesis =>
      exact keepsCore_bind (keepsCore_modify (side item))
        fun _ => inductionHypothesis

private theorem keepsCore_preparedEach
    {prepareContext context : String}
    {update : Item → Tables → Tables}
    (items : List Item)
    (side : ∀ item tables, SameCore tables (update item tables)) :
    KeepsCore (preparedEach prepareContext context update items) :=
  keepsCore_bind (keepsCore_of_readOnly (readOnly_statement _))
    fun _ => keepsCore_modifyEach items side

/-- The path loop keeps the core. -/
private theorem keepsCore_recordPaths
    (peerID : Int)
    (ids : List (String × Int))
    (prev : List (Int × String))
    (now : String)
    (paths : List PeerPathState) :
    KeepsCore (recordPaths peerID ids prev now paths) := by
  induction paths with
  | nil =>
      exact keepsCore_of_readOnly (readOnly_pure _)
  | cons path rest inductionHypothesis =>
      unfold recordPaths
      split
      · exact inductionHypothesis
      · refine keepsCore_bind ?_ fun _ =>
          keepsCore_bind (keepsCore_modify fun _ => ⟨rfl, rfl, rfl, rfl⟩)
            fun _ => inductionHypothesis
        unfold logTransition
        split
        · exact keepsCore_of_readOnly (readOnly_pure _)
        · exact keepsCore_modify fun _ => ⟨rfl, rfl, rfl, rfl⟩

/-- What a report says about links and paths keeps the core. -/
private theorem keepsCore_applyLinks
    (peerID : Int)
    (now : String)
    (report : ReportRequest) :
    KeepsCore (applyLinks peerID now report) := by
  unfold applyLinks
  split
  · exact keepsCore_of_readOnly (readOnly_pure _)
  · refine keepsCore_bind (keepsCore_of_readOnly (readOnly_select _ _))
      fun ids => keepsCore_bind ?_ fun _ => ?_
    · unfold applyCounters
      split
      · exact keepsCore_of_readOnly (readOnly_pure _)
      · exact keepsCore_preparedEach _ fun _ _ => ⟨rfl, rfl, rfl, rfl⟩
    · unfold applyPaths
      split
      · exact keepsCore_of_readOnly (readOnly_pure _)
      · exact keepsCore_bind (keepsCore_of_readOnly (readOnly_statement _))
          fun _ => keepsCore_bind
            (keepsCore_of_readOnly (readOnly_select _ _))
            fun _ => keepsCore_bind
              (keepsCore_of_readOnly (readOnly_statement _))
              fun _ => keepsCore_recordPaths _ _ _ _ _

/-- A successful report changes the reporter's row and side tables only. -/
theorem applyReport_ok
    {peerID : Int}
    {observedIP : String}
    {report : ReportRequest}
    {now : Instant}
    {before after : DB}
    (run :
      Runs (applyReport peerID observedIP report now)
        before (.ok ()) after) :
    SameCore
      (before.tables.updatePeer peerID
        (PeerRecord.reported observedIP report (format now)))
      after.tables := by
  obtain ⟨_, seen, seenRun, rest⟩ := (inTransaction_ok run).bind_ok
  obtain ⟨_, linked, linkRun, rest⟩ := rest.bind_ok
  obtain ⟨_, flowed, flowRun, proxyRun⟩ := rest.bind_ok
  have stored :
      seen.tables =
        before.tables.updatePeer peerID
          (PeerRecord.reported observedIP report (format now)) :=
    (modify_ok seenRun).2
  have links : SameCore seen.tables linked.tables :=
    keepsCore_applyLinks _ _ _ _ _ _ linkRun
  have flows :
      KeepsCore (applyFlows peerID (format now) report.flows) := by
    unfold applyFlows
    split
    · exact keepsCore_of_readOnly (readOnly_pure _)
    · exact keepsCore_preparedEach _ fun _ _ => ⟨rfl, rfl, rfl, rfl⟩
  have proxied :
      KeepsCore
        (applyProxyEvents peerID (format now) report.proxyEvents) := by
    unfold applyProxyEvents
    split
    · exact keepsCore_of_readOnly (readOnly_pure _)
    · exact keepsCore_preparedEach _ fun _ _ => ⟨rfl, rfl, rfl, rfl⟩
  rw [← stored]
  exact (links.trans (flows _ _ _ flowRun)).trans (proxied _ _ _ proxyRun)

theorem atomic_applyReport
    (peerID : Int)
    (observedIP : String)
    (report : ReportRequest)
    (now : Instant) :
    Atomic (applyReport peerID observedIP report now) :=
  atomic_inTransaction _ _ _

/-- Authentication is read-only. -/
theorem readOnly_authenticatePeer
    (config : Config)
    (token : String)
    (now : Instant) :
    ReadOnly (authenticatePeer config token now) := by
  apply ReadOnly.bind (readOnly_select _ _)
  intro found
  split
  · exact readOnly_raise _
  · split
    · exact readOnly_raise _
    · exact readOnly_pure _

/-- An authenticated peer is active and holds the token's hash. -/
theorem authenticatePeer_ok
    {config : Config}
    {token overlayIP : String}
    {now : Instant}
    {id : Int}
    {before after : DB}
    (run :
      Runs (authenticatePeer config token now)
        before (.ok (id, overlayIP)) after) :
    after = before ∧
      ∃ peer, peer ∈ before.tables.peers ∧
        peer.authTokenHash = some (config.hashToken token) ∧
        peer.isActive = true ∧ tokenExpired config peer now = false ∧
        id = peer.id ∧ overlayIP = peer.assignedIP := by
  refine ⟨readOnly_authenticatePeer _ _ _ _ _ _ run, ?_⟩
  obtain ⟨found, middle, lookRun, rest⟩ := run.bind_ok
  obtain ⟨same, foundShape⟩ := select_ok lookRun
  subst middle
  split at rest
  · exact rest.raise_ok.elim
  · rename_i peer
    split at rest
    · exact rest.raise_ok.elim
    · rename_i unexpired
      obtain ⟨shape, -⟩ := rest.pure_inv
      cases shape
      have accepted := List.find?_some foundShape.symm
      simp only [Bool.and_eq_true, beq_iff_eq] at accepted
      exact ⟨peer, List.mem_of_find?_eq_some foundShape.symm,
        accepted.1, accepted.2, by simpa using unexpired, rfl, rfl⟩

end Specifications

end WgMesh.Store
