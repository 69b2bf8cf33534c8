import WgMesh.StoreSchema
import WgMesh.TextScan

namespace WgMesh.Store

/-!
# Reading peers

The peer listings of `admin.go` and the visibility query of `store.go`.
`listVisible` is the enforcement point of the access policy: a peer learns
about another only if this query returns it.
-/

open RowTables TextScan Transactions

/--
`PeerRow`, the row shape handed to the payload builders.

The zero values stand for columns a query does not read.  `candidates` is the
decoded list, empty when none was reported.
-/
structure PeerRow where
  id : Int := 0
  publicKey : String := ""
  hostname : String := ""
  assignedIP : String := ""
  assignedIP6 : String := ""
  peerType : Option PeerType := none
  gatewayPeerID : Int := 0
  advertiseExitNode : Bool := false
  exitNodePeerID : Int := 0
  publicEndpoint : String := ""
  observedIP : String := ""
  listenPort : Int := 0
  candidates : List AgentCandidate := []
  natType : String := ""
deriving DecidableEq

/-- `PeerInfo`, the row shape of the admin listings. -/
structure PeerInfo where
  id : Int
  publicKey : String
  assignedIP : String
  assignedIP6 : String
  peerType : PeerType
  gatewayPeerID : Int
  gatewayEndpoint : String
  hasStoredConfig : Bool
  advertiseExitNode : Bool
  exitNodePeerID : Int
  hostname : String
  listenPort : Int
  observedIP : String
  publicEndpoint : String
  natType : String
  agentVersion : String
  lastSeenAt : String
  revokedAt : String
deriving DecidableEq

/-- The columns `listVisible` selects. -/
def PeerRecord.visibleRow (peer : PeerRecord) : PeerRow where
  id := peer.id
  publicKey := peer.publicKey
  hostname := orEmpty peer.hostname
  assignedIP := peer.assignedIP
  assignedIP6 := orEmpty peer.assignedIP6
  peerType := some peer.peerType
  gatewayPeerID := orZero peer.gatewayPeerID
  advertiseExitNode := peer.advertiseExitNode
  exitNodePeerID := orZero peer.exitNodePeerID
  publicEndpoint := orEmpty peer.publicEndpoint
  observedIP := orEmpty peer.observedIP
  listenPort := orZero peer.listenPort
  candidates := peer.candidates
  natType := orEmpty peer.natType

/-- The columns `PeersForID` selects for the reporting peer. -/
def PeerRecord.selfRow (peer : PeerRecord) : PeerRow :=
  { peer.visibleRow with hostname := "" }

/-- The columns `ListPeers` selects. -/
def PeerRecord.info (peer : PeerRecord) : PeerInfo where
  id := peer.id
  publicKey := peer.publicKey
  assignedIP := peer.assignedIP
  assignedIP6 := orEmpty peer.assignedIP6
  peerType := peer.peerType
  gatewayPeerID := orZero peer.gatewayPeerID
  gatewayEndpoint := orEmpty peer.gatewayEndpoint
  hasStoredConfig := peer.privateKeyEnc.isSome
  advertiseExitNode := peer.advertiseExitNode
  exitNodePeerID := orZero peer.exitNodePeerID
  hostname := orEmpty peer.hostname
  listenPort := orZero peer.listenPort
  observedIP := orEmpty peer.observedIP
  publicEndpoint := orEmpty peer.publicEndpoint
  natType := orEmpty peer.natType
  agentVersion := orEmpty peer.agentVersion
  lastSeenAt := orEmpty peer.lastSeenAt
  revokedAt := orEmpty peer.revokedAt

/-- The columns `getPeerInfo` selects: no exit-node columns, no version. -/
def PeerRecord.singleInfo (peer : PeerRecord) : PeerInfo :=
  { peer.info with
    advertiseExitNode := false
    exitNodePeerID := 0
    agentVersion := "" }

/-- The peer with a row id. -/
def Tables.peerWithID? (tables : Tables) (id : Int) : Option PeerRecord :=
  rowWith? (·.id) id tables.peers

/-- The peer with a public key text. -/
def Tables.peerWithKey? (tables : Tables) (publicKey : String) :
    Option PeerRecord :=
  rowWith? (·.publicKey) publicKey tables.peers

/-- `ListPeers`. -/
def listPeers : StoreM (List PeerInfo) :=
  select "list peers" (fun tables => tables.peers.map (·.info))

/-- `getPeerInfo`. -/
def getPeerInfo (id : Int) : StoreM PeerInfo := do
  let found ← select ("look up peer " ++ decimal id)
    (fun tables => tables.peerWithID? id)
  match found with
  | some peer => pure peer.singleInfo
  | none => raise (notFound ("peer " ++ decimal id))

/-- `Peer`. -/
def peer (id : Int) : StoreM PeerInfo :=
  getPeerInfo id

/-- One side of a rule matches one of two peers, or any peer. -/
def sideMatches (side : Option Int) (first second : Int) : Bool :=
  side.all (fun id => id == first || id == second)

/-- The `EXISTS` part of the visibility query. -/
def Tables.ruleConnects (tables : Tables) (first second : Int) : Bool :=
  tables.aclRules.any fun rule =>
    sideMatches rule.srcPeerID first second &&
      sideMatches rule.dstPeerID first second

/-- The `WHERE` clause of the visibility query. -/
def Tables.isVisible
    (tables : Tables)
    (selfID : Int)
    (defaultAllow : Bool)
    (other : PeerRecord) : Bool :=
  other.isActive && other.id != selfID &&
    (defaultAllow ||
      other.gatewayPeerID == some selfID ||
      other.exitNodePeerID == some selfID ||
      (tables.peerWithID? selfID).any
        (fun self => other.id == orZero self.exitNodePeerID) ||
      tables.ruleConnects selfID other.id)

/-- The rows the visibility query returns, in id order. -/
def Tables.visibleTo
    (tables : Tables)
    (selfID : Int)
    (defaultAllow : Bool) : List PeerRow :=
  (tables.peers.filter (tables.isVisible selfID defaultAllow)).map
    (·.visibleRow)

/-- `listVisible`. -/
def listVisible (selfID : Int) (defaultAllow : Bool) :
    StoreM (List PeerRow) :=
  select "list peers" (fun tables => tables.visibleTo selfID defaultAllow)

/-- `PeersForID`. -/
def peersForID (id : Int) (defaultAllow : Bool) :
    StoreM (PeerRow × List PeerRow) := do
  let context := "look up peer " ++ decimal id
  let found ← select context (fun tables => tables.peerWithID? id)
  match found with
  | none => raise (failure (context ++ ": sql: no rows in result set"))
  | some self =>
      let others ← listVisible id defaultAllow
      pure (self.selfRow, others)

/-- Both sides of a rule are wildcards or one of two peers. -/
def ACLRuleRow.Within (rule : ACLRuleRow) (first second : Int) : Prop :=
  (∀ id, rule.srcPeerID = some id → id = first ∨ id = second) ∧
    ∀ id, rule.dstPeerID = some id → id = first ∨ id = second

theorem sideMatches_iff
    {side : Option Int}
    {first second : Int} :
    sideMatches side first second = true ↔
      ∀ id, side = some id → id = first ∨ id = second := by
  cases side <;> simp [sideMatches]

theorem Tables.ruleConnects_iff
    {tables : Tables}
    {first second : Int} :
    tables.ruleConnects first second = true ↔
      ∃ rule ∈ tables.aclRules, rule.Within first second := by
  simp only [ruleConnects, List.any_eq_true, Bool.and_eq_true,
    sideMatches_iff, ACLRuleRow.Within]

theorem ACLRuleRow.Within.symm
    {rule : ACLRuleRow}
    {first second : Int}
    (within : rule.Within first second) :
    rule.Within second first :=
  ⟨fun id named => (within.1 id named).symm,
    fun id named => (within.2 id named).symm⟩

/-- A visible row is printed from a visible peer of the table. -/
theorem mem_visibleTo
    {tables : Tables}
    {id : Int}
    {defaultAllow : Bool}
    {o : PeerRow} :
    o ∈ tables.visibleTo id defaultAllow ↔
      ∃ peer, peer ∈ tables.peers ∧
        tables.isVisible id defaultAllow peer = true ∧
        o = peer.visibleRow := by
  constructor
  · intro member
    obtain ⟨peer, kept, shape⟩ := List.mem_map.mp member
    obtain ⟨peerMember, visible⟩ := List.mem_filter.mp kept
    exact ⟨peer, peerMember, visible, shape.symm⟩
  · rintro ⟨peer, peerMember, visible, rfl⟩
    exact List.mem_map_of_mem (List.mem_filter.mpr ⟨peerMember, visible⟩)

/-- An update leaves alone what the visibility query compares. -/
structure KeepsReferences (update : PeerRecord → PeerRecord) : Prop where
  id : ∀ row, (update row).id = row.id
  revokedAt : ∀ row, (update row).revokedAt = row.revokedAt
  gatewayPeerID : ∀ row, (update row).gatewayPeerID = row.gatewayPeerID
  exitNodePeerID : ∀ row, (update row).exitNodePeerID = row.exitNodePeerID

/-- It may be applied to some rows only. -/
theorem KeepsReferences.where
    {update : PeerRecord → PeerRecord}
    (keeps : KeepsReferences update)
    (condition : PeerRecord → Bool) :
    KeepsReferences fun row => if condition row then update row else row where
  id row := by
    split
    · exact keeps.id row
    · rfl
  revokedAt row := by
    split
    · exact keeps.revokedAt row
    · rfl
  gatewayPeerID row := by
    split
    · exact keeps.gatewayPeerID row
    · rfl
  exitNodePeerID row := by
    split
    · exact keeps.exitNodePeerID row
    · rfl

section Updates

variable
  {first second : Tables}
  {update : PeerRecord → PeerRecord}

/-- Such an update does not change who sees whom. -/
theorem KeepsReferences.isVisible
    (keeps : KeepsReferences update)
    (peers : second.peers = first.peers.map update)
    (rules : second.aclRules = first.aclRules)
    (selfID : Int)
    (defaultAllow : Bool)
    (row : PeerRecord) :
    second.isVisible selfID defaultAllow (update row) =
      first.isVisible selfID defaultAllow row := by
  have self :
      second.peerWithID? selfID = (first.peerWithID? selfID).map update := by
    unfold Tables.peerWithID? rowWith?
    rw [peers, List.find?_map]
    congr 2
    funext other
    simp [keeps.id]
  simp only [Tables.isVisible, PeerRecord.isActive, Tables.ruleConnects,
    keeps.id, keeps.revokedAt, keeps.gatewayPeerID, keeps.exitNodePeerID,
    self, rules, Option.any_map]

/-- The visible rows after such an update are the updated visible rows. -/
theorem KeepsReferences.visibleTo
    (keeps : KeepsReferences update)
    (peers : second.peers = first.peers.map update)
    (rules : second.aclRules = first.aclRules)
    (selfID : Int)
    (defaultAllow : Bool) :
    second.visibleTo selfID defaultAllow =
      ((first.peers.filter
        (first.isVisible selfID defaultAllow)).map update).map
          (·.visibleRow) := by
  have same :
      second.isVisible selfID defaultAllow ∘ update =
        first.isVisible selfID defaultAllow := by
    funext row
    exact keeps.isVisible peers rules selfID defaultAllow row
  unfold Tables.visibleTo
  rw [peers, List.filter_map, same]

end Updates

/-- A single peer's columns come from its row. -/
theorem getPeerInfo_ok
    {id : Int}
    {info : PeerInfo}
    {before after : DB}
    (run : Runs (getPeerInfo id) before (.ok info) after) :
    after = before ∧
      ∃ peer, before.tables.peerWithID? id = some peer ∧
        info = peer.singleInfo := by
  obtain ⟨found, middle, lookRun, rest⟩ := run.bind_ok
  obtain ⟨same, foundShape⟩ := select_ok lookRun
  subst middle
  split at rest
  · rename_i peer
    obtain ⟨shape, sameEnd⟩ := rest.pure_inv
    cases shape
    exact ⟨sameEnd, peer, foundShape.symm, rfl⟩
  · exact rest.raise_ok.elim

theorem readOnly_getPeerInfo
    (id : Int) :
    ReadOnly (getPeerInfo id) := by
  apply ReadOnly.bind (readOnly_select _ _)
  intro found
  split
  · exact readOnly_pure _
  · exact readOnly_raise _

theorem readOnly_peersForID
    (id : Int)
    (defaultAllow : Bool) :
    ReadOnly (peersForID id defaultAllow) := by
  apply ReadOnly.bind (readOnly_select _ _)
  intro found
  split
  · exact readOnly_raise _
  · exact ReadOnly.bind (readOnly_select _ _) (fun _ => readOnly_pure _)

/-- The sync payload's rows come from the tables. -/
theorem peersForID_ok
    {id : Int}
    {defaultAllow : Bool}
    {self : PeerRow}
    {others : List PeerRow}
    {before after : DB}
    (run :
      Runs (peersForID id defaultAllow) before (.ok (self, others)) after) :
    after = before ∧
      (∃ peer, before.tables.peerWithID? id = some peer ∧
        self = peer.selfRow) ∧
      others = before.tables.visibleTo id defaultAllow := by
  obtain ⟨found, middle, lookRun, rest⟩ := run.bind_ok
  obtain ⟨same, foundShape⟩ := select_ok lookRun
  subst middle
  split at rest
  · exact rest.raise_ok.elim
  · rename_i peer
    obtain ⟨rows, listed, listRun, last⟩ := rest.bind_ok
    obtain ⟨sameList, rowsShape⟩ := select_ok listRun
    obtain ⟨shape, sameEnd⟩ := last.pure_inv
    cases shape
    exact ⟨sameEnd.trans sameList, ⟨peer, foundShape.symm, rfl⟩,
      rowsShape⟩

end WgMesh.Store
