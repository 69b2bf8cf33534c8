import WgMesh.StoreEnroll

namespace WgMesh.Store

/-!
# Changes to enrolled peers

Removal with its foreign-key actions, self-reported candidates and exit-node
assignments.
-/

open RowTables TextScan Transactions

/-- `ON DELETE SET NULL` for a column. -/
def clearReference (id : Int) (column : Option Int) : Option Int :=
  if column = some id then none else column

/-- `ON DELETE SET NULL` of the peer references of a peer. -/
def PeerRecord.clearReferences (id : Int) (peer : PeerRecord) : PeerRecord :=
  { peer with
    gatewayPeerID := clearReference id peer.gatewayPeerID
    exitNodePeerID := clearReference id peer.exitNodePeerID }

/-- A rule names a peer. -/
def ACLRuleRow.mentions (id : Int) (rule : ACLRuleRow) : Bool :=
  rule.srcPeerID == some id || rule.dstPeerID == some id

/-- Delete a peer row and follow the foreign keys that point at it. -/
def Tables.removePeer (id : Int) (tables : Tables) : Tables :=
  { tables with
    peers :=
      (tables.peers.filter (fun row => row.id != id)).map
        (PeerRecord.clearReferences id)
    aclRules := tables.aclRules.filter (fun rule => !rule.mentions id)
    linkStats :=
      tables.linkStats.filter fun row =>
        row.peerID != id && row.remotePeerID != id
    peerPaths :=
      tables.peerPaths.filter fun row =>
        row.peerID != id && row.remotePeerID != id
    connectionEvents :=
      tables.connectionEvents.filter fun row =>
        row.reporterPeerID != id && row.remotePeerID != id
    flows := tables.flows.filter (fun row => row.peerID != id)
    proxyEvents :=
      tables.proxyEvents.map fun row =>
        { row with peerID := clearReference id row.peerID } }

/-- The row `RemovePeer` may delete. -/
def PeerRecord.isRemovable (id : Int) (peer : PeerRecord) : Bool :=
  peer.id == id && peer.revokedAt.isSome

/-- `RemovePeer`. -/
def removePeer (id : Int) : StoreM Unit := do
  let context := "remove peer " ++ decimal id
  let rows ← modify context fun tables =>
    let rows := tables.peers.countP (PeerRecord.isRemovable id)
    (rows, if rows = 0 then tables else tables.removePeer id)
  if rows = 0 then raise (notFound context) else pure ()

/-- `UpdatePeerCandidates`; an empty report leaves the column alone. -/
def updatePeerCandidates (id : Int) (candidates : List AgentCandidate) :
    StoreM Unit :=
  if candidates = [] then
    pure ()
  else
    modify "update peer candidates" fun tables =>
      ((), tables.updatePeer id fun row => { row with candidates })

/-- `SetAdvertiseExitNode`. -/
def setAdvertiseExitNode (id : Int) (advertise : Bool) : StoreM Unit :=
  modify "set advertise_exit_node" fun tables =>
    ((), tables.updatePeer id fun row =>
      { row with advertiseExitNode := advertise })

/-- `ExitAssignment`. -/
structure ExitAssignment where
  peerPublicKey : String
  peerHostname : String
  exitPublicKey : String
  exitHostname : String
deriving DecidableEq

/-- The checks of `SetExitNode` on the peer whose route changes. -/
def checkExitClient (id : Int) : StoreM PeerRecord := do
  let found ← select ("look up peer " ++ decimal id)
    (fun tables => tables.peerWithID? id)
  match found with
  | none => raise (invalid ("peer " ++ decimal id ++ " not found"))
  | some client =>
      if client.revokedAt.isSome then
        raise (invalid ("peer " ++ decimal id ++ " is revoked"))
      else if client.peerType ≠ .agent then
        raise (invalid "only agent peers can use an exit node")
      else
        pure client

/-- The checks of `SetExitNode` on the exit node. -/
def checkExitNode (id : Int) : StoreM PeerRecord := do
  let found ← select ("look up exit node " ++ decimal id)
    (fun tables => tables.peerWithID? id)
  match found with
  | none =>
      raise (invalid ("exit node peer " ++ decimal id ++ " not found"))
  | some exit =>
      if exit.revokedAt.isSome then
        raise (invalid ("exit node peer " ++ decimal id ++ " is revoked"))
      else if exit.peerType ≠ .agent then
        raise (invalid "exit node must be an agent peer")
      else if !exit.advertiseExitNode then
        raise
          (invalid
            ("peer " ++ decimal id ++
              " does not advertise itself as an exit node"))
      else if orZero exit.exitNodePeerID ≠ 0 then
        raise
          (invalid
            ("peer " ++ decimal id ++ " routes through an exit node itself"))
      else
        pure exit

/-- A peer that others exit through cannot exit through another one. -/
def checkNoExitClients (id : Int) : StoreM Unit := do
  let clients ← select "count exit clients" fun tables =>
    tables.peers.countP fun row =>
      row.exitNodePeerID == some id && row.isActive
  if 0 < clients then
    raise
      (invalid
        ("peer " ++ decimal id ++ " is an exit node for " ++
          decimal clients ++ " peer(s) and cannot chain through another"))
  else
    pure ()

/-- The exit side of an assignment; `0` clears it. -/
def checkExitSide (peerID exitPeerID : Int) :
    StoreM (Option PeerRecord) :=
  if exitPeerID = 0 then
    pure none
  else do
    let exit ← checkExitNode exitPeerID
    checkNoExitClients peerID
    pure (some exit)

/-- The column value of an assignment. -/
def assignedExit (exitPeerID : Int) : Option Int :=
  if exitPeerID = 0 then none else some exitPeerID

/-- `SetExitNode`. -/
def setExitNode (peerID exitPeerID : Int) : StoreM ExitAssignment :=
  if peerID = exitPeerID ∧ exitPeerID ≠ 0 then
    raise (invalid "a peer cannot be its own exit node")
  else
    inTransaction "begin exit-node transaction" "commit exit-node change" do
      let client ← checkExitClient peerID
      let exit ← checkExitSide peerID exitPeerID
      modify "set exit_node_peer_id" fun tables =>
        ((), tables.updatePeer peerID fun row =>
          { row with exitNodePeerID := assignedExit exitPeerID })
      pure
        { peerPublicKey := client.publicKey
          peerHostname := orEmpty client.hostname
          exitPublicKey := (exit.map (·.publicKey)).getD ""
          exitHostname := orEmpty (exit.bind (·.hostname)) }

section Specifications

variable {before after : DB}

/-- A successful removal deleted a revoked peer. -/
theorem removePeer_ok
    {id : Int}
    (run : Runs (removePeer id) before (.ok ()) after) :
    (∃ row, row ∈ before.tables.peers ∧
        PeerRecord.isRemovable id row = true) ∧
      after.tables = before.tables.removePeer id := by
  obtain ⟨rows, written, writeRun, rest⟩ := run.bind_ok
  obtain ⟨rowsShape, stored⟩ := modify_ok writeRun
  dsimp only at rowsShape stored
  split at rest
  · exact rest.raise_ok.elim
  · rename_i affected
    rw [rowsShape] at affected
    rw [if_neg affected] at stored
    rw [rest.pure_inv.2]
    exact ⟨List.countP_pos_iff.mp (Nat.pos_of_ne_zero affected), stored⟩

/-- A removal that fails changes nothing. -/
theorem atomic_removePeer
    (id : Int) :
    Atomic (removePeer id) := by
  intro before failure after run
  rcases run.bind_inv with
    ⟨_, writeRun, -⟩ | ⟨rows, written, writeRun, rest⟩
  · exact atomic_modify _ _ _ _ _ writeRun
  · obtain ⟨rowsShape, stored⟩ := modify_ok writeRun
    dsimp only at rowsShape stored
    split at rest
    · rename_i unaffected
      rw [rowsShape] at unaffected
      rw [if_pos unaffected] at stored
      rw [rest.raise_inv.2]
      exact DB.ext stored
    · cases rest.pure_inv.1

theorem updatePeerCandidates_ok
    {id : Int}
    {candidates : List AgentCandidate}
    (run : Runs (updatePeerCandidates id candidates) before (.ok ()) after) :
    after.tables =
      if candidates = [] then before.tables
      else before.tables.updatePeer id
        (fun row => { row with candidates }) := by
  unfold updatePeerCandidates at run
  by_cases nothing : candidates = []
  · rw [if_pos nothing] at run ⊢
    rw [run.pure_inv.2]
  · rw [if_neg nothing] at run ⊢
    exact (modify_ok run).2

theorem atomic_updatePeerCandidates
    (id : Int)
    (candidates : List AgentCandidate) :
    Atomic (updatePeerCandidates id candidates) := by
  unfold updatePeerCandidates
  split
  · exact (readOnly_pure _).atomic
  · exact atomic_modify _ _

/-- An accepted exit client is an active agent. -/
theorem checkExitClient_ok
    {id : Int}
    {client : PeerRecord}
    (run : Runs (checkExitClient id) before (.ok client) after) :
    after = before ∧ before.tables.peerWithID? id = some client ∧
      client.isActive = true ∧ client.peerType = .agent := by
  obtain ⟨found, middle, lookRun, rest⟩ := run.bind_ok
  obtain ⟨same, foundShape⟩ := select_ok lookRun
  subst middle
  split at rest
  · exact rest.raise_ok.elim
  · split at rest
    · exact rest.raise_ok.elim
    · rename_i unrevoked
      split at rest
      · exact rest.raise_ok.elim
      · rename_i isAgent
        obtain ⟨shape, sameEnd⟩ := rest.pure_inv
        cases shape
        refine ⟨sameEnd, foundShape.symm, ?_, ?_⟩
        · simpa [PeerRecord.isActive] using unrevoked
        · simpa using isAgent

/-- An accepted exit node is an active agent that offers itself. -/
theorem checkExitNode_ok
    {id : Int}
    {exit : PeerRecord}
    (run : Runs (checkExitNode id) before (.ok exit) after) :
    after = before ∧ before.tables.peerWithID? id = some exit ∧
      exit.isActive = true ∧ exit.peerType = .agent ∧
      exit.advertiseExitNode = true ∧ orZero exit.exitNodePeerID = 0 := by
  obtain ⟨found, middle, lookRun, rest⟩ := run.bind_ok
  obtain ⟨same, foundShape⟩ := select_ok lookRun
  subst middle
  split at rest
  · exact rest.raise_ok.elim
  · split at rest
    · exact rest.raise_ok.elim
    · rename_i unrevoked
      split at rest
      · exact rest.raise_ok.elim
      · rename_i isAgent
        split at rest
        · exact rest.raise_ok.elim
        · rename_i offers
          split at rest
          · exact rest.raise_ok.elim
          · rename_i unchained
            obtain ⟨shape, sameEnd⟩ := rest.pure_inv
            cases shape
            refine ⟨sameEnd, foundShape.symm, ?_, ?_, ?_, ?_⟩
            · simpa [PeerRecord.isActive] using unrevoked
            · simpa using isAgent
            · simpa using offers
            · simpa using unchained

/-- A peer that passes the chain check has no active exit clients. -/
theorem checkNoExitClients_ok
    {id : Int}
    (run : Runs (checkNoExitClients id) before (.ok ()) after) :
    after = before ∧
      ∀ row ∈ before.tables.peers, row.isActive = true →
        row.exitNodePeerID ≠ some id := by
  obtain ⟨clients, middle, countRun, rest⟩ := run.bind_ok
  obtain ⟨same, clientsShape⟩ := select_ok countRun
  subst middle clients
  split at rest
  · exact rest.raise_ok.elim
  · rename_i nobody
    refine ⟨rest.pure_inv.2, ?_⟩
    intro row member active assigned
    apply nobody
    exact List.countP_pos_iff.mpr ⟨row, member, by simp [active, assigned]⟩

/-- What an exit-node assignment has checked and written. -/
structure ExitAssigned
    (before after : DB)
    (peerID exitPeerID : Int)
    (client : PeerRecord) : Prop where
  found : before.tables.peerWithID? peerID = some client
  active : client.isActive = true
  agent : client.peerType = .agent
  exit :
    exitPeerID ≠ 0 →
      peerID ≠ exitPeerID ∧
        (∃ node, before.tables.peerWithID? exitPeerID = some node ∧
          node.isActive = true ∧ node.peerType = .agent ∧
          node.advertiseExitNode = true ∧
          orZero node.exitNodePeerID = 0) ∧
        ∀ row ∈ before.tables.peers, row.isActive = true →
          row.exitNodePeerID ≠ some peerID
  stored :
    after.tables =
      before.tables.updatePeer peerID fun row =>
        { row with exitNodePeerID := assignedExit exitPeerID }

/-- A successful exit-node assignment. -/
theorem setExitNode_ok
    {peerID exitPeerID : Int}
    {assignment : ExitAssignment}
    (run :
      Runs (setExitNode peerID exitPeerID) before (.ok assignment) after) :
    ∃ client, ExitAssigned before after peerID exitPeerID client := by
  unfold setExitNode at run
  split at run
  · exact run.raise_ok.elim
  · rename_i notSelf
    obtain ⟨client, clientKnown, clientRun, rest⟩ :=
      (inTransaction_ok run).bind_ok
    obtain ⟨sameClient, found, active, agent⟩ := checkExitClient_ok clientRun
    subst clientKnown
    obtain ⟨side, sideKnown, sideRun, rest⟩ := rest.bind_ok
    obtain ⟨_, written, writeRun, rest⟩ := rest.bind_ok
    obtain ⟨-, sameEnd⟩ := rest.pure_inv
    subst after
    have stored := (modify_ok writeRun).2
    unfold checkExitSide at sideRun
    split at sideRun
    · rename_i clearing
      obtain ⟨-, sameSide⟩ := sideRun.pure_inv
      subst sideKnown
      exact ⟨client, {
        found
        active
        agent
        exit := fun assigning => (assigning clearing).elim
        stored
      }⟩
    · obtain ⟨node, nodeKnown, nodeRun, rest⟩ := sideRun.bind_ok
      obtain ⟨sameNode, node⟩ := checkExitNode_ok nodeRun
      subst nodeKnown
      obtain ⟨_, counted, countRun, rest⟩ := rest.bind_ok
      obtain ⟨sameCount, unused⟩ := checkNoExitClients_ok countRun
      obtain ⟨-, sameSide⟩ := rest.pure_inv
      subst counted sideKnown
      exact ⟨client, {
        found
        active
        agent
        exit := fun assigning =>
          ⟨fun same => notSelf ⟨same, assigning⟩, ⟨_, node⟩, unused⟩
        stored
      }⟩

theorem atomic_setExitNode
    (peerID exitPeerID : Int) :
    Atomic (setExitNode peerID exitPeerID) := by
  unfold setExitNode
  split
  · exact (readOnly_raise _).atomic
  · exact atomic_inTransaction _ _ _

end Specifications

end WgMesh.Store
