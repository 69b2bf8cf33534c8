import WgMesh.MutualVisibility

namespace WgMesh.Store

/-!
# Exit nodes do not chain

`SetExitNode` looks in both directions: the exit node must not use one itself,
and the client must not be one for an active peer.  The first guard is about
the assignment that is made, the second about those that exist already.  Both
are kept by everything else that changes rows, since revocation is final and
removed rows are no longer referred to.
-/

open FiniteRuns RowTables Transactions

/-- Exit assignments lead to agents, away from the peer, and no further. -/
structure DB.Unchained (db : DB) : Prop where
  other :
    ∀ row ∈ db.tables.peers, row.exitNodePeerID ≠ some row.id
  agent :
    ∀ row node, row ∈ db.tables.peers → node ∈ db.tables.peers →
      row.exitNodePeerID = some node.id → node.peerType = .agent
  last :
    ∀ row node, row ∈ db.tables.peers → node ∈ db.tables.peers →
      row.isActive = true → row.exitNodePeerID = some node.id →
        node.exitNodePeerID = none

/-- A column that reads as zero is empty. -/
theorem DB.exit_none
    {db : DB}
    {row : PeerRecord}
    (member : row ∈ db.tables.peers)
    (unused : orZero row.exitNodePeerID = 0) :
    row.exitNodePeerID = none := by
  cases assigned : row.exitNodePeerID with
  | none => rfl
  | some id =>
      obtain ⟨node, nodeMember, isID⟩ :=
        List.mem_map.mp (db.legal.peerExitNode row member id assigned)
      have positive := db.legal.peerPositive node nodeMember
      rw [assigned, ← isID] at unused
      simp only [orZero, Option.getD_some] at unused
      omega

section Origins

variable
  {config : Config}
  {view : NetworkView}
  {before after : DB}
  {op : Op}
  {reply : Reply}
  {row : PeerRecord}
  {id : Int}

/-- Where an exit assignment comes from. -/
theorem RowOrigin.exit_origin
    (origin : RowOrigin config view before after op reply row)
    (assigned : row.exitNodePeerID = some id) :
    (∃ old ∈ before.tables.peers, old.Continues row ∧
        old.exitNodePeerID = some id) ∨
      op = .setExitNode row.id id ∧ id ≠ 0 ∧
        ∃ old, old.id = row.id ∧
          ExitAssigned before after row.id id old := by
  cases origin with
  | kept member => exact Or.inl ⟨_, member, .refl _, assigned⟩
  | refreshed member _ =>
      exact Or.inl ⟨_, member, ⟨rfl, rfl, rfl, rfl, fun _ => rfl⟩, assigned⟩
  | enrolled _ => cases assigned
  | static _ => cases assigned
  | readdressed member _ _ =>
      exact Or.inl ⟨_, member, ⟨rfl, rfl, rfl, rfl, fun _ => rfl⟩, assigned⟩
  | moved member _ _ =>
      exact Or.inl ⟨_, member, ⟨rfl, rfl, rfl, rfl, fun _ => rfl⟩, assigned⟩
  | revoked member unrevoked =>
      refine Or.inl ⟨_, member, ⟨rfl, rfl, rfl, rfl, ?_⟩, assigned⟩
      intro already
      simp only [PeerRecord.isUnrevoked, Bool.and_eq_true,
        Option.isNone_iff_eq_none] at unrevoked
      rw [unrevoked.2] at already
      cases already
  | cleared member _ =>
      exact Or.inl ⟨_, member, ⟨rfl, rfl, rfl, rfl, fun _ => rfl⟩,
        clearReference_eq_some assigned⟩
  | candidates member _ =>
      exact Or.inl ⟨_, member, ⟨rfl, rfl, rfl, rfl, fun _ => rfl⟩, assigned⟩
  | offer member _ =>
      exact Or.inl ⟨_, member, ⟨rfl, rfl, rfl, rfl, fun _ => rfl⟩, assigned⟩
  | reported member _ =>
      exact Or.inl ⟨_, member, ⟨rfl, rfl, rfl, rfl, fun _ => rfl⟩, assigned⟩
  | @exit peerID exitPeerID assignment old member done =>
      have own : old.id = peerID := (mem_of_rowWith? done.found).2
      simp only [assignedExit] at assigned
      split at assigned
      · cases assigned
      · rename_i assigning
        cases assigned
        subst own
        exact Or.inr ⟨rfl, assigning, old, rfl, done⟩

theorem Effect.continues_of_known
    (effect : Effect config view before after op reply)
    (member : row ∈ after.tables.peers)
    (known : row.id ∈ before.tables.peerIDs) :
    ∃ old ∈ before.tables.peers, old.Continues row := by
  rcases (effect.origin member).continues_or_new with
    continued | ⟨-, new, -⟩
  · exact continued
  · obtain ⟨old, oldMember, sameID⟩ := List.mem_map.mp known
    exact (Tables.nextPeerID_not_mem oldMember (sameID.trans new)).elim

/-- Revocation is final, so an active row was active. -/
theorem PeerRecord.Continues.wasActive
    {old : PeerRecord}
    (continued : old.Continues row)
    (active : row.isActive = true) :
    old.isActive = true := by
  simp only [PeerRecord.isActive, Option.isNone_iff_eq_none] at active ⊢
  cases revoked : old.revokedAt with
  | none => rfl
  | some time =>
      have same := continued.revoked (by rw [revoked]; rfl)
      rw [active, revoked] at same
      cases same

/-- No operation makes an exit node use one, while it is one. -/
theorem Effect.exit_stays_last
    (effect : Effect config view before after op reply)
    {node oldNode : PeerRecord}
    (member : node ∈ after.tables.peers)
    (oldMember : oldNode ∈ before.tables.peers)
    (continued : oldNode.Continues node)
    (last : oldNode.exitNodePeerID = none)
    (unassigned :
      ∀ exitID, op = .setExitNode node.id exitID → exitID ≠ 0 →
        ∀ client, client.id = node.id →
          ¬ExitAssigned before after node.id exitID client) :
    node.exitNodePeerID = none := by
  cases assigned : node.exitNodePeerID with
  | none => rfl
  | some exitID =>
      rcases (effect.origin member).exit_origin assigned with
        ⟨source, sourceMember, same, filled⟩ |
        ⟨isOp, assigning, client, own, done⟩
      · have isOld : source = oldNode :=
          before.eq_of_peerID sourceMember oldMember
            (same.id.symm.trans continued.id)
        rw [isOld, last] at filled
        cases filled
      · exact (unassigned exitID isOp assigning client own done).elim

/-- Every operation keeps exit assignments from chaining. -/
theorem Effect.unchained
    (effect : Effect config view before after op reply)
    (unchained : before.Unchained) :
    after.Unchained := by
  -- A row after the operation that has an exit node: either it had this exit
  -- node before, or it was the client of the assignment.
  refine ⟨?_, ?_, ?_⟩
  · intro row member own
    rcases (effect.origin member).exit_origin own with
      ⟨old, oldMember, continued, assigned⟩ | ⟨-, assigning, old, -, done⟩
    · rw [continued.id] at assigned
      exact unchained.other old oldMember assigned
    · exact (done.exit assigning).1 rfl
  · intro row node member nodeMember isExit
    rcases (effect.origin member).exit_origin isExit with
      ⟨old, oldMember, continued, assigned⟩ | ⟨-, assigning, old, -, done⟩
    · obtain ⟨oldNode, oldNodeMember, nodeContinued⟩ :=
        effect.continues_of_known nodeMember
          (before.legal.peerExitNode old oldMember _ assigned)
      rw [nodeContinued.peerType]
      rw [nodeContinued.id] at assigned
      exact unchained.agent old oldNode oldMember oldNodeMember assigned
    · obtain ⟨-, ⟨checked, found, -, agent, -⟩, -⟩ := done.exit assigning
      obtain ⟨checkedMember, checkedID⟩ := mem_of_rowWith? found
      obtain ⟨oldNode, oldNodeMember, nodeContinued⟩ :=
        effect.continues_of_known nodeMember
          (List.mem_map.mpr ⟨checked, checkedMember, checkedID⟩)
      have isChecked : oldNode = checked :=
        before.eq_of_peerID oldNodeMember checkedMember
          (nodeContinued.id.symm.trans checkedID.symm)
      rw [nodeContinued.peerType, isChecked]
      exact agent
  · intro row node member nodeMember active isExit
    rcases (effect.origin member).exit_origin isExit with
      ⟨old, oldMember, continued, assigned⟩ | ⟨isOp, assigning, old, -, done⟩
    · obtain ⟨oldNode, oldNodeMember, nodeContinued⟩ :=
        effect.continues_of_known nodeMember
          (before.legal.peerExitNode old oldMember _ assigned)
      have wasActive := continued.wasActive active
      refine effect.exit_stays_last nodeMember oldNodeMember nodeContinued
        ?_ ?_
      · rw [nodeContinued.id] at assigned
        exact unchained.last old oldNode oldMember oldNodeMember wasActive
          assigned
      · -- The guard on existing clients: the old row is one of them.
        intro exitID _ assigning client _ done
        exact (done.exit assigning).2.2 old oldMember wasActive assigned
    · obtain ⟨different, ⟨checked, found, -, -, -, unused⟩, -⟩ :=
        done.exit assigning
      obtain ⟨checkedMember, checkedID⟩ := mem_of_rowWith? found
      obtain ⟨oldNode, oldNodeMember, nodeContinued⟩ :=
        effect.continues_of_known nodeMember
          (List.mem_map.mpr ⟨checked, checkedMember, checkedID⟩)
      have isChecked : oldNode = checked :=
        before.eq_of_peerID oldNodeMember checkedMember
          (nodeContinued.id.symm.trans checkedID.symm)
      refine effect.exit_stays_last nodeMember oldNodeMember nodeContinued
        ?_ ?_
      · rw [isChecked]
        exact before.exit_none checkedMember unused
      · -- The client of the assignment is another row than the exit node.
        intro exitID otherOp _ _ _ _
        injection isOp.symm.trans otherOp with sameID
        exact different sameID

end Origins

/-- Exit assignments do not chain in any reachable store. -/
theorem unchained_run
    (config : Config)
    (network : NetAddress.Prefix)
    (network6 : Option NetAddress.Prefix)
    (inputs : List Input) :
    ((machine config).run (.empty network network6)
      inputs).db.Unchained := by
  refine @Machine.run_invariant _ _ _ (machine config)
    (fun state => state.db.Unchained) ?_ _ ?_ inputs
  · intro state input unchained
    rcases step_cases config state input with
      ⟨error, same⟩ | ⟨reply, after, shape, effect⟩
    · rw [same]
      exact unchained
    · rw [shape, remember_db]
      exact effect.unchained unchained
  · constructor
    · intro row member
      cases member
    · intro row node member
      cases member
    · intro row node member
      cases member

/-- The exit assignments, by row id. -/
def Tables.assignments (tables : Tables) : List (Int × Option Int) :=
  tables.peers.map (fun row => (row.id, row.exitNodePeerID))

/-- One assignment replaced. -/
def reassign
    (peerID exitPeerID : Int)
    (assignment : Int × Option Int) : Int × Option Int :=
  if assignment.1 = peerID then (peerID, assignedExit exitPeerID)
  else assignment

/--
A `SetExitNode` that fails changes no assignment; one that succeeds changes
that of its peer.
-/
def Step.AssignsExit (step : Step) : Prop :=
  ∀ peerID exitPeerID, step.input.op = .setExitNode peerID exitPeerID →
    match step.output with
    | .error _ =>
        step.after.db.tables.assignments = step.before.db.tables.assignments
    | .ok _ =>
        step.after.db.tables.assignments =
          step.before.db.tables.assignments.map (reassign peerID exitPeerID)

theorem ExitAssigned.assignments
    {before after : DB}
    {peerID exitPeerID : Int}
    {client : PeerRecord}
    (done : ExitAssigned before after peerID exitPeerID client) :
    after.tables.assignments =
      before.tables.assignments.map (reassign peerID exitPeerID) := by
  rw [Tables.assignments, done.stored, Tables.assignments, List.map_map]
  simp only [Tables.updatePeer, updateWhere, List.map_map]
  refine List.map_congr_left fun row _ => ?_
  by_cases own : row.id = peerID
  · simp [reassign, own]
  · simp [reassign, own]

/-- Every step of the store assigns as it says. -/
theorem assignsExit_visit
    (config : Config)
    (state : State)
    (input : Input) :
    Step.AssignsExit ((machine config).visit state input) := by
  intro peerID exitPeerID isOp
  rw [Machine.visit_input] at isOp
  rcases step_cases config state input with
    ⟨error, same⟩ | ⟨reply, after, shape, effect⟩
  · simp only [Machine.visit, same]
  · rw [isOp] at effect
    cases effect with
    | exitAssigned done =>
        simp only [Machine.visit, shape, remember_db]
        exact done.assignments

/--
In every reachable store no peer is its own exit node, and the exit node of an
active peer is an agent without one; `SetExitNode` changes the assignment of
its own peer or none.
-/
theorem exit_assignments_never_chain
    (config : Config)
    (network : NetAddress.Prefix)
    (network6 : Option NetAddress.Prefix)
    (inputs : List Input) :
    (∀ row,
        row ∈ ((machine config).run (.empty network network6)
          inputs).db.tables.peers →
          row.exitNodePeerID ≠ some row.id ∧
            ∀ id, row.isActive = true → row.exitNodePeerID = some id →
              ∃ node,
                node ∈ ((machine config).run (.empty network network6)
                    inputs).db.tables.peers ∧
                  node.id = id ∧ node.peerType = .agent ∧
                  node.exitNodePeerID = none) ∧
      ∀ step : Step,
        step ∈ (machine config).visits (.empty network network6) inputs →
          step.AssignsExit := by
  have unchained := unchained_run config network network6 inputs
  refine ⟨fun row member => ⟨unchained.other row member, ?_⟩, ?_⟩
  · intro id active assigned
    obtain ⟨node, nodeMember, rfl⟩ :=
      List.mem_map.mp
        (((machine config).run (.empty network network6)
          inputs).db.legal.peerExitNode row member id assigned)
    exact ⟨node, nodeMember, rfl,
      unchained.agent row node member nodeMember assigned,
      unchained.last row node member nodeMember active assigned⟩
  · intro step member
    obtain ⟨earlier, later, -, shape⟩ :=
      (machine config).exists_prefix_of_mem_visits member
    rw [shape]
    exact assignsExit_visit config _ _

open Server in
/-- The sample pair: the exit node of the client is an agent without one. -/
theorem exit_assignments_exitPair :
    ∃ node ∈ exitPairStore.db.tables.peers, node.id = 2 ∧
      node.peerType = .agent ∧ node.exitNodePeerID = none := by
  have client : exitClient ∈ exitPairStore.db.tables.peers := by
    decide +kernel
  exact ((exit_assignments_never_chain (.sample false) defaultNetwork
    (some defaultNetwork6) exitPair).1 exitClient client).2 2 rfl rfl

end WgMesh.Store
