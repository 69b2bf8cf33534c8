import WgMesh.RelayAuthorization

namespace WgMesh.Store

/-!
# What stays of a peer

Agents enrol again, report, are revoked and are shown to others while their row
and its overlay addresses stay.  Only an administrator moves or removes them.
-/

open FiniteRuns

/-- The operations that may move or remove a peer. -/
def Op.disturbs (id : Int) : Op → Bool
  | .removePeer other => other == id
  | .updatePeerAddress other _ _ => other == id
  | .applyNetworkMigration _ _ => true
  | _ => false

/-- A row has the addresses of an older one; a missing one may be added. -/
def PeerRecord.KeepsAddresses (old row : PeerRecord) : Prop :=
  row.assignedIP = old.assignedIP ∧
    ∀ ip6, ip6 ≠ "" → old.assignedIP6 = some ip6 →
      row.assignedIP6 = some ip6

variable {config : Config} {view : NetworkView} {before after : DB}
  {op : Op} {reply : Reply} {row old : PeerRecord}

/-- Addresses change only where an operation disturbs the peer. -/
theorem RowOrigin.keepsAddresses
    (origin : RowOrigin config view before after op reply row)
    (undisturbed : op.disturbs row.id = false) :
    (∃ old ∈ before.tables.peers, old.id = row.id ∧
        old.KeepsAddresses row) ∨
      row.id = before.tables.nextPeerID := by
  cases origin with
  | enrolled _ | static _ => exact Or.inr rfl
  | @refreshed args _ _ _ old token ip6 member done =>
      refine Or.inl ⟨old, member, rfl, rfl, ?_⟩
      intro had given isHad
      -- Only a missing address is filled in.
      have backfill := done.backfill
      have unfilled : ip6 = "" := by
        simpa [isHad, orEmpty, given] using backfill
      simp [PeerRecord.refresh, refreshFor, unfilled, nullable, coalesce,
        isHad]
  | readdressed _ unrevoked _ =>
      simp only [Op.disturbs, PeerRecord.isUnrevoked, Bool.and_eq_true,
        beq_iff_eq, beq_eq_false_iff_ne] at undisturbed unrevoked
      exact (undisturbed unrevoked.1.symm).elim
  | moved _ _ _ => cases undisturbed
  | kept member | cleared member _ | candidates member _ | offer member _
  | exit member _ | reported member _ | revoked member _ =>
      exact Or.inl ⟨_, member, rfl, rfl, fun _ _ had => had⟩

/-- An operation that does not disturb a peer keeps its row. -/
theorem Effect.keepsPeer
    (effect : Effect config view before after op reply)
    (member : old ∈ before.tables.peers)
    (undisturbed : op.disturbs old.id = false) :
    ∃ row ∈ after.tables.peers, old.Continues row ∧
      old.KeepsAddresses row := by
  obtain ⟨row, rowMember, continued⟩ := effect.persists member (by
    rintro rfl
    simp [Op.disturbs] at undisturbed)
  refine ⟨row, rowMember, continued, ?_⟩
  rcases (effect.origin rowMember).keepsAddresses
      (continued.id ▸ undisturbed) with
    ⟨source, sourceMember, sameID, kept⟩ | new
  · have isOld : source = old :=
      before.eq_of_peerID sourceMember member (sameID.trans continued.id)
    exact isOld ▸ kept
  · exact (Tables.nextPeerID_not_mem member
      (continued.id.symm.trans new)).elim

/--
Through every run of the store, a peer that is neither removed nor moved keeps
its row, key, setup key and type, its revocation, and its overlay addresses.
-/
theorem peer_keeps_addresses
    (config : Config)
    {start : State}
    {inputs : List Input}
    {old : PeerRecord}
    (member : old ∈ start.db.tables.peers)
    (undisturbed :
      ∀ input ∈ inputs, input.op.disturbs old.id = false) :
    ∃ row, row ∈ ((machine config).run start inputs).db.tables.peers ∧
      old.Continues row ∧ old.KeepsAddresses row := by
  refine @Machine.run_invariant_on _ _ _ (machine config)
    (fun state => ∃ row ∈ state.db.tables.peers, old.Continues row ∧
      old.KeepsAddresses row)
    (fun input => input.op.disturbs old.id = false) ?_ _
    ⟨old, member, .refl old, rfl, fun _ _ had => had⟩ _ undisturbed
  rintro state input ⟨row, present, continued, kept⟩ allowed
  rcases step_cases config state input with
    ⟨error, stepped⟩ | ⟨reply, after, stepped, effect⟩
  · rw [stepped]
    exact ⟨row, present, continued, kept⟩
  · obtain ⟨next, nextMember, later, laterKept⟩ :=
      effect.keepsPeer present (continued.id ▸ allowed)
    rw [stepped, remember_db]
    refine ⟨next, nextMember, ⟨later.id.trans continued.id,
      later.publicKey.trans continued.publicKey,
      later.setupKeyID.trans continued.setupKeyID,
      later.peerType.trans continued.peerType, ?_⟩,
      laterKept.1.trans kept.1, fun ip6 given had =>
        laterKept.2 ip6 given (kept.2 ip6 given had)⟩
    intro revoked
    have same := continued.revoked revoked
    rw [later.revoked (same ▸ revoked), same]

/-- An agent that enrols again and is revoked keeps its addresses. -/
theorem peer_keeps_addresses_alice :
    Server.alice ∈ Server.strangersState.store.db.tables.peers ∧
      ∃ row,
        row ∈ ((machine (.sample false)).run Server.strangersState.store
          (Server.strangers.tail ++
            [Op.accepted (.revokePeer 1 0)])).db.tables.peers ∧
          Server.alice.Continues row ∧ Server.alice.KeepsAddresses row :=
  ⟨by decide +kernel,
    peer_keeps_addresses _ (by decide +kernel) (by decide +kernel)⟩

end WgMesh.Store
