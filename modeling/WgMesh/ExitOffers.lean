import WgMesh.EnrollReportAgreement

namespace WgMesh.Server

/-!
# Exit-node offers of enrolments

The handler stores the offer of an enrolment if it differs from the one in the
row that `Enroll` returns.  Neither path of `Enroll` loads that column, so the
row always says that there is no offer, and a withdrawn one stays stored.
-/

open CivilTime RowTables Store Transactions

/-- A row with a public key offers to be an exit node. -/
def Offered (tables : Tables) (publicKey : String) : Prop :=
  ∃ row ∈ tables.peers, row.publicKey = publicKey ∧
    row.advertiseExitNode = true

/-- No assignment to an exit node succeeds. -/
def Unassignable (db : DB) (exitPeerID : Int) : Prop :=
  ∀ client assignment after,
    ¬ Runs (setExitNode client exitPeerID) db (.ok assignment) after

/-- A row without an offer cannot be assigned. -/
theorem unassignable_of_unoffered
    {db : DB}
    {row : PeerRecord}
    (member : row ∈ db.tables.peers)
    (unoffered : row.advertiseExitNode = false) :
    Unassignable db row.id := by
  intro client assignment after run
  obtain ⟨_, assigned⟩ := setExitNode_ok run
  have positive := db.legal.peerPositive row member
  obtain ⟨-, ⟨node, found, -, -, offers, -⟩, -⟩ :=
    assigned.exit (by omega)
  obtain ⟨nodeMember, isID⟩ := mem_of_rowWith? found
  rw [db.eq_of_peerID nodeMember member isID, unoffered] at offers
  cases offers

section Enrolments

variable
  {config : Config}
  {relay : Relay}
  {http : Request}
  {request : EnrollRequest}
  {now : Instant}
  {draw : Draw}
  {before after : State}
  {response : EnrollResponse}

theorem mem_offered
    {tables : Tables}
    {row : PeerRecord}
    {id : Int}
    (member : row ∈ tables.peers)
    (isID : row.id = id)
    (kept : List AgentCandidate)
    (advertise : Bool) :
    (row.withCandidates kept).withOffer advertise ∈
      ((tables.updatePeer id (PeerRecord.withCandidates kept)).updatePeer id
        (PeerRecord.withOffer advertise)).peers := by
  have listed :
      row.withCandidates kept ∈
        (tables.updatePeer id (PeerRecord.withCandidates kept)).peers :=
    mem_updateWhere.mpr ⟨row, member, by simp [isID]⟩
  exact mem_updateWhere.mpr
    ⟨_, listed, by simp [PeerRecord.withCandidates, isID]⟩

/-- The offer after an enrolment is the new one or the old one. -/
theorem offer_of_answer
    (answered :
      (machine config).step before
          ⟨.enroll http (.decoded request) relay now draw, []⟩ =
        (.enrolled response, after)) :
    ∃ row, row ∈ after.store.db.tables.peers ∧
      row.id = response.peerID ∧ row.publicKey = request.publicKey ∧
      (row.advertiseExitNode = true ↔
        request.advertiseExitNode = true ∨
          Offered before.store.db.tables request.publicKey) := by
  obtain ⟨result, db, dns, acl, run, rfl, tables, -⟩ :=
    enrolled_of_answer answered
  rw [tables]
  rcases enroll_ok run with ⟨known, token, ip6, repeated⟩ |
    ⟨key, token, ip, ip6, new⟩
  · obtain ⟨member, isKey⟩ := mem_of_rowWith? repeated.found
    have refreshed :
        known.refresh
            (refreshFor (request.args (config.clientIP http))
              (config.store.hashToken token) (format now) ip6) ∈
          db.tables.peers := by
      rw [repeated.stored]
      exact mem_updateWhere.mpr
        ⟨known, member, by rw [if_pos (beq_self_eq_true known.id)]⟩
    have isID : known.id = result.peer.id := by
      rw [repeated.returned]
      rfl
    refine ⟨_, mem_offered refreshed isID _ _, isID, isKey, ?_⟩
    change (request.advertiseExitNode || known.advertiseExitNode) = true ↔ _
    rw [Bool.or_eq_true]
    refine or_congr_right ⟨fun offers => ⟨known, member, isKey, offers⟩, ?_⟩
    rintro ⟨other, otherMember, sameKey, offers⟩
    rwa [before.store.db.eq_of_publicKey otherMember member
      (sameKey.trans isKey.symm)] at offers
  · have inserted :
        newPeer (request.args (config.clientIP http)) key.id ip ip6
            (config.store.hashToken token) (format now)
            before.store.db.tables.nextPeerID ∈ db.tables.peers := by
      rw [new.stored]
      exact List.mem_append_right _ List.mem_cons_self
    have isID :
        before.store.db.tables.nextPeerID = result.peer.id := by
      rw [new.returned]
      rfl
    refine ⟨_, mem_offered inserted isID _ _, isID, rfl, ?_⟩
    change (request.advertiseExitNode || false) = true ↔ _
    rw [Bool.or_false]
    refine (or_iff_left ?_).symm
    rintro ⟨other, otherMember, sameKey, -⟩
    exact rowWith?_eq_none.mp new.unknown other otherMember sameKey

end Enrolments

/--
An enrolment that is answered leaves the offer of the request, and a peer that
does not offer cannot be assigned, exactly if the request offers or no offer
was stored for its key.
-/
theorem enrolment_stores_offer_iff
    (config : Config)
    (relay : Relay)
    (http : Request)
    (request : EnrollRequest)
    (now : Instant)
    (draw : Draw)
    (before after : State)
    (response : EnrollResponse)
    (answered :
      (machine config).step before
          ⟨.enroll http (.decoded request) relay now draw, []⟩ =
        (.enrolled response, after)) :
    (∃ row, row ∈ after.store.db.tables.peers ∧
        row.id = response.peerID ∧ row.publicKey = request.publicKey ∧
        row.advertiseExitNode = request.advertiseExitNode ∧
        (request.advertiseExitNode = false →
          Unassignable after.store.db response.peerID)) ↔
      request.advertiseExitNode = true ∨
        ¬ Offered before.store.db.tables request.publicKey := by
  obtain ⟨row, member, isID, isKey, offers⟩ := offer_of_answer answered
  constructor
  · rintro ⟨other, otherMember, otherID, -, same, -⟩
    rw [after.store.db.eq_of_peerID otherMember member
      (otherID.trans isID.symm)] at same
    rw [same] at offers
    by_contra neither
    rw [not_or, not_not] at neither
    exact neither.1 (offers.mpr (Or.inr neither.2))
  · intro condition
    have same : row.advertiseExitNode = request.advertiseExitNode := by
      rw [Bool.eq_iff_iff, offers]
      exact or_iff_left_of_imp fun stored =>
        condition.resolve_right (not_not_intro stored)
    exact ⟨row, member, isID, isKey, same, fun withdrawn =>
      isID ▸ unassignable_of_unoffered member (same.trans withdrawn)⟩

/-- The second agent, which offered to be an exit node, enrols again without
the offer. -/
def offerWithdrawn : Input :=
  candidateEnrolment "AQAAAAAAAAAAAAAAAAAAAAAAAAAAAAAAAAAAAAAAAAA=" "again" []
    false

/-- The enrolment is answered, the offer stays, and an administrator can assign
the agent afterwards. -/
theorem withdrawn_offer_assigned :
    (match (machine (.sample true)).step
        ((machine (.sample true)).run .fresh subnetAgents) offerWithdrawn with
      | (.enrolled response, after) =>
          some
            (response.peerID,
              after.store.db.tables.peers.map
                (fun row => (row.id, row.advertiseExitNode)),
              match (machine (.sample true)).step after
                  ⟨.admin ⟨.setExitNode 1 2, rfl⟩, []⟩ with
              | (.admin _, last) =>
                  last.store.db.tables.peers.map (·.exitNodePeerID)
              | _ => [])
      | _ => none) =
      some (2, [(1, false), (2, true)], [some 2, none]) := by
  decide +kernel

/-- The first agent, which never offered, enrols again: it cannot be assigned. -/
theorem enrolment_stores_offer_first :
    ∃ after response,
      (machine (.sample true)).step
          ((machine (.sample true)).run .fresh subnetAgents)
          (candidateEnrolment "AAAAAAAAAAAAAAAAAAAAAAAAAAAAAAAAAAAAAAAAAAA="
            "again" [] false) = (.enrolled response, after) ∧
        Unassignable after.store.db response.peerID := by
  have facts :
      (match (machine (.sample true)).step
          ((machine (.sample true)).run .fresh subnetAgents)
          (candidateEnrolment "AAAAAAAAAAAAAAAAAAAAAAAAAAAAAAAAAAAAAAAAAAA="
            "again" [] false) with
        | (.enrolled _, _) => true
        | _ => false) = true ∧
        ((machine (.sample true)).run .fresh
          subnetAgents).store.db.tables.peers.all (fun row =>
            row.publicKey != "AAAAAAAAAAAAAAAAAAAAAAAAAAAAAAAAAAAAAAAAAAA=" ||
              !row.advertiseExitNode) = true := by
    decide +kernel
  obtain ⟨answered, unoffered⟩ := facts
  split at answered
  · rename_i response after stepped
    refine ⟨after, response, stepped, ?_⟩
    obtain ⟨_, -, -, -, -, unassignable⟩ :=
      (enrolment_stores_offer_iff (.sample true) (fun _ => none)
        ⟨"192.0.2.7:4000", "", ""⟩ _ 0 (.ok "again") _ after response
        stepped).mpr
        (Or.inr (by
          rintro ⟨row, member, isKey, offers⟩
          have fine := List.all_eq_true.mp unoffered row member
          rw [offers, isKey] at fine
          exact absurd fine (by decide)))
    exact unassignable rfl
  · cases answered

end WgMesh.Server
