import WgMesh.FaultFreeReports

namespace WgMesh

/-!
# Enrolment and report payloads

A repeated enrolment and a report build an agent's payload with the same
functions, but from differently loaded rows of the agent itself.  The row of
`reEnroll` lacks the exit node and the stored candidates.  This module compares
the two payloads in the state that the enrolment leaves.
-/

namespace Store

open CivilTime NetAddress RowTables TextScan Transactions

section Settling

variable
  {config : Config}
  {view : NetworkView}
  {args : EnrollArgs}
  {now : Instant}
  {draw : Draw}

/-- Checking the presented key settles. -/
theorem settles_checkPresentedKey
    (setupKey : String)
    (enrolledKeyID : Int) :
    Settles (checkPresentedKey setupKey enrolledKeyID) := by
  refine (settles_query _ _).bind fun found => ?_
  split
  · exact settles_raise _
  · split
    · exact settles_raise _
    · split
      · exact settles_raise _
      · exact settles_pure _

theorem settles_allocateAddr
    (network : Option Prefix)
    (column : String)
    (values : Tables → List String) :
    Settles (allocateAddr network column values) := by
  refine (settles_query _ _).bind fun raws => ?_
  split
  · exact settles_raise _
  · split
    · exact settles_pure _
    · exact settles_raise _

theorem settles_newAuthToken :
    Settles (newAuthToken config draw) := by
  refine Settles.bind ?_ fun token => settles_pure _
  unfold drawn
  split
  · exact settles_pure _
  · exact settles_raise _

/-- A repeated enrolment settles. -/
theorem settles_reEnroll
    (existing : PeerRow)
    (enrolledKeyID : Int) :
    Settles
      (reEnroll config view args existing enrolledKeyID now draw) := by
  refine (settles_checkPresentedKey _ _).bind fun _ => ?_
  refine settles_newAuthToken.bind fun minted => ?_
  refine Settles.bind ?_ fun ip6 => ?_
  · unfold backfillIP6
    split
    · exact settles_allocateAddr _ _ _
    · exact settles_pure _
  · exact (settles_exec _ _).bind fun _ =>
      (settles_query _ _).bind fun _ => settles_pure _

/-- Consuming a setup key settles. -/
theorem settles_consumeSetupKey
    (setupKey time : String) :
    Settles (consumeSetupKey setupKey time) := by
  refine (settles_exec _ _).bind fun rows => ?_
  split
  · refine Settles.bind ?_ fun reason => settles_raise _
    exact (settles_query _ _).attempt.bind fun _ => settles_pure _
  · refine (settles_query _ _).bind fun found => ?_
    split
    · exact settles_pure _
    · exact settles_raise _

/-- A new enrolment settles. -/
theorem settles_enrollNew :
    Settles (enrollNew config view args now draw) := by
  refine (settles_consumeSetupKey _ _).bind fun keyID => ?_
  refine (settles_allocateAddr _ _ _).bind fun ip => ?_
  refine Settles.bind ?_ fun ip6 => ?_
  · unfold allocateIP6IfEnabled
    split
    · exact settles_allocateAddr _ _ _
    · exact settles_pure _
  · exact settles_newAuthToken.bind fun minted =>
      (settles_exec _ _).bind fun id =>
        (settles_query _ _).bind fun _ => settles_pure _

theorem settles_enroll :
    Settles (enroll config view args now draw) := by
  refine Settles.transaction ((settles_query _ _).bind fun found => ?_)
  split
  · exact settles_reEnroll _ _
  · exact settles_enrollNew

end Settling

/-- A write to a peer's own row does not change whom it sees. -/
theorem KeepsReferences.visibleTo_own
    {update : PeerRecord → PeerRecord}
    (keeps : KeepsReferences update)
    (tables : Tables)
    (id : Int)
    (defaultAllow : Bool) :
    (tables.updatePeer id update).visibleTo id defaultAllow =
      tables.visibleTo id defaultAllow := by
  have rows :
      (tables.updatePeer id update).peers =
        tables.peers.map
          (fun row => if row.id == id then update row else row) := rfl
  have rules :
      (tables.updatePeer id update).aclRules = tables.aclRules := rfl
  rw [(keeps.where (fun row => row.id == id)).visibleTo rows rules]
  unfold Tables.visibleTo
  rw [List.map_map]
  apply List.map_congr_left
  intro row member
  have distinct : row.id ≠ id := by
    have seen := (List.mem_filter.mp member).2
    simp only [Tables.isVisible, Bool.and_eq_true, bne_iff_ne] at seen
    exact seen.1.2
  simp [distinct]

/-- An update that changes no row changes no table. -/
theorem Tables.updatePeer_eq_self
    {update : PeerRecord → PeerRecord}
    (same : ∀ row, update row = row)
    (tables : Tables)
    (id : Int) :
    tables.updatePeer id update = tables := by
  have rows :
      updateWhere (fun row : PeerRecord => row.id == id) update
        tables.peers = tables.peers := by
    unfold updateWhere
    simp [same]
  unfold Tables.updatePeer
  rw [rows]

/-- What the handler stores of the valid candidates of a request. -/
def PeerRecord.withCandidates (kept : List AgentCandidate)
    (row : PeerRecord) : PeerRecord :=
  { row with candidates := if kept = [] then row.candidates else kept }

/-- What the handler stores of a request's exit-node offer. -/
def PeerRecord.withOffer (advertise : Bool) (row : PeerRecord) :
    PeerRecord :=
  { row with advertiseExitNode := advertise || row.advertiseExitNode }

/-- The row that a repeated enrolment leaves. -/
def PeerRecord.reEnrolled
    (values : Refresh)
    (kept : List AgentCandidate)
    (advertise : Bool)
    (row : PeerRecord) : PeerRecord :=
  ((row.refresh values).withCandidates kept).withOffer advertise

/-- The tables that a repeated enrolment leaves. -/
def Tables.reEnrolled
    (id : Int)
    (values : Refresh)
    (kept : List AgentCandidate)
    (advertise : Bool)
    (tables : Tables) : Tables :=
  ((tables.updatePeer id (PeerRecord.refresh values)).updatePeer id
    (PeerRecord.withCandidates kept)).updatePeer id
      (PeerRecord.withOffer advertise)

theorem keepsReferences_refresh
    (values : Refresh) :
    KeepsReferences (PeerRecord.refresh values) :=
  ⟨fun _ => rfl, fun _ => rfl, fun _ => rfl, fun _ => rfl⟩

/-- Whom the enrolled peer sees stays the same. -/
theorem Tables.reEnrolled_visibleTo
    (tables : Tables)
    (id : Int)
    (values : Refresh)
    (kept : List AgentCandidate)
    (advertise defaultAllow : Bool) :
    (tables.reEnrolled id values kept advertise).visibleTo id defaultAllow =
      tables.visibleTo id defaultAllow := by
  have listed : KeepsReferences (PeerRecord.withCandidates kept) :=
    ⟨fun _ => rfl, fun _ => rfl, fun _ => rfl, fun _ => rfl⟩
  have offered : KeepsReferences (PeerRecord.withOffer advertise) :=
    ⟨fun _ => rfl, fun _ => rfl, fun _ => rfl, fun _ => rfl⟩
  unfold Tables.reEnrolled
  rw [offered.visibleTo_own, listed.visibleTo_own,
    (keepsReferences_refresh values).visibleTo_own]

/-- The row of the enrolled peer is in the tables it leaves. -/
theorem Tables.mem_reEnrolled
    {tables : Tables}
    {peer : PeerRecord}
    (member : peer ∈ tables.peers)
    (values : Refresh)
    (kept : List AgentCandidate)
    (advertise : Bool) :
    peer.reEnrolled values kept advertise ∈
      (tables.reEnrolled peer.id values kept advertise).peers := by
  have own :
      ∀ {rows : List PeerRecord} {row : PeerRecord}
        (update : PeerRecord → PeerRecord),
        row ∈ rows → row.id = peer.id →
          update row ∈ updateWhere (fun row => row.id == peer.id) update
            rows := by
    intro rows row update rowMember sameID
    exact mem_updateWhere.mpr ⟨row, rowMember, by simp [sameID]⟩
  exact own _ (own _ (own _ member rfl) rfl) rfl

end Store

namespace Server

open CivilTime PairKeys RowTables Store TextScan Transactions

/-- The part of an enrolment's answer that is built from visible peers. -/
def EnrollResponse.payload (response : EnrollResponse) : SyncPayload where
  peers := response.peers
  gatewayRoutes := response.gatewayRoutes
  exitNodeActive := response.exitNodeActive

/--
Two rows of the receiving peer that may differ only in columns the builders
ignore, in the exit node and in the candidates.
-/
structure Resembles (first second : PeerRow) : Prop where
  id : first.id = second.id
  publicKey : first.publicKey = second.publicKey
  publicEndpoint : first.publicEndpoint = second.publicEndpoint

theorem addEach_congr
    {first second : AgentCandidate → Option (String × Nat)}
    {reported : List AgentCandidate}
    (same : ∀ candidate, candidate ∈ reported →
      first candidate = second candidate)
    (out : List EndpointCandidate) :
    addEach first reported out = addEach second reported out := by
  unfold addEach
  apply List.foldl_ext
  intro out candidate member
  rw [same candidate member]

section Compare

variable
  {config : Config}
  {relay : Relay}
  {epochs : PunchEpochs}
  {first second o : PeerRow}
  {others : List PeerRow}

/-- The receiver's candidates only matter for host candidates. -/
theorem Resembles.pairCandidates_eq
    (alike : Resembles first second)
    (subnets :
      ∀ candidate, candidate ∈ agentCandidates o →
        candidate.type = "host" →
        sameV4Subnet (agentCandidates first) candidate.endpoint =
          sameV4Subnet (agentCandidates second) candidate.endpoint)
    (relay : Relay)
    (digest : String → String) :
    pairCandidates relay digest first o =
      pairCandidates relay digest second o := by
  have nat : sameNAT first o = sameNAT second o := by
    simp only [sameNAT, alike.publicEndpoint]
  have behind :
      ∀ candidate, candidate ∈ agentCandidates o →
        pickBehindNAT (agentCandidates first) candidate =
          pickBehindNAT (agentCandidates second) candidate := by
    intro candidate member
    by_cases host : candidate.type = "host"
    · simp only [pickBehindNAT, host, subnets candidate member host]
    · simp only [pickBehindNAT, host, if_false]
  have across :
      ∀ candidate, candidate ∈ agentCandidates o →
        pickHost (agentCandidates first) candidate =
          pickHost (agentCandidates second) candidate := by
    intro candidate member
    by_cases host : candidate.type = "host"
    · simp only [pickHost, host, subnets candidate member host]
    · simp only [pickHost, host, if_false]
  have endpoints :
      endpointCandidates first o = endpointCandidates second o := by
    simp only [endpointCandidates, candidatesBehindNAT,
      candidatesAcrossNAT, nat, addEach_congr behind, addEach_congr across]
  simp only [pairCandidates, relaySource, endpoints, nat, alike.publicKey]

theorem Resembles.peerEntry_eq
    (alike : Resembles first second)
    (exit : isExitNodeOf first o = isExitNodeOf second o)
    (candidates :
      pairCandidates relay config.digest first o =
        pairCandidates relay config.digest second o) :
    peerEntry config relay epochs first others o =
      peerEntry config relay epochs second others o := by
  simp only [peerEntry, agentAllowedIPs, exit, candidates, alike.publicKey]

theorem Resembles.peerEntry_static
    (alike : Resembles first second)
    (isStatic : o.peerType = some .static) :
    peerEntry config relay epochs first others o =
      peerEntry config relay epochs second others o := by
  simp only [peerEntry, isStatic, if_true, alike.publicKey]

theorem Resembles.hasEntry_eq
    (alike : Resembles first second) :
    hasEntry first = hasEntry second := by
  funext o
  simp only [hasEntry, alike.id]

/-- The payloads are equal when the entries are, one by one. -/
theorem Resembles.syncPayload_eq_iff
    (alike : Resembles first second) :
    syncPayload config relay epochs first others =
        syncPayload config relay epochs second others ↔
      ∀ o ∈ others, hasEntry second o = true →
        peerEntry config relay epochs first others o =
          peerEntry config relay epochs second others o := by
  have routes :
      gatewayRoutesFor first others = gatewayRoutesFor second others := by
    simp only [gatewayRoutesFor, alike.id]
  have active :
      exitNodeActiveFor first others = exitNodeActiveFor second others := by
    simp only [exitNodeActiveFor, alike.id]
  simp only [syncPayload, buildPeerEntries, SyncPayload.mk.injEq,
    alike.hasEntry_eq, routes, active, and_true, List.map_inj_left,
    List.mem_filter, and_imp]

end Compare

/-- The row that a repeated enrolment builds its payload from. -/
def reEnrolledRow
    (args : EnrollArgs)
    (ip6 : String)
    (kept : List AgentCandidate)
    (advertise : Bool)
    (peer : PeerRecord) : PeerRow :=
  { refreshedRow args ip6 peer.existingRow with
    candidates := kept
    advertiseExitNode := advertise }

section FaultFreeEnrol

variable {config : Config} {relay : Relay} {state : State}

theorem completes_tried
    {write : StoreM Unit}
    {peer shown : PeerRow}
    {db : DB}
    (complete : Completes write state.store.db (.ok ()) db) :
    Completes (tried write peer shown) state (.ok shown)
      (state.withDB db) :=
  Completes.bind
    (@Completes.zoom _ _ _ _ _ _ State.withDB _ _ _ _ complete)
    (completes_pure _ _)

theorem completes_modifyPeer
    {update : PeerRecord → PeerRecord}
    (same : ∀ row, (update row).columns = row.columns)
    (context : String)
    (id : Int)
    (before : DB) :
    ∃ after,
      Completes
          (modify context fun tables => ((), tables.updatePeer id update))
          before (.ok ()) after ∧
        after.tables = before.tables.updatePeer id update :=
  ⟨⟨before.tables.updatePeer id update, before.legal.updatePeers same⟩,
    completes_exec (write_eq (before.legal.updatePeers same)), rfl⟩

/-- The enrollee's candidates are stored and shown. -/
theorem completes_storeCandidates
    {peer : PeerRow}
    (unlisted : peer.candidates = [])
    (candidates : List AgentCandidate) :
    ∃ db,
      Completes (storeCandidates config candidates peer) state
          (.ok
            { peer with
              candidates := validAgentCandidates config.resolves candidates })
          (state.withDB db) ∧
        db.tables =
          state.store.db.tables.updatePeer peer.id
            (PeerRecord.withCandidates
              (validAgentCandidates config.resolves candidates)) := by
  unfold storeCandidates
  cases kept : validAgentCandidates config.resolves candidates with
  | nil =>
      refine ⟨state.store.db, ?_, ?_⟩
      · rw [if_pos rfl, ← unlisted]
        exact completes_pure _ _
      · exact (Tables.updatePeer_eq_self (fun _ => rfl) _ _).symm
  | cons head rest =>
      obtain ⟨db, complete, stored⟩ :=
        @completes_modifyPeer (fun row => { row with candidates := head :: rest })
          (fun _ => rfl) "update peer candidates" peer.id state.store.db
      refine ⟨db, ?_, stored⟩
      rw [if_neg (List.cons_ne_nil head rest)]
      refine completes_tried ?_
      unfold updatePeerCandidates
      rw [if_neg (List.cons_ne_nil head rest)]
      exact complete

/-- The enrollee's exit-node offer is stored and shown. -/
theorem completes_storeOffer
    {peer : PeerRow}
    (unoffered : peer.advertiseExitNode = false)
    (advertise : Bool) :
    ∃ db,
      Completes (storeOffer advertise peer) state
          (.ok { peer with advertiseExitNode := advertise })
          (state.withDB db) ∧
        db.tables =
          state.store.db.tables.updatePeer peer.id
            (PeerRecord.withOffer advertise) := by
  unfold storeOffer
  cases advertise with
  | false =>
      refine ⟨state.store.db, ?_, ?_⟩
      · rw [if_pos unoffered.symm, ← unoffered]
        exact completes_pure _ _
      · exact (Tables.updatePeer_eq_self (fun _ => rfl) _ _).symm
  | true =>
      obtain ⟨db, complete, stored⟩ :=
        @completes_modifyPeer (fun row => { row with advertiseExitNode := true })
          (fun _ => rfl) "set advertise_exit_node" peer.id state.store.db
      refine ⟨db, ?_, stored⟩
      rw [unoffered, if_neg (by decide)]
      exact completes_tried complete

/-- An enrolment is answered, unless the DNS settings are unreadable. -/
theorem completes_buildResponse
    (result : EnrollResult) :
    Completes (buildResponse config relay result) state
        (.error (.error 500 "internal error")) state ∨
      ∃ dns acl,
        Completes (buildResponse config relay result) state
          (.ok (.enrolled (enrollResponse config relay state result dns acl)))
          state := by
  have read := completes_currentDNSConfig state.store.db
  cases normalized :
      normalizeDNSConfig state.store.db.tables.settings.dns with
  | error error =>
      rw [normalized] at read
      exact Or.inl ((completes_peek _ _).bind
        (completes_storing_error read).bind_error)
  | ok dns =>
      rw [normalized] at read
      exact Or.inr ⟨dns, _, (completes_peek _ _).bind
        ((completes_storing read).bind
          ((completes_storing
            (completes_buildACLPolicy config state.store.db)).bind
            (completes_pure _ _)))⟩

/-- A request is refused before the store is asked, or passes the checks. -/
theorem completes_checkEnrollRequest
    (request : EnrollRequest) :
    Completes (checkEnrollRequest request) state (.ok ()) state ∨
      ∃ text,
        Completes (checkEnrollRequest request) state
          (.error (.error 400 text)) state := by
  have asked :
      ∀ (check : Bool) (text : String),
        Completes (require check text) state (.ok ()) state ∨
          Completes (require check text) state (.error (.error 400 text))
            state := by
    intro check text
    cases check with
    | true => exact Or.inl (completes_pure _ _)
    | false => exact Or.inr (completes_raise _ _)
  rcases asked (request.setupKey != "") "setup_key is required" with
    keyed | refused
  · rcases asked (parseKey request.publicKey).isSome
        "public_key is not a valid WireGuard key" with named | refused
    · rcases asked
          (decide (0 ≤ request.listenPort) &&
            decide (request.listenPort ≤ 65535))
          "listen_port out of range" with ranged | refused
      · exact Or.inl (keyed.bind (named.bind ranged))
      · exact Or.inr ⟨_, keyed.bind (named.bind refused)⟩
    · exact Or.inr ⟨_, keyed.bind refused.bind_error⟩
  · exact Or.inr ⟨_, refused.bind_error⟩

theorem enroll_returns_blank
    {view : NetworkView}
    {args : EnrollArgs}
    {now : Instant}
    {draw : Draw}
    {before after : DB}
    {result : EnrollResult}
    (run :
      Runs (enroll config.store view args now draw) before (.ok result)
        after) :
    result.peer.candidates = [] ∧ result.peer.advertiseExitNode = false := by
  rcases enroll_ok run with ⟨_, _, _, repeated⟩ | ⟨_, _, _, _, new⟩
  · rw [repeated.returned]
    exact ⟨rfl, rfl⟩
  · rw [new.returned]
    exact ⟨rfl, rfl⟩

variable
  {http : Request}
  {request : EnrollRequest}
  {now : Instant}
  {draw : Draw}
  {before after : State}
  {response : EnrollResponse}

/-- What an enrolment answers and leaves. -/
theorem enrolled_of_answer
    (answered :
      (machine config).step before
          ⟨.enroll http (.decoded request) relay now draw, []⟩ =
        (.enrolled response, after)) :
    ∃ result db dns acl,
      Runs
          (enroll config.store before.store.view
            (request.args (config.clientIP http)) now draw)
          before.store.db (.ok result) db ∧
        response =
          enrollResponse config relay after
            { result with
              peer :=
                { result.peer with
                  candidates :=
                    validAgentCandidates config.resolves request.candidates
                  advertiseExitNode := request.advertiseExitNode } }
            dns acl ∧
        after.store.db.tables =
          (db.tables.updatePeer result.peer.id
            (PeerRecord.withCandidates
              (validAgentCandidates config.resolves
                request.candidates))).updatePeer result.peer.id
            (PeerRecord.withOffer request.advertiseExitNode) ∧
        after.punchEpochs = before.punchEpochs := by
  -- The answer is that of the one run without refusals.
  have ends :
      ∀ {result last},
        Completes
            (handleEnroll config relay http (.decoded request) now draw)
            before result last →
          written result = .enrolled response ∧ last = after := by
    intro result last complete
    have step :
        (machine config).step before
            ⟨.enroll http (.decoded request) relay now draw, []⟩ =
          (written result, last) := by
      change
        (written
            (handleEnroll config relay http (.decoded request) now draw
              ⟨before, []⟩).1,
          (handleEnroll config relay http (.decoded request) now draw
            ⟨before, []⟩).2.data) = _
      rw [complete]
    exact Prod.mk.inj (step.symm.trans answered)
  have decoded :
      Completes (decodeJSON 65536 (.decoded request)) before (.ok request)
        before :=
    completes_pure _ _
  rcases @completes_checkEnrollRequest before request with
    checked | ⟨_, refused⟩
  case inr =>
    cases (ends (decoded.bind refused.bind_error)).1
  obtain ⟨outcome, db, enrolled⟩ :=
    @settles_enroll config.store before.store.view
      (request.args (config.clientIP http)) now draw before.store.db
  cases outcome with
  | error error =>
      have failed := (ends (decoded.bind (checked.bind
        ((completes_peek _ _).bind
          (completes_storing_error enrolled).bind_error)))).1
      obtain ⟨_, _, shape⟩ := authError_answers error
      cases (shape.symm.trans failed : _)
  | ok result =>
      obtain ⟨unlisted, unoffered⟩ := enroll_returns_blank enrolled.runs
      obtain ⟨listedDB, listed, listedTables⟩ :=
        @completes_storeCandidates config (before.withDB db) result.peer
          unlisted request.candidates
      obtain ⟨offeredDB, offered, offeredTables⟩ :=
        @completes_storeOffer ((before.withDB db).withDB listedDB)
          { result.peer with
            candidates :=
              validAgentCandidates config.resolves request.candidates }
          unoffered request.advertiseExitNode
      have answers :=
        fun {outcome last} answer =>
          @ends outcome last (decoded.bind (checked.bind
            ((completes_peek _ _).bind ((completes_storing enrolled).bind
              (listed.bind (offered.bind answer))))))
      rcases completes_buildResponse _ with refused | ⟨dns, acl, built⟩
      · cases (answers refused).1
      · obtain ⟨sent, rfl⟩ := answers built
        cases Response.enrolled.inj sent
        exact ⟨result, db, dns, acl, enrolled.runs, rfl,
          offeredTables.trans (congrArg (Tables.updatePeer _ _) listedTables),
          rfl⟩

/-- What a repeated enrolment answers and leaves. -/
theorem reEnrolled_of_answer
    {peer : PeerRecord}
    (found :
      before.store.db.tables.peerWithKey? request.publicKey = some peer)
    (answered :
      (machine config).step before
          ⟨.enroll http (.decoded request) relay now draw, []⟩ =
        (.enrolled response, after)) :
    ∃ tokenHash ip6,
      response.payload =
          syncPayload config relay before.punchEpochs
            (reEnrolledRow (request.args (config.clientIP http)) ip6
              (validAgentCandidates config.resolves request.candidates)
              request.advertiseExitNode peer)
            (before.store.db.tables.visibleTo peer.id
              config.store.defaultAllow) ∧
        after.store.db.tables =
          before.store.db.tables.reEnrolled peer.id
            (refreshFor (request.args (config.clientIP http)) tokenHash
              (format now) ip6)
            (validAgentCandidates config.resolves request.candidates)
            request.advertiseExitNode ∧
        after.punchEpochs = before.punchEpochs := by
  obtain ⟨result, db, dns, acl, run, sent, tables, epochs⟩ :=
    enrolled_of_answer answered
  rcases enroll_ok run with ⟨known, token, ip6, repeated⟩ | ⟨_, _, _, _, new⟩
  case inr => cases new.unknown.symm.trans found
  obtain rfl := Option.some.inj (repeated.found.symm.trans found)
  refine ⟨config.store.hashToken token, ip6, ?_, ?_, epochs⟩
  · have visible :
        result.others =
          before.store.db.tables.visibleTo known.id
            config.store.defaultAllow := by
      rw [repeated.returned]
      change db.tables.visibleTo _ _ = _
      rw [repeated.stored, (keepsReferences_refresh _).visibleTo_own]
    rw [sent]
    change
      syncPayload config relay after.punchEpochs
        { result.peer with
          candidates :=
            validAgentCandidates config.resolves request.candidates
          advertiseExitNode := request.advertiseExitNode }
        result.others = _
    rw [epochs, visible, repeated.returned]
    rfl
  · have row : result.peer.id = known.id := by
      rw [repeated.returned]
      rfl
    rw [tables, row, repeated.stored]
    rfl

end FaultFreeEnrol

/-- A peer's exit node is another active agent. -/
def HasActiveExit (tables : Tables) (peer : PeerRecord) : Prop :=
  ∃ exit ∈ tables.peers, exit.isActive = true ∧
    exit.peerType = .agent ∧ exit.id ≠ peer.id ∧
    peer.exitNodePeerID = some exit.id

/--
No agent that a peer sees has a host candidate in the subnet of a host
candidate stored for the peer.
-/
def SharesNoSubnet (config : Config) (tables : Tables) (peer : PeerRecord) :
    Prop :=
  ∀ other, other ∈ tables.peers →
    tables.isVisible peer.id config.store.defaultAllow other = true →
    other.peerType = .agent →
    ∀ candidate, candidate ∈ agentCandidates other.visibleRow →
      candidate.type = "host" →
      sameV4Subnet (agentCandidates peer.selfRow) candidate.endpoint = false

section Agreement

variable
  {config : Config}
  {db : DB}
  {peer : PeerRecord}
  {args : EnrollArgs}
  {ip6 : String}
  {kept : List AgentCandidate}
  {advertise : Bool}
  {values : Refresh}

/-- The two rows of a peer that enrolled again resemble each other. -/
theorem resembles_reEnrolled
    (named : peer.publicKey = args.publicKey)
    (endpoint : values.publicEndpoint = nullable args.publicEndpoint) :
    Resembles (reEnrolledRow args ip6 kept advertise peer)
      (peer.reEnrolled values kept advertise).selfRow where
  id := rfl
  publicKey := named.symm
  publicEndpoint := by
    change
      orKeep args.publicEndpoint (orEmpty peer.publicEndpoint) =
        orEmpty (coalesce values.publicEndpoint peer.publicEndpoint)
    rw [endpoint]
    unfold orKeep nullable coalesce
    split <;> rfl

theorem isExitNodeOf_reEnrolledRow
    (o : PeerRow) :
    isExitNodeOf (reEnrolledRow args ip6 kept advertise peer) o = false :=
  rfl

theorem isExitNodeOf_eq_false
    (noExit : ¬ HasActiveExit db.tables peer)
    {other : PeerRecord}
    (member : other ∈ db.tables.peers)
    {defaultAllow : Bool}
    (seen : db.tables.isVisible peer.id defaultAllow other = true)
    (agent : other.peerType = .agent) :
    isExitNodeOf peer.selfRow other.visibleRow = false := by
  rw [Bool.eq_false_iff]
  intro exit
  simp only [Tables.isVisible, Bool.and_eq_true, bne_iff_ne] at seen
  exact noExit ⟨other, member, seen.1.1, agent, seen.1.2,
    (isExitNodeOf_iff member).mp exit⟩

/-- The ranking for a visible agent is the same from both rows. -/
theorem pairCandidates_reEnrolled
    (alike :
      Resembles (reEnrolledRow args ip6 kept advertise peer)
        (peer.reEnrolled values kept advertise).selfRow)
    (settled : kept ≠ [] ∨ SharesNoSubnet config db.tables peer)
    {other : PeerRecord}
    (member : other ∈ db.tables.peers)
    (seen :
      db.tables.isVisible peer.id config.store.defaultAllow other = true)
    (agent : other.peerType = .agent)
    (relay : Relay) :
    pairCandidates relay config.digest
        (reEnrolledRow args ip6 kept advertise peer) other.visibleRow =
      pairCandidates relay config.digest
        (peer.reEnrolled values kept advertise).selfRow other.visibleRow := by
  refine alike.pairCandidates_eq ?_ relay config.digest
  intro candidate listed host
  by_cases nothing : kept = []
  · have apart :=
      settled.resolve_left (fun some => some nothing) other member seen agent
        candidate listed host
    have stored :
        agentCandidates (peer.reEnrolled values kept advertise).selfRow =
          agentCandidates peer.selfRow := by
      simp [agentCandidates, PeerRecord.reEnrolled, PeerRecord.refresh,
        PeerRecord.withCandidates, PeerRecord.withOffer, PeerRecord.selfRow,
        PeerRecord.visibleRow, nothing]
    have unlisted :
        agentCandidates (reEnrolledRow args ip6 kept advertise peer) = [] := by
      simp [agentCandidates, reEnrolledRow, nothing]
    rw [stored, apart, unlisted]
    simp only [sameV4Subnet, List.any_nil]
    split <;> rfl
  · have stored :
        agentCandidates (peer.reEnrolled values kept advertise).selfRow =
          agentCandidates (reEnrolledRow args ip6 kept advertise peer) := by
      simp [agentCandidates, PeerRecord.reEnrolled, PeerRecord.refresh,
        PeerRecord.withCandidates, PeerRecord.withOffer, PeerRecord.selfRow,
        PeerRecord.visibleRow, reEnrolledRow, nothing]
    rw [stored]

end Agreement

/--
A repeated enrolment hands out what a report would, provided the agent has no
active exit node, and either the request carries a valid candidate or the
candidates stored for the agent share no subnet with an agent it sees.  With an
active exit node the two always differ.
-/
theorem enrolment_agrees_with_report
    (config : Config)
    (relay : Relay)
    (http : Request)
    (request : EnrollRequest)
    (now : Instant)
    (draw : Draw)
    (before after : State)
    (response : EnrollResponse)
    (peer stored : PeerRecord)
    (known : peer ∈ before.store.db.tables.peers)
    (named : peer.publicKey = request.publicKey)
    (answered :
      (machine config).step before
          ⟨.enroll http (.decoded request) relay now draw, []⟩ =
        (.enrolled response, after))
    (member : stored ∈ after.store.db.tables.peers)
    (sameKey : stored.publicKey = request.publicKey) :
    (response.payload =
          reportPayload config relay after.punchEpochs
            after.store.db.tables stored →
        ¬ HasActiveExit before.store.db.tables peer) ∧
      (¬ HasActiveExit before.store.db.tables peer →
        validAgentCandidates config.resolves request.candidates ≠ [] ∨
          SharesNoSubnet config before.store.db.tables peer →
        response.payload =
          reportPayload config relay after.punchEpochs
            after.store.db.tables stored) := by
  have found :
      before.store.db.tables.peerWithKey? request.publicKey = some peer :=
    named ▸ rowWith?_eq_some before.store.db.legal.publicKeyUnique known
  obtain ⟨tokenHash, ip6, payload, tables, epochs⟩ :=
    reEnrolled_of_answer found answered
  generalize shape :
    refreshFor (request.args (config.clientIP http)) tokenHash (format now)
      ip6 = values at tables
  have endpoint :
      values.publicEndpoint =
        nullable (request.args (config.clientIP http)).publicEndpoint := by
    rw [← shape]
    rfl
  have kept := Tables.mem_reEnrolled known values
    (validAgentCandidates config.resolves request.candidates)
    request.advertiseExitNode
  have reported := Tables.reEnrolled_visibleTo before.store.db.tables peer.id
    values (validAgentCandidates config.resolves request.candidates)
    request.advertiseExitNode config.store.defaultAllow
  rw [← tables] at kept reported
  obtain rfl :=
    after.store.db.eq_of_publicKey member kept (sameKey.trans named.symm)
  have alike :=
    @resembles_reEnrolled peer (request.args (config.clientIP http)) ip6
      (validAgentCandidates config.resolves request.candidates)
      request.advertiseExitNode values named endpoint
  have compared :=
    @Resembles.syncPayload_eq_iff config relay before.punchEpochs _ _
      (before.store.db.tables.visibleTo peer.id config.store.defaultAllow)
      alike
  rw [payload, epochs]
  unfold reportPayload
  rw [show (peer.reEnrolled values
      (validAgentCandidates config.resolves request.candidates)
      request.advertiseExitNode).id = peer.id from rfl, reported, compared]
  constructor
  · rintro equal ⟨exit, exitMember, active, agent, distinct, assigned⟩
    have seen :
        before.store.db.tables.isVisible peer.id
          config.store.defaultAllow exit = true :=
      (before.store.db.isVisible_iff known exitMember).mpr
        ⟨active, distinct, Or.inr (Or.inr (Or.inl assigned))⟩
    have marked :=
      congrArg PeerConfigResponse.exitNode
        (equal exit.visibleRow (mem_visibleTo.mpr ⟨exit, exitMember, seen, rfl⟩)
          (hasEntry_of_agent agent _))
    have exits : isExitNodeOf peer.selfRow exit.visibleRow = true :=
      (isExitNodeOf_iff exitMember).mpr assigned
    rw [peerEntry_exitNode, peerEntry_exitNode, isExitNodeOf_reEnrolledRow]
      at marked
    simp [PeerRecord.visibleRow, agent] at marked
    exact Bool.false_ne_true (marked.symm.trans exits)
  · intro noExit settled o visible has
    obtain ⟨other, otherMember, seen, rfl⟩ := mem_visibleTo.mp visible
    by_cases agent : other.peerType = .agent
    · refine alike.peerEntry_eq ?_
        (pairCandidates_reEnrolled alike settled otherMember seen agent relay)
      rw [isExitNodeOf_reEnrolledRow]
      exact (isExitNodeOf_eq_false noExit otherMember seen agent).symm
    · have isStatic : other.visibleRow.peerType = some .static := by
        cases type : other.peerType with
        | agent => exact (agent type).elim
        | static => exact congrArg some type
      exact alike.peerEntry_static isStatic

/-- An enrolment with candidates, which may offer an exit node. -/
def candidateEnrolment
    (publicKey token : String)
    (candidates : List AgentCandidate)
    (advertise : Bool) : Input where
  call :=
    .enroll ⟨"192.0.2.7:4000", "", ""⟩
      (.decoded
        { setupKey := "key"
          publicKey := publicKey
          hostname := ""
          listenPort := 51820
          publicEndpoint := ""
          candidates := candidates
          advertiseExitNode := advertise })
      (fun _ => none) 0 (.ok token)
  answers := []

/-- The two agents, each with a host candidate in one subnet. -/
def subnetAgents : List Input :=
  [⟨.admin ⟨sampleSetupKey, isAdmin_sampleSetupKey⟩, []⟩,
    candidateEnrolment "AAAAAAAAAAAAAAAAAAAAAAAAAAAAAAAAAAAAAAAAAAA=" "first"
      [⟨"192.168.1.5:51820", "host"⟩] false,
    candidateEnrolment "AQAAAAAAAAAAAAAAAAAAAAAAAAAAAAAAAAAAAAAAAAA="
      "second" [⟨"192.168.1.6:51820", "host"⟩] true]

/-- The first agent enrols again after some requests: both payloads. -/
def payloadsAfter
    (inputs : List Input)
    (candidates : List AgentCandidate) :
    Option (SyncPayload × SyncPayload) :=
  match (machine (.sample true)).step
      ((machine (.sample true)).run .fresh inputs)
      (candidateEnrolment "AAAAAAAAAAAAAAAAAAAAAAAAAAAAAAAAAAAAAAAAAAA="
        "again" candidates false) with
  | (.enrolled response, after) =>
      (after.store.db.tables.peerWithKey?
        "AAAAAAAAAAAAAAAAAAAAAAAAAAAAAAAAAAAAAAAAAAA=").map fun stored =>
          (response.payload,
            reportPayload (.sample true) (fun _ => none) after.punchEpochs
              after.store.db.tables stored)
  | _ => none

/--
An agent with an exit node that enrols again with its stored candidates is
told of no exit node, and one that sends no candidates is not told of the
host candidate in its subnet; the next report brings both back.
-/
theorem enrolment_forgets :
    (payloadsAfter
          (subnetAgents ++ [⟨.admin ⟨.setExitNode 1 2, rfl⟩, []⟩])
          [⟨"192.168.1.5:51820", "host"⟩]).map
        (fun payloads =>
          (payloads.1.peers.map (·.exitNode),
            payloads.2.peers.map (·.exitNode))) =
        some ([false], [true]) ∧
      (payloadsAfter subnetAgents []).map
          (fun payloads =>
            (payloads.1.peers.map
                (fun entry => entry.endpointCandidates.map (·.type)),
              payloads.2.peers.map
                (fun entry => entry.endpointCandidates.map (·.type)))) =
        some ([["lan"]], [["host", "lan"]]) := by
  decide +kernel

/-- Without an exit node, stored candidates bring the report's payload. -/
theorem enrolment_agrees_subnetAgents :
    ∃ payload,
      payloadsAfter subnetAgents [⟨"192.168.1.5:51820", "host"⟩] =
        some (payload, payload) := by
  have facts :
      (payloadsAfter subnetAgents
          [⟨"192.168.1.5:51820", "host"⟩]).isSome = true ∧
        (((machine (.sample true)).run .fresh
            subnetAgents).store.db.tables.peerWithKey?
          "AAAAAAAAAAAAAAAAAAAAAAAAAAAAAAAAAAAAAAAAAAA=").any
            (fun peer => peer.exitNodePeerID.isNone) = true := by
    decide +kernel
  obtain ⟨answered, unassigned⟩ := facts
  obtain ⟨peer, found, noExit⟩ := (Option.any_eq_true _ _).mp unassigned
  obtain ⟨known, named⟩ := mem_of_rowWith? found
  unfold payloadsAfter at answered ⊢
  split at answered
  · rename_i response after stepped
    rw [Option.isSome_map] at answered
    obtain ⟨stored, kept⟩ := Option.isSome_iff_exists.mp answered
    obtain ⟨member, sameKey⟩ := mem_of_rowWith? kept
    have agree :=
      (enrolment_agrees_with_report (.sample true) (fun _ => none)
        ⟨"192.0.2.7:4000", "", ""⟩ _ 0 (.ok "again") _ after response peer
        stored known named stepped member sameKey).2
          (by
            rintro ⟨exit, -, -, -, -, assigned⟩
            rw [assigned] at noExit
            cases noExit)
          (Or.inl (by decide))
    simp only [kept, Option.map_some, ← agree]
    exact ⟨_, rfl⟩
  · cases answered

end Server

end WgMesh
