import WgMesh.ServerHandlers

namespace WgMesh.Server

/-!
# The control plane as a client of the store

Whatever a handler does to the database, it does through store operations.
`Performed` says which ones each request may perform, and `handle_performs`
that a handler's run is such a sequence.  Invariants of the store therefore
carry over to the control plane, and a fact about one kind of request needs
only the operations of that kind.
-/

open CivilTime FiniteRuns NetAddress PairKeys RowTables Store TextScan
open Transactions

variable {Value : Type}

/-- Successful store operations, one after the other. -/
inductive Path (config : Store.Config) :
    Store.State → List (Op × Reply) → Store.State → Prop where
  | nil (state : Store.State) : Path config state [] state
  | cons
      {state final : Store.State}
      {after : DB}
      {op : Op}
      {reply : Reply}
      {rest : List (Op × Reply)}
      (effect : Effect config state.view state.db after op reply)
      (later :
        Path config (remember { state with db := after } op reply)
          rest final) :
      Path config state ((op, reply) :: rest) final

/-- What every operation of a path preserves, the path preserves. -/
theorem Path.invariant
    {config : Store.Config}
    {invariant : Store.State → Prop}
    {allowed : Op → Prop}
    (kept :
      ∀ state after op reply,
        invariant state → allowed op →
          Effect config state.view state.db after op reply →
            invariant (remember { state with db := after } op reply))
    {state final : Store.State}
    {ops : List (Op × Reply)}
    (path : Path config state ops final)
    (conforms : ∀ step ∈ ops, allowed step.1)
    (holds : invariant state) :
    invariant final := by
  induction path with
  | nil state => exact holds
  | cons effect later inductionHypothesis =>
      refine inductionHypothesis
        (fun step member => conforms step (List.mem_cons_of_mem _ member)) ?_
      exact kept _ _ _ _ holds (conforms _ List.mem_cons_self) effect

/-- What `handleEnroll` has checked of a request it passes on. -/
structure EnrollRequest.Checked (request : EnrollRequest) : Prop where
  setupKey : request.setupKey ≠ ""
  publicKey : (parseKey request.publicKey).isSome = true
  listenPort : 0 ≤ request.listenPort ∧ request.listenPort ≤ 65535

/-- What `handleEnroll` may write after the enrolment has committed. -/
def EnrollRequest.FollowUp
    (config : Config)
    (request : EnrollRequest)
    (id : Int)
    (step : Op × Reply) : Prop :=
  step =
      (.updatePeerCandidates id
        (validAgentCandidates config.resolves request.candidates), .done) ∨
    step = (.setAdvertiseExitNode id request.advertiseExitNode, .done)

/-- The store operations that a request performs. -/
inductive Performed (config : Config) (state : State) :
    Call → List (Op × Reply) → Prop where
  | nothing (call : Call) : Performed config state call []
  | enrolled
      {http : Request} {request : EnrollRequest} {relay : Relay}
      {now : Instant} {draw : Draw} {result : EnrollResult}
      {followUps : List (Op × Reply)}
      (checked : request.Checked)
      (follows :
        ∀ step, step ∈ followUps →
          request.FollowUp config result.peer.id step) :
      Performed config state
        (.enroll http (.decoded request) relay now draw)
        ((.enroll (request.args (config.clientIP http)) now draw,
          .enrolled result) :: followUps)
  | reported
      {http : Request} {report : ReportRequest} {relay : Relay}
      {times : ReportTimes} {token : String} {peer : PeerRecord}
      (bearer : cutPrefix "Bearer " http.authorization = some token)
      (member : peer ∈ state.store.db.tables.peers)
      (hashed :
        peer.authTokenHash = some (config.store.hashToken token))
      (active : peer.isActive = true) :
      Performed config state
        (.report http (.decoded report) relay times)
        [(.applyReport peer.id (config.clientIP http)
          (config.admitted report) times.applied, .done)]
  | mobilePeer
      {request : MobilePeerRequest} {fresh : Except String Key}
      {now : Instant} {keyDraw tokenDraw : Draw} {spec : StaticPeer}
      {key : Key} {info : PeerInfo}
      (canonical : spec.publicKey = (config.publicKeyOf key).text) :
      Performed config state
        (.createMobilePeer (.decoded request) fresh now keyDraw tokenDraw)
        [(.createStaticPeer spec now keyDraw tokenDraw, .peer info)]
  | migrated
      {request : NetworkMigrationRequest} {target4 target6 : Prefix}
      {plan : NetworkMigrationPlan}
      (families :
        target4.addr.family = .v4 ∧ target6.addr.family = .v6) :
      Performed config state (.applyNetworkMigration (.decoded request))
        [(.applyNetworkMigration target4 target6, .plan plan)]
  | admin
      (op : AdminOp) (reply : Reply) :
      Performed config state (.admin op) [(op.op, reply)]

@[simp] theorem State.withDB_self
    (state : State) :
    state.withDB state.store.db = state :=
  rfl

/-- A handler has raised an error response. -/
def Refused (result : Except Response Value) : Prop :=
  ∃ status text, result = .error (.error status text)

/-- A stage of a handler: it refuses and changes nothing, or it yields. -/
def Stage
    (action : HandlerM Value)
    (yields : State → Value → State → Prop) : Prop :=
  ∀ before result after, Runs action before result after →
    Refused result ∧ after = before ∨
      ∃ value, result = .ok value ∧ yields before value after

/-- A step of a handler that never refuses. -/
def Total
    (action : HandlerM Value)
    (yields : State → Value → State → Prop) : Prop :=
  ∀ before result after, Runs action before result after →
    ∃ value, result = .ok value ∧ yields before value after

variable {Result : Type} {first : HandlerM Value}
  {next : Value → HandlerM Result} {yields : State → Value → State → Prop}
  {before after : State} {action : StoreM Value} {config : Config}
  {outcome : Except Response Response} {peer row : PeerRow}

/-- A handler continues after a step that never refuses. -/
theorem Total.bind_inv
    {result : Except Response Result}
    (total : Total first yields)
    (run : Runs (first >>= next) before result after) :
    ∃ value middle, yields before value middle ∧
      Runs (next value) middle result after := by
  rcases run.bind_inv with
    ⟨_, stopped, -⟩ | ⟨value, middle, started, rest⟩
  · obtain ⟨_, impossible, -⟩ := total _ _ _ stopped
    cases impossible
  · obtain ⟨_, shape, yielded⟩ := total _ _ _ started
    cases shape
    exact ⟨value, middle, yielded, rest⟩

theorem Total.stage
    {action : HandlerM Value}
    (total : Total action yields) :
    Stage action yields :=
  fun before result after run => Or.inr (total before result after run)

/-- A handler stops at a stage or continues with what the stage yields. -/
theorem Stage.bind_inv
    {result : Except Response Result}
    (stage : Stage first yields)
    (run : Runs (first >>= next) before result after) :
    Refused result ∧ after = before ∨
      ∃ value middle, yields before value middle ∧
        Runs (next value) middle result after := by
  rcases run.bind_inv with
    ⟨response, stopped, shape⟩ | ⟨value, middle, started, rest⟩
  · rcases stage _ _ _ stopped with
      ⟨⟨status, text, refused⟩, same⟩ | ⟨_, impossible, -⟩
    · cases refused
      exact Or.inl ⟨⟨status, text, shape⟩, same⟩
    · cases impossible
  · rcases stage _ _ _ started with
      ⟨⟨_, _, impossible⟩, -⟩ | ⟨_, shape, yielded⟩
    · cases impossible
    · cases shape
      exact Or.inr ⟨value, middle, yielded, rest⟩

/-- Stages compose. -/
theorem Stage.bind
    {ends : State → Result → State → Prop}
    (stage : Stage first yields)
    (unchanged :
      ∀ before value middle, yields before value middle → middle = before)
    (later :
      ∀ value, Stage (next value)
        (fun before result after =>
          yields before value before → ends before result after)) :
    Stage (first >>= next) ends := by
  intro before result after run
  rcases stage.bind_inv run with refused | ⟨value, middle, yielded, rest⟩
  · exact Or.inl refused
  · have same := unchanged _ _ _ yielded
    subst middle
    rcases later value _ _ _ rest with refused | ⟨final, shape, ended⟩
    · exact Or.inl refused
    · exact Or.inr ⟨final, shape, ended yielded⟩

theorem raise_stage
    (status : Nat)
    (text : String)
    (yields : State → Value → State → Prop) :
    Stage (raise (.error status text)) yields := by
  intro before result after run
  obtain ⟨shape, same⟩ := run.raise_inv
  exact Or.inl ⟨⟨status, text, shape⟩, same⟩

theorem pure_total
    (value : Value) :
    Total (pure value)
      (fun before result after => result = value ∧ after = before) := by
  intro before result after run
  obtain ⟨shape, same⟩ := run.pure_inv
  exact ⟨value, shape, rfl, same⟩

theorem peek_total
    (read : State → Value) :
    Total (peek read)
      (fun before value after => value = read before ∧ after = before) := by
  intro before result after run
  obtain ⟨shape, same⟩ := run.peek_inv
  exact ⟨_, shape, rfl, same⟩

theorem onStore_total
    (action : StoreM Value) :
    Total (onStore action)
      (fun before outcome after =>
        ∃ db, after = before.withDB db ∧
          Runs action before.store.db outcome db) := by
  intro before result after run
  obtain ⟨outcome, db, shape, inner, afterShape⟩ := run.zoom_inv
  exact ⟨outcome, shape, db, afterShape, inner⟩

theorem Stage.mono
    {action : HandlerM Value}
    {weaker : State → Value → State → Prop}
    (stage : Stage action yields)
    (implied :
      ∀ before value after,
        yields before value after → weaker before value after) :
    Stage action weaker := by
  intro before result after run
  rcases stage _ _ _ run with refused | ⟨value, shape, yielded⟩
  · exact Or.inl refused
  · exact Or.inr ⟨value, shape, implied _ _ _ yielded⟩

theorem require_stage
    (check : Bool)
    (text : String) :
    Stage (require check text)
      (fun before _ after => check = true ∧ after = before) := by
  unfold require
  split
  · rename_i holds
    exact (pure_total ()).stage.mono (fun _ _ _ yielded => ⟨holds, yielded.2⟩)
  · exact raise_stage _ _ _

theorem decodeJSON_stage
    (maxBytes : Int)
    (body : Body Value) :
    Stage (decodeJSON maxBytes body)
      (fun before value after =>
        body = .decoded value ∧ after = before) := by
  unfold decodeJSON
  split
  · exact (pure_total _).stage.mono
      (fun _ _ _ yielded => ⟨by rw [yielded.1], yielded.2⟩)
  · exact raise_stage _ _ _
  · exact raise_stage _ _ _

/-- An atomic store operation yields its value or is answered. -/
theorem storing_stage
    {answer : StoreError → Response}
    (answers : ∀ error, ∃ status text, answer error = .error status text)
    (atomic : Atomic action) :
    Stage (storing answer action)
      (fun before value after =>
        ∃ db, after = before.withDB db ∧
          Runs action before.store.db (.ok value) db) := by
  intro before result after run
  obtain ⟨outcome, middle, ⟨db, middleShape, inner⟩, rest⟩ :=
    (onStore_total action).bind_inv run
  cases outcome with
  | ok value =>
      obtain ⟨resultShape, same⟩ := rest.pure_inv
      exact Or.inr ⟨value, resultShape, db, same.trans middleShape, inner⟩
  | error error =>
      obtain ⟨resultShape, same⟩ := rest.raise_inv
      obtain ⟨status, text, answered⟩ := answers error
      have unchanged := atomic _ _ _ inner
      subst db
      rw [answered] at resultShape
      exact Or.inl ⟨⟨status, text, resultShape⟩, same.trans middleShape⟩

theorem reading_stage
    {answer : StoreError → Response}
    (answers : ∀ error, ∃ status text, answer error = .error status text)
    (readOnly : ReadOnly action) :
    Stage (storing answer action)
      (fun before value after =>
        Runs action before.store.db (.ok value) before.store.db ∧
          after = before) := by
  refine (storing_stage answers readOnly.atomic).mono ?_
  rintro before value after ⟨db, afterShape, inner⟩
  have same := readOnly _ _ _ inner
  subst db
  exact ⟨inner, afterShape⟩

theorem internalError_answers
    (error : StoreError) :
    ∃ status text, internalError error = .error status text :=
  ⟨500, _, rfl⟩

theorem authError_answers
    (error : StoreError) :
    ∃ status text, authError error = .error status text := by
  unfold authError
  split
  · exact ⟨401, _, rfl⟩
  · exact ⟨500, _, rfl⟩

/-- The checks of `handleEnroll` leave a checked request. -/
theorem checkEnrollRequest_stage
    (request : EnrollRequest) :
    Stage (checkEnrollRequest request)
      (fun before _ after => request.Checked ∧ after = before) := by
  refine (require_stage _ _).bind (fun _ _ _ yielded => yielded.2) ?_
  intro _
  refine (require_stage _ _).bind (fun _ _ _ yielded => yielded.2) ?_
  intro _
  refine (require_stage _ _).mono ?_
  rintro before _ after ⟨inRange, same⟩ ⟨validKey, -⟩ ⟨hasKey, -⟩
  exact ⟨⟨by simpa using hasKey, validKey, by simpa using inRange⟩, same⟩

theorem Path.single
    {config : Store.Config}
    {state : Store.State}
    {after : DB}
    {op : Op}
    {reply : Reply}
    (effect : Effect config state.view state.db after op reply) :
    Path config state [(op, reply)]
      (remember { state with db := after } op reply) :=
  .cons effect (.nil _)

theorem Path.append
    {config : Store.Config}
    {first middle last : Store.State}
    {firstOps lastOps : List (Op × Reply)}
    (leading : Path config first firstOps middle)
    (trailing : Path config middle lastOps last) :
    Path config first (firstOps ++ lastOps) last := by
  induction leading with
  | nil state => exact trailing
  | cons effect _ inductionHypothesis =>
      exact .cons effect (inductionHypothesis trailing)

theorem Path.of_runs
    {config : Store.Config}
    {state : Store.State}
    {wrap : Value → Reply}
    {value : Value}
    {db : DB}
    (op : Op)
    (performed : perform config state.view op = answering wrap action)
    (run : Runs action state.db (.ok value) db) :
    Path config state [(op, wrap value)]
      (remember { state with db } op (wrap value)) := by
  refine .single (perform_ok ?_)
  rw [performed]
  exact run.then_pure wrap

/-- A tried write took place and is shown, or nothing happened. -/
def Tried
    (write : StoreM Unit)
    (peer shown row : PeerRow)
    (before after : State) : Prop :=
  row = peer ∧ after = before ∨
    row = shown ∧
      ∃ db, after = before.withDB db ∧
        Runs write before.store.db (.ok ()) db

/-- Trying an atomic write. -/
theorem tried_total
    {write : StoreM Unit}
    (atomic : Atomic write)
    (peer shown : PeerRow) :
    Total (tried write peer shown)
      (fun before row after => Tried write peer shown row before after) := by
  intro before result after run
  obtain ⟨outcome, middle, ⟨db, middleShape, inner⟩, rest⟩ :=
    (onStore_total write).bind_inv run
  obtain ⟨resultShape, same⟩ := rest.pure_inv
  refine ⟨_, resultShape, ?_⟩
  cases outcome with
  | ok _ => exact Or.inr ⟨rfl, db, same.trans middleShape, inner⟩
  | error error =>
      have unchanged := atomic _ _ _ inner
      subst db
      exact Or.inl ⟨rfl, same.trans middleShape⟩

/-- What `storeCandidates` has done to a row. -/
def CandidatesStored
    (config : Config)
    (candidates : List AgentCandidate)
    (peer row : PeerRow)
    (before after : State) : Prop :=
  let kept := validAgentCandidates config.resolves candidates
  if kept = [] then
    row = peer ∧ after = before
  else
    Tried (updatePeerCandidates peer.id kept) peer
      { peer with candidates := kept } row before after

/-- What `storeOffer` has done to a row. -/
def OfferStored
    (advertise : Bool)
    (peer row : PeerRow)
    (before after : State) : Prop :=
  if advertise = peer.advertiseExitNode then
    row = peer ∧ after = before
  else
    Tried (setAdvertiseExitNode peer.id advertise) peer
      { peer with advertiseExitNode := advertise } row before after

theorem storeCandidates_total
    (config : Config)
    (candidates : List AgentCandidate)
    (peer : PeerRow) :
    Total (storeCandidates config candidates peer)
      (fun before row after =>
        CandidatesStored config candidates peer row before after) := by
  unfold storeCandidates CandidatesStored
  dsimp only
  split
  · exact pure_total peer
  · exact tried_total (atomic_updatePeerCandidates _ _) _ _

theorem storeOffer_total
    (advertise : Bool)
    (peer : PeerRow) :
    Total (storeOffer advertise peer)
      (fun before row after =>
        OfferStored advertise peer row before after) := by
  unfold storeOffer OfferStored
  split
  · exact pure_total peer
  · exact tried_total (atomic_modify _ _) _ _

/-- What both sync payloads read of the store. -/
structure Payload
    (config : Config)
    (state : State)
    (dns : DNSConfig)
    (acl : ACLPolicy) : Prop where
  settings : Runs currentDNSConfig state.store.db (.ok dns) state.store.db
  policy :
    Runs (buildACLPolicy config) state.store.db (.ok acl) state.store.db

/-- Assembling a payload from the DNS settings and the policy. -/
theorem payload_stage
    (config : Config)
    (assemble : State → DNSConfig → ACLPolicy → Response) :
    Stage
      (do
        let state ← peek id
        let dns ← storing internalError currentDNSConfig
        let acl ← storing internalError (buildACLPolicy config)
        pure (assemble state dns acl))
      (fun before response after =>
        after = before ∧
          ∃ dns acl, response = assemble before dns acl ∧
            Payload config before dns acl) := by
  refine (peek_total id).stage.bind (fun _ _ _ yielded => yielded.2) ?_
  intro state
  refine
    (reading_stage internalError_answers readOnly_currentDNSConfig).bind
      (fun _ _ _ yielded => yielded.2) ?_
  intro dns
  refine
    (reading_stage internalError_answers
      (readOnly_buildACLPolicy config)).bind
      (fun _ _ _ yielded => yielded.2) ?_
  intro acl
  refine (pure_total _).stage.mono ?_
  rintro before response after ⟨shape, same⟩ ⟨policy, -⟩ ⟨settings, -⟩
    ⟨rfl, -⟩
  exact ⟨same, dns, acl, shape, settings, policy⟩

/-- What a request that the store enrolled has done. -/
structure EnrollHandled
    (config : Config)
    (relay : Relay)
    (http : Request)
    (request : EnrollRequest)
    (now : Instant)
    (draw : Draw)
    (before after : State)
    (outcome : Except Response Response)
    (result : EnrollResult) : Prop where
  checked : request.Checked
  committed :
    ∃ db row middle peer,
      Runs
          (enroll config.store before.store.view
            (request.args (config.clientIP http)) now draw)
          before.store.db (.ok result) db ∧
        CandidatesStored config request.candidates result.peer row
          (before.withDB db) middle ∧
        OfferStored request.advertiseExitNode row peer middle after ∧
        (Refused outcome ∨
          ∃ dns acl,
            outcome =
                .ok
                  (.enrolled
                    (enrollResponse config relay after { result with peer }
                      dns acl)) ∧
              Payload config after dns acl)

/-- `handleEnroll` refuses, or the store has enrolled the peer. -/
theorem handleEnroll_inv
    {relay : Relay}
    {http : Request}
    {body : Body EnrollRequest}
    {now : Instant}
    {draw : Draw}
    (run :
      Runs (handleEnroll config relay http body now draw)
        before outcome after) :
    Refused outcome ∧ after = before ∨
      ∃ request result, body = .decoded request ∧
        EnrollHandled config relay http request now draw before after
          outcome result := by
  rcases (decodeJSON_stage _ _).bind_inv run with
    refused | ⟨request, _, ⟨decoded, rfl⟩, checking⟩
  · exact Or.inl refused
  rcases (checkEnrollRequest_stage _).bind_inv checking with
    refused | ⟨_, _, ⟨checked, rfl⟩, looking⟩
  · exact Or.inl refused
  obtain ⟨_, _, ⟨rfl, rfl⟩, enrolling⟩ := (peek_total _).bind_inv looking
  rcases (storing_stage authError_answers atomic_enroll).bind_inv
      enrolling with
    refused | ⟨result, _, ⟨db, rfl, enrolled⟩, following⟩
  · exact Or.inl refused
  -- From here on the enrolment has committed; a refusal does not undo it.
  refine Or.inr ⟨request, result, decoded, checked, ?_⟩
  obtain ⟨row, middle, candidates, offering⟩ :=
    (storeCandidates_total _ _ _).bind_inv following
  obtain ⟨peer, last, offer, answering⟩ :=
    (storeOffer_total _ _).bind_inv offering
  rcases payload_stage config _ _ _ _ answering with
    ⟨refused, rfl⟩ | ⟨_, shape, rfl, dns, acl, rfl, payload⟩
  · exact ⟨db, row, middle, peer, enrolled, candidates, offer,
      Or.inl refused⟩
  · exact ⟨db, row, middle, peer, enrolled, candidates, offer,
      Or.inr ⟨dns, acl, shape, payload⟩⟩

theorem bearerToken_stage
    (authorization : String) :
    Stage (bearerToken authorization)
      (fun before token after =>
        cutPrefix "Bearer " authorization = some token ∧
          after = before) := by
  unfold bearerToken
  split
  · rename_i token found
    exact (pure_total _).stage.mono
      (fun _ _ _ yielded => ⟨by rw [found, yielded.1], yielded.2⟩)
  · exact raise_stage _ _ _

/-- The epochs after a report: coordinated, or as they were. -/
def Coordinated
    (config : Config)
    (relay : Relay)
    (now : Instant)
    (self : PeerRow)
    (others : List PeerRow)
    (paths : List PeerPathState)
    (before : State)
    (epochs : PunchEpochs) : Prop :=
  epochs = before.punchEpochs ∨
    Runs
      (coordinatePunches config relay now self others paths
        before.punchEpochs)
      before.store.db (.ok epochs) before.store.db

/-- Coordinating punches changes at most the epochs. -/
theorem coordinate_total
    (config : Config)
    (relay : Relay)
    (now : Instant)
    (self : PeerRow)
    (others : List PeerRow)
    (paths : List PeerPathState) :
    Total (coordinate config relay now self others paths)
      (fun before _ after =>
        ∃ epochs, after = { before with punchEpochs := epochs } ∧
          Coordinated config relay now self others paths before epochs) := by
  intro before result after run
  obtain ⟨_, _, ⟨rfl, rfl⟩, coordinating⟩ := (peek_total _).bind_inv run
  obtain ⟨outcome, middle, ⟨db, middleShape, inner⟩, rest⟩ :=
    (onStore_total _).bind_inv coordinating
  have same := readOnly_coordinatePunches _ _ _ _ _ _ _ _ _ _ inner
  subst db
  rw [State.withDB_self] at middleShape
  subst middle
  cases outcome with
  | ok epochs =>
      obtain ⟨shape, changed⟩ := rest.adjust_inv
      exact ⟨(), shape, epochs, changed, Or.inr inner⟩
  | error error =>
      obtain ⟨shape, same⟩ := rest.pure_inv
      exact ⟨(), shape, _, same, Or.inl rfl⟩

/-- What a report that the store applied has done. -/
structure ReportHandled
    (config : Config)
    (relay : Relay)
    (http : Request)
    (report : ReportRequest)
    (times : ReportTimes)
    (before after : State)
    (outcome : Except Response Response)
    (token : String)
    (id : Int) : Prop where
  bearer : cutPrefix "Bearer " http.authorization = some token
  authenticated :
    ∃ overlayIP,
      Runs (authenticatePeer config.store token times.authenticated)
        before.store.db (.ok (id, overlayIP)) before.store.db
  committed :
    ∃ db,
      Runs
          (applyReport id (config.clientIP http) (config.admitted report)
            times.applied)
          before.store.db (.ok ()) db ∧
        (Refused outcome ∧ after = before.withDB db ∨
          ∃ self others epochs,
            Runs (peersForID id config.store.defaultAllow)
                db (.ok (self, others)) db ∧
              Coordinated config relay times.coordinated self others
                report.pathStates (before.withDB db) epochs ∧
              after = { before.withDB db with punchEpochs := epochs } ∧
              (Refused outcome ∨
                ∃ dns acl,
                  outcome =
                      .ok
                        (.report
                          (reportResponse config relay after self others
                            dns acl)) ∧
                    Payload config after dns acl))

/-- `handleReport` refuses, or the store has applied the report. -/
theorem handleReport_inv
    {relay : Relay}
    {http : Request}
    {body : Body ReportRequest}
    {times : ReportTimes}
    (run :
      Runs (handleReport config relay http body times)
        before outcome after) :
    Refused outcome ∧ after = before ∨
      ∃ report token id, body = .decoded report ∧
        ReportHandled config relay http report times before after outcome
          token id := by
  rcases (bearerToken_stage _).bind_inv run with
    refused | ⟨token, _, ⟨bearer, rfl⟩, authenticating⟩
  · exact Or.inl refused
  rcases (reading_stage authError_answers
      (readOnly_authenticatePeer _ _ _)).bind_inv authenticating with
    refused | ⟨⟨id, overlayIP⟩, _, ⟨authenticated, rfl⟩, decoding⟩
  · exact Or.inl refused
  rcases (decodeJSON_stage _ _).bind_inv decoding with
    refused | ⟨report, _, ⟨decoded, rfl⟩, applying⟩
  · exact Or.inl refused
  rcases (storing_stage internalError_answers
      (atomic_applyReport _ _ _ _)).bind_inv applying with
    refused | ⟨_, _, ⟨db, rfl, applied⟩, reading⟩
  · exact Or.inl refused
  -- From here on the report has committed; a refusal does not undo it.
  refine Or.inr ⟨report, token, id, decoded, bearer,
    ⟨overlayIP, authenticated⟩, db, applied, ?_⟩
  rcases (reading_stage internalError_answers
      (readOnly_peersForID _ _)).bind_inv reading with
    refused | ⟨⟨self, others⟩, _, ⟨visible, rfl⟩, coordinating⟩
  · exact Or.inl refused
  obtain ⟨_, _, ⟨epochs, rfl, coordinated⟩, answering⟩ :=
    (coordinate_total _ _ _ _ _ _).bind_inv coordinating
  refine Or.inr ⟨self, others, epochs, visible, coordinated, ?_⟩
  rcases payload_stage config _ _ _ _ answering with
    ⟨refused, rfl⟩ | ⟨_, shape, rfl, dns, acl, rfl, payload⟩
  · exact ⟨rfl, Or.inl refused⟩
  · exact ⟨rfl, Or.inr ⟨dns, acl, shape, payload⟩⟩

/-- The key stored for a mobile peer is the public key's own text. -/
theorem parseMobileKeys_stage
    (config : Config)
    (rawPrivate rawPublic : String)
    (fresh : Except String Key) :
    Stage (parseMobileKeys config rawPrivate rawPublic fresh)
      (fun before keys after =>
        keys.publicKey = (config.publicKeyOf keys.privateKey).text ∧
          after = before) := by
  unfold parseMobileKeys
  dsimp only
  split
  · split
    · split
      · exact (pure_total _).stage.mono
          (fun _ _ _ yielded => ⟨by rw [yielded.1], yielded.2⟩)
      · exact raise_stage _ _ _
    · split
      · exact raise_stage _ _ _
      · exact raise_stage _ _ _
  · split
    · exact raise_stage _ _ _
    · split
      · exact raise_stage _ _ _
      · exact (pure_total _).stage.mono
          (fun _ _ _ yielded => ⟨by rw [yielded.1], yielded.2⟩)

/-- Validating an endpoint changes nothing. -/
theorem validateMobileEndpoint_stage
    (endpoint : String) :
    Stage (validateMobileEndpoint endpoint)
      (fun before _ after => after = before) := by
  unfold validateMobileEndpoint
  dsimp only
  split
  · exact raise_stage _ _ _
  · split
    · exact raise_stage _ _ _
    · refine (require_stage _ _).bind (fun _ _ _ yielded => yielded.2) ?_
      intro _
      exact (require_stage _ _).mono (fun _ _ _ yielded _ => yielded.2)

/-- Looking for the gateway changes nothing. -/
theorem mobileGateway_stage
    (publicKey : String) :
    Stage (mobileGateway publicKey)
      (fun before _ after => after = before) := by
  refine
    (reading_stage internalError_answers (readOnly_select _ _)).bind
      (fun _ _ _ yielded => yielded.2) ?_
  intro peers
  split
  · exact raise_stage _ _ _
  · split
    · exact (pure_total _).stage.mono (fun _ _ _ yielded _ => yielded.2)
    · exact raise_stage _ _ _

theorem sealGenerated_stage
    (config : Config)
    (keys : MobileKeys) :
    Stage (sealGenerated config keys)
      (fun before _ after => after = before) := by
  unfold sealGenerated
  split
  · split
    · exact (pure_total _).stage.mono (fun _ _ _ yielded => yielded.2)
    · exact raise_stage _ _ _
  · exact (pure_total _).stage.mono (fun _ _ _ yielded => yielded.2)

theorem staticPeerError_answers
    (error : StoreError) :
    ∃ status text, staticPeerError error = .error status text := by
  unfold staticPeerError
  split
  · exact ⟨409, _, rfl⟩
  · exact ⟨400, _, rfl⟩

/-- `handleCreateMobilePeer` refuses, or the store has a static peer more. -/
theorem handleCreateMobilePeer_inv
    {body : Body MobilePeerRequest}
    {fresh : Except String Key}
    {now : Instant}
    {keyDraw tokenDraw : Draw}
    (run :
      Runs
        (handleCreateMobilePeer config body fresh now keyDraw tokenDraw)
        before outcome after) :
    Refused outcome ∧ after = before ∨
      ∃ request spec key info db, body = .decoded request ∧
        spec.publicKey = (config.publicKeyOf key).text ∧
        Runs
            (createStaticPeer config.store before.store.view spec now
              keyDraw tokenDraw)
            before.store.db (.ok info) db ∧
        after = before.withDB db ∧
        (Refused outcome ∨
          ∃ response, outcome = .ok (.mobilePeer response)) := by
  rcases (decodeJSON_stage _ _).bind_inv run with
    refused | ⟨request, _, ⟨decoded, rfl⟩, parsing⟩
  · exact Or.inl refused
  rcases (parseMobileKeys_stage _ _ _ _).bind_inv parsing with
    refused | ⟨keys, _, ⟨canonical, rfl⟩, checking⟩
  · exact Or.inl refused
  rcases (require_stage _ _).bind_inv checking with
    refused | ⟨_, _, ⟨-, rfl⟩, validating⟩
  · exact Or.inl refused
  rcases (validateMobileEndpoint_stage _).bind_inv validating with
    refused | ⟨_, _, rfl, searching⟩
  · exact Or.inl refused
  rcases (mobileGateway_stage _).bind_inv searching with
    refused | ⟨gateway, _, rfl, sealing⟩
  · exact Or.inl refused
  rcases (sealGenerated_stage _ _).bind_inv sealing with
    refused | ⟨sealed, _, rfl, looking⟩
  · exact Or.inl refused
  obtain ⟨_, _, ⟨rfl, rfl⟩, creating⟩ := (peek_total _).bind_inv looking
  rcases (storing_stage staticPeerError_answers
      (atomic_createStaticPeer _ _ _)).bind_inv creating with
    refused | ⟨info, _, ⟨db, rfl, created⟩, reading⟩
  · exact Or.inl refused
  refine Or.inr ⟨request, _, keys.privateKey, info, db, decoded, canonical,
    created, ?_⟩
  rcases (reading_stage internalError_answers
      readOnly_currentDNSConfig).bind_inv reading with
    ⟨refused, same⟩ | ⟨_, _, ⟨-, rfl⟩, returning⟩
  · exact ⟨same, Or.inl refused⟩
  · obtain ⟨shape, same⟩ := returning.pure_inv
    exact ⟨same, Or.inr ⟨_, shape⟩⟩

/-- A parsed network is a network of the family asked for. -/
theorem parseNetwork_stage
    (flag kind : String)
    (family : Family)
    (raw : String) :
    Stage (parseNetwork flag kind family raw)
      (fun before network after =>
        network.addr.family = family ∧ after = before) := by
  unfold parseNetwork
  split
  · exact raise_stage _ _ _
  · split
    · rename_i sameFamily
      exact (pure_total _).stage.mono
        (fun _ _ _ yielded => ⟨by rw [yielded.1]; exact sameFamily,
          yielded.2⟩)
    · exact raise_stage _ _ _

/-- `handleApplyNetworkMigration` refuses, or the network has moved. -/
theorem handleApplyNetworkMigration_inv
    {body : Body NetworkMigrationRequest}
    (run : Runs (handleApplyNetworkMigration body) before outcome after) :
    Refused outcome ∧ after = before ∨
      ∃ request target4 target6 plan db, body = .decoded request ∧
        target4.addr.family = .v4 ∧ target6.addr.family = .v6 ∧
        Runs
            (applyNetworkMigration
              (networkConfig (some before.store.view.network4)
                before.store.view.network6)
              target4 target6)
            before.store.db (.ok plan) db ∧
        after =
          { before.withDB db with
            store :=
              (before.withDB db).store.setNetworks
                target4.masked target6.masked
            networkCIDR := plan.target.networkCIDR
            network6CIDR := plan.target.networkCIDR6 } ∧
        outcome = .ok (.migrated plan) := by
  rcases (decodeJSON_stage _ _).bind_inv run with
    refused | ⟨request, _, ⟨decoded, rfl⟩, confirming⟩
  · exact Or.inl refused
  rcases (require_stage _ _).bind_inv confirming with
    refused | ⟨_, _, ⟨-, rfl⟩, parsing⟩
  · exact Or.inl refused
  rcases (parseNetwork_stage _ _ _ _).bind_inv parsing with
    refused | ⟨target4, _, ⟨family4, rfl⟩, parsing6⟩
  · exact Or.inl refused
  rcases (parseNetwork_stage _ _ _ _).bind_inv parsing6 with
    refused | ⟨target6, _, ⟨family6, rfl⟩, looking⟩
  · exact Or.inl refused
  obtain ⟨_, _, ⟨rfl, rfl⟩, migrating⟩ := (peek_total _).bind_inv looking
  rcases (storing_stage (fun _ => ⟨400, _, rfl⟩)
      (atomic_applyNetworkMigration _ _ _)).bind_inv migrating with
    refused | ⟨plan, _, ⟨db, rfl, migrated⟩, remembering⟩
  · exact Or.inl refused
  rcases remembering.bind_inv with
    ⟨_, adjusting, -⟩ | ⟨_, last, adjusting, returning⟩
  · cases adjusting.adjust_inv.1
  · obtain ⟨-, changed⟩ := adjusting.adjust_inv
    obtain ⟨shape, same⟩ := returning.pure_inv
    exact Or.inr ⟨request, target4, target6, plan, db, decoded, family4,
      family6, migrated, same.trans changed, shape⟩

/-- An admin handler refuses, or its operation has taken place. -/
theorem handleAdmin_inv
    {op : Op}
    (run : Runs (handleAdmin config op) before outcome after) :
    Refused outcome ∧ after = before ∨
      ∃ reply db, outcome = .ok (.admin reply) ∧
        after = before.withDB db ∧
        Effect config.store before.store.view before.store.db db op
          reply := by
  obtain ⟨_, _, ⟨rfl, rfl⟩, performing⟩ := (peek_total _).bind_inv run
  rcases (storing_stage (fun _ => ⟨400, _, rfl⟩)
      (atomic_perform _ _ _)).bind_inv performing with
    refused | ⟨reply, _, ⟨db, rfl, performed⟩, returning⟩
  · exact Or.inl refused
  · obtain ⟨shape, same⟩ := returning.pure_inv
    exact Or.inr ⟨reply, db, shape, same, perform_ok performed⟩

theorem AdminOp.remember_eq
    (admin : AdminOp)
    (state : Store.State)
    (reply : Reply) :
    remember state admin.op reply = state := by
  obtain ⟨op, isAdminOp⟩ := admin
  cases op with
  | applyNetworkMigration _ _ => cases isAdminOp
  | loadOrInitNetworkConfig _ _ => cases isAdminOp
  | _ => rfl

theorem Tried.path
    {write : StoreM Unit}
    {shown : PeerRow}
    (config : Store.Config)
    (op : Op)
    (performed :
      perform config before.store.view op =
        answering (fun _ => .done) write)
    (inMemory :
      ∀ state : Store.State, remember state op .done = state)
    (tried : Tried write peer shown row before after) :
    ∃ ops, Path config before.store ops after.store ∧
      ∀ step ∈ ops, step = (op, .done) := by
  rcases tried with ⟨-, rfl⟩ | ⟨-, db, rfl, run⟩
  · exact ⟨[], .nil _, by simp⟩
  · have path := Path.of_runs op performed run
    rw [inMemory] at path
    exact ⟨[(op, .done)], path, by simp⟩

/-- Storing candidates keeps the row's id. -/
theorem CandidatesStored.id_eq
    {candidates : List AgentCandidate}
    (stored : CandidatesStored config candidates peer row before after) :
    row.id = peer.id := by
  unfold CandidatesStored at stored
  dsimp only at stored
  split at stored
  · rw [stored.1]
  · rcases stored with ⟨shape, -⟩ | ⟨shape, -⟩
    · rw [shape]
    · rw [shape]

/-- The writes after an enrolment are its follow-ups. -/
theorem followUps_path
    {request : EnrollRequest}
    {final : PeerRow}
    {middle : State}
    (candidates :
      CandidatesStored config request.candidates peer row before middle)
    (offer :
      OfferStored request.advertiseExitNode row final middle after) :
    ∃ ops, Path config.store before.store ops after.store ∧
      ∀ step ∈ ops, request.FollowUp config peer.id step := by
  have sameID := candidates.id_eq
  have first :
      ∃ ops, Path config.store before.store ops middle.store ∧
        ∀ step ∈ ops, request.FollowUp config peer.id step := by
    unfold CandidatesStored at candidates
    dsimp only at candidates
    split at candidates
    · rw [candidates.2]
      exact ⟨[], .nil _, by simp⟩
    · obtain ⟨ops, path, only⟩ :=
        Tried.path config.store (.updatePeerCandidates _ _) rfl
          (fun _ => rfl) candidates
      exact ⟨ops, path, fun step member => Or.inl (only step member)⟩
  have second :
      ∃ ops, Path config.store middle.store ops after.store ∧
        ∀ step ∈ ops, request.FollowUp config peer.id step := by
    unfold OfferStored at offer
    split at offer
    · rw [offer.2]
      exact ⟨[], .nil _, by simp⟩
    · obtain ⟨ops, path, only⟩ :=
        Tried.path config.store (.setAdvertiseExitNode _ _) rfl
          (fun _ => rfl) offer
      refine ⟨ops, path, fun step member => Or.inr ?_⟩
      rw [only step member, sameID]
  obtain ⟨firstOps, firstPath, firstOnly⟩ := first
  obtain ⟨secondOps, secondPath, secondOnly⟩ := second
  refine ⟨firstOps ++ secondOps, firstPath.append secondPath, ?_⟩
  intro step member
  rcases List.mem_append.mp member with inFirst | inSecond
  · exact firstOnly step inFirst
  · exact secondOnly step inSecond

/-- A handler's effect on the store is a path of the request's operations. -/
theorem handle_performs
    {call : Call}
    (run : Runs (handle config call) before outcome after) :
    ∃ ops, Performed config before call ops ∧
      Path config.store before.store ops after.store := by
  cases call with
  | enroll http body relay now draw =>
      rcases handleEnroll_inv run with
        ⟨-, rfl⟩ | ⟨request, result, rfl, checked, committed⟩
      · exact ⟨[], .nothing _, .nil _⟩
      obtain ⟨db, row, middle, peer, enrolled, candidates, offer, -⟩ :=
        committed
      obtain ⟨ops, path, follows⟩ := followUps_path candidates offer
      refine ⟨_, .enrolled checked follows, ?_⟩
      exact
        (Path.of_runs (.enroll _ now draw) rfl enrolled).append path
  | report http body relay times =>
      rcases handleReport_inv run with
        ⟨-, rfl⟩ | ⟨report, token, id, rfl, handled⟩
      · exact ⟨[], .nothing _, .nil _⟩
      obtain ⟨overlayIP, authenticated⟩ := handled.authenticated
      obtain ⟨-, peer, member, hashed, active, -, rfl, -⟩ :=
        authenticatePeer_ok authenticated
      obtain ⟨db, applied, ending⟩ := handled.committed
      have stored : after.store = (before.withDB db).store := by
        rcases ending with ⟨-, rfl⟩ | ⟨_, _, _, _, _, rfl, -⟩
        · rfl
        · rfl
      refine ⟨_, .reported handled.bearer member hashed active, ?_⟩
      rw [stored]
      exact .of_runs (.applyReport _ _ _ _) rfl applied
  | createMobilePeer body fresh now keyDraw tokenDraw =>
      rcases handleCreateMobilePeer_inv run with
        ⟨-, rfl⟩ | ⟨_, spec, key, info, db, rfl, canonical, created, rfl, -⟩
      · exact ⟨[], .nothing _, .nil _⟩
      · exact ⟨_, .mobilePeer canonical,
          .of_runs (.createStaticPeer _ _ _ _) rfl created⟩
  | applyNetworkMigration body =>
      rcases handleApplyNetworkMigration_inv run with
        ⟨-, rfl⟩ |
          ⟨_, target4, target6, plan, db, rfl, family4, family6, migrated,
            rfl, -⟩
      · exact ⟨[], .nothing _, .nil _⟩
      · exact ⟨_, .migrated ⟨family4, family6⟩,
          .of_runs (.applyNetworkMigration _ _) rfl migrated⟩
  | admin op =>
      rcases handleAdmin_inv run with
        ⟨-, rfl⟩ | ⟨reply, db, -, rfl, effect⟩
      · exact ⟨[], .nothing _, .nil _⟩
      · refine ⟨_, .admin op reply, ?_⟩
        have path := Path.single effect
        rw [op.remember_eq] at path
        exact path

theorem step_performs
    (config : Config)
    (state : State)
    (input : Input) :
    ∃ ops, Performed config state input.call ops ∧
      Path config.store state.store ops
        ((machine config).step state input).2.store :=
  handle_performs
    (Runs.of_session (handle config input.call) ⟨state, input.answers⟩)

/-- A request to the control plane, or an operation of the store itself. -/
inductive Event where
  | request (input : Input)
  | operation (input : Store.Input)

/-- What an event gives back. -/
inductive Outcome where
  | answered (response : Response)
  | returned (result : Except StoreError Reply)

/-- Handlers and store operations, in any order. -/
def system (config : Config) : Machine State Event Outcome where
  step state
    | .request input =>
        let ended := (machine config).step state input
        (.answered ended.1, ended.2)
    | .operation input =>
        let ended := (Store.machine config.store).step state.store input
        (.returned ended.1, { state with store := ended.2 })

end WgMesh.Server
