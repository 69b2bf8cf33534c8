import WgMesh.ControlPlane

namespace WgMesh.Agent

/-!
# Reports after the token has expired

One agent process and the control plane it reports to.  The process enrols
until it is accepted and then puts the token of that enrolment into every
report; a rejected report is only logged.  Other clients and operators act in
between.
-/

open CivilTime FiniteRuns Server Store TextScan Transactions

/-- How far an agent process has come. -/
inductive Process where
  | starting
  | stopped
  | reporting (authToken : String)
deriving DecidableEq

/-- `isPermanentStartupErr`, for an answer with an error status. -/
def isPermanentStartupErr (status : Nat) : Bool :=
  decide (400 ≤ status) && decide (status < 500) && status != 408 &&
    status != 404 && status != 429

/-- One round of `startupStateRetry`, and `startReporter` after success. -/
def startupState : Response → Process
  | .enrolled response =>
      if response.authToken = "" then .stopped
      else .reporting response.authToken
  | .error status _ =>
      if isPermanentStartupErr status then .stopped else .starting
  | _ => .starting

/-- What `post` returns: whether the report was accepted. -/
def post : Response → Bool
  | .report _ => true
  | _ => false

/-- The header of a report. -/
def authorized (http : Request) (authToken : String) : Request :=
  { http with authorization := "Bearer " ++ authToken }

/-- A control plane and one agent process. -/
structure World where
  server : Server.State
  process : Process

/-- What happens next: the process sends a request, or others act. -/
inductive WorldInput where
  | attempt (http : Request) (body : Body EnrollRequest) (relay : Relay)
      (now : Instant) (draw : Draw) (answers : List (Option String))
  | tick (http : Request) (body : Body ReportRequest) (relay : Relay)
      (times : ReportTimes) (answers : List (Option String))
  | other (event : Server.Event)

/-- The process sends a report. -/
def WorldInput.isTick : WorldInput → Bool
  | .tick _ _ _ _ _ => true
  | _ => false

/-- What the process has sent and received. -/
inductive Exchange where
  | nothing
  | enrolment (response : Response)
  | report (authToken : String) (response : Response) (accepted : Bool)

/-- The control plane together with one agent process. -/
def world (config : Server.Config) : Machine World WorldInput Exchange where
  step state
    | .attempt http body relay now draw answers =>
        match state.process with
        | .starting =>
            let ended :=
              (Server.machine config).step state.server
                ⟨.enroll http body relay now draw, answers⟩
            (.enrolment ended.1, ⟨ended.2, startupState ended.1⟩)
        | _ => (.nothing, state)
    | .tick http body relay times answers =>
        match state.process with
        | .reporting authToken =>
            let ended :=
              (Server.machine config).step state.server
                ⟨.report (authorized http authToken) body relay times,
                  answers⟩
            -- `post` keeps the token, whatever the answer is.
            (.report authToken ended.1 (post ended.1),
              ⟨ended.2, .reporting authToken⟩)
        | _ => (.nothing, state)
    | .other event =>
        (.nothing, ⟨((Server.system config).step state.server event).2,
          state.process⟩)

/-- One step of the world. -/
abbrev WorldStep := Visit World WorldInput Exchange

/-- The step reports with a token. -/
def WorldStep.Reports (step : WorldStep) (authToken : String) : Prop :=
  ∃ response accepted, step.output = .report authToken response accepted

/-- The driver answers the first statement of a request. -/
def firstAnswered : List (Option String) → Bool
  | some _ :: _ => false
  | _ => true

/-- An unrevoked row holds the token, and it is older than its lifetime. -/
def TooOld
    (config : Server.Config)
    (db : DB)
    (authToken : String)
    (now : Instant) : Prop :=
  ∃ row,
    db.tables.peerWithToken? (config.store.hashToken authToken) = some row ∧
      tokenExpired config.store row now = true

/-- A report is sent whose token is too old when it is looked up. -/
def WorldStep.SendsTooOld
    (config : Server.Config)
    (step : WorldStep)
    (authToken : String) : Prop :=
  step.before.process = .reporting authToken ∧
    ∃ http body relay times answers,
      step.input = .tick http body relay times answers ∧
        firstAnswered answers = true ∧
        TooOld config step.before.server.store.db authToken
          times.authenticated

/-- A report is rejected because its token is too old. -/
def WorldStep.RejectedForAge
    (config : Server.Config)
    (step : WorldStep)
    (authToken : String) : Prop :=
  step.output = .report authToken (.error 401 "unauthorized") false ∧
    ∃ http body relay times answers,
      step.input = .tick http body relay times answers ∧
        TooOld config step.before.server.store.db authToken
          times.authenticated

theorem cutPrefix_append
    (marker text : String) :
    cutPrefix marker (marker ++ text) = some text := by
  simp [cutPrefix]

/-- What a report with a token that is too old is answered. -/
theorem report_tooOld
    {config : Server.Config}
    {state : Server.State}
    {http : Request}
    {authToken : String}
    {body : Body ReportRequest}
    {relay : Relay}
    {times : ReportTimes}
    {answers : List (Option String)}
    (tooOld : TooOld config state.store.db authToken times.authenticated) :
    ((Server.machine config).step state
        ⟨.report (authorized http authToken) body relay times,
          answers⟩).1 =
      if firstAnswered answers then .error 401 "unauthorized"
      else .error 500 "internal error" := by
  obtain ⟨row, found, expired⟩ := tooOld
  have looked :
      (storing authError
          (authenticatePeer config.store authToken times.authenticated)
          ⟨state, answers⟩).1 =
        .error (if firstAnswered answers then .error 401 "unauthorized"
          else .error 500 "internal error") := by
    rcases answers with _ | ⟨_ | text, rest⟩
    all_goals
      simp [storing, onStore, zoom, authenticatePeer, select, query,
        statement, peek, bind, Action.andThen, found, expired, raise,
        firstAnswered]
      rfl
  simp only [Server.machine, handle, handleReport, bearerToken, authorized,
    cutPrefix_append]
  change written ((storing authError
    (authenticatePeer config.store authToken times.authenticated) >>=
      _) ⟨state, answers⟩).1 = _
  rw [Action.bind_of_error looked]
  rfl

section Steps

variable
  {config : Server.Config}
  {start : World}
  {inputs : List WorldInput}
  {authToken : String}

theorem process_step
    {state : World}
    (reporting : state.process = .reporting authToken)
    (input : WorldInput) :
    ((world config).step state input).2.process = .reporting authToken := by
  cases input with
  | attempt http body relay now draw answers =>
      simp only [world, reporting]
  | tick http body relay times answers =>
      simp only [world, reporting]
  | other event => exact reporting

theorem process_run
    {state : World}
    (reporting : state.process = .reporting authToken) :
    ((world config).run state inputs).process = .reporting authToken :=
  @Machine.run_invariant _ _ _ (world config)
    (fun state => state.process = .reporting authToken)
    (fun _ input holds => process_step holds input) _ reporting inputs

/-- A report is sent on a tick of a process that reports. -/
theorem reports_iff
    {state : World}
    {input : WorldInput} :
    WorldStep.Reports ((world config).visit state input) authToken ↔
      state.process = .reporting authToken ∧
        ∃ http body relay times answers,
          input = .tick http body relay times answers := by
  constructor
  · rintro ⟨response, accepted, sent⟩
    cases input with
    | attempt http body relay now draw answers =>
        cases process : state.process with
        | starting =>
            simp only [Machine.visit, world, process] at sent
            cases sent
        | stopped =>
            simp only [Machine.visit, world, process] at sent
            cases sent
        | reporting token =>
            simp only [Machine.visit, world, process] at sent
            cases sent
    | tick http body relay times answers =>
        cases process : state.process with
        | starting =>
            simp only [Machine.visit, world, process] at sent
            cases sent
        | stopped =>
            simp only [Machine.visit, world, process] at sent
            cases sent
        | reporting token =>
            simp only [Machine.visit, world, process] at sent
            injection sent with sameToken
            exact ⟨by rw [sameToken], _, _, _, _, _, rfl⟩
    | other event =>
        simp only [Machine.visit, world] at sent
        cases sent
  · rintro ⟨reporting, http, body, relay, times, answers, rfl⟩
    exact ⟨_, _, by simp only [Machine.visit, world, reporting]; rfl⟩

/-- Rejected for its age is what is too old when it is looked up. -/
theorem rejectedForAge_iff
    {state : World}
    {input : WorldInput} :
    WorldStep.RejectedForAge config ((world config).visit state input)
        authToken ↔
      WorldStep.SendsTooOld config ((world config).visit state input)
        authToken := by
  constructor
  · rintro ⟨sent, http, body, relay, times, answers, isTick, tooOld⟩
    obtain ⟨reporting, -⟩ := reports_iff.mp ⟨_, _, sent⟩
    rw [Machine.visit_input] at isTick
    subst isTick
    refine ⟨reporting, http, body, relay, times, answers, rfl, ?_, tooOld⟩
    simp only [Machine.visit, world, reporting] at sent
    injection sent with _ answered _
    rw [Machine.visit_before] at tooOld
    rw [report_tooOld tooOld] at answered
    by_contra refused
    rw [if_neg refused] at answered
    cases answered
  · rintro ⟨reporting, http, body, relay, times, answers, isTick, answered,
      tooOld⟩
    rw [Machine.visit_input] at isTick
    rw [Machine.visit_before] at reporting tooOld
    subst isTick
    refine ⟨?_, http, body, relay, times, answers, rfl, tooOld⟩
    simp only [Machine.visit, world, reporting, report_tooOld tooOld,
      answered, if_true]
    rfl

/-- After a report, the process reports again with the same token. -/
theorem reports_again_iff
    {earlier middle later : List WorldStep}
    {first second : WorldStep}
    (place :
      (world config).visits start inputs =
        earlier ++ first :: (middle ++ second :: later))
    (tooOld : first.SendsTooOld config authToken) :
    second.Reports authToken ↔ second.input.isTick = true := by
  obtain ⟨before, after, -, isFirst, rest⟩ :=
    (world config).visits_eq_append_cons place
  obtain ⟨between, -, -, isSecond, -⟩ :=
    (world config).visits_eq_append_cons rest.symm
  have kept : first.after.process = .reporting authToken := by
    have reporting := tooOld.1
    rw [isFirst] at reporting ⊢
    exact process_step reporting _
  have same :
      ((world config).run first.after between).process =
        .reporting authToken :=
    process_run kept
  rw [isSecond, reports_iff, Machine.visit_input]
  constructor
  · rintro ⟨-, http, body, relay, times, answers, isTick⟩
    rw [isTick]
    rfl
  · intro isTick
    refine ⟨same, ?_⟩
    cases input : second.input with
    | tick http body relay times answers => exact ⟨_, _, _, _, _, rfl⟩
    | attempt _ _ _ _ _ _ =>
        rw [input] at isTick
        cases isTick
    | other _ =>
        rw [input] at isTick
        cases isTick

theorem rejectedForAge_of_visits
    {earlier later : List WorldStep}
    {step : WorldStep}
    (place :
      (world config).visits start inputs = earlier ++ step :: later) :
    step.RejectedForAge config authToken ↔
      step.SendsTooOld config authToken := by
  obtain ⟨before, after, -, isStep, -⟩ :=
    (world config).visits_eq_append_cons place
  rw [isStep]
  exact rejectedForAge_iff

end Steps

/--
Whatever others do in between, a process never presents a token again that was
rejected for its age exactly when it sends no report after one whose token was
too old.
-/
theorem expired_token_not_reused_iff
    (config : Server.Config)
    (start : World)
    (inputs : List WorldInput) :
    (∀ (earlier : List WorldStep) (first : WorldStep)
        (middle : List WorldStep) (second : WorldStep)
        (later : List WorldStep) (authToken : String),
      (world config).visits start inputs =
          earlier ++ first :: (middle ++ second :: later) →
        first.RejectedForAge config authToken →
          ¬ second.Reports authToken) ↔
      ∀ (earlier : List WorldStep) (first : WorldStep)
          (middle : List WorldStep) (second : WorldStep)
          (later : List WorldStep) (authToken : String),
        (world config).visits start inputs =
            earlier ++ first :: (middle ++ second :: later) →
          first.SendsTooOld config authToken →
            second.input.isTick = false := by
  constructor
  · intro never earlier first middle second later authToken place tooOld
    have rejected := (rejectedForAge_of_visits place).mpr tooOld
    have silent := never earlier first middle second later authToken place
      rejected
    rw [reports_again_iff place tooOld] at silent
    simpa using silent
  · intro silent earlier first middle second later authToken place rejected
    have tooOld := (rejectedForAge_of_visits place).mp rejected
    rw [reports_again_iff place tooOld,
      silent earlier first middle second later authToken place tooOld]
    exact Bool.false_ne_true

/-- A control plane whose tokens live for five milliseconds. -/
def shortLivedServer : Server.Config :=
  let config := Server.Config.sample true
  { config with store := { config.store with tokenTTL := 5000000 } }

/-- A request from some address. -/
def anyRequest : Request := ⟨"192.0.2.1:40000", "", ""⟩

/-- An enrolment with the setup key `key`. -/
def sampleEnrolment : EnrollRequest where
  setupKey := "key"
  publicKey := "AAAAAAAAAAAAAAAAAAAAAAAAAAAAAAAAAAAAAAAAAAA="
  hostname := ""
  listenPort := 0
  publicEndpoint := ""
  candidates := []
  advertiseExitNode := false

/-- An operator creates a setup key, and the process enrols with it. -/
def enrols : List WorldInput :=
  [.other (.operation (Op.createSetupKey "" 5 0 0 (.ok "key")).accepted),
    .attempt anyRequest (.decoded sampleEnrolment) (fun _ => none) 0
      (.ok "token") []]

/-- An empty report at an instant. -/
def reportAt (now : Instant) : WorldInput :=
  .tick anyRequest (.decoded {}) (fun _ => none) ⟨now, now, now⟩ []

/-- A new control plane and a process that has not enrolled yet. -/
def newWorld : World := ⟨Server.State.fresh, .starting⟩

/-- The world after the enrolment at instant 0. -/
def enrolledWorld : World :=
  (world shortLivedServer).run newWorld enrols

theorem enrolledWorld_process :
    enrolledWorld.process = .reporting "token" := by
  decide +kernel

theorem tooOld_iff
    {config : Server.Config}
    {db : DB}
    {authToken : String}
    {now : Instant} :
    TooOld config db authToken now ↔
      (db.tables.peerWithToken? (config.store.hashToken authToken)).any
        (fun row => tokenExpired config.store row now) = true := by
  simp [TooOld, Option.any_eq_true]

/--
The token expires after five milliseconds.  The report after six is rejected
for its age, and the report after seven presents the same token.
-/
theorem expired_token_presented_again :
    ∃ (earlier : List WorldStep) (first second : WorldStep),
      (world shortLivedServer).visits newWorld
          (enrols ++ [reportAt 6000000, reportAt 7000000]) =
        earlier ++ first :: ([] ++ second :: []) ∧
        first.RejectedForAge shortLivedServer "token" ∧
        second.Reports "token" := by
  have tooOld :
      TooOld shortLivedServer enrolledWorld.server.store.db "token"
        6000000 := by
    rw [tooOld_iff]
    decide +kernel
  have sent :
      WorldStep.SendsTooOld shortLivedServer
        ((world shortLivedServer).visit enrolledWorld (reportAt 6000000))
        "token" :=
    ⟨enrolledWorld_process, _, _, _, _, _, rfl, rfl, tooOld⟩
  have place :
      (world shortLivedServer).visits newWorld
          (enrols ++ [reportAt 6000000, reportAt 7000000]) =
        (world shortLivedServer).visits newWorld enrols ++
          (world shortLivedServer).visit enrolledWorld (reportAt 6000000) ::
            ([] ++
              (world shortLivedServer).visit
                ((world shortLivedServer).run enrolledWorld
                  [reportAt 6000000])
                (reportAt 7000000) :: []) :=
    (world shortLivedServer).visits_append newWorld enrols _
  exact ⟨_, _, _, place, (rejectedForAge_of_visits place).mpr sent,
    (reports_again_iff place sent).mpr rfl⟩

/-- A report within the lifetime and one after it: none is sent in vain. -/
theorem fresh_token_not_rejected :
    ∀ (earlier : List WorldStep) (first : WorldStep)
        (middle : List WorldStep) (second : WorldStep)
        (later : List WorldStep) (authToken : String),
      (world shortLivedServer).visits enrolledWorld
          [reportAt 4000000, reportAt 7000000] =
        earlier ++ first :: (middle ++ second :: later) →
        first.RejectedForAge shortLivedServer authToken →
          ¬ second.Reports authToken := by
  refine (expired_token_not_reused_iff shortLivedServer enrolledWorld
    _).mpr ?_
  intro earlier first middle second later authToken place sent
  have lengths := congrArg List.length place
  simp only [Machine.visits, List.length_cons, List.length_nil,
    List.length_append] at lengths
  obtain rfl : earlier = [] := List.eq_nil_of_length_eq_zero (by omega)
  obtain ⟨isFirst, -⟩ := List.cons.inj place
  subst isFirst
  obtain ⟨reporting, http, body, relay, times, answers, isTick, -, tooOld⟩ :=
    sent
  have sameToken := enrolledWorld_process.symm.trans reporting
  cases sameToken
  cases isTick
  have fresh :
      (enrolledWorld.server.store.db.tables.peerWithToken?
        (shortLivedServer.store.hashToken "token")).any
          (fun row => tokenExpired shortLivedServer.store row 4000000) =
        false := by
    decide +kernel
  rw [tooOld_iff] at tooOld
  exact (Bool.false_ne_true (fresh.symm.trans tooOld)).elim

end WgMesh.Agent
