import WgMesh.PunchFreshness

namespace WgMesh.PunchBudget

/-!
# The budget of punch windows

`coordinatePunches` over sequences of reports, with the moments at which
`bumpPunchEpoch` reports success for a pair.  The attempts of a pair and the
time of its last window are kept per pair, not per reporter: a path state
"direct" of either agent clears both.
-/

open CivilTime FiniteRuns PairKeys Server Store Transactions
open Punches (bumps bumpPunchEpoch_eq relayPairID_comm)

/-- One path state of a report, with what `coordinatePunches` reads for it. -/
structure Notice where
  relay : Relay
  now : Instant
  own : PeerRow
  others : List PeerRow
  online : String → Bool
  path : PeerPathState

/-- The loop body of `coordinatePunches` as a machine. -/
def coordinator (config : Server.Config) : Machine PunchEpochs Notice Unit where
  step := fun epochs notice =>
    ((),
      coordinatePath config notice.relay notice.now notice.own notice.others
        notice.online epochs notice.path)

/-- A step has advanced the epoch of a pair. -/
def advances (pairID : String) (visit : Visit PunchEpochs Notice Unit) :
    Bool :=
  decide ((visit.before pairID).epoch < (visit.after pairID).epoch)

/-- The times at which path states have opened a window of a pair. -/
def bumpTimes (config : Server.Config) (pairID : String)
    (epochs : PunchEpochs) (notices : List Notice) : List Instant :=
  (((coordinator config).visits epochs notices).filter (advances pairID)).map
    (·.input.now)

/-- A report as `coordinatePunches` is given it, and the store it reads. -/
structure PathReport where
  relay : Relay
  now : Instant
  own : PeerRow
  others : List PeerRow
  paths : List PeerPathState
  session : Session DB

/-- The path states `coordinatePunches` goes through: none when the peers
cannot be listed. -/
def PathReport.notices (report : PathReport) : List Notice :=
  match (listPeers report.session).1 with
  | .error _ => []
  | .ok peers =>
      report.paths.map
        (fun path =>
          { relay := report.relay
            now := report.now
            own := report.own
            others := report.others
            online := isOnline peers report.now
            path := path })

/-- The epochs after `coordinatePunches`, which an error leaves as they are. -/
def PathReport.coordinate (config : Server.Config) (report : PathReport)
    (epochs : PunchEpochs) : PunchEpochs :=
  match
    (coordinatePunches config report.relay report.now report.own report.others
      report.paths epochs report.session).1
  with
  | .error _ => epochs
  | .ok after => after

/-- A run of path states is the loop of `coordinatePunches`. -/
theorem run_eq_foldl
    (config : Server.Config)
    (report : PathReport)
    (online : String → Bool)
    (epochs : PunchEpochs)
    (paths : List PeerPathState) :
    (coordinator config).run epochs
        (paths.map
          (fun path =>
            { relay := report.relay
              now := report.now
              own := report.own
              others := report.others
              online := online
              path := path })) =
      paths.foldl
        (coordinatePath config report.relay report.now report.own
          report.others online)
        epochs := by
  induction paths generalizing epochs with
  | nil => rfl
  | cons path rest inductionHypothesis => exact inductionHypothesis _

/-- `coordinatePunches` runs through the path states of the report. -/
theorem PathReport.coordinate_eq_run
    (config : Server.Config)
    (report : PathReport)
    (epochs : PunchEpochs) :
    report.coordinate config epochs =
      (coordinator config).run epochs report.notices := by
  unfold coordinate coordinatePunches
  by_cases isEmpty : report.paths = []
  · rw [if_pos isEmpty, notices, isEmpty]
    cases (listPeers report.session).1 with
    | error failure => rfl
    | ok peers => rfl
  · rw [if_neg isEmpty]
    change
      (match (Action.andThen listPeers _ report.session).1 with
        | .error _ => epochs
        | .ok after => after) = _
    unfold Action.andThen notices
    cases listPeers report.session with
    | mk outcome later =>
        cases outcome with
        | error failure => rfl
        | ok peers => exact (run_eq_foldl config report _ epochs _).symm

/-- The times at which reports have opened a window of a pair. -/
def stretchBumps (config : Server.Config) (pairID : String) :
    PunchEpochs → List PathReport → List Instant
  | _, [] => []
  | epochs, report :: rest =>
      bumpTimes config pairID epochs report.notices ++
        stretchBumps config pairID (report.coordinate config epochs) rest

/-- A sequence of reports is the sequence of its path states. -/
theorem stretchBumps_eq
    (config : Server.Config)
    (pairID : String)
    (epochs : PunchEpochs)
    (reports : List PathReport) :
    stretchBumps config pairID epochs reports =
      bumpTimes config pairID epochs (reports.flatMap (·.notices)) := by
  induction reports generalizing epochs with
  | nil => rfl
  | cons report rest inductionHypothesis =>
      rw [stretchBumps, inductionHypothesis, report.coordinate_eq_run config,
        List.flatMap_cons]
      unfold bumpTimes
      rw [Machine.visits_append, List.filter_append, List.map_append]

/-- At most `maxPunchAttempts` windows, each `punchCooldown` after the last. -/
def WithinBudget (times : List Instant) : Prop :=
  times.length ≤ maxPunchAttempts ∧
    times.Pairwise (fun first second => first + punchCooldown ≤ second)

/-- A window may be opened on an entry: there are attempts left, and the last
one is `punchCooldown` ago. -/
structure MayBump (entry : PunchEpoch) (now : Instant) : Prop where
  attempts : entry.attempts < maxPunchAttempts
  rested :
    ∀ bumpedAt, entry.bumpedAt = some bumpedAt →
      bumpedAt + punchCooldown ≤ now

theorem punchCooldown_le_backoff (attempts : Nat) :
    punchCooldown ≤
      punchCooldown * 2 ^ (if attempts < 2 then attempts else 2) := by
  have positive :
      (1 : Int) ≤ 2 ^ (if attempts < 2 then attempts else 2) :=
    one_le_pow₀ (by decide)
  have nonneg : (0 : Int) ≤ punchCooldown := by decide
  exact le_mul_of_one_le_right nonneg positive

/-- `bumpPunchEpoch` reports success only on an entry that may be bumped. -/
theorem mayBump_of_bumps
    {pairID : String}
    {now : Instant}
    {epochs : PunchEpochs}
    (bumped : bumps pairID now epochs = true) :
    MayBump (epochs pairID) now := by
  unfold bumps at bumped
  rw [Bool.and_eq_true, decide_eq_true_eq, Bool.not_eq_true'] at bumped
  refine ⟨bumped.1, fun bumpedAt isBumped => ?_⟩
  have rested := bumped.2
  rw [isBumped, Option.any_some, decide_eq_false_iff_not] at rested
  have enough := punchCooldown_le_backoff (epochs pairID).attempts
  have late := Int.not_lt.mp rested
  exact Int.add_comm _ _ ▸ Int.add_le_of_le_sub_right (le_trans enough late)

/-- A window opened on an entry. -/
def bumpedEntry (entry : PunchEpoch) (now : Instant) : PunchEpoch where
  epoch := entry.epoch + 1
  bumpedAt := some now
  attempts := entry.attempts + 1

/-- A pair's entry after a bump of some pair. -/
theorem bumpPunchEpoch_entry
    (pairID other : String)
    (now : Instant)
    (epochs : PunchEpochs) :
    bumpPunchEpoch other now epochs pairID = epochs pairID ∨
      MayBump (epochs pairID) now ∧
        bumpPunchEpoch other now epochs pairID =
          bumpedEntry (epochs pairID) now := by
  rw [bumpPunchEpoch_eq]
  cases bumped : bumps other now epochs with
  | false => exact Or.inl rfl
  | true =>
      by_cases same : pairID = other
      · subst same
        exact Or.inr ⟨mayBump_of_bumps bumped, if_pos rfl⟩
      · exact Or.inl (if_neg same)

/-- The path state reports a pair direct. -/
def Notice.IsDirect (config : Server.Config) (pairID : String)
    (notice : Notice) : Prop :=
  notice.path.state = "direct" ∧
    relayPairID config.digest notice.own.publicKey
      notice.path.peerPublicKey = pairID

/-- What a path state that does not report a pair direct does to its entry. -/
theorem coordinator_entry
    (config : Server.Config)
    {pairID : String}
    (epochs : PunchEpochs)
    {notice : Notice}
    (notDirect : ¬ notice.IsDirect config pairID) :
    ((coordinator config).step epochs notice).2 pairID = epochs pairID ∨
      MayBump (epochs pairID) notice.now ∧
        ((coordinator config).step epochs notice).2 pairID =
          bumpedEntry (epochs pairID) notice.now := by
  change
    coordinatePath config notice.relay notice.now notice.own notice.others
        notice.online epochs notice.path pairID = _ ∨
      _ ∧
        coordinatePath config notice.relay notice.now notice.own
          notice.others notice.online epochs notice.path pairID = _
  unfold coordinatePath
  cases found :
      notice.others.find?
        (fun p => p.publicKey == notice.path.peerPublicKey) with
  | none => exact Or.inl rfl
  | some remote =>
      have isPeer : remote.publicKey = notice.path.peerPublicKey := by
        have matched := List.find?_some found
        exact eq_of_beq matched
      by_cases isDirect : notice.path.state = "direct"
      · have otherPair :
            pairID ≠
              relayPairID config.digest notice.own.publicKey
                remote.publicKey := by
          intro same
          refine notDirect ⟨isDirect, ?_⟩
          rw [same, isPeer]
        simp only [isDirect, if_true]
        unfold resetPunchAttempts
        split
        · exact Or.inl rfl
        · exact Or.inl (if_neg otherPair)
      · simp only [isDirect, if_false]
        split
        · exact bumpPunchEpoch_entry pairID _ notice.now epochs
        · exact Or.inl rfl

/-- The windows that path states open, from the entry of the pair before. -/
structure Paced (entry : PunchEpoch) (times : List Instant) : Prop where
  count : times.length ≤ maxPunchAttempts - entry.attempts
  rested :
    ∀ bumpedAt, entry.bumpedAt = some bumpedAt →
      ∀ time ∈ times, bumpedAt + punchCooldown ≤ time
  spaced : times.Pairwise (fun first second => first + punchCooldown ≤ second)

/-- A window opened before paced ones. -/
theorem Paced.cons
    {entry : PunchEpoch}
    {now : Instant}
    {times : List Instant}
    (mayBump : MayBump entry now)
    (paced : Paced (bumpedEntry entry now) times) :
    Paced entry (now :: times) := by
  have fromNow : ∀ time ∈ times, now + punchCooldown ≤ time :=
    paced.rested now rfl
  have nonneg : (0 : Int) ≤ punchCooldown := by decide
  refine ⟨?_, ?_, List.pairwise_cons.mpr ⟨fromNow, paced.spaced⟩⟩
  · have left : times.length ≤ maxPunchAttempts - (entry.attempts + 1) :=
      paced.count
    have below := mayBump.attempts
    rw [List.length_cons]
    omega
  · intro bumpedAt isBumped time member
    have rested := mayBump.rested bumpedAt isBumped
    rcases List.mem_cons.mp member with isNow | later
    · rw [isNow]
      exact rested
    · exact
        le_trans rested (le_trans (le_add_of_nonneg_right nonneg)
          (fromNow time later))

/-- Path states that never report the pair direct open paced windows. -/
theorem paced_bumpTimes
    (config : Server.Config)
    (pairID : String)
    (epochs : PunchEpochs)
    {notices : List Notice}
    (notDirect :
      ∀ notice ∈ notices, ¬ notice.IsDirect config pairID) :
    Paced (epochs pairID) (bumpTimes config pairID epochs notices) := by
  induction notices generalizing epochs with
  | nil =>
      exact ⟨Nat.zero_le _, fun _ _ _ member => (List.not_mem_nil member).elim,
        List.Pairwise.nil⟩
  | cons notice rest inductionHypothesis =>
      have later :=
        inductionHypothesis ((coordinator config).step epochs notice).2
          (fun other member =>
            notDirect other (List.mem_cons_of_mem _ member))
      -- Either the entry is as it was and nothing is logged, or the window
      -- is logged and the entry holds its time.
      rcases
          coordinator_entry config epochs
            (notDirect notice List.mem_cons_self) with
        same | ⟨mayBump, bumped⟩
      · rw [same] at later
        have quiet :
            advances pairID ((coordinator config).visit epochs notice) =
              false := by
          refine decide_eq_false ?_
          change
            ¬ _ < (((coordinator config).step epochs notice).2 pairID).epoch
          rw [same]
          exact Nat.lt_irrefl _
        unfold bumpTimes
        rw [Machine.visits, List.filter_cons_of_neg (by rw [quiet]; decide)]
        exact later
      · rw [bumped] at later
        have logged :
            advances pairID ((coordinator config).visit epochs notice) =
              true := by
          refine decide_eq_true ?_
          change _ < (((coordinator config).step epochs notice).2 pairID).epoch
          rw [bumped]
          exact Nat.lt_succ_self _
        unfold bumpTimes
        rw [Machine.visits, List.filter_cons_of_pos logged, List.map_cons]
        exact later.cons mayBump

/-- The state names a relay. -/
def IsRelayState (state : String) : Prop :=
  state = "quic-relay" ∨ state = "ws-relay" ∨ state = "udp-relay"

instance (state : String) : Decidable (IsRelayState state) :=
  inferInstanceAs (Decidable (_ ∨ _ ∨ _))

theorem IsRelayState.ne_direct
    {state : String}
    (isRelay : IsRelayState state) :
    state ≠ "direct" := by
  rcases isRelay with rfl | rfl | rfl
  · decide
  · decide
  · decide

/-- Each path state is of one agent about the other, or has another pair id. -/
def PathReport.Between (config : Server.Config) (keyA keyB : String)
    (report : PathReport) : Prop :=
  ∀ path, path ∈ report.paths →
    (report.own.publicKey = keyA ∧ path.peerPublicKey = keyB) ∨
      (report.own.publicKey = keyB ∧ path.peerPublicKey = keyA) ∨
      relayPairID config.digest report.own.publicKey path.peerPublicKey ≠
        relayPairID config.digest keyA keyB

/-- The states an agent reports for a peer all have a property. -/
def PathReport.Gives (report : PathReport) (agent peer : String)
    (property : String → Prop) : Prop :=
  report.own.publicKey = agent →
    ∀ path, path ∈ report.paths →
      path.peerPublicKey = peer → property path.state

theorem PathReport.mem_notices
    {report : PathReport}
    {notice : Notice}
    (member : notice ∈ report.notices) :
    notice.own = report.own ∧ notice.path ∈ report.paths := by
  unfold notices at member
  split at member
  · exact (List.not_mem_nil member).elim
  · obtain ⟨path, pathMember, rfl⟩ := List.mem_map.mp member
    exact ⟨rfl, pathMember⟩

/-- A report between two agents in which neither gives the direct state. -/
theorem PathReport.Between.notDirect
    {config : Server.Config}
    {keyA keyB : String}
    {report : PathReport}
    (between : report.Between config keyA keyB)
    (fromA : report.Gives keyA keyB (· ≠ "direct"))
    (fromB : report.Gives keyB keyA (· ≠ "direct"))
    {notice : Notice}
    (member : notice ∈ report.notices) :
    ¬ notice.IsDirect config (relayPairID config.digest keyA keyB) := by
  rintro ⟨isDirect, isPair⟩
  obtain ⟨isOwn, pathMember⟩ := PathReport.mem_notices member
  rw [isOwn] at isPair
  rcases between notice.path pathMember with
    ⟨isA, aboutB⟩ | ⟨isB, aboutA⟩ | otherPair
  · exact fromA isA notice.path pathMember aboutB isDirect
  · exact fromB isB notice.path pathMember aboutA isDirect
  · exact otherPair isPair

/--
Within a stretch of reports in which every state of one agent for the other is
a relay state, and the other agent does not report its side of the pair direct,
the windows of the pair keep to the budget, whatever the reports before it have
left.
-/
theorem punch_windows_within_budget
    (config : Server.Config)
    (keyA keyB : String)
    (epochs : PunchEpochs)
    {stretch : List PathReport}
    (between :
      ∀ report ∈ stretch, report.Between config keyA keyB)
    (relayed :
      ∀ report ∈ stretch, report.Gives keyA keyB IsRelayState)
    (notDirect :
      ∀ report ∈ stretch, report.Gives keyB keyA (· ≠ "direct")) :
    WithinBudget
      (stretchBumps config (relayPairID config.digest keyA keyB) epochs
        stretch) := by
  rw [stretchBumps_eq]
  have paced :=
    @paced_bumpTimes config (relayPairID config.digest keyA keyB) epochs
      (stretch.flatMap (·.notices))
      (fun notice member => by
        obtain ⟨report, inStretch, ofReport⟩ := List.mem_flatMap.mp member
        refine
          (between report inStretch).notDirect ?_ (notDirect report inStretch)
            ofReport
        intro isA path pathMember aboutB
        exact
          (relayed report inStretch isA path pathMember aboutB).ne_direct)
  exact ⟨le_trans paced.count (Nat.sub_le _ _), paced.spaced⟩

/-- A peer of a pair, last seen at minute five. -/
def pairRecord (id : Int) (key address endpoint : String) : PeerRecord where
  id := id
  publicKey := key
  assignedIP := address
  lastSeenAt := some "0000-01-01T00:05:00.000Z"
  setupKeyID := 1
  publicEndpoint := some endpoint

/-- The first peer of the pair. -/
def recordA : PeerRecord :=
  pairRecord 1 "a" "100.64.0.1" "192.0.2.1:51820"

/-- The second peer of the pair. -/
def recordB : PeerRecord :=
  pairRecord 2 "b" "100.64.0.2" "192.0.2.2:51820"

/-- A store with both peers. -/
def pairDB : DB where
  tables :=
    { setupKeys := [⟨1, "key", none, none, none, none, 2⟩]
      peers := [recordA, recordB] }
  legal := by decide +kernel

/-- A report of one peer about the other. -/
def pairReport (own remote : PeerRecord) (state : String) (now : Instant) :
    PathReport where
  relay := fun _ => none
  now := now
  own := own.selfRow
  others := [remote.visibleRow]
  paths := [⟨remote.publicKey, state, ""⟩]
  session := ⟨pairDB, []⟩

/-- Both sides stay on the relay: a window at once, a report within the
cooldown, and a second window after it. -/
def restingStretch : List PathReport :=
  [pairReport recordA recordB "quic-relay" 0,
    pairReport recordA recordB "ws-relay" 60000000000,
    pairReport recordB recordA "udp-relay" 240000000000]

/-- Two windows are opened, four minutes apart. -/
theorem punch_windows_within_budget_resting :
    stretchBumps (.sample true) "a|b" (fun _ => {}) restingStretch =
        [0, 240000000000] ∧
      WithinBudget
        (stretchBumps (.sample true)
          (relayPairID (Server.Config.sample true).digest "a" "b") (fun _ => {})
          restingStretch) := by
  refine
    ⟨by decide +kernel,
      punch_windows_within_budget (.sample true) "a" "b" (fun _ => {}) ?_ ?_
        ?_⟩
  · unfold PathReport.Between
    decide +kernel
  · unfold PathReport.Gives
    decide +kernel
  · unfold PathReport.Gives
    decide +kernel

/-- The first peer is on the relay all the time, the second reports a direct
path between any two of its reports. -/
def lopsidedStretch : List PathReport :=
  [pairReport recordA recordB "quic-relay" 0,
    pairReport recordB recordA "direct" 0,
    pairReport recordA recordB "quic-relay" 0,
    pairReport recordB recordA "direct" 0,
    pairReport recordA recordB "quic-relay" 0,
    pairReport recordB recordA "direct" 0,
    pairReport recordA recordB "quic-relay" 0]

/-- Four windows are opened at one moment. -/
theorem one_sided_direct_exceeds_budget :
    (∀ report, report ∈ lopsidedStretch →
        report.Between (.sample true) "a" "b" ∧
          report.Gives "a" "b" IsRelayState) ∧
      stretchBumps (.sample true)
          (relayPairID (Server.Config.sample true).digest "a" "b") (fun _ => {})
          lopsidedStretch =
        [0, 0, 0, 0] ∧
      ¬ WithinBudget
        (stretchBumps (.sample true)
          (relayPairID (Server.Config.sample true).digest "a" "b") (fun _ => {})
          lopsidedStretch) := by
  refine ⟨?_, by decide +kernel, ?_⟩
  · unfold PathReport.Between PathReport.Gives
    decide +kernel
  · rintro ⟨count, -⟩
    exact absurd count (by decide +kernel)

end WgMesh.PunchBudget
