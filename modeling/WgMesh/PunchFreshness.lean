import WgMesh.HoldDown
import WgMesh.ServerPunches

namespace WgMesh.Punches

/-!
# Punch epochs as agents see them

The server counts the punch windows of a pair in memory, each agent process
remembers the highest epoch it has consumed for a peer, and either can be
restarted without the other.  An agent has one request under way at a time.  Its
answer is filled in entry by entry while other requests go on, and may be lost.
`owed` is the epoch of the last window of a pair that an agent has not been
handed yet.
-/

open Agent CivilTime FiniteRuns PairKeys Server Store

/-- `bumpPunchEpoch` reports success. -/
def bumps (pairID : String) (now : Instant) (epochs : PunchEpochs) : Bool :=
  decide ((epochs pairID).attempts < maxPunchAttempts) &&
    !(epochs pairID).bumpedAt.any (fun bumpedAt =>
      decide (now - bumpedAt <
        punchCooldown * 2 ^
          (if (epochs pairID).attempts < 2 then (epochs pairID).attempts
          else 2)))

/-- `bumpPunchEpoch` advances the epoch exactly when it reports success. -/
theorem bumpPunchEpoch_eq
    (pairID : String)
    (now : Instant)
    (epochs : PunchEpochs) :
    bumpPunchEpoch pairID now epochs =
      if bumps pairID now epochs then
        epochs.set pairID
          { epoch := (epochs pairID).epoch + 1
            bumpedAt := some now
            attempts := (epochs pairID).attempts + 1 }
      else epochs := by
  unfold bumpPunchEpoch bumps
  by_cases capped : maxPunchAttempts ≤ (epochs pairID).attempts
  · have notBelow : ¬ (epochs pairID).attempts < maxPunchAttempts :=
      Nat.not_lt.mpr capped
    simp only [capped, notBelow, if_true, decide_false, Bool.false_and,
      Bool.false_eq_true, if_false]
  · have below : (epochs pairID).attempts < maxPunchAttempts :=
      Nat.not_le.mp capped
    simp only [capped, below, if_false, decide_true, Bool.true_and]
    cases (epochs pairID).bumpedAt.any _ with
    | true => rfl
    | false => rfl

/-- A bump never lowers an epoch. -/
theorem epoch_le_bumpPunchEpoch
    (pairID id : String)
    (now : Instant)
    (epochs : PunchEpochs) :
    (epochs id).epoch ≤ (bumpPunchEpoch pairID now epochs id).epoch := by
  rw [bumpPunchEpoch_eq]
  split
  · unfold PunchEpochs.set
    split
    · rename_i same
      rw [same]
      exact Nat.le_succ _
    · exact Nat.le_refl _
  · exact Nat.le_refl _

/-- Resetting the attempts keeps the epochs. -/
theorem epoch_resetPunchAttempts
    (pairID id : String)
    (epochs : PunchEpochs) :
    (resetPunchAttempts pairID epochs id).epoch = (epochs id).epoch := by
  unfold resetPunchAttempts
  split
  · rfl
  · unfold PunchEpochs.set
    split
    · rename_i same
      rw [same]
    · rfl

theorem relayPairID_comm
    (digest : String → String)
    (first second : String) :
    relayPairID digest first second = relayPairID digest second first := by
  unfold relayPairID
  rw [ordered_comm]

/-- An answer to a report or an enrolment: peers with their entries. -/
structure Answer where
  payload : List (Key × PeerConfigResponse × RetryAnswers)

/-- The epochs an answer hands out. -/
def Answer.epochs (answer : Answer) : List (Key × Nat) :=
  answer.payload.map (fun entry => (entry.1, entry.2.1.punchEpoch))

/-- The entries as `applySync` reads them. -/
def Answer.entries (answer : Answer) :
    List (PeerConfigResponse × RetryAnswers) :=
  answer.payload.map
    (fun entry => ({ entry.2.1 with publicKey := entry.1.text }, entry.2.2))

/-- The server's epochs, the agents' processes and the answers under way. -/
structure World where
  epochs : PunchEpochs
  owed : Key → Key → Nat
  reporter : Key → Reporter
  received : Key → List (Key × Nat)
  answer : Key → Option Answer

/-- What happens next.  An answer is applied as a report's, with the outcome of
`ConfigureDevice`, or taken in as an enrolment's. -/
inductive Input where
  | bump (own remote : Key) (now : Instant)
  | reset (own remote : Key)
  | respond (agent : Key)
      (payload : List (Key × PeerConfigResponse × RetryAnswers))
  | deliver (agent : Key) (applied : Option Bool)
  | lose (agent : Key)
  | act (agent : Key) (step : Agent.Step)
  | restartServer
  | restartAgent (agent : Key) (device : Device)

/-- The step applies a payload. -/
def isSync : Agent.Step → Bool
  | .applySync _ _ => true
  | _ => false

/-- The id of the pair of two keys. -/
def pairOf (digest : String → String) (own remote : Key) : String :=
  relayPairID digest own.text remote.text

/-- An entry with the epoch of its pair, as `buildPeerEntries` fills it in. -/
def stamped (digest : String → String) (epochs : PunchEpochs) (agent : Key)
    (entry : Key × PeerConfigResponse × RetryAnswers) :
    Key × PeerConfigResponse × RetryAnswers :=
  (entry.1,
    { entry.2.1 with
      punchEpoch := (epochs (pairOf digest agent entry.1)).epoch },
    entry.2.2)

/-- A bumped epoch is owed to both agents of the pair. -/
def World.owe (world : World) (own remote : Key) (epoch : Nat) :
    Key → Key → Nat :=
  fun agent peer =>
    if (agent = own ∧ peer = remote) ∨ (agent = remote ∧ peer = own) then
      epoch
    else
      world.owed agent peer

/-- The entries of the agent's answer so far. -/
def World.filledIn (world : World) (agent : Key) :
    List (Key × PeerConfigResponse × RetryAnswers) :=
  ((world.answer agent).map (·.payload)).getD []

/-- The agent receives an answer. -/
def World.receive (configs : Key → ReporterConfig) (world : World)
    (agent : Key) (answer : Answer) (applied : Option Bool) : World :=
  { world with
    owed := fun other peer =>
      if other = agent ∧
          answer.epochs.any (fun handed =>
            decide (handed.1 = peer ∧ world.owed agent peer ≤ handed.2)) then
        0
      else
        world.owed other peer
    reporter :=
      match applied with
      | none => world.reporter
      | some configured =>
          Function.update world.reporter agent
            ((reporterMachine (configs agent)).step (world.reporter agent)
              (.applySync answer.entries configured)).2
    received :=
      Function.update world.received agent
        (world.received agent ++ answer.epochs)
    answer := Function.update world.answer agent none }

/-- One input; the output is what `bumpPunchEpoch` reports. -/
def World.step (digest : String → String) (configs : Key → ReporterConfig)
    (world : World) : Input → Bool × World
  | .bump own remote now =>
      if bumps (pairOf digest own remote) now world.epochs then
        (true,
          { world with
            epochs :=
              bumpPunchEpoch (pairOf digest own remote) now world.epochs
            owed :=
              world.owe own remote
                ((world.epochs (pairOf digest own remote)).epoch + 1) })
      else
        (false, world)
  | .reset own remote =>
      (false,
        { world with
          epochs :=
            resetPunchAttempts (pairOf digest own remote) world.epochs })
  | .respond agent payload =>
      (false,
        { world with
          answer :=
            Function.update world.answer agent
              (some
                { payload :=
                    world.filledIn agent ++
                      payload.map (stamped digest world.epochs agent) }) })
  | .deliver agent applied =>
      match world.answer agent with
      | none => (false, world)
      | some answer => (false, world.receive configs agent answer applied)
  | .lose agent =>
      (false,
        { world with answer := Function.update world.answer agent none })
  | .act agent step =>
      if isSync step then
        (false, world)
      else
        (false,
          { world with
            reporter :=
              Function.update world.reporter agent
                ((reporterMachine (configs agent)).step
                  (world.reporter agent) step).2 })
  | .restartServer =>
      (false, { world with epochs := fun _ => {}, owed := fun _ _ => 0 })
  | .restartAgent agent device =>
      (false,
        { world with
          reporter :=
            Function.update world.reporter agent (Reporter.new device)
          received := Function.update world.received agent []
          answer := Function.update world.answer agent none })

/-- The server and its agents as a machine. -/
def worldMachine (digest : String → String)
    (configs : Key → ReporterConfig) : Machine World Input Bool where
  step := World.step digest configs

/-- A new server, and agent processes that have just started. -/
def World.new (devices : Key → Device) : World where
  epochs := fun _ => {}
  owed := fun _ _ => 0
  reporter := fun agent => Reporter.new (devices agent)
  received := fun _ => []
  answer := fun _ => none

/-- An answer that hands an agent the epoch of a window it has not been handed
brings a greater epoch than any that its process has received for the peer, and
`maybeRetryDirect` takes it as fresh. -/
def World.SeenAsNew (world : World) : Prop :=
  ∀ agent answer peer epoch,
    world.answer agent = some answer →
    (peer, epoch) ∈ answer.epochs →
    0 < world.owed agent peer →
    world.owed agent peer ≤ epoch →
    (∀ earlier, (peer, earlier) ∈ world.received agent → earlier < epoch) ∧
      ((world.reporter agent).state peer).isFresh epoch = true

/-- The server is restarted only while no living agent process has received,
or is about to receive, an epoch of a window. -/
def Forgettable (world : World) : Input → Prop
  | .restartServer =>
      ∀ agent peer epoch,
        ((peer, epoch) ∈ world.received agent ∨
          ∃ answer,
            world.answer agent = some answer ∧
              (peer, epoch) ∈ answer.epochs) →
        epoch = 0
  | _ => True

/-- No epoch runs ahead of the server's, an owed epoch is greater than those
received, and an agent has consumed nothing else than what it received. -/
structure World.Sound (digest : String → String) (world : World) : Prop where
  received :
    ∀ agent peer epoch,
      (peer, epoch) ∈ world.received agent →
      epoch ≤ (world.epochs (pairOf digest agent peer)).epoch
  underWay :
    ∀ agent answer peer epoch,
      world.answer agent = some answer →
      (peer, epoch) ∈ answer.epochs →
      epoch ≤ (world.epochs (pairOf digest agent peer)).epoch
  owed :
    ∀ agent peer epoch,
      0 < world.owed agent peer →
      (peer, epoch) ∈ world.received agent →
      epoch < world.owed agent peer
  consumed :
    ∀ agent peer,
      ((world.reporter agent).state peer).lastPunchEpoch = 0 ∨
        (peer, ((world.reporter agent).state peer).lastPunchEpoch) ∈
          world.received agent

theorem World.sound_new
    (digest : String → String)
    (devices : Key → Device) :
    (World.new devices).Sound digest where
  received := fun _ _ _ member => (List.not_mem_nil member).elim
  underWay := fun _ _ _ _ isAnswer => by cases isAnswer
  owed := fun _ _ _ isOwed => (Nat.lt_irrefl 0 isOwed).elim
  consumed := fun _ _ => Or.inl rfl

variable {digest : String → String} {world : World}

/-- An owed epoch is seen as new. -/
theorem World.Sound.seenAsNew
    (sound : world.Sound digest) :
    world.SeenAsNew := by
  intro agent answer peer epoch isAnswer member isOwed reaches
  have greater :
      ∀ earlier, (peer, earlier) ∈ world.received agent → earlier < epoch :=
    fun earlier wasReceived =>
      Nat.lt_of_lt_of_le (sound.owed agent peer earlier isOwed wasReceived)
        reaches
  refine ⟨greater, ?_⟩
  have positive : 0 < epoch := Nat.lt_of_lt_of_le isOwed reaches
  have isLater :
      ((world.reporter agent).state peer).lastPunchEpoch < epoch := by
    rcases sound.consumed agent peer with isZero | wasReceived
    · rw [isZero]
      exact positive
    · exact greater _ wasReceived
  simp only [PeerRelay.isFresh, positive, isLater, decide_true, Bool.and_true]

/-- Greater epochs on the server keep a world sound. -/
theorem World.Sound.advance
    (sound : world.Sound digest)
    {epochs : PunchEpochs}
    (advances : ∀ id, (world.epochs id).epoch ≤ (epochs id).epoch) :
    World.Sound digest { world with epochs := epochs } where
  received := fun agent peer epoch member =>
    Nat.le_trans (sound.received agent peer epoch member) (advances _)
  underWay := fun agent answer peer epoch isAnswer member =>
    Nat.le_trans (sound.underWay agent answer peer epoch isAnswer member)
      (advances _)
  owed := sound.owed
  consumed := sound.consumed

/-- A bumped epoch may be owed to both agents of the pair. -/
theorem World.Sound.owe
    (sound : world.Sound digest)
    (own remote : Key)
    {epoch : Nat}
    (isNext : (world.epochs (pairOf digest own remote)).epoch < epoch) :
    World.Sound digest { world with owed := world.owe own remote epoch } where
  received := sound.received
  underWay := sound.underWay
  consumed := sound.consumed
  owed := by
    intro agent peer earlier isOwed member
    simp only [World.owe] at isOwed ⊢
    split
    · rename_i ofPair
      have bound := sound.received agent peer earlier member
      rcases ofPair with ⟨isOwn, isRemote⟩ | ⟨isRemote, isOwn⟩
      · rw [isOwn, isRemote] at bound
        exact Nat.lt_of_le_of_lt bound isNext
      · rw [isOwn, isRemote, pairOf, relayPairID_comm] at bound
        exact Nat.lt_of_le_of_lt bound isNext
    · rename_i otherPair
      rw [if_neg otherPair] at isOwed
      exact sound.owed agent peer earlier isOwed member

/-- An answer under way may bring epochs the server has reached. -/
theorem World.Sound.withAnswer
    {digest : String → String}
    {world : World}
    (sound : world.Sound digest)
    (agent : Key)
    {answer : Option Answer}
    (reached :
      ∀ given peer epoch,
        answer = some given →
        (peer, epoch) ∈ given.epochs →
        epoch ≤ (world.epochs (pairOf digest agent peer)).epoch) :
    World.Sound digest
      { world with
        answer := Function.update world.answer agent answer } where
  received := sound.received
  owed := sound.owed
  consumed := sound.consumed
  underWay := by
    intro other given peer epoch isAnswer member
    by_cases same : other = agent
    · subst same
      simp only [Function.update_self] at isAnswer
      exact reached given peer epoch isAnswer member
    · simp only [Function.update_of_ne same] at isAnswer
      exact sound.underWay other given peer epoch isAnswer member

/-- An agent may go on with a reporter that has consumed nothing new. -/
theorem World.Sound.withReporter
    (sound : world.Sound digest)
    (agent : Key)
    {reporter : Reporter}
    (consumed :
      ∀ peer,
        (reporter.state peer).lastPunchEpoch = 0 ∨
          (peer, (reporter.state peer).lastPunchEpoch) ∈
            world.received agent) :
    World.Sound digest
      { world with
        reporter := Function.update world.reporter agent reporter } where
  received := sound.received
  underWay := sound.underWay
  owed := sound.owed
  consumed := by
    intro other peer
    by_cases same : other = agent
    · subst same
      simp only [Function.update_self]
      exact consumed peer
    · simp only [Function.update_of_ne same]
      exact sound.consumed other peer

theorem handed_of_retry
    {config : ReporterConfig}
    {configured : Bool}
    {answer : Answer}
    {peer : Key}
    {candidates : List AddrPort}
    {epoch : Nat}
    {answers : RetryAnswers}
    (member :
      .maybeRetryDirect peer candidates epoch answers ∈
        syncCalls config configured answer.entries []) :
    (peer, epoch) ∈ answer.epochs := by
  obtain ⟨entry, entryMember, isKey, isEpoch⟩ := entry_of_retry member
  obtain ⟨given, givenMember, rfl⟩ := List.mem_map.mp entryMember
  have isPeer : given.1 = peer :=
    Option.some.inj ((parseKey_text given.1).symm.trans isKey)
  refine List.mem_map.mpr ⟨given, givenMember, ?_⟩
  exact Prod.ext isPeer isEpoch

/-- What an agent consumes from an answer was handed out with it. -/
theorem consumed_applySync
    (config : ReporterConfig)
    (t : Reporter)
    (answer : Answer)
    (configured : Bool)
    (peer : Key) :
    let after :=
      ((reporterMachine config).step t
        (.applySync answer.entries configured)).2
    (after.state peer).lastPunchEpoch = (t.state peer).lastPunchEpoch ∨
      (peer, (after.state peer).lastPunchEpoch) ∈ answer.epochs := by
  rcases
      lastPunchEpoch_run config t
        (t.calls config (.applySync answer.entries configured)) peer with
    same | ⟨candidates, answers, member⟩
  · exact Or.inl same
  · exact Or.inr (handed_of_retry member)

/-- A step that applies no payload consumes no epoch. -/
theorem consumed_of_not_sync
    (config : ReporterConfig)
    (t : Reporter)
    {step : Agent.Step}
    (notSync : isSync step = false)
    (peer : Key) :
    (((reporterMachine config).step t step).2.state peer).lastPunchEpoch =
      (t.state peer).lastPunchEpoch := by
  rcases lastPunchEpoch_run config t (t.calls config step) peer with
    same | ⟨candidates, answers, member⟩
  · exact same
  · cases step with
    | applySync entries configured => cases notSync
    | collect now =>
        obtain ⟨live, -, isCall⟩ := List.mem_map.mp member
        cases isCall
    | report => exact (List.not_mem_nil member).elim
    | checkHandshakes now pathAnswers =>
        rcases List.mem_cons.mp member with isSweep | inLoop
        · cases isSweep
        · obtain ⟨live, -, isCall⟩ := List.mem_map.mp inLoop
          cases isCall
    | checkProbes now configured =>
        obtain ⟨live, -, isCall⟩ := List.mem_map.mp member
        cases isCall
    | proxyDies key => cases List.mem_singleton.mp member
    | traffic key time bytes => cases List.mem_singleton.mp member
    | roam key endpoint => cases List.mem_singleton.mp member

/-- An agent may receive the answer under way. -/
theorem World.Sound.receive
    (sound : world.Sound digest)
    (configs : Key → ReporterConfig)
    {agent : Key}
    {answer : Answer}
    (isAnswer : world.answer agent = some answer)
    (applied : Option Bool) :
    (world.receive configs agent answer applied).Sound digest where
  received := by
    intro other peer epoch member
    by_cases same : other = agent
    · subst same
      simp only [World.receive, Function.update_self] at member
      rcases List.mem_append.mp member with earlier | handed
      · exact sound.received other peer epoch earlier
      · exact sound.underWay other answer peer epoch isAnswer handed
    · simp only [World.receive, Function.update_of_ne same] at member
      exact sound.received other peer epoch member
  underWay := by
    intro other given peer epoch isGiven member
    by_cases same : other = agent
    · subst same
      simp only [World.receive, Function.update_self] at isGiven
      cases isGiven
    · simp only [World.receive, Function.update_of_ne same] at isGiven
      exact sound.underWay other given peer epoch isGiven member
  owed := by
    intro other peer epoch isOwed member
    simp only [World.receive] at isOwed ⊢
    split at isOwed
    · exact (Nat.lt_irrefl 0 isOwed).elim
    · rename_i notHanded
      rw [if_neg notHanded]
      by_cases same : other = agent
      · subst same
        simp only [World.receive, Function.update_self] at member
        rcases List.mem_append.mp member with earlier | handed
        · exact sound.owed other peer epoch isOwed earlier
        · refine Nat.not_le.mp (fun reaches => notHanded ⟨rfl, ?_⟩)
          exact
            List.any_eq_true.mpr
              ⟨(peer, epoch), handed, decide_eq_true ⟨rfl, reaches⟩⟩
      · simp only [World.receive, Function.update_of_ne same] at member
        exact sound.owed other peer epoch isOwed member
  consumed := by
    intro other peer
    by_cases same : other = agent
    · subst same
      have before :
          ((world.reporter other).state peer).lastPunchEpoch = 0 ∨
            (peer, ((world.reporter other).state peer).lastPunchEpoch) ∈
              world.received other ++ answer.epochs :=
        (sound.consumed other peer).imp id (List.mem_append_left _)
      simp only [World.receive, Function.update_self]
      cases applied with
      | none => exact before
      | some configured =>
          simp only [Function.update_self]
          rcases
              consumed_applySync (configs other) (world.reporter other)
                answer configured peer with
            kept | handed
          · rw [kept]
            exact before
          · exact Or.inr (List.mem_append_right _ handed)
    · have kept :
          (world.receive configs agent answer applied).reporter other =
            world.reporter other := by
        cases applied with
        | none => rfl
        | some configured => exact Function.update_of_ne same _ _
      rw [kept]
      simp only [World.receive, Function.update_of_ne same]
      exact sound.consumed other peer

/-- The entries so far bring epochs the server has reached. -/
theorem World.Sound.filledIn
    (sound : world.Sound digest)
    {agent : Key}
    {entry : Key × PeerConfigResponse × RetryAnswers}
    (member : entry ∈ world.filledIn agent) :
    entry.2.1.punchEpoch ≤
      (world.epochs (pairOf digest agent entry.1)).epoch := by
  unfold World.filledIn at member
  cases isAnswer : world.answer agent with
  | none =>
      rw [isAnswer] at member
      exact (List.not_mem_nil member).elim
  | some answer =>
      rw [isAnswer] at member
      exact
        sound.underWay agent answer entry.1 entry.2.1.punchEpoch isAnswer
          (List.mem_map_of_mem member)

/-- A restart of the server that forgets no epoch an agent has, or is about to
have, keeps the world sound. -/
theorem World.Sound.restartServer
    (sound : world.Sound digest)
    (forgettable : Forgettable world .restartServer) :
    World.Sound digest
      { world with epochs := fun _ => {}, owed := fun _ _ => 0 } where
  received := fun agent peer epoch member =>
    Nat.le_of_eq (forgettable agent peer epoch (Or.inl member))
  underWay := fun agent answer peer epoch isAnswer member =>
    Nat.le_of_eq
      (forgettable agent peer epoch (Or.inr ⟨answer, isAnswer, member⟩))
  owed := fun _ _ _ isOwed => (Nat.lt_irrefl 0 isOwed).elim
  consumed := sound.consumed

/-- A new process of an agent has received nothing. -/
theorem World.Sound.restartAgent
    (sound : world.Sound digest)
    (agent : Key)
    (device : Device) :
    World.Sound digest
      { world with
        reporter :=
          Function.update world.reporter agent (Reporter.new device)
        received := Function.update world.received agent []
        answer := Function.update world.answer agent none } := by
  have earlier :
      ∀ other peer epoch,
        (peer, epoch) ∈ Function.update world.received agent [] other →
        (peer, epoch) ∈ world.received other := by
    intro other peer epoch member
    by_cases same : other = agent
    · subst same
      rw [Function.update_self] at member
      exact (List.not_mem_nil member).elim
    · rwa [Function.update_of_ne same] at member
  refine
    { received := fun other peer epoch member =>
        sound.received other peer epoch (earlier other peer epoch member)
      owed := fun other peer epoch isOwed member =>
        sound.owed other peer epoch isOwed (earlier other peer epoch member)
      underWay := ?_
      consumed := ?_ }
  · exact (@World.Sound.withAnswer _ _ sound agent none nofun).underWay
  · intro other peer
    by_cases same : other = agent
    · subst same
      simp only [Function.update_self]
      exact Or.inl rfl
    · simp only [Function.update_of_ne same]
      exact sound.consumed other peer

/-- Each input that forgets nothing keeps the world sound. -/
theorem World.Sound.step
    (sound : world.Sound digest)
    (configs : Key → ReporterConfig)
    {input : Input}
    (forgettable : Forgettable world input) :
    (world.step digest configs input).2.Sound digest := by
  cases input with
  | bump own remote now =>
      simp only [World.step]
      split
      · exact
          (sound.owe own remote (Nat.lt_succ_self _)).advance
            (epoch_le_bumpPunchEpoch (pairOf digest own remote) · now
              world.epochs)
      · exact sound
  | reset own remote =>
      exact
        sound.advance
          (fun id => Nat.le_of_eq (epoch_resetPunchAttempts _ id _).symm)
  | respond agent payload =>
      refine sound.withAnswer agent ?_
      intro given peer epoch isGiven member
      cases isGiven
      obtain ⟨entry, entryMember, isEntry⟩ := List.mem_map.mp member
      cases isEntry
      rcases List.mem_append.mp entryMember with earlier | added
      · exact sound.filledIn earlier
      · obtain ⟨given, -, rfl⟩ := List.mem_map.mp added
        exact Nat.le_refl _
  | deliver agent applied =>
      simp only [World.step]
      split
      · exact sound
      · rename_i answer isAnswer
        exact sound.receive configs isAnswer applied
  | lose agent =>
      exact sound.withAnswer agent nofun
  | act agent step =>
      simp only [World.step]
      split
      · exact sound
      · rename_i notSync
        refine sound.withReporter agent (fun peer => ?_)
        rw [consumed_of_not_sync (configs agent) (world.reporter agent)
          (Bool.eq_false_of_not_eq_true notSync) peer]
        exact sound.consumed agent peer
  | restartServer => exact sound.restartServer forgettable
  | restartAgent agent device => exact sound.restartAgent agent device

/--
In every run in which the server is restarted only while no agent process has
received, or is about to receive, an epoch of a window, an answer that hands an
agent the epoch of a new window brings a greater one than its process has
received, and the agent takes it as fresh.
-/
theorem punch_windows_seen_as_new
    (digest : String → String)
    (configs : Key → ReporterConfig)
    (devices : Key → Device)
    {inputs : List Input}
    (forgettable :
      ∀ visit,
        visit ∈
          (worldMachine digest configs).visits (World.new devices) inputs →
        Forgettable visit.before visit.input) :
    ((worldMachine digest configs).run (World.new devices)
      inputs).SeenAsNew :=
  (@Machine.visits_invariant _ _ _ (worldMachine digest configs)
    (World.Sound digest) Forgettable
    (fun _ _ sound allowed => sound.step configs allowed)
    (World.new devices) (World.sound_new digest devices) inputs
    forgettable).1.seenAsNew

/-- The settings of every agent. -/
def sampleConfigs (_ : Key) : ReporterConfig :=
  webSocketAgent (endpointOf 3221225985 51820)

/-- Every agent has one peer, which it has not heard from. -/
def sampleDevices (_ : Key) : Device :=
  silentDevice (endpointOf 3221225985 51820)

/-- The entry of that peer. -/
def sampleEntries (now : Instant) :
    List (Key × PeerConfigResponse × RetryAnswers) :=
  (soleEntry now).map (fun entry => (zeroKey, entry))

/-- A window of the pair is opened at a time, and handed to one agent. -/
def window (now : Instant) : List Input :=
  [.bump onesKey zeroKey now, .respond onesKey (sampleEntries now)]

/-- The server is restarted after a window no agent has been handed; later
windows are answered. -/
def earlyRestart : List Input :=
  [.bump onesKey zeroKey 0, .restartServer] ++ window second ++
    [.deliver onesKey (some true)] ++ window (300 * second)

/-- The agent is handed epoch 2 after epoch 1. -/
theorem punch_windows_seen_as_new_early_restart :
    let world :=
      (worldMachine id sampleConfigs).run (World.new sampleDevices)
        earlyRestart
    world.received onesKey = [(zeroKey, 1)] ∧
      (world.answer onesKey).map (·.epochs) = some [(zeroKey, 2)] ∧
      world.owed onesKey zeroKey = 2 ∧
      world.SeenAsNew := by
  refine
    ⟨by decide +kernel, by decide +kernel, by decide +kernel,
      punch_windows_seen_as_new id sampleConfigs sampleDevices ?_⟩
  intro visit member
  simp only [earlyRestart, window, List.cons_append, List.nil_append,
    Machine.visits, List.mem_cons, List.not_mem_nil, or_false] at member
  rcases member with
    isVisit | isVisit | isVisit | isVisit | isVisit | isVisit | isVisit
  · rw [isVisit]
    trivial
  · rw [isVisit]
    intro agent peer epoch given
    rcases given with received | ⟨answer, isAnswer, -⟩
    · exact (List.not_mem_nil received).elim
    · cases isAnswer
  · rw [isVisit]
    trivial
  · rw [isVisit]
    trivial
  · rw [isVisit]
    trivial
  · rw [isVisit]
    trivial
  · rw [isVisit]
    trivial

/-- A peer falls back to the relay and is handed a window; the server is
restarted, and opens its next window. -/
def lateRestart : List Input :=
  fallingBack.map (.act onesKey) ++ window (91 * second) ++
    [.deliver onesKey (some true), .restartServer] ++ window (300 * second)

/-- The relayed agent is handed the epoch it already has, which is not fresh. -/
theorem restarted_window_not_fresh :
    let world :=
      (worldMachine id sampleConfigs).run (World.new sampleDevices)
        lateRestart
    world.owed onesKey zeroKey = 1 ∧
      ((world.reporter onesKey).state zeroKey).relayed = true ∧
      ((world.reporter onesKey).state zeroKey).isFresh 1 = false ∧
      ¬ world.SeenAsNew := by
  refine
    ⟨by decide +kernel, by decide +kernel, by decide +kernel, ?_⟩
  intro seenAsNew
  have fresh :=
    (seenAsNew onesKey
      { payload :=
          (sampleEntries (300 * second)).map
            (stamped id
              (bumpPunchEpoch (pairOf id onesKey zeroKey) (300 * second)
                (fun _ => {}))
              onesKey) }
      zeroKey 1 rfl (by decide +kernel) (by decide +kernel)
      (by decide +kernel)).2
  exact absurd fresh (by decide +kernel)

end WgMesh.Punches
