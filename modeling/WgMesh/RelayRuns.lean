import WgMesh.AgentRelay

namespace WgMesh.Agent

/-!
# Runs of the reporter

The steps of the reporter as sequences of calls, between which the proxies, the
peers' traffic and roaming may act.  Each call reads the device's entry of its
peer; the calls for other peers do not change it.  What a call can do to one
peer is said once, as a `Turn` of what the maps and the device hold for it.
-/

open CivilTime FiniteRuns PairKeys RowTables Server Store

/-- A call within a step of the reporter, or an event around it. -/
inductive Call where
  | count (key : Key) (now : Instant)
  | maybeRetryDirect (key : Key) (candidates : List AddrPort)
      (punchEpoch : Nat) (answers : RetryAnswers)
  | syncPeers (desired : List PeerConfig) (configured : Bool)
  | retireProxies
  | checkPeer (key : Key) (now : Instant) (answers : PathAnswers)
  | checkDirectProbe (key : Key) (now : Instant) (configured : Bool)
  | proxyDies (key : Key)
  | traffic (key : Key) (lastHandshakeTime : Option Instant)
      (receiveBytes : Int)
  | roam (key : Key) (endpoint : AddrPort)

/-- Handshakes and data of a peer, as the device counts them. -/
def LivePeer.heard (peer : LivePeer) (lastHandshakeTime : Option Instant)
    (receiveBytes : Int) : LivePeer :=
  { peer with lastHandshakeTime, receiveBytes }

/-- A peer with another endpoint. -/
def LivePeer.pointed (peer : LivePeer) (endpoint : AddrPort) : LivePeer :=
  { peer with endpoint := some endpoint }

theorem configured_endpointChange
    (peer : LivePeer)
    (key : Key)
    (endpoint : AddrPort) :
    peer.configured (endpointChange key endpoint) = peer.pointed endpoint := by
  simp [LivePeer.configured, endpointChange, LivePeer.pointed]

/-- One call; a peer that is not on the device is not looked at. -/
def Reporter.call (config : ReporterConfig) (t : Reporter) :
    Call → List Event × Reporter
  | .count key now =>
      match t.device.peer? key with
      | none => ([], t)
      | some peer => ([], t.set key ((t.state key).count peer now))
  | .maybeRetryDirect key candidates punchEpoch answers =>
      t.maybeRetryDirect config key candidates punchEpoch answers
  | .syncPeers desired configured =>
      if configured then ([], { t with device := t.device.sync desired })
      else ([], t)
  | .retireProxies => ([], t.retireProxies)
  | .checkPeer key now answers =>
      match t.device.peer? key with
      | none => ([], t)
      | some peer => t.checkPeer config peer now answers
  | .checkDirectProbe key now configured =>
      match t.device.peer? key with
      | none => ([], t)
      | some peer => t.checkDirectProbe peer now configured
  | .proxyDies key => ([], t.set key (t.state key).proxyDies)
  | .traffic key lastHandshakeTime receiveBytes =>
      ([],
        { t with
          device :=
            t.device.modify key
              (fun peer => peer.heard lastHandshakeTime receiveBytes)
              (fun _ => rfl) })
  | .roam key endpoint =>
      ([],
        { t with
          device :=
            t.device.modify key (fun peer => peer.pointed endpoint)
              (fun _ => rfl) })

/-- The calls as a machine. -/
def callMachine (config : ReporterConfig) :
    Machine Reporter Call (List Event) where
  step := Reporter.call config

/-- A step of the reporter under its lock, or an event between two steps.
A step that cannot read the device, or is sent no payload, is left out. -/
inductive Step where
  | collect (now : Key → Instant)
  | report
  | applySync (entries : List (PeerConfigResponse × RetryAnswers))
      (configured : Bool)
  | checkHandshakes (now : Instant) (answers : Key → PathAnswers)
  | checkProbes (now : Instant) (configured : Key → Bool)
  | proxyDies (key : Key)
  | traffic (key : Key) (lastHandshakeTime : Option Instant)
      (receiveBytes : Int)
  | roam (key : Key) (endpoint : AddrPort)

/-- The loop of `applySync` over the entries, after those in `desired`; a bad
entry ends it before `syncPeers`. -/
def syncCalls (config : ReporterConfig) (configured : Bool) :
    List (PeerConfigResponse × RetryAnswers) → List PeerConfig → List Call
  | [], desired => [.syncPeers desired configured]
  | (entry, answers) :: rest, desired =>
      match peerConfigFromProto config.resolve entry with
      | .error _ => []
      | .ok want =>
          .maybeRetryDirect want.publicKey
              (endpointCandidatesFromProto config.resolve entry want.endpoint)
              entry.punchEpoch answers ::
            syncCalls config configured rest (desired ++ [want])

/-- The calls of a step. -/
def Reporter.calls (config : ReporterConfig) (t : Reporter) :
    Step → List Call
  | .collect now =>
      t.device.peers.map
        (fun peer => .count peer.publicKey (now peer.publicKey))
  | .report => []
  | .applySync entries configured => syncCalls config configured entries []
  | .checkHandshakes now answers =>
      .retireProxies ::
        t.device.peers.map
          (fun peer =>
            .checkPeer peer.publicKey now (answers peer.publicKey))
  | .checkProbes now configured =>
      t.device.peers.map
        (fun peer =>
          .checkDirectProbe peer.publicKey now (configured peer.publicKey))
  | .proxyDies key => [.proxyDies key]
  | .traffic key lastHandshakeTime receiveBytes =>
      [.traffic key lastHandshakeTime receiveBytes]
  | .roam key endpoint => [.roam key endpoint]

/-- `pathState`. -/
def Reporter.pathState (config : ReporterConfig) (t : Reporter)
    (key : Key) : PathState :=
  let p := t.state key
  if p.directProbe.isSome then
    .probingDirect
  else if p.relayed then
    match p.pathKind with
    | some kind => .relayed kind
    | none =>
        if config.relayTransport = .udp then .relayed .udpRelay
        else .relayed .wsRelay
  else
    .direct

/-- `currentPathStates`. -/
def Reporter.currentPathStates (config : ReporterConfig) (t : Reporter) :
    List PeerPathState :=
  t.device.peers.map fun peer =>
    { peerPublicKey := peer.publicKey.text
      state := (t.pathState config peer.publicKey).text
      endpoint := (peer.endpoint.map (·.text)).getD "" }

/-- What a step sends to the control plane. -/
def Reporter.reported (config : ReporterConfig) (t : Reporter) :
    Step → List PeerPathState
  | .report => t.currentPathStates config
  | _ => []

/-- The steps as a machine. -/
def reporterMachine (config : ReporterConfig) :
    Machine Reporter Step (List PeerPathState) where
  step := fun t step =>
    (t.reported config step,
      (callMachine config).run t (t.calls config step))

/-- `syncOnce`: without a payload when the report is not answered, and with
`checkHandshakes` when the paths are checked. -/
def syncOnce (now : Key → Instant)
    (payload : Option (List (PeerConfigResponse × RetryAnswers) × Bool))
    (checkPaths : Option (Instant × (Key → PathAnswers))) : List Step :=
  [.collect now, .report] ++
    (payload.map fun answer => .applySync answer.1 answer.2).toList ++
    (checkPaths.map fun check => .checkHandshakes check.1 check.2).toList

/-- `newTelemetryReporter` on a device that may have peers already. -/
def Reporter.new (device : Device) : Reporter where
  state := fun _ => {}
  relayBroken := false
  device := device

/-- All calls of a run of steps. -/
def callsOf (config : ReporterConfig) :
    Reporter → List Step → List Call
  | _, [] => []
  | t, step :: rest =>
      t.calls config step ++
        callsOf config
          ((callMachine config).run t (t.calls config step)) rest

theorem run_callsOf
    (config : ReporterConfig)
    (t : Reporter)
    (steps : List Step) :
    (reporterMachine config).run t steps =
      (callMachine config).run t (callsOf config t steps) := by
  induction steps generalizing t with
  | nil => rfl
  | cons step rest inductionHypothesis =>
      rw [callsOf, Machine.run_append]
      exact inductionHypothesis _

/-- The call is a `maybeRetryDirect`. -/
def Call.isRetry : Call → Bool
  | .maybeRetryDirect _ _ _ _ => true
  | _ => false

/-- The calls of `applySync` retry direct paths, and then sync the peers unless
an entry was bad. -/
theorem syncCalls_cases
    (config : ReporterConfig)
    (configured : Bool)
    (entries : List (PeerConfigResponse × RetryAnswers))
    (earlier : List PeerConfig) :
    ∃ retries : List Call,
      (∀ call ∈ retries, call.isRetry = true) ∧
        (syncCalls config configured entries earlier = retries ∨
          ∃ desired,
            desiredPeers config.resolve (entries.map (·.1)) = .ok desired ∧
              syncCalls config configured entries earlier =
                retries ++ [.syncPeers (earlier ++ desired) configured]) := by
  induction entries generalizing earlier with
  | nil =>
      exact
        ⟨[], fun _ member => (List.not_mem_nil member).elim,
          Or.inr ⟨[], rfl, by simp [syncCalls]⟩⟩
  | cons first rest inductionHypothesis =>
      obtain ⟨entry, answers⟩ := first
      cases converted : peerConfigFromProto config.resolve entry with
      | error text =>
          refine
            ⟨[], fun _ member => (List.not_mem_nil member).elim,
              Or.inl ?_⟩
          simp [syncCalls, converted]
      | ok want =>
          obtain ⟨retries, areRetries, shape⟩ :=
            inductionHypothesis (earlier ++ [want])
          let retry : Call :=
            .maybeRetryDirect want.publicKey
              (endpointCandidatesFromProto config.resolve entry want.endpoint)
              entry.punchEpoch answers
          have unfolded :
              syncCalls config configured ((entry, answers) :: rest) earlier =
                retry :: syncCalls config configured rest
                  (earlier ++ [want]) := by
            simp [syncCalls, converted, retry]
          refine ⟨retry :: retries, ?_, ?_⟩
          · intro call member
            rcases List.mem_cons.mp member with isFirst | inRest
            · rw [isFirst]
              rfl
            · exact areRetries call inRest
          · rw [unfolded]
            rcases shape with stopped | ⟨desired, all, goesOn⟩
            · exact Or.inl (congrArg (List.cons retry) stopped)
            · refine Or.inr ⟨want :: desired, ?_, ?_⟩
              · simp [desiredPeers, converted, all, Except.map]
              · rw [goesOn]
                simp

theorem steps_invariant
    {config : ReporterConfig}
    {Holds : Reporter → Prop}
    (kept :
      ∀ t call, Holds t → Holds ((callMachine config).step t call).2)
    {t : Reporter}
    (initially : Holds t)
    (steps : List Step) :
    Holds ((reporterMachine config).run t steps) := by
  rw [run_callsOf]
  exact
    @Machine.run_invariant _ _ _ (callMachine config) Holds kept t initially _

/-- What the maps and the device hold for one peer. -/
structure View where
  relay : PeerRelay
  peer : Option LivePeer

/-- What a reporter holds for a peer. -/
def Reporter.view (t : Reporter) (key : Key) : View where
  relay := t.state key
  peer := t.device.peer? key

/-- The peer is pointed at an endpoint, and noted. -/
def View.moved (v : View) (relay : PeerRelay) (endpoint : AddrPort) :
    View where
  relay := relay
  peer := v.peer.map (·.pointed endpoint)

/-- What `maybeRetryDirect` notes before its gates. -/
def PeerRelay.noted (p : PeerRelay) (candidates : List AddrPort)
    (punchEpoch : Nat) : PeerRelay :=
  (p.noteCandidates candidates).noteEpoch punchEpoch

/-- What `restoreRelayAfterProbe` notes. -/
def PeerRelay.restored (p : PeerRelay) (now : Instant) : PeerRelay :=
  { p with
    directProbe := none
    relayedAt := some now
    directFailures := p.directFailures + 1 }

/-- What `checkHandshakes` notes of a fallback. -/
def PeerRelay.fallenBack (p : PeerRelay) (kind : PathKind)
    (endpoint : AddrPort) (now : Instant) : PeerRelay :=
  { p.relayVia kind endpoint with relayed := true, relayedAt := some now }

/-- What the probe checks and the counters can do for a peer at a reading of
the clock. -/
inductive Change (key : Key) (now : Instant) :
    View → List Event → View → Prop where
  | counted {v : View} (peer : LivePeer) :
      Change key now v [] { v with relay := v.relay.count peer now }
  | verifying {v : View} {probe : DirectProbe}
      (active : v.relay.directProbe = some probe) :
      Change key now v [.verifying key]
        { v with
          relay :=
            { v.relay with
              directProbe := some { probe with confirmedAt := some now } } }
  | rotating {v : View} {probe : DirectProbe} {next : AddrPort}
      (active : v.relay.directProbe = some probe)
      (chosen : probe.candidates[probe.nextIndex]? = some next) :
      Change key now v [.tryingNext key next]
        (v.moved
          { v.relay with
            directProbe :=
              some { probe with index := probe.nextIndex, started := now } }
          next)
  | restoring {v : View} {probe : DirectProbe}
      (active : v.relay.directProbe = some probe) :
      Change key now v
        [.stayingOnRelay key probe.relayEndpoint
          (v.relay.directFailures + 1)]
        (v.moved (v.relay.restored now) probe.relayEndpoint)
  | promoting {v : View} {probe : DirectProbe} {peer : LivePeer}
      (active : v.relay.directProbe = some probe)
      (found : v.peer = some peer)
      (direct : probe.isDirect peer = true) :
      Change key now v [.leavingRelay key]
        { v with relay := v.relay.promoteDirect now }
  | seen {v : View} :
      Change key now v []
        { v with
          relay :=
            { v.relay with firstSeen := v.relay.firstSeen.or (some now) } }
  | unavailable {v : View} (direct : v.relay.relayed = false) :
      Change key now v []
        { v with relay := { v.relay with quicUnavailable := true } }

/-- Changes in a row, with what they tell. -/
inductive Changes (key : Key) (now : Instant) :
    View → List Event → View → Prop where
  | done {v : View} : Changes key now v [] v
  | next {first second third : View} {events later : List Event}
      (change : Change key now first events second)
      (rest : Changes key now second later third) :
      Changes key now first (events ++ later) third

/-- A peer falls back to the relay, or not. -/
inductive Fall (key : Key) (now : Instant) :
    View → List Event → View → Prop where
  | stays {v : View} : Fall key now v [] v
  | relaying {v : View} (kind : PathKind) (endpoint : AddrPort)
      (direct : v.relay.relayed = false) :
      Fall key now v
        (.relaying key kind endpoint ::
          (v.relay.fallenBack kind endpoint now).stintEvents key now)
        (v.moved
          ((v.relay.fallenBack kind endpoint now).noteDirectStintEnded now)
          endpoint)

/-- A peer is checked, and then falls back or not. -/
inductive Checked (key : Key) (now : Instant) :
    View → List Event → View → Prop where
  | intro {before between after : View} {events later : List Event}
      (changes : Changes key now before events between)
      (fall : Fall key now between later after) :
      Checked key now before (events ++ later) after

/-- What `maybeRetryDirect` can do for a peer, gated at a reading. -/
inductive Retried (key : Key) (now : Instant)
    (candidates : List AddrPort) (punchEpoch : Nat) :
    View → List Event → View → Prop where
  | refused {v : View} : Retried key now candidates punchEpoch v [] v
  | noted {v : View}
      (relayed : v.relay.relayed = true) :
      Retried key now candidates punchEpoch v []
        { v with relay := v.relay.noted candidates punchEpoch }
  | probing {v : View} {probe : DirectProbe} {first : AddrPort}
      {others : List AddrPort} {coordinated : Bool}
      (relayed : v.relay.relayed = true)
      (free : v.relay.isHeld now = false)
      (nonempty : candidates = first :: others)
      (tries : probe.candidates = candidates)
      (index : probe.index = 0)
      (endpoint : v.relay.relayEndpoint = some probe.relayEndpoint)
      (fresh : coordinated = true → v.relay.isFresh punchEpoch = true) :
      Retried key now candidates punchEpoch v
        [.retrying key first coordinated punchEpoch]
        (v.moved
          { v.relay.noted candidates punchEpoch with
            directProbe := some probe }
          first)

/-- The reading that decides a call, if it reads the clock. -/
def Call.time : Call → Option Instant
  | .count _ now => some now
  | .maybeRetryDirect _ _ _ answers => some answers.gate
  | .checkPeer _ now _ => some now
  | .checkDirectProbe _ now _ => some now
  | _ => none

/-- The peer that a call is for, if it is for one that it may look at. -/
def Call.target : Call → Option Key
  | .count key _ => some key
  | .maybeRetryDirect key _ _ _ => some key
  | .checkPeer key _ _ => some key
  | .checkDirectProbe key _ _ => some key
  | _ => none

/-- What a call can do to what is held for a peer. -/
inductive Turn (key : Key) : Call → View → List Event → View → Prop where
  | idle {call : Call} {v : View} : Turn key call v [] v
  | checked {call : Call} {v after : View} {events : List Event}
      {now : Instant}
      (target : call.target = some key)
      (time : call.time = some now)
      (isCheck : call.isRetry = false)
      (checked : Checked key now v events after) :
      Turn key call v events after
  | retried {v after : View} {events : List Event}
      {candidates : List AddrPort} {punchEpoch : Nat}
      {answers : RetryAnswers}
      (retried :
        Retried key answers.gate candidates punchEpoch v events after) :
      Turn key (.maybeRetryDirect key candidates punchEpoch answers) v events
        after
  | synced {v : View} {peer : Option LivePeer} (desired : List PeerConfig)
      (synced :
        peer.map (·.core) =
          (syncedPeer desired key v.peer).map (·.core)) :
      Turn key (.syncPeers desired true) v [] { v with peer }
  | retired {v : View} :
      Turn key .retireProxies v [] { v with relay := v.relay.retire }
  | died {v : View} :
      Turn key (.proxyDies key) v [] { v with relay := v.relay.proxyDies }
  | heard {v : View} (lastHandshakeTime : Option Instant)
      (receiveBytes : Int) :
      Turn key (.traffic key lastHandshakeTime receiveBytes) v []
        { v with
          peer := v.peer.map (·.heard lastHandshakeTime receiveBytes) }
  | roamed {v : View} (endpoint : AddrPort) :
      Turn key (.roam key endpoint) v [] (v.moved v.relay endpoint)

/-- The peer that an event is about. -/
def Event.key : Event → Key
  | .retrying key _ _ _ => key
  | .tryingNext key _ => key
  | .verifying key => key
  | .leavingRelay key => key
  | .stayingOnRelay key _ _ => key
  | .relaying key _ _ => key
  | .flapped key _ _ => key
  | .settled key => key

/-- The events of one peer. -/
def eventsOf (key : Key) (events : List Event) : List Event :=
  events.filter (·.key == key)

variable {events : List Event} {event : Event} {now : Instant}
  {before after : View} {t : Reporter}

theorem mem_eventsOf
    (member : event ∈ events) :
    event ∈ eventsOf event.key events :=
  List.mem_filter.mpr ⟨member, beq_self_eq_true _⟩

/-- What the events of other peers do not change goes by a peer's own. -/
theorem foldl_eventsOf
    {Value : Type}
    {key : Key}
    {note : Value → Event → Value}
    (ignores :
      ∀ event, event.key ≠ key → ∀ value, note value event = value)
    (events : List Event)
    (value : Value) :
    (eventsOf key events).foldl note value = events.foldl note value := by
  induction events generalizing value with
  | nil => rfl
  | cons event rest inductionHypothesis =>
      by_cases isKey : event.key = key
      · have kept :
            eventsOf key (event :: rest) = event :: eventsOf key rest :=
          List.filter_cons_of_pos (beq_iff_eq.mpr isKey)
        rw [kept]
        exact inductionHypothesis _
      · have dropped : eventsOf key (event :: rest) = eventsOf key rest :=
          List.filter_cons_of_neg (fun same => isKey (beq_iff_eq.mp same))
        rw [dropped, List.foldl_cons, ignores event isKey]
        exact inductionHypothesis value

/-- What a run has told. -/
def told (visits : List (Visit Reporter Call (List Event))) : List Event :=
  visits.flatMap (·.output)

theorem Change.single
    {key : Key}
    (change : Change key now before events after) :
    Changes key now before events after := by
  have row := Changes.next change Changes.done
  rwa [List.append_nil] at row

theorem Changes.append
    {key : Key}
    {first second third : View}
    {later : List Event}
    (changes : Changes key now first events second)
    (rest : Changes key now second later third) :
    Changes key now first (events ++ later) third := by
  induction changes with
  | done => exact rest
  | next change _ inductionHypothesis =>
      rw [List.append_assoc]
      exact Changes.next change (inductionHypothesis rest)

theorem Changes.checked
    {key : Key}
    (changes : Changes key now before events after) :
    Checked key now before events after := by
  have whole := Checked.intro changes Fall.stays
  rwa [List.append_nil] at whole

theorem Changes.andThen
    {key : Key}
    {first second third : View}
    {later : List Event}
    (changes : Changes key now first events second)
    (rest : Checked key now second later third) :
    Checked key now first (events ++ later) third := by
  obtain ⟨more, fall⟩ := rest
  rw [← List.append_assoc]
  exact Checked.intro (changes.append more) fall

theorem Change.key_of_mem
    {key : Key}
    (change : Change key now before events after)
    (member : event ∈ events) :
    event.key = key := by
  cases change with
  | counted | seen | unavailable => exact (List.not_mem_nil member).elim
  | verifying | rotating | restoring | promoting =>
      rw [List.mem_singleton.mp member]
      rfl

/-- The end of a stint tells about its peer only. -/
theorem PeerRelay.key_of_mem_stintEvents
    {p : PeerRelay}
    {key : Key}
    (member : event ∈ p.stintEvents key now) :
    event.key = key := by
  unfold PeerRelay.stintEvents at member
  split at member
  · exact (List.not_mem_nil member).elim
  · split at member
    · rw [List.mem_singleton.mp member]
      rfl
    · rw [List.mem_singleton.mp member]
      rfl

/-- A check tells about its peer only. -/
theorem Checked.key_of_mem
    {key : Key}
    (checked : Checked key now before events after)
    (member : event ∈ events) :
    event.key = key := by
  obtain ⟨changes, fall⟩ := checked
  rcases List.mem_append.mp member with inChanges | inFall
  · clear fall member
    induction changes with
    | done => exact (List.not_mem_nil inChanges).elim
    | next change _ inductionHypothesis =>
        rcases List.mem_append.mp inChanges with inFirst | inRest
        · exact change.key_of_mem inFirst
        · exact inductionHypothesis inRest
  · cases fall with
    | stays => exact (List.not_mem_nil inFall).elim
    | relaying kind endpoint direct =>
        rcases List.mem_cons.mp inFall with isRelaying | inStint
        · rw [isRelaying]
          rfl
        · exact PeerRelay.key_of_mem_stintEvents inStint

theorem Retried.key_of_mem
    {key : Key}
    {candidates : List AddrPort}
    {punchEpoch : Nat}
    (retried : Retried key now candidates punchEpoch before events after)
    (member : event ∈ events) :
    event.key = key := by
  cases retried with
  | refused => exact (List.not_mem_nil member).elim
  | noted => exact (List.not_mem_nil member).elim
  | probing =>
      rw [List.mem_singleton.mp member]
      rfl

/-- A function of the reporter that acts on one peer. -/
structure Acts
    (key : Key)
    (does : View → List Event → View → Prop)
    (t : Reporter)
    (outcome : List Event × Reporter) : Prop where
  own : does (t.view key) outcome.1 (outcome.2.view key)
  others : ∀ other, other ≠ key → outcome.2.view other = t.view other

namespace Acts

variable {key : Key} {does : View → List Event → View → Prop} {t : Reporter}

theorem nothing
    (own : does (t.view key) [] (t.view key)) :
    Acts key does t ([], t) where
  own := own
  others := fun _ _ => rfl

/-- The maps of the peer are changed. -/
theorem noting
    {relay : PeerRelay}
    {events : List Event}
    (own :
      does (t.view key) events { t.view key with relay := relay }) :
    Acts key does t (events, t.set key relay) where
  own := by
    have same :
        (t.set key relay).view key = { t.view key with relay := relay } := by
      simp [Reporter.view, Reporter.set]
    rw [same]
    exact own
  others := by
    intro other isOther
    simp [Reporter.view, Reporter.set, isOther]

/-- The maps of the peer are changed, and it is pointed at an endpoint. -/
theorem moving
    {relay : PeerRelay}
    {endpoint : AddrPort}
    {events : List Event}
    (own : does (t.view key) events ((t.view key).moved relay endpoint)) :
    Acts key does t (events, (t.point key endpoint).set key relay) where
  own := by
    have same :
        ((t.point key endpoint).set key relay).view key =
          (t.view key).moved relay endpoint := by
      simp [Reporter.view, Reporter.set, Reporter.point, View.moved,
        Device.peer?_endpointChange, configured_endpointChange]
    rw [same]
    exact own
  others := by
    intro other isOther
    simp [Reporter.view, Reporter.set, Reporter.point,
      Device.peer?_endpointChange, isOther, Ne.symm isOther]

/-- A function that acts on one peer takes a turn of every peer. -/
theorem turn
    {call : Call}
    {outcome : List Event × Reporter}
    (acts : Acts key does t outcome)
    (named :
      ∀ {before events after},
        does before events after →
        ∀ event ∈ events, event.key = key)
    (turns :
      ∀ {before events after},
        does before events after → Turn key call before events after)
    (other : Key) :
    Turn other call (t.view other) (eventsOf other outcome.1)
      (outcome.2.view other) := by
  by_cases same : other = key
  · subst same
    have all : eventsOf other outcome.1 = outcome.1 :=
      List.filter_eq_self.mpr
        (fun event member => by simpa using named acts.own event member)
    rw [all]
    exact turns acts.own
  · have none : eventsOf other outcome.1 = [] := by
      refine List.filter_eq_nil_iff.mpr ?_
      intro event member isOther
      rw [named acts.own event member] at isOther
      exact same (beq_iff_eq.mp isOther).symm
    rw [none, acts.others other same]
    exact Turn.idle

end Acts

/-- What `maybeRetryDirect` notes, field by field. -/
theorem PeerRelay.noted_eq
    (p : PeerRelay)
    (candidates : List AddrPort)
    (punchEpoch : Nat) :
    p.noted candidates punchEpoch =
      { p with
        lastCandidates := candidateDigest candidates
        directFailures :=
          if candidateDigest candidates = p.lastCandidates then
            p.directFailures
          else 0
        lastPunchEpoch :=
          if p.isFresh punchEpoch then punchEpoch else p.lastPunchEpoch } := by
  have sameFresh :
      (p.noteCandidates candidates).isFresh punchEpoch =
        p.isFresh punchEpoch := by
    unfold PeerRelay.noteCandidates
    split <;> rfl
  unfold PeerRelay.noted PeerRelay.noteEpoch
  rw [sameFresh]
  unfold PeerRelay.noteCandidates
  by_cases known : candidateDigest candidates = p.lastCandidates
  · simp only [known, if_true]
    split <;> rfl
  · simp only [known, if_false]
    split <;> rfl

theorem PeerRelay.isHeld_noted
    (p : PeerRelay)
    (candidates : List AddrPort)
    (punchEpoch : Nat)
    (now : Instant) :
    (p.noted candidates punchEpoch).isHeld now = p.isHeld now := by
  rw [PeerRelay.noted_eq]
  rfl

/-- Starting a probe after noting its candidates is one retry. -/
theorem acts_startDirectProbe
    {key : Key}
    {candidates : List AddrPort}
    {interval window : Int}
    {punchEpoch : Nat}
    {answers : RetryAnswers}
    (relayed : (t.state key).relayed = true)
    (free : (t.state key).isHeld now = false)
    (fresh : 0 < window → (t.state key).isFresh punchEpoch = true) :
    Acts key (Retried key now candidates punchEpoch) t
      ((t.set key ((t.state key).noted candidates punchEpoch)).startDirectProbe
        key candidates interval window punchEpoch answers) := by
  have noted :
      Acts key (Retried key now candidates punchEpoch) t
        ([], t.set key ((t.state key).noted candidates punchEpoch)) :=
    Acts.noting (Retried.noted relayed)
  have after :
      (t.set key ((t.state key).noted candidates punchEpoch)).state key =
        (t.state key).noted candidates punchEpoch := by
    simp [Reporter.set]
  have again :
      ∀ endpoint relay,
        ((t.set key
          ((t.state key).noted candidates punchEpoch)).point key
            endpoint).set key relay =
          (t.point key endpoint).set key relay := by
    intro endpoint relay
    simp [Reporter.set, Reporter.point]
  unfold Reporter.startDirectProbe
  rw [after]
  split
  · rename_i relayEndpoint first others isRelay
    rw [PeerRelay.noted_eq] at isRelay
    by_cases configured : answers.configured = true
    · rw [if_pos configured, again]
      let probe : DirectProbe :=
        { started := answers.started
          confirmedAt := none
          candidates := first :: others
          index := 0
          relayEndpoint
          interval
          deadline :=
            if 0 < window then some (answers.started + window) else none
          epoch := punchEpoch }
      exact
        Acts.moving
          (@Retried.probing key now _ _ (t.view key) probe first others _
            relayed free rfl rfl rfl isRelay
            (fun coordinated => fresh (of_decide_eq_true coordinated)))
    · rw [if_neg configured]
      exact noted
  · exact noted

/-- `maybeRetryDirect` acts on its peer. -/
theorem acts_maybeRetryDirect
    (config : ReporterConfig)
    (t : Reporter)
    (key : Key)
    (candidates : List AddrPort)
    (punchEpoch : Nat)
    (answers : RetryAnswers) :
    Acts key (Retried key answers.gate candidates punchEpoch) t
      (t.maybeRetryDirect config key candidates punchEpoch answers) := by
  unfold Reporter.maybeRetryDirect
  split
  · exact Acts.nothing Retried.refused
  · rename_i goesOn
    rw [not_or, not_or, Bool.not_eq_false] at goesOn
    obtain ⟨-, -, relayed⟩ := goesOn
    have noted :
        Acts key (Retried key answers.gate candidates punchEpoch) t
          ([], t.set key ((t.state key).noted candidates punchEpoch)) :=
      Acts.noting (Retried.noted relayed)
    change
      Acts key (Retried key answers.gate candidates punchEpoch) t
        (if ((t.state key).noted candidates punchEpoch).isHeld answers.gate
          then ([], t.set key ((t.state key).noted candidates punchEpoch))
          else _)
    split
    · exact noted
    · rename_i isFree
      rw [PeerRelay.isHeld_noted, Bool.not_eq_true] at isFree
      split
      · exact noted
      · split
        · exact noted
        · split
          · rename_i isFast
            exact acts_startDirectProbe relayed isFree (fun _ => isFast)
          · exact
              acts_startDirectProbe relayed isFree
                (fun positive => absurd positive (lt_irrefl 0))

theorem acts_restoreRelayAfterProbe
    {key : Key}
    {probe : DirectProbe}
    (active : (t.state key).directProbe = some probe)
    (now : Instant)
    (configured : Bool) :
    Acts key (Changes key now) t
      (t.restoreRelayAfterProbe key probe now configured) := by
  unfold Reporter.restoreRelayAfterProbe
  split
  · exact Acts.moving (Change.restoring active).single
  · exact Acts.nothing Changes.done

/-- The rotation acts on its peer. -/
theorem acts_rotateProbe
    {key : Key}
    {probe : DirectProbe}
    (active : (t.state key).directProbe = some probe)
    (now : Instant)
    (configured : Bool) :
    Acts key (Changes key now) t
      (t.rotateProbe key probe now configured) := by
  unfold Reporter.rotateProbe
  split
  · exact Acts.nothing Changes.done
  · rename_i next chosen
    split
    · exact Acts.moving (Change.rotating active chosen).single
    · exact Acts.nothing Changes.done

/-- `checkDirectProbe` acts on its peer. -/
theorem acts_checkDirectProbe
    {peer : LivePeer}
    (found : t.device.peer? peer.publicKey = some peer)
    (now : Instant)
    (configured : Bool) :
    Acts peer.publicKey (Changes peer.publicKey now) t
      (t.checkDirectProbe peer now configured) := by
  unfold Reporter.checkDirectProbe
  simp only
  split
  · exact Acts.nothing Changes.done
  · rename_i probe active
    split
    · split
      · exact Acts.noting (Change.verifying active).single
      · split
        · exact Acts.nothing Changes.done
        · split
          · exact acts_rotateProbe active now configured
          · exact acts_restoreRelayAfterProbe active now configured
    · rename_i confirmed isConfirmed
      split
      · rename_i passes
        rw [Bool.and_eq_true] at passes
        exact Acts.noting (Change.promoting active found passes.1).single
      · split
        · exact Acts.nothing Changes.done
        · exact acts_restoreRelayAfterProbe active now configured

theorem Acts.andThen
    {key : Key}
    {first second : List Event × Reporter}
    (acts : Acts key (Changes key now) t first)
    (continues : Acts key (Changes key now) first.2 second) :
    Acts key (Changes key now) t (first.1 ++ second.1, second.2) where
  own := acts.own.append continues.own
  others := fun other isOther =>
    (continues.others other isOther).trans (acts.others other isOther)

theorem Acts.checked
    {key : Key}
    {outcome : List Event × Reporter}
    (acts : Acts key (Changes key now) t outcome) :
    Acts key (Checked key now) t outcome where
  own := acts.own.checked
  others := acts.others

theorem Acts.check
    {key : Key}
    {first second : List Event × Reporter}
    (acts : Acts key (Changes key now) t first)
    (checks : Acts key (Checked key now) first.2 second) :
    Acts key (Checked key now) t (first.1 ++ second.1, second.2) where
  own := acts.own.andThen checks.own
  others := fun other isOther =>
    (checks.others other isOther).trans (acts.others other isOther)

/-- A dial that succeeds and what is noted of it are one fallback. -/
theorem acts_switchOver
    {key : Key}
    (direct : (t.state key).relayed = false)
    (now : Instant)
    (kind : PathKind)
    (dialed : Dialed) :
    Acts key (Checked key now) t
      (noteFallBack key now (t.switchOver key kind dialed)) := by
  cases dialed with
  | failed => exact Acts.nothing Changes.done.checked
  | noRelay => exact ⟨Changes.done.checked, fun _ _ => rfl⟩
  | opened endpoint =>
      have again :
          ∀ first second,
            ((t.point key endpoint).set key first).set key second =
              (t.point key endpoint).set key second := by
        intro first second
        simp [Reporter.set]
      have fallen :
          ((t.point key endpoint).set key
              ((t.state key).relayVia kind endpoint)).state key =
            (t.state key).relayVia kind endpoint := by
        simp [Reporter.set]
      simp only [Reporter.switchOver, noteFallBack, fallen, again]
      exact
        Acts.moving
          (Checked.intro Changes.done (Fall.relaying kind endpoint direct))

/-- The fallback acts on its peer. -/
theorem acts_fallBack
    (config : ReporterConfig)
    {key : Key}
    (direct : (t.state key).relayed = false)
    (now : Instant)
    (answers : RelayAnswers) :
    Acts key (Checked key now) t (t.fallBack config key now answers) := by
  unfold Reporter.fallBack Reporter.switchToRelay
  split
  · split
    · exact acts_switchOver direct now _ _
    · split
      · exact acts_switchOver direct now _ _
      · have noted :
            Acts key (Changes key now) t
              ([],
                t.set key { t.state key with quicUnavailable := true }) :=
          Acts.noting (Change.unavailable direct).single
        refine noted.check (acts_switchOver ?_ now _ _)
        simpa [Reporter.set] using direct
  · exact acts_switchOver direct now _ _
  · exact acts_switchOver direct now _ _

/-- The loop of `checkHandshakes` acts on each peer by itself. -/
theorem acts_checkPeer
    (config : ReporterConfig)
    {peer : LivePeer}
    (found : t.device.peer? peer.publicKey = some peer)
    (now : Instant)
    (answers : PathAnswers) :
    Acts peer.publicKey (Checked peer.publicKey now) t
      (t.checkPeer config peer now answers) := by
  have probed := acts_checkDirectProbe found now answers.configured
  have seen :
      Acts peer.publicKey (Changes peer.publicKey now)
        (t.checkDirectProbe peer now answers.configured).2
        ([],
          (t.checkDirectProbe peer now answers.configured).2.noteSeen
            peer.publicKey now) :=
    Acts.noting Change.seen.single
  have both := probed.andThen seen
  rw [List.append_nil] at both
  unfold Reporter.checkPeer
  simp only
  split
  · exact both.checked
  · rename_i leaves
    simp only [Reporter.staysPut, Bool.or_eq_true, not_or,
      Bool.not_eq_true] at leaves
    exact both.check (acts_fallBack config leaves.1.1 now answers.relay)

theorem Acts.checkTurn
    {key : Key}
    {outcome : List Event × Reporter}
    (acts : Acts key (Checked key now) t outcome)
    {call : Call}
    (target : call.target = some key)
    (time : call.time = some now)
    (isCheck : call.isRetry = false)
    (other : Key) :
    Turn other call (t.view other) (eventsOf other outcome.1)
      (outcome.2.view other) :=
  acts.turn (fun checked _ member => checked.key_of_mem member)
    (fun checked => Turn.checked target time isCheck checked) other

/-- What any call does to what is held for any peer. -/
theorem call_turn
    (config : ReporterConfig)
    (t : Reporter)
    (call : Call)
    (key : Key) :
    Turn key call (t.view key) (eventsOf key (t.call config call).1)
      ((t.call config call).2.view key) := by
  cases call with
  | count acting now =>
      unfold Reporter.call
      simp only
      split
      · exact Turn.idle
      · rename_i peer found
        have acts :
            Acts acting (Changes acting now) t
              ([], t.set acting ((t.state acting).count peer now)) :=
          Acts.noting (Change.counted peer).single
        exact acts.checked.checkTurn rfl rfl rfl key
  | maybeRetryDirect acting candidates punchEpoch answers =>
      exact
        (acts_maybeRetryDirect config t acting candidates punchEpoch
          answers).turn
          (fun retried _ member => retried.key_of_mem member)
          Turn.retried key
  | syncPeers desired configured =>
      cases configured with
      | false => exact Turn.idle
      | true =>
          exact Turn.synced desired (t.device.peer?_sync desired key)
  | retireProxies => exact Turn.retired
  | checkPeer acting now answers =>
      unfold Reporter.call
      simp only
      split
      · exact Turn.idle
      · rename_i peer found
        have isActing := Device.publicKey_of_peer? found
        subst isActing
        exact
          (acts_checkPeer config found now answers).checkTurn rfl rfl rfl key
  | checkDirectProbe acting now configured =>
      unfold Reporter.call
      simp only
      split
      · exact Turn.idle
      · rename_i peer found
        have isActing := Device.publicKey_of_peer? found
        subst isActing
        exact
          (acts_checkDirectProbe found now configured).checked.checkTurn rfl
            rfl rfl key
  | proxyDies dying =>
      by_cases same : key = dying
      · subst same
        have dead :
            (t.call config (.proxyDies key)).2.view key =
              { t.view key with relay := (t.view key).relay.proxyDies } := by
          simp [Reporter.call, Reporter.view, Reporter.set]
        rw [dead]
        exact Turn.died
      · have untouched :
            (t.call config (.proxyDies dying)).2.view key = t.view key := by
          simp [Reporter.call, Reporter.view, Reporter.set, same]
        rw [untouched]
        exact Turn.idle
  | traffic heard lastHandshakeTime receiveBytes =>
      have looked :
          (t.call config
              (.traffic heard lastHandshakeTime receiveBytes)).2.view key =
            { t.view key with
              peer :=
                if heard = key then
                  (t.view key).peer.map
                    (·.heard lastHandshakeTime receiveBytes)
                else (t.view key).peer } :=
        congrArg (View.mk (t.state key))
          (t.device.peer?_modify heard key
            (fun peer => peer.heard lastHandshakeTime receiveBytes)
            (fun _ => rfl))
      rw [looked]
      by_cases same : heard = key
      · subst same
        rw [if_pos rfl]
        exact Turn.heard lastHandshakeTime receiveBytes
      · rw [if_neg same]
        exact Turn.idle
  | roam roaming endpoint =>
      have looked :
          (t.call config (.roam roaming endpoint)).2.view key =
            { t.view key with
              peer :=
                if roaming = key then
                  (t.view key).peer.map (·.pointed endpoint)
                else (t.view key).peer } :=
        congrArg (View.mk (t.state key))
          (t.device.peer?_modify roaming key
            (fun peer => peer.pointed endpoint) (fun _ => rfl))
      rw [looked]
      by_cases same : roaming = key
      · subst same
        rw [if_pos rfl]
        exact Turn.roamed endpoint
      · rw [if_neg same]
        exact Turn.idle

theorem Turn.eq_of_other
    {key other : Key}
    {call : Call}
    (turn : Turn key call before events after)
    (target : call.target = some other)
    (isOther : other ≠ key) :
    after = before := by
  cases turn with
  | idle => rfl
  | checked own time isCheck checked =>
      exact (isOther (Option.some.inj (target.symm.trans own))).elim
  | retried retried => exact (isOther (Option.some.inj target).symm).elim
  | synced | retired | died | heard | roamed => cases target

/-- What a run of steps has told. -/
def toldBy (config : ReporterConfig) (t : Reporter) (steps : List Step) :
    List Event :=
  told ((callMachine config).visits t (callsOf config t steps))

/-- The IPv4 endpoint with a numeric address and a port. -/
def endpointOf (address port : Nat) : AddrPort where
  addr := NetAddress.addressOf address
  port := port % 2 ^ 16
  bounded := Nat.mod_lt _ (by decide)

/-- A device with one peer that has not been heard from. -/
def silentDevice (endpoint : AddrPort) : Device where
  peers :=
    [{ publicKey := zeroKey
       presharedKey := zeroKey
       endpoint := some endpoint
       lastHandshakeTime := none
       allowedIPs := []
       persistentKeepaliveInterval := 25
       receiveBytes := 0 }]
  distinct := List.nodup_singleton _

/-- WebSocket dials that end on a loopback socket, and a willing device. -/
def tunnelled (port : Nat) : PathAnswers where
  configured := true
  relay :=
    { quic := none
      webSocket := .opened (endpointOf 2130706433 port)
      udp := .failed }

/-- The settings of an agent on the WebSocket relay, on a host that resolves
every name to one endpoint. -/
def webSocketAgent (hint : AddrPort) : ReporterConfig where
  relayTransport := .webSocket
  directProbeOff := false
  resolve := fun _ => some hint

/-- An answer to `maybeRetryDirect` at one reading. -/
def retriedAt (now : Instant) : RetryAnswers where
  gate := now
  since := now
  started := now
  configured := true

/-- A payload with the one peer of `silentDevice`, under a hint. -/
def soleEntry (now : Instant) :
    List (PeerConfigResponse × RetryAnswers) :=
  [({ publicKey := zeroKey.text
      hostname := ""
      presharedKey := none
      endpoint := some "peer.example:51820"
      endpointCandidates := []
      punchEpoch := 0
      persistentKeepaliveInterval := some 25
      allowedIPs := []
      exitNode := false },
    retriedAt now)]

/-- The payload asks for the one peer, at its hint. -/
theorem desiredPeers_soleEntry
    (hint : AddrPort)
    (now : Instant) :
    desiredPeers (webSocketAgent hint).resolve
        ((soleEntry now).map (·.1)) =
      .ok
        [{ publicKey := zeroKey
           endpoint := some hint
           presharedKey := none
           allowedIPs := []
           persistentKeepaliveInterval := some 25 }] := by
  have parsed : parseKey zeroKey.text = some zeroKey := parseKey_text zeroKey
  simp [desiredPeers, soleEntry, peerConfigFromProto, parsed, firstEndpoint,
    resolveEndpoint, webSocketAgent, parseAllowed, parsePresharedKey]
  rfl

/-- The peer of `silentDevice` is seen, and falls back to the WebSocket relay
after ninety seconds. -/
def fallingBack : List Step :=
  [.checkHandshakes 0 (fun _ => tunnelled 40000),
    .checkHandshakes (90 * second) (fun _ => tunnelled 40000)]

end WgMesh.Agent
