import WgMesh.RelayCoherence

namespace WgMesh.Agent

/-!
# A relayed peer's endpoint

Two parts of the agent write a peer's endpoint: the relay state machine, and
`syncPeers` with the hints of the control plane.  The first keeps a relayed
peer at its relay; the second does so for peers that are on the device and have
completed a handshake, and not for others.
-/

open CivilTime FiniteRuns PairKeys Server

/-- A relayed peer without a probe points at its relay. -/
def View.Points (v : View) : Prop :=
  ∀ peer,
    v.peer = some peer →
    v.relay.relayed = true →
    v.relay.directProbe = none →
    peer.endpoint = v.relay.relayEndpoint

variable {v before after : View} {key : Key} {now : Instant}
  {events : List Event} {t : Reporter}

theorem View.Points.congr
    {other : View}
    (points : v.Points)
    (peer : other.peer = v.peer)
    (relayed : other.relay.relayed = v.relay.relayed)
    (directProbe : other.relay.directProbe = v.relay.directProbe)
    (relayEndpoint : other.relay.relayEndpoint = v.relay.relayEndpoint) :
    other.Points := by
  intro live found isRelayed idle
  rw [relayEndpoint]
  exact
    points live (peer.symm.trans found) (relayed.symm.trans isRelayed)
      (directProbe.symm.trans idle)

theorem View.points_of_direct
    (direct : v.relay.relayed = false) :
    v.Points := by
  intro _ _ relayed _
  rw [direct] at relayed
  cases relayed

theorem View.points_of_probing
    {probe : DirectProbe}
    (active : v.relay.directProbe = some probe) :
    v.Points := by
  intro _ _ _ idle
  rw [active] at idle
  cases idle

theorem View.points_moved
    (v : View)
    {relay : PeerRelay}
    {endpoint : AddrPort}
    (isRelay : relay.relayEndpoint = some endpoint) :
    (v.moved relay endpoint).Points := by
  intro peer found _ _
  obtain ⟨old, -, isPeer⟩ := Option.map_eq_some_iff.mp found
  rw [← isPeer]
  exact isRelay.symm

/-- A change keeps a relayed peer at its relay. -/
theorem Change.points
    (change : Change key now before events after)
    (coherent : Coherent before.relay)
    (points : before.Points) :
    after.Points := by
  cases change with
  | counted peer => exact points.congr rfl rfl rfl rfl
  | verifying active => exact View.points_of_probing rfl
  | rotating active chosen => exact View.points_of_probing rfl
  | @restoring probe active =>
      exact before.points_moved (coherent.probing probe active).2.2
  | promoting active found direct => exact View.points_of_direct rfl
  | seen => exact points.congr rfl rfl rfl rfl
  | unavailable direct => exact points.congr rfl rfl rfl rfl

theorem Changes.points
    (changes : Changes key now before events after)
    (coherent : Coherent before.relay)
    (points : before.Points) :
    after.Points := by
  induction changes with
  | done => exact points
  | next change _ inductionHypothesis =>
      exact
        inductionHypothesis (change.coherent coherent)
          (change.points coherent points)

theorem Fall.points
    (fall : Fall key now before events after)
    (points : before.Points) :
    after.Points := by
  cases fall with
  | stays => exact points
  | relaying kind endpoint direct =>
      refine before.points_moved ?_
      rw [(PeerRelay.noteDirectStintEnded_fields _ now).2.1]
      cases kind <;> rfl

/-- A retry leaves a peer where it points, or probes it. -/
theorem Retried.points
    {candidates : List AddrPort}
    {punchEpoch : Nat}
    (retried : Retried key now candidates punchEpoch before events after)
    (points : before.Points) :
    after.Points := by
  cases retried with
  | refused => exact points
  | noted relayed =>
      refine points.congr rfl ?_ ?_ ?_
      · rw [PeerRelay.noted_eq]
      · rw [PeerRelay.noted_eq]
      · rw [PeerRelay.noted_eq]
  | probing => exact View.points_of_probing rfl

/-- The calls that leave the device's endpoints to the relay state. -/
def Call.keepsEndpoints : Call → Bool
  | .syncPeers _ _ => false
  | .roam _ _ => false
  | _ => true

/-- A turn without roaming and `syncPeers` keeps a relayed peer at its
relay. -/
theorem Turn.points
    {call : Call}
    (turn : Turn key call before events after)
    (keeps : call.keepsEndpoints = true)
    (coherent : Coherent before.relay)
    (points : before.Points) :
    after.Points := by
  cases turn with
  | idle => exact points
  | checked target time isCheck checked =>
      obtain ⟨changes, fall⟩ := checked
      exact fall.points (changes.points coherent points)
  | retried retried => exact retried.points points
  | synced desired _ => cases keeps
  | retired =>
      rcases coherent.retire_cases with
        same | ⟨-, -, retired⟩ | ⟨-, -, retired⟩
      · refine points.congr rfl ?_ ?_ ?_
        · exact congrArg PeerRelay.relayed same
        · exact congrArg PeerRelay.directProbe same
        · exact congrArg PeerRelay.relayEndpoint same
      · exact View.points_of_direct (congrArg PeerRelay.relayed retired)
      · exact View.points_of_direct (congrArg PeerRelay.relayed retired)
  | died => exact points.congr rfl rfl rfl rfl
  | heard lastHandshakeTime receiveBytes =>
      intro peer found relayed idle
      obtain ⟨old, isOld, isPeer⟩ := Option.map_eq_some_iff.mp found
      rw [← isPeer]
      exact points old isOld relayed idle
  | roamed endpoint => cases keeps

/-- `syncPeers` keeps the endpoint of a peer that is on the device and whose
hint is not stale. -/
theorem endpoint_syncedPeer
    {desired : List PeerConfig}
    {peer after : LivePeer}
    (current :
      ∀ want,
        want ∈ desired →
        want.publicKey = key →
        endpointStale peer.snapshot want = false)
    (synced : syncedPeer desired key (some peer) = some after) :
    after.endpoint = peer.endpoint := by
  unfold syncedPeer at synced
  split at synced
  · cases synced
  · rename_i want found
    obtain ⟨member, isKey⟩ := publicKey_of_desiredByKey found
    have notStale := current want member isKey
    simp only [Option.map_some, syncChange, notStale] at synced
    split at synced
    · cases synced
      rfl
    · simp only [Option.elim_some, PeerConfig.applied] at synced
      split at synced
      · cases synced
      · cases synced
        rfl

/-- While no probe is started, a peer stays where it points. -/
def View.Waits (before after : View) : Prop :=
  after.relay.directProbe = none →
    before.relay.directProbe = none ∧
      after.peer = before.peer ∧
      after.relay.relayed = before.relay.relayed ∧
      after.relay.relayEndpoint = before.relay.relayEndpoint

/-- A retry starts a probe or leaves the peer where it points. -/
theorem Turn.waits
    {call : Call}
    (turn : Turn key call before events after)
    (isRetry : call.isRetry = true) :
    before.Waits after := by
  intro idle
  cases turn with
  | idle => exact ⟨idle, rfl, rfl, rfl⟩
  | checked target time isCheck checked =>
      rw [isCheck] at isRetry
      cases isRetry
  | retried retried =>
      cases retried with
      | refused => exact ⟨idle, rfl, rfl, rfl⟩
      | noted relayed =>
          rw [PeerRelay.noted_eq] at idle
          rw [PeerRelay.noted_eq]
          exact ⟨idle, rfl, rfl, rfl⟩
      | probing => cases idle
  | synced | retired | died | heard | roamed => cases isRetry

/-- Retries in a row start a probe or leave the peer where it points. -/
theorem waits_run
    (config : ReporterConfig)
    (t : Reporter)
    {retries : List Call}
    (areRetries : ∀ call ∈ retries, call.isRetry = true)
    (key : Key) :
    (t.view key).Waits (((callMachine config).run t retries).view key) := by
  induction retries generalizing t with
  | nil => exact fun idle => ⟨idle, rfl, rfl, rfl⟩
  | cons call rest inductionHypothesis =>
      intro idle
      have first :=
        (call_turn config t call key).waits
          (areRetries call List.mem_cons_self)
      obtain ⟨idleBetween, peer, relayed, endpoint⟩ :=
        inductionHypothesis (t.call config call).2
          (fun other member => areRetries other (List.mem_cons_of_mem _ member))
          idle
      obtain ⟨idleBefore, samePeer, sameRelayed, sameEndpoint⟩ :=
        first idleBetween
      exact
        ⟨idleBefore, peer.trans samePeer, relayed.trans sameRelayed,
          endpoint.trans sameEndpoint⟩

/-- The maps are coherent, and relayed peers point at their relays. -/
structure Reporter.Points (t : Reporter) : Prop where
  coherent : t.Coherent
  points : ∀ key, (t.view key).Points

/-- Calls without roaming and `syncPeers` keep relayed peers at their
relays. -/
theorem Reporter.Points.run
    (config : ReporterConfig)
    (points : t.Points)
    {calls : List Call}
    (keeps : ∀ call ∈ calls, call.keepsEndpoints = true) :
    ((callMachine config).run t calls).Points :=
  @Machine.run_invariant_on _ _ _ (callMachine config) Reporter.Points
    (fun call => call.keepsEndpoints = true)
    (fun before call held keeps =>
      { coherent := Reporter.Coherent.call config held.coherent call
        points := fun key =>
          (call_turn config before call key).points keeps
            (held.coherent key) (held.points key) })
    t points calls keeps

/-- What `applySync` has to find so that it leaves relayed peers at their
relays: each such peer that it lists is on the device, and has completed a
handshake or comes with no other hint. -/
def Spares (config : ReporterConfig) (t : Reporter) : Step → Prop
  | .applySync entries _ =>
      ∀ desired,
        desiredPeers config.resolve (entries.map (·.1)) = .ok desired →
        ∀ want,
          want ∈ desired →
          (t.state want.publicKey).relayed = true →
          (t.state want.publicKey).directProbe = none →
          ∃ peer,
            t.device.peer? want.publicKey = some peer ∧
              (peer.lastHandshakeTime.isSome = true ∨
                want.endpoint = none ∨
                want.endpoint.map (·.text) =
                  (t.state want.publicKey).relayEndpoint.map (·.text))
  | _ => True

theorem endpointStale_of_spared
    {peer : LivePeer}
    {want : PeerConfig}
    {relayEndpoint : Option AddrPort}
    (points : peer.endpoint = relayEndpoint)
    (spared :
      peer.lastHandshakeTime.isSome = true ∨
        want.endpoint = none ∨
        want.endpoint.map (·.text) = relayEndpoint.map (·.text)) :
    endpointStale peer.snapshot want = false := by
  unfold endpointStale
  rcases spared with handshaken | noHint | sameHint
  · simp [LivePeer.snapshot, handshaken]
  · simp [noHint]
  · simp [LivePeer.snapshot, points, sameHint]

/-- `applySync` leaves spared peers at their relays. -/
theorem Reporter.Points.applySync
    (config : ReporterConfig)
    (points : t.Points)
    {entries : List (PeerConfigResponse × RetryAnswers)}
    {configured : Bool}
    (spares : Spares config t (.applySync entries configured)) :
    ((callMachine config).run t
      (syncCalls config configured entries [])).Points := by
  obtain ⟨retries, areRetries, shape⟩ :=
    syncCalls_cases config configured entries []
  have keeps : ∀ call ∈ retries, call.keepsEndpoints = true := by
    intro call member
    have isRetry := areRetries call member
    cases call <;> first | rfl | cases isRetry
  have retried := points.run config keeps
  rcases shape with stopped | ⟨desired, all, goesOn⟩
  · rw [stopped]
    exact retried
  · rw [goesOn, Machine.run_append]
    cases configured with
    | false => exact retried
    | true =>
        refine ⟨retried.coherent, ?_⟩
        intro key after found relayed idle
        have waited := waits_run config t areRetries key idle
        obtain ⟨idleBefore, samePeer, sameRelayed, sameEndpoint⟩ := waited
        obtain ⟨moved, synced, sameMoved⟩ :=
          exists_of_map_core
            (((callMachine config).run t retries).device.peer?_sync desired
              key)
            found
        replace synced :
            syncedPeer desired key (t.view key).peer = some moved := by
          rw [← samePeer]
          exact synced
        have isRelayed : (t.state key).relayed = true :=
          sameRelayed.symm.trans relayed
        have spared :
            ∀ want,
              want ∈ desired →
              want.publicKey = key →
              ∃ peer,
                t.device.peer? key = some peer ∧
                  endpointStale peer.snapshot want = false := by
          rintro want member rfl
          obtain ⟨peer, onDevice, hint⟩ :=
            spares desired all want member isRelayed idleBefore
          exact
            ⟨peer, onDevice,
              endpointStale_of_spared
                (points.points _ peer onDevice isRelayed idleBefore) hint⟩
        have listed : desiredByKey desired key ≠ none := by
          intro absent
          simp [syncedPeer, absent] at synced
        obtain ⟨want, wanted⟩ := Option.ne_none_iff_exists'.mp listed
        obtain ⟨member, isKey⟩ := publicKey_of_desiredByKey wanted
        obtain ⟨peer, onDevice, -⟩ := spared want member isKey
        have current :
            ∀ other,
              other ∈ desired →
              other.publicKey = key →
              endpointStale peer.snapshot other = false := by
          intro other otherMember otherKey
          obtain ⟨same, found, fresh⟩ := spared other otherMember otherKey
          cases onDevice.symm.trans found
          exact fresh
        have isPeer : (t.view key).peer = some peer := onDevice
        rw [isPeer] at synced
        calc
          after.endpoint = peer.endpoint :=
            sameMoved.symm.trans (endpoint_syncedPeer current synced)
          _ = (t.state key).relayEndpoint :=
            points.points key peer onDevice isRelayed idleBefore
          _ = _ := sameEndpoint.symm

/-- A step without roaming that spares relayed peers keeps them at their
relays. -/
theorem Reporter.Points.step
    (config : ReporterConfig)
    (points : t.Points)
    {step : Step}
    (fixed : ∀ key endpoint, step ≠ .roam key endpoint)
    (spares : Spares config t step) :
    ((reporterMachine config).step t step).2.Points := by
  cases step with
  | applySync entries configured =>
      exact points.applySync config spares
  | roam key endpoint => exact (fixed key endpoint rfl).elim
  | report => exact points
  | collect now =>
      refine points.run config ?_
      intro call member
      obtain ⟨peer, -, rfl⟩ := List.mem_map.mp member
      rfl
  | checkHandshakes now answers =>
      refine points.run config ?_
      intro call member
      rcases List.mem_cons.mp member with isSweep | inLoop
      · rw [isSweep]
        rfl
      · obtain ⟨peer, -, rfl⟩ := List.mem_map.mp inLoop
        rfl
  | checkProbes now configured =>
      refine points.run config ?_
      intro call member
      obtain ⟨peer, -, rfl⟩ := List.mem_map.mp member
      rfl
  | proxyDies key =>
      refine points.run config ?_
      intro call member
      rw [List.mem_singleton.mp member]
      rfl
  | traffic key lastHandshakeTime receiveBytes =>
      refine points.run config ?_
      intro call member
      rw [List.mem_singleton.mp member]
      rfl

theorem Reporter.points_new
    (device : Device) :
    (Reporter.new device).Points where
  coherent := Reporter.coherent_new device
  points := fun _ => View.points_of_direct rfl

/-- The relayed peers of a reporter that are not probed point at their
relays. -/
def Reporter.AtRelays (t : Reporter) : Prop :=
  ∀ key peer,
    t.device.peer? key = some peer →
    (t.state key).relayed = true →
    (t.state key).directProbe = none →
    peer.endpoint = (t.state key).relayEndpoint

/--
In every run without roaming in which each `applySync` finds the relayed peers
it lists on the device, with a handshake or without another hint, every relayed
peer on the device that is not probed points at its relay.
-/
theorem relayed_point_at_relays
    (config : ReporterConfig)
    (device : Device)
    {steps : List Step}
    (fixed : ∀ key endpoint, .roam key endpoint ∉ steps)
    (spares :
      ∀ visit,
        visit ∈ (reporterMachine config).visits (Reporter.new device) steps →
        Spares config visit.before visit.input) :
    ((reporterMachine config).run (Reporter.new device) steps).AtRelays := by
  have points :=
    (@Machine.visits_invariant _ _ _ (reporterMachine config) Reporter.Points
      (fun t step =>
        (∀ key endpoint, step ≠ .roam key endpoint) ∧ Spares config t step)
      (fun t step points allowed =>
        points.step config allowed.1 allowed.2)
      (Reporter.new device) (Reporter.points_new device) steps
      (by
        intro visit member
        refine ⟨?_, spares visit member⟩
        intro key endpoint isRoam
        apply fixed key endpoint
        rw [← isRoam, ← Machine.map_input_visits (reporterMachine config)
          (Reporter.new device) steps]
        exact List.mem_map_of_mem member)).1
  exact fun key => points.points key

/-- A peer that has been heard from over the relay keeps it. -/
def heardSteps : List Step :=
  fallingBack ++
    [.traffic zeroKey (some (91 * second)) 148,
      .applySync (soleEntry (95 * second)) true]

/-- The peer stays at its relay socket when it is listed. -/
theorem relayed_point_at_relays_heard :
    (((reporterMachine (webSocketAgent (endpointOf 3221225985 51820))).run
          (Reporter.new (silentDevice (endpointOf 3221225985 51820)))
          heardSteps).state zeroKey).relayEndpoint =
        some (endpointOf 2130706433 40000) ∧
      ((reporterMachine (webSocketAgent (endpointOf 3221225985 51820))).run
        (Reporter.new (silentDevice (endpointOf 3221225985 51820)))
        heardSteps).AtRelays := by
  refine
    ⟨by decide +kernel,
      relayed_point_at_relays (webSocketAgent (endpointOf 3221225985 51820))
        (silentDevice (endpointOf 3221225985 51820)) ?_ ?_⟩
  · intro key endpoint member
    simp [heardSteps, fallingBack] at member
  · intro visit member
    simp only [heardSteps, fallingBack, List.cons_append, List.nil_append,
      Machine.visits, List.mem_cons, List.not_mem_nil, or_false] at member
    rcases member with isVisit | isVisit | isVisit | isVisit
    · rw [isVisit]
      trivial
    · rw [isVisit]
      trivial
    · rw [isVisit]
      trivial
    · rw [isVisit]
      intro desired all want wanted _ _
      have same := (desiredPeers_soleEntry _ _).symm.trans all
      cases same
      rw [List.mem_singleton.mp wanted]
      exact
        ⟨{ publicKey := zeroKey
           presharedKey := zeroKey
           endpoint := some (endpointOf 2130706433 40000)
           lastHandshakeTime := some (91 * second)
           allowedIPs := []
           persistentKeepaliveInterval := 25
           receiveBytes := 148 },
          by decide +kernel, Or.inl rfl⟩

/-- A peer that was never heard from is listed while it is relayed. -/
def staleHintSteps : List Step :=
  fallingBack ++ [.applySync (soleEntry (95 * second)) true]

/-- The hint replaces the relay's endpoint: the peer counts as relayed, is not
probed, and points at its hint. -/
theorem hint_replaces_relay :
    (∀ key endpoint, .roam key endpoint ∉ staleHintSteps) ∧
      ¬ ((reporterMachine (webSocketAgent (endpointOf 3221225985 51820))).run
        (Reporter.new (silentDevice (endpointOf 3221225985 51820)))
        staleHintSteps).AtRelays := by
  constructor
  · intro key endpoint member
    simp [staleHintSteps, fallingBack] at member
  · intro atRelays
    have found :
        ((reporterMachine (webSocketAgent (endpointOf 3221225985 51820))).run
            (Reporter.new (silentDevice (endpointOf 3221225985 51820)))
            staleHintSteps).device.peer? zeroKey =
          some
            { publicKey := zeroKey
              presharedKey := zeroKey
              endpoint := some (endpointOf 3221225985 51820)
              lastHandshakeTime := none
              allowedIPs := []
              persistentKeepaliveInterval := 25
              receiveBytes := 0 } := by
      decide +kernel
    exact
      absurd (atRelays zeroKey _ found (by decide +kernel) (by decide +kernel))
        (by decide +kernel)

end WgMesh.Agent
