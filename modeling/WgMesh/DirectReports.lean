import Mathlib.Data.List.Induction
import WgMesh.RelayCoherence

namespace WgMesh.Agent

/-!
# Paths that are reported as direct

The reported state of a path comes from the maps, its endpoint from the device.
A peer leaves the maps of the relay by promotion, which looks at the endpoint,
and by the sweep of dead proxies, which does not.
-/

open CivilTime FiniteRuns PairKeys Server Store

/-- The relay endpoint of a peer, carried over one event. -/
def noteRelay (key : Key) (last : Option AddrPort) :
    Event → Option AddrPort
  | .relaying other _ endpoint =>
      if other = key then some endpoint else last
  | .stayingOnRelay other endpoint _ =>
      if other = key then some endpoint else last
  | _ => last

/-- A peer's endpoint is printed differently than another, if it has one. -/
def endpointDiffers (peer : Option LivePeer) (relay : AddrPort) : Prop :=
  ∀ live endpoint,
    peer = some live →
    live.endpoint = some endpoint →
    endpoint.text ≠ relay.text

/-- The last relay endpoint is the one in use, or the peer has left it. -/
structure View.Tracked (v : View) (last : Option AddrPort) : Prop where
  relayed : v.relay.relayed = true → last = v.relay.relayEndpoint
  direct :
    v.relay.relayed = false →
    ∀ relay, last = some relay → endpointDiffers v.peer relay

variable {v before after : View} {last : Option AddrPort} {key : Key}
  {now : Instant} {events : List Event} {t : Reporter}

theorem View.Tracked.congr
    {other : View}
    (tracked : v.Tracked last)
    (peer : other.peer = v.peer)
    (relayed : other.relay.relayed = v.relay.relayed)
    (relayEndpoint : other.relay.relayEndpoint = v.relay.relayEndpoint) :
    other.Tracked last where
  relayed := by
    rw [relayed, relayEndpoint]
    exact tracked.relayed
  direct := by
    rw [relayed, peer]
    exact tracked.direct

theorem View.tracked_of_relayed
    (relayed : v.relay.relayed = true)
    (same : last = v.relay.relayEndpoint) :
    v.Tracked last where
  relayed := fun _ => same
  direct := by
    intro direct
    rw [relayed] at direct
    cases direct

theorem View.tracked_of_direct
    (direct : v.relay.relayed = false)
    (differs : ∀ relay, last = some relay → endpointDiffers v.peer relay) :
    v.Tracked last where
  relayed := by
    intro relayed
    rw [direct] at relayed
    cases relayed
  direct := fun _ => differs

/-- A change follows the relay endpoint; promotion has looked at the peer's
own. -/
theorem Change.tracked
    (change : Change key now before events after)
    (coherent : Coherent before.relay)
    (tracked : before.Tracked last) :
    after.Tracked (events.foldl (noteRelay key) last) := by
  cases change with
  | counted peer => exact tracked.congr rfl rfl rfl
  | verifying active => exact tracked.congr rfl rfl rfl
  | @rotating probe next active chosen =>
      have relayed := (coherent.probing probe active).1
      exact View.tracked_of_relayed relayed (tracked.relayed relayed)
  | @restoring probe active =>
      obtain ⟨relayed, -, endpoint⟩ := coherent.probing probe active
      refine View.tracked_of_relayed relayed ?_
      have noted :
          noteRelay key last
              (.stayingOnRelay key probe.relayEndpoint
                (before.relay.directFailures + 1)) =
            some probe.relayEndpoint :=
        if_pos rfl
      exact noted.trans endpoint.symm
  | @promoting probe peer active found direct =>
      obtain ⟨relayed, -, isRelay⟩ := coherent.probing probe active
      refine View.tracked_of_direct rfl ?_
      intro relay isLast live endpoint isLive hasEndpoint
      have same : some relay = some probe.relayEndpoint :=
        isLast.symm.trans ((tracked.relayed relayed).trans isRelay)
      cases same
      cases found.symm.trans isLive
      rw [DirectProbe.isDirect, hasEndpoint] at direct
      simpa using direct
  | seen => exact tracked.congr rfl rfl rfl
  | unavailable direct => exact tracked.congr rfl rfl rfl

/-- Changes in a row follow the relay endpoint. -/
theorem Changes.tracked
    (changes : Changes key now before events after)
    (coherent : Coherent before.relay)
    (tracked : before.Tracked last) :
    after.Tracked (events.foldl (noteRelay key) last) := by
  induction changes generalizing last with
  | done => exact tracked
  | next change _ inductionHypothesis =>
      rw [List.foldl_append]
      exact
        inductionHypothesis (change.coherent coherent)
          (change.tracked coherent tracked)

theorem PeerRelay.foldl_stintEvents
    (p : PeerRelay)
    (key : Key)
    (now : Instant)
    (last : Option AddrPort) :
    (p.stintEvents key now).foldl (noteRelay key) last = last := by
  unfold PeerRelay.stintEvents
  split
  · rfl
  · split
    · rfl
    · rfl

/-- A fallback follows the relay endpoint. -/
theorem Fall.tracked
    (fall : Fall key now before events after)
    (tracked : before.Tracked last) :
    after.Tracked (events.foldl (noteRelay key) last) := by
  cases fall with
  | stays => exact tracked
  | relaying kind endpoint direct =>
      obtain ⟨relayed, relayEndpoint, -⟩ :=
        (before.relay.fallenBack kind endpoint
          now).noteDirectStintEnded_fields now
      refine View.tracked_of_relayed relayed ?_
      rw [List.foldl_cons, PeerRelay.foldl_stintEvents]
      have noted :
          noteRelay key last (.relaying key kind endpoint) = some endpoint :=
        if_pos rfl
      refine noted.trans (Eq.symm (relayEndpoint.trans ?_))
      cases kind <;> rfl

/-- A retry keeps the relay endpoint, and tells of none. -/
theorem Retried.tracked
    {candidates : List AddrPort}
    {punchEpoch : Nat}
    (retried : Retried key now candidates punchEpoch before events after)
    (tracked : before.Tracked last) :
    after.Tracked (events.foldl (noteRelay key) last) := by
  cases retried with
  | refused => exact tracked
  | noted relayed =>
      refine tracked.congr rfl ?_ ?_
      · rw [PeerRelay.noted_eq]
      · rw [PeerRelay.noted_eq]
  | probing relayed free nonempty tries index endpoint fresh =>
      refine View.tracked_of_relayed ?_ ?_
      · change (before.relay.noted _ _).relayed = true
        rw [PeerRelay.noted_eq]
        exact relayed
      · change _ = (before.relay.noted _ _).relayEndpoint
        rw [PeerRelay.noted_eq]
        exact tracked.relayed relayed

/-- After `syncPeers` a peer has its old endpoint or that of an entry. -/
theorem endpoint_cases_syncedPeer
    {desired : List PeerConfig}
    {cur next : Option LivePeer}
    {after : LivePeer}
    (same : next.map (·.core) = (syncedPeer desired key cur).map (·.core))
    (found : next = some after) :
    (∃ old, cur = some old ∧ after.endpoint = old.endpoint) ∨
      ∃ want,
        want ∈ desired ∧ want.publicKey = key ∧
          after.endpoint = want.endpoint := by
  obtain ⟨peer, synced, sameEndpoint⟩ := exists_of_map_core same found
  rw [← sameEndpoint]
  unfold syncedPeer at synced
  split at synced
  · cases synced
  · rename_i want found
    obtain ⟨member, isKey⟩ := publicKey_of_desiredByKey found
    cases cur with
    | none =>
        simp only [Option.map_none, syncChange, Option.elim_some,
          PeerConfig.applied] at synced
        split at synced
        · cases synced
        · split at synced
          · cases synced
          · cases synced
            exact Or.inr ⟨want, member, isKey, rfl⟩
    | some old =>
        simp only [Option.map_some, syncChange] at synced
        split at synced
        · cases synced
          exact Or.inl ⟨_, rfl, rfl⟩
        · simp only [Option.elim_some, PeerConfig.applied] at synced
          split at synced
          · cases synced
          · cases synced
            by_cases stale : endpointStale old.snapshot want = true
            · refine Or.inr ⟨want, member, isKey, ?_⟩
              have hinted : want.endpoint.isSome = true := by
                simp only [endpointStale, Bool.and_eq_true] at stale
                exact stale.1.2
              obtain ⟨hint, isHint⟩ := Option.isSome_iff_exists.mp hinted
              simp [LivePeer.configured, stale, isHint]
            · refine Or.inl ⟨old, rfl, ?_⟩
              simp [LivePeer.configured, stale]

/-- What a call has to avoid so that a peer is not found at its last relay
without being relayed. -/
def Call.Avoids (key : Key) (v : View) (last : Option AddrPort) :
    Call → Prop
  | .retireProxies =>
      isDead v.relay.wsProxy = true ∨ isDead v.relay.quicProxy = true →
      ∀ relay,
        v.relay.relayEndpoint = some relay → endpointDiffers v.peer relay
  | .syncPeers desired _ =>
      v.relay.relayed = false →
      ∀ want,
        want ∈ desired →
        want.publicKey = key →
        ∀ hint relay,
          want.endpoint = some hint →
          last = some relay →
          hint.text ≠ relay.text
  | .roam roaming endpoint =>
      roaming = key →
      v.relay.relayed = false →
      ∀ relay, last = some relay → endpoint.text ≠ relay.text
  | _ => True

private theorem View.Tracked.swept
    {relay : PeerRelay}
    (tracked : before.Tracked last)
    (wasRelayed : before.relay.relayed = true)
    (left :
      ∀ relay,
        before.relay.relayEndpoint = some relay →
        endpointDiffers before.peer relay)
    (direct : relay.relayed = false) :
    ({ before with relay := relay } : View).Tracked last := by
  refine View.tracked_of_direct direct ?_
  intro relay isLast
  exact left relay ((tracked.relayed wasRelayed).symm.trans isLast)

/-- A turn that avoids it never finds a peer at its last relay without being
relayed. -/
theorem Turn.tracked
    {call : Call}
    (turn : Turn key call before events after)
    (avoids : call.Avoids key before last)
    (coherent : Coherent before.relay)
    (tracked : before.Tracked last) :
    after.Tracked (events.foldl (noteRelay key) last) := by
  cases turn with
  | idle => exact tracked
  | checked target time isCheck checked =>
      obtain ⟨changes, fall⟩ := checked
      rw [List.foldl_append]
      exact fall.tracked (changes.tracked coherent tracked)
  | retried retried => exact retried.tracked tracked
  | synced desired same =>
      by_cases relayed : before.relay.relayed = true
      · exact View.tracked_of_relayed relayed (tracked.relayed relayed)
      · rw [Bool.not_eq_true] at relayed
        refine View.tracked_of_direct relayed ?_
        intro relay isLast live endpoint isLive hasEndpoint
        rcases endpoint_cases_syncedPeer same isLive with
          ⟨old, isOld, same⟩ | ⟨want, member, isKey, same⟩
        · exact
            tracked.direct relayed relay isLast old endpoint isOld
              (same.symm.trans hasEndpoint)
        · exact
            avoids relayed want member isKey endpoint relay
              (same.symm.trans hasEndpoint) isLast
  | retired =>
      rcases coherent.retire_cases with
        same | ⟨dead, -, retired⟩ | ⟨dead, -, retired⟩
      · refine tracked.congr rfl ?_ ?_
        · exact congrArg PeerRelay.relayed same
        · exact congrArg PeerRelay.relayEndpoint same
      · have relayed : before.relay.relayed = true := by
          apply coherent.proxied
          cases present : before.relay.wsProxy with
          | none =>
              rw [present] at dead
              cases dead
          | some _ => exact Or.inl rfl
        exact
          tracked.swept relayed (avoids (Or.inl dead))
            (congrArg PeerRelay.relayed retired)
      · have relayed : before.relay.relayed = true := by
          apply coherent.proxied
          cases present : before.relay.quicProxy with
          | none =>
              rw [present] at dead
              cases dead
          | some _ => exact Or.inr rfl
        exact
          tracked.swept relayed (avoids (Or.inr dead))
            (congrArg PeerRelay.relayed retired)
  | died => exact tracked.congr rfl rfl rfl
  | heard lastHandshakeTime receiveBytes =>
      refine ⟨tracked.relayed, ?_⟩
      intro direct relay isLast live endpoint isLive hasEndpoint
      obtain ⟨old, isOld, isNew⟩ := Option.map_eq_some_iff.mp isLive
      rw [← isNew] at hasEndpoint
      exact tracked.direct direct relay isLast old endpoint isOld hasEndpoint
  | roamed endpoint =>
      refine ⟨tracked.relayed, ?_⟩
      intro direct relay isLast live other isLive hasEndpoint
      obtain ⟨old, -, isNew⟩ := Option.map_eq_some_iff.mp isLive
      rw [← isNew] at hasEndpoint
      cases hasEndpoint
      exact avoids rfl direct relay isLast

/-- The maps are coherent, and every peer's last relay endpoint is followed. -/
structure Reporter.Tracked (t : Reporter) (last : Key → Option AddrPort) :
    Prop where
  coherent : t.Coherent
  tracked : ∀ key, (t.view key).Tracked (last key)

/-- The relay endpoints of all peers, carried over events. -/
def noteRelays (last : Key → Option AddrPort) (events : List Event) :
    Key → Option AddrPort :=
  fun key => events.foldl (noteRelay key) (last key)

theorem noteRelays_append
    (last : Key → Option AddrPort)
    (first second : List (Visit Reporter Call (List Event))) :
    noteRelays last (told (first ++ second)) =
      noteRelays (noteRelays last (told first)) (told second) := by
  funext key
  simp [noteRelays, told, List.flatMap_append, List.foldl_append]

theorem told_visit
    (config : ReporterConfig)
    (t : Reporter)
    (call : Call) :
    told ((callMachine config).visits t [call]) = (t.call config call).1 :=
  List.append_nil _

theorem noteRelay_of_other
    {event : Event}
    (isOther : event.key ≠ key)
    (last : Option AddrPort) :
    noteRelay key last event = last := by
  cases event with
  | relaying other kind endpoint => exact if_neg isOther
  | stayingOnRelay other endpoint attempt => exact if_neg isOther
  | _ => rfl

/-- A call that avoids it follows every peer's relay endpoint. -/
theorem Reporter.Tracked.call
    (config : ReporterConfig)
    {t : Reporter}
    {last : Key → Option AddrPort}
    (tracked : t.Tracked last)
    {call : Call}
    (avoids : ∀ key, call.Avoids key (t.view key) (last key)) :
    (t.call config call).2.Tracked
      (noteRelays last (t.call config call).1) where
  coherent := Reporter.Coherent.call config tracked.coherent call
  tracked := by
    intro key
    have turned :=
      (call_turn config t call key).tracked (avoids key)
        (tracked.coherent key) (tracked.tracked key)
    rwa [foldl_eventsOf (fun _ isOther => noteRelay_of_other isOther)]
      at turned

/-- The calls that have nothing to avoid. -/
def Call.isCalm : Call → Bool
  | .retireProxies => false
  | .syncPeers _ _ => false
  | .roam _ _ => false
  | _ => true

theorem Call.avoids_of_calm
    {call : Call}
    (calm : call.isCalm = true)
    (key : Key)
    (v : View)
    (last : Option AddrPort) :
    call.Avoids key v last := by
  cases call with
  | retireProxies | syncPeers | roam => cases calm
  | _ => trivial

/-- A call that avoids it, and calm calls after it, follow every peer's relay
endpoint. -/
theorem Reporter.Tracked.cons
    (config : ReporterConfig)
    {t : Reporter}
    {last : Key → Option AddrPort}
    (tracked : t.Tracked last)
    {call : Call}
    (avoids : ∀ key, call.Avoids key (t.view key) (last key))
    {rest : List Call}
    (calm : ∀ call ∈ rest, call.isCalm = true) :
    ((callMachine config).run t (call :: rest)).Tracked
      (noteRelays last
        (told ((callMachine config).visits t (call :: rest)))) := by
  induction rest generalizing t last call with
  | nil =>
      rw [told_visit]
      exact tracked.call config avoids
  | cons next others inductionHypothesis =>
      have all :=
        inductionHypothesis (tracked.call config avoids)
          (fun key =>
            Call.avoids_of_calm (calm next List.mem_cons_self) key _ _)
          (fun other member => calm other (List.mem_cons_of_mem _ member))
      have split :
          (callMachine config).visits t (call :: next :: others) =
            (callMachine config).visits t [call] ++
              (callMachine config).visits (t.call config call).2
                (next :: others) :=
        rfl
      rw [split, noteRelays_append, told_visit]
      exact all

/-- Calm calls in a row follow every peer's relay endpoint. -/
theorem Reporter.Tracked.run
    (config : ReporterConfig)
    {last : Key → Option AddrPort}
    (tracked : t.Tracked last)
    {calls : List Call}
    (calm : ∀ call ∈ calls, call.isCalm = true) :
    ((callMachine config).run t calls).Tracked
      (noteRelays last (told ((callMachine config).visits t calls))) := by
  cases calls with
  | nil => exact tracked
  | cons call rest =>
      exact
        tracked.cons config
          (fun key =>
            Call.avoids_of_calm (calm call List.mem_cons_self) key _ _)
          (fun other member => calm other (List.mem_cons_of_mem _ member))

/-- A retry leaves who is relayed and the last relay as they are. -/
theorem Turn.relayed_of_retry
    {call : Call}
    (turn : Turn key call before events after)
    (isRetry : call.isRetry = true)
    (last : Option AddrPort) :
    after.relay.relayed = before.relay.relayed ∧
      events.foldl (noteRelay key) last = last := by
  cases turn with
  | idle => exact ⟨rfl, rfl⟩
  | checked target time isCheck checked =>
      rw [isCheck] at isRetry
      cases isRetry
  | retried retried =>
      cases retried with
      | refused => exact ⟨rfl, rfl⟩
      | noted relayed =>
          rw [PeerRelay.noted_eq]
          exact ⟨rfl, rfl⟩
      | probing relayed free nonempty tries index endpoint fresh =>
          refine ⟨?_, rfl⟩
          change (before.relay.noted _ _).relayed = _
          rw [PeerRelay.noted_eq]
  | synced | retired | died | heard | roamed => cases isRetry

/-- Retries in a row leave who is relayed and the last relays as they are. -/
theorem relayed_of_retries
    (config : ReporterConfig)
    (t : Reporter)
    {retries : List Call}
    (areRetries : ∀ call ∈ retries, call.isRetry = true)
    (last : Key → Option AddrPort)
    (key : Key) :
    (((callMachine config).run t retries).state key).relayed =
        (t.state key).relayed ∧
      noteRelays last (told ((callMachine config).visits t retries)) key =
        last key := by
  induction retries generalizing t with
  | nil => exact ⟨rfl, rfl⟩
  | cons call rest inductionHypothesis =>
      obtain ⟨sameRelayed, sameLast⟩ :=
        (call_turn config t call key).relayed_of_retry
          (areRetries call List.mem_cons_self) (last key)
      rw [foldl_eventsOf (fun _ isOther => noteRelay_of_other isOther)]
        at sameLast
      obtain ⟨restRelayed, restLast⟩ :=
        inductionHypothesis (t.call config call).2
          (fun other member =>
            areRetries other (List.mem_cons_of_mem _ member))
      refine ⟨restRelayed.trans sameRelayed, ?_⟩
      have split :
          (callMachine config).visits t (call :: rest) =
            (callMachine config).visits t [call] ++
              (callMachine config).visits (t.call config call).2 rest :=
        rfl
      rw [split, noteRelays_append, told_visit]
      unfold noteRelays at restLast ⊢
      rw [sameLast]
      exact restLast

/-- What a step has to find so that a peer is not at its last relay without
being relayed: the sweep finds no dead proxy at the endpoint of its peer, and
neither a hint nor a packet brings a direct peer to its last relay. -/
def Distinguishes (config : ReporterConfig) (t : Reporter)
    (last : Key → Option AddrPort) : Step → Prop
  | .checkHandshakes _ _ =>
      ∀ key,
        isDead (t.state key).wsProxy = true ∨
          isDead (t.state key).quicProxy = true →
        ∀ relay,
          (t.state key).relayEndpoint = some relay →
          endpointDiffers (t.device.peer? key) relay
  | .applySync entries _ =>
      ∀ desired,
        desiredPeers config.resolve (entries.map (·.1)) = .ok desired →
        ∀ want,
          want ∈ desired →
          (t.state want.publicKey).relayed = false →
          ∀ hint relay,
            want.endpoint = some hint →
            last want.publicKey = some relay →
            hint.text ≠ relay.text
  | .roam key endpoint =>
      (t.state key).relayed = false →
      ∀ relay, last key = some relay → endpoint.text ≠ relay.text
  | _ => True

/-- `applySync` follows every peer's relay endpoint. -/
theorem Reporter.Tracked.applySync
    (config : ReporterConfig)
    {last : Key → Option AddrPort}
    (tracked : t.Tracked last)
    {entries : List (PeerConfigResponse × RetryAnswers)}
    {configured : Bool}
    (distinguishes :
      Distinguishes config t last (.applySync entries configured)) :
    ((callMachine config).run t
        (syncCalls config configured entries [])).Tracked
      (noteRelays last
        (told
          ((callMachine config).visits t
            (syncCalls config configured entries [])))) := by
  obtain ⟨retries, areRetries, shape⟩ :=
    syncCalls_cases config configured entries []
  have calm : ∀ call ∈ retries, call.isCalm = true := by
    intro call member
    have isRetry := areRetries call member
    cases call <;> first | rfl | cases isRetry
  have retried := tracked.run config calm
  rcases shape with stopped | ⟨desired, all, goesOn⟩
  · rw [stopped]
    exact retried
  · rw [goesOn, Machine.run_append, Machine.visits_append]
    have synced :=
      @Reporter.Tracked.call config _ _ retried
        (.syncPeers ([] ++ desired) configured)
        (by
          rintro key relayed want member rfl hint relay isHint isLast
          obtain ⟨sameRelayed, sameLast⟩ :=
            relayed_of_retries config t areRetries last want.publicKey
          exact
            distinguishes desired all want member
              (sameRelayed.symm.trans relayed) hint relay isHint
              (sameLast.symm.trans isLast))
    rw [noteRelays_append, told_visit]
    exact synced

/-- A step that distinguishes them follows every peer's relay endpoint. -/
theorem Reporter.Tracked.step
    (config : ReporterConfig)
    {last : Key → Option AddrPort}
    (tracked : t.Tracked last)
    {step : Step}
    (distinguishes : Distinguishes config t last step) :
    ((reporterMachine config).step t step).2.Tracked
      (noteRelays last
        (told ((callMachine config).visits t (t.calls config step)))) := by
  cases step with
  | applySync entries configured =>
      exact tracked.applySync config distinguishes
  | report => exact tracked
  | collect now =>
      refine tracked.run config ?_
      intro call member
      obtain ⟨peer, -, rfl⟩ := List.mem_map.mp member
      rfl
  | checkHandshakes now answers =>
      refine
        @Reporter.Tracked.cons config t last tracked .retireProxies
          distinguishes _ ?_
      intro call member
      obtain ⟨peer, -, rfl⟩ := List.mem_map.mp member
      rfl
  | checkProbes now configured =>
      refine tracked.run config ?_
      intro call member
      obtain ⟨peer, -, rfl⟩ := List.mem_map.mp member
      rfl
  | proxyDies key =>
      refine tracked.run config ?_
      intro call member
      rw [List.mem_singleton.mp member]
      rfl
  | traffic key lastHandshakeTime receiveBytes =>
      refine tracked.run config ?_
      intro call member
      rw [List.mem_singleton.mp member]
      rfl
  | roam roaming endpoint =>
      refine
        tracked.cons config ?_
          (fun _ member => (List.not_mem_nil member).elim)
      rintro key rfl
      exact distinguishes

end WgMesh.Agent
