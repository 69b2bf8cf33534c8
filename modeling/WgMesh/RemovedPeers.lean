import WgMesh.RelayRuns

namespace WgMesh.Agent

/-!
# Peers that are removed from the device

`syncPeers` takes a peer off the device and knows nothing of the reporter's
maps, so whatever they held for it is there when it comes back.  A peer that
was never checked and never heard from has nothing in them.
-/

open CivilTime FiniteRuns PairKeys Server

/-- A reporter that has never seen a peer. -/
def Reporter.forget (t : Reporter) (key : Key) : Reporter :=
  t.set key {}

/-- Whatever happens later, the peer is treated as one that was never seen. -/
def Reporter.TreatsAsNew (config : ReporterConfig) (t : Reporter)
    (key : Key) : Prop :=
  ∀ later,
    eventsOf key (toldBy config t later) =
        eventsOf key (toldBy config (t.forget key) later) ∧
      ((reporterMachine config).run t later).pathState config key =
        ((reporterMachine config).run (t.forget key) later).pathState config
          key ∧
      ((reporterMachine config).run t later).device.peer? key =
        ((reporterMachine config).run (t.forget key) later).device.peer? key

/-- The peer has no live proxy. -/
def PeerRelay.Proxyless (p : PeerRelay) : Prop :=
  ∀ proxy,
    p.wsProxy = some proxy ∨ p.quicProxy = some proxy →
    proxy.alive = false

/-- Nothing of a peer is left: no live proxy, and nothing that its later
treatment depends on. -/
structure Reporter.Cleared (config : ReporterConfig) (t : Reporter)
    (key : Key) : Prop where
  proxyless : (t.state key).Proxyless
  asNew : t.TreatsAsNew config key

/-- If a step takes a peer off the device, nothing of it is left. -/
def RemovesCleanly (config : ReporterConfig) (t : Reporter) (step : Step)
    (key : Key) : Prop :=
  t.device.peer? key ≠ none →
    ((reporterMachine config).step t step).2.device.peer? key = none →
    ((reporterMachine config).step t step).2.Cleared config key

/-- The step does not look at the peer: it does not check its handshakes, and
counts no bytes from it. -/
def Ignores (key : Key) (t : Reporter) : Step → Prop
  | .collect _ =>
      ∀ peer, t.device.peer? key = some peer → peer.receiveBytes = 0
  | .checkHandshakes _ _ => t.device.peer? key = none
  | _ => True

variable {key : Key} {t : Reporter}

theorem view_of_other
    (config : ReporterConfig)
    (t : Reporter)
    (call : Call)
    {other : Key}
    (target : call.target = some other)
    (isOther : other ≠ key) :
    (t.call config call).2.view key = t.view key :=
  (call_turn config t call key).eq_of_other target isOther

/-- Counting a silent peer leaves its maps empty. -/
theorem unseen_count
    (config : ReporterConfig)
    (unseen : t.state key = {})
    (silent :
      ∀ peer, t.device.peer? key = some peer → peer.receiveBytes = 0)
    (counted : Key)
    (now : Instant) :
    (t.call config (.count counted now)).2.state key = {} ∧
      ∀ peer,
        (t.call config (.count counted now)).2.device.peer? key =
          some peer →
        peer.receiveBytes = 0 := by
  by_cases same : counted = key
  · subst same
    unfold Reporter.call
    simp only
    split
    · exact ⟨unseen, silent⟩
    · rename_i peer found
      refine ⟨?_, silent⟩
      simp [Reporter.set, unseen, PeerRelay.count, silent peer found]
  · have untouched :=
      view_of_other config t (.count counted now) rfl same
    have sameState := congrArg View.relay untouched
    have samePeer := congrArg View.peer untouched
    exact
      ⟨sameState.trans unseen,
        fun peer found => silent peer (samePeer.symm.trans found)⟩

/-- Checking other peers leaves the maps of an absent one empty. -/
theorem unseen_checkPeer
    (config : ReporterConfig)
    (unseen : t.state key = {})
    (absent : t.device.peer? key = none)
    (checked : Key)
    (now : Instant)
    (answers : PathAnswers) :
    (t.call config (.checkPeer checked now answers)).2.state key = {} ∧
      (t.call config (.checkPeer checked now answers)).2.device.peer? key =
        none := by
  by_cases same : checked = key
  · subst same
    simp only [Reporter.call, absent]
    exact ⟨unseen, trivial⟩
  · have untouched :=
      view_of_other config t (.checkPeer checked now answers) rfl same
    have sameState := congrArg View.relay untouched
    have samePeer := congrArg View.peer untouched
    exact ⟨sameState.trans unseen, samePeer.trans absent⟩

/-- Without a probe there is nothing to check. -/
theorem unseen_checkDirectProbe
    (config : ReporterConfig)
    (unseen : t.state key = {})
    (checked : Key)
    (now : Instant)
    (configured : Bool) :
    (t.call config (.checkDirectProbe checked now configured)).2.state key =
      {} := by
  by_cases same : checked = key
  · subst same
    unfold Reporter.call
    simp only
    split
    · exact unseen
    · rename_i peer found
      have isKey := Device.publicKey_of_peer? found
      subst isKey
      simp [Reporter.checkDirectProbe, unseen]
  · have untouched :=
      view_of_other config t (.checkDirectProbe checked now configured) rfl
        same
    exact (congrArg View.relay untouched).trans unseen

/-- A peer that is not relayed is not retried. -/
theorem unseen_retry
    (config : ReporterConfig)
    (unseen : t.state key = {})
    {call : Call}
    (isRetry : call.isRetry = true) :
    (t.call config call).2.state key = {} := by
  cases call with
  | maybeRetryDirect retried candidates punchEpoch answers =>
      by_cases same : retried = key
      · subst same
        simp [Reporter.call, Reporter.maybeRetryDirect, unseen]
      · have untouched :=
          view_of_other config t
            (.maybeRetryDirect retried candidates punchEpoch answers) rfl
            same
        exact (congrArg View.relay untouched).trans unseen
  | _ => cases isRetry

/-- `applySync` leaves empty maps empty. -/
theorem unseen_applySync
    (config : ReporterConfig)
    (unseen : t.state key = {})
    (entries : List (PeerConfigResponse × RetryAnswers))
    (configured : Bool) :
    ((callMachine config).run t
      (syncCalls config configured entries [])).state key = {} := by
  obtain ⟨retries, areRetries, shape⟩ :=
    syncCalls_cases config configured entries []
  have retried :
      ((callMachine config).run t retries).state key = {} :=
    @Machine.run_invariant_on _ _ _ (callMachine config)
      (fun current => current.state key = {})
      (fun call => call.isRetry = true)
      (fun _ _ unseen isRetry => unseen_retry config unseen isRetry)
      t unseen retries areRetries
  rcases shape with stopped | ⟨desired, -, goesOn⟩
  · rw [stopped]
    exact retried
  · rw [goesOn, Machine.run_append]
    cases configured with
    | false => exact retried
    | true => exact retried

/-- A step that does not look at a peer leaves its maps empty. -/
theorem unseen_step
    (config : ReporterConfig)
    (unseen : t.state key = {})
    {step : Step}
    (ignores : Ignores key t step) :
    ((reporterMachine config).step t step).2.state key = {} := by
  cases step with
  | collect now =>
      have counted :=
        @Machine.run_invariant_on _ _ _ (callMachine config)
          (fun current =>
            current.state key = {} ∧
              ∀ peer,
                current.device.peer? key = some peer →
                peer.receiveBytes = 0)
          (fun call => ∃ counted now, call = .count counted now)
          (by
            rintro current _ ⟨unseen, silent⟩ ⟨counted, now, rfl⟩
            exact unseen_count config unseen silent counted now)
          t ⟨unseen, ignores⟩ (t.calls config (.collect now))
          (by
            intro call member
            obtain ⟨peer, -, rfl⟩ := List.mem_map.mp member
            exact ⟨_, _, rfl⟩)
      exact counted.1
  | report => exact unseen
  | applySync entries configured =>
      exact unseen_applySync config unseen entries configured
  | checkHandshakes now answers =>
      have checked :=
        @Machine.run_invariant_on _ _ _ (callMachine config)
          (fun current =>
            current.state key = {} ∧ current.device.peer? key = none)
          (fun call => ∃ checked now answers,
            call = .checkPeer checked now answers)
          (by
            rintro current _ ⟨unseen, absent⟩ ⟨checked, now, answers, rfl⟩
            exact
              unseen_checkPeer config unseen absent checked now answers)
          t.retireProxies
          ⟨congrArg PeerRelay.retire unseen, ignores⟩
          (t.device.peers.map
            (fun peer =>
              .checkPeer peer.publicKey now (answers peer.publicKey)))
          (by
            intro call member
            obtain ⟨peer, -, rfl⟩ := List.mem_map.mp member
            exact ⟨_, _, _, rfl⟩)
      exact checked.1
  | checkProbes now configured =>
      exact
        @Machine.run_invariant_on _ _ _ (callMachine config)
          (fun current => current.state key = {})
          (fun call => ∃ checked now configured,
            call = .checkDirectProbe checked now configured)
          (by
            rintro current _ unseen ⟨checked, now, configured, rfl⟩
            exact
              unseen_checkDirectProbe config unseen checked now configured)
          t unseen (t.calls config (.checkProbes now configured))
          (by
            intro call member
            obtain ⟨peer, -, rfl⟩ := List.mem_map.mp member
            exact ⟨_, _, _, rfl⟩)
  | proxyDies dying =>
      change (t.set dying (t.state dying).proxyDies).state key = {}
      by_cases same : key = dying
      · subst same
        simp [Reporter.set, unseen, PeerRelay.proxyDies]
      · simp [Reporter.set, same, unseen]
  | traffic heard lastHandshakeTime receiveBytes => exact unseen
  | roam roaming endpoint => exact unseen

theorem Reporter.forget_of_unseen
    (unseen : t.state key = {}) :
    t.forget key = t := by
  unfold Reporter.forget Reporter.set
  rw [← unseen, Function.update_eq_self]

/-- Of a peer that was never seen there is nothing left. -/
theorem Reporter.cleared_of_unseen
    (config : ReporterConfig)
    (unseen : t.state key = {}) :
    t.Cleared config key where
  proxyless := by
    rw [unseen]
    rintro proxy (isProxy | isProxy)
    · cases isProxy
    · cases isProxy
  asNew := by
    intro later
    rw [Reporter.forget_of_unseen unseen]
    exact ⟨rfl, rfl, rfl⟩

/--
An `applySync` that takes a peer off the device leaves no live proxy for it and
nothing that its later treatment depends on, if no earlier step checked the
peer's handshakes or counted bytes from it.
-/
theorem removes_cleanly
    (config : ReporterConfig)
    (device : Device)
    (key : Key)
    {steps : List Step}
    (ignores :
      ∀ visit,
        visit ∈ (reporterMachine config).visits (Reporter.new device) steps →
        Ignores key visit.before visit.input)
    (entries : List (PeerConfigResponse × RetryAnswers))
    (configured : Bool) :
    RemovesCleanly config
      ((reporterMachine config).run (Reporter.new device) steps)
      (.applySync entries configured) key := by
  have unseen :
      ((reporterMachine config).run (Reporter.new device) steps).state key =
        {} :=
    (@Machine.visits_invariant _ _ _ (reporterMachine config)
      (fun t => t.state key = {}) (Ignores key)
      (fun _ _ unseen ignores => unseen_step config unseen ignores)
      (Reporter.new device) rfl steps ignores).1
  intro _ _
  exact
    Reporter.cleared_of_unseen config
      (unseen_applySync config unseen entries configured)

/-- A peer that was never heard from is taken off before its first check. -/
theorem removes_cleanly_silent :
    ((reporterMachine (webSocketAgent (endpointOf 3221225985 51820))).run
          (Reporter.new (silentDevice (endpointOf 3221225985 51820)))
          [.collect (fun _ => 0), .report,
            .applySync [] true]).device.peer? zeroKey =
        none ∧
      RemovesCleanly (webSocketAgent (endpointOf 3221225985 51820))
        ((reporterMachine (webSocketAgent (endpointOf 3221225985 51820))).run
          (Reporter.new (silentDevice (endpointOf 3221225985 51820)))
          [.collect (fun _ => 0), .report])
        (.applySync [] true) zeroKey := by
  refine
    ⟨by decide +kernel,
      removes_cleanly (webSocketAgent (endpointOf 3221225985 51820))
        (silentDevice (endpointOf 3221225985 51820)) zeroKey ?_ [] true⟩
  intro visit member
  simp only [Machine.visits, List.mem_cons, List.not_mem_nil, or_false]
    at member
  rcases member with isVisit | isVisit
  · rw [isVisit]
    intro peer found
    cases found
    rfl
  · rw [isVisit]
    trivial

/-- A relayed peer that is taken off keeps its live proxy, and is relayed, at
its hint, as soon as it comes back. -/
theorem removed_peer_still_relayed :
    ¬ RemovesCleanly (webSocketAgent (endpointOf 3221225985 51820))
        ((reporterMachine (webSocketAgent (endpointOf 3221225985 51820))).run
          (Reporter.new (silentDevice (endpointOf 3221225985 51820)))
          fallingBack)
        (.applySync [] true) zeroKey ∧
      ¬ ((reporterMachine (webSocketAgent (endpointOf 3221225985 51820))).run
          (Reporter.new (silentDevice (endpointOf 3221225985 51820)))
          (fallingBack ++ [.applySync [] true])).TreatsAsNew
          (webSocketAgent (endpointOf 3221225985 51820)) zeroKey := by
  constructor
  · intro cleanly
    have alive :=
      (cleanly (by decide +kernel) (by decide +kernel)).proxyless
        { endpoint := endpointOf 2130706433 40000, alive := true }
        (by decide +kernel)
    exact absurd alive (by decide)
  · intro treated
    have same := (treated [.applySync (soleEntry (120 * second)) true]).2.1
    exact absurd same (by decide +kernel)

end WgMesh.Agent
