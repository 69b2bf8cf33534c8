import WgMesh.RelayRuns

namespace WgMesh.Agent

/-!
# The relay maps agree with each other

A relayed peer has an endpoint and a kind of path, a probe belongs to a relayed
peer and remembers its relay endpoint, there is one proxy at most, and a direct
stint is over once the peer is relayed.  Every change keeps this, so every run
of the reporter does.
-/

open CivilTime FiniteRuns PairKeys Server

/-- What the maps hold for one peer is coherent. -/
structure Coherent (p : PeerRelay) : Prop where
  relayed :
    p.relayed = true →
      p.relayEndpoint.isSome = true ∧ p.pathKind.isSome = true
  probing :
    ∀ probe,
      p.directProbe = some probe →
      p.relayed = true ∧
        probe.index < probe.candidates.length ∧
        p.relayEndpoint = some probe.relayEndpoint
  oneProxy : p.wsProxy = none ∨ p.quicProxy = none
  proxied :
    p.wsProxy.isSome = true ∨ p.quicProxy.isSome = true →
      p.relayed = true
  stint : p.directSince.isSome = true → p.relayed = false

variable {p : PeerRelay} {key : Key} {now : Instant} {before after : View}
  {events : List Event}

/-- Only what coherence is about matters to it. -/
theorem Coherent.congr
    {other : PeerRelay}
    (coherent : Coherent p)
    (relayed : other.relayed = p.relayed)
    (relayEndpoint : other.relayEndpoint = p.relayEndpoint)
    (pathKind : other.pathKind = p.pathKind)
    (directProbe : other.directProbe = p.directProbe)
    (wsProxy : other.wsProxy = p.wsProxy)
    (quicProxy : other.quicProxy = p.quicProxy)
    (directSince : other.directSince = p.directSince) :
    Coherent other where
  relayed := by
    rw [relayed, relayEndpoint, pathKind]
    exact coherent.relayed
  probing := by
    rw [relayed, relayEndpoint, directProbe]
    exact coherent.probing
  oneProxy := by
    rw [wsProxy, quicProxy]
    exact coherent.oneProxy
  proxied := by
    rw [relayed, wsProxy, quicProxy]
    exact coherent.proxied
  stint := by
    rw [relayed, directSince]
    exact coherent.stint

theorem coherent_empty : Coherent {} where
  relayed := nofun
  probing := nofun
  oneProxy := Or.inl rfl
  proxied := by simp
  stint := nofun

theorem DirectProbe.nextIndex_lt
    {probe : DirectProbe}
    {next : AddrPort}
    (chosen : probe.candidates[probe.nextIndex]? = some next) :
    probe.nextIndex < probe.candidates.length :=
  (List.getElem?_eq_some_iff.mp chosen).1

/-- A new probe for the relay endpoint keeps the maps coherent. -/
theorem Coherent.withProbe
    (coherent : Coherent p)
    {probe : DirectProbe}
    (relayed : p.relayed = true)
    (index : probe.index < probe.candidates.length)
    (endpoint : p.relayEndpoint = some probe.relayEndpoint) :
    Coherent { p with directProbe := some probe } where
  relayed := coherent.relayed
  probing := by
    intro other isProbe
    cases isProbe
    exact ⟨relayed, index, endpoint⟩
  oneProxy := coherent.oneProxy
  proxied := coherent.proxied
  stint := coherent.stint

theorem coherent_direct
    (relayed : p.relayed = false)
    (directProbe : p.directProbe = none)
    (wsProxy : p.wsProxy = none)
    (quicProxy : p.quicProxy = none) :
    Coherent p where
  relayed := by simp [relayed]
  probing := by simp [directProbe]
  oneProxy := Or.inl wsProxy
  proxied := by simp [wsProxy, quicProxy]
  stint := fun _ => relayed

/-- A peer that is not relayed has no probe and no proxy. -/
theorem Coherent.bare
    (coherent : Coherent p)
    (direct : p.relayed = false) :
    p.directProbe = none ∧ p.wsProxy = none ∧ p.quicProxy = none := by
  refine ⟨?_, ?_, ?_⟩
  · cases active : p.directProbe with
    | none => rfl
    | some probe =>
        have relayed := (coherent.probing probe active).1
        rw [direct] at relayed
        cases relayed
  · cases proxy : p.wsProxy with
    | none => rfl
    | some _ =>
        have relayed := coherent.proxied (Or.inl (by rw [proxy]; rfl))
        rw [direct] at relayed
        cases relayed
  · cases proxy : p.quicProxy with
    | none => rfl
    | some _ =>
        have relayed := coherent.proxied (Or.inr (by rw [proxy]; rfl))
        rw [direct] at relayed
        cases relayed

/-- The end of a stint touches neither the relay nor the probe, and leaves no
stint. -/
theorem PeerRelay.noteDirectStintEnded_fields
    (p : PeerRelay)
    (now : Instant) :
    (p.noteDirectStintEnded now).relayed = p.relayed ∧
      (p.noteDirectStintEnded now).relayEndpoint = p.relayEndpoint ∧
      (p.noteDirectStintEnded now).pathKind = p.pathKind ∧
      (p.noteDirectStintEnded now).directProbe = p.directProbe ∧
      (p.noteDirectStintEnded now).wsProxy = p.wsProxy ∧
      (p.noteDirectStintEnded now).quicProxy = p.quicProxy ∧
      (p.noteDirectStintEnded now).directSince = none := by
  unfold PeerRelay.noteDirectStintEnded
  split
  · rename_i never
    exact ⟨rfl, rfl, rfl, rfl, rfl, rfl, never⟩
  · split
    · exact ⟨rfl, rfl, rfl, rfl, rfl, rfl, rfl⟩
    · exact ⟨rfl, rfl, rfl, rfl, rfl, rfl, rfl⟩

/-- A fallback of a direct peer is coherent once its stint has ended. -/
theorem Coherent.relaying
    (coherent : Coherent p)
    (direct : p.relayed = false)
    (kind : PathKind)
    (endpoint : AddrPort)
    (now : Instant) :
    Coherent
      ((p.fallenBack kind endpoint now).noteDirectStintEnded now) := by
  obtain ⟨noProbe, noWS, noQUIC⟩ := coherent.bare direct
  obtain ⟨relayed, relayEndpoint, pathKind, directProbe, wsProxy, quicProxy,
    ended⟩ := (p.fallenBack kind endpoint now).noteDirectStintEnded_fields now
  have isRelayed : (p.fallenBack kind endpoint now).relayed = true := rfl
  refine
    { relayed := ?_, probing := ?_, oneProxy := ?_, proxied := ?_,
      stint := ?_ }
  · intro _
    rw [relayEndpoint, pathKind]
    cases kind <;> exact ⟨rfl, rfl⟩
  · intro probe active
    rw [directProbe] at active
    have absent : (p.fallenBack kind endpoint now).directProbe = none := by
      cases kind <;> exact noProbe
    rw [absent] at active
    cases active
  · rw [wsProxy, quicProxy]
    cases kind with
    | quicRelay => exact Or.inl noWS
    | wsRelay => exact Or.inr noQUIC
    | udpRelay => exact Or.inl noWS
  · intro _
    rw [relayed, isRelayed]
  · rw [ended]
    nofun

/-- A change keeps the maps coherent. -/
theorem Change.coherent
    (change : Change key now before events after)
    (coherent : Coherent before.relay) :
    Coherent after.relay := by
  cases change with
  | counted peer =>
      exact coherent.congr rfl rfl rfl rfl rfl rfl rfl
  | @verifying probe active =>
      obtain ⟨relayed, index, endpoint⟩ := coherent.probing probe active
      exact coherent.withProbe relayed index endpoint
  | @rotating probe next active chosen =>
      obtain ⟨relayed, -, endpoint⟩ := coherent.probing probe active
      exact
        coherent.withProbe relayed (DirectProbe.nextIndex_lt chosen) endpoint
  | restoring active =>
      exact
        { relayed := coherent.relayed
          probing := nofun
          oneProxy := coherent.oneProxy
          proxied := coherent.proxied
          stint := coherent.stint }
  | promoting active found direct =>
      exact coherent_direct rfl rfl rfl rfl
  | seen => exact coherent.congr rfl rfl rfl rfl rfl rfl rfl
  | unavailable direct => exact coherent.congr rfl rfl rfl rfl rfl rfl rfl

theorem Changes.coherent
    (changes : Changes key now before events after)
    (coherent : Coherent before.relay) :
    Coherent after.relay := by
  induction changes with
  | done => exact coherent
  | next change _ inductionHypothesis =>
      exact inductionHypothesis (change.coherent coherent)

theorem Fall.coherent
    (fall : Fall key now before events after)
    (coherent : Coherent before.relay) :
    Coherent after.relay := by
  cases fall with
  | stays => exact coherent
  | relaying kind endpoint direct =>
      exact coherent.relaying direct kind endpoint now

/-- A retry keeps the maps coherent. -/
theorem Retried.coherent
    {candidates : List AddrPort}
    {punchEpoch : Nat}
    (retried : Retried key now candidates punchEpoch before events after)
    (coherent : Coherent before.relay) :
    Coherent after.relay := by
  have noted : Coherent (before.relay.noted candidates punchEpoch) := by
    rw [PeerRelay.noted_eq]
    exact coherent.congr rfl rfl rfl rfl rfl rfl rfl
  cases retried with
  | refused => exact coherent
  | noted relayed => exact noted
  | probing relayed free nonempty tries index endpoint fresh =>
      refine noted.withProbe ?_ ?_ ?_
      · rw [PeerRelay.noted_eq]
        exact relayed
      · rw [index, tries, nonempty]
        exact Nat.succ_pos _
      · rw [PeerRelay.noted_eq]
        exact endpoint

/-- The sweep forgets the relay of a peer whose only proxy is dead, and leaves
other peers alone. -/
theorem Coherent.retire_cases
    (coherent : Coherent p) :
    p.retire = p ∨
      (isDead p.wsProxy = true ∧ p.quicProxy = none ∧
        p.retire = { p.offRelay with wsProxy := none }) ∨
      (isDead p.quicProxy = true ∧ p.wsProxy = none ∧
        p.retire =
          { p.offRelay with quicProxy := none, quicUnavailable := true }) := by
  unfold PeerRelay.retire
  simp only
  by_cases wsDead : isDead p.wsProxy = true
  · have noQUIC : p.quicProxy = none := by
      refine coherent.oneProxy.resolve_left ?_
      intro absent
      rw [absent] at wsDead
      cases wsDead
    have noneDead :
        isDead ({ p.offRelay with wsProxy := none } : PeerRelay).quicProxy =
          false := by
      change isDead p.quicProxy = false
      rw [noQUIC]
      rfl
    refine Or.inr (Or.inl ⟨wsDead, noQUIC, ?_⟩)
    rw [if_pos wsDead, noneDead]
    rfl
  · rw [if_neg wsDead]
    by_cases quicDead : isDead p.quicProxy = true
    · have noWS : p.wsProxy = none := by
        refine coherent.oneProxy.resolve_right ?_
        intro absent
        rw [absent] at quicDead
        cases quicDead
      exact Or.inr (Or.inr ⟨quicDead, noWS, if_pos quicDead⟩)
    · exact Or.inl (if_neg quicDead)

/-- The sweep keeps the maps coherent. -/
theorem Coherent.retire
    (coherent : Coherent p) :
    Coherent p.retire := by
  rcases coherent.retire_cases with
    same | ⟨-, noQUIC, retired⟩ | ⟨-, noWS, retired⟩
  · rw [same]
    exact coherent
  · rw [retired]
    exact coherent_direct rfl rfl rfl noQUIC
  · rw [retired]
    exact coherent_direct rfl rfl noWS rfl

/-- A dead proxy is still the peer's proxy. -/
theorem Coherent.proxyDies
    (coherent : Coherent p) :
    Coherent p.proxyDies where
  relayed := coherent.relayed
  probing := coherent.probing
  oneProxy := by
    rcases coherent.oneProxy with noWS | noQUIC
    · exact Or.inl (by simp [PeerRelay.proxyDies, noWS])
    · exact Or.inr (by simp [PeerRelay.proxyDies, noQUIC])
  proxied := by
    intro either
    apply coherent.proxied
    simpa [PeerRelay.proxyDies] using either
  stint := coherent.stint

/-- A turn keeps the maps coherent. -/
theorem Turn.coherent
    {call : Call}
    (turn : Turn key call before events after)
    (coherent : Coherent before.relay) :
    Coherent after.relay := by
  cases turn with
  | idle => exact coherent
  | checked target time isCheck checked =>
      obtain ⟨changes, fall⟩ := checked
      exact fall.coherent (changes.coherent coherent)
  | retried retried => exact retried.coherent coherent
  | synced desired _ => exact coherent
  | retired => exact coherent.retire
  | died => exact coherent.proxyDies
  | heard lastHandshakeTime receiveBytes => exact coherent
  | roamed endpoint => exact coherent

/-- The maps are coherent for every peer. -/
def Reporter.Coherent (t : Reporter) : Prop :=
  ∀ key, Agent.Coherent (t.state key)

theorem Reporter.coherent_new
    (device : Device) :
    (Reporter.new device).Coherent :=
  fun _ => coherent_empty

theorem Reporter.Coherent.call
    (config : ReporterConfig)
    {t : Reporter}
    (coherent : t.Coherent)
    (call : Call) :
    (t.call config call).2.Coherent :=
  fun key => (call_turn config t call key).coherent (coherent key)

/--
In every run of the reporter, whatever the payloads, clock readings, dial
results, device answers and proxy deaths, the maps are coherent for every peer
between any two steps.
-/
theorem relay_state_coherent
    (config : ReporterConfig)
    (device : Device)
    (steps : List Step)
    (key : Key) :
    Coherent
      (((reporterMachine config).run (Reporter.new device) steps).state
        key) :=
  @steps_invariant config Reporter.Coherent
    (fun _ call coherent => Reporter.Coherent.call config coherent call)
    (Reporter.new device) (Reporter.coherent_new device) steps key

end WgMesh.Agent
