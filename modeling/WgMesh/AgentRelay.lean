import WgMesh.AgentDevice
import WgMesh.FiniteRuns

namespace WgMesh.Agent

/-!
# The relay state of an agent

The telemetry reporter keeps, in maps by public key, which peers are relayed,
how, and what it has tried to leave the relay; next to them is the WireGuard
device.  One lock serialises `syncOnce` and `checkProbes`.  The maps of one
peer are one record here.  Clock readings, the answers of the device, the dials
and the responses of the control plane are inputs.
-/

open CivilTime FiniteRuns PairKeys RowTables Server TextScan

/-- A second and a minute, in nanoseconds. -/
def second : Int := 1000000000
def minute : Int := 60 * second

/-- `directStaleAfter`. -/
def directStaleAfter : Int := 90 * second

/-- `directProbeInterval`. -/
def directProbeInterval : Int := 20 * second

/-- `coordinatedProbeInterval`. -/
def coordinatedProbeInterval : Int := 8 * second

/-- `coordinatedProbeWindow`. -/
def coordinatedProbeWindow : Int := 45 * second

/-- `directProbationMin`. -/
def directProbationMin : Int := 20 * second

/-- `directProbationTimeout`. -/
def directProbationTimeout : Int := 60 * second

/-- `directRetryAfter`. -/
def directRetryAfter : Int := 5 * minute

/-- `directRetryInterval`. -/
def directRetryInterval (failures : Nat) : Int :=
  let shifted :=
    directRetryAfter * 2 ^ (if 3 < failures then 3 else failures)
  if 30 * minute < shifted then 30 * minute else shifted

/-- `directStableTenure`. -/
def directStableTenure : Int := 10 * minute

/-- `flapHoldDownBase`. -/
def flapHoldDownBase : Int := 2 * minute

/-- `flapHoldDown`. -/
def flapHoldDown (flaps : Nat) : Int :=
  if flaps < 1 then 0
  else flapHoldDownBase * 2 ^ (if flaps - 1 < 3 then flaps - 1 else 3)

/-- `relayTransport`. -/
inductive RelayTransport where
  | auto
  | webSocket
  | udp
deriving DecidableEq

/-- The values of `pathKinds`. -/
inductive PathKind where
  | quicRelay
  | wsRelay
  | udpRelay
deriving DecidableEq

/-- The values of `pathState`. -/
inductive PathState where
  | probingDirect
  | relayed (kind : PathKind)
  | direct
deriving DecidableEq

/-- How a path state is reported. -/
def PathState.text : PathState → String
  | .probingDirect => "probing-direct"
  | .relayed .quicRelay => "quic-relay"
  | .relayed .wsRelay => "ws-relay"
  | .relayed .udpRelay => "udp-relay"
  | .direct => "direct"

/-- `directProbe`; zero times are missing. -/
structure DirectProbe where
  started : Instant
  confirmedAt : Option Instant
  candidates : List AddrPort
  index : Nat
  relayEndpoint : AddrPort
  interval : Int
  deadline : Option Instant
  epoch : Nat
deriving DecidableEq

/-- `wsRelayProxy` and `quicRelayProxy`: the loopback socket, and `alive`. -/
structure Proxy where
  endpoint : AddrPort
  alive : Bool
deriving DecidableEq

/-- What the reporter's maps hold for one peer. -/
structure PeerRelay where
  prevRx : Int := 0
  firstSeen : Option Instant := none
  lastInbound : Option Instant := none
  relayed : Bool := false
  relayedAt : Option Instant := none
  relayEndpoint : Option AddrPort := none
  directProbe : Option DirectProbe := none
  lastPunchEpoch : Nat := 0
  directFailures : Nat := 0
  lastCandidates : String := ""
  wsProxy : Option Proxy := none
  quicProxy : Option Proxy := none
  pathKind : Option PathKind := none
  quicUnavailable : Bool := false
  directSince : Option Instant := none
  directFlaps : Nat := 0
  holdDownUntil : Option Instant := none
deriving DecidableEq

/-- The settings of the reporter, and how the host resolves names. -/
structure ReporterConfig where
  relayTransport : RelayTransport
  directProbeOff : Bool
  resolve : String → Option AddrPort

/-- `telemetryReporter`, as far as its relay state goes, and the device. -/
structure Reporter where
  state : Key → PeerRelay
  relayBroken : Bool
  device : Device

/-- Replace what the maps hold for a peer. -/
def Reporter.set (t : Reporter) (key : Key) (state : PeerRelay) :
    Reporter :=
  { t with state := Function.update t.state key state }

/-- `ConfigureDevice` with the endpoint of one peer, when it succeeds. -/
def Reporter.point (t : Reporter) (key : Key) (endpoint : AddrPort) :
    Reporter :=
  { t with device := t.device.configure [endpointChange key endpoint] }

/-- What a call does for a peer, as the log tells it; a direct stint that was
stable ends in silence. -/
inductive Event where
  | retrying (key : Key) (endpoint : AddrPort) (coordinated : Bool)
      (epoch : Nat)
  | tryingNext (key : Key) (endpoint : AddrPort)
  | verifying (key : Key)
  | leavingRelay (key : Key)
  | stayingOnRelay (key : Key) (endpoint : AddrPort) (attempt : Nat)
  | relaying (key : Key) (kind : PathKind) (endpoint : AddrPort)
  | flapped (key : Key) (hold : Int) (flaps : Nat)
  | settled (key : Key)
deriving DecidableEq

/-- `noteDirectStintEnded`. -/
def PeerRelay.noteDirectStintEnded (p : PeerRelay) (now : Instant) :
    PeerRelay :=
  match p.directSince with
  | none => p
  | some since =>
      if directStableTenure ≤ now - since then
        { p with directSince := none, directFlaps := 0 }
      else
        { p with
          directSince := none
          directFlaps := p.directFlaps + 1
          holdDownUntil := some (now + flapHoldDown (p.directFlaps + 1)) }

/-- What `noteDirectStintEnded` tells. -/
def PeerRelay.stintEvents (p : PeerRelay) (key : Key) (now : Instant) :
    List Event :=
  match p.directSince with
  | none => []
  | some since =>
      if directStableTenure ≤ now - since then
        [.settled key]
      else
        [.flapped key (flapHoldDown (p.directFlaps + 1)) (p.directFlaps + 1)]

/-- `candidateDigest`. -/
def candidateDigest (candidates : List AddrPort) : String :=
  String.intercalate ","
    ((candidates.map (·.text)).insertionSort
      (fun first second => textLess second first = false))

/-- The loop of `endpointCandidatesFromProto`; `seen` are the texts so far. -/
def resolveCandidates (resolve : String → Option AddrPort) :
    List EndpointCandidate → List String → List AddrPort
  | [], _ => []
  | candidate :: rest, seen =>
      match resolve candidate.endpoint with
      | none => resolveCandidates resolve rest seen
      | some udp =>
          if udp.text ∈ seen then resolveCandidates resolve rest seen
          else udp :: resolveCandidates resolve rest (udp.text :: seen)

/-- `endpointCandidatesFromProto`. -/
def endpointCandidatesFromProto (resolve : String → Option AddrPort)
    (p : PeerConfigResponse) (fallback : Option AddrPort) :
    List AddrPort :=
  let out := resolveCandidates resolve p.endpointCandidates []
  match fallback with
  | none => out
  | some addr =>
      if addr.text ∈ out.map (·.text) then out else out ++ [addr]

/-- What `maybeRetryDirect` reads of the clock, and what the device answers. -/
structure RetryAnswers where
  gate : Instant
  since : Instant
  started : Instant
  configured : Bool

/-- `startDirectProbe`. -/
def Reporter.startDirectProbe (t : Reporter) (key : Key)
    (candidates : List AddrPort) (interval window : Int) (epoch : Nat)
    (answers : RetryAnswers) : List Event × Reporter :=
  match (t.state key).relayEndpoint, candidates with
  | some relayEndpoint, first :: _ =>
      if answers.configured then
        ([.retrying key first (0 < window) epoch],
          (t.point key first).set key
            { t.state key with
              directProbe :=
                some
                  { started := answers.started
                    confirmedAt := none
                    candidates
                    index := 0
                    relayEndpoint
                    interval
                    deadline :=
                      if 0 < window then some (answers.started + window)
                      else none
                    epoch } })
      else
        ([], t)
  | _, _ => ([], t)

/-- What `maybeRetryDirect` notes of a candidate list. -/
def PeerRelay.noteCandidates (p : PeerRelay)
    (candidates : List AddrPort) : PeerRelay :=
  if candidateDigest candidates = p.lastCandidates then p
  else
    { p with
      lastCandidates := candidateDigest candidates
      directFailures := 0 }

/-- A punch epoch that the peer has not seen. -/
def PeerRelay.isFresh (p : PeerRelay) (punchEpoch : Nat) : Bool :=
  decide (0 < punchEpoch) && decide (p.lastPunchEpoch < punchEpoch)

/-- What `maybeRetryDirect` notes of a punch epoch. -/
def PeerRelay.noteEpoch (p : PeerRelay) (punchEpoch : Nat) : PeerRelay :=
  if p.isFresh punchEpoch then { p with lastPunchEpoch := punchEpoch }
  else p

/-- The hold-down of a peer is in force. -/
def PeerRelay.isHeld (p : PeerRelay) (now : Instant) : Bool :=
  p.holdDownUntil.any (fun heldUntil => decide (now < heldUntil))

/-- The retry interval of a relayed peer has not passed. -/
def PeerRelay.retriesLater (p : PeerRelay) (now : Instant) : Bool :=
  p.relayedAt.any (fun relayedAt =>
    decide (now - relayedAt < directRetryInterval p.directFailures))

/-- `maybeRetryDirect`.  The hold-down outranks everything else, and the epoch
stays consumed. -/
def Reporter.maybeRetryDirect (config : ReporterConfig) (t : Reporter)
    (key : Key) (candidates : List AddrPort) (punchEpoch : Nat)
    (answers : RetryAnswers) : List Event × Reporter :=
  if config.directProbeOff ∨ candidates = [] ∨
      (t.state key).relayed = false then
    ([], t)
  else
    let fast := (t.state key).isFresh punchEpoch
    let p := ((t.state key).noteCandidates candidates).noteEpoch punchEpoch
    if p.isHeld answers.gate then
      ([], t.set key p)
    else if p.directProbe.isSome && !fast then
      ([], t.set key p)
    else if !fast && p.retriesLater answers.since then
      ([], t.set key p)
    else if fast then
      (t.set key p).startDirectProbe key candidates coordinatedProbeInterval
        coordinatedProbeWindow punchEpoch answers
    else
      (t.set key p).startDirectProbe key candidates directProbeInterval 0
        punchEpoch answers

/-- `promoteDirect`; the proxies are closed. -/
def PeerRelay.promoteDirect (p : PeerRelay) (now : Instant) : PeerRelay :=
  { p with
    wsProxy := none
    quicProxy := none
    directProbe := none
    relayed := false
    relayedAt := none
    relayEndpoint := none
    directFailures := 0
    lastCandidates := ""
    pathKind := none
    quicUnavailable := false
    firstSeen := some now
    directSince := some now
    holdDownUntil := none }

/-- `restoreRelayAfterProbe`. -/
def Reporter.restoreRelayAfterProbe (t : Reporter) (key : Key)
    (probe : DirectProbe) (now : Instant) (configured : Bool) :
    List Event × Reporter :=
  if configured then
    let failures := (t.state key).directFailures + 1
    ([.stayingOnRelay key probe.relayEndpoint failures],
      (t.point key probe.relayEndpoint).set key
        { t.state key with
          directProbe := none
          relayedAt := some now
          directFailures := failures })
  else
    ([], t)

/-- The peer's endpoint is not the relay's. -/
def DirectProbe.isDirect (probe : DirectProbe) (peer : LivePeer) : Bool :=
  peer.endpoint.any
    (fun endpoint => endpoint.text != probe.relayEndpoint.text)

/-- The peer has completed a handshake since the candidate was tried. -/
def DirectProbe.isAnswered (probe : DirectProbe) (peer : LivePeer) : Bool :=
  peer.lastHandshakeTime.any
    (fun handshake => decide (probe.started < handshake))

/-- Another candidate may still be tried. -/
def DirectProbe.canRotate (probe : DirectProbe) (now : Instant) : Bool :=
  match probe.deadline with
  | none => decide (probe.index + 1 < probe.candidates.length)
  | some deadline => decide (now < deadline)

/-- The next candidate's index. -/
def DirectProbe.nextIndex (probe : DirectProbe) : Nat :=
  if probe.candidates.length ≤ probe.index + 1 then 0 else probe.index + 1

/-- The peer was heard from after the probation. -/
def PeerRelay.heardSince (p : PeerRelay) (confirmed : Instant) : Bool :=
  p.lastInbound.any (fun inbound =>
    decide (confirmed + directProbationMin < inbound))

/-- The rotation of `checkDirectProbe`; it would panic without candidates. -/
def Reporter.rotateProbe (t : Reporter) (key : Key) (probe : DirectProbe)
    (now : Instant) (configured : Bool) : List Event × Reporter :=
  match probe.candidates[probe.nextIndex]? with
  | none => ([], t)
  | some next =>
      if configured then
        ([.tryingNext key next],
          (t.point key next).set key
            { t.state key with
              directProbe :=
                some { probe with index := probe.nextIndex, started := now } })
      else
        ([], t)

/-- `checkDirectProbe`. -/
def Reporter.checkDirectProbe (t : Reporter) (peer : LivePeer)
    (now : Instant) (configured : Bool) : List Event × Reporter :=
  let key := peer.publicKey
  let p := t.state key
  match p.directProbe with
  | none => ([], t)
  | some probe =>
      match probe.confirmedAt with
      | none =>
          if probe.isAnswered peer && probe.isDirect peer then
            ([.verifying key],
              t.set key
                { p with
                  directProbe := some { probe with confirmedAt := some now } })
          else if now - probe.started < probe.interval then
            ([], t)
          else if probe.canRotate now then
            t.rotateProbe key probe now configured
          else
            t.restoreRelayAfterProbe key probe now configured
      | some confirmed =>
          if probe.isDirect peer && p.heardSince confirmed then
            ([.leavingRelay key], t.set key (p.promoteDirect now))
          else if now - confirmed < directProbationTimeout then
            ([], t)
          else
            t.restoreRelayAfterProbe key probe now configured

/-- How a dial of a relay ends.  `noRelay` is the control plane's refusal for
good; `opened` includes the endpoint being set on the device. -/
inductive Dialed where
  | failed
  | noRelay
  | opened (endpoint : AddrPort)

/-- How the dials of `switchToRelay` end, if they are made. -/
structure RelayAnswers where
  quic : Option AddrPort
  webSocket : Dialed
  udp : Dialed

/-- What `switchToRelay` notes of an opened relay. -/
def PeerRelay.relayVia (p : PeerRelay) (kind : PathKind)
    (endpoint : AddrPort) : PeerRelay :=
  let p := { p with relayEndpoint := some endpoint, pathKind := some kind }
  match kind with
  | .quicRelay => { p with quicProxy := some { endpoint, alive := true } }
  | .wsRelay => { p with wsProxy := some { endpoint, alive := true } }
  | .udpRelay => p

/-- The end of `switchToRelay` for one dial. -/
def Reporter.switchOver (t : Reporter) (key : Key) (kind : PathKind) :
    Dialed → Option (PathKind × AddrPort) × Reporter
  | .failed => (none, t)
  | .noRelay => (none, { t with relayBroken := true })
  | .opened endpoint =>
      (some (kind, endpoint),
        (t.point key endpoint).set key
          ((t.state key).relayVia kind endpoint))

/-- `switchToRelay`; on success it returns the relay that is used. -/
def Reporter.switchToRelay (config : ReporterConfig) (t : Reporter)
    (key : Key) (answers : RelayAnswers) :
    Option (PathKind × AddrPort) × Reporter :=
  match config.relayTransport with
  | .auto =>
      if (t.state key).quicUnavailable then
        t.switchOver key .wsRelay answers.webSocket
      else
        match answers.quic with
        | some endpoint => t.switchOver key .quicRelay (.opened endpoint)
        | none =>
            (t.set key { t.state key with quicUnavailable := true }).switchOver
              key .wsRelay answers.webSocket
  | .webSocket => t.switchOver key .wsRelay answers.webSocket
  | .udp => t.switchOver key .udpRelay answers.udp

/-- What is deleted with a dead proxy. -/
def PeerRelay.offRelay (p : PeerRelay) : PeerRelay :=
  { p with
    relayed := false
    relayedAt := none
    relayEndpoint := none
    directProbe := none
    pathKind := none }

/-- A proxy whose pumps have stopped. -/
def isDead (proxy : Option Proxy) : Bool :=
  proxy.any (fun live => !live.alive)

/-- The sweep of `checkHandshakes` for one peer: first its WebSocket proxy,
then its QUIC proxy. -/
def PeerRelay.retire (p : PeerRelay) : PeerRelay :=
  let p := if isDead p.wsProxy then { p.offRelay with wsProxy := none } else p
  if isDead p.quicProxy then
    { p.offRelay with quicProxy := none, quicUnavailable := true }
  else
    p

/-- The sweep of `checkHandshakes`. -/
def Reporter.retireProxies (t : Reporter) : Reporter :=
  { t with state := fun key => (t.state key).retire }

/-- The later of two times; a missing one is the zero time. -/
def laterOf : Option Instant → Option Instant → Option Instant
  | last, none => last
  | none, some time => some time
  | some last, some time => if last < time then some time else some last

/-- `directSilentFor`. -/
def PeerRelay.directSilentFor (p : PeerRelay) (peer : LivePeer)
    (now : Instant) : Int :=
  match laterOf (laterOf p.firstSeen p.lastInbound) peer.lastHandshakeTime with
  | none => 0
  | some last => now - last

/-- What `checkHandshakes` notes of a `switchToRelay`, if it succeeds. -/
def noteFallBack (key : Key) (now : Instant) :
    Option (PathKind × AddrPort) × Reporter → List Event × Reporter
  | (none, t) => ([], t)
  | (some (kind, endpoint), t) =>
      let p := { t.state key with relayed := true, relayedAt := some now }
      (.relaying key kind endpoint :: p.stintEvents key now,
        t.set key (p.noteDirectStintEnded now))

/-- The end of the loop of `checkHandshakes`. -/
def Reporter.fallBack (config : ReporterConfig) (t : Reporter) (key : Key)
    (now : Instant) (answers : RelayAnswers) : List Event × Reporter :=
  noteFallBack key now (t.switchToRelay config key answers)

/-- What the device and the dials answer to `checkHandshakes` for a peer. -/
structure PathAnswers where
  configured : Bool
  relay : RelayAnswers

/-- `checkHandshakes` keeps the path of the peer as it is. -/
def Reporter.staysPut (t : Reporter) (peer : LivePeer) (now : Instant) :
    Bool :=
  let p := t.state peer.publicKey
  p.relayed || t.relayBroken ||
    decide (p.directSilentFor peer now < directStaleAfter)

/-- `firstSeen`, set once. -/
def Reporter.noteSeen (t : Reporter) (key : Key) (now : Instant) :
    Reporter :=
  t.set key
    { t.state key with firstSeen := (t.state key).firstSeen.or (some now) }

/-- The body of the loop of `checkHandshakes`. -/
def Reporter.checkPeer (config : ReporterConfig) (t : Reporter)
    (peer : LivePeer) (now : Instant) (answers : PathAnswers) :
    List Event × Reporter :=
  let checked := t.checkDirectProbe peer now answers.configured
  let seen := checked.2.noteSeen peer.publicKey now
  if seen.staysPut peer now then
    (checked.1, seen)
  else
    let fallen := seen.fallBack config peer.publicKey now answers.relay
    (checked.1 ++ fallen.1, fallen.2)

/-- The body of the loop of `collectLinkCounters`, for the received bytes. -/
def PeerRelay.count (p : PeerRelay) (peer : LivePeer) (now : Instant) :
    PeerRelay :=
  let delta :=
    if peer.receiveBytes - p.prevRx < 0 then peer.receiveBytes
    else peer.receiveBytes - p.prevRx
  { p with
    prevRx := peer.receiveBytes
    lastInbound := if 0 < delta then some now else p.lastInbound }

/-- The pumps of a peer's proxy stop. -/
def PeerRelay.proxyDies (p : PeerRelay) : PeerRelay :=
  { p with
    wsProxy := p.wsProxy.map (fun proxy => { proxy with alive := false })
    quicProxy := p.quicProxy.map (fun proxy => { proxy with alive := false }) }

end WgMesh.Agent
