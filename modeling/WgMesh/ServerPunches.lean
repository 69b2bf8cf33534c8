import WgMesh.ServerEntries

namespace WgMesh.Server

/-!
# Coordinated hole punching

`coordinatePunches` and the epochs it advances, from `report.go`.  The
sync-now signal to the other peer is left out: it carries no data.
-/

open CivilTime PairKeys Store TextScan Transactions

/-- `punchCooldown`, two minutes. -/
def punchCooldown : Int := 120000000000

/-- `maxPunchAttempts`. -/
def maxPunchAttempts : Nat := 3

/-- How long a peer counts as online after it was last seen. -/
def onlineMaxAge : Int := 120000000000

/-- Store an epoch under a pair id. -/
def PunchEpochs.set (pairID : String) (value : PunchEpoch)
    (epochs : PunchEpochs) : PunchEpochs :=
  fun id => if id = pairID then value else epochs id

/-- `onlinePeers`, read at one public key. -/
def isOnline (peers : List PeerInfo) (now : Instant) (publicKey : String) :
    Bool :=
  peers.any fun p =>
    p.publicKey == publicKey && p.revokedAt == "" &&
      (parse p.lastSeenAt).any
        (fun seen => decide (now - seen ≤ onlineMaxAge))

/-- `punchDecision`. -/
structure PunchDecision where
  state : String
  remoteOnline : Bool
  selfCandidates : Nat
  remoteCandidates : Nat
  selfNAT : String
  remoteNAT : String

/-- `shouldBumpPunchEpoch`. -/
def shouldBumpPunchEpoch (d : PunchDecision) : Bool :=
  if d.state = "quic-relay" ∨ d.state = "ws-relay" ∨
      d.state = "udp-relay" then
    if d.selfNAT = "hard" ∧ d.remoteNAT = "hard" then
      false
    else
      d.remoteOnline && decide (0 < d.selfCandidates) &&
        decide (0 < d.remoteCandidates)
  else
    false

/-- `bumpPunchEpoch`, without the reported success. -/
def bumpPunchEpoch (pairID : String) (now : Instant)
    (epochs : PunchEpochs) : PunchEpochs :=
  let cur := epochs pairID
  let cooldown :=
    punchCooldown * 2 ^ (if cur.attempts < 2 then cur.attempts else 2)
  if maxPunchAttempts ≤ cur.attempts then epochs
  else if cur.bumpedAt.any (fun at' => decide (now - at' < cooldown)) then
    epochs
  else
    epochs.set pairID
      { epoch := cur.epoch + 1
        bumpedAt := some now
        attempts := cur.attempts + 1 }

/-- `resetPunchAttempts`. -/
def resetPunchAttempts (pairID : String) (epochs : PunchEpochs) :
    PunchEpochs :=
  if (epochs pairID).attempts = 0 then epochs
  else
    epochs.set pairID
      { epochs pairID with bumpedAt := none, attempts := 0 }

/-- What one path state of a report does to the epochs. -/
def coordinatePath
    (config : Config)
    (relay : Relay)
    (now : Instant)
    (self : PeerRow)
    (others : List PeerRow)
    (online : String → Bool)
    (epochs : PunchEpochs)
    (path : PeerPathState) : PunchEpochs :=
  match others.find? (fun p => p.publicKey == path.peerPublicKey) with
  | none => epochs
  | some remote =>
      let pairID :=
        relayPairID config.digest self.publicKey remote.publicKey
      if path.state = "direct" then
        resetPunchAttempts pairID epochs
      else if shouldBumpPunchEpoch
          { state := path.state
            remoteOnline := online path.peerPublicKey
            selfCandidates :=
              (pairCandidates relay config.digest remote self).length
            remoteCandidates :=
              (pairCandidates relay config.digest self remote).length
            selfNAT := self.natType
            remoteNAT := remote.natType } then
        bumpPunchEpoch pairID now epochs
      else
        epochs

/-- `coordinatePunches`: the epochs after a report's path states. -/
def coordinatePunches
    (config : Config)
    (relay : Relay)
    (now : Instant)
    (self : PeerRow)
    (others : List PeerRow)
    (paths : List PeerPathState)
    (epochs : PunchEpochs) : StoreM PunchEpochs :=
  if paths = [] then
    pure epochs
  else do
    let peers ← listPeers
    pure
      (paths.foldl
        (coordinatePath config relay now self others (isOnline peers now))
        epochs)

theorem readOnly_coordinatePunches
    (config : Config)
    (relay : Relay)
    (now : Instant)
    (self : PeerRow)
    (others : List PeerRow)
    (paths : List PeerPathState)
    (epochs : PunchEpochs) :
    ReadOnly
      (coordinatePunches config relay now self others paths epochs) := by
  unfold coordinatePunches
  split
  · exact readOnly_pure _
  · exact ReadOnly.bind (readOnly_select _ _) (fun _ => readOnly_pure _)

end WgMesh.Server
