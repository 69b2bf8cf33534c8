import WgMesh.CivilTime
import WgMesh.ServerCandidates
import WgMesh.StoreDNS
import WgMesh.StoreEnroll
import WgMesh.StorePolicy
import WgMesh.StoreReports

namespace WgMesh.Server

/-!
# Sync payloads

What the control plane sends to an agent: peer entries, gateway routes, the
exit-node flag and the packet-filter policy, as `main.go` and `report.go`
assemble them.
-/

open CivilTime NetAddress PairKeys Store TextScan Transactions

/-- `proto.PeerConfigResponse`. -/
structure PeerConfigResponse where
  publicKey : String
  hostname : String
  presharedKey : Option String
  endpoint : Option String
  endpointCandidates : List EndpointCandidate
  punchEpoch : Nat
  persistentKeepaliveInterval : Option Int
  allowedIPs : List String
  exitNode : Bool
deriving DecidableEq

/-- `proto.ACLRule`: empty addresses mean any, zero ports mean none. -/
structure PolicyRule where
  srcIP : String := ""
  srcIP6 : String := ""
  dstIP : String := ""
  dstIP6 : String := ""
  protocol : String
  portMin : Int := 0
  portMax : Int := 0
deriving DecidableEq

/-- `proto.ACLPolicy`. -/
structure ACLPolicy where
  defaultPolicy : String
  rules : List PolicyRule
deriving DecidableEq

/-- `punchEpoch`; the zero time is `none`. -/
structure PunchEpoch where
  epoch : Nat := 0
  bumpedAt : Option Instant := none
  attempts : Nat := 0
deriving DecidableEq

/-- The map `punchEpochs`, which reads as zero where nothing is stored. -/
abbrev PunchEpochs := String → PunchEpoch

/--
What is fixed at startup, and the functions of other packages: key
derivation, digests, name resolution, the curve and the device-key sealer.
-/
structure Config where
  store : Store.Config
  keepalive : Int
  hkdf : String → Key
  digest : String → String
  resolves : String → Bool
  publicKeyOf : Key → Key
  sealDeviceKey : String → String → Except String String
  stunServers : List String
  trustProxy : Bool
  trustedProxies : List Prefix

/-- `keepaliveOrDefault`. -/
def Config.keepaliveOrDefault (config : Config) : Int :=
  if config.keepalive ≤ 0 then 25 else config.keepalive

/-- `allowedIPsForPeer`. -/
def allowedIPsForPeer (p : PeerRow) : List String :=
  (p.assignedIP ++ "/32") ::
    (if p.assignedIP6 ≠ "" then [p.assignedIP6 ++ "/128"] else [])

/-- A static peer that some agent routes. -/
def isRoutedMobile (o : PeerRow) : Bool :=
  o.peerType == some .static && o.gatewayPeerID != 0

/-- `mobilesByGateway`, at one gateway. -/
def mobilesByGateway (others : List PeerRow) (gatewayID : Int) :
    List PeerRow :=
  others.filter fun o =>
    isRoutedMobile o && o.gatewayPeerID == gatewayID

/-- `o` is the exit node of `self`. -/
def isExitNodeOf (self o : PeerRow) : Bool :=
  self.exitNodePeerID != 0 && o.id == self.exitNodePeerID

/-- The prefixes of an agent's entry: its own, its mobiles', the exit's. -/
def agentAllowedIPs (self : PeerRow) (others : List PeerRow) (o : PeerRow) :
    List String :=
  allowedIPsForPeer o ++
    (mobilesByGateway others o.id).flatMap allowedIPsForPeer ++
    (if isExitNodeOf self o then ["0.0.0.0/0", "::/0"] else [])

/-- The entry of one peer in the payload of `self`. -/
def peerEntry
    (config : Config)
    (relay : Relay)
    (epochs : PunchEpochs)
    (self : PeerRow)
    (others : List PeerRow)
    (o : PeerRow) : PeerConfigResponse :=
  let base : PeerConfigResponse :=
    { publicKey := o.publicKey
      hostname := o.hostname
      presharedKey :=
        some (derivePairKey config.hkdf self.publicKey o.publicKey).text
      endpoint := none
      endpointCandidates := []
      punchEpoch :=
        (epochs
          (relayPairID config.digest self.publicKey o.publicKey)).epoch
      persistentKeepaliveInterval := some config.keepaliveOrDefault
      allowedIPs := allowedIPsForPeer o
      exitNode := false }
  if o.peerType = some .static then
    base
  else
    let candidates := pairCandidates relay config.digest self o
    { base with
      endpoint := candidates.head?.map (·.endpoint)
      endpointCandidates := candidates
      allowedIPs := agentAllowedIPs self others o
      exitNode := isExitNodeOf self o }

/-- A routed mobile is an entry only for its own gateway. -/
def hasEntry (self o : PeerRow) : Bool :=
  !(isRoutedMobile o && o.gatewayPeerID != self.id)

/-- `buildPeerEntries`. -/
def buildPeerEntries
    (config : Config)
    (relay : Relay)
    (epochs : PunchEpochs)
    (self : PeerRow)
    (others : List PeerRow) : List PeerConfigResponse :=
  (others.filter (hasEntry self)).map
    (peerEntry config relay epochs self others)

/-- `gatewayRoutesFor`. -/
def gatewayRoutesFor (self : PeerRow) (others : List PeerRow) :
    List String :=
  (others.filter fun o =>
    o.peerType == some .static && o.gatewayPeerID == self.id).flatMap
      allowedIPsForPeer

/-- `exitNodeActiveFor`. -/
def exitNodeActiveFor (self : PeerRow) (others : List PeerRow) : Bool :=
  others.any (fun o => o.exitNodePeerID == self.id)

/-- The part of a payload that is built from the visibility query. -/
structure SyncPayload where
  peers : List PeerConfigResponse
  gatewayRoutes : List String
  exitNodeActive : Bool
deriving DecidableEq

/-- The three builders, at the rows of a peer and of those it sees. -/
def syncPayload
    (config : Config)
    (relay : Relay)
    (epochs : PunchEpochs)
    (self : PeerRow)
    (others : List PeerRow) : SyncPayload where
  peers := buildPeerEntries config relay epochs self others
  gatewayRoutes := gatewayRoutesFor self others
  exitNodeActive := exitNodeActiveFor self others

/-- What the report path builds for a peer, from the rows of `PeersForID`. -/
def reportPayload
    (config : Config)
    (relay : Relay)
    (epochs : PunchEpochs)
    (tables : Tables)
    (peer : PeerRecord) : SyncPayload :=
  syncPayload config relay epochs peer.selfRow
    (tables.visibleTo peer.id config.store.defaultAllow)

/-- The addresses of a rule's side, `none` when its peer is not active. -/
def sideAddresses (active : List PeerInfo) (side : Option Int) :
    Option (String × String) :=
  match side with
  | none => some ("", "")
  | some id =>
      (active.find? (fun p => p.id == id)).map
        (fun p => (p.assignedIP, p.assignedIP6))

/-- The shipped form of a rule, unless one of its peers is not active. -/
def policyRule (active : List PeerInfo) (rule : ACLRule) :
    Option PolicyRule := do
  let src ← sideAddresses active rule.srcPeerID
  let dst ← sideAddresses active rule.dstPeerID
  some
    { srcIP := src.1
      srcIP6 := src.2
      dstIP := dst.1
      dstIP6 := dst.2
      protocol := rule.protocol.text
      portMin := orZero rule.portMin
      portMax := orZero rule.portMax }

/-- `buildACLPolicy`. -/
def buildACLPolicy (config : Config) : StoreM ACLPolicy :=
  if config.store.defaultAllow then
    pure { defaultPolicy := "allow", rules := [] }
  else do
    let peers ← listPeers
    let rules ← listACLRules
    let active := peers.filter (fun p => p.revokedAt == "")
    pure
      { defaultPolicy := "deny"
        rules := rules.filterMap (policyRule active) }

theorem readOnly_buildACLPolicy
    (config : Config) :
    ReadOnly (buildACLPolicy config) := by
  unfold buildACLPolicy
  split
  · exact readOnly_pure _
  · exact ReadOnly.bind (readOnly_select _ _)
      (fun _ => ReadOnly.bind (readOnly_select _ _)
        (fun _ => readOnly_pure _))

end WgMesh.Server
