import WgMesh.ServerPunches
import WgMesh.StoreMachine

namespace WgMesh.Server

/-!
# Request handlers

The handlers of the control plane that write to the store, with their checks,
status codes and texts.  A handler is an action on the server's state that
ends early by raising the response it writes.  Logs, the audit trail and
sync-now signals are left out.
-/

open CivilTime FiniteRuns NetAddress PairKeys Store TextScan Transactions

/-- The server: its store, the network texts it sends, the punch epochs. -/
structure State where
  store : Store.State
  networkCIDR : String
  network6CIDR : String
  punchEpochs : PunchEpochs

/-- What handlers read of a request besides its body. -/
structure Request where
  remoteAddr : String
  forwardedFor : String
  authorization : String

/-- A request body, decoded or not. -/
inductive Body (Value : Type) where
  | decoded (value : Value)
  | tooLarge
  | malformed

/-- `proto.EnrollRequest`. -/
structure EnrollRequest where
  setupKey : String
  publicKey : String
  hostname : String
  listenPort : Int
  publicEndpoint : String
  candidates : List AgentCandidate
  advertiseExitNode : Bool

/-- `proto.EnrollResponse`. -/
structure EnrollResponse where
  peerID : Int
  assignedIP : String
  assignedIP6 : String
  networkCIDR : String
  network6CIDR : String
  dns : DNSConfig
  peers : List PeerConfigResponse
  acl : ACLPolicy
  gatewayRoutes : List String
  exitNodeActive : Bool
  authToken : String
  stunServers : List String
deriving DecidableEq

/-- `proto.ReportResponse`. -/
structure ReportResponse where
  assignedIP : String
  assignedIP6 : String
  networkCIDR : String
  network6CIDR : String
  dns : DNSConfig
  peers : List PeerConfigResponse
  acl : ACLPolicy
  gatewayRoutes : List String
  exitNodeActive : Bool
  stunServers : List String
deriving DecidableEq

/-- `createMobilePeerRequest`. -/
structure MobilePeerRequest where
  name : String
  publicKey : String
  privateKey : String
  gatewayPublicKey : String
  gatewayEndpoint : String

/-- `mobilePeerResponse`, without the rendered config and the warnings. -/
structure MobilePeerResponse where
  peer : PeerInfo
  privateKey : String
  presharedKey : String

/-- `networkMigrationRequest`. -/
structure NetworkMigrationRequest where
  networkCIDR : String
  network6CIDR : String
  confirm : String

/-- What a handler writes. -/
inductive Response where
  | error (status : Nat) (text : String)
  | enrolled (response : EnrollResponse)
  | report (response : ReportResponse)
  | mobilePeer (response : MobilePeerResponse)
  | migrated (plan : NetworkMigrationPlan)
  | admin (reply : Reply)

/-- A handler's computation, which ends early by raising its response. -/
abbrev HandlerM := Action State Response

variable {Value : Type}

/-- Replace the server's database. -/
def State.withDB (db : DB) (state : State) : State :=
  { state with store := { state.store with db } }

/-- Run a store operation on the server's database. -/
def onStore (action : StoreM Value) :
    HandlerM (Except StoreError Value) :=
  zoom (fun state => state.store.db) State.withDB action

/-- Run a store operation, or answer its error. -/
def storing (answer : StoreError → Response) (action : StoreM Value) :
    HandlerM Value := do
  let outcome ← onStore action
  match outcome with
  | .ok value => pure value
  | .error error => raise (answer error)

/-- The answer to an unexpected error. -/
def internalError (_ : StoreError) : Response :=
  .error 500 "internal error"

/-- The uniform answer to failed authentication. -/
def authError (error : StoreError) : Response :=
  if error.kind = .unauthorized then .error 401 "unauthorized"
  else .error 500 "internal error"

/-- Answer a bad request unless a check holds. -/
def require (check : Bool) (text : String) : HandlerM Unit :=
  if check then pure () else raise (.error 400 text)

/-- `decodeJSON`. -/
def decodeJSON (maxBytes : Int) (body : Body Value) : HandlerM Value :=
  match body with
  | .decoded value => pure value
  | .tooLarge =>
      raise
        (.error 413 ("request body exceeds " ++ decimal maxBytes ++ " bytes"))
  | .malformed => raise (.error 400 "invalid JSON")

/-- `Addr.Unmap`. -/
def unmap (addr : Addr) : Addr :=
  if addr.is4In6 then
    { family := .v4
      value := addr.value % 2 ^ 32
      zone := ""
      bounded := Nat.mod_lt _ (by decide) }
  else
    addr

/-- `trustsXFFFrom`. -/
def Config.trustsXFFFrom (config : Config) (remoteHost : String) : Bool :=
  config.trustProxy ||
    (parseAddr remoteHost).any
      (fun addr =>
        config.trustedProxies.any (fun proxy => proxy.contains (unmap addr)))

/-- `clientIP`: the rightmost forwarded address behind a trusted proxy. -/
def Config.clientIP (config : Config) (request : Request) : String :=
  match splitHostPort request.remoteAddr with
  | none => ""
  | some (host, _) =>
      if config.trustsXFFFrom host && request.forwardedFor != "" then
        trimSpace
          (String.ofList
            ((request.forwardedFor.toList.splitOn ',').getLast?.getD []))
      else
        host

/-- The arguments `handleEnroll` passes to `Enroll`. -/
def EnrollRequest.args (request : EnrollRequest) (observedIP : String) :
    EnrollArgs where
  setupKey := request.setupKey
  publicKey := request.publicKey
  hostname := request.hostname
  listenPort := request.listenPort
  observedIP := observedIP
  publicEndpoint := request.publicEndpoint

/-- A write after which the row shows it; its failure is only logged. -/
def tried (write : StoreM Unit) (peer shown : PeerRow) : HandlerM PeerRow := do
  let outcome ← onStore write
  pure
    (match outcome with
      | .ok _ => shown
      | .error _ => peer)

/-- Persist the enrollee's valid candidates. -/
def storeCandidates
    (config : Config)
    (candidates : List AgentCandidate)
    (peer : PeerRow) : HandlerM PeerRow :=
  let kept := validAgentCandidates config.resolves candidates
  if kept = [] then
    pure peer
  else
    tried (updatePeerCandidates peer.id kept) peer
      { peer with candidates := kept }

/-- Persist a changed exit-node offer. -/
def storeOffer (advertise : Bool) (peer : PeerRow) : HandlerM PeerRow :=
  if advertise = peer.advertiseExitNode then
    pure peer
  else
    tried (setAdvertiseExitNode peer.id advertise) peer
      { peer with advertiseExitNode := advertise }

/-- The response `buildResponse` puts together. -/
def enrollResponse
    (config : Config)
    (relay : Relay)
    (state : State)
    (result : EnrollResult)
    (dns : DNSConfig)
    (acl : ACLPolicy) : EnrollResponse where
  peerID := result.peer.id
  assignedIP := result.peer.assignedIP
  assignedIP6 := result.peer.assignedIP6
  networkCIDR := state.networkCIDR
  network6CIDR := state.network6CIDR
  dns := dns
  peers :=
    buildPeerEntries config relay state.punchEpochs result.peer result.others
  acl := acl
  gatewayRoutes := gatewayRoutesFor result.peer result.others
  exitNodeActive := exitNodeActiveFor result.peer result.others
  authToken := result.authToken
  stunServers := config.stunServers

/-- `buildResponse`. -/
def buildResponse
    (config : Config)
    (relay : Relay)
    (result : EnrollResult) : HandlerM Response := do
  let state ← peek id
  let dns ← storing internalError currentDNSConfig
  let acl ← storing internalError (buildACLPolicy config)
  pure (.enrolled (enrollResponse config relay state result dns acl))

/-- The checks of `handleEnroll` before it asks the store. -/
def checkEnrollRequest (request : EnrollRequest) : HandlerM Unit := do
  require (request.setupKey != "") "setup_key is required"
  require (parseKey request.publicKey).isSome
    "public_key is not a valid WireGuard key"
  require
    (decide (0 ≤ request.listenPort) && decide (request.listenPort ≤ 65535))
    "listen_port out of range"

/-- `handleEnroll`. -/
def handleEnroll
    (config : Config)
    (relay : Relay)
    (http : Request)
    (body : Body EnrollRequest)
    (now : Instant)
    (draw : Draw) : HandlerM Response := do
  let request ← decodeJSON 65536 body
  checkEnrollRequest request
  let view ← peek (fun state => state.store.view)
  let result ← storing authError
    (enroll config.store view (request.args (config.clientIP http)) now draw)
  let peer ← storeCandidates config request.candidates result.peer
  let peer ← storeOffer request.advertiseExitNode peer
  buildResponse config relay { result with peer }

/-- The clock readings of `handleReport`, in order. -/
structure ReportTimes where
  authenticated : Instant
  applied : Instant
  coordinated : Instant

/-- The token of an `Authorization` header. -/
def bearerToken (authorization : String) : HandlerM String :=
  match cutPrefix "Bearer " authorization with
  | some token => pure token
  | none => raise (.error 401 "unauthorized")

/-- Coordinate punches after a report; an error is only logged. -/
def coordinate
    (config : Config)
    (relay : Relay)
    (now : Instant)
    (self : PeerRow)
    (others : List PeerRow)
    (paths : List PeerPathState) : HandlerM Unit := do
  let epochs ← peek (fun state => state.punchEpochs)
  let outcome ← onStore
    (coordinatePunches config relay now self others paths epochs)
  match outcome with
  | .ok punchEpochs => adjust (fun state => { state with punchEpochs })
  | .error _ => pure ()

/-- The sync payload that answers an accepted report. -/
def reportResponse
    (config : Config)
    (relay : Relay)
    (state : State)
    (self : PeerRow)
    (others : List PeerRow)
    (dns : DNSConfig)
    (acl : ACLPolicy) : ReportResponse where
  assignedIP := self.assignedIP
  assignedIP6 := self.assignedIP6
  networkCIDR := state.networkCIDR
  network6CIDR := state.network6CIDR
  dns := dns
  peers := buildPeerEntries config relay state.punchEpochs self others
  acl := acl
  gatewayRoutes := gatewayRoutesFor self others
  exitNodeActive := exitNodeActiveFor self others
  stunServers := config.stunServers

/-- Assemble the answer to an accepted report. -/
def syncResponse
    (config : Config)
    (relay : Relay)
    (self : PeerRow)
    (others : List PeerRow) : HandlerM Response := do
  let state ← peek id
  let dns ← storing internalError currentDNSConfig
  let acl ← storing internalError (buildACLPolicy config)
  pure (.report (reportResponse config relay state self others dns acl))

/-- The report with only the candidates that pass the allowlist. -/
def Config.admitted (config : Config) (report : ReportRequest) :
    ReportRequest :=
  { report with
    candidates := validAgentCandidates config.resolves report.candidates }

/-- `handleReport`. -/
def handleReport
    (config : Config)
    (relay : Relay)
    (http : Request)
    (body : Body ReportRequest)
    (times : ReportTimes) : HandlerM Response := do
  let token ← bearerToken http.authorization
  let peer ← storing authError
    (authenticatePeer config.store token times.authenticated)
  let report ← decodeJSON 4194304 body
  storing internalError
    (applyReport peer.1 (config.clientIP http) (config.admitted report)
      times.applied)
  let visible ← storing internalError
    (peersForID peer.1 config.store.defaultAllow)
  coordinate config relay times.coordinated visible.1 visible.2
    report.pathStates
  syncResponse config relay visible.1 visible.2

/-- The key material of a mobile peer. -/
structure MobileKeys where
  privateKey : Key
  publicKey : String
  generated : Bool

/-- `parseMobileKeys`, given what the key generator would return. -/
def parseMobileKeys
    (config : Config)
    (rawPrivate rawPublic : String)
    (fresh : Except String Key) : HandlerM MobileKeys :=
  let rawPrivate := trimSpace rawPrivate
  let rawPublic := trimSpace rawPublic
  if rawPrivate = "" then
    if rawPublic = "" then
      match fresh with
      | .ok key => pure ⟨key, (config.publicKeyOf key).text, true⟩
      | .error _ => raise (.error 500 "internal error")
    else if (parseKey rawPublic).isNone then
      raise (.error 400 "public_key must be a WireGuard public key")
    else
      raise
        (.error 400
          ("private_key is required when public_key is supplied so an " ++
            "importable mobile config can be returned"))
  else
    match parseKey rawPrivate with
    | none =>
        raise (.error 400 "private_key must be a WireGuard private key")
    | some key =>
        let derived := (config.publicKeyOf key).text
        if rawPublic ≠ "" ∧ rawPublic ≠ derived then
          raise (.error 400 "public_key does not match private_key")
        else
          pure ⟨key, derived, false⟩

/-- `strconv.Atoi`, up to its bounds. -/
def atoi (text : String) : Option Int :=
  match text.toList with
  | '-' :: digits => (readNumber? 10 digits).map (fun number => -number)
  | '+' :: digits => (readNumber? 10 digits).map (fun number => number)
  | digits => (readNumber? 10 digits).map (fun number => number)

/-- A printed integer is read back. -/
theorem atoi_decimal
    (number : Int) :
    atoi (decimal number) = some number := by
  have read : ∀ value, readNumber? 10 (Nat.toDigits 10 value) = some value :=
    readNumber?_toDigits (by decide) (by decide)
  unfold atoi
  rw [decimal, String.toList_ofList]
  by_cases negative : number < 0
  · have sign : -(number.natAbs : Int) = number := by omega
    rw [if_pos negative]
    simp only [read]
    exact congrArg some sign
  · rw [if_neg negative]
    have noSign : '-' ∉ Nat.toDigits 10 number.natAbs :=
      not_mem_toDigits (by decide) (by decide) (by decide)
    have noPlus : '+' ∉ Nat.toDigits 10 number.natAbs :=
      not_mem_toDigits (by decide) (by decide) (by decide)
    split
    · rename_i digits shape
      rw [shape] at noSign
      simp at noSign
    · rename_i digits shape
      rw [shape] at noPlus
      simp at noPlus
    · have size : (number.natAbs : Int) = number := by omega
      simp only [read]
      exact congrArg some size

/-- `validateMobileEndpoint`. -/
def validateMobileEndpoint (endpoint : String) : HandlerM Unit :=
  let endpoint := trimSpace endpoint
  if endpoint = "" then
    raise (.error 400 "gateway_endpoint is required")
  else
    match splitHostPort endpoint with
    | none =>
        raise
          (.error 400
            ("gateway_endpoint must be host:port, with IPv6 hosts in " ++
              "brackets"))
    | some (host, portRaw) => do
        require (trimSpace host != "") "gateway_endpoint host is required"
        require
          ((atoi portRaw).any
            (fun port => decide (1 ≤ port) && decide (port ≤ 65535)))
          "gateway_endpoint port must be between 1 and 65535"

/-- The gateway of a mobile peer: an active agent with the given key. -/
def mobileGateway (publicKey : String) : HandlerM PeerInfo := do
  let peers ← storing internalError listPeers
  match peers.find?
      (fun peer => peer.publicKey == publicKey && peer.revokedAt == "") with
  | none =>
      raise (.error 400 "gateway_public_key must match an active peer")
  | some gateway =>
      if gateway.peerType = .agent then
        pure gateway
      else
        raise
          (.error 400
            ("gateway_public_key must be a wgmesh agent, not a " ++
              "static/mobile peer"))

/-- Seal a generated private key; a supplied one is not stored. -/
def sealGenerated (config : Config) (keys : MobileKeys) : HandlerM String :=
  if keys.generated then
    match config.sealDeviceKey keys.publicKey keys.privateKey.text with
    | .ok sealed => pure sealed
    | .error _ => raise (.error 500 "internal error")
  else
    pure ""

/-- The answer to a refused static peer. -/
def staticPeerError (error : StoreError) : Response :=
  if error.kind = .peerExists then .error 409 error.text
  else .error 400 error.text

/-- `handleCreateMobilePeer`. -/
def handleCreateMobilePeer
    (config : Config)
    (body : Body MobilePeerRequest)
    (fresh : Except String Key)
    (now : Instant)
    (keyDraw tokenDraw : Draw) : HandlerM Response := do
  let request ← decodeJSON 65536 body
  let keys ← parseMobileKeys config request.privateKey request.publicKey
    fresh
  require (parseKey (trimSpace request.gatewayPublicKey)).isSome
    "gateway_public_key must be a WireGuard public key"
  validateMobileEndpoint request.gatewayEndpoint
  let gateway ← mobileGateway (trimSpace request.gatewayPublicKey)
  let privateKeyEnc ← sealGenerated config keys
  let view ← peek (fun state => state.store.view)
  let peer ← storing staticPeerError
    (createStaticPeer config.store view
      { publicKey := keys.publicKey
        hostname := request.name
        gatewayPeerID := gateway.id
        privateKeyEnc
        gatewayEndpoint := trimSpace request.gatewayEndpoint }
      now keyDraw tokenDraw)
  let _ ← storing internalError currentDNSConfig
  pure
    (.mobilePeer
      { peer
        privateKey := keys.privateKey.text
        presharedKey :=
          (derivePairKey config.hkdf keys.publicKey gateway.publicKey).text })

/-- `parseNetwork4` and `parseNetwork6`; the parser's texts are left out. -/
def parseNetwork (flag kind : String) (family : Family) (raw : String) :
    HandlerM Prefix :=
  match parsePrefix raw with
  | none =>
      raise (.error 400 ("parse " ++ flag ++ " \"" ++ raw ++ "\""))
  | some network =>
      if network.addr.family = family then
        pure network.masked
      else
        raise
          (.error 400
            ("--" ++ flag ++ " must be an " ++ kind ++ " CIDR, got \"" ++
              raw ++ "\""))

/-- `handleApplyNetworkMigration`. -/
def handleApplyNetworkMigration
    (body : Body NetworkMigrationRequest) : HandlerM Response := do
  let request ← decodeJSON 65536 body
  require (request.confirm == "REASSIGN OVERLAY NETWORK")
    "confirm must be \"REASSIGN OVERLAY NETWORK\""
  let target4 ← parseNetwork "network" "IPv4" .v4 request.networkCIDR
  let target6 ← parseNetwork "network6" "IPv6" .v6 request.network6CIDR
  let view ← peek (fun state => state.store.view)
  let plan ← storing (fun error => .error 400 error.text)
    (applyNetworkMigration
      (networkConfig (some view.network4) view.network6) target4 target6)
  adjust (fun state =>
    { state with
      store := state.store.setNetworks target4.masked target6.masked
      networkCIDR := plan.target.networkCIDR
      network6CIDR := plan.target.networkCIDR6 })
  pure (.migrated plan)

/-- The operations that admin handlers pass on to the store. -/
def isAdmin : Op → Bool
  | .createSetupKey _ _ _ _ _ | .revokeSetupKey _ _
  | .updatePeerAddress _ _ _ | .updateDNSConfig _
  | .revokePeer _ _ | .removePeer _ | .setExitNode _ _
  | .createACLRule _ | .importACLRules _ _ | .deleteACLRule _ => true
  | _ => false

/-- An operation of an admin handler. -/
structure AdminOp where
  op : Op
  admin : isAdmin op = true

/-- An admin handler: pass the operation on; statuses are left out. -/
def handleAdmin (config : Config) (op : Op) : HandlerM Response := do
  let view ← peek (fun state => state.store.view)
  let reply ← storing (fun error => .error 400 error.text)
    (perform config.store view op)
  pure (.admin reply)

/-- A request to the control plane, with clocks, draws and observations. -/
inductive Call where
  | enroll (http : Request) (body : Body EnrollRequest) (relay : Relay)
      (now : Instant) (draw : Draw)
  | report (http : Request) (body : Body ReportRequest) (relay : Relay)
      (times : ReportTimes)
  | createMobilePeer (body : Body MobilePeerRequest)
      (fresh : Except String Key) (now : Instant) (keyDraw tokenDraw : Draw)
  | applyNetworkMigration (body : Body NetworkMigrationRequest)
  | admin (op : AdminOp)

/-- A request together with the driver's answers while it is handled. -/
structure Input where
  call : Call
  answers : List (Option String)

/-- The handler of a request. -/
def handle (config : Config) : Call → HandlerM Response
  | .enroll http body relay now draw =>
      handleEnroll config relay http body now draw
  | .report http body relay times =>
      handleReport config relay http body times
  | .createMobilePeer body fresh now keyDraw tokenDraw =>
      handleCreateMobilePeer config body fresh now keyDraw tokenDraw
  | .applyNetworkMigration body => handleApplyNetworkMigration body
  | .admin op => handleAdmin config op.op

/-- What is written: the raised response or the final one. -/
def written : Except Response Response → Response
  | .ok response => response
  | .error response => response

/-- The control plane, one request at a time. -/
def machine (config : Config) : Machine State Input Response where
  step state input :=
    let ended := handle config input.call ⟨state, input.answers⟩
    (written ended.1, ended.2.data)

/-- A configuration for concrete runs; every name resolves. -/
def Config.sample (defaultAllow : Bool) : Config where
  store := .sample defaultAllow
  keepalive := 0
  hkdf := fun _ => zeroKey
  digest := fun text => text
  resolves := fun _ => true
  publicKeyOf := fun key => key
  sealDeviceKey := fun _ key => .ok key
  stunServers := []
  trustProxy := false
  trustedProxies := []

/-- A setup key for concrete runs. -/
def sampleSetupKey : Op := .createSetupKey "" 5 0 0 (.ok "key")

theorem isAdmin_sampleSetupKey : isAdmin sampleSetupKey = true := rfl

/-- A server that was just started on a new store. -/
def State.fresh : State where
  store := .fresh
  networkCIDR := defaultNetwork.text
  network6CIDR := defaultNetwork6.text
  punchEpochs := fun _ => {}

end WgMesh.Server
