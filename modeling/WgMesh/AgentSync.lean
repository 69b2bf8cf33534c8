import WgMesh.ServerHandlers

namespace WgMesh.Agent

/-!
# Applying a sync payload

What an agent does with the peer entries of a report response: each entry is
converted to a device configuration, one bad entry stops the whole sync, and
the device's peers are reconciled with the result.  Errors keep their texts up
to the wrapped error of the parser.
-/

open NetAddress PairKeys Server TextScan

/-- The number `dtoi` reads of a whole text. -/
def dtoi (text : List Char) : Option Nat :=
  readNumber? 10 text

/-- `net.ParseCIDR`: the network of the prefix. -/
def parseCIDR (text : String) : Option Prefix :=
  match text.toList.span (· != '/') with
  | (_, []) => none
  | (address, _ :: mask) => do
      let addr ← parseAddr (String.ofList address)
      let count ← dtoi mask
      (prefixOf? addr count).map Prefix.masked

/-- `wgtypes.PeerConfig`; the keepalive interval is in seconds. -/
structure PeerConfig where
  publicKey : Key
  endpoint : Option AddrPort
  presharedKey : Option Key
  allowedIPs : List Prefix
  persistentKeepaliveInterval : Option Int
  remove : Bool := false
  updateOnly : Bool := false
  replaceAllowedIPs : Bool := false
deriving DecidableEq

/-- The endpoint that is configured: the first candidate, or the hint. -/
def firstEndpoint (p : PeerConfigResponse) : String :=
  match p.endpointCandidates with
  | candidate :: _ => candidate.endpoint
  | [] => p.endpoint.getD ""

/-- Resolve an endpoint that is not empty. -/
def resolveEndpoint (resolve : String → Option AddrPort) (endpoint : String) :
    Except String (Option AddrPort) :=
  if endpoint = "" then
    .ok none
  else
    match resolve endpoint with
    | some addr => .ok (some addr)
    | none => .error ("resolve endpoint \"" ++ endpoint ++ "\"")

/-- The loop over the allowed prefixes. -/
def parseAllowed : List String → Except String (List Prefix)
  | [] => .ok []
  | cidr :: rest =>
      match parseCIDR cidr with
      | none => .error ("parse allowed CIDR \"" ++ cidr ++ "\"")
      | some network => (parseAllowed rest).map (network :: ·)

/-- The preshared key of an entry, when it has one. -/
def parsePresharedKey : Option String → Except String (Option Key)
  | none => .ok none
  | some text =>
      match parseKey text with
      | some key => .ok (some key)
      | none => .error "parse preshared key"

/-- `peerConfigFromProto`. -/
def peerConfigFromProto
    (resolve : String → Option AddrPort)
    (p : PeerConfigResponse) : Except String PeerConfig :=
  match parseKey p.publicKey with
  | none => .error ("parse peer public key \"" ++ p.publicKey ++ "\"")
  | some publicKey => do
      let endpoint ← resolveEndpoint resolve (firstEndpoint p)
      let allowedIPs ← parseAllowed p.allowedIPs
      let presharedKey ← parsePresharedKey p.presharedKey
      .ok
        { publicKey
          endpoint
          presharedKey
          allowedIPs
          persistentKeepaliveInterval := p.persistentKeepaliveInterval }

/-- The loop of `applySync` over the entries; the first bad one ends it. -/
def desiredPeers (resolve : String → Option AddrPort) :
    List PeerConfigResponse → Except String (List PeerConfig)
  | [] => .ok []
  | entry :: rest =>
      match peerConfigFromProto resolve entry with
      | .error text => .error text
      | .ok config => (desiredPeers resolve rest).map (config :: ·)

/-- What `applySync` hands on, in order: to `syncPeers`, `applyOverlayACL`,
`applyGatewayRoutes`, `applyExitRoutes` and `applyExitNodeNAT`. -/
structure Applied where
  desired : List PeerConfig
  acl : ACLPolicy
  gatewayRoutes : List String
  exitPeer : Bool
  exitNodeActive : Bool

/-- `applySync`, given the outcome of `applySelfAssignment`. -/
def applySync
    (resolve : String → Option AddrPort)
    (selfAssignment : Except String Unit)
    (sync : ReportResponse) : Except String Applied := do
  selfAssignment
  let desired ← desiredPeers resolve sync.peers
  .ok
    { desired
      acl := sync.acl
      gatewayRoutes := sync.gatewayRoutes
      exitPeer := sync.peers.any (·.exitNode)
      exitNodeActive := sync.exitNodeActive }

/-- `wgtypes.Peer`; only whether a handshake took place is kept of it. -/
structure DevicePeer where
  publicKey : Key
  presharedKey : Key
  endpoint : Option AddrPort
  handshaken : Bool
  allowedIPs : List Prefix
  persistentKeepaliveInterval : Int
deriving DecidableEq

/-- `sameAllowedIPs`: the printed prefixes agree as multisets. -/
def sameAllowedIPs (a b : List Prefix) : Bool :=
  let sorted (networks : List Prefix) : List String :=
    (networks.map (·.text)).insertionSort
      (fun first second => textLess second first = false)
  a.length == b.length &&
    String.intercalate "," (sorted a) == String.intercalate "," (sorted b)

/-- `peerNeedsUpdate`. -/
def peerNeedsUpdate (cur : DevicePeer) (want : PeerConfig) : Bool :=
  !sameAllowedIPs cur.allowedIPs want.allowedIPs ||
    cur.presharedKey != want.presharedKey.getD zeroKey ||
    want.persistentKeepaliveInterval.any
      (fun keepalive => cur.persistentKeepaliveInterval != keepalive)

/-- The hint differs and no handshake has let roaming own the endpoint. -/
def endpointStale (cur : DevicePeer) (want : PeerConfig) : Bool :=
  !cur.handshaken && want.endpoint.isSome &&
    cur.endpoint.map (·.text) != want.endpoint.map (·.text)

/-- What changes for one desired peer, if anything. -/
def syncChange (cur : Option DevicePeer) (want : PeerConfig) :
    Option PeerConfig :=
  match cur with
  | none => some want
  | some cur =>
      if !peerNeedsUpdate cur want && !endpointStale cur want then
        none
      else
        some
          { want with
            updateOnly := true
            replaceAllowedIPs := true
            endpoint :=
              if endpointStale cur want then want.endpoint else none }

/-- The removal of a peer from the device. -/
def removal (key : Key) : PeerConfig where
  publicKey := key
  endpoint := none
  presharedKey := none
  allowedIPs := []
  persistentKeepaliveInterval := none
  remove := true

/-- `desiredByKey`: a later entry of one key replaces an earlier one. -/
def desiredByKey (desired : List PeerConfig) (key : Key) :
    Option PeerConfig :=
  desired.reverse.find? (·.publicKey == key)

/-- `current`: the device's peers by their keys. -/
def currentByKey (device : List DevicePeer) (key : Key) :
    Option DevicePeer :=
  device.reverse.find? (·.publicKey == key)

/-- `syncPeers`: the changes for the device, in one order of its maps. -/
def syncPeers (device : List DevicePeer) (desired : List PeerConfig) :
    List PeerConfig :=
  (((device.map (·.publicKey)).eraseDups.filter
      (fun key => (desiredByKey desired key).isNone)).map removal) ++
    (desired.map (·.publicKey)).eraseDups.filterMap
      (fun key =>
        (desiredByKey desired key).bind
          (syncChange (currentByKey device key)))

/-- A zone-free address with a bit count is cut at the slash. -/
theorem span_addressText
    {addr : Addr}
    (zoneFree : addr.zone = "")
    (bits : Nat) :
    (addr.text ++ "/" ++ String.ofList (Nat.toDigits 10 bits)).toList.span
        (· != '/') =
      (addr.text.toList, '/' :: Nat.toDigits 10 bits) := by
  have noSlash : '/' ∉ addr.text.toList := by
    intro member
    rcases Addr.digit_of_mem_text zoneFree member with same | same | digit
    · exact absurd same (by decide)
    · exact absurd same (by decide)
    · exact absurd digit (by decide)
  have shape :
      (addr.text ++ "/" ++ String.ofList (Nat.toDigits 10 bits)).toList =
        addr.text.toList ++ '/' :: Nat.toDigits 10 bits := by
    simp
  rw [shape]
  exact span_ne_append noSlash _

theorem parseCIDR_text
    {network : Prefix}
    (zoneFree : network.addr.zone = "") :
    parseCIDR network.text = some network.masked := by
  unfold parseCIDR Prefix.text
  rw [span_addressText zoneFree]
  simp [parseAddr_text zoneFree, dtoi, readNumber?_toDigits,
    prefixOf?_self zoneFree]

/-- What `peerConfigFromProto` asks of an entry. -/
structure Acceptable
    (resolve : String → Option AddrPort)
    (p : PeerConfigResponse) : Prop where
  publicKey : (parseKey p.publicKey).isSome = true
  endpoint :
    firstEndpoint p = "" ∨ (resolve (firstEndpoint p)).isSome = true
  allowedIPs :
    ∀ cidr ∈ p.allowedIPs, (parseCIDR cidr).isSome = true
  presharedKey :
    ∀ text, p.presharedKey = some text → (parseKey text).isSome = true

/-- All prefixes parse, or the loop reports one that does not. -/
theorem parseAllowed_ok
    {cidrs : List String}
    (valid : ∀ cidr ∈ cidrs, (parseCIDR cidr).isSome = true) :
    ∃ networks, parseAllowed cidrs = .ok networks := by
  induction cidrs with
  | nil => exact ⟨[], rfl⟩
  | cons cidr rest inductionHypothesis =>
      obtain ⟨network, parsed⟩ :=
        Option.isSome_iff_exists.mp (valid cidr List.mem_cons_self)
      obtain ⟨networks, restParsed⟩ :=
        inductionHypothesis
          (fun other member => valid other (List.mem_cons_of_mem _ member))
      exact ⟨network :: networks, by simp [parseAllowed, parsed, restParsed,
        Except.map]⟩

variable {resolve : String → Option AddrPort}

/-- An acceptable entry is converted, under its parsed key. -/
theorem peerConfigFromProto_ok
    {p : PeerConfigResponse}
    (acceptable : Acceptable resolve p) :
    ∃ config, peerConfigFromProto resolve p = .ok config ∧
      parseKey p.publicKey = some config.publicKey := by
  obtain ⟨publicKey, parsedKey⟩ :=
    Option.isSome_iff_exists.mp acceptable.publicKey
  obtain ⟨networks, allowed⟩ := parseAllowed_ok acceptable.allowedIPs
  have resolved :
      ∃ endpoint,
        resolveEndpoint resolve (firstEndpoint p) = .ok endpoint := by
    unfold resolveEndpoint
    split
    · exact ⟨none, rfl⟩
    · rename_i nonempty
      obtain ⟨addr, found⟩ :=
        Option.isSome_iff_exists.mp
          (acceptable.endpoint.resolve_left nonempty)
      exact ⟨some addr, by rw [found]⟩
  have preshared :
      ∃ key, parsePresharedKey p.presharedKey = .ok key := by
    cases given : p.presharedKey with
    | none => exact ⟨none, rfl⟩
    | some text =>
        obtain ⟨key, parsed⟩ :=
          Option.isSome_iff_exists.mp (acceptable.presharedKey text given)
        exact ⟨some key, by simp [parsePresharedKey, parsed]⟩
  obtain ⟨endpoint, resolved⟩ := resolved
  obtain ⟨presharedKey, preshared⟩ := preshared
  refine
    ⟨{ publicKey
       endpoint
       presharedKey
       allowedIPs := networks
       persistentKeepaliveInterval := p.persistentKeepaliveInterval },
      ?_, parsedKey⟩
  simp only [peerConfigFromProto, parsedKey, resolved, allowed, preshared]
  rfl

/-- Acceptable entries are all converted, each under its parsed key. -/
theorem desiredPeers_ok
    {entries : List PeerConfigResponse}
    (acceptable : ∀ entry ∈ entries, Acceptable resolve entry) :
    ∃ desired, desiredPeers resolve entries = .ok desired ∧
      entries.map (fun entry => parseKey entry.publicKey) =
        desired.map (fun config => some config.publicKey) := by
  induction entries with
  | nil => exact ⟨[], rfl, rfl⟩
  | cons entry rest inductionHypothesis =>
      obtain ⟨config, converted, sameKey⟩ :=
        peerConfigFromProto_ok (acceptable entry List.mem_cons_self)
      obtain ⟨desired, restConverted, restKeys⟩ :=
        inductionHypothesis
          (fun other member =>
            acceptable other (List.mem_cons_of_mem _ member))
      refine ⟨config :: desired, ?_, ?_⟩
      · simp only [desiredPeers, converted, restConverted]
        rfl
      · rw [List.map_cons, List.map_cons, sameKey, restKeys]

/-- A converted entry is configured under its parsed key. -/
theorem peerConfigFromProto_key
    {p : PeerConfigResponse}
    {config : PeerConfig}
    (converted : peerConfigFromProto resolve p = .ok config) :
    parseKey p.publicKey = some config.publicKey := by
  unfold peerConfigFromProto at converted
  split at converted
  · cases converted
  · rename_i publicKey parsed
    rw [parsed]
    cases endpoint : resolveEndpoint resolve (firstEndpoint p) with
    | error text =>
        rw [endpoint] at converted
        cases converted
    | ok addr =>
        cases allowed : parseAllowed p.allowedIPs with
        | error text =>
            rw [endpoint, allowed] at converted
            cases converted
        | ok networks =>
            cases preshared : parsePresharedKey p.presharedKey with
            | error text =>
                rw [endpoint, allowed, preshared] at converted
                cases converted
            | ok key =>
                rw [endpoint, allowed, preshared] at converted
                cases converted
                rfl

/-- Converted entries are configured under their parsed keys, in order. -/
theorem desiredPeers_keys
    {entries : List PeerConfigResponse}
    {desired : List PeerConfig}
    (converted : desiredPeers resolve entries = .ok desired) :
    entries.map (fun entry => parseKey entry.publicKey) =
      desired.map (fun config => some config.publicKey) := by
  induction entries generalizing desired with
  | nil =>
      cases converted
      rfl
  | cons entry rest inductionHypothesis =>
      unfold desiredPeers at converted
      split at converted
      · cases converted
      · rename_i config first
        cases others : desiredPeers resolve rest with
        | error text =>
            rw [others] at converted
            cases converted
        | ok later =>
            rw [others] at converted
            cases converted
            rw [List.map_cons, List.map_cons, peerConfigFromProto_key first,
              inductionHypothesis others]

/-- With distinct keys, `syncPeers` configures each peer by itself. -/
theorem desiredByKey_eq
    {desired : List PeerConfig}
    (distinct : (desired.map (·.publicKey)).Nodup)
    {want : PeerConfig}
    (member : want ∈ desired) :
    desiredByKey desired want.publicKey = some want := by
  unfold desiredByKey
  cases found :
      desired.reverse.find? (·.publicKey == want.publicKey) with
  | none =>
      have absent :=
        List.find?_eq_none.mp found want (List.mem_reverse.mpr member)
      simp at absent
  | some other =>
      have sameKey := List.find?_some found
      simp only [beq_iff_eq] at sameKey
      have otherMember :=
        List.mem_reverse.mp (List.mem_of_find?_eq_some found)
      rw [List.inj_on_of_nodup_map distinct otherMember member sameKey]

/-- With acceptable entries, a sync is applied in full. -/
theorem applySync_ok
    {sync : ReportResponse}
    (acceptable : ∀ entry ∈ sync.peers, Acceptable resolve entry) :
    ∃ applied, applySync resolve (.ok ()) sync = .ok applied ∧
      desiredPeers resolve sync.peers = .ok applied.desired ∧
      applied.acl = sync.acl := by
  obtain ⟨desired, converted, -⟩ := desiredPeers_ok acceptable
  have applies :
      applySync resolve (.ok ()) sync =
        .ok
          { desired
            acl := sync.acl
            gatewayRoutes := sync.gatewayRoutes
            exitPeer := sync.peers.any (·.exitNode)
            exitNodeActive := sync.exitNodeActive } := by
    simp only [applySync, converted]
    rfl
  exact ⟨_, applies, converted, rfl⟩

end WgMesh.Agent
