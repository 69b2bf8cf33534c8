import WgMesh.AllowedRoutes

namespace WgMesh

/-!
# Showing a device its configuration again

The configuration of a static peer is generated when the peer is created and
again whenever an admin asks for it.  The gateway learns the same peer from its
reports.  The two agree on the keys and the addresses, as they read the same
rows.  What the server checks is the peer: that it is not revoked and has a
gateway.  It does not check whether the gateway is revoked, and a revoked
gateway no longer reports.
-/

namespace Store

open CivilTime FiniteRuns RowTables TextScan Transactions

/-- `SealedPrivateKey`; nothing stands for `ErrNoStoredConfig`. -/
def sealedPrivateKey (peerID : Int) : StoreM (Option String) := do
  let found ← select ("look up sealed key for peer " ++ decimal peerID)
    (fun tables => tables.peerWithID? peerID)
  match found with
  | none => pure none
  | some row =>
      if row.peerType = .static ∧ orEmpty row.privateKeyEnc ≠ "" then
        pure row.privateKeyEnc
      else
        pure none

theorem readOnly_sealedPrivateKey
    (peerID : Int) :
    ReadOnly (sealedPrivateKey peerID) := by
  refine (readOnly_select _ _).bind fun found => ?_
  split
  · exact readOnly_pure _
  · split
    · exact readOnly_pure _
    · exact readOnly_pure _

/-- Gateways are agents, and revoked peers have a date of it. -/
structure DB.Routed (db : DB) : Prop where
  agent :
    ∀ row node, row ∈ db.tables.peers → node ∈ db.tables.peers →
      row.gatewayPeerID = some node.id → node.peerType = .agent
  dated : ∀ row ∈ db.tables.peers, row.revokedAt ≠ some ""

theorem format_ne_empty
    (now : Instant) :
    format now ≠ "" := by
  intro empty
  have noChars := congrArg String.toList empty
  simp [format] at noChars

section Origins

variable
  {config : Config}
  {view : NetworkView}
  {before after : DB}
  {op : Op}
  {reply : Reply}
  {row : PeerRecord}

/-- Where the gateway of a peer comes from. -/
theorem RowOrigin.gateway_origin
    (origin : RowOrigin config view before after op reply row)
    {id : Int}
    (routed : row.gatewayPeerID = some id) :
    (∃ old ∈ before.tables.peers, old.gatewayPeerID = some id) ∨
      ∃ gateway ∈ before.tables.peers, gateway.id = id ∧
        gateway.peerType = .agent := by
  cases origin with
  | kept member => exact Or.inl ⟨_, member, routed⟩
  | refreshed member _ => exact Or.inl ⟨_, member, routed⟩
  | enrolled _ => cases routed
  | static done =>
      cases routed
      obtain ⟨gateway, found, -, agent⟩ := done.gateway
      obtain ⟨member, isID⟩ := mem_of_rowWith? found
      exact Or.inr ⟨gateway, member, isID, agent⟩
  | readdressed member _ _ => exact Or.inl ⟨_, member, routed⟩
  | moved member _ _ => exact Or.inl ⟨_, member, routed⟩
  | revoked member _ => exact Or.inl ⟨_, member, routed⟩
  | cleared member _ =>
      exact Or.inl ⟨_, member, clearReference_eq_some routed⟩
  | candidates member _ => exact Or.inl ⟨_, member, routed⟩
  | offer member _ => exact Or.inl ⟨_, member, routed⟩
  | exit member _ => exact Or.inl ⟨_, member, routed⟩
  | reported member _ => exact Or.inl ⟨_, member, routed⟩

/-- Revoked peers have a date after an operation. -/
theorem RowOrigin.dated
    (origin : RowOrigin config view before after op reply row)
    (dated : ∀ old ∈ before.tables.peers, old.revokedAt ≠ some "") :
    row.revokedAt ≠ some "" := by
  intro empty
  cases origin with
  | kept member => exact dated _ member empty
  | refreshed member _ => exact dated _ member empty
  | enrolled _ => cases empty
  | static _ => cases empty
  | readdressed member _ _ => exact dated _ member empty
  | moved member _ _ => exact dated _ member empty
  | @revoked _ now _ member _ =>
      exact format_ne_empty now (Option.some.inj empty)
  | cleared member _ => exact dated _ member empty
  | candidates member _ => exact dated _ member empty
  | offer member _ => exact dated _ member empty
  | exit member _ => exact dated _ member empty
  | reported member _ => exact dated _ member empty

/-- Every operation keeps gateways among the agents. -/
theorem Effect.routed
    (effect : Effect config view before after op reply)
    (routed : before.Routed) :
    after.Routed := by
  constructor
  · intro row node member nodeMember isGateway
    have known :
        ∃ old ∈ before.tables.peers, old.id = node.id ∧
          old.peerType = .agent := by
      rcases (effect.origin member).gateway_origin isGateway with
        ⟨old, oldMember, oldGateway⟩ | accepted
      · obtain ⟨gateway, gatewayMember, isID⟩ :=
          List.mem_map.mp
            (before.legal.peerGateway old oldMember _ oldGateway)
        refine ⟨gateway, gatewayMember, isID, ?_⟩
        exact routed.agent old gateway oldMember gatewayMember
          (isID ▸ oldGateway)
      · exact accepted
    obtain ⟨gateway, gatewayMember, sameID, agent⟩ := known
    obtain ⟨old, oldMember, continued⟩ :=
      effect.continues_of_known nodeMember
        (List.mem_map.mpr ⟨gateway, gatewayMember, sameID⟩)
    have isGateway : old = gateway :=
      before.eq_of_peerID oldMember gatewayMember
        (continued.id.symm.trans sameID.symm)
    rw [continued.peerType, isGateway]
    exact agent
  · intro row member
    exact (effect.origin member).dated routed.dated

end Origins

/-- Gateways are agents in every reachable store. -/
theorem routed_run
    (config : Config)
    (network : NetAddress.Prefix)
    (network6 : Option NetAddress.Prefix)
    (inputs : List Input) :
    ((machine config).run (.empty network network6) inputs).db.Routed := by
  refine @Machine.run_invariant _ _ _ (machine config)
    (fun state => state.db.Routed) ?_ _ ?_ inputs
  · intro state input routed
    rcases step_cases config state input with
      ⟨error, same⟩ | ⟨reply, after, shape, effect⟩
    · rw [same]
      exact routed
    · rw [shape, remember_db]
      exact effect.routed routed
  · constructor
    · intro row node member
      cases member
    · intro row member
      cases member

end Store

namespace Server

open NetAddress PairKeys RowTables Store TextScan Transactions

/-- `strconv.ParseInt` with base 10 and 64 bits. -/
def parseInt64 (text : String) : Option Int :=
  (atoi text).filter fun number =>
    decide (-9223372036854775808 ≤ number) &&
      decide (number ≤ 9223372036854775807)

/-- What `mobileWireGuardConfig` writes; nameservers are written if there are
any. -/
structure MobileConfig where
  privateKey : String
  addresses : List String
  nameservers : List String
  peerPublicKey : String
  presharedKey : String
  endpoint : String
  allowedIPs : List String
  persistentKeepalive : Int
deriving DecidableEq

/-- `mobileWireGuardConfig`. -/
def mobileWireGuardConfig
    (config : Config)
    (networkCIDR network6CIDR : String)
    (peer : PeerInfo)
    (privateKey gatewayPublicKey pairPSK endpoint : String)
    (dns : DNSConfig) : MobileConfig where
  privateKey := privateKey
  addresses :=
    (peer.assignedIP ++ "/32") ::
      (if peer.assignedIP6 ≠ "" then [peer.assignedIP6 ++ "/128"] else [])
  nameservers := if dns.enabled then dns.nameservers else []
  peerPublicKey := gatewayPublicKey
  presharedKey := pairPSK
  endpoint := trimSpace endpoint
  allowedIPs :=
    networkCIDR :: (if network6CIDR ≠ "" then [network6CIDR] else [])
  persistentKeepalive := config.keepaliveOrDefault

/-- The answer of `handleStaticPeerConfig` with status 200, without the
warnings; the configuration is given by what is written into its text. -/
structure StaticPeerConfigResponse where
  peer : PeerInfo
  config : MobileConfig
  presharedKey : String

/-- The answer when a peer cannot be looked up. -/
def peerLookupError (error : StoreError) : Response :=
  if error.kind = .notFound then .error 404 "peer not found"
  else .error 500 "internal error"

/-- Answer with a status unless a check holds. -/
def demand (check : Bool) (status : Nat) (text : String) : HandlerM Unit :=
  if check then pure () else raise (.error status text)

/-- A value that must be there. -/
def expecting {Value : Type} (found : Option Value) (status : Nat)
    (text : String) : HandlerM Value :=
  match found with
  | some value => pure value
  | none => raise (.error status text)

/-- `handleStaticPeerConfig`, given how a sealed device key is opened. -/
def handleStaticPeerConfig
    (config : Config)
    (openDeviceKey : String → String → Option String)
    (rawID : String) : HandlerM StaticPeerConfigResponse := do
  let id ← expecting (parseInt64 rawID) 400 "invalid id"
  let peer ← storing peerLookupError (Store.peer id)
  demand (peer.peerType == .static) 400
    "peer is a wgmesh agent, not a static WireGuard device"
  demand (peer.revokedAt == "") 409
    "peer is revoked; its config would not connect"
  demand (peer.gatewayPeerID != 0) 409
    "peer has no gateway; its gateway agent was removed"
  let stored ← storing internalError (sealedPrivateKey id)
  let sealed ← expecting stored 409
    ("no stored key for this peer: it predates config storage, or its " ++
      "private key was supplied by the operator")
  let privateKey ← expecting (openDeviceKey peer.publicKey sealed) 409
    ("stored key cannot be decrypted; the network preshared key file may " ++
      "have changed since this peer was created")
  let gateway ← storing internalError (Store.peer peer.gatewayPeerID)
  let dns ← storing internalError currentDNSConfig
  let state ← peek fun state => state
  let pairKey :=
    (derivePairKey config.hkdf peer.publicKey gateway.publicKey).text
  pure
    { peer
      config :=
        mobileWireGuardConfig config state.networkCIDR state.network6CIDR peer
          privateKey gateway.publicKey pairKey peer.gatewayEndpoint dns
      presharedKey := pairKey }

section Reshown

variable
  {config : Config}
  {openDeviceKey : String → String → Option String}
  {rawID : String}
  {before after : State}
  {response : StaticPeerConfigResponse}

theorem demand_ok
    {check : Bool}
    {status : Nat}
    {text : String}
    (run : Runs (demand check status text) before (.ok ()) after) :
    check = true ∧ after = before := by
  unfold demand at run
  split at run
  · rename_i holds
    exact ⟨holds, run.pure_inv.2⟩
  · exact run.raise_ok.elim

theorem expecting_ok
    {Value : Type}
    {found : Option Value}
    {status : Nat}
    {text : String}
    {value : Value}
    (run : Runs (expecting found status text) before (.ok value) after) :
    found = some value ∧ after = before := by
  unfold expecting at run
  split at run
  · obtain ⟨shape, same⟩ := run.pure_inv
    cases shape
    exact ⟨rfl, same⟩
  · exact run.raise_ok.elim

/-- A store operation that only reads is answered by its value. -/
theorem storing_ok
    {Value : Type}
    {answer : StoreError → Response}
    {action : StoreM Value}
    {value : Value}
    (readOnly : ReadOnly action)
    (run : Runs (storing answer action) before (.ok value) after) :
    Runs action before.store.db (.ok value) before.store.db ∧
      after = before := by
  obtain ⟨outcome, middle, ⟨db, middleShape, inner⟩, rest⟩ :=
    (onStore_total action).bind_inv run
  have same := readOnly _ _ _ inner
  subst db
  cases outcome with
  | ok value =>
      obtain ⟨shape, unchanged⟩ := rest.pure_inv
      cases shape
      exact ⟨inner, unchanged.trans middleShape⟩
  | error error => exact rest.raise_ok.elim

/-- What is read and written when a configuration is shown. -/
structure Reshown
    (config : Config)
    (state : State)
    (response : StaticPeerConfigResponse)
    (mobile gateway : PeerRecord) : Prop where
  mobileMember : mobile ∈ state.store.db.tables.peers
  gatewayMember : gateway ∈ state.store.db.tables.peers
  static : mobile.peerType = .static
  unrevoked : orEmpty mobile.revokedAt = ""
  routed : mobile.gatewayPeerID = some gateway.id
  addresses :
    response.config.addresses = allowedIPsForPeer mobile.visibleRow
  peerPublicKey : response.config.peerPublicKey = gateway.publicKey
  presharedKey :
    response.config.presharedKey =
      (derivePairKey config.hkdf mobile.publicKey gateway.publicKey).text

/-- A configuration is shown of a static peer that is not revoked, with the
row of its gateway. -/
theorem handleStaticPeerConfig_ok
    (run :
      Runs (handleStaticPeerConfig config openDeviceKey rawID) before
        (.ok response) after) :
    ∃ mobile gateway,
      parseInt64 rawID = some mobile.id ∧
        Reshown config before response mobile gateway := by
  obtain ⟨id, _, parsing, parsed⟩ := run.bind_ok
  obtain ⟨isID, rfl⟩ := expecting_ok parsing
  obtain ⟨info, _, looking, known⟩ := parsed.bind_ok
  obtain ⟨looked, rfl⟩ := storing_ok (readOnly_getPeerInfo id) looking
  obtain ⟨-, mobile, found, rfl⟩ := getPeerInfo_ok looked
  obtain ⟨mobileMember, sameID⟩ := mem_of_rowWith? found
  obtain ⟨_, _, typing, typed⟩ := known.bind_ok
  obtain ⟨isStatic, rfl⟩ := demand_ok typing
  obtain ⟨_, _, dating, dated⟩ := typed.bind_ok
  obtain ⟨isUnrevoked, rfl⟩ := demand_ok dating
  obtain ⟨_, _, routing, ready⟩ := dated.bind_ok
  obtain ⟨hasGateway, rfl⟩ := demand_ok routing
  obtain ⟨stored, _, fetching, fetched⟩ := ready.bind_ok
  obtain ⟨-, rfl⟩ := storing_ok (readOnly_sealedPrivateKey id) fetching
  obtain ⟨sealed, _, expected, present⟩ := fetched.bind_ok
  obtain ⟨-, rfl⟩ := expecting_ok expected
  obtain ⟨privateKey, _, opening, opened⟩ := present.bind_ok
  obtain ⟨-, rfl⟩ := expecting_ok opening
  obtain ⟨gatewayInfo, _, seeking, sought⟩ := opened.bind_ok
  obtain ⟨gatewayLooked, rfl⟩ :=
    storing_ok (readOnly_getPeerInfo _) seeking
  obtain ⟨-, gateway, gatewayFound, rfl⟩ := getPeerInfo_ok gatewayLooked
  obtain ⟨gatewayMember, gatewayID⟩ := mem_of_rowWith? gatewayFound
  obtain ⟨dns, _, reading, configured⟩ := sought.bind_ok
  obtain ⟨-, rfl⟩ := storing_ok readOnly_currentDNSConfig reading
  obtain ⟨state, _, -, written⟩ := configured.bind_ok
  obtain ⟨shape, -⟩ := written.pure_inv
  cases shape
  have routed : mobile.gatewayPeerID = some gateway.id := by
    have nonzero : orZero mobile.gatewayPeerID ≠ 0 := bne_iff_ne.mp hasGateway
    change gateway.id = orZero mobile.gatewayPeerID at gatewayID
    cases assigned : mobile.gatewayPeerID with
    | none => exact absurd (by rw [assigned]; rfl) nonzero
    | some id =>
        rw [gatewayID, assigned]
        rfl
  exact
    ⟨mobile, gateway, isID.trans (congrArg some sameID.symm),
      { mobileMember
        gatewayMember
        static := beq_iff_eq.mp isStatic
        unrevoked := beq_iff_eq.mp isUnrevoked
        routed
        addresses := rfl
        peerPublicKey := rfl
        presharedKey := rfl }⟩

end Reshown

/-- A device with a configuration can reach its gateway: the gateway is an
active agent, and its reports are answered with an entry for the device that
has the preshared key and the addresses of the configuration. -/
def Connects (config : Config) (relay : Relay) (epochs : PunchEpochs) (db : DB)
    (written : MobileConfig) (mobile gateway : PeerRecord) : Prop :=
  ActiveAgent db gateway ∧ written.peerPublicKey = gateway.publicKey ∧
    ∃ entry,
      entry ∈ (reportPayload config relay epochs db.tables gateway).peers ∧
        entry.publicKey = mobile.publicKey ∧
        entry.presharedKey = some written.presharedKey ∧
        entry.allowedIPs = written.addresses

/-- A configuration that is shown again connects if and only if the gateway of
the peer is not revoked. -/
theorem reshown_config_connects_iff
    (config : Config)
    (openDeviceKey : String → String → Option String)
    (relay : Relay)
    (epochs : PunchEpochs)
    (network : NetAddress.Prefix)
    (network6 : Option NetAddress.Prefix)
    (inputs : List Store.Input)
    (rawID : String)
    (before after : State)
    (reached :
      before.store.db =
        ((Store.machine config.store).run (.empty network network6)
          inputs).db)
    (response : StaticPeerConfigResponse)
    (shown :
      Runs (handleStaticPeerConfig config openDeviceKey rawID) before
        (.ok response) after) :
    ∃ mobile gateway,
      parseInt64 rawID = some mobile.id ∧
        mobile ∈ before.store.db.tables.peers ∧
        gateway ∈ before.store.db.tables.peers ∧
        mobile.gatewayPeerID = some gateway.id ∧
        (Connects config relay epochs before.store.db response.config mobile
            gateway ↔
          gateway.isActive = true) := by
  obtain ⟨mobile, gateway, isID, facts⟩ := handleStaticPeerConfig_ok shown
  have routed := routed_run config.store network network6 inputs
  rw [← reached] at routed
  refine ⟨mobile, gateway, isID, facts.mobileMember, facts.gatewayMember,
    facts.routed, ?_⟩
  constructor
  · exact fun connects => connects.1.active
  · intro active
    have agent :=
      routed.agent mobile gateway facts.mobileMember facts.gatewayMember
        facts.routed
    have mobileActive : mobile.isActive = true := by
      have dated := routed.dated mobile facts.mobileMember
      have unrevoked := facts.unrevoked
      cases revoked : mobile.revokedAt with
      | none => simp [PeerRecord.isActive, revoked]
      | some time =>
          rw [revoked] at unrevoked dated
          exact absurd (congrArg some unrevoked) dated
    have apart : mobile.id ≠ gateway.id := by
      intro sameID
      have same :=
        before.store.db.eq_of_peerID facts.mobileMember facts.gatewayMember
          sameID
      rw [← same, facts.static] at agent
      cases agent
    -- a gateway sees its routed mobiles whatever the policy is
    have seen :
        before.store.db.tables.isVisible gateway.id config.store.defaultAllow
          mobile = true := by
      simp [Tables.isVisible, mobileActive, apart, facts.routed]
    refine ⟨⟨facts.gatewayMember, agent, active⟩, facts.peerPublicKey, _,
      mem_reportPayload.mpr ⟨mobile, facts.mobileMember, seen, ?_, rfl⟩,
      peerEntry_publicKey _ _ _, ?_, ?_⟩
    · exact (hasEntry_iff facts.gatewayMember facts.mobileMember).mpr
        fun _ => facts.routed
    · rw [peerEntry_presharedKey, facts.presharedKey, derivePairKey_comm]
      rfl
    · have isStatic : mobile.visibleRow.peerType = some .static :=
        congrArg some facts.static
      rw [facts.addresses, peerEntry, if_pos isStatic]

/-- An agent enrols, a phone is created with it as its gateway, and more
happens. -/
def storedPhone (more : List Op) : List Store.Input :=
  ([Op.createSetupKey "" 5 0 0 (.ok "key"),
    .enroll ⟨"key", "gateway", "", 0, "", ""⟩ 0 (.ok "first"),
    .createStaticPeer ⟨"phone", "", 1, "sealed", "vpn.example:51820"⟩ 0
      (.ok "marker") (.ok "second")] ++ more).map Op.accepted

/-- The server after that. -/
def storedPhoneState (more : List Op) : State :=
  { State.fresh with
    store :=
      (Store.machine (.sample false)).run
        (.empty defaultNetwork (some defaultNetwork6)) (storedPhone more) }

/-- Its handler with a sealer that reveals what it has sealed. -/
def showPhone (more : List Op) :
    Except Response StaticPeerConfigResponse × Session State :=
  handleStaticPeerConfig (.sample false) (fun _ sealed => some sealed) "2"
    ⟨storedPhoneState more, []⟩

/-- A handler that is seen to answer has a run with the answer. -/
theorem runs_showPhone
    {more : List Op}
    (answers : (showPhone more).1.toOption.isSome = true) :
    ∃ response after,
      Runs
        (handleStaticPeerConfig (.sample false)
          (fun _ sealed => some sealed) "2")
        (storedPhoneState more) (.ok response) after := by
  have run :=
    Runs.of_session
      (handleStaticPeerConfig (.sample false)
        (fun _ sealed => some sealed) "2")
      ⟨storedPhoneState more, []⟩
  change
    Runs _ _ (showPhone more).1 (showPhone more).2.data at run
  cases outcome : (showPhone more).1 with
  | ok response =>
      rw [outcome] at run
      exact ⟨response, _, run⟩
  | error refused =>
      rw [outcome] at answers
      cases answers

/-- The configuration of the phone is shown, and connects: its gateway is
active. -/
theorem reshown_config_connects_sample :
    ∃ response after mobile gateway,
      Runs
          (handleStaticPeerConfig (.sample false)
            (fun _ sealed => some sealed) "2")
          (storedPhoneState []) (.ok response) after ∧
        mobile.gatewayPeerID = some gateway.id ∧
        Connects (.sample false) (fun _ => none) (fun _ => {})
          (storedPhoneState []).store.db response.config mobile gateway := by
  obtain ⟨response, after, shown⟩ :=
    @runs_showPhone [] (by decide +kernel)
  obtain ⟨mobile, gateway, -, -, member, routed, connects⟩ :=
    reshown_config_connects_iff (.sample false) (fun _ sealed => some sealed)
      (fun _ => none) (fun _ => {}) defaultNetwork (some defaultNetwork6)
      (storedPhone []) "2" (storedPhoneState []) after rfl response shown
  have active :
      (storedPhoneState []).store.db.tables.peers.all (·.isActive) = true := by
    decide +kernel
  exact ⟨response, after, mobile, gateway, shown, routed,
    connects.mpr (List.all_eq_true.mp active gateway member)⟩

/-- The configuration of the phone is shown after its gateway was revoked, and
cannot connect. -/
theorem reshown_config_of_revoked_gateway :
    ∃ response after gateway,
      Runs
          (handleStaticPeerConfig (.sample false)
            (fun _ sealed => some sealed) "2")
          (storedPhoneState [.revokePeer 1 0]) (.ok response) after ∧
        (storedPhoneState [.revokePeer 1 0]).store.db.tables.peerWithID? 1 =
          some gateway ∧
        ((storedPhoneState [.revokePeer 1 0]).store.db.tables.peerWithID?
          2).map (·.gatewayPeerID) = some (some gateway.id) ∧
        gateway.isActive = false ∧
        ∀ mobile,
          ¬ Connects (.sample false) (fun _ => none) (fun _ => {})
            (storedPhoneState [.revokePeer 1 0]).store.db response.config
            mobile gateway := by
  obtain ⟨response, after, shown⟩ :=
    @runs_showPhone [.revokePeer 1 0] (by decide +kernel)
  have found :
      (((storedPhoneState [.revokePeer 1 0]).store.db.tables.peerWithID?
        1).map fun gateway => (gateway.id, gateway.isActive)) =
          some (1, false) ∧
        ((storedPhoneState [.revokePeer 1 0]).store.db.tables.peerWithID?
          2).map (·.gatewayPeerID) = some (some 1) := by
    decide +kernel
  obtain ⟨gateway, isGateway, columns⟩ := Option.map_eq_some_iff.mp found.1
  obtain ⟨isID, inactive⟩ := Prod.mk.inj columns
  refine ⟨response, after, gateway, shown, isGateway, ?_, inactive, ?_⟩
  · rw [isID]
    exact found.2
  · intro mobile connects
    have active := connects.1.active
    rw [inactive] at active
    cases active

end Server

end WgMesh
