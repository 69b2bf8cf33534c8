import WgMesh.StoreNetwork

namespace WgMesh.Store

/-!
# Enrolment

How peers come into the database: a new enrolment consumes a setup key, a
repeated one rotates the token of the existing row, and an operator may add a
peer that runs no agent.
-/

open CivilTime NetAddress RowTables TextScan Transactions

/--
What a store is started with.

`hashToken` stands for the hash under which tokens are stored; nothing is
assumed about it here.
-/
structure Config where
  defaultAllow : Bool
  tokenTTL : Int
  hashToken : String → String

/-- The arguments of `Enroll`. -/
structure EnrollArgs where
  setupKey : String
  publicKey : String
  hostname : String
  listenPort : Int
  observedIP : String
  publicEndpoint : String
deriving DecidableEq

/-- `EnrollResult`. -/
structure EnrollResult where
  peer : PeerRow
  others : List PeerRow
  created : Bool
  authToken : String
deriving DecidableEq

/-- `newAuthToken`: a token and its stored form. -/
def newAuthToken (config : Config) (draw : Draw) :
    StoreM (String × String) := do
  let token ← drawn "generate auth token" draw
  pure (token, config.hashToken token)

/-- Add a peer. -/
def Tables.addPeer (row : PeerRecord) (tables : Tables) : Tables :=
  { tables with peers := tables.peers ++ [row] }

/-- The row id the next peer gets. -/
def Tables.nextPeerID (tables : Tables) : Int :=
  nextID (·.id) tables.peers

/-- `INSERT INTO peers`, with `LastInsertId`. -/
def insertPeer (context : String) (row : Int → PeerRecord) : StoreM Int :=
  modify context fun tables =>
    (tables.nextPeerID, tables.addPeer (row tables.nextPeerID))

/-- The row `Enroll` inserts. -/
def newPeer
    (args : EnrollArgs)
    (keyID : Int)
    (ip ip6 tokenHash now : String)
    (id : Int) : PeerRecord where
  id := id
  publicKey := args.publicKey
  assignedIP := ip
  assignedIP6 := nullable ip6
  hostname := nullable args.hostname
  listenPort := nullablePort args.listenPort
  setupKeyID := keyID
  authTokenHash := some tokenHash
  authTokenIssuedAt := some now
  observedIP := nullable args.observedIP
  publicEndpoint := nullable args.publicEndpoint

/-- The row `Enroll` returns for a new peer; the other fields stay zero. -/
def createdRow (args : EnrollArgs) (ip ip6 : String) (id : Int) :
    PeerRow where
  id := id
  publicKey := args.publicKey
  assignedIP := ip
  assignedIP6 := ip6
  publicEndpoint := args.publicEndpoint
  observedIP := args.observedIP
  listenPort := args.listenPort

/-- The columns `Enroll` reads of an existing peer; the others stay zero. -/
def PeerRecord.existingRow (peer : PeerRecord) : PeerRow where
  id := peer.id
  assignedIP := peer.assignedIP
  assignedIP6 := orEmpty peer.assignedIP6
  publicEndpoint := orEmpty peer.publicEndpoint
  observedIP := orEmpty peer.observedIP
  listenPort := orZero peer.listenPort

/-- The values a repeated enrolment writes. -/
structure Refresh where
  tokenHash : String
  issuedAt : String
  ip6 : Option String
  hostname : Option String
  observedIP : Option String
  publicEndpoint : Option String
  listenPort : Option Int
deriving DecidableEq

/-- The `SET` clause of a repeated enrolment. -/
def PeerRecord.refresh (values : Refresh) (peer : PeerRecord) :
    PeerRecord :=
  { peer with
    authTokenHash := some values.tokenHash
    authTokenIssuedAt := some values.issuedAt
    assignedIP6 := coalesce values.ip6 peer.assignedIP6
    hostname := coalesce values.hostname peer.hostname
    observedIP := coalesce values.observedIP peer.observedIP
    publicEndpoint := coalesce values.publicEndpoint peer.publicEndpoint
    listenPort := coalesce values.listenPort peer.listenPort }

/-- Change the peer with a row id. -/
def Tables.updatePeer
    (id : Int)
    (update : PeerRecord → PeerRecord)
    (tables : Tables) : Tables :=
  { tables with
    peers := updateWhere (fun row => row.id == id) update tables.peers }

/-- The values `reEnroll` writes for a request. -/
def refreshFor (args : EnrollArgs) (tokenHash now ip6 : String) :
    Refresh where
  tokenHash := tokenHash
  issuedAt := now
  ip6 := nullable ip6
  hostname := nullable args.hostname
  observedIP := nullable args.observedIP
  publicEndpoint := nullable args.publicEndpoint
  listenPort := nullablePort args.listenPort

/-- A given text replaces a stored one unless it is empty. -/
def orKeep (given kept : String) : String :=
  if given = "" then kept else given

/-- The row `reEnroll` returns. -/
def refreshedRow (args : EnrollArgs) (ip6 : String) (existing : PeerRow) :
    PeerRow :=
  { existing with
    publicKey := args.publicKey
    observedIP := orKeep args.observedIP existing.observedIP
    publicEndpoint := orKeep args.publicEndpoint existing.publicEndpoint
    listenPort :=
      if 0 < args.listenPort then args.listenPort else existing.listenPort
    assignedIP6 := orKeep ip6 existing.assignedIP6 }

/-- The setup key a repeated enrolment presents must be the original one. -/
def checkPresentedKey (setupKey : String) (enrolledKeyID : Int) :
    StoreM Unit := do
  let found ← select "look up setup key"
    (fun tables => tables.setupKeyWith? setupKey)
  match found with
  | none => raise (unauthorized "re-enroll with unknown setup key")
  | some key =>
      if key.revokedAt.isSome then
        raise (unauthorized "re-enroll with revoked setup key")
      else if key.id ≠ enrolledKeyID then
        raise
          (unauthorized
            "re-enroll setup key does not match original enrollment")
      else
        pure ()

/-- The IPv6 address of a peer that enrolled before IPv6 was enabled. -/
def backfillIP6 (view : NetworkView) (existing : PeerRow) : StoreM String :=
  if view.v6Enabled && existing.assignedIP6 = "" then
    allocateIP6 view
  else
    pure ""

/-- `reEnroll`, up to its commit; the peer's own revocation is not read. -/
def reEnroll
    (config : Config)
    (view : NetworkView)
    (args : EnrollArgs)
    (existing : PeerRow)
    (enrolledKeyID : Int)
    (now : Instant)
    (draw : Draw) : StoreM EnrollResult := do
  checkPresentedKey args.setupKey enrolledKeyID
  let (token, tokenHash) ← newAuthToken config draw
  let ip6 ← backfillIP6 view existing
  modify "rotate auth token" fun tables =>
    ((), tables.updatePeer existing.id
      (PeerRecord.refresh (refreshFor args tokenHash (format now) ip6)))
  let others ← listVisible existing.id config.defaultAllow
  pure
    { peer := refreshedRow args ip6 existing
      others
      created := false
      authToken := token }

/-- `Enroll` of a public key that is not in the table, up to its commit. -/
def enrollNew
    (config : Config)
    (view : NetworkView)
    (args : EnrollArgs)
    (now : Instant)
    (draw : Draw) : StoreM EnrollResult := do
  let keyID ← consumeSetupKey args.setupKey (format now)
  let ip ← allocateIP view
  let ip6 ← allocateIP6IfEnabled view
  let (token, tokenHash) ← newAuthToken config draw
  let id ← insertPeer "insert peer"
    (newPeer args keyID ip ip6 tokenHash (format now))
  let others ← listVisible id config.defaultAllow
  pure
    { peer := createdRow args ip ip6 id
      others
      created := true
      authToken := token }

/-- The transaction of `Enroll`. -/
def enrollBody
    (config : Config)
    (view : NetworkView)
    (args : EnrollArgs)
    (now : Instant)
    (draw : Draw) : StoreM EnrollResult := do
  let found ← select "look up peer"
    (fun tables => tables.peerWithKey? args.publicKey)
  match found with
  | some peer =>
      reEnroll config view args peer.existingRow peer.setupKeyID now draw
  | none => enrollNew config view args now draw

/-- `Enroll`. -/
def enroll
    (config : Config)
    (view : NetworkView)
    (args : EnrollArgs)
    (now : Instant)
    (draw : Draw) : StoreM EnrollResult :=
  transaction (refusal "begin transaction")
    (fun result =>
      refusal
        (if result.created then "commit enrollment" else "commit re-enroll"))
    (enrollBody config view args now draw)

/-- `StaticPeer`. -/
structure StaticPeer where
  publicKey : String
  hostname : String
  gatewayPeerID : Int
  privateKeyEnc : String
  gatewayEndpoint : String
deriving DecidableEq

/-- The gateway of a static peer must be an active agent. -/
def checkGateway (id : Int) : StoreM Unit := do
  let found ← select "check gateway peer"
    (fun tables => tables.peerWithID? id)
  match found with
  | none => raise (failure ("gateway peer " ++ decimal id ++ " not found"))
  | some gateway =>
      if gateway.revokedAt.isSome then
        raise (failure ("gateway peer " ++ decimal id ++ " is revoked"))
      else if gateway.peerType ≠ .agent then
        raise
          (failure
            ("gateway peer " ++ decimal id ++
              " must be a wgmesh agent, not a " ++ gateway.peerType.text ++
              " peer"))
      else
        pure ()

/-- The public key of a static peer must be new. -/
def checkKeyUnused (publicKey : String) : StoreM Unit := do
  let found ← select "check peer public key"
    (fun tables => tables.peerWithKey? publicKey)
  match found with
  | some other =>
      raise
        (peerExists ("public key belongs to peer " ++ decimal other.id))
  | none => pure ()

/-- The setup key row made for a static peer. -/
def staticSetupKey (key hostname : String) (id : Int) : SetupKeyRow where
  id := id
  key := key
  name :=
    some
      (if hostname = "" then "static peer"
        else "static peer: " ++ hostname)
  expiresAt := none
  revokedAt := none
  maxUses := some 1
  usesConsumed := 1

/-- The row of a static peer. -/
def newStaticPeer
    (spec : StaticPeer)
    (keyID : Int)
    (ip ip6 tokenHash now : String)
    (id : Int) : PeerRecord where
  id := id
  publicKey := trimSpace spec.publicKey
  assignedIP := ip
  assignedIP6 := nullable ip6
  peerType := .static
  gatewayPeerID := some spec.gatewayPeerID
  gatewayEndpoint := nullable spec.gatewayEndpoint
  privateKeyEnc := nullable spec.privateKeyEnc
  hostname := nullable (trimSpace spec.hostname)
  setupKeyID := keyID
  authTokenHash := some tokenHash
  authTokenIssuedAt := some now

/-- The transaction of `CreateStaticPeer`. -/
def createStaticPeerBody
    (config : Config)
    (view : NetworkView)
    (spec : StaticPeer)
    (now : Instant)
    (keyDraw tokenDraw : Draw) : StoreM PeerInfo := do
  checkGateway spec.gatewayPeerID
  checkKeyUnused (trimSpace spec.publicKey)
  let marker ← drawn "generate static setup key marker" keyDraw
  let keyID ← modify "insert static setup key" fun tables =>
    (tables.nextSetupKeyID,
      tables.addSetupKey
        (staticSetupKey ("static-" ++ marker) (trimSpace spec.hostname)
          tables.nextSetupKeyID))
  let ip ← allocateIP view
  let ip6 ← allocateIP6IfEnabled view
  let (_, tokenHash) ← newAuthToken config tokenDraw
  let id ← insertPeer "insert static peer"
    (newStaticPeer spec keyID ip ip6 tokenHash (format now))
  getPeerInfo id

/-- `CreateStaticPeer`. -/
def createStaticPeer
    (config : Config)
    (view : NetworkView)
    (spec : StaticPeer)
    (now : Instant)
    (keyDraw tokenDraw : Draw) : StoreM PeerInfo :=
  if trimSpace spec.publicKey = "" then
    raise (failure "public_key is required")
  else if spec.gatewayPeerID ≤ 0 then
    raise (failure "gateway_peer_id is required")
  else
    inTransaction "begin static peer create" "commit static peer create"
      (createStaticPeerBody config view spec now keyDraw tokenDraw)

section Specifications

variable
  {config : Config}
  {view : NetworkView}
  {args : EnrollArgs}
  {now : Instant}
  {draw : Draw}
  {before after : DB}
  {result : EnrollResult}

/-- What a repeated enrolment has checked, written and returned. -/
structure ReEnrolled
    (config : Config)
    (view : NetworkView)
    (args : EnrollArgs)
    (now : Instant)
    (draw : Draw)
    (before after : DB)
    (result : EnrollResult)
    (peer : PeerRecord)
    (token ip6 : String) : Prop where
  found : before.tables.peerWithKey? args.publicKey = some peer
  presented :
    ∃ key, before.tables.setupKeyWith? args.setupKey = some key ∧
      key.revokedAt = none ∧ key.id = peer.setupKeyID
  issued : draw = .ok token
  backfill :
    if view.v6Enabled && orEmpty peer.assignedIP6 = "" then
      Allocates view.network6 before.tables.assignedIP6s ip6
    else
      ip6 = ""
  stored :
    after.tables =
      before.tables.updatePeer peer.id
        (PeerRecord.refresh
          (refreshFor args (config.hashToken token) (format now) ip6))
  returned :
    result =
      { peer := refreshedRow args ip6 peer.existingRow
        others := after.tables.visibleTo peer.id config.defaultAllow
        created := false
        authToken := token }

/-- What a new enrolment has checked, written and returned. -/
structure EnrolledNew
    (config : Config)
    (view : NetworkView)
    (args : EnrollArgs)
    (now : Instant)
    (draw : Draw)
    (before after : DB)
    (result : EnrollResult)
    (key : SetupKeyRow)
    (token ip ip6 : String) : Prop where
  unknown : before.tables.peerWithKey? args.publicKey = none
  member : key ∈ before.tables.setupKeys
  consumable : key.isConsumable args.setupKey (format now)
  addresses : NewAddresses view before.tables ip ip6
  issued : draw = .ok token
  stored :
    after.tables =
      (before.tables.countUse key.id).addPeer
        (newPeer args key.id ip ip6 (config.hashToken token) (format now)
          before.tables.nextPeerID)
  returned :
    result =
      { peer := createdRow args ip ip6 before.tables.nextPeerID
        others :=
          after.tables.visibleTo before.tables.nextPeerID
            config.defaultAllow
        created := true
        authToken := token }

theorem newAuthToken_ok
    {token tokenHash : String}
    (run :
      Runs (newAuthToken config draw) before
        (.ok (token, tokenHash)) after) :
    draw = .ok token ∧ tokenHash = config.hashToken token ∧
      after = before := by
  obtain ⟨text, middle, drawRun, rest⟩ := run.bind_ok
  obtain ⟨drawShape, same⟩ := drawn_ok drawRun
  obtain ⟨pairShape, sameEnd⟩ := rest.pure_inv
  cases pairShape
  exact ⟨drawShape, rfl, sameEnd.trans same⟩

/-- An accepted key exists, is unrevoked and has the expected id. -/
theorem checkPresentedKey_ok
    {setupKey : String}
    {enrolledKeyID : Int}
    (run :
      Runs (checkPresentedKey setupKey enrolledKeyID)
        before (.ok ()) after) :
    after = before ∧
      ∃ key, before.tables.setupKeyWith? setupKey = some key ∧
        key.revokedAt = none ∧ key.id = enrolledKeyID := by
  obtain ⟨found, middle, lookRun, rest⟩ := run.bind_ok
  obtain ⟨same, foundShape⟩ := select_ok lookRun
  subst middle
  split at rest
  · exact rest.raise_ok.elim
  · rename_i key
    split at rest
    · exact rest.raise_ok.elim
    · rename_i unrevoked
      split at rest
      · exact rest.raise_ok.elim
      · rename_i sameKey
        refine ⟨rest.pure_inv.2, key, foundShape.symm, ?_, ?_⟩
        · simpa using unrevoked
        · simpa using sameKey

/-- A backfill allocates exactly when the peer lacks an enabled address. -/
theorem backfillIP6_ok
    {existing : PeerRow}
    {ip6 : String}
    (run : Runs (backfillIP6 view existing) before (.ok ip6) after) :
    after = before ∧
      if view.v6Enabled && existing.assignedIP6 = "" then
        Allocates view.network6 before.tables.assignedIP6s ip6
      else
        ip6 = "" := by
  unfold backfillIP6 at run
  by_cases lacking :
      (view.v6Enabled && decide (existing.assignedIP6 = "")) = true
  · rw [if_pos lacking] at run ⊢
    exact allocateAddr_ok run
  · rw [if_neg lacking] at run ⊢
    obtain ⟨shape, same⟩ := run.pure_inv
    exact ⟨same, Except.ok.inj shape⟩

theorem insertPeer_ok
    {context : String}
    {row : Int → PeerRecord}
    {id : Int}
    (run : Runs (insertPeer context row) before (.ok id) after) :
    id = before.tables.nextPeerID ∧
      after.tables =
        before.tables.addPeer (row before.tables.nextPeerID) :=
  modify_ok run

theorem listVisible_ok
    {selfID : Int}
    {defaultAllow : Bool}
    {others : List PeerRow}
    (run :
      Runs (listVisible selfID defaultAllow) before (.ok others) after) :
    after = before ∧
      others = before.tables.visibleTo selfID defaultAllow :=
  select_ok run

/-- A successful `reEnroll` of a known peer. -/
private theorem reEnroll_ok
    {peer : PeerRecord}
    (found : before.tables.peerWithKey? args.publicKey = some peer)
    (run :
      Runs
        (reEnroll config view args peer.existingRow peer.setupKeyID now draw)
        before (.ok result) after) :
    ∃ token ip6,
      ReEnrolled config view args now draw before after result
        peer token ip6 := by
  obtain ⟨_, checked, checkRun, rest⟩ := run.bind_ok
  obtain ⟨sameCheck, presented⟩ := checkPresentedKey_ok checkRun
  subst checked
  obtain ⟨⟨token, tokenHash⟩, minted, tokenRun, rest⟩ := rest.bind_ok
  obtain ⟨issued, hashShape, sameMint⟩ := newAuthToken_ok tokenRun
  subst minted tokenHash
  obtain ⟨ip6, filled, fillRun, rest⟩ := rest.bind_ok
  obtain ⟨sameFill, backfill⟩ := backfillIP6_ok fillRun
  subst filled
  obtain ⟨_, written, writeRun, rest⟩ := rest.bind_ok
  have stored := (modify_ok writeRun).2
  obtain ⟨others, listed, listRun, rest⟩ := rest.bind_ok
  obtain ⟨sameList, othersShape⟩ := listVisible_ok listRun
  obtain ⟨resultShape, sameEnd⟩ := rest.pure_inv
  subst listed after others
  exact ⟨token, ip6, {
    found
    presented
    issued
    backfill
    stored
    returned := Except.ok.inj resultShape
  }⟩

/-- A successful enrolment of an unknown public key. -/
private theorem enrollNew_ok
    (unknown : before.tables.peerWithKey? args.publicKey = none)
    (run :
      Runs (enrollNew config view args now draw)
        before (.ok result) after) :
    ∃ key token ip ip6,
      EnrolledNew config view args now draw before after result
        key token ip ip6 := by
  obtain ⟨keyID, consumed, consumeRun, rest⟩ := run.bind_ok
  obtain ⟨key, member, consumable, keyShape, counted⟩ :=
    consumeSetupKey_ok consumeRun
  subst keyID
  obtain ⟨ip, placed, placeRun, rest⟩ := rest.bind_ok
  obtain ⟨samePlace, first⟩ := allocateAddr_ok placeRun
  subst placed
  obtain ⟨ip6, placed6, placeRun6, rest⟩ := rest.bind_ok
  obtain ⟨samePlace6, second⟩ := allocateIP6IfEnabled_ok placeRun6
  subst placed6
  obtain ⟨⟨token, tokenHash⟩, minted, tokenRun, rest⟩ := rest.bind_ok
  obtain ⟨issued, hashShape, sameMint⟩ := newAuthToken_ok tokenRun
  subst minted tokenHash
  obtain ⟨id, inserted, insertRun, rest⟩ := rest.bind_ok
  obtain ⟨idShape, stored⟩ := insertPeer_ok insertRun
  obtain ⟨others, listed, listRun, rest⟩ := rest.bind_ok
  obtain ⟨sameList, othersShape⟩ := listVisible_ok listRun
  obtain ⟨resultShape, sameEnd⟩ := rest.pure_inv
  subst listed after others id
  -- Counting a use changes no peer row, so the allocation and the new row id
  -- can be read off the tables before it.
  rw [counted] at first second stored resultShape
  exact ⟨key, token, ip, ip6, {
    unknown
    member
    consumable
    addresses := ⟨first, second⟩
    issued
    stored
    returned := Except.ok.inj resultShape
  }⟩

/-- A successful enrolment is a repeated or a new one. -/
theorem enroll_ok
    (run :
      Runs (enroll config view args now draw) before (.ok result) after) :
    (∃ peer token ip6,
        ReEnrolled config view args now draw before after result
          peer token ip6) ∨
      ∃ key token ip ip6,
        EnrolledNew config view args now draw before after result
          key token ip ip6 := by
  obtain ⟨found, middle, lookRun, rest⟩ := run.transaction_ok.bind_ok
  obtain ⟨same, foundShape⟩ := select_ok lookRun
  subst middle
  split at rest
  · rename_i peer
    exact Or.inl ⟨peer, reEnroll_ok foundShape.symm rest⟩
  · exact Or.inr (enrollNew_ok foundShape.symm rest)

theorem atomic_enroll :
    Atomic (enroll config view args now draw) :=
  atomic_transaction _ _ _

/-- What adding a static peer has checked and written. -/
structure StaticCreated
    (config : Config)
    (view : NetworkView)
    (spec : StaticPeer)
    (now : Instant)
    (keyDraw tokenDraw : Draw)
    (before after : DB)
    (marker token ip ip6 : String) : Prop where
  gateway :
    ∃ gateway,
      before.tables.peerWithID? spec.gatewayPeerID = some gateway ∧
        gateway.isActive = true ∧ gateway.peerType = .agent
  unknown :
    before.tables.peerWithKey? (trimSpace spec.publicKey) = none
  marked : keyDraw = .ok marker
  issued : tokenDraw = .ok token
  addresses : NewAddresses view before.tables ip ip6
  stored :
    after.tables =
      (before.tables.addSetupKey
        (staticSetupKey ("static-" ++ marker) (trimSpace spec.hostname)
          before.tables.nextSetupKeyID)).addPeer
        (newStaticPeer spec before.tables.nextSetupKeyID ip ip6
          (config.hashToken token) (format now)
          before.tables.nextPeerID)

/-- An accepted gateway is an active agent. -/
theorem checkGateway_ok
    {id : Int}
    (run : Runs (checkGateway id) before (.ok ()) after) :
    after = before ∧
      ∃ gateway, before.tables.peerWithID? id = some gateway ∧
        gateway.isActive = true ∧ gateway.peerType = .agent := by
  obtain ⟨found, middle, lookRun, rest⟩ := run.bind_ok
  obtain ⟨same, foundShape⟩ := select_ok lookRun
  subst middle
  split at rest
  · exact rest.raise_ok.elim
  · rename_i gateway
    split at rest
    · exact rest.raise_ok.elim
    · rename_i unrevoked
      split at rest
      · exact rest.raise_ok.elim
      · rename_i isAgent
        refine ⟨rest.pure_inv.2, gateway, foundShape.symm, ?_, ?_⟩
        · simpa [PeerRecord.isActive] using unrevoked
        · simpa using isAgent

theorem checkKeyUnused_ok
    {publicKey : String}
    (run : Runs (checkKeyUnused publicKey) before (.ok ()) after) :
    after = before ∧ before.tables.peerWithKey? publicKey = none := by
  obtain ⟨found, middle, lookRun, rest⟩ := run.bind_ok
  obtain ⟨same, foundShape⟩ := select_ok lookRun
  subst middle
  split at rest
  · exact rest.raise_ok.elim
  · exact ⟨rest.pure_inv.2, foundShape.symm⟩

/-- A successful addition of a static peer. -/
theorem createStaticPeer_ok
    {spec : StaticPeer}
    {keyDraw tokenDraw : Draw}
    {info : PeerInfo}
    (run :
      Runs (createStaticPeer config view spec now keyDraw tokenDraw)
        before (.ok info) after) :
    ∃ marker token ip ip6,
      StaticCreated config view spec now keyDraw tokenDraw before after
        marker token ip ip6 := by
  unfold createStaticPeer at run
  split at run
  · exact run.raise_ok.elim
  · split at run
    · exact run.raise_ok.elim
    · obtain ⟨_, gated, gateRun, rest⟩ := (inTransaction_ok run).bind_ok
      obtain ⟨sameGate, gateway⟩ := checkGateway_ok gateRun
      subst gated
      obtain ⟨_, checked, checkRun, rest⟩ := rest.bind_ok
      obtain ⟨sameCheck, unknown⟩ := checkKeyUnused_ok checkRun
      subst checked
      obtain ⟨marker, drew, drawRun, rest⟩ := rest.bind_ok
      obtain ⟨marked, sameDraw⟩ := drawn_ok drawRun
      subst drew
      obtain ⟨keyID, keyed, keyRun, rest⟩ := rest.bind_ok
      obtain ⟨keyShape, keyStored⟩ := modify_ok keyRun
      obtain ⟨ip, placed, placeRun, rest⟩ := rest.bind_ok
      obtain ⟨samePlace, first⟩ := allocateAddr_ok placeRun
      subst placed
      obtain ⟨ip6, placed6, placeRun6, rest⟩ := rest.bind_ok
      obtain ⟨samePlace6, second⟩ := allocateIP6IfEnabled_ok placeRun6
      subst placed6
      obtain ⟨⟨token, tokenHash⟩, minted, tokenRun, rest⟩ := rest.bind_ok
      obtain ⟨issued, hashShape, sameMint⟩ := newAuthToken_ok tokenRun
      subst minted tokenHash
      obtain ⟨id, inserted, insertRun, rest⟩ := rest.bind_ok
      obtain ⟨idShape, stored⟩ := insertPeer_ok insertRun
      obtain ⟨sameEnd, -⟩ := getPeerInfo_ok rest
      subst after keyID
      rw [keyStored] at first second stored
      exact ⟨marker, token, ip, ip6, {
        gateway
        unknown
        marked
        issued
        addresses := ⟨first, second⟩
        stored
      }⟩

theorem atomic_createStaticPeer
    (spec : StaticPeer)
    (keyDraw tokenDraw : Draw) :
    Atomic (createStaticPeer config view spec now keyDraw tokenDraw) := by
  unfold createStaticPeer
  split
  · exact (readOnly_raise _).atomic
  · split
    · exact (readOnly_raise _).atomic
    · exact atomic_inTransaction _ _ _

end Specifications

end WgMesh.Store
