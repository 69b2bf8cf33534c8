import WgMesh.FaultFreeReports
import WgMesh.TokenHistory

namespace WgMesh

/-!
# Who may relay to whom

Three endpoints open a relay towards a named peer and one forwards signals to
it.  The relay endpoints ask `RelayPairKeys`, which knows the target's key but
not the policy; the signal handler asks for the visible peers.
-/

namespace Store

open Transactions

/-- `RelayPairKeys`. -/
def relayPairKeys (selfID : Int) (targetPublicKey : String) :
    StoreM (String × Bool) := do
  let context := "look up peer " ++ TextScan.decimal selfID
  let found ← select context (fun tables => tables.peerWithID? selfID)
  match found with
  | none => raise (failure (context ++ ": sql: no rows in result set"))
  | some self =>
      let n ← select "look up target peer"
        (fun tables =>
          tables.peers.countP
            (fun row => row.publicKey == targetPublicKey && row.isActive))
      pure (self.publicKey, decide (0 < n))

/-- A key belongs to an unrevoked peer. -/
def Tables.Knows (tables : Tables) (publicKey : String) : Prop :=
  ∃ peer ∈ tables.peers, peer.publicKey = publicKey ∧
    peer.isActive = true

theorem Tables.knows_iff
    {tables : Tables}
    {publicKey : String} :
    0 < tables.peers.countP
        (fun row => row.publicKey == publicKey && row.isActive) ↔
      tables.Knows publicKey := by
  simp only [List.countP_pos_iff, Bool.and_eq_true, beq_iff_eq, Knows]

/-- `RelayPairKeys` answers whether the target is known. -/
theorem relayPairKeys_ok
    {selfID : Int}
    {target selfKey : String}
    {targetOK : Bool}
    {before after : DB}
    (run :
      Runs (relayPairKeys selfID target) before
        (.ok (selfKey, targetOK)) after) :
    after = before ∧ (targetOK = true ↔ before.tables.Knows target) := by
  obtain ⟨found, middle, lookRun, rest⟩ := run.bind_ok
  obtain ⟨same, -⟩ := select_ok lookRun
  subst middle
  split at rest
  · exact rest.raise_ok.elim
  · obtain ⟨n, counted, countRun, last⟩ := rest.bind_ok
    obtain ⟨sameCount, countShape⟩ := select_ok countRun
    obtain ⟨shape, sameEnd⟩ := last.pure_inv
    cases shape
    refine ⟨sameEnd.trans sameCount, ?_⟩
    rw [decide_eq_true_iff, countShape, Tables.knows_iff]

theorem completes_relayPairKeys
    {db : DB}
    {self : PeerRecord}
    {target : String}
    (member : self ∈ db.tables.peers)
    (known : db.tables.Knows target) :
    Completes (relayPairKeys self.id target) db
      (.ok (self.publicKey, true)) db := by
  refine (completes_query _ _ _).bind ?_
  simp only [db.peerWithID?_eq member]
  refine (completes_query _ _ _).bind ?_
  rw [decide_eq_true (Tables.knows_iff.mpr known)]
  exact completes_pure _ _

/-- A token authenticates the row it belongs to. -/
theorem authenticatePeer_holder
    {config : Config}
    {token overlayIP : String}
    {now : CivilTime.Instant}
    {id : Int}
    {self : PeerRecord}
    {before after : DB}
    (holder :
      before.tables.peerWithToken? (config.hashToken token) = some self)
    (run :
      Runs (authenticatePeer config token now)
        before (.ok (id, overlayIP)) after) :
    after = before ∧ id = self.id := by
  refine ⟨readOnly_authenticatePeer _ _ _ _ _ _ run, ?_⟩
  obtain ⟨found, middle, lookRun, rest⟩ := run.bind_ok
  obtain ⟨same, foundShape⟩ := select_ok lookRun
  rw [holder] at foundShape
  subst found
  simp only at rest
  split at rest
  · exact rest.raise_ok.elim
  · have ids := congrArg Prod.fst (Except.ok.inj rest.pure_inv.1)
    exact ids

end Store

namespace Server

open CivilTime PairKeys RowTables Store TextScan Transactions

/-- Why the relay server has no ports to give. -/
inductive AllocateError where
  | portsExhausted
  | unavailable
deriving DecidableEq

/-- Two keys that a hub brings together under a pair id. -/
structure RelaySession where
  pairID : String
  selfKey : String
deriving DecidableEq

/-- The peer that a request's token authenticates. -/
def authenticated (config : Config) (http : Request) (now : Instant) :
    HandlerM Int := do
  let token ← bearerToken http.authorization
  let peer ← storing authError (authenticatePeer config.store token now)
  pure peer.1

/-- The own key of a peer that names a known target. -/
def relayTarget (peerID : Int) (target : String) : HandlerM String := do
  let keys ← storing internalError (relayPairKeys peerID target)
  if keys.2 then pure keys.1
  else raise (.error 404 "unknown or revoked target peer")

/-- The ports of a pair, or the answer when there are none. -/
def allocated (outcome : Except AllocateError (Int × Int)) :
    HandlerM (Int × Int) :=
  match outcome with
  | .ok ports => pure ports
  | .error .portsExhausted =>
      raise (.error 503 "relay port range exhausted")
  | .error .unavailable => raise (.error 502 "relay unavailable")

/--
`handleRelayPair`: the endpoint it answers.  The relay's `allocate` is a
parameter, absent when no relay is configured.
-/
def handleRelayPair
    (config : Config)
    (relay : Option (String → Except AllocateError (Int × Int)))
    (relayHost : String)
    (http : Request)
    (body : Body String)
    (now : Instant) : HandlerM String := do
  let peerID ← authenticated config http now
  match relay with
  | none => raise (.error 503 "no relay configured")
  | some allocate =>
      let target ← decodeJSON 4096 body
      require (target != "") "peer_public_key is required"
      let selfKey ← relayTarget peerID target
      let ports ← allocated (allocate (relayPairID config.digest selfKey target))
      -- Port A serves the smaller key.
      let port := if textLess target selfKey then ports.2 else ports.1
      pure (joinHostPort relayHost (decimal port))

/--
`handleRelayWS` up to the hub: the session it opens.  `upgrade` is what the
upgrade to a WebSocket answers when it fails.
-/
def handleRelayWS
    (config : Config)
    (enabled : Bool)
    (upgrade : Option Response)
    (http : Request)
    (target : String)
    (now : Instant) : HandlerM RelaySession := do
  if enabled then
    let peerID ← authenticated config http now
    require (target != "") "peer query parameter required"
    let selfKey ← relayTarget peerID target
    match upgrade with
    | none => pure ⟨relayPairID config.digest selfKey target, selfKey⟩
    | some answer => raise answer
  else
    raise (.error 503 "websocket relay not enabled")

/-- How a QUIC connection is closed. -/
structure QUICClose where
  code : Nat
  text : String
deriving DecidableEq

/-- Run a store operation, or fail as its error asks. -/
def asking
    {Failure Value : Type}
    (answer : StoreError → Failure)
    (action : StoreM Value) : Action State Failure Value := do
  let outcome ← zoom (fun state => state.store.db) State.withDB action
  match outcome with
  | .ok value => pure value
  | .error error => raise (answer error)

/-- How failed authentication closes a QUIC connection. -/
def authClose (error : StoreError) : QUICClose :=
  if error.kind = .unauthorized then ⟨2, "unauthorized"⟩ else ⟨0, "closed"⟩

/-- `quicRelayAuth`. -/
structure QUICRelayAuth where
  token : String
  target : String

/--
`serveQUICRelay` up to the hub: the session it opens.  `auth` is what the
stream's first value decodes to.
-/
def serveQUICRelay
    (config : Config)
    (auth : Option QUICRelayAuth)
    (supportsDatagrams acknowledged : Bool)
    (now : Instant) : Action State QUICClose RelaySession :=
  match auth with
  | none => raise ⟨1, "invalid authentication"⟩
  | some auth => do
      let peer ← asking authClose
        (authenticatePeer config.store auth.token now)
      let keys ← asking (fun _ => ⟨3, "target unavailable"⟩)
        (relayPairKeys peer.1 auth.target)
      if !keys.2 then
        raise ⟨3, "target unavailable"⟩
      else if !supportsDatagrams then
        raise ⟨4, "datagrams required"⟩
      else if !acknowledged then
        raise ⟨0, "closed"⟩
      else
        pure ⟨relayPairID config.digest keys.1 auth.target, keys.1⟩

/-- `signalMessage`. -/
structure SignalMessage where
  type : String
  sender : String
  target : String
  stamp : String
  payload : String
deriving DecidableEq

/-- `signalClient`, without its connection. -/
structure SignalClient where
  peerID : Int
  publicKey : String

/--
`handleSignalMessage`: the message it passes to the target, if any.  `stamp` is
the printed time and `connected` tells for which keys the hub has a client.
-/
def handleSignalMessage
    (config : Config)
    (client : SignalClient)
    (message : Option SignalMessage)
    (stamp : String)
    (connected : String → Bool) :
    Action State String (Option SignalMessage) :=
  match message with
  | none => raise "invalid signal message"
  | some message =>
      if message.type = "" then
        raise "signal type required"
      else if message.type = "hello" ∨ message.target = "" then
        pure none
      else do
        let outcome ← zoom (fun state => state.store.db) State.withDB
          (peersForID client.peerID config.store.defaultAllow)
        match outcome with
        | .error _ => raise "target lookup failed"
        | .ok (_, others) =>
            if !others.any (fun peer => peer.publicKey == message.target) then
              raise "unknown or revoked target peer"
            else if !connected message.target then
              raise "target peer is not connected to signal"
            else
              pure (some { message with sender := client.publicKey, stamp })

/-- A key belongs to a peer that the policy shows to an agent. -/
def Reaches (config : Config) (state : State) (self : PeerRecord)
    (target : String) : Prop :=
  ∃ peer,
    peer ∈ state.store.db.tables.visibleTo self.id
      config.store.defaultAllow ∧
    peer.publicKey = target

/-- A row with an id and a key. -/
def State.HasRow (state : State) (id : Int) (publicKey : String) : Prop :=
  ∃ row ∈ state.store.db.tables.peers, row.id = id ∧
    row.publicKey = publicKey

/-- `handleRelayPair` can provision ports for a request. -/
def ProvisionsPair (config : Config) (state : State) (http : Request)
    (now : Instant) (target : String) : Prop :=
  ∃ relay relayHost endpoint after,
    Runs
      (handleRelayPair config relay relayHost http (.decoded target) now)
      state (.ok endpoint) after

/-- `handleRelayWS` can open a session for a request. -/
def OpensWebSocket (config : Config) (state : State) (http : Request)
    (now : Instant) (target : String) : Prop :=
  ∃ enabled upgrade session after,
    Runs (handleRelayWS config enabled upgrade http target now)
      state (.ok session) after

/-- `serveQUICRelay` can open a session for a token and a target. -/
def OpensQUIC (config : Config) (state : State) (token : String)
    (now : Instant) (target : String) : Prop :=
  ∃ supportsDatagrams acknowledged session after,
    Runs
      (serveQUICRelay config (some ⟨token, target⟩) supportsDatagrams
        acknowledged now)
      state (.ok session) after

/-- `handleSignalMessage` can pass a message of a client to a target. -/
def ForwardsSignal (config : Config) (state : State)
    (client : SignalClient) (target : String) : Prop :=
  ∃ message stamp connected sent after,
    message.target = target ∧
      Runs
        (handleSignalMessage config client (some message) stamp connected)
        state (.ok (some sent)) after

/--
A store operation after which the code goes on has succeeded.  The handlers'
`storing` is the case of responses.
-/
theorem asking_ok
    {Failure Value : Type}
    {answer : StoreError → Failure}
    {action : StoreM Value}
    {value : Value}
    {before after : State}
    (run : Runs (asking answer action) before (.ok value) after) :
    ∃ db, after = before.withDB db ∧
      Runs action before.store.db (.ok value) db := by
  obtain ⟨outcome, middle, zoomed, rest⟩ := run.bind_ok
  obtain ⟨inner, db, shape, innerRun, middleShape⟩ := zoomed.zoom_inv
  cases shape
  cases outcome with
  | ok result =>
      obtain ⟨resultShape, same⟩ := rest.pure_inv
      cases resultShape
      exact ⟨db, same.trans middleShape, innerRun⟩
  | error error =>
      exact rest.raise_ok.elim

theorem require_ok
    {check : Bool}
    {text : String}
    {before after : State}
    (run : Runs (require check text) before (.ok ()) after) :
    check = true ∧ after = before := by
  unfold require at run
  split at run
  · rename_i holds
    exact ⟨holds, run.pure_inv.2⟩
  · exact run.raise_ok.elim

theorem completes_asking
    {Failure Value : Type}
    {answer : StoreError → Failure}
    {action : StoreM Value}
    {value : Value}
    {state : State}
    {db : DB}
    (complete : Completes action state.store.db (.ok value) db) :
    Completes (asking answer action) state (.ok value) (state.withDB db) :=
  Completes.bind
    (@Completes.zoom _ _ _ _ _ _ State.withDB _ _ _ _ complete)
    (completes_pure _ _)

section Requests

variable
  {config : Config}
  {state after : State}
  {http : Request}
  {token target : String}
  {now : Instant}
  {self : PeerRecord}

/-- A request with a peer's token is authenticated as that peer. -/
theorem authenticated_ok
    {id : Int}
    (bears : Bears config http state.store.db self token)
    (run : Runs (authenticated config http now) state (.ok id) after) :
    after = state ∧ id = self.id := by
  obtain ⟨presented, middle, bearerRun, rest⟩ := run.bind_ok
  unfold bearerToken at bearerRun
  rw [bears.bearer] at bearerRun
  obtain ⟨shape, same⟩ := bearerRun.pure_inv
  cases shape
  subst middle
  obtain ⟨peer, middle, authRun, last⟩ := rest.bind_ok
  obtain ⟨db, middleShape, storeRun⟩ := asking_ok authRun
  obtain ⟨sameDB, isSelf⟩ := authenticatePeer_holder bears.holder storeRun
  obtain ⟨idShape, sameEnd⟩ := last.pure_inv
  cases idShape
  subst db
  exact ⟨sameEnd.trans middleShape, isSelf⟩

/-- A relay target is known. -/
theorem relayTarget_ok
    {id : Int}
    {selfKey : String}
    (run : Runs (relayTarget id target) state (.ok selfKey) after) :
    after = state ∧ state.store.db.tables.Knows target := by
  obtain ⟨keys, middle, lookRun, rest⟩ := run.bind_ok
  obtain ⟨db, middleShape, storeRun⟩ := asking_ok lookRun
  obtain ⟨sameDB, known⟩ := relayPairKeys_ok storeRun
  subst db
  split at rest
  · rename_i targetOK
    exact ⟨rest.pure_inv.2.trans middleShape, known.mp targetOK⟩
  · exact rest.raise_ok.elim

/-- Ports are provisioned for named and known targets only. -/
theorem known_of_provisionsPair
    (bears : Bears config http state.store.db self token)
    (provisions : ProvisionsPair config state http now target) :
    target ≠ "" ∧ state.store.db.tables.Knows target := by
  obtain ⟨relay, relayHost, endpoint, after, run⟩ := provisions
  obtain ⟨id, middle, authRun, rest⟩ := run.bind_ok
  obtain ⟨same, -⟩ := authenticated_ok bears authRun
  subst middle
  split at rest
  · exact rest.raise_ok.elim
  · obtain ⟨decoded, middle, decodeRun, rest⟩ := rest.bind_ok
    obtain ⟨shape, same⟩ := Runs.pure_inv decodeRun
    cases shape
    subst middle
    obtain ⟨_, middle, requireRun, rest⟩ := rest.bind_ok
    obtain ⟨named, same⟩ := require_ok requireRun
    subst middle
    obtain ⟨selfKey, middle, targetRun, -⟩ := rest.bind_ok
    exact ⟨by simpa using named, (relayTarget_ok targetRun).2⟩

/-- WebSocket sessions are opened for named and known targets only. -/
theorem known_of_opensWebSocket
    (bears : Bears config http state.store.db self token)
    (opens : OpensWebSocket config state http now target) :
    target ≠ "" ∧ state.store.db.tables.Knows target := by
  obtain ⟨enabled, upgrade, session, after, run⟩ := opens
  unfold handleRelayWS at run
  split at run
  · obtain ⟨id, middle, authRun, rest⟩ := run.bind_ok
    obtain ⟨same, -⟩ := authenticated_ok bears authRun
    subst middle
    obtain ⟨_, middle, requireRun, rest⟩ := rest.bind_ok
    obtain ⟨named, same⟩ := require_ok requireRun
    subst middle
    obtain ⟨selfKey, middle, targetRun, -⟩ := rest.bind_ok
    exact ⟨by simpa using named, (relayTarget_ok targetRun).2⟩
  · exact run.raise_ok.elim

/-- QUIC sessions are opened for known targets only. -/
theorem known_of_opensQUIC
    (holder :
      state.store.db.tables.peerWithToken? (config.store.hashToken token) =
        some self)
    (opens : OpensQUIC config state token now target) :
    state.store.db.tables.Knows target := by
  obtain ⟨supportsDatagrams, acknowledged, session, after, run⟩ := opens
  obtain ⟨peer, middle, authRun, rest⟩ := run.bind_ok
  obtain ⟨db, middleShape, storeRun⟩ := asking_ok authRun
  obtain ⟨sameDB, -⟩ := authenticatePeer_holder holder storeRun
  subst db
  subst middle
  obtain ⟨keys, middle, lookRun, rest⟩ := rest.bind_ok
  obtain ⟨db, -, storeRun⟩ := asking_ok lookRun
  obtain ⟨-, known⟩ := relayPairKeys_ok storeRun
  cases targetOK : keys.2 with
  | true => exact known.mp targetOK
  | false =>
      rw [if_pos (by simp [targetOK])] at rest
      exact rest.raise_ok.elim

/-- A message that is passed on is marked with the sender and may be seen. -/
theorem handleSignalMessage_ok
    {client : SignalClient}
    {given : Option SignalMessage}
    {stamp : String}
    {connected : String → Bool}
    {before after : State}
    {sent : SignalMessage}
    (run :
      Runs (handleSignalMessage config client given stamp connected)
        before (.ok (some sent)) after) :
    (∃ message, given = some message ∧
        sent = { message with sender := client.publicKey, stamp }) ∧
      ∃ row, before.store.db.tables.peerWithID? client.peerID = some row ∧
        Reaches config before row sent.target := by
  unfold handleSignalMessage at run
  split at run
  · exact run.raise_ok.elim
  split at run
  · exact run.raise_ok.elim
  split at run
  · cases run.pure_inv.1
  obtain ⟨outcome, _, zoomed, rest⟩ := run.bind_ok
  obtain ⟨_, _, shape, lookRun, -⟩ := zoomed.zoom_inv
  cases shape
  split at rest
  · exact rest.raise_ok.elim
  obtain ⟨-, ⟨row, lookup, -⟩, rfl⟩ := peersForID_ok lookRun
  split at rest
  · exact rest.raise_ok.elim
  rename_i listed
  split at rest
  · exact rest.raise_ok.elim
  cases rest.pure_inv.1
  simp only [Bool.not_eq_true', Bool.not_eq_false, List.any_eq_true,
    beq_iff_eq] at listed
  obtain ⟨peer, member, named⟩ := listed
  refine ⟨⟨_, rfl, rfl⟩, row, lookup, peer, ?_, named⟩
  rwa [(mem_of_rowWith? lookup).2]

theorem completes_authenticated
    (bears : Bears config http state.store.db self token)
    (fresh : tokenExpired config.store self now = false) :
    Completes (authenticated config http now) state (.ok self.id) state := by
  unfold authenticated bearerToken
  rw [bears.bearer]
  refine (completes_pure token _).bind ?_
  exact (completes_storing (completes_authenticate bears.holder fresh)).bind
    (completes_pure _ _)

theorem completes_relayTarget
    (member : self ∈ state.store.db.tables.peers)
    (known : state.store.db.tables.Knows target) :
    Completes (relayTarget self.id target) state (.ok self.publicKey)
      state :=
  (completes_storing (completes_relayPairKeys member known)).bind
    (completes_pure _ _)

theorem completes_require_named
    (named : target ≠ "")
    (text : String) :
    Completes (require (target != "") text) state (.ok ()) state := by
  unfold require
  rw [if_pos (bne_iff_ne.mpr named)]
  exact completes_pure _ _

/-- Each relay endpoint serves every known target that it lets name. -/
theorem relays_of_known
    (bears : Bears config http state.store.db self token)
    (fresh : tokenExpired config.store self now = false)
    (known : state.store.db.tables.Knows target) :
    (target ≠ "" → ProvisionsPair config state http now target) ∧
      (target ≠ "" → OpensWebSocket config state http now target) ∧
      OpensQUIC config state token now target := by
  have member := List.mem_of_find?_eq_some bears.holder
  have entered := completes_authenticated bears fresh
  have aimed := completes_relayTarget member known
  let session : RelaySession :=
    ⟨relayPairID config.digest self.publicKey target, self.publicKey⟩
  refine ⟨fun named => ?_, fun named => ?_, ?_⟩
  · refine ⟨some (fun _ => .ok (0, 1)), "",
      joinHostPort ""
        (decimal (if textLess target self.publicKey then 1 else 0)),
      state, Completes.runs ?_⟩
    exact entered.bind
      ((completes_pure target state).bind
        ((completes_require_named named _).bind
          (aimed.bind ((completes_pure _ _).bind (completes_pure _ _)))))
  · refine ⟨true, none, session, state, Completes.runs ?_⟩
    exact entered.bind
      ((completes_require_named named _).bind
        (aimed.bind (completes_pure _ _)))
  · refine ⟨true, true, session, state, Completes.runs ?_⟩
    refine
      (completes_asking (completes_authenticate bears.holder fresh)).bind ?_
    exact (completes_asking (completes_relayPairKeys member known)).bind
      (completes_pure _ _)

/-- Every unrevoked peer with a key is shown to an agent. -/
def Shown (config : Config) (state : State) (self : PeerRecord)
    (target : String) : Prop :=
  ∀ peer ∈ state.store.db.tables.peers, peer.publicKey = target →
    peer.isActive = true →
    state.store.db.tables.isVisible self.id config.store.defaultAllow peer =
      true

theorem Shown.reaches
    (shown : Shown config state self target)
    (known : state.store.db.tables.Knows target) :
    Reaches config state self target := by
  obtain ⟨peer, member, named, active⟩ := known
  exact ⟨peer.visibleRow,
    mem_visibleTo.mpr ⟨peer, member, shown peer member named active, rfl⟩,
    named⟩

theorem shown_of_reaches
    (reached :
      state.store.db.tables.Knows target →
        Reaches config state self target) :
    Shown config state self target := by
  intro peer member named active
  obtain ⟨row, listed, rowKey⟩ := reached ⟨peer, member, named, active⟩
  obtain ⟨other, otherMember, visible, rfl⟩ := mem_visibleTo.mp listed
  have same : other = peer :=
    DB.eq_of_publicKey otherMember member (Eq.trans rowKey named.symm)
  exact same ▸ visible

/--
Which targets an agent may name without leaving the policy.  The relay
endpoints keep to it exactly for targets whose peer is shown to the agent of
the request's token, or that they refuse as empty.  `handleSignalMessage` knows
the agent by what its session was opened with, and keeps to the policy for the
agent of that key as long as the row with that id still has the key.
-/
theorem relays_follow_policy_iff
    (config : Config)
    (state : State)
    (target : String) :
    (∀ http token now self,
        Bears config http state.store.db self token →
        tokenExpired config.store self now = false →
          ((ProvisionsPair config state http now target →
                Reaches config state self target) ↔
              target = "" ∨ Shown config state self target) ∧
            ((OpensWebSocket config state http now target →
                Reaches config state self target) ↔
              target = "" ∨ Shown config state self target) ∧
            ((OpensQUIC config state token now target →
                Reaches config state self target) ↔
              Shown config state self target)) ∧
      ∀ client,
        state.HasRow client.peerID client.publicKey →
        ForwardsSignal config state client target →
          ∃ self, self ∈ state.store.db.tables.peers ∧
            self.publicKey = client.publicKey ∧
            Reaches config state self target := by
  constructor
  · intro http token now self bears fresh
    refine ⟨⟨fun follows => ?_, ?_⟩, ⟨fun follows => ?_, ?_⟩,
      ⟨fun follows => ?_, fun shown opens => ?_⟩⟩
    · refine or_iff_not_imp_left.mpr (fun named => shown_of_reaches ?_)
      exact fun known =>
        follows ((relays_of_known bears fresh known).1 named)
    · rintro (empty | shown) provisions
      · exact ((known_of_provisionsPair bears provisions).1 empty).elim
      · exact shown.reaches (known_of_provisionsPair bears provisions).2
    · refine or_iff_not_imp_left.mpr (fun named => shown_of_reaches ?_)
      exact fun known =>
        follows ((relays_of_known bears fresh known).2.1 named)
    · rintro (empty | shown) opens
      · exact ((known_of_opensWebSocket bears opens).1 empty).elim
      · exact shown.reaches (known_of_opensWebSocket bears opens).2
    · refine shown_of_reaches (fun known => ?_)
      exact follows (relays_of_known bears fresh known).2.2
    · exact shown.reaches (known_of_opensQUIC bears.holder opens)
  · rintro client ⟨self, member, isID, isKey⟩
      ⟨message, stamp, connected, sent, after, rfl, run⟩
    obtain ⟨⟨_, given, rfl⟩, row, lookup, reaches⟩ :=
      handleSignalMessage_ok run
    cases given
    rw [← isID, state.store.db.peerWithID?_eq member] at lookup
    cases lookup
    exact ⟨self, member, isKey, reaches⟩

end Requests

/-- Two agents enrol under default-deny and no rule connects them. -/
def strangers : List Store.Input :=
  [.createSetupKey "" 5 0 0 (.ok "key"),
    .enroll ⟨"key", "alice", "", 0, "", ""⟩ 0 (.ok "first"),
    .enroll ⟨"key", "bob", "", 0, "", ""⟩ 0 (.ok "second")].map Op.accepted

/-- A server over the store after that run. -/
def strangersState : State where
  store :=
    (Store.machine (.sample false)).run
      (.empty defaultNetwork (some defaultNetwork6)) strangers
  networkCIDR := defaultNetwork.text
  network6CIDR := defaultNetwork6.text
  punchEpochs := fun _ => {}

/-- The row of the first agent. -/
def alice : PeerRecord where
  id := 1
  publicKey := "alice"
  assignedIP := "100.64.0.1"
  assignedIP6 := some "fd00:100:64::1"
  setupKeyID := 1
  authTokenHash := some "hash of first"
  authTokenIssuedAt := some "0000-01-01T00:00:00.000Z"

/-- A request with the first agent's token. -/
def aliceRequest : Request where
  remoteAddr := ""
  forwardedFor := ""
  authorization := "Bearer first"

theorem alice_bears :
    Bears (.sample false) aliceRequest strangersState.store.db alice
      "first" :=
  ⟨by decide +kernel, by decide +kernel⟩

theorem bob_known :
    strangersState.store.db.tables.Knows "bob" := by
  refine Tables.knows_iff.mp ?_
  decide +kernel

/-- The second agent is removed, and its id goes to a third. -/
def replacement : List Store.Input :=
  [.revokePeer 2 0, .removePeer 2,
    .enroll ⟨"key", "carol", "", 0, "", ""⟩ 0 (.ok "third")].map Op.accepted

/-- The server after that. -/
def replacedState : State :=
  { strangersState with
    store :=
      (Store.machine (.sample false)).run strangersState.store replacement }

/--
Every relay endpoint connects the two agents that may not see each other, and
after the second agent's removal its session still sends in its name.
-/
theorem strangers_relayed :
    (Bears (.sample false) aliceRequest strangersState.store.db alice
        "first" ∧
      ProvisionsPair (.sample false) strangersState aliceRequest 0 "bob" ∧
      OpensWebSocket (.sample false) strangersState aliceRequest 0 "bob" ∧
      OpensQUIC (.sample false) strangersState "first" 0 "bob" ∧
      ¬ Reaches (.sample false) strangersState alice "bob") ∧
      strangersState.HasRow 2 "bob" ∧
      ForwardsSignal (.sample true) replacedState ⟨2, "bob"⟩ "alice" ∧
      ∀ id, ¬ replacedState.HasRow id "bob" := by
  have opened :=
    @relays_of_known _ _ _ _ _ 0 _ alice_bears (by decide +kernel) bob_known
  refine ⟨⟨alice_bears, opened.1 (by decide), opened.2.1 (by decide),
    opened.2.2, ?_⟩, ?_, ?_, ?_⟩
  · rintro ⟨row, listed, -⟩
    have hidden :
        strangersState.store.db.tables.visibleTo alice.id
          (Config.sample false).store.defaultAllow = [] := by
      decide +kernel
    rw [hidden] at listed
    exact (List.not_mem_nil listed).elim
  · have found :
        strangersState.store.db.tables.peers.any (fun row =>
          row.id == 2 && row.publicKey == "bob") = true := by
      decide +kernel
    simpa [State.HasRow] using found
  · have run :=
      Runs.of_session
        (handleSignalMessage (.sample true) ⟨2, "bob"⟩
          (some ⟨"offer", "", "alice", "", ""⟩) "" (fun _ => true))
        ⟨replacedState, []⟩
    have passed :
        (handleSignalMessage (.sample true) ⟨2, "bob"⟩
            (some ⟨"offer", "", "alice", "", ""⟩) "" (fun _ => true)
            ⟨replacedState, []⟩).1 =
          .ok (some ⟨"offer", "bob", "alice", "", ""⟩) := by
      decide +kernel
    exact ⟨_, _, _, _, _, rfl, passed ▸ run⟩
  · rintro id ⟨row, member, -, named⟩
    have gone :
        replacedState.store.db.tables.peers.all
          (fun row => row.publicKey != "bob") = true := by
      decide +kernel
    simpa [named] using List.all_eq_true.mp gone row member

/-- With an open policy the first agent may relay and signal to the second. -/
theorem relays_follow_policy_alice :
    (OpensWebSocket (.sample true) strangersState aliceRequest 0 "bob" →
        Reaches (.sample true) strangersState alice "bob") ∧
      (OpensQUIC (.sample true) strangersState "first" 0 "bob" →
        Reaches (.sample true) strangersState alice "bob") ∧
      (ForwardsSignal (.sample true) strangersState ⟨1, "alice"⟩ "bob" →
        ∃ self, self ∈ strangersState.store.db.tables.peers ∧
          self.publicKey = "alice" ∧
          Reaches (.sample true) strangersState self "bob") := by
  have bears :
      Bears (.sample true) aliceRequest strangersState.store.db alice
        "first" :=
    ⟨by decide +kernel, by decide +kernel⟩
  have fresh : tokenExpired (Config.sample true).store alice 0 = false := by
    decide +kernel
  have follow := relays_follow_policy_iff (.sample true) strangersState "bob"
  have relays := follow.1 aliceRequest "first" 0 alice bears fresh
  have shown : Shown (.sample true) strangersState alice "bob" := by
    have checked :
        strangersState.store.db.tables.peers.all (fun peer =>
          peer.publicKey != "bob" || !peer.isActive ||
            strangersState.store.db.tables.isVisible alice.id
              (Config.sample true).store.defaultAllow peer) = true := by
      decide +kernel
    intro peer member named active
    have seen := List.all_eq_true.mp checked peer member
    simpa [named, active] using seen
  refine ⟨relays.2.1.mpr (Or.inr shown), relays.2.2.mpr shown,
    follow.2 ⟨1, "alice"⟩ ?_⟩
  exact ⟨alice, List.mem_of_find?_eq_some bears.holder, rfl, rfl⟩

end Server

end WgMesh
