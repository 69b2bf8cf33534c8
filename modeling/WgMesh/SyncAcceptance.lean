import WgMesh.AddressAllocation
import WgMesh.AgentSync
import WgMesh.ControlPlane

namespace WgMesh

/-!
# Whether one agent can stop another agent's sync

An agent drops a whole sync payload when one entry cannot be converted.  The
entries are printed from the store, so they can be converted when every row
is dialable: its key parses, its addresses are canonical, and every endpoint
text in it resolves.  The handlers establish all of this except for the public
endpoint, which they store as sent.
-/

open CivilTime FiniteRuns NetAddress PairKeys RowTables TextScan
open Transactions

/-- An address text without brackets, as sources of connections have. -/
def IsLiteral (host : String) : Prop :=
  (parseAddr host).isSome = true ∧ '[' ∉ host.toList ∧ ']' ∉ host.toList

instance (host : String) : Decidable (IsLiteral host) :=
  inferInstanceAs (Decidable (_ ∧ _ ∧ _))

namespace Store

/-- What the entries printed from a row need of it. -/
structure PeerRecord.Dialable
    (resolves : String → Bool)
    (peer : PeerRecord) : Prop where
  publicKey : (parseKey peer.publicKey).isSome = true
  publicEndpoint :
    ∀ text, peer.publicEndpoint = some text → resolves text = true
  observedIP : ∀ text, peer.observedIP = some text → IsLiteral text
  listenPort : ∀ port, peer.listenPort = some port → port ≤ 65535
  candidates :
    ∀ candidate, candidate ∈ peer.candidates →
      resolves candidate.endpoint = true

/-- A text that may be stored as an endpoint. -/
def EndpointText (resolves : String → Bool) (text : String) : Prop :=
  text = "" ∨ resolves text = true

/-- A text that may be stored as an observed address. -/
def ObservedText (text : String) : Prop :=
  text = "" ∨ IsLiteral text

/-- The operation writes dialable values only. -/
def Op.Dialable (resolves : String → Bool) : Op → Prop
  | .enroll args _ _ =>
      (parseKey args.publicKey).isSome = true ∧
        EndpointText resolves args.publicEndpoint ∧
        ObservedText args.observedIP ∧ args.listenPort ≤ 65535
  | .createStaticPeer spec _ _ _ =>
      (parseKey (trimSpace spec.publicKey)).isSome = true
  | .updatePeerCandidates _ candidates =>
      ∀ candidate, candidate ∈ candidates →
        resolves candidate.endpoint = true
  | .applyReport _ observedIP report _ =>
      EndpointText resolves report.publicEndpoint ∧
        ObservedText observedIP ∧
        ∀ candidate, candidate ∈ report.candidates →
          resolves candidate.endpoint = true
  | _ => True

variable {resolves : String → Bool}

theorem EndpointText.stored
    {text stored : String}
    (endpoint : EndpointText resolves text)
    (filled : nullable text = some stored) :
    resolves stored = true := by
  have same := nullable_eq_some filled
  subst stored
  rcases endpoint with rfl | resolved
  · cases filled
  · exact resolved

theorem ObservedText.stored
    {text stored : String}
    (observed : ObservedText text)
    (filled : nullable text = some stored) :
    IsLiteral stored := by
  have same := nullable_eq_some filled
  subst stored
  rcases observed with rfl | literal
  · cases filled
  · exact literal

theorem nullablePort_eq_some
    {port stored : Int}
    (filled : nullablePort port = some stored) :
    port = stored := by
  unfold nullablePort at filled
  split at filled
  · exact Option.some.inj filled
  · cases filled

theorem PeerRecord.Dialable.of_columns
    {old row : PeerRecord}
    (dialable : old.Dialable resolves)
    (publicKey : row.publicKey = old.publicKey)
    (publicEndpoint : row.publicEndpoint = old.publicEndpoint)
    (observedIP : row.observedIP = old.observedIP)
    (listenPort : row.listenPort = old.listenPort)
    (candidates : row.candidates = old.candidates) :
    row.Dialable resolves where
  publicKey := publicKey ▸ dialable.publicKey
  publicEndpoint := publicEndpoint ▸ dialable.publicEndpoint
  observedIP := observedIP ▸ dialable.observedIP
  listenPort := listenPort ▸ dialable.listenPort
  candidates := candidates ▸ dialable.candidates

/-- Dialable operations leave dialable rows. -/
theorem RowOrigin.dialable
    {config : Config}
    {view : NetworkView}
    {before after : DB}
    {op : Op}
    {reply : Reply}
    {row : PeerRecord}
    (origin : RowOrigin config view before after op reply row)
    (allowed : op.Dialable resolves)
    (known :
      ∀ old ∈ before.tables.peers, old.Dialable resolves) :
    row.Dialable resolves := by
  cases origin with
  | kept member => exact known _ member
  | refreshed member done =>
      obtain ⟨-, endpoint, observed, port⟩ := allowed
      have old := known _ member
      refine ⟨old.publicKey, ?_, ?_, ?_, old.candidates⟩
      · intro text filled
        rcases coalesce_eq_some filled with new | kept
        · exact endpoint.stored new
        · exact old.publicEndpoint text kept
      · intro text filled
        rcases coalesce_eq_some filled with new | kept
        · exact observed.stored new
        · exact old.observedIP text kept
      · intro stored filled
        rcases coalesce_eq_some filled with new | kept
        · exact nullablePort_eq_some new ▸ port
        · exact old.listenPort stored kept
  | enrolled done =>
      obtain ⟨key, endpoint, observed, port⟩ := allowed
      refine ⟨key, fun text => endpoint.stored,
        fun text => observed.stored, ?_, ?_⟩
      · intro stored filled
        exact nullablePort_eq_some filled ▸ port
      · intro candidate member
        cases member
  | static done =>
      refine ⟨allowed, ?_, ?_, ?_, ?_⟩
      · intro text filled
        cases filled
      · intro text filled
        cases filled
      · intro port filled
        cases filled
      · intro candidate member
        cases member
  | reported member _ =>
      obtain ⟨endpoint, observed, candidates⟩ := allowed
      have old := known _ member
      refine ⟨old.publicKey, ?_, ?_, old.listenPort, ?_⟩
      · intro text filled
        rcases coalesce_eq_some filled with new | kept
        · exact endpoint.stored new
        · exact old.publicEndpoint text kept
      · intro text filled
        rcases coalesce_eq_some filled with new | kept
        · exact observed.stored new
        · exact old.observedIP text kept
      · intro candidate listed
        simp only [PeerRecord.reported] at listed
        split at listed
        · exact old.candidates candidate listed
        · exact candidates candidate listed
  | candidates member _ =>
      have old := known _ member
      exact ⟨old.publicKey, old.publicEndpoint, old.observedIP,
        old.listenPort, allowed⟩
  | readdressed member _ _ =>
      exact (known _ member).of_columns rfl rfl rfl rfl rfl
  | moved member _ _ =>
      exact (known _ member).of_columns rfl rfl rfl rfl rfl
  | revoked member _ =>
      exact (known _ member).of_columns rfl rfl rfl rfl rfl
  | cleared member _ =>
      exact (known _ member).of_columns rfl rfl rfl rfl rfl
  | offer member _ =>
      exact (known _ member).of_columns rfl rfl rfl rfl rfl
  | exit member _ =>
      exact (known _ member).of_columns rfl rfl rfl rfl rfl

/-- Every row has canonical addresses and dialable values. -/
structure State.Sendable
    (resolves : String → Bool)
    (state : State) : Prop where
  addressed : state.Addressed
  rows :
    ∀ row ∈ state.db.tables.peers, row.Dialable resolves

theorem State.Sendable.effect
    {config : Config}
    {state : State}
    {after : DB}
    {op : Op}
    {reply : Reply}
    (sendable : state.Sendable resolves)
    (allowed : op.Dialable resolves ∧ op.TargetsFamilies)
    (effect : Effect config state.view state.db after op reply) :
    (remember { state with db := after } op reply).Sendable resolves where
  addressed := sendable.addressed.effect allowed.2 effect
  rows := by
    intro row member
    rw [remember_db] at member
    exact (effect.origin member).dialable allowed.1 sendable.rows

end Store

namespace Server

open Store Agent

/--
What `clientIP` takes from a request is an address literal or nothing.  Behind a
trusted proxy that is the last entry of the first forwarding line, which a
client that sends further lines chooses itself.
-/
def Call.Observed (config : Config) : Call → Prop
  | .enroll http _ _ _ _ => ObservedText (config.clientIP http)
  | .report http _ _ _ => ObservedText (config.clientIP http)
  | _ => True

/-- The public endpoint in a request is empty or resolves. -/
def Call.EndpointResolves (config : Config) : Call → Prop
  | .enroll _ (.decoded sent) _ _ _ =>
      EndpointText config.resolves sent.publicEndpoint
  | .report _ (.decoded sent) _ _ =>
      EndpointText config.resolves sent.publicEndpoint
  | _ => True

theorem resolves_of_mem_validAgentCandidates
    {resolves : String → Bool}
    {candidates : List AgentCandidate}
    {candidate : AgentCandidate}
    (member : candidate ∈ validAgentCandidates resolves candidates) :
    resolves candidate.endpoint = true := by
  have kept := (List.mem_filter.mp (List.mem_of_mem_take member)).2
  rw [Bool.and_eq_true] at kept
  exact kept.2

/-- Admin operations write no key and no endpoint. -/
theorem AdminOp.dialable
    (admin : AdminOp)
    (resolves : String → Bool) :
    admin.op.Dialable resolves ∧ admin.op.TargetsFamilies := by
  obtain ⟨op, isAdminOp⟩ := admin
  cases op with
  | enroll _ _ _ => cases isAdminOp
  | createStaticPeer _ _ _ _ => cases isAdminOp
  | updatePeerCandidates _ _ => cases isAdminOp
  | applyReport _ _ _ _ => cases isAdminOp
  | applyNetworkMigration _ _ => cases isAdminOp
  | _ => exact ⟨trivial, trivial⟩

variable {state : State} {relay : Relay}

/-- A request whose endpoint resolves performs dialable operations. -/
theorem Performed.dialable
    {config : Config}
    {call : Call}
    {ops : List (Op × Reply)}
    (performed : Performed config state call ops)
    (observed : call.Observed config)
    (endpoint : call.EndpointResolves config) :
    ∀ step, step ∈ ops →
      step.1.Dialable config.resolves ∧ step.1.TargetsFamilies := by
  intro step member
  cases performed with
  | nothing => cases member
  | enrolled checked follows =>
      rcases List.mem_cons.mp member with rfl | later
      · exact ⟨⟨checked.publicKey, endpoint, observed,
          checked.listenPort.2⟩, trivial⟩
      · rcases follows step later with rfl | rfl
        · exact
            ⟨fun _ listed => resolves_of_mem_validAgentCandidates listed,
              trivial⟩
        · exact ⟨trivial, trivial⟩
  | reported _ _ _ _ =>
      rw [List.mem_singleton.mp member]
      exact ⟨⟨endpoint, observed,
        fun _ listed => resolves_of_mem_validAgentCandidates listed⟩,
        trivial⟩
  | @mobilePeer _ _ _ _ _ spec key _ canonical =>
      rw [List.mem_singleton.mp member]
      refine ⟨?_, trivial⟩
      change (parseKey (trimSpace spec.publicKey)).isSome = true
      rw [canonical, trimSpace_text, parseKey_text]
      rfl
  | migrated families =>
      rw [List.mem_singleton.mp member]
      exact ⟨trivial, families⟩
  | admin op reply =>
      rw [List.mem_singleton.mp member]
      exact op.dialable _

/-- The server's rows are sendable. -/
def State.Sendable (config : Config) (state : State) : Prop :=
  state.store.Sendable config.resolves

theorem State.Sendable.step
    {config : Config}
    {input : Input}
    (sendable : state.Sendable config)
    (allowed :
      input.call.Observed config ∧ input.call.EndpointResolves config) :
    ((machine config).step state input).2.Sendable config := by
  obtain ⟨ops, performed, path⟩ := step_performs config state input
  exact path.invariant
    (fun _ _ _ _ holds allowed effect => holds.effect allowed effect)
    (performed.dialable allowed.1 allowed.2) sendable

/--
What `net.ResolveUDPAddr` does with literals: it accepts a host that is an
address literal, joined with a port, and the text of an address with a port.
-/
structure ResolvesLiterals (resolve : String → Option AddrPort) : Prop where
  joined :
    ∀ host port, IsLiteral host → 0 < port → port ≤ 65535 →
      (resolve (joinHostPort host (decimal port))).isSome = true
  printed :
    ∀ source : AddrPort, IsLiteral source.addr.text →
      (resolve source.text).isSome = true

/-- The relay has observed address literals only. -/
def Relay.Literal (relay : Relay) : Prop :=
  ∀ pairID sources source, relay pairID = some sources →
    sources.1 = some source ∨ sources.2 = some source →
      IsLiteral source.addr.text

/-- A live mapping is an address the relay has observed. -/
theorem Relay.Literal.relaySource
    {digest : String → String}
    {self p : PeerRow}
    {source : AddrPort}
    (literal : Relay.Literal relay)
    (found : relaySource relay digest self p = some source) :
    IsLiteral source.addr.text := by
  unfold Server.relaySource at found
  split at found
  · cases found
  · rename_i srcA srcB observed
    obtain ⟨picked, -⟩ := Option.filter_eq_some_iff.mp found
    split at picked
    · exact literal _ _ source observed (Or.inr picked)
    · exact literal _ _ source observed (Or.inl picked)

theorem parseCIDR_of_canonical
    {family : Family}
    {text suffix : String}
    {bits : Nat}
    (canonical : CanonicalText family text)
    (fits : bits ≤ family.width)
    (printed : suffix = "/" ++ String.ofList (Nat.toDigits 10 bits)) :
    (parseCIDR (text ++ suffix)).isSome = true := by
  obtain ⟨addr, rfl, zoneFree, rfl⟩ := canonical
  have shape : addr.text ++ suffix = Prefix.text ⟨addr, bits, fits⟩ := by
    rw [printed, ← String.append_assoc]
    rfl
  rw [shape, parseCIDR_text zoneFree]
  rfl

/-- The prefixes printed for a canonical row can be read. -/
theorem allowedIPs_parse
    {peer : PeerRecord}
    (canonical : peer.Canonical)
    {cidr : String}
    (member : cidr ∈ allowedIPsForPeer peer.visibleRow) :
    (parseCIDR cidr).isSome = true := by
  rcases List.mem_cons.mp member with rfl | inSecond
  · exact @parseCIDR_of_canonical _ _ _ 32 canonical.first (by decide)
      (by decide)
  · split at inSecond
    · rename_i filled
      rw [List.mem_singleton.mp inSecond]
      exact @parseCIDR_of_canonical _ _ _ 128
        (canonical.second _ (eq_some_orEmpty filled)) (by decide)
        (by decide)
    · cases inSecond

variable {config : Config} {resolve : String → Option AddrPort}

/-- Every endpoint offered for a dialable row resolves. -/
theorem pairCandidates_resolve
    (same : ∀ text, config.resolves text = (resolve text).isSome)
    (literals : ResolvesLiterals resolve)
    (relayed : Relay.Literal relay)
    {peer : PeerRecord}
    (dialable : peer.Dialable config.resolves)
    (self : PeerRow) :
    EachEndpoint (fun endpoint => (resolve endpoint).isSome = true)
      (pairCandidates relay config.digest self peer.visibleRow) := by
  apply eachEndpoint_pairCandidates
  · intro candidate member
    rw [← same]
    exact dialable.candidates candidate member
  · intro endpoint found
    unfold lanEndpoint at found
    split at found
    · rename_i filled
      cases found
      have port : peer.listenPort = some (orZero peer.listenPort) := by
        have positive : 0 < orZero peer.listenPort := filled.2
        cases stored : peer.listenPort with
        | none =>
            rw [stored] at positive
            exact absurd positive (by decide)
        | some port => rfl
      exact literals.joined _ _
        (dialable.observedIP _ (eq_some_orEmpty filled.1)) filled.2
        (dialable.listenPort _ port)
    · cases found
  · intro filled
    rw [← same]
    exact dialable.publicEndpoint _ (eq_some_orEmpty filled)
  · intro source found
    exact literals.printed source (relayed.relaySource found)

/-- Every entry printed from sendable rows is acceptable. -/
theorem buildPeerEntries_acceptable
    (same : ∀ text, config.resolves text = (resolve text).isSome)
    (literals : ResolvesLiterals resolve)
    (relayed : Relay.Literal relay)
    (sendable : state.Sendable config)
    (epochs : PunchEpochs)
    (self : PeerRow)
    (id : Int)
    {entry : PeerConfigResponse}
    (member :
      entry ∈
        buildPeerEntries config relay epochs self
          (state.store.db.tables.visibleTo id
            config.store.defaultAllow)) :
    Acceptable resolve entry := by
  obtain ⟨o, kept, rfl⟩ := List.mem_map.mp member
  have visible := (List.mem_filter.mp kept).1
  obtain ⟨peer, peerMember, -, rfl⟩ := mem_visibleTo.mp visible
  have dialable := sendable.rows peer peerMember
  have canonical := sendable.addressed.rows peer peerMember
  have preshared :
      ∀ text,
        some (derivePairKey config.hkdf self.publicKey
          peer.publicKey).text = some text →
          (parseKey text).isSome = true := by
    rintro text ⟨⟩
    rw [parseKey_text]
    rfl
  unfold peerEntry
  dsimp only
  split
  · exact ⟨dialable.publicKey, Or.inl rfl,
      fun _ listed => allowedIPs_parse canonical listed, preshared⟩
  · refine ⟨dialable.publicKey, ?_, ?_, preshared⟩
    · have resolved :=
        pairCandidates_resolve same literals relayed dialable self
      cases offered :
          pairCandidates relay config.digest self peer.visibleRow with
      | nil => exact Or.inl rfl
      | cons candidate rest =>
          rw [offered] at resolved
          exact Or.inr (resolved candidate List.mem_cons_self)
    · intro cidr listed
      rcases List.mem_append.mp listed with routed | exit
      · rcases List.mem_append.mp routed with own | mobile
        · exact allowedIPs_parse canonical own
        · obtain ⟨m, mobileMember, inMobile⟩ := List.mem_flatMap.mp mobile
          obtain ⟨mobilePeer, mobilePeerMember, -, rfl⟩ :=
            mem_visibleTo.mp (List.mem_filter.mp mobileMember).1
          exact allowedIPs_parse
            (sendable.addressed.rows mobilePeer mobilePeerMember) inMobile
      · split at exit
        · rcases List.mem_cons.mp exit with rfl | last
          · decide +kernel
          · rw [List.mem_singleton.mp last]
            decide +kernel
        · cases exit

theorem State.Sendable.start
    {start : State}
    (initial : start.store.Initial) :
    start.Sendable config := by
  refine ⟨initial.addressed, ?_⟩
  intro row member
  rw [initial.empty] at member
  cases member

/--
In every run of the control plane whose enrolments and reports carry a public
endpoint that is empty or resolves, and whose forwarded address, where it is
trusted, is a literal, each entry of each payload is converted, and the agent
that receives the payload applies it in full.

The server and the agent resolve names alike, address literals resolve, and
the relay sees literals as its sources.
-/
theorem sync_applied_of_endpointResolves
    (config : Config)
    (resolve : String → Option AddrPort)
    (same : ∀ text, config.resolves text = (resolve text).isSome)
    (literals : ResolvesLiterals resolve)
    (start : State)
    (initial : start.store.Initial)
    (inputs : List Input)
    (observed : ∀ input ∈ inputs, input.call.Observed config)
    (resolvable :
      ∀ input ∈ inputs, input.call.EndpointResolves config)
    (relay : Relay)
    (relayed : Relay.Literal relay)
    (epochs : PunchEpochs)
    (self : PeerRow)
    (id : Int)
    (sync : ReportResponse)
    (payload :
      sync.peers =
        buildPeerEntries config relay epochs self
          (((machine config).run start inputs).store.db.tables.visibleTo id
            config.store.defaultAllow)) :
    (∀ entry, entry ∈ sync.peers →
        ∃ peer, peerConfigFromProto resolve entry = .ok peer) ∧
      ∃ applied, applySync resolve (.ok ()) sync = .ok applied ∧
        desiredPeers resolve sync.peers = .ok applied.desired ∧
        applied.acl = sync.acl := by
  have conforms :
      ∀ visit, visit ∈ (machine config).visits start inputs →
        visit.input.call.Observed config ∧
          visit.input.call.EndpointResolves config := by
    intro visit visited
    have member : visit.input ∈ inputs := by
      rw [← (machine config).map_input_visits start inputs]
      exact List.mem_map_of_mem visited
    exact ⟨observed _ member, resolvable _ member⟩
  have sendable :
      ((machine config).run start inputs).Sendable config :=
    ((machine config).visits_invariant
      (fun _ _ holds allowed => holds.step allowed)
      (State.Sendable.start initial) conforms).1
  have acceptable :
      ∀ entry ∈ sync.peers, Acceptable resolve entry := by
    intro entry member
    rw [payload] at member
    exact buildPeerEntries_acceptable same literals relayed sendable epochs
      self id member
  refine ⟨?_, applySync_ok acceptable⟩
  intro entry member
  obtain ⟨peer, converted, -⟩ :=
    peerConfigFromProto_ok (acceptable entry member)
  exact ⟨peer, converted⟩

/-- A resolver that accepts every text with a port separator. -/
def resolveSeparated (text : String) : Option AddrPort :=
  if ':' ∈ text.toList then
    some ⟨⟨.v4, 0, "", by decide⟩, 0, by decide⟩
  else
    none

/-- It accepts address literals with a port. -/
theorem resolveSeparated_literals : ResolvesLiterals resolveSeparated where
  joined := by
    intro host port _ _ _
    unfold resolveSeparated joinHostPort
    split <;> simp
  printed := by
    intro source _
    unfold resolveSeparated AddrPort.text
    split <;> simp

/-- A configuration with that resolver. -/
def Config.separated : Config :=
  { Config.sample true with
    resolves := fun text => (resolveSeparated text).isSome }

/-- An enrolment with a public endpoint. -/
def enrolment (publicKey publicEndpoint token : String) : Input where
  call :=
    .enroll ⟨"192.0.2.7:4000", "", ""⟩
      (.decoded
        { setupKey := "key"
          publicKey := publicKey
          hostname := ""
          listenPort := 51820
          publicEndpoint := publicEndpoint
          candidates := []
          advertiseExitNode := false })
      (fun _ => none) 0 (.ok token)
  answers := []

/-- Two agents enrol; the second one sends a public endpoint. -/
def twoAgents (publicEndpoint : String) : List Input :=
  [⟨.admin ⟨sampleSetupKey, isAdmin_sampleSetupKey⟩, []⟩,
    enrolment "AAAAAAAAAAAAAAAAAAAAAAAAAAAAAAAAAAAAAAAAAAA=" "" "first",
    enrolment "AQAAAAAAAAAAAAAAAAAAAAAAAAAAAAAAAAAAAAAAAAA="
      publicEndpoint "second"]

/-- An empty report of the first agent. -/
def firstReport : Input where
  call :=
    .report ⟨"192.0.2.7:4000", "", "Bearer first"⟩ (.decoded {})
      (fun _ => none) ⟨0, 0, 0⟩
  answers := []

/-- The error with which an agent drops an answer, if it does. -/
def dropped (resolve : String → Option AddrPort) :
    Response → Option String
  | .report sync =>
      match applySync resolve (.ok ()) sync with
      | .error text => some text
      | .ok _ => none
  | _ => none

/-- One agent's public endpoint stops the other agent's sync. -/
theorem sync_dropped_bogusEndpoint :
    dropped resolveSeparated
        ((machine .separated).step
          ((machine .separated).run .fresh (twoAgents "bogus"))
          firstReport).1 =
      some "resolve endpoint \"bogus\"" := by
  decide +kernel

/-- A payload for the first agent when the second one's endpoint resolves. -/
def literalSync : ReportResponse :=
  reportResponse .separated (fun _ => none)
    ((machine .separated).run .fresh (twoAgents "192.0.2.8:51820"))
    { id := 1 }
    (((machine .separated).run .fresh
      (twoAgents "192.0.2.8:51820")).store.db.tables.visibleTo 1
        Config.separated.store.defaultAllow)
    (Settings.dns {}) ⟨"allow", []⟩

/-- With an endpoint that resolves, the other agent's sync is applied. -/
theorem sync_applied_literalEndpoint :
    ∃ applied,
      applySync resolveSeparated (.ok ()) literalSync = .ok applied ∧
        desiredPeers resolveSeparated literalSync.peers =
          .ok applied.desired ∧
        applied.acl = literalSync.acl := by
  have literal :
      ObservedText
        (Config.separated.clientIP ⟨"192.0.2.7:4000", "", ""⟩) :=
    Or.inr (by decide +kernel)
  have observed :
      ∀ input, input ∈ twoAgents "192.0.2.8:51820" →
        input.call.Observed .separated := by
    intro input member
    rcases List.mem_cons.mp member with rfl | member
    · trivial
    rcases List.mem_cons.mp member with rfl | member
    · exact literal
    rw [List.mem_singleton.mp member]
    exact literal
  have resolvable :
      ∀ input, input ∈ twoAgents "192.0.2.8:51820" →
        input.call.EndpointResolves .separated := by
    intro input member
    rcases List.mem_cons.mp member with rfl | member
    · trivial
    rcases List.mem_cons.mp member with rfl | member
    · exact Or.inl rfl
    rw [List.mem_singleton.mp member]
    exact Or.inr (by decide)
  exact
    (sync_applied_of_endpointResolves .separated resolveSeparated
      (fun _ => rfl) resolveSeparated_literals .fresh State.fresh_initial
      (twoAgents "192.0.2.8:51820") observed resolvable (fun _ => none)
      (by rintro pairID sources source ⟨⟩)
      ((machine .separated).run .fresh
        (twoAgents "192.0.2.8:51820")).punchEpochs
      { id := 1 } 1 literalSync (by rw [literalSync, reportResponse])).2

end Server

end WgMesh
