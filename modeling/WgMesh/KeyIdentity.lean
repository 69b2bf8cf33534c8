import WgMesh.SyncAcceptance
import WgMesh.MutualVisibility

namespace WgMesh

/-!
# One row for each WireGuard key

The database compares key texts, the agents compare keys.  Both agree where
every stored text is the printed form of its key: printed forms parse back,
so that different texts then belong to different keys.  `handleEnroll` stores
the text it was sent, which need not be a printed form.
-/

namespace Store

open PairKeys TextScan

/-- A text is the printed form of a key. -/
def IsKeyText (text : String) : Prop :=
  ∃ key : Key, text = key.text

/-- The key text that an operation may store. -/
def Op.keyText : Op → Option String
  | .enroll args _ _ => some args.publicKey
  | .createStaticPeer spec _ _ _ => some (trimSpace spec.publicKey)
  | _ => none

/-- A row keeps the key text of an old row or has the operation's. -/
theorem RowOrigin.keyText
    {config : Config}
    {view : NetworkView}
    {before after : DB}
    {op : Op}
    {reply : Reply}
    {row : PeerRecord}
    (origin : RowOrigin config view before after op reply row) :
    (∃ old ∈ before.tables.peers, row.publicKey = old.publicKey) ∨
      op.keyText = some row.publicKey := by
  cases origin with
  | enrolled _ => exact Or.inr rfl
  | static _ => exact Or.inr rfl
  | kept member => exact Or.inl ⟨_, member, rfl⟩
  | refreshed member _ => exact Or.inl ⟨_, member, rfl⟩
  | readdressed member _ _ => exact Or.inl ⟨_, member, rfl⟩
  | moved member _ _ => exact Or.inl ⟨_, member, rfl⟩
  | revoked member _ => exact Or.inl ⟨_, member, rfl⟩
  | cleared member _ => exact Or.inl ⟨_, member, rfl⟩
  | candidates member _ => exact Or.inl ⟨_, member, rfl⟩
  | offer member _ => exact Or.inl ⟨_, member, rfl⟩
  | exit member _ => exact Or.inl ⟨_, member, rfl⟩
  | reported member _ => exact Or.inl ⟨_, member, rfl⟩

/-- Every stored key text is a printed form. -/
def State.KeysPrinted (state : State) : Prop :=
  ∀ row ∈ state.db.tables.peers, IsKeyText row.publicKey

/-- Operations with printed keys keep the stored keys printed. -/
theorem State.KeysPrinted.effect
    {config : Config}
    {state : State}
    {after : DB}
    {op : Op}
    {reply : Reply}
    (printed : state.KeysPrinted)
    (allowed : ∀ text, op.keyText = some text → IsKeyText text)
    (effect : Effect config state.view state.db after op reply) :
    (remember { state with db := after } op reply).KeysPrinted := by
  intro row member
  rw [remember_db] at member
  rcases (effect.origin member).keyText with
    ⟨old, oldMember, same⟩ | stored
  · rw [same]
    exact printed old oldMember
  · exact allowed _ stored

theorem IsKeyText.eq_of_parse
    {first second : String}
    (isFirst : IsKeyText first)
    (isSecond : IsKeyText second)
    (sameKey : parseKey first = parseKey second) :
    first = second := by
  obtain ⟨firstKey, rfl⟩ := isFirst
  obtain ⟨secondKey, rfl⟩ := isSecond
  rw [parseKey_text, parseKey_text] at sameKey
  rw [Option.some.inj sameKey]

end Store

namespace Server

open Agent FiniteRuns PairKeys Store TextScan

/-- The key text of an enrolment, if it is a key, is its printed form. -/
def Call.PrintsKey : Call → Prop
  | .enroll _ (.decoded sent) _ _ _ =>
      ∀ key, parseKey sent.publicKey = some key → sent.publicKey = key.text
  | _ => True

theorem AdminOp.keyText_eq_none
    (admin : AdminOp) :
    admin.op.keyText = none := by
  obtain ⟨op, isAdminOp⟩ := admin
  cases op with
  | enroll _ _ _ => cases isAdminOp
  | createStaticPeer _ _ _ _ => cases isAdminOp
  | _ => rfl

/-- What a request stores as key texts are printed forms. -/
theorem Performed.isKeyText
    {config : Config}
    {state : State}
    {call : Call}
    {ops : List (Op × Reply)}
    (performed : Performed config state call ops)
    (prints : call.PrintsKey) :
    ∀ step, step ∈ ops →
      ∀ text, step.1.keyText = some text → IsKeyText text := by
  intro step member text stored
  cases performed with
  | nothing => cases member
  | enrolled checked follows =>
      rcases List.mem_cons.mp member with rfl | later
      · obtain ⟨key, parsed⟩ :=
          Option.isSome_iff_exists.mp checked.publicKey
        cases stored
        exact ⟨key, prints key parsed⟩
      · rcases follows step later with rfl | rfl
        · cases stored
        · cases stored
  | reported _ _ _ _ =>
      rw [List.mem_singleton.mp member] at stored
      cases stored
  | @mobilePeer _ _ _ _ _ spec key _ canonical =>
      -- The handler derives the public key and stores its printed form.
      rw [List.mem_singleton.mp member] at stored
      cases stored
      exact ⟨config.publicKeyOf key, by rw [canonical, trimSpace_text]⟩
  | migrated families =>
      rw [List.mem_singleton.mp member] at stored
      cases stored
  | admin op reply =>
      rw [List.mem_singleton.mp member] at stored
      cases op.keyText_eq_none.symm.trans stored

/-- The server's stored key texts are printed forms. -/
def State.KeysPrinted (state : State) : Prop :=
  state.store.KeysPrinted

/-- A run whose enrolments print their keys stores printed keys only. -/
theorem keysPrinted_run
    (config : Config)
    {start : State}
    (empty : start.store.db = DB.empty)
    {inputs : List Input}
    (prints : ∀ input ∈ inputs, input.call.PrintsKey) :
    ((machine config).run start inputs).KeysPrinted := by
  refine @Machine.run_invariant_on _ _ _ (machine config) State.KeysPrinted
    (fun input => input.call.PrintsKey) ?_ _ ?_ _ prints
  · intro state input printed allowed
    obtain ⟨ops, performed, path⟩ := step_performs config state input
    exact path.invariant
      (fun _ _ _ _ holds allowed effect => holds.effect allowed effect)
      (performed.isKeyText allowed) printed
  · intro row member
    rw [empty] at member
    cases member

section Payloads

variable {config : Config} {relay : Relay} {epochs : PunchEpochs}

/-- The keys of a payload are keys of peers, without repetition. -/
theorem entryKeys_sublist
    (self : PeerRow)
    (tables : Tables)
    (id : Int)
    (defaultAllow : Bool) :
    List.Sublist
      ((buildPeerEntries config relay epochs self
        (tables.visibleTo id defaultAllow)).map (·.publicKey))
      (tables.peers.map (·.publicKey)) := by
  have keys :
      (buildPeerEntries config relay epochs self
          (tables.visibleTo id defaultAllow)).map (·.publicKey) =
        ((tables.visibleTo id defaultAllow).filter (hasEntry self)).map
          (·.publicKey) := by
    unfold buildPeerEntries
    rw [List.map_map]
    exact List.map_congr_left (fun o _ => peerEntry_publicKey _ _ o)
  have visible :
      List.Sublist ((tables.visibleTo id defaultAllow).map (·.publicKey))
        (tables.peers.map (·.publicKey)) := by
    unfold Tables.visibleTo
    rw [List.map_map]
    exact List.filter_sublist.map _
  rw [keys]
  exact (List.filter_sublist.map _).trans visible

/-- With printed keys, the agent configures a payload's peers apart. -/
theorem desired_distinct
    {db : DB}
    (printed : ∀ row ∈ db.tables.peers, IsKeyText row.publicKey)
    {self : PeerRow}
    {id : Int}
    {defaultAllow : Bool}
    {resolve : String → Option AddrPort}
    {desired : List PeerConfig}
    (converted :
      desiredPeers resolve
        (buildPeerEntries config relay epochs self
          (db.tables.visibleTo id defaultAllow)) = .ok desired) :
    (desired.map (·.publicKey)).Nodup := by
  have sub := @entryKeys_sublist config relay epochs self db.tables id
    defaultAllow
  have texts := db.legal.publicKeyUnique.sublist sub
  have parsed :
      ((buildPeerEntries config relay epochs self
        (db.tables.visibleTo id defaultAllow)).map
          (fun entry => parseKey entry.publicKey)).Nodup := by
    have apart :
        (((buildPeerEntries config relay epochs self
          (db.tables.visibleTo id defaultAllow)).map (·.publicKey)).map
            parseKey).Nodup := by
      refine List.Nodup.map_on ?_ texts
      intro first firstMember second secondMember same
      obtain ⟨firstRow, firstRowMember, rfl⟩ :=
        List.mem_map.mp (sub.subset firstMember)
      obtain ⟨secondRow, secondRowMember, rfl⟩ :=
        List.mem_map.mp (sub.subset secondMember)
      exact (printed firstRow firstRowMember).eq_of_parse
        (printed secondRow secondRowMember) same
    rwa [List.map_map] at apart
  rw [desiredPeers_keys converted] at parsed
  have keys :
      desired.map (fun config => some config.publicKey) =
        (desired.map (·.publicKey)).map some := by
    rw [List.map_map]
    rfl
  rw [keys] at parsed
  exact List.Nodup.of_map _ parsed

end Payloads

/--
In every run whose enrolments send their keys in printed form, no two rows hold
texts of one key, the peers of every payload have different keys once they are
parsed, and `syncPeers` finds each of them under its own key.
-/
theorem keys_distinct_of_printed
    (config : Config)
    (start : State)
    (empty : start.store.db = DB.empty)
    (inputs : List Input)
    (prints : ∀ input ∈ inputs, input.call.PrintsKey)
    (tables : Tables)
    (reached :
      tables = ((machine config).run start inputs).store.db.tables) :
    (∀ first second, first ∈ tables.peers → second ∈ tables.peers →
      ∀ key, parseKey first.publicKey = some key →
        parseKey second.publicKey = some key → first = second) ∧
      ∀ relay epochs self id resolve desired,
        desiredPeers resolve
            (buildPeerEntries config relay epochs self
              (tables.visibleTo id config.store.defaultAllow)) =
          .ok desired →
        (desired.map (·.publicKey)).Nodup ∧
          ∀ want, want ∈ desired →
            desiredByKey desired want.publicKey = some want := by
  subst reached
  have printed := keysPrinted_run config empty prints
  constructor
  · intro first second firstMember secondMember key firstParsed secondParsed
    exact DB.eq_of_publicKey firstMember secondMember
      ((printed first firstMember).eq_of_parse (printed second secondMember)
        (firstParsed.trans secondParsed.symm))
  · intro relay epochs self id resolve desired converted
    have distinct := desired_distinct printed converted
    exact ⟨distinct, fun want member => desiredByKey_eq distinct member⟩

/-- Two enrolments with two spellings of one key. -/
def twoSpellings : List Input :=
  [⟨.admin ⟨sampleSetupKey, isAdmin_sampleSetupKey⟩, []⟩,
    enrolment "AAAAAAAAAAAAAAAAAAAAAAAAAAAAAAAAAAAAAAAAAAA=" "" "first",
    enrolment "AAAAAAAAAAAAAAAAAAAAAAAAAAAAAAAAAAAAAAAAAAB=" "" "second"]

/-- Both are accepted, and two rows hold one key. -/
theorem key_enrolled_twice :
    ((machine (.sample true)).run .fresh
        twoSpellings).store.db.tables.peers.map (·.publicKey) =
        ["AAAAAAAAAAAAAAAAAAAAAAAAAAAAAAAAAAAAAAAAAAA=",
          "AAAAAAAAAAAAAAAAAAAAAAAAAAAAAAAAAAAAAAAAAAB="] ∧
      parseKey "AAAAAAAAAAAAAAAAAAAAAAAAAAAAAAAAAAAAAAAAAAA=" =
        some zeroKey ∧
      parseKey "AAAAAAAAAAAAAAAAAAAAAAAAAAAAAAAAAAAAAAAAAAB=" =
        some zeroKey := by
  decide +kernel

/-- Two agents with different printed keys have rows with different keys. -/
theorem keys_distinct_twoAgents :
    ((machine (.sample true)).run .fresh
        (twoAgents "")).store.db.tables.peers.length = 2 ∧
      ∀ first second,
        first ∈ ((machine (.sample true)).run .fresh
          (twoAgents "")).store.db.tables.peers →
        second ∈ ((machine (.sample true)).run .fresh
          (twoAgents "")).store.db.tables.peers →
        ∀ key, parseKey first.publicKey = some key →
          parseKey second.publicKey = some key → first = second := by
  refine ⟨by decide +kernel, ?_⟩
  have printed :
      ∀ text, text = "AAAAAAAAAAAAAAAAAAAAAAAAAAAAAAAAAAAAAAAAAAA=" ∨
          text = "AQAAAAAAAAAAAAAAAAAAAAAAAAAAAAAAAAAAAAAAAAA=" →
        (parseKey text).map Key.text = some text := by
    rintro text (rfl | rfl)
    · decide +kernel
    · decide +kernel
  have prints :
      ∀ input ∈ twoAgents "", input.call.PrintsKey := by
    intro input member
    rcases List.mem_cons.mp member with rfl | member
    · trivial
    rcases List.mem_cons.mp member with rfl | member
    · intro key parsed
      have same := printed _ (Or.inl rfl)
      rw [parsed] at same
      exact (Option.some.inj same).symm
    · rw [List.mem_singleton.mp member]
      intro key parsed
      have same := printed _ (Or.inr rfl)
      rw [parsed] at same
      exact (Option.some.inj same).symm
  exact
    (keys_distinct_of_printed (.sample true) .fresh rfl (twoAgents "")
      prints _ rfl).1

end Server

end WgMesh
