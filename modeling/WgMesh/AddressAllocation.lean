import WgMesh.StoreMachine

namespace WgMesh.Store

/-!
# Overlay addresses over whole runs

Uniqueness in the database is textual.  It carries over to addresses because
every stored text is the printed form of a zone-free address of its column's
family, whichever operation wrote it, and printed forms parse back.
-/

open FiniteRuns NetAddress RowTables Transactions

/-- A text is the printed form of a zone-free address of a family. -/
def CanonicalText (family : Family) (text : String) : Prop :=
  ∃ addr : Addr,
    addr.family = family ∧ addr.zone = "" ∧ text = addr.text

/-- Both address columns of a row hold printed forms. -/
structure PeerRecord.Canonical (peer : PeerRecord) : Prop where
  first : CanonicalText .v4 peer.assignedIP
  second : ∀ text, peer.assignedIP6 = some text → CanonicalText .v6 text

/-- A row denotes an address in one of its two columns. -/
def PeerRecord.Holds (peer : PeerRecord) (addr : Addr) : Prop :=
  parseAddr peer.assignedIP = some addr ∨
    ∃ text, peer.assignedIP6 = some text ∧ parseAddr text = some addr

/-- Some row, revoked or not, denotes an address. -/
def State.Held (state : State) (addr : Addr) : Prop :=
  ∃ row ∈ state.db.tables.peers, row.Holds addr

/-- The prefixes in memory are networks, and the rows are canonical. -/
structure State.Addressed (state : State) : Prop where
  network : state.network.IsNetwork
  family : state.network.addr.family = .v4
  network6 :
    ∀ known, state.network6 = some known →
      known.IsNetwork ∧ known.addr.family = .v6
  rows : ∀ row ∈ state.db.tables.peers, row.Canonical

/-- A fresh store with masked prefixes of the two families. -/
structure State.Initial (state : State) : Prop where
  empty : state.db = DB.empty
  network : state.network.IsNetwork
  family : state.network.addr.family = .v4
  network6 :
    ∀ known, state.network6 = some known →
      known.IsNetwork ∧ known.addr.family = .v6

/-- What the callers of a migration ensure of its two targets. -/
def Op.TargetsFamilies : Op → Prop
  | .applyNetworkMigration target4 target6 =>
      target4.addr.family = .v4 ∧ target6.addr.family = .v6
  | _ => True

variable {family : Family} {text : String} {addr : Addr} {network : Prefix}
  {state : State} {op : Op} {config : Config} {after db : DB} {reply : Reply}
  {row : PeerRecord}

theorem CanonicalText.family_of_parse
    (canonical : CanonicalText family text)
    (parsed : parseAddr text = some addr) :
    addr.family = family ∧ text = addr.text := by
  obtain ⟨printed, printedFamily, zoneFree, rfl⟩ := canonical
  rw [parseAddr_text zoneFree] at parsed
  cases parsed
  exact ⟨printedFamily, rfl⟩

theorem CanonicalText.isSome_parse
    (canonical : CanonicalText family text) :
    (parseAddr text).isSome = true := by
  obtain ⟨printed, -, zoneFree, rfl⟩ := canonical
  rw [parseAddr_text zoneFree]
  rfl

theorem canonicalText_of_isHost
    (networkFamily : network.addr.family = family)
    (host : network.IsHost addr) :
    CanonicalText family addr.text := by
  have parts := Prefix.contains_iff.mp host.member
  exact ⟨addr, parts.2.1.trans networkFamily, parts.1, rfl⟩

theorem nullable_eq_some
    {stored : String}
    (filled : nullable text = some stored) :
    text = stored := by
  unfold nullable at filled
  split at filled
  · cases filled
  · exact Option.some.inj filled

theorem coalesce_eq_some
    {Value : Type}
    {new old : Option Value}
    {value : Value}
    (filled : coalesce new old = some value) :
    new = some value ∨ old = some value := by
  cases new with
  | none => exact Or.inr filled
  | some given => exact Or.inl filled

/-- A fresh store is addressed. -/
theorem State.Initial.addressed
    (initial : state.Initial) :
    state.Addressed where
  network := initial.network
  family := initial.family
  network6 := initial.network6
  rows := by
    intro row member
    rw [initial.empty] at member
    cases member

/-- The address columns of a row hold texts of two kinds. -/
def PeerRecord.HoldsTexts
    (first second : String → Prop)
    (peer : PeerRecord) : Prop :=
  first peer.assignedIP ∧ ∀ text, peer.assignedIP6 = some text → second text

/-- Texts that the hosts of the prefixes in memory, and of a migration's
targets, are printed as. -/
structure State.Prints
    (first second : String → Prop)
    (op : Op)
    (state : State) : Prop where
  network : state.network.IsNetwork
  network6 : ∀ known, state.network6 = some known → known.IsNetwork
  rows :
    ∀ row ∈ state.db.tables.peers, row.HoldsTexts first second
  host : ∀ addr, state.network.IsHost addr → first addr.text
  host6 :
    ∀ known addr, state.network6 = some known → known.IsHost addr →
      second addr.text
  target :
    ∀ target4 target6 addr, op = .applyNetworkMigration target4 target6 →
      (target4.masked.IsHost addr → first addr.text) ∧
        (target6.masked.IsHost addr → second addr.text)

section Prints

variable {first second : String → Prop} {op : Op} {state : State}

/-- New addresses are printed hosts. -/
private theorem NewAddresses.texts
    {ip ip6 : String}
    (prints : state.Prints first second op)
    (addresses : NewAddresses state.view state.db.tables ip ip6) :
    first ip ∧ ∀ text, nullable ip6 = some text → second text := by
  refine ⟨?_, ?_⟩
  · obtain ⟨found, addr, foundShape, rfl, lowest⟩ := addresses.first
    cases foundShape
    exact prints.host addr (lowest prints.network).host
  · intro text filled
    have allocated := addresses.second
    split at allocated
    · obtain ⟨found, addr, foundShape, isText, lowest⟩ := allocated
      rw [← nullable_eq_some filled, isText]
      exact prints.host6 found addr foundShape
        (lowest (prints.network6 found foundShape)).host
    · subst ip6
      cases filled

/-- Every operation leaves texts of the two kinds in the rows. -/
theorem RowOrigin.holdsTexts
    {config : Config}
    {after : DB}
    {reply : Reply}
    {row : PeerRecord}
    (prints : state.Prints first second op)
    (origin : RowOrigin config state.view state.db after op reply row) :
    row.HoldsTexts first second := by
  cases origin with
  | kept member => exact prints.rows _ member
  | @refreshed args now draw result old token ip6 member done =>
      refine ⟨(prints.rows _ member).1, ?_⟩
      intro text filled
      rcases coalesce_eq_some filled with new | old
      · have backfill := done.backfill
        split at backfill
        · obtain ⟨found, addr, foundShape, isText, lowest⟩ := backfill
          rw [← nullable_eq_some new, isText]
          exact prints.host6 found addr foundShape
            (lowest (prints.network6 found foundShape)).host
        · subst ip6
          cases new
      · exact (prints.rows _ member).2 text old
  | enrolled done => exact NewAddresses.texts prints done.addresses
  | static done => exact NewAddresses.texts prints done.addresses
  | readdressed member _ valid =>
      obtain ⟨host4, -, host6⟩ :=
        validateAddressPair_ok prints.network
          (fun _ known shape => prints.network6 known shape) valid
      refine ⟨prints.host _ host4, ?_⟩
      intro text filled
      obtain ⟨addr, addrShape, rfl⟩ := Option.map_eq_some_iff.mp filled
      obtain ⟨known, knownShape, host⟩ := host6 addr addrShape
      exact prints.host6 known addr knownShape host
  | @moved target4 target6 _ host4 host6 _ _ isFirst isSecond =>
      refine ⟨(prints.target target4 target6 host4 rfl).1
        ((Prefix.firstHosts_spec _ _).1 host4 isFirst), ?_⟩
      intro text filled
      cases filled
      exact (prints.target target4 target6 host6 rfl).2
        ((Prefix.firstHosts_spec _ _).1 host6 isSecond)
  | revoked member _ =>
      exact ⟨(prints.rows _ member).1, (prints.rows _ member).2⟩
  | cleared member _ =>
      exact ⟨(prints.rows _ member).1, (prints.rows _ member).2⟩
  | candidates member _ =>
      exact ⟨(prints.rows _ member).1, (prints.rows _ member).2⟩
  | offer member _ =>
      exact ⟨(prints.rows _ member).1, (prints.rows _ member).2⟩
  | exit member _ =>
      exact ⟨(prints.rows _ member).1, (prints.rows _ member).2⟩
  | reported member _ =>
      exact ⟨(prints.rows _ member).1, (prints.rows _ member).2⟩

end Prints

/-- In an addressed store hosts are printed canonically. -/
theorem State.Addressed.prints
    (addressed : state.Addressed)
    (targets : op.TargetsFamilies) :
    state.Prints (CanonicalText .v4) (CanonicalText .v6) op where
  network := addressed.network
  network6 := fun known shape => (addressed.network6 known shape).1
  rows := fun row member =>
    ⟨(addressed.rows row member).first, (addressed.rows row member).second⟩
  host := fun _ host => canonicalText_of_isHost addressed.family host
  host6 := fun known _ shape host =>
    canonicalText_of_isHost (addressed.network6 known shape).2 host
  target := by
    rintro target4 target6 addr rfl
    exact ⟨canonicalText_of_isHost targets.1,
      canonicalText_of_isHost targets.2⟩

theorem RowOrigin.canonical
    (addressed : state.Addressed)
    (targets : op.TargetsFamilies)
    (origin : RowOrigin config state.view state.db after op reply row) :
    row.Canonical := by
  obtain ⟨first, second⟩ := origin.holdsTexts (addressed.prints targets)
  exact ⟨first, second⟩

/-- The prefixes in memory stay, or are replaced by networks. -/
theorem remember_cases
    (effect : Effect config state.view state.db after op reply) :
    remember { state with db := after } op reply = { state with db := after } ∨
      ∃ network4 network6,
        remember { state with db := after } op reply =
            State.setNetworks network4 network6 { state with db := after } ∧
          (op.TargetsFamilies →
            network4.addr.family = .v4 ∧ network6.addr.family = .v6) := by
  cases effect with
  | @migrated target4 target6 =>
      exact Or.inr ⟨_, _, rfl, fun targets => targets⟩
  | networksLoaded _ _ parsed _ =>
      obtain ⟨-, -, -, -, -, -, family4, family6⟩ :=
        parseNetworkConfig_ok parsed
      exact Or.inr ⟨_, _, rfl, fun _ => ⟨family4, family6⟩⟩
  | _ => exact Or.inl rfl

/-- A successful operation keeps the store addressed. -/
theorem State.Addressed.effect
    (addressed : state.Addressed)
    (targets : op.TargetsFamilies)
    (effect : Effect config state.view state.db after op reply) :
    (remember { state with db := after } op reply).Addressed := by
  have rows : ∀ row ∈ after.tables.peers, row.Canonical :=
    fun row member => (effect.origin member).canonical addressed targets
  rcases remember_cases effect with
    kept | ⟨network4, network6, replaced, families⟩
  · rw [kept]
    exact ⟨addressed.network, addressed.family, addressed.network6, rows⟩
  · rw [replaced]
    obtain ⟨family4, family6⟩ := families targets
    refine ⟨Prefix.masked_isNetwork _, family4, ?_, rows⟩
    rintro known shape
    cases shape
    exact ⟨Prefix.masked_isNetwork _, family6⟩

theorem State.Addressed.step
    {input : Input}
    (addressed : state.Addressed)
    (targets : input.op.TargetsFamilies) :
    ((machine config).step state input).2.Addressed := by
  rcases step_cases config state input with
    ⟨error, shape⟩ | ⟨reply, after, shape, effect⟩
  · rw [shape]
    exact addressed
  · rw [shape]
    exact addressed.effect targets effect

/-- In an addressed store, an address belongs to one row. -/
theorem State.Addressed.eq_of_holds
    (addressed : state.Addressed)
    {first second : PeerRecord}
    (firstMember : first ∈ state.db.tables.peers)
    (secondMember : second ∈ state.db.tables.peers)
    (firstHolds : first.Holds addr)
    (secondHolds : second.Holds addr) :
    first = second := by
  have firstRow := addressed.rows first firstMember
  have secondRow := addressed.rows second secondMember
  rcases firstHolds with first4 | ⟨firstText, firstShape, first6⟩ <;>
    rcases secondHolds with second4 | ⟨secondText, secondShape, second6⟩
  · have sameText : first.assignedIP = second.assignedIP :=
      (firstRow.first.family_of_parse first4).2.trans
        (secondRow.first.family_of_parse second4).2.symm
    exact List.inj_on_of_nodup_map state.db.legal.assignedIPUnique
      firstMember secondMember sameText
  · have isV4 := (firstRow.first.family_of_parse first4).1
    have isV6 := ((secondRow.second _ secondShape).family_of_parse second6).1
    rw [isV4] at isV6
    cases isV6
  · have isV6 := ((firstRow.second _ firstShape).family_of_parse first6).1
    have isV4 := (secondRow.first.family_of_parse second4).1
    rw [isV4] at isV6
    cases isV6
  · have firstPrinted :=
      ((firstRow.second _ firstShape).family_of_parse first6).2
    have secondPrinted :=
      ((secondRow.second _ secondShape).family_of_parse second6).2
    subst firstText secondText
    exact eq_of_nodup_filterMap state.db.legal.assignedIP6Unique
      firstMember secondMember firstShape secondShape

/-- The IPv4 column denotes what rows hold of an IPv4 network. -/
theorem State.Addressed.denoted4
    (addressed : state.Addressed)
    (family : addr.family = .v4) :
    Denoted state.db.tables.assignedIPs addr ↔ state.Held addr := by
  constructor
  · rintro ⟨raw, member, parsed⟩
    obtain ⟨row, rowMember, rfl⟩ := List.mem_map.mp member
    exact ⟨row, rowMember, Or.inl parsed⟩
  · rintro ⟨row, member, parsed | ⟨text, shape, parsed⟩⟩
    · exact ⟨_, List.mem_map_of_mem member, parsed⟩
    · have isV6 :=
        (((addressed.rows row member).second _ shape).family_of_parse
          parsed).1
      rw [family] at isV6
      cases isV6

/-- The IPv6 column denotes what rows hold of an IPv6 network. -/
theorem State.Addressed.denoted6
    (addressed : state.Addressed)
    (family : addr.family = .v6) :
    Denoted state.db.tables.assignedIP6s addr ↔ state.Held addr := by
  constructor
  · rintro ⟨raw, member, parsed⟩
    obtain ⟨row, rowMember, shape⟩ := List.mem_filterMap.mp member
    exact ⟨row, rowMember, Or.inr ⟨raw, shape, parsed⟩⟩
  · rintro ⟨row, member, parsed | ⟨text, shape, parsed⟩⟩
    · have isV4 :=
        ((addressed.rows row member).first.family_of_parse parsed).1
      rw [family] at isV4
      cases isV4
    · exact ⟨text, List.mem_filterMap.mpr ⟨row, member, shape⟩, parsed⟩

theorem family_of_isHost
    (host : network.IsHost addr) :
    addr.family = network.addr.family :=
  (Prefix.contains_iff.mp host.member).2.1

/--
An allocation returns the lowest host nobody holds, and fails exactly when
every host is held.
-/
structure AllocatesLowest
    (action : StoreM String)
    (network : Prefix)
    (held : Addr → Prop)
    (db : DB) : Prop where
  returns :
    ∀ text,
      Completes action db (.ok text) db ↔
        ∃ addr, text = addr.text ∧ network.IsLowestFree held addr
  fails :
    (∃ error, Completes action db (.error error) db) ↔
      ∀ addr, network.IsHost addr → held addr

/-- The gap search over a readable column allocates lowest-first. -/
private theorem allocateAddr_lowest
    {column : String}
    {values : Tables → List String}
    {held : Addr → Prop}
    (isNetwork : network.IsNetwork)
    (readable :
      ∀ raw ∈ values db.tables, (parseAddr raw).isSome = true)
    (agree :
      ∀ addr, network.IsHost addr →
        (Denoted (values db.tables) addr ↔ held addr)) :
    AllocatesLowest (allocateAddr (some network) column values)
      network held db := by
  rcases completes_allocateAddr isNetwork column values readable with
    ⟨addr, completes, lowest⟩ | ⟨completes, full⟩
  · have free := lowest.congr agree
    constructor
    · intro text
      constructor
      · intro other
        exact ⟨addr, Except.ok.inj (other.unique completes).1, free⟩
      · rintro ⟨other, rfl, otherFree⟩
        rw [otherFree.unique free]
        exact completes
    · constructor
      · rintro ⟨error, other⟩
        cases (other.unique completes).1
      · intro allHeld
        exact (free.free (allHeld addr free.host)).elim
  · constructor
    · intro text
      constructor
      · intro other
        cases (other.unique completes).1
      · rintro ⟨other, -, otherFree⟩
        exact (otherFree.free
          ((agree other otherFree.host).mp
            (full other otherFree.host))).elim
    · constructor
      · intro _ addr host
        exact (agree addr host).mp (full addr host)
      · intro _
        exact ⟨_, completes⟩

/-- In an addressed store, IPv4 allocation is lowest-first. -/
theorem State.Addressed.allocateIP_lowest
    (addressed : state.Addressed)
    (samePeers : db.tables.peers = state.db.tables.peers) :
    AllocatesLowest (allocateIP state.view) state.network state.Held db := by
  have column : db.tables.assignedIPs = state.db.tables.assignedIPs := by
    simp only [Tables.assignedIPs, samePeers]
  apply allocateAddr_lowest addressed.network
  · intro raw member
    rw [column] at member
    obtain ⟨row, rowMember, rfl⟩ := List.mem_map.mp member
    exact (addressed.rows row rowMember).first.isSome_parse
  · intro addr host
    rw [column]
    exact addressed.denoted4 ((family_of_isHost host).trans addressed.family)

/-- In an addressed store, IPv6 allocation is lowest-first. -/
theorem State.Addressed.allocateIP6_lowest
    (addressed : state.Addressed)
    (samePeers : db.tables.peers = state.db.tables.peers)
    {known : Prefix}
    (enabled : state.network6 = some known) :
    AllocatesLowest (allocateIP6 state.view) known state.Held db := by
  have column : db.tables.assignedIP6s = state.db.tables.assignedIP6s := by
    simp only [Tables.assignedIP6s, samePeers]
  obtain ⟨isNetwork, family⟩ := addressed.network6 known enabled
  have lowest :
      AllocatesLowest
        (allocateAddr (some known) "assigned_ip6" Tables.assignedIP6s)
        known state.Held db := by
    apply allocateAddr_lowest isNetwork
    · intro raw member
      rw [column] at member
      obtain ⟨row, rowMember, shape⟩ := List.mem_filterMap.mp member
      exact ((addressed.rows row rowMember).second raw shape).isSome_parse
    · intro addr host
      rw [column]
      exact addressed.denoted6 ((family_of_isHost host).trans family)
  unfold allocateIP6
  simp only [State.view, enabled]
  exact lowest

theorem text_ne_empty
    (zoneFree : addr.zone = "") :
    addr.text ≠ "" := by
  intro empty
  have parsed := parseAddr_text zoneFree
  rw [empty] at parsed
  have unreadable : parseAddr "" = none := by decide +kernel
  rw [unreadable] at parsed
  cases parsed

/-- A host pair that is the lowest nobody holds, as a new row stores it. -/
def State.LowestPair
    (state : State)
    (assignedIP : String)
    (assignedIP6 : Option String) : Prop :=
  (∃ addr, assignedIP = addr.text ∧
      state.network.IsLowestFree state.Held addr) ∧
    match state.network6 with
    | none => assignedIP6 = none
    | some known =>
        ∃ addr, assignedIP6 = some addr.text ∧
          known.IsLowestFree state.Held addr

/-- What the IPv6 allocation of an addressed store returns. -/
private theorem Allocates.lowest6
    (addressed : state.Addressed)
    (allocates :
      Allocates state.network6 state.db.tables.assignedIP6s text) :
    ∃ known addr, state.network6 = some known ∧
      nullable text = some addr.text ∧
      known.IsLowestFree state.Held addr := by
  obtain ⟨known, addr, enabled, rfl, lowest⟩ := allocates
  obtain ⟨isNetwork, family⟩ := addressed.network6 known enabled
  have free : known.IsLowestFree state.Held addr :=
    (lowest isNetwork).congr fun host isHost =>
      addressed.denoted6 ((family_of_isHost isHost).trans family)
  have zoneFree := (Prefix.contains_iff.mp free.host.member).1
  exact ⟨known, addr, enabled, if_neg (text_ne_empty zoneFree), free⟩

/-- New addresses are the lowest pair. -/
private theorem NewAddresses.lowestPair
    {ip ip6 : String}
    (addressed : state.Addressed)
    (addresses : NewAddresses state.view state.db.tables ip ip6) :
    state.LowestPair ip (nullable ip6) := by
  obtain ⟨first, second⟩ := addresses
  constructor
  · obtain ⟨known, addr, shape, rfl, lowest⟩ := first
    cases shape
    refine ⟨addr, rfl, (lowest addressed.network).congr ?_⟩
    intro host isHost
    exact addressed.denoted4
      ((family_of_isHost isHost).trans addressed.family)
  · cases enabled : state.network6 with
    | none =>
        simp only [State.view, enabled, Option.isSome_none,
          Bool.false_eq_true, ↓reduceIte] at second
        subst ip6
        rfl
    | some known =>
        simp only [State.view, enabled, Option.isSome_some,
          ↓reduceIte] at second
        obtain ⟨other, addr, otherShape, filled, lowest⟩ :=
          Allocates.lowest6 addressed (enabled ▸ second)
        rw [enabled] at otherShape
        cases otherShape
        exact ⟨addr, filled, lowest⟩

/-- Rows that a step adds, and IPv6 backfills, get the lowest addresses. -/
def Step.GivesLowest (step : Step) : Prop :=
  ∀ row, row ∈ step.after.db.tables.peers →
    (row.id ∉ step.before.db.tables.peerIDs →
        step.before.LowestPair row.assignedIP row.assignedIP6) ∧
      ∀ old args now draw text,
        step.input.op = .enroll args now draw →
          old ∈ step.before.db.tables.peers → old.id = row.id →
            old.assignedIP6 = none → row.assignedIP6 = some text →
              ∃ known addr, step.before.network6 = some known ∧
                text = addr.text ∧
                known.IsLowestFree step.before.Held addr

/--
A step gives nobody an address of a revoked peer whose row stays, unless it
is a migration, which gives the revoked peer another one.
-/
def Step.KeepsRevoked (step : Step) : Prop :=
  ∀ peer, peer ∈ step.before.db.tables.peers →
    peer.revokedAt.isSome = true →
      peer.id ∈ step.after.db.tables.peerIDs →
        (∀ target4 target6,
          step.input.op ≠ .applyNetworkMigration target4 target6) →
          ∀ other addr, other ∈ step.after.db.tables.peers →
            other.id ≠ peer.id → peer.Holds addr → ¬ other.Holds addr

/-- Rows that an operation adds have the lowest pair. -/
private theorem RowOrigin.lowestPair
    (addressed : state.Addressed)
    (origin : RowOrigin config state.view state.db after op reply row)
    (new : row.id ∉ state.db.tables.peerIDs) :
    state.LowestPair row.assignedIP row.assignedIP6 := by
  rcases origin.continues_or_new with
    ⟨old, member, same⟩ | ⟨-, -, -, ip, ip6, addresses, first, second⟩
  · apply (new _).elim
    rw [same.id]
    exact List.mem_map_of_mem member
  · rw [first, second]
    exact NewAddresses.lowestPair addressed addresses

/-- An IPv6 address that an enrolment fills in is the lowest free one. -/
private theorem RowOrigin.backfill
    {args : EnrollArgs}
    {now : CivilTime.Instant}
    {draw : Draw}
    {old : PeerRecord}
    (addressed : state.Addressed)
    (origin :
      RowOrigin config state.view state.db after
        (.enroll args now draw) reply row)
    (oldMember : old ∈ state.db.tables.peers)
    (sameID : old.id = row.id)
    (lacking : old.assignedIP6 = none)
    (filled : row.assignedIP6 = some text) :
    ∃ known addr, state.network6 = some known ∧ text = addr.text ∧
      known.IsLowestFree state.Held addr := by
  cases origin with
  | kept member =>
      rw [state.db.eq_of_peerID oldMember member sameID, filled] at lacking
      cases lacking
  | refreshed member done =>
      have isOld := state.db.eq_of_peerID oldMember member sameID
      subst isOld
      have fromBackfill := done.backfill
      simp only [PeerRecord.refresh, refreshFor, lacking] at filled
      rcases coalesce_eq_some filled with new | impossible
      · split at fromBackfill
        · obtain ⟨known, addr, enabled, stored, lowest⟩ :=
            Allocates.lowest6 addressed fromBackfill
          exact ⟨known, addr, enabled,
            Option.some.inj (new.symm.trans stored), lowest⟩
        · rw [fromBackfill] at new
          cases new
      · cases impossible
  | enrolled done =>
      exact (Tables.nextPeerID_not_mem oldMember sameID).elim

/-- One step gives lowest addresses. -/
theorem State.Addressed.givesLowest
    (addressed : state.Addressed)
    (input : Input) :
    Step.GivesLowest ((machine config).visit state input) := by
  intro row member
  rcases step_cases config state input with
    ⟨error, shape⟩ | ⟨reply, after, shape, effect⟩
  · simp only [Machine.visit, shape] at member ⊢
    refine ⟨fun new => (new (List.mem_map_of_mem member)).elim, ?_⟩
    intro old args now draw text _ oldMember sameID lacking filled
    rw [state.db.eq_of_peerID oldMember member sameID, filled] at lacking
    cases lacking
  · simp only [Machine.visit, shape, remember_db] at member ⊢
    have origin := effect.origin member
    refine ⟨fun new => origin.lowestPair addressed new, ?_⟩
    intro old args now draw text isEnroll oldMember sameID lacking filled
    rw [isEnroll] at origin
    exact origin.backfill addressed oldMember sameID lacking filled

/-- A revoked row keeps its addresses in every step but a migration. -/
private theorem RowOrigin.holds_of_revoked
    {peer : PeerRecord}
    (addressed : state.Addressed)
    (origin : RowOrigin config state.view state.db after op reply row)
    (member : peer ∈ state.db.tables.peers)
    (revoked : peer.revokedAt.isSome = true)
    (sameID : row.id = peer.id)
    (noMigration :
      ∀ target4 target6, op ≠ .applyNetworkMigration target4 target6)
    (holds : peer.Holds addr) :
    row.Holds addr := by
  -- Every origin but a new row is an old row with the same id, the peer's.
  have isPeer :
      ∀ old ∈ state.db.tables.peers, row.id = old.id → old = peer :=
    fun old oldMember same =>
      state.db.eq_of_peerID oldMember member (same.symm.trans sameID)
  cases origin with
  | kept oldMember =>
      rw [isPeer _ oldMember rfl]
      exact holds
  | @refreshed _ _ _ _ old _ _ oldMember done =>
      have same := isPeer _ oldMember rfl
      subst same
      rcases holds with first | ⟨text, shape, parsed⟩
      · exact Or.inl first
      · have backfill := done.backfill
        obtain ⟨printed, -, zoneFree, textShape⟩ :=
          (addressed.rows _ member).second text shape
        have filled : orEmpty old.assignedIP6 ≠ "" := by
          rw [shape, textShape]
          exact text_ne_empty zoneFree
        rw [if_neg (by simp [filled])] at backfill
        refine Or.inr ⟨text, ?_, parsed⟩
        simp only [PeerRecord.refresh, refreshFor, backfill, shape]
        rfl
  | enrolled done =>
      exact (Tables.nextPeerID_not_mem member sameID.symm).elim
  | static done =>
      exact (Tables.nextPeerID_not_mem member sameID.symm).elim
  | readdressed oldMember unrevoked _ =>
      rw [isPeer _ oldMember rfl] at unrevoked
      simp only [PeerRecord.isUnrevoked, Bool.and_eq_true,
        Option.isNone_iff_eq_none] at unrevoked
      rw [unrevoked.2] at revoked
      cases revoked
  | moved _ _ _ => exact (noMigration _ _ rfl).elim
  | revoked oldMember _ =>
      rw [isPeer _ oldMember rfl]
      exact holds
  | cleared oldMember _ =>
      rw [isPeer _ oldMember rfl]
      exact holds
  | candidates oldMember _ =>
      rw [isPeer _ oldMember rfl]
      exact holds
  | offer oldMember _ =>
      rw [isPeer _ oldMember rfl]
      exact holds
  | exit oldMember _ =>
      rw [isPeer _ oldMember rfl]
      exact holds
  | reported oldMember _ =>
      rw [isPeer _ oldMember rfl]
      exact holds

/-- One step gives nobody the address of a revoked peer. -/
theorem State.Addressed.keepsRevoked
    {input : Input}
    (addressed : state.Addressed)
    (targets : input.op.TargetsFamilies) :
    Step.KeepsRevoked ((machine config).visit state input) := by
  intro peer member revoked remains noMigration other addr otherMember
    different holds otherHolds
  have after : ((machine config).step state input).2.Addressed :=
    addressed.step targets
  obtain ⟨row, rowMember, rowID⟩ := List.mem_map.mp remains
  -- The revoked peer's row still holds the address, so the other row is it.
  have rowHolds : row.Holds addr := by
    rcases step_cases config state input with
      ⟨error, shape⟩ | ⟨reply, later, shape, effect⟩
    · simp only [Machine.visit, shape] at rowMember member
      rw [state.db.eq_of_peerID rowMember member rowID]
      exact holds
    · simp only [Machine.visit, shape, remember_db] at rowMember
      exact (effect.origin rowMember).holds_of_revoked addressed member
        revoked rowID noMigration holds
  have same := after.eq_of_holds rowMember otherMember rowHolds otherHolds
  exact different (same ▸ rowID)

/--
Over every sequential run from a fresh store: rows denote distinct addresses,
allocation is lowest-first and fails only when the network is full, new rows
and backfills get what allocation returns, and no step gives anyone the
address of a revoked peer whose row exists.
-/
theorem overlayAddresses_distinct_lowest_reserved
    (config : Config)
    {start : State}
    (initial : start.Initial)
    {inputs : List Input}
    (targets : ∀ input ∈ inputs, input.op.TargetsFamilies) :
    ((∀ row, row ∈ ((machine config).run start inputs).db.tables.peers →
          row.Canonical) ∧
        ∀ first second addr,
          first ∈ ((machine config).run start inputs).db.tables.peers →
          second ∈ ((machine config).run start inputs).db.tables.peers →
          first.Holds addr → second.Holds addr → first = second) ∧
      (∀ db,
        db.tables.peers =
            ((machine config).run start inputs).db.tables.peers →
          AllocatesLowest
              (allocateIP ((machine config).run start inputs).view)
              ((machine config).run start inputs).network
              ((machine config).run start inputs).Held db ∧
            ∀ known,
              ((machine config).run start inputs).network6 = some known →
                AllocatesLowest
                  (allocateIP6 ((machine config).run start inputs).view)
                  known ((machine config).run start inputs).Held db) ∧
      ∀ step : Step, step ∈ (machine config).visits start inputs →
        step.GivesLowest ∧ step.KeepsRevoked := by
  have conforms :
      ∀ step, step ∈ (machine config).visits start inputs →
        step.input.op.TargetsFamilies := by
    intro step member
    obtain ⟨earlier, later, shape, -⟩ :=
      (machine config).exists_prefix_of_mem_visits member
    exact targets step.input (by simp [shape])
  obtain ⟨reached, visited⟩ :=
    (machine config).visits_invariant
      (fun _ _ addressed allowed => addressed.step allowed)
      initial.addressed conforms
  refine ⟨⟨reached.rows, ?_⟩, ?_, ?_⟩
  · intro first second addr firstMember secondMember
    exact reached.eq_of_holds firstMember secondMember
  · intro db samePeers
    exact ⟨reached.allocateIP_lowest samePeers,
      fun known enabled => reached.allocateIP6_lowest samePeers enabled⟩
  · intro step member
    have addressed := visited step member
    have allowed := conforms step member
    obtain ⟨earlier, later, -, shape⟩ :=
      (machine config).exists_prefix_of_mem_visits member
    have before : step.before = (machine config).run start earlier := by
      rw [shape]
      rfl
    rw [before] at addressed
    rw [shape]
    exact ⟨addressed.givesLowest _, addressed.keepsRevoked allowed⟩

/-- The fresh store is initial. -/
theorem State.fresh_initial :
    State.fresh.Initial where
  empty := rfl
  network := ⟨rfl, by decide⟩
  family := rfl
  network6 := by
    rintro known shape
    cases shape
    exact ⟨⟨rfl, by decide⟩, rfl⟩

/-- One peer enrols and is revoked before a second one enrols. -/
def revokedThenEnrolled : List Input :=
  [ (Op.createSetupKey "" 0 0 0 (.ok "key")).accepted,
    (Op.enroll ⟨"key", "first", "", 0, "", ""⟩ 0 (.ok "token 1")).accepted,
    (Op.revokePeer 1 0).accepted,
    (Op.enroll ⟨"key", "second", "", 0, "", ""⟩ 0 (.ok "token 2")).accepted ]

/-- The second peer gets the next address, not the revoked peer's. -/
theorem overlayAddresses_distinct_revokedThenEnrolled :
    (((machine (Config.sample true)).run State.fresh
          revokedThenEnrolled).db.tables.peers.map
        fun row => (row.assignedIP, row.assignedIP6, row.isActive)) =
        [("100.64.0.1", some "fd00:100:64::1", false),
          ("100.64.0.2", some "fd00:100:64::2", true)] ∧
      ∀ step : Step,
        step ∈ (machine (Config.sample true)).visits State.fresh
            revokedThenEnrolled →
          step.GivesLowest ∧ step.KeepsRevoked :=
  ⟨by decide +kernel,
    (overlayAddresses_distinct_lowest_reserved (Config.sample true)
      State.fresh_initial (by
        intro input member
        simp only [revokedThenEnrolled, List.mem_cons, List.not_mem_nil,
          or_false] at member
        rcases member with rfl | rfl | rfl | rfl <;> trivial)).2.2⟩

end WgMesh.Store
