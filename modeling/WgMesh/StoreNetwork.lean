import WgMesh.StoreAddresses

namespace WgMesh.Store

/-!
# The overlay prefixes

The prefixes live twice: as settings rows and in memory.  A migration gives
every peer, revoked ones included, a new address pair and rewrites the
settings in one transaction; the memory follows after the commit.
-/

open NetAddress RowTables TextScan Transactions

/-- The default of `--network`: `100.64.0.0/16`. -/
def defaultNetwork : Prefix where
  addr := { family := .v4, value := 0x64400000, zone := "", bounded := by decide }
  bits := 16
  fits := by decide

/-- `defaultNetwork6CIDR`: `fd00:100:64::/64`. -/
def defaultNetwork6 : Prefix where
  addr := {
    family := .v6
    value := 0xfd000100006400000000000000000000
    zone := ""
    bounded := by decide
  }
  bits := 64
  fits := by decide

example : defaultNetwork.text = "100.64.0.0/16" := by decide +kernel

example : defaultNetwork6.text = "fd00:100:64::/64" := by decide +kernel

/-- `NetworkConfig`. -/
structure NetworkConfig where
  networkCIDR : String
  networkCIDR6 : String
deriving DecidableEq

/-- `NetworkPeerChange`. -/
structure NetworkPeerChange where
  id : Int
  hostname : String
  revokedAt : String
  oldIP : String
  newIP : String
  oldIP6 : String
  newIP6 : String
deriving DecidableEq

/-- `NetworkMigrationPlan`; its message is set by the handler. -/
structure NetworkMigrationPlan where
  current : NetworkConfig
  target : NetworkConfig
  changes : List NetworkPeerChange
deriving DecidableEq

/-- `loadNetworkConfig`; a missing setting is the empty text. -/
def loadNetworkConfig : StoreM NetworkConfig :=
  select "load network config" fun tables =>
    { networkCIDR := orEmpty tables.settings.networkCIDR
      networkCIDR6 := orEmpty tables.settings.networkCIDR6 }

/-- `upsertSetting` of `network_cidr`. -/
def saveNetworkCIDR (value : String) : StoreM Unit :=
  modify "save setting network_cidr" fun tables =>
    ((), { tables with
      settings := { tables.settings with networkCIDR := some value } })

/-- `upsertSetting` of `network_cidr6`. -/
def saveNetworkCIDR6 (value : String) : StoreM Unit :=
  modify "save setting network_cidr6" fun tables =>
    ((), { tables with
      settings := { tables.settings with networkCIDR6 := some value } })

/-- `parseNetworkConfig`; the parser's texts are left out. -/
def parseNetworkConfig (raw4 raw6 : String) :
    Except StoreError (Prefix × Prefix) :=
  match parsePrefix raw4 with
  | none => .error (failure ("parse network_cidr \"" ++ raw4 ++ "\""))
  | some network4 =>
      if !network4.addr.is4 then
        .error
          (failure ("network_cidr must be IPv4, got \"" ++ raw4 ++ "\""))
      else
        match parsePrefix raw6 with
        | none =>
            .error (failure ("parse network_cidr6 \"" ++ raw6 ++ "\""))
        | some network6 =>
            if !network6.addr.is6 then
              .error
                (failure
                  ("network_cidr6 must be IPv6, got \"" ++ raw6 ++ "\""))
            else
              .ok (network4.masked, network6.masked)

/-- The persisted text, or the default where there is none. -/
def orDefault (stored : String) (default : Prefix) : String :=
  if stored = "" then default.masked.text else stored

/-- Save a default that was not persisted yet. -/
def saveIfUnset (stored : String) (save : StoreM Unit) : StoreM Unit :=
  if stored = "" then save else pure ()

/--
`LoadOrInitNetworkConfig`.  The result is the pair of prefixes it then stores
in memory, of which the source returns the texts.
-/
def loadOrInitNetworkConfig (default4 default6 : Prefix) :
    StoreM (Prefix × Prefix) :=
  inTransaction "begin network config" "commit network config" do
    let config ← loadNetworkConfig
    let cidr := orDefault config.networkCIDR default4
    saveIfUnset config.networkCIDR (saveNetworkCIDR cidr)
    let cidr6 := orDefault config.networkCIDR6 default6
    saveIfUnset config.networkCIDR6 (saveNetworkCIDR6 cidr6)
    match parseNetworkConfig cidr cidr6 with
    | .error error => raise error
    | .ok networks => pure networks

/-- `firstOverlayHosts`. -/
def firstOverlayHosts (network : Prefix) (n : Nat) :
    Except StoreError (List String) :=
  let out := (network.firstHosts n).map (·.text)
  if out.length = n then
    .ok out
  else
    .error
      (failure
        ("overlay network " ++ network.text ++ " has room for " ++
          decimal out.length ++ " peer(s), need " ++ decimal n))

/-- The columns `listNetworkPeers` selects; no new addresses yet. -/
def PeerRecord.networkChange (peer : PeerRecord) : NetworkPeerChange where
  id := peer.id
  hostname := orEmpty peer.hostname
  revokedAt := orEmpty peer.revokedAt
  oldIP := peer.assignedIP
  newIP := ""
  oldIP6 := orEmpty peer.assignedIP6
  newIP6 := ""

/-- `listNetworkPeers`. -/
def listNetworkPeers : StoreM (List NetworkPeerChange) :=
  select "list peers for network migration" fun tables =>
    tables.peers.map (·.networkChange)

/-- The loop of `buildNetworkMigrationPlan` over the peers. -/
def assignHosts :
    List NetworkPeerChange → List String → List String →
      List NetworkPeerChange
  | change :: rest, ip :: ips, ip6 :: ip6s =>
      { change with newIP := ip, newIP6 := ip6 } ::
        assignHosts rest ips ip6s
  | _, _, _ => []

/-- The texts of a prefix pair. -/
def networkConfig (network4 network6 : Option Prefix) : NetworkConfig where
  networkCIDR := prefixText network4
  networkCIDR6 := prefixText network6

/-- `buildNetworkMigrationPlan`. -/
def buildNetworkMigrationPlan
    (current : NetworkConfig)
    (target4 target6 : Prefix) : StoreM NetworkMigrationPlan := do
  let peers ← listNetworkPeers
  match firstOverlayHosts target4 peers.length with
  | .error error => raise error
  | .ok v4 =>
      match firstOverlayHosts target6 peers.length with
      | .error error => raise error
      | .ok v6 =>
          pure
            { current
              target := networkConfig (some target4) (some target6)
              changes := assignHosts peers v4 v6 }

/-- A peer row with a new address pair. -/
def PeerRecord.withAddresses (ip ip6 : String) (peer : PeerRecord) :
    PeerRecord :=
  { peer with assignedIP := ip, assignedIP6 := some ip6 }

/-- `UPDATE peers SET assigned_ip = ?, assigned_ip6 = ? WHERE id = ?`. -/
def Tables.setAddresses
    (id : Int)
    (ip ip6 : String)
    (tables : Tables) : Tables :=
  { tables with
    peers :=
      updateWhere (fun row => row.id == id)
        (PeerRecord.withAddresses ip ip6) tables.peers }

/-- `ApplyNetworkMigration`, up to its commit. -/
def applyNetworkMigration
    (current : NetworkConfig)
    (target4 target6 : Prefix) : StoreM NetworkMigrationPlan :=
  inTransaction "begin network migration" "commit network migration" do
    let plan ←
      buildNetworkMigrationPlan current target4.masked target6.masked
    -- Both address columns are unique, so the rows first leave the space of
    -- addresses before they take their new ones.
    modifyEach
      (fun change =>
        "stage peer " ++ decimal change.id ++ " network migration")
      (fun change =>
        Tables.setAddresses change.id
          ("__migrating4_" ++ decimal change.id)
          ("__migrating6_" ++ decimal change.id))
      plan.changes
    modifyEach
      (fun change =>
        "apply peer " ++ decimal change.id ++ " network migration")
      (fun change =>
        Tables.setAddresses change.id change.newIP change.newIP6)
      plan.changes
    saveNetworkCIDR target4.masked.text
    saveNetworkCIDR6 target6.masked.text
    pure plan

/-- The row of a peer that was given a host pair. -/
def PeerRecord.movedTo (hosts : Addr × Addr) (peer : PeerRecord) :
    PeerRecord :=
  peer.withAddresses hosts.1.text hosts.2.text

/-- The tables after a migration: new address pairs and new settings. -/
def Tables.migrate
    (hosts : List (Addr × Addr))
    (target4 target6 : Prefix)
    (tables : Tables) : Tables :=
  { tables with
    peers := List.zipWith PeerRecord.movedTo hosts tables.peers
    settings :=
      { tables.settings with
        networkCIDR := some target4.text
        networkCIDR6 := some target6.text } }

/-- The loop of address updates changes the peer rows only. -/
theorem foldl_setAddresses
    {Item : Type}
    {key : Item → Int}
    {ip ip6 : Item → String}
    {items : List Item}
    {tables : Tables}
    (ascending : Ascending (·.id) tables.peers)
    (keys : items.map key = tables.peers.map (·.id)) :
    items.foldl
        (fun tables item =>
          tables.setAddresses (key item) (ip item) (ip6 item))
        tables =
      { tables with
        peers :=
          List.zipWith
            (fun item => PeerRecord.withAddresses (ip item) (ip6 item))
            items tables.peers } := by
  have peersOnly :
      ∀ (items : List Item) (tables : Tables),
        items.foldl
            (fun tables item =>
              tables.setAddresses (key item) (ip item) (ip6 item))
            tables =
          { tables with
            peers :=
              items.foldl
                (fun rows item =>
                  updateWhere (fun row => row.id == key item)
                    (PeerRecord.withAddresses (ip item) (ip6 item))
                    rows)
                tables.peers } := by
    intro items
    induction items with
    | nil =>
        intro tables
        rfl
    | cons item rest inductionHypothesis =>
        intro tables
        rw [List.foldl_cons, inductionHypothesis]
        rfl
  rw [peersOnly, foldl_updateWhere_eq_zipWith ascending keys]
  intro item row
  rfl

/-- A plan lists the peers' ids in order. -/
theorem map_id_assignHosts
    {peers : List NetworkPeerChange}
    {v4 v6 : List String}
    (enough4 : v4.length = peers.length)
    (enough6 : v6.length = peers.length) :
    (assignHosts peers v4 v6).map (·.id) = peers.map (·.id) := by
  induction peers generalizing v4 v6 with
  | nil =>
      rfl
  | cons peer rest inductionHypothesis =>
      cases v4 with
      | nil => simp at enough4
      | cons ip ips =>
          cases v6 with
          | nil => simp at enough6
          | cons ip6 ip6s =>
              simp only [assignHosts, List.map_cons]
              rw [inductionHypothesis (Nat.succ.inj enough4)
                (Nat.succ.inj enough6)]

/-- Staging leaves no trace once the new addresses are written. -/
private theorem zipWith_zipWith_overwrite
    {Item Row : Type}
    {first second : Item → Row → Row}
    (overwrites :
      ∀ item row, second item (first item row) = second item row)
    (items : List Item)
    (rows : List Row) :
    List.zipWith second items (List.zipWith first items rows) =
      List.zipWith second items rows := by
  induction items generalizing rows with
  | nil =>
      rfl
  | cons item rest inductionHypothesis =>
      cases rows with
      | nil => rfl
      | cons row others =>
          simp only [List.zipWith_cons_cons, overwrites,
            inductionHypothesis]

/-- Writing a plan's new addresses moves the peers to the hosts. -/
private theorem zipWith_assignHosts
    (rows : List PeerRecord)
    (hosts4 hosts6 : List Addr) :
    List.zipWith
        (fun change => PeerRecord.withAddresses change.newIP change.newIP6)
        (assignHosts (rows.map (·.networkChange))
          (hosts4.map (·.text)) (hosts6.map (·.text)))
        rows =
      List.zipWith PeerRecord.movedTo (hosts4.zip hosts6) rows := by
  induction rows generalizing hosts4 hosts6 with
  | nil =>
      simp
  | cons row rest inductionHypothesis =>
      cases hosts4 with
      | nil => simp [assignHosts]
      | cons host4 others4 =>
          cases hosts6 with
          | nil => simp [assignHosts]
          | cons host6 others6 =>
              simp only [List.map_cons, assignHosts,
                List.zipWith_cons_cons, List.zip_cons_cons,
                inductionHypothesis]
              rfl

/-- Enough hosts were found exactly when the list is returned. -/
private theorem firstOverlayHosts_ok
    {network : Prefix}
    {n : Nat}
    {texts : List String}
    (found : firstOverlayHosts network n = .ok texts) :
    (network.firstHosts n).length = n ∧
      texts = (network.firstHosts n).map (·.text) := by
  unfold firstOverlayHosts at found
  dsimp only at found
  split at found
  · rename_i enough
    cases found
    exact ⟨by simpa using enough, rfl⟩
  · cases found

/-- A plan is read from the tables and moves every peer to the first hosts. -/
private theorem buildNetworkMigrationPlan_ok
    {current : NetworkConfig}
    {target4 target6 : Prefix}
    {before after : DB}
    {plan : NetworkMigrationPlan}
    (run :
      Runs (buildNetworkMigrationPlan current target4 target6)
        before (.ok plan) after) :
    after = before ∧
      (target4.firstHosts before.tables.peers.length).length =
        before.tables.peers.length ∧
      (target6.firstHosts before.tables.peers.length).length =
        before.tables.peers.length ∧
      plan.changes =
        assignHosts (before.tables.peers.map (·.networkChange))
          ((target4.firstHosts before.tables.peers.length).map (·.text))
          ((target6.firstHosts before.tables.peers.length).map
            (·.text)) := by
  obtain ⟨peers, middle, listRun, rest⟩ := run.bind_ok
  obtain ⟨same, peersShape⟩ := select_ok listRun
  subst middle peers
  simp only [List.length_map] at rest
  split at rest
  · exact rest.raise_ok.elim
  · rename_i v4 found4
    split at rest
    · exact rest.raise_ok.elim
    · rename_i v6 found6
      obtain ⟨planShape, sameEnd⟩ := rest.pure_inv
      cases planShape
      obtain ⟨enough4, texts4⟩ := firstOverlayHosts_ok found4
      obtain ⟨enough6, texts6⟩ := firstOverlayHosts_ok found6
      exact ⟨sameEnd, enough4, enough6, by rw [texts4, texts6]⟩

/-- A successful migration moves every peer to a host pair of the target. -/
theorem applyNetworkMigration_ok
    {current : NetworkConfig}
    {target4 target6 : Prefix}
    {before after : DB}
    {plan : NetworkMigrationPlan}
    (run :
      Runs (applyNetworkMigration current target4 target6)
        before (.ok plan) after) :
    ∃ hosts4 hosts6,
      hosts4 = target4.masked.firstHosts before.tables.peers.length ∧
        hosts6 = target6.masked.firstHosts before.tables.peers.length ∧
        hosts4.length = before.tables.peers.length ∧
        hosts6.length = before.tables.peers.length ∧
        after.tables =
          before.tables.migrate (hosts4.zip hosts6)
            target4.masked target6.masked := by
  obtain ⟨built, planned, planRun, rest⟩ := (inTransaction_ok run).bind_ok
  obtain ⟨same, enough4, enough6, changes⟩ :=
    buildNetworkMigrationPlan_ok planRun
  subst planned
  obtain ⟨_, staged, stageRun, rest⟩ := rest.bind_ok
  obtain ⟨_, applied, applyRun, rest⟩ := rest.bind_ok
  obtain ⟨_, saved, saveRun, rest⟩ := rest.bind_ok
  obtain ⟨_, saved6, saveRun6, rest⟩ := rest.bind_ok
  obtain ⟨-, sameEnd⟩ := rest.pure_inv
  have stagedShape := modifyEach_ok stageRun
  have appliedShape := modifyEach_ok applyRun
  have savedShape := (modify_ok saveRun).2
  have savedShape6 := (modify_ok saveRun6).2
  have keys :
      built.changes.map (·.id) = before.tables.peers.map (·.id) := by
    rw [changes, map_id_assignHosts (by simpa using enough4)
      (by simpa using enough6), List.map_map]
    rfl
  rw [foldl_setAddresses before.legal.peerOrder keys] at stagedShape
  -- Staging keeps the ids, so the second loop visits the same rows.
  have stagedKeys :
      built.changes.map (·.id) = staged.tables.peers.map (·.id) := by
    have enough : built.changes.length = before.tables.peers.length := by
      simpa using congrArg List.length keys
    rw [stagedShape, keys]
    symm
    apply map_zipWith enough
    intro change row
    rfl
  rw [foldl_setAddresses staged.legal.peerOrder stagedKeys, stagedShape]
    at appliedShape
  refine ⟨_, _, rfl, rfl, enough4, enough6, ?_⟩
  rw [sameEnd, savedShape6, savedShape, appliedShape]
  simp only [Tables.migrate]
  rw [zipWith_zipWith_overwrite, changes, zipWith_assignHosts]
  intro change row
  rfl

theorem atomic_applyNetworkMigration
    (current : NetworkConfig)
    (target4 target6 : Prefix) :
    Atomic (applyNetworkMigration current target4 target6) :=
  atomic_inTransaction _ _ _

/-- A parsed configuration is a pair of networks of the two families. -/
theorem parseNetworkConfig_ok
    {raw4 raw6 : String}
    {network4 network6 : Prefix}
    (parsed : parseNetworkConfig raw4 raw6 = .ok (network4, network6)) :
    ∃ known4 known6,
      parsePrefix raw4 = some known4 ∧ parsePrefix raw6 = some known6 ∧
        network4 = known4.masked ∧ network6 = known6.masked ∧
        network4.addr.family = .v4 ∧ network6.addr.family = .v6 := by
  unfold parseNetworkConfig at parsed
  split at parsed
  · cases parsed
  · rename_i known4 shape4
    split at parsed
    · cases parsed
    · rename_i isV4
      split at parsed
      · cases parsed
      · rename_i known6 shape6
        split at parsed
        · cases parsed
        · rename_i isV6
          cases parsed
          refine ⟨known4, known6, shape4, shape6, rfl, rfl, ?_, ?_⟩
          · simpa [Addr.is4] using isV4
          · simpa [Addr.is6] using isV6

/-- After a setting is defaulted, its row holds the text in force. -/
private theorem saveIfUnset_ok
    {stored : Option String}
    {default : Prefix}
    {save : String → StoreM Unit}
    {put : Option String → Tables → Tables}
    {before after : DB}
    (saves :
      ∀ value first second, Runs (save value) first (.ok ()) second →
        second.tables = put (some value) first.tables)
    (keeps : put stored before.tables = before.tables)
    (run :
      Runs
        (saveIfUnset (orEmpty stored)
          (save (orDefault (orEmpty stored) default)))
        before (.ok ()) after) :
    after.tables =
      put (some (orDefault (orEmpty stored) default)) before.tables := by
  unfold saveIfUnset at run
  split at run
  · exact saves _ _ _ run
  · rename_i filled
    have inForce : orDefault (orEmpty stored) default = orEmpty stored :=
      if_neg filled
    rw [run.pure_inv.2, inForce, ← eq_some_orEmpty filled, keeps]

/-- Loading the prefixes persists the texts they were read from. -/
theorem loadOrInitNetworkConfig_ok
    {default4 default6 network4 network6 : Prefix}
    {before after : DB}
    (run :
      Runs (loadOrInitNetworkConfig default4 default6)
        before (.ok (network4, network6)) after) :
    ∃ cidr cidr6,
      cidr = orDefault (orEmpty before.tables.settings.networkCIDR)
          default4 ∧
        cidr6 = orDefault (orEmpty before.tables.settings.networkCIDR6)
          default6 ∧
        parseNetworkConfig cidr cidr6 = .ok (network4, network6) ∧
        after.tables =
          { before.tables with
            settings :=
              { before.tables.settings with
                networkCIDR := some cidr
                networkCIDR6 := some cidr6 } } := by
  obtain ⟨config, loaded, loadRun, rest⟩ := (inTransaction_ok run).bind_ok
  obtain ⟨sameLoad, configShape⟩ := select_ok loadRun
  subst loaded config
  obtain ⟨_, first, firstRun, rest⟩ := rest.bind_ok
  obtain ⟨_, second, secondRun, rest⟩ := rest.bind_ok
  dsimp only at firstRun secondRun rest
  split at rest
  · exact rest.raise_ok.elim
  · rename_i networks parsed
    obtain ⟨resultShape, sameEnd⟩ := rest.pure_inv
    cases resultShape
    refine ⟨_, _, rfl, rfl, parsed, ?_⟩
    have firstShape :=
      @saveIfUnset_ok before.tables.settings.networkCIDR default4
        saveNetworkCIDR
        (fun value tables =>
          { tables with
            settings := { tables.settings with networkCIDR := value } })
        _ _ (fun _ _ _ saveRun => (modify_ok saveRun).2) rfl firstRun
    have untouched :
        first.tables.settings.networkCIDR6 =
          before.tables.settings.networkCIDR6 := by
      rw [firstShape]
    have secondShape :=
      @saveIfUnset_ok before.tables.settings.networkCIDR6 default6
        saveNetworkCIDR6
        (fun value tables =>
          { tables with
            settings := { tables.settings with networkCIDR6 := value } })
        _ _ (fun _ _ _ saveRun => (modify_ok saveRun).2)
        (by rw [← untouched]) secondRun
    rw [sameEnd, secondShape, firstShape]

theorem atomic_loadOrInitNetworkConfig
    (default4 default6 : Prefix) :
    Atomic (loadOrInitNetworkConfig default4 default6) :=
  atomic_inTransaction _ _ _

end WgMesh.Store
