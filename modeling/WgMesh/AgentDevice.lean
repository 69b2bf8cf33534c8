import WgMesh.AgentSync
import WgMesh.RowTables

namespace WgMesh.Agent

/-!
# The WireGuard device

The device's peers with their endpoints, handshakes and counters, and what
`ConfigureDevice` makes of them.  The results follow one key through a list of
changes and through a whole `syncPeers`.

The device is the one that WireGuard's interface documents: the entries of a
call are applied in their order, a field that is absent leaves its setting, a
peer that is not there is added unless the entry only updates, allowed addresses
are added or replaced, and an address that is given to one peer is taken from
every other.
-/

open CivilTime PairKeys RowTables Server

/-- A peer of the device, with its counters. -/
structure LivePeer where
  publicKey : Key
  presharedKey : Key
  endpoint : Option AddrPort
  lastHandshakeTime : Option Instant
  allowedIPs : List NetAddress.Prefix
  persistentKeepaliveInterval : Int
  receiveBytes : Int
deriving DecidableEq

/-- What `syncPeers` reads of a peer. -/
def LivePeer.snapshot (peer : LivePeer) : DevicePeer where
  publicKey := peer.publicKey
  presharedKey := peer.presharedKey
  endpoint := peer.endpoint
  handshaken := peer.lastHandshakeTime.isSome
  allowedIPs := peer.allowedIPs
  persistentKeepaliveInterval := peer.persistentKeepaliveInterval

/-- The device's peers, one for each key. -/
structure Device where
  peers : List LivePeer
  distinct : (peers.map (·.publicKey)).Nodup

/-- The peer with a key. -/
def Device.peer? (device : Device) (key : Key) : Option LivePeer :=
  rowWith? (·.publicKey) key device.peers

/-- A change of a peer that is on the device. -/
def LivePeer.configured (peer : LivePeer) (change : PeerConfig) :
    LivePeer :=
  { peer with
    endpoint := change.endpoint.or peer.endpoint
    presharedKey := change.presharedKey.getD peer.presharedKey
    persistentKeepaliveInterval :=
      change.persistentKeepaliveInterval.getD
        peer.persistentKeepaliveInterval
    allowedIPs :=
      if change.replaceAllowedIPs then change.allowedIPs
      else peer.allowedIPs ++ change.allowedIPs }

/-- A peer without addresses that are given to another. -/
def LivePeer.without (peer : LivePeer) (networks : List NetAddress.Prefix) :
    LivePeer :=
  { peer with
    allowedIPs :=
      peer.allowedIPs.filter fun own =>
        !networks.any fun network => network.masked == own.masked }

/-- A peer but for its allowed addresses. -/
def LivePeer.core (peer : LivePeer) : LivePeer :=
  { peer with allowedIPs := [] }

/-- A peer that is added to the device. -/
def PeerConfig.added (change : PeerConfig) : LivePeer where
  publicKey := change.publicKey
  presharedKey := change.presharedKey.getD zeroKey
  endpoint := change.endpoint
  lastHandshakeTime := none
  allowedIPs := change.allowedIPs
  persistentKeepaliveInterval := change.persistentKeepaliveInterval.getD 0
  receiveBytes := 0

/-- Change the peer with a key, without changing its key. -/
def Device.modify (device : Device) (key : Key)
    (update : LivePeer → LivePeer)
    (sameKey : ∀ peer, (update peer).publicKey = peer.publicKey) :
    Device where
  peers := updateWhere (fun peer => peer.publicKey == key) update device.peers
  distinct := by
    rw [map_updateWhere device.peers sameKey]
    exact device.distinct

/-- Remove the peer with a key. -/
def Device.remove (device : Device) (key : Key) : Device where
  peers := device.peers.filter (fun peer => peer.publicKey != key)
  distinct := device.distinct.sublist (List.filter_sublist.map _)

/-- Add a peer whose key is not there. -/
def Device.add (device : Device) (peer : LivePeer)
    (absent : device.peer? peer.publicKey = none) : Device where
  peers := device.peers ++ [peer]
  distinct := by
    rw [List.map_append, List.map_singleton]
    refine List.nodup_append.mpr
      ⟨device.distinct, List.nodup_singleton _, ?_⟩
    intro old oldMember new newMember same
    obtain ⟨other, member, isOld⟩ := List.mem_map.mp oldMember
    rw [List.mem_singleton.mp newMember] at same
    exact rowWith?_eq_none.mp absent other member (isOld.trans same)

/-- Take addresses from all peers but one. -/
def Device.yield (device : Device) (key : Key)
    (networks : List NetAddress.Prefix) : Device where
  peers :=
    updateWhere (fun peer => peer.publicKey != key) (·.without networks)
      device.peers
  distinct := by
    have sameKey :
        ∀ peer : LivePeer,
          (peer.without networks).publicKey = peer.publicKey :=
      fun _ => rfl
    rw [map_updateWhere device.peers sameKey]
    exact device.distinct

/-- One entry of `ConfigureDevice`. -/
def Device.apply (device : Device) (change : PeerConfig) : Device :=
  if change.remove then
    device.remove change.publicKey
  else
    match absent : device.peer? change.publicKey with
    | some _ =>
        (device.modify change.publicKey (fun peer => peer.configured change)
          (fun _ => rfl)).yield change.publicKey change.allowedIPs
    | none =>
        if change.updateOnly then device
        else
          (device.add change.added absent).yield change.publicKey
            change.allowedIPs

/-- `ConfigureDevice`, when it succeeds. -/
def Device.configure (device : Device) (changes : List PeerConfig) :
    Device :=
  changes.foldl Device.apply device

/-- The change that points a peer at an endpoint. -/
def endpointChange (key : Key) (endpoint : AddrPort) : PeerConfig where
  publicKey := key
  endpoint := some endpoint
  presharedKey := none
  allowedIPs := []
  persistentKeepaliveInterval := none
  updateOnly := true

/-- What one entry of `ConfigureDevice` makes of the peer with its key. -/
def PeerConfig.applied (change : PeerConfig) (cur : Option LivePeer) :
    Option LivePeer :=
  if change.remove then
    none
  else
    match cur with
    | some peer => some (peer.configured change)
    | none => if change.updateOnly then none else some change.added

variable {key : Key} {peer : LivePeer}

/-- The peer with a key has that key. -/
theorem Device.publicKey_of_peer?
    {device : Device}
    (found : device.peer? key = some peer) :
    peer.publicKey = key :=
  (mem_of_rowWith? found).2

/-- A peer of the device is found under its key. -/
theorem Device.peer?_of_mem
    {device : Device}
    (member : peer ∈ device.peers) :
    device.peer? peer.publicKey = some peer :=
  rowWith?_eq_some device.distinct member

/-- Changing a peer is seen under its key only. -/
theorem Device.peer?_modify
    (device : Device)
    (changed key : Key)
    (update : LivePeer → LivePeer)
    (sameKey : ∀ peer, (update peer).publicKey = peer.publicKey) :
    (device.modify changed update sameKey).peer? key =
      if changed = key then (device.peer? key).map update
      else device.peer? key := by
  have looked :
      (device.modify changed update sameKey).peer? key =
        (device.peer? key).map
          (fun peer =>
            if peer.publicKey == changed then update peer else peer) :=
    rowWith?_updateWhere device.peers key sameKey
  rw [looked]
  cases found : device.peer? key with
  | none => simp
  | some peer =>
      have isKey := Device.publicKey_of_peer? found
      by_cases same : changed = key
      · simp [isKey, same]
      · simp [isKey, same, Ne.symm same]

/-- Removing a peer is seen under its key only. -/
theorem Device.peer?_remove
    (device : Device)
    (removed key : Key) :
    (device.remove removed).peer? key =
      if removed = key then none else device.peer? key := by
  unfold Device.peer? Device.remove rowWith?
  rw [List.find?_filter]
  by_cases same : removed = key
  · rw [if_pos same, List.find?_eq_none]
    intro peer _
    simp [same]
  · rw [if_neg same]
    congr 1
    funext peer
    by_cases isKey : peer.publicKey = key
    · simp [isKey, Ne.symm same]
    · simp [isKey]

/-- Adding a peer is seen under its key only. -/
theorem Device.peer?_add
    (device : Device)
    (peer : LivePeer)
    (absent : device.peer? peer.publicKey = none)
    (key : Key) :
    (device.add peer absent).peer? key =
      if peer.publicKey = key then some peer else device.peer? key := by
  have looked :
      (device.add peer absent).peer? key =
        (device.peer? key).or (rowWith? (·.publicKey) key [peer]) :=
    List.find?_append
  rw [looked]
  by_cases same : peer.publicKey = key
  · rw [same] at absent
    simp [absent, rowWith?, same]
  · simp [rowWith?, same]

theorem LivePeer.without_nil (peer : LivePeer) : peer.without [] = peer := by
  simp [LivePeer.without]

/-- Addresses are taken from the other peers. -/
theorem Device.peer?_yield
    (device : Device)
    (yielded key : Key)
    (networks : List NetAddress.Prefix) :
    (device.yield yielded networks).peer? key =
      if yielded = key then device.peer? key
      else (device.peer? key).map (·.without networks) := by
  have looked :
      (device.yield yielded networks).peer? key =
        (device.peer? key).map
          (fun peer =>
            if peer.publicKey != yielded then peer.without networks
            else peer) :=
    rowWith?_updateWhere device.peers key fun _ => rfl
  rw [looked]
  cases found : device.peer? key with
  | none => simp
  | some peer =>
      have isKey := Device.publicKey_of_peer? found
      by_cases same : yielded = key
      · simp [isKey, same]
      · simp [isKey, same, Ne.symm same]

/-- An entry of `ConfigureDevice` is seen under its key, and under others by
the addresses it takes. -/
theorem Device.peer?_apply
    (device : Device)
    (change : PeerConfig) :
    ∃ taken, (taken = [] ∨ taken = change.allowedIPs) ∧
      ∀ key, (device.apply change).peer? key =
        if change.publicKey = key then change.applied (device.peer? key)
        else (device.peer? key).map (·.without taken) := by
  unfold Device.apply PeerConfig.applied
  by_cases removes : change.remove = true
  · refine ⟨[], Or.inl rfl, fun key => ?_⟩
    simp [removes, device.peer?_remove, LivePeer.without_nil]
  · rw [if_neg removes]
    split
    · rename_i peer found
      refine ⟨_, Or.inr rfl, fun key => ?_⟩
      have modified :=
        device.peer?_modify change.publicKey key
          (fun peer => peer.configured change) (fun _ => rfl)
      rw [Device.peer?_yield]
      by_cases same : change.publicKey = key
      · rw [if_pos same, if_pos same]
        refine modified.trans ?_
        simp [← same, found, removes]
      · rw [if_neg same, if_neg same]
        exact congrArg _ (modified.trans (if_neg same))
    · rename_i absent
      by_cases updates : change.updateOnly = true
      · refine ⟨[], Or.inl rfl, fun key => ?_⟩
        by_cases same : change.publicKey = key
        · simp [← same, absent, removes, updates]
        · simp [same, updates, LivePeer.without_nil]
      · refine ⟨_, Or.inr rfl, fun key => ?_⟩
        rw [if_neg updates, Device.peer?_yield,
          device.peer?_add change.added absent]
        by_cases same : change.publicKey = key
        · simp [← same, absent, removes, updates, PeerConfig.added]
        · simp [same, PeerConfig.added]

/-- Entries change peers alike that differ in their addresses. -/
theorem map_core_applied
    {first second : Option LivePeer}
    (same : first.map (·.core) = second.map (·.core))
    (changes : List PeerConfig) :
    (changes.foldl (fun cur change => change.applied cur) first).map
        (·.core) =
      (changes.foldl (fun cur change => change.applied cur) second).map
        (·.core) := by
  induction changes generalizing first second with
  | nil => exact same
  | cons change rest inductionHypothesis =>
      refine inductionHypothesis ?_
      dsimp only
      unfold PeerConfig.applied
      split
      · rfl
      · cases first with
        | none =>
            cases second with
            | none => rfl
            | some other => cases same
        | some peer =>
            cases second with
            | none => cases same
            | some other =>
                have cores := Option.some.inj same
                exact congrArg
                  (fun core => some (core.configured change).core) cores

/-- A key sees its own entries of `ConfigureDevice`, in their order, but for
the addresses that others take. -/
theorem Device.peer?_configure
    (device : Device)
    (changes : List PeerConfig)
    (key : Key) :
    ((device.configure changes).peer? key).map (·.core) =
      ((changes.filter (·.publicKey == key)).foldl
        (fun cur change => change.applied cur) (device.peer? key)).map
          (·.core) := by
  induction changes generalizing device with
  | nil => rfl
  | cons change rest inductionHypothesis =>
      have unfolded :
          device.configure (change :: rest) =
            (device.apply change).configure rest :=
        rfl
      obtain ⟨taken, -, applied⟩ := device.peer?_apply change
      rw [unfolded, inductionHypothesis, applied]
      by_cases same : change.publicKey = key
      · simp [same]
      · simp only [same, beq_iff_eq, not_false_eq_true, if_false,
          List.filter_cons_of_neg]
        refine map_core_applied ?_ _
        cases device.peer? key <;> rfl

/-- Pointing a peer at an endpoint is seen under its key only. -/
theorem Device.peer?_endpointChange
    (device : Device)
    (pointed key : Key)
    (endpoint : AddrPort) :
    (device.configure [endpointChange pointed endpoint]).peer? key =
      if pointed = key then
        (device.peer? key).map
          (fun peer => peer.configured (endpointChange pointed endpoint))
      else
        device.peer? key := by
  obtain ⟨taken, none, applied⟩ :=
    device.peer?_apply (endpointChange pointed endpoint)
  obtain rfl : taken = [] := none.elim id id
  have once :
      device.configure [endpointChange pointed endpoint] =
        device.apply (endpointChange pointed endpoint) :=
    rfl
  rw [once, applied]
  refine if_congr Iff.rfl ?_ ?_
  · cases device.peer? key <;> rfl
  · simp [LivePeer.without_nil]

/-- `syncPeers` on the device, when `ConfigureDevice` succeeds. -/
def Device.sync (device : Device) (desired : List PeerConfig) : Device :=
  device.configure (syncPeers (device.peers.map (·.snapshot)) desired)

/-- Each key's snapshot is that of its peer. -/
theorem Device.currentByKey_snapshots
    (device : Device)
    (key : Key) :
    currentByKey (device.peers.map (·.snapshot)) key =
      (device.peer? key).map (·.snapshot) := by
  unfold currentByKey
  cases found : device.peer? key with
  | none =>
      rw [Option.map_none, List.find?_eq_none]
      intro snapshot member isKey
      rw [List.mem_reverse, List.mem_map] at member
      obtain ⟨peer, peerMember, rfl⟩ := member
      exact rowWith?_eq_none.mp found peer peerMember (beq_iff_eq.mp isKey)
  | some peer =>
      obtain ⟨member, isKey⟩ := mem_of_rowWith? found
      cases looked :
          (device.peers.map (·.snapshot)).reverse.find?
            (·.publicKey == key) with
      | none =>
          have missing :=
            List.find?_eq_none.mp looked peer.snapshot
              (List.mem_reverse.mpr (List.mem_map_of_mem member))
          simp [LivePeer.snapshot, isKey] at missing
      | some snapshot =>
          have sameKey := List.find?_some looked
          have snapshotMember :=
            List.mem_reverse.mp (List.mem_of_find?_eq_some looked)
          obtain ⟨other, otherMember, rfl⟩ :=
            List.mem_map.mp snapshotMember
          have same : other = peer :=
            List.inj_on_of_nodup_map device.distinct otherMember member
              ((beq_iff_eq.mp sameKey).trans isKey.symm)
          rw [same]
          rfl

/-- A wanted peer has the key it is looked up by. -/
theorem publicKey_of_desiredByKey
    {desired : List PeerConfig}
    {want : PeerConfig}
    (found : desiredByKey desired key = some want) :
    want ∈ desired ∧ want.publicKey = key :=
  ⟨List.mem_reverse.mp (List.mem_of_find?_eq_some found),
    by simpa using List.find?_some found⟩

/-- Nothing is wanted under a key that no entry has. -/
theorem desiredByKey_eq_none
    {desired : List PeerConfig} :
    desiredByKey desired key = none ↔
      key ∉ desired.map (·.publicKey) := by
  simp [desiredByKey, List.find?_eq_none]

/-- The change for a wanted peer keeps its key. -/
theorem publicKey_of_syncChange
    {cur : Option DevicePeer}
    {want change : PeerConfig}
    (changes : syncChange cur want = some change) :
    change.publicKey = want.publicKey := by
  unfold syncChange at changes
  split at changes
  · cases changes
    rfl
  · split at changes
    · cases changes
    · cases changes
      rfl

/-- The removals of `syncPeers` for one key. -/
private theorem filter_removals
    (keys : List Key)
    (unwanted : Key → Bool)
    (key : Key) :
    ((keys.eraseDups.filter unwanted).map removal).filter
        (·.publicKey == key) =
      if key ∈ keys ∧ unwanted key = true then [removal key] else [] := by
  rw [List.filter_map]
  have sameTest :
      ((fun change : PeerConfig => change.publicKey == key) ∘ removal) =
        (· == key) :=
    rfl
  rw [sameTest, List.filter_filter]
  have swapped :
      (fun other => (other == key) && unwanted other) =
        (fun other => unwanted other && (other == key)) := by
    funext other
    exact Bool.and_comm _ _
  rw [swapped, ← List.filter_filter, filter_eraseDups]
  by_cases member : key ∈ keys
  · by_cases isUnwanted : unwanted key = true
    · simp [member, isUnwanted]
    · simp [member, isUnwanted]
  · simp [member]

/-- The additions and updates of `syncPeers` for one key. -/
private theorem filter_syncChanges
    (cur : Key → Option DevicePeer)
    (desired : List PeerConfig)
    (key : Key) :
    ((desired.map (·.publicKey)).eraseDups.filterMap
        (fun other =>
          (desiredByKey desired other).bind (syncChange (cur other)))).filter
        (·.publicKey == key) =
      ((desiredByKey desired key).bind (syncChange (cur key))).toList := by
  have onlyOwn :
      ∀ other,
        Option.filter (fun change : PeerConfig => change.publicKey == key)
            ((desiredByKey desired other).bind (syncChange (cur other))) =
          if other == key then
            (desiredByKey desired other).bind (syncChange (cur other))
          else none := by
    intro other
    cases changes :
        (desiredByKey desired other).bind (syncChange (cur other)) with
    | none => simp
    | some change =>
        obtain ⟨want, found, changed⟩ := Option.bind_eq_some_iff.mp changes
        have isOther : change.publicKey = other :=
          (publicKey_of_syncChange changed).trans
            (publicKey_of_desiredByKey found).2
        simp [Option.filter, isOther]
  rw [List.filter_filterMap]
  simp only [onlyOwn]
  rw [← List.filterMap_filter, filter_eraseDups]
  by_cases member : key ∈ desired.map (·.publicKey)
  · rw [if_pos member, List.filterMap_cons]
    cases (desiredByKey desired key).bind (syncChange (cur key)) <;> rfl
  · rw [if_neg member, desiredByKey_eq_none.mpr member]
    rfl

/-- The changes of `syncPeers` for one key: at most one. -/
theorem Device.filter_syncPeers
    (device : Device)
    (desired : List PeerConfig)
    (key : Key) :
    (syncPeers (device.peers.map (·.snapshot)) desired).filter
        (·.publicKey == key) =
      match desiredByKey desired key with
      | none => if (device.peer? key).isSome then [removal key] else []
      | some want =>
          (syncChange ((device.peer? key).map (·.snapshot)) want).toList := by
  unfold syncPeers
  rw [List.filter_append, filter_removals,
    filter_syncChanges (currentByKey (device.peers.map (·.snapshot))),
    device.currentByKey_snapshots]
  cases wanted : desiredByKey desired key with
  | none =>
      simp only [Option.isNone_none, and_true, Option.bind_none,
        Option.toList_none, List.append_nil]
      refine if_congr ?_ rfl rfl
      rw [List.map_map, List.mem_map]
      constructor
      · rintro ⟨peer, member, rfl⟩
        exact Option.isSome_iff_exists.mpr
          ⟨peer, Device.peer?_of_mem member⟩
      · intro isThere
        obtain ⟨peer, found⟩ := Option.isSome_iff_exists.mp isThere
        exact ⟨peer, mem_of_rowWith? found⟩
  | some want =>
      simp only [Option.isNone_some, Bool.false_eq_true, and_false, if_false,
        List.nil_append, Option.bind_some]

/-- The device's entry of a peer after `syncPeers`. -/
def syncedPeer (desired : List PeerConfig) (key : Key)
    (cur : Option LivePeer) : Option LivePeer :=
  match desiredByKey desired key with
  | none => none
  | some want =>
      (syncChange (cur.map (·.snapshot)) want).elim cur
        (fun change => change.applied cur)

/-- What a whole `syncPeers` makes of the peer with a key. -/
theorem Device.peer?_sync
    (device : Device)
    (desired : List PeerConfig)
    (key : Key) :
    ((device.sync desired).peer? key).map (·.core) =
      (syncedPeer desired key (device.peer? key)).map (·.core) := by
  unfold Device.sync syncedPeer
  rw [device.peer?_configure, device.filter_syncPeers]
  cases wanted : desiredByKey desired key with
  | none =>
      cases device.peer? key with
      | none => rfl
      | some peer => rfl
  | some want =>
      dsimp only
      cases syncChange ((device.peer? key).map (·.snapshot)) want with
      | none => rfl
      | some change => rfl

/-- Peers that differ in their addresses have one endpoint. -/
theorem exists_of_map_core
    {first second : Option LivePeer}
    (same : first.map (·.core) = second.map (·.core))
    (found : first = some peer) :
    ∃ other, second = some other ∧ other.endpoint = peer.endpoint := by
  rw [found] at same
  obtain ⟨other, isOther, cores⟩ := Option.map_eq_some_iff.mp same.symm
  have endpoints := congrArg LivePeer.endpoint cores
  exact ⟨other, isOther, endpoints⟩

end WgMesh.Agent
