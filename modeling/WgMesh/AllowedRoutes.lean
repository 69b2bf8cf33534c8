import WgMesh.ExitAssignments
import WgMesh.SyncAcceptance

namespace WgMesh.Server

/-!
# Allowed addresses

WireGuard moves a route that two peers share to the last of them, so a payload
makes sense only if no route occurs twice.  A mobile of another gateway has no
entry of its own; its routes are folded into the entry of the gateway, and they
are lost if the gateway has no entry either.
-/

open FiniteRuns RowTables Store TextScan

/-- The routes of an exit node. -/
def defaultRoutes : List String := ["0.0.0.0/0", "::/0"]

/-- The peers whose routes stand in the entry of a peer. -/
def carried (others : List PeerRow) (o : PeerRow) : List PeerRow :=
  o :: if o.peerType = some .static then [] else mobilesByGateway others o.id

section Texts

variable {p : PeerRow} {route : String}

theorem getLast?_append_text
    (first second : String)
    (filled : second.toList ≠ []) :
    (first ++ second).toList.getLast? = second.toList.getLast? := by
  rw [String.toList_append, List.getLast?_append_of_ne_nil _ filled]

theorem mem_allowedIPsForPeer :
    route ∈ allowedIPsForPeer p ↔
      route = p.assignedIP ++ "/32" ∨
        p.assignedIP6 ≠ "" ∧ route = p.assignedIP6 ++ "/128" := by
  unfold allowedIPsForPeer
  split <;> simp_all

theorem route4_ne_route6
    (first second : String) :
    first ++ "/32" ≠ second ++ "/128" := by
  intro same
  have last := congrArg (fun text => text.toList.getLast?) same
  simp only [getLast?_append_text _ _ (show "/32".toList ≠ [] by decide),
    getLast?_append_text _ _ (show "/128".toList ≠ [] by decide)] at last
  exact absurd last (by decide)

/-- Host routes are no default routes. -/
theorem not_mem_defaultRoutes
    (member : route ∈ allowedIPsForPeer p) :
    route ∉ defaultRoutes := by
  have last :
      route.toList.getLast? = some '2' ∨ route.toList.getLast? = some '8' := by
    rcases mem_allowedIPsForPeer.mp member with rfl | ⟨-, rfl⟩
    · rw [getLast?_append_text _ _ (by decide)]
      exact Or.inl (by decide)
    · rw [getLast?_append_text _ _ (by decide)]
      exact Or.inr (by decide)
  intro isDefault
  simp only [defaultRoutes, List.mem_cons, List.not_mem_nil, or_false]
    at isDefault
  rcases isDefault with rfl | rfl <;> revert last <;> decide

theorem nodup_allowedIPsForPeer
    (p : PeerRow) :
    (allowedIPsForPeer p).Nodup := by
  unfold allowedIPsForPeer
  split
  · simpa using route4_ne_route6 p.assignedIP p.assignedIP6
  · exact List.nodup_singleton _

end Texts

/-- The rows of a payload can be told apart, by their ids and their routes. -/
structure Distinct (own : PeerRow) (others : List PeerRow) : Prop where
  nodup : others.Nodup
  ids :
    ∀ p q, p ∈ others → q ∈ others → p.id = q.id → p = q
  routes :
    ∀ p q route, p ∈ others → q ∈ others →
      route ∈ allowedIPsForPeer p → route ∈ allowedIPsForPeer q → p = q
  notOwn : ∀ p ∈ others, p.id ≠ own.id

section Entries

variable
  {config : Config}
  {relay : Relay}
  {epochs : PunchEpochs}
  {self o p : PeerRow}
  {others : List PeerRow}
  {route : String}

theorem mem_mobilesByGateway
    {gatewayID : Int} :
    p ∈ mobilesByGateway others gatewayID ↔
      p ∈ others ∧ isRoutedMobile p = true ∧
        p.gatewayPeerID = gatewayID := by
  simp [mobilesByGateway]

/-- The allowed addresses of an entry. -/
theorem peerEntry_allowedIPs
    (self : PeerRow)
    (others : List PeerRow)
    (o : PeerRow) :
    (peerEntry config relay epochs self others o).allowedIPs =
      (carried others o).flatMap allowedIPsForPeer ++
        if o.peerType ≠ some .static ∧ isExitNodeOf self o = true then
          defaultRoutes
        else
          [] := by
  unfold peerEntry carried
  dsimp only
  split
  · rename_i isStatic
    simp [isStatic]
  · rename_i notStatic
    simp [agentAllowedIPs, notStatic, defaultRoutes]

theorem mem_peerEntry_allowedIPs :
    route ∈ (peerEntry config relay epochs self others o).allowedIPs ↔
      (∃ p ∈ carried others o, route ∈ allowedIPsForPeer p) ∨
        route ∈ defaultRoutes ∧ o.peerType ≠ some .static ∧
          isExitNodeOf self o = true := by
  rw [peerEntry_allowedIPs, List.mem_append, List.mem_flatMap]
  refine or_congr Iff.rfl ?_
  split
  · simp_all
  · simp_all

theorem mem_of_carried
    (member : o ∈ others)
    (carries : p ∈ carried others o) :
    p ∈ others := by
  rcases List.mem_cons.mp carries with rfl | folded
  · exact member
  · split at folded
    · cases folded
    · exact (mem_mobilesByGateway.mp folded).1

/-- A peer is carried by one entry. -/
theorem Distinct.carrier_unique
    (distinct : Distinct self others)
    {first second : PeerRow}
    (firstMember : first ∈ others)
    (secondMember : second ∈ others)
    (firstEntry : hasEntry self first = true)
    (secondEntry : hasEntry self second = true)
    (inFirst : p ∈ carried others first)
    (inSecond : p ∈ carried others second) :
    first = second := by
  -- A folded mobile belongs to another gateway, so it is no entry itself.
  have folded :
      ∀ {gateway}, gateway ∈ others →
        (p ∈ if gateway.peerType = some .static then []
          else mobilesByGateway others gateway.id) →
          p.gatewayPeerID = gateway.id ∧ hasEntry self p = false := by
    intro gateway member inside
    split at inside
    · cases inside
    · obtain ⟨-, routed, isGateway⟩ := mem_mobilesByGateway.mp inside
      refine ⟨isGateway, ?_⟩
      simp [hasEntry, routed, isGateway, distinct.notOwn gateway member]
  rcases List.mem_cons.mp inFirst with rfl | foldedFirst
  · rcases List.mem_cons.mp inSecond with same | foldedSecond
    · exact same
    · rw [(folded secondMember foldedSecond).2] at firstEntry
      cases firstEntry
  · rcases List.mem_cons.mp inSecond with rfl | foldedSecond
    · rw [(folded firstMember foldedFirst).2] at secondEntry
      cases secondEntry
    · exact distinct.ids first second firstMember secondMember
        ((folded firstMember foldedFirst).1.symm.trans
          (folded secondMember foldedSecond).1)

/-- An entry carries each peer once. -/
theorem Distinct.nodup_carried
    (distinct : Distinct self others)
    (o : PeerRow) :
    (carried others o).Nodup := by
  unfold carried
  split
  · exact List.nodup_singleton _
  · rename_i notStatic
    refine List.nodup_cons.mpr ⟨?_, distinct.nodup.filter _⟩
    intro inside
    obtain ⟨-, routed, -⟩ := mem_mobilesByGateway.mp inside
    simp [isRoutedMobile, notStatic] at routed

/-- An entry has each route once. -/
theorem Distinct.nodup_entry
    (distinct : Distinct self others)
    (member : o ∈ others) :
    (peerEntry config relay epochs self others o).allowedIPs.Nodup := by
  rw [peerEntry_allowedIPs]
  refine List.Nodup.append ?_ ?_ ?_
  · refine List.nodup_flatMap.mpr
      ⟨fun p _ => nodup_allowedIPsForPeer p, ?_⟩
    refine (distinct.nodup_carried o).imp_of_mem ?_
    intro p q inP inQ different route first second
    exact different
      (distinct.routes p q route (mem_of_carried member inP)
        (mem_of_carried member inQ) first second)
  · split
    · decide
    · exact List.nodup_nil
  · intro route isHost isDefault
    obtain ⟨p, -, inside⟩ := List.mem_flatMap.mp isHost
    split at isDefault
    · exact not_mem_defaultRoutes inside isDefault
    · cases isDefault

/-- No route of a payload occurs twice. -/
theorem Distinct.nodup_entries
    (distinct : Distinct self others) :
    ((buildPeerEntries config relay epochs self others).flatMap
      (·.allowedIPs)).Nodup := by
  unfold buildPeerEntries
  rw [List.flatMap_map]
  refine List.nodup_flatMap.mpr ⟨?_, ?_⟩
  · intro o member
    exact distinct.nodup_entry (List.mem_filter.mp member).1
  · refine (distinct.nodup.filter (hasEntry self)).imp_of_mem ?_
    intro first second firstMember secondMember different route inFirst
      inSecond
    obtain ⟨firstVisible, firstEntry⟩ := List.mem_filter.mp firstMember
    obtain ⟨secondVisible, secondEntry⟩ := List.mem_filter.mp secondMember
    apply different
    rcases mem_peerEntry_allowedIPs.mp inFirst with
      ⟨p, inP, hostP⟩ | ⟨isDefault, -, exitFirst⟩
    · rcases mem_peerEntry_allowedIPs.mp inSecond with
        ⟨q, inQ, hostQ⟩ | ⟨isDefault, -, -⟩
      · have same :=
          distinct.routes p q route (mem_of_carried firstVisible inP)
            (mem_of_carried secondVisible inQ) hostP hostQ
        exact distinct.carrier_unique firstVisible secondVisible firstEntry
          secondEntry inP (same ▸ inQ)
      · exact absurd isDefault (not_mem_defaultRoutes hostP)
    · rcases mem_peerEntry_allowedIPs.mp inSecond with
        ⟨q, -, hostQ⟩ | ⟨-, -, exitSecond⟩
      · exact absurd isDefault (not_mem_defaultRoutes hostQ)
      · simp only [isExitNodeOf, Bool.and_eq_true, beq_iff_eq]
          at exitFirst exitSecond
        exact distinct.ids first second firstVisible secondVisible
          (exitFirst.2.trans exitSecond.2.symm)

end Entries

/-- The routes of a peer's own addresses. -/
def hostRoutes (peer : PeerRecord) : List String :=
  allowedIPsForPeer peer.visibleRow

section Rows

variable {db : DB} {defaultAllow : Bool} {first second self : PeerRecord}

private theorem text_append_cancel
    {first second suffix : String}
    (same : first ++ suffix = second ++ suffix) :
    first = second := by
  have lists := congrArg String.toList same
  simp only [String.toList_append] at lists
  exact String.ext (List.append_cancel_right lists)

/-- A host route belongs to one peer. -/
theorem eq_of_hostRoute
    {route : String}
    (firstMember : first ∈ db.tables.peers)
    (secondMember : second ∈ db.tables.peers)
    (inFirst : route ∈ hostRoutes first)
    (inSecond : route ∈ hostRoutes second) :
    first = second := by
  rcases mem_allowedIPsForPeer.mp inFirst with rfl | ⟨filled, rfl⟩
  · rcases mem_allowedIPsForPeer.mp inSecond with same | ⟨-, same⟩
    · exact List.inj_on_of_nodup_map db.legal.assignedIPUnique firstMember
        secondMember (text_append_cancel same)
    · exact absurd same (route4_ne_route6 _ _)
  · rcases mem_allowedIPsForPeer.mp inSecond with same | ⟨filled2, same⟩
    · exact absurd same.symm (route4_ne_route6 _ _)
    · have texts : orEmpty first.assignedIP6 = orEmpty second.assignedIP6 :=
        text_append_cancel same
      have secondText := eq_some_orEmpty filled2
      change second.assignedIP6 = some (orEmpty second.assignedIP6)
        at secondText
      rw [← texts] at secondText
      exact eq_of_nodup_filterMap db.legal.assignedIP6Unique firstMember
        secondMember (eq_some_orEmpty filled) secondText

/-- The rows that a peer sees can be told apart. -/
theorem distinct_visibleTo
    (db : DB)
    (self : PeerRecord)
    (defaultAllow : Bool) :
    Distinct self.selfRow (db.tables.visibleTo self.id defaultAllow) where
  nodup := by
    have ids :
        ((db.tables.visibleTo self.id defaultAllow).map (·.id)).Nodup := by
      unfold Tables.visibleTo
      rw [List.map_map]
      exact db.legal.peerOrder.nodup.sublist
        (List.filter_sublist.map _)
    exact ids.of_map _
  ids := by
    intro p q inP inQ same
    obtain ⟨first, firstMember, -, rfl⟩ := mem_visibleTo.mp inP
    obtain ⟨second, secondMember, -, rfl⟩ := mem_visibleTo.mp inQ
    rw [db.eq_of_peerID firstMember secondMember same]
  routes := by
    intro p q route inP inQ firstRoute secondRoute
    obtain ⟨first, firstMember, -, rfl⟩ := mem_visibleTo.mp inP
    obtain ⟨second, secondMember, -, rfl⟩ := mem_visibleTo.mp inQ
    rw [eq_of_hostRoute firstMember secondMember firstRoute secondRoute]
  notOwn := by
    intro p inP
    obtain ⟨peer, -, seen, rfl⟩ := mem_visibleTo.mp inP
    simp only [Tables.isVisible, Bool.and_eq_true, bne_iff_ne] at seen
    exact seen.1.2

/-- A static peer that some agent routes. -/
def IsRouted (peer : PeerRecord) : Prop :=
  peer.peerType = .static ∧ peer.gatewayPeerID ≠ none

/-- The row of a peer shows whether it is routed. -/
theorem isRoutedMobile_iff
    {peer : PeerRecord}
    (member : peer ∈ db.tables.peers) :
    isRoutedMobile peer.visibleRow = true ↔ IsRouted peer := by
  have shown : orZero peer.gatewayPeerID ≠ 0 ↔ peer.gatewayPeerID ≠ none := by
    cases gateway : peer.gatewayPeerID with
    | none => simp [orZero]
    | some id =>
        obtain ⟨row, rowMember, isID⟩ :=
          List.mem_map.mp (db.legal.peerGateway peer member id gateway)
        have positive := db.legal.peerPositive row rowMember
        simp only [orZero, Option.getD_some]
        constructor
        · intro _ missing
          cases missing
        · intro _
          omega
  simp only [isRoutedMobile, PeerRecord.visibleRow, Bool.and_eq_true,
    beq_iff_eq, Option.some.injEq, bne_iff_ne, shown, IsRouted]

/-- A routed peer has an entry of its own for its gateway only. -/
theorem hasEntry_iff
    {peer : PeerRecord}
    (selfMember : self ∈ db.tables.peers)
    (member : peer ∈ db.tables.peers) :
    hasEntry self.selfRow peer.visibleRow = true ↔
      (IsRouted peer → peer.gatewayPeerID = some self.id) := by
  have reads :
      peer.visibleRow.gatewayPeerID = self.selfRow.id ↔
        peer.gatewayPeerID = some self.id :=
    DB.orZero_eq_id selfMember
  rw [← isRoutedMobile_iff member, ← reads]
  simp only [hasEntry, Bool.not_eq_true', Bool.and_eq_false_iff,
    bne_eq_false_iff_eq]
  cases isRoutedMobile peer.visibleRow <;> simp

/-- Where the routes of a peer belong: its own entry, or its gateway's. -/
def BelongsIn
    (tables : Tables)
    (self peer : PeerRecord)
    (entry : PeerConfigResponse) : Prop :=
  (IsRouted peer → peer.gatewayPeerID = some self.id) ∧
      entry.publicKey = peer.publicKey ∨
    (IsRouted peer ∧ peer.gatewayPeerID ≠ some self.id) ∧
      ∃ gateway, gateway ∈ tables.peers ∧
        peer.gatewayPeerID = some gateway.id ∧
        entry.publicKey = gateway.publicKey

variable
  {config : Config}
  {relay : Relay}
  {epochs : PunchEpochs}
  {entry : PeerConfigResponse}
  {route : String}

/-- A route of a payload is a default route, or belongs where it stands. -/
theorem route_belongs
    (selfMember : self ∈ db.tables.peers)
    (member :
      entry ∈ (reportPayload config relay epochs db.tables self).peers)
    (inside : route ∈ entry.allowedIPs) :
    route ∈ defaultRoutes ∨
      ∃ peer, peer ∈ db.tables.peers ∧
        db.tables.isVisible self.id config.store.defaultAllow peer = true ∧
        route ∈ hostRoutes peer ∧
        BelongsIn db.tables self peer entry := by
  obtain ⟨owner, ownerMember, seen, has, rfl⟩ := mem_reportPayload.mp member
  have own := (hasEntry_iff selfMember ownerMember).mp has
  rcases mem_peerEntry_allowedIPs.mp inside with
    ⟨p, carries, host⟩ | ⟨isDefault, -, -⟩
  · refine Or.inr ?_
    rcases List.mem_cons.mp carries with rfl | folded
    · exact ⟨owner, ownerMember, seen, host,
        Or.inl ⟨own, peerEntry_publicKey _ _ _⟩⟩
    · split at folded
      · cases folded
      · obtain ⟨visible, routed, isGateway⟩ :=
          mem_mobilesByGateway.mp folded
        obtain ⟨peer, peerMember, peerSeen, rfl⟩ := mem_visibleTo.mp visible
        have gateway : peer.gatewayPeerID = some owner.id :=
          (DB.orZero_eq_id ownerMember).mp isGateway
        have notSelf :=
          ((db.isVisible_iff selfMember ownerMember).mp seen).2.1
        refine ⟨peer, peerMember, peerSeen, host, Or.inr ⟨⟨?_, ?_⟩, ?_⟩⟩
        · exact (isRoutedMobile_iff peerMember).mp routed
        · rw [gateway]
          exact fun same => notSelf (Option.some.inj same)
        · exact ⟨owner, ownerMember, gateway, peerEntry_publicKey _ _ _⟩
  · exact Or.inl isDefault

/-- The default routes stand in the entry of the exit node, if it is active. -/
theorem default_route_iff
    (unchained : db.Unchained)
    (selfMember : self ∈ db.tables.peers)
    (member :
      entry ∈ (reportPayload config relay epochs db.tables self).peers)
    (isDefault : route ∈ defaultRoutes) :
    route ∈ entry.allowedIPs ↔
      ∃ exit ∈ db.tables.peers, exit.isActive = true ∧
        self.exitNodePeerID = some exit.id ∧
        entry.publicKey = exit.publicKey := by
  obtain ⟨owner, ownerMember, seen, -, rfl⟩ := mem_reportPayload.mp member
  rw [mem_peerEntry_allowedIPs, peerEntry_publicKey]
  constructor
  · rintro (⟨p, -, host⟩ | ⟨-, -, isExit⟩)
    · exact absurd isDefault (not_mem_defaultRoutes host)
    · exact ⟨owner, ownerMember,
        ((db.isVisible_iff selfMember ownerMember).mp seen).1,
        (isExitNodeOf_iff ownerMember).mp isExit, rfl⟩
  · rintro ⟨exit, exitMember, -, assigned, sameKey⟩
    have isOwner : owner = exit :=
      db.eq_of_publicKey ownerMember exitMember sameKey
    subst isOwner
    refine Or.inr ⟨isDefault, ?_, (isExitNodeOf_iff ownerMember).mpr assigned⟩
    have agent := unchained.agent self owner selfMember ownerMember assigned
    simp [PeerRecord.visibleRow, agent]

/-- An active exit node has an entry. -/
theorem lists_exit
    (unchained : db.Unchained)
    (selfMember : self ∈ db.tables.peers)
    {exit : PeerRecord}
    (exitMember : exit ∈ db.tables.peers)
    (active : exit.isActive = true)
    (assigned : self.exitNodePeerID = some exit.id) :
    (reportPayload config relay epochs db.tables self).Lists exit := by
  have agent := unchained.agent self exit selfMember exitMember assigned
  have distinct : exit.id ≠ self.id := by
    intro same
    rw [same] at assigned
    exact unchained.other self selfMember assigned
  refine (lists_iff_visible exitMember agent).mpr ?_
  exact (db.isVisible_iff selfMember exitMember).mpr
    ⟨active, distinct, Or.inr (Or.inr (Or.inl assigned))⟩

/-- A printed host address is read back as the network of this address. -/
theorem reads_hostText
    {family : NetAddress.Family}
    {text suffix : String}
    (canonical : CanonicalText family text)
    (printed :
      suffix = "/" ++ String.ofList (Nat.toDigits 10 family.width)) :
    ∃ network, Agent.parseCIDR (text ++ suffix) = some network ∧
      network.text = text ++ suffix := by
  obtain ⟨addr, rfl, zoneFree, rfl⟩ := canonical
  have shape :
      addr.text ++ suffix =
        NetAddress.Prefix.text ⟨addr, addr.family.width, le_rfl⟩ := by
    rw [printed, ← String.append_assoc]
    rfl
  have isNetwork :
      NetAddress.Prefix.IsNetwork ⟨addr, addr.family.width, le_rfl⟩ :=
    ⟨zoneFree, by simp [NetAddress.Prefix.hostBits]⟩
  refine ⟨⟨addr, addr.family.width, le_rfl⟩, ?_, shape.symm⟩
  rw [shape, Agent.parseCIDR_text zoneFree, isNetwork.masked_eq]

/-- The routes of canonical rows are read back. -/
theorem reads_route
    (canonical : ∀ row ∈ db.tables.peers, row.Canonical)
    (selfMember : self ∈ db.tables.peers)
    (member :
      entry ∈ (reportPayload config relay epochs db.tables self).peers)
    (inside : route ∈ entry.allowedIPs) :
    ∃ network, Agent.parseCIDR route = some network ∧
      network.text = route := by
  rcases route_belongs selfMember member inside with
    isDefault | ⟨peer, peerMember, -, host, -⟩
  · simp only [defaultRoutes, List.mem_cons, List.not_mem_nil, or_false]
      at isDefault
    rcases isDefault with rfl | rfl
    · exact ⟨⟨⟨.v4, 0, "", by decide⟩, 0, by decide⟩, by decide +kernel,
        by decide +kernel⟩
    · exact ⟨⟨⟨.v6, 0, "", by decide⟩, 0, by decide⟩, by decide +kernel,
        by decide +kernel⟩
  · have row := canonical peer peerMember
    rcases mem_allowedIPsForPeer.mp host with rfl | ⟨filled, rfl⟩
    · exact reads_hostText row.first (by decide)
    · exact reads_hostText (row.second _ (eq_some_orEmpty filled))
        (by decide)

/-- All routes of a payload. -/
def SyncPayload.routes (payload : SyncPayload) : List String :=
  payload.peers.flatMap (·.allowedIPs)

/-- What makes the routes of an agent's payload sound. -/
structure RoutesSound
    (tables : Tables)
    (defaultAllow : Bool)
    (own : PeerRecord)
    (payload : SyncPayload) : Prop where
  once : payload.routes.Nodup
  notOwn : ∀ route ∈ payload.routes, route ∉ hostRoutes own
  placed :
    ∀ entry ∈ payload.peers, ∀ route, route ∈ entry.allowedIPs →
      route ∈ defaultRoutes ∨
        ∃ peer, peer ∈ tables.peers ∧
          tables.isVisible own.id defaultAllow peer = true ∧
          route ∈ hostRoutes peer ∧ BelongsIn tables own peer entry
  defaults :
    ∀ entry ∈ payload.peers, ∀ route, route ∈ defaultRoutes →
      (route ∈ entry.allowedIPs ↔
        ∃ exit ∈ tables.peers, exit.isActive = true ∧
          own.exitNodePeerID = some exit.id ∧
          entry.publicKey = exit.publicKey)
  exit :
    ∀ exit ∈ tables.peers, exit.isActive = true →
      own.exitNodePeerID = some exit.id → payload.Lists exit

/-- The routes of a payload are sound where exit assignments do not chain. -/
theorem routesSound_reportPayload
    (config : Config)
    (relay : Relay)
    (epochs : PunchEpochs)
    (unchained : db.Unchained)
    (selfMember : self ∈ db.tables.peers) :
    RoutesSound db.tables config.store.defaultAllow self
      (reportPayload config relay epochs db.tables self) where
  once := (distinct_visibleTo db self _).nodup_entries
  notOwn := by
    intro route listed own
    obtain ⟨entry, member, inside⟩ := List.mem_flatMap.mp listed
    rcases route_belongs selfMember member inside with
      isDefault | ⟨peer, peerMember, seen, host, -⟩
    · exact not_mem_defaultRoutes own isDefault
    · have isSelf := eq_of_hostRoute peerMember selfMember host own
      exact ((db.isVisible_iff selfMember peerMember).mp seen).2.1
        (congrArg PeerRecord.id isSelf)
  placed _ member _ inside := route_belongs selfMember member inside
  defaults _ member _ isDefault :=
    default_route_iff unchained selfMember member isDefault
  exit _ exitMember active assigned :=
    lists_exit unchained selfMember exitMember active assigned

/-- Where a routed mobile is seen, its routes are listed with its gateway. -/
theorem mobile_route_listed_iff
    {mobile gateway : PeerRecord}
    (selfMember : self ∈ db.tables.peers)
    (mobileMember : mobile ∈ db.tables.peers)
    (seen :
      db.tables.isVisible self.id config.store.defaultAllow mobile = true)
    (static : mobile.peerType = .static)
    (gatewayMember : gateway ∈ db.tables.peers)
    (agent : gateway.peerType = .agent)
    (routed : mobile.gatewayPeerID = some gateway.id)
    (host : route ∈ hostRoutes mobile) :
    route ∈ (reportPayload config relay epochs db.tables self).routes ↔
      gateway = self ∨
        db.tables.isVisible self.id config.store.defaultAllow gateway =
          true := by
  have isRouted : IsRouted mobile := ⟨static, by simp [routed]⟩
  constructor
  · intro listed
    obtain ⟨entry, member, inside⟩ := List.mem_flatMap.mp listed
    rcases route_belongs selfMember member inside with
      isDefault | ⟨peer, peerMember, -, peerHost, place⟩
    · exact absurd isDefault (not_mem_defaultRoutes host)
    · obtain rfl := eq_of_hostRoute peerMember mobileMember peerHost host
      rcases place with ⟨own, -⟩ | ⟨-, node, nodeMember, isNode, sameKey⟩
      · have same := routed.symm.trans (own isRouted)
        exact Or.inl
          (db.eq_of_peerID gatewayMember selfMember (Option.some.inj same))
      · obtain ⟨owner, ownerMember, ownerSeen, -, rfl⟩ :=
          mem_reportPayload.mp member
        rw [peerEntry_publicKey] at sameKey
        have isOwner : owner = node :=
          db.eq_of_publicKey ownerMember nodeMember sameKey
        have same := routed.symm.trans isNode
        rw [isOwner, ← db.eq_of_peerID gatewayMember nodeMember
          (Option.some.inj same)] at ownerSeen
        exact Or.inr ownerSeen
  · rintro (rfl | gatewaySeen)
    · refine List.mem_flatMap.mpr ⟨_, mem_reportPayload.mpr
        ⟨mobile, mobileMember, seen, ?_, rfl⟩, ?_⟩
      · exact (hasEntry_iff selfMember mobileMember).mpr fun _ => routed
      · exact mem_peerEntry_allowedIPs.mpr
          (Or.inl ⟨_, List.mem_cons_self, host⟩)
    · refine List.mem_flatMap.mpr ⟨_, mem_reportPayload.mpr
        ⟨gateway, gatewayMember, gatewaySeen, hasEntry_of_agent agent _,
          rfl⟩, ?_⟩
      refine mem_peerEntry_allowedIPs.mpr
        (Or.inl ⟨mobile.visibleRow, List.mem_cons_of_mem _ ?_, host⟩)
      rw [if_neg (by simp [PeerRecord.visibleRow, agent])]
      exact mem_mobilesByGateway.mpr
        ⟨mem_visibleTo.mpr ⟨mobile, mobileMember, seen, rfl⟩,
          (isRoutedMobile_iff mobileMember).mpr isRouted,
          (DB.orZero_eq_id gatewayMember).mpr routed⟩

end Rows

/--
Over every reachable store the routes in an agent's payload are distinct, are
not the agent's own, and stand with the visible peer that they reach or its
gateway; the default routes stand with the active exit node.  Once the networks
are masked and of their families, different routes denote different networks.
-/
theorem allowed_routes_sound_disjoint
    (config : Config)
    (relay : Relay)
    (epochs : PunchEpochs)
    (network : NetAddress.Prefix)
    (network6 : Option NetAddress.Prefix)
    (inputs : List Store.Input)
    (db : DB)
    (reached :
      db = ((Store.machine config.store).run (.empty network network6)
        inputs).db)
    (self : PeerRecord)
    (isSelf : ActiveAgent db self) :
    RoutesSound db.tables config.store.defaultAllow self
        (reportPayload config relay epochs db.tables self) ∧
      ((State.empty network network6).Initial →
        (∀ input ∈ inputs, input.op.TargetsFamilies) →
          ∀ route,
            route ∈ (reportPayload config relay epochs db.tables
              self).routes →
              ∃ known, Agent.parseCIDR route = some known ∧
                known.text = route) := by
  subst reached
  refine ⟨routesSound_reportPayload config relay epochs
    (unchained_run config.store network network6 inputs) isSelf.member, ?_⟩
  intro initial targets route listed
  have addressed :=
    (Store.machine config.store).run_invariant_on
      (fun _ _ holds allowed => State.Addressed.step holds allowed)
      initial.addressed targets
  obtain ⟨entry, member, inside⟩ := List.mem_flatMap.mp listed
  exact reads_route addressed.rows isSelf.member member inside

/-- The sample pair: the default routes of the client stand with its exit. -/
theorem allowed_routes_exitPair :
    (reportPayload (.sample false) (fun _ => none) (fun _ => {})
        exitPairStore.db.tables exitClient).routes.Nodup ∧
      (reportPayload (.sample false) (fun _ => none) (fun _ => {})
        exitPairStore.db.tables exitClient).Lists exitNode ∧
      ∀ entry,
        entry ∈ (reportPayload (.sample false) (fun _ => none) (fun _ => {})
            exitPairStore.db.tables exitClient).peers →
          entry.publicKey = "exit" → "0.0.0.0/0" ∈ entry.allowedIPs := by
  have rows : exitPairStore.db.tables.peers = [exitClient, exitNode] := by
    decide +kernel
  have isClient : ActiveAgent exitPairStore.db exitClient :=
    ⟨by simp [rows], rfl, rfl⟩
  have isExit : exitNode ∈ exitPairStore.db.tables.peers := by simp [rows]
  have sound :=
    (allowed_routes_sound_disjoint (.sample false) (fun _ => none)
      (fun _ => {}) defaultNetwork (some defaultNetwork6) exitPair
      exitPairStore.db rfl exitClient isClient).1
  refine ⟨sound.once, sound.exit exitNode isExit rfl rfl, ?_⟩
  intro entry member isEntry
  exact (sound.defaults entry member "0.0.0.0/0" (by simp [defaultRoutes])).mpr
    ⟨exitNode, isExit, rfl, rfl, isEntry⟩

/-- How many entries of a payload carry a route. -/
def SyncPayload.carriers (payload : SyncPayload) (route : String) : Nat :=
  payload.peers.countP (fun entry => decide (route ∈ entry.allowedIPs))

/--
Over every reachable store, each route of a visible mobile with an active
gateway stands in one entry exactly when the gateway is the agent itself or is
visible to it too.
-/
theorem mobile_routed_once_iff
    (config : Config)
    (relay : Relay)
    (epochs : PunchEpochs)
    (network : NetAddress.Prefix)
    (network6 : Option NetAddress.Prefix)
    (inputs : List Store.Input)
    (db : DB)
    (reached :
      db = ((Store.machine config.store).run (.empty network network6)
        inputs).db)
    (self mobile gateway : PeerRecord)
    (isSelf : ActiveAgent db self)
    (mobileMember : mobile ∈ db.tables.peers)
    (seen :
      db.tables.isVisible self.id config.store.defaultAllow mobile = true)
    (static : mobile.peerType = .static)
    (isGateway : ActiveAgent db gateway)
    (routed : mobile.gatewayPeerID = some gateway.id) :
    (∀ route, route ∈ hostRoutes mobile →
        (reportPayload config relay epochs db.tables self).carriers route =
          1) ↔
      gateway = self ∨
        db.tables.isVisible self.id config.store.defaultAllow gateway =
          true := by
  have unchained := unchained_run config.store network network6 inputs
  rw [← reached] at unchained
  have sound :=
    routesSound_reportPayload config relay epochs unchained isSelf.member
  have listed :
      ∀ route, route ∈ hostRoutes mobile →
        ((reportPayload config relay epochs db.tables self).carriers route =
            1 ↔
          gateway = self ∨
            db.tables.isVisible self.id config.store.defaultAllow gateway =
              true) := by
    intro route host
    rw [← mobile_route_listed_iff isSelf.member mobileMember seen static
      isGateway.member isGateway.agent routed host]
    exact countP_mem_eq_one_iff sound.once
  constructor
  · intro once
    have first : mobile.assignedIP ++ "/32" ∈ hostRoutes mobile :=
      mem_allowedIPsForPeer.mpr (Or.inl rfl)
    exact (listed _ first).mp (once _ first)
  · intro condition route host
    exact (listed route host).mpr condition

/-- Two agents enrol, and a phone whose gateway is the second one. -/
def routedPhone (rules : List ACLRuleSpec) : List Store.Input :=
  ([Op.createSetupKey "" 5 0 0 (.ok "key"),
    .enroll ⟨"key", "laptop", "", 0, "", ""⟩ 0 (.ok "first"),
    .enroll ⟨"key", "gateway", "", 0, "", ""⟩ 0 (.ok "second"),
    .createStaticPeer ⟨"phone", "", 2, "", ""⟩ 0 (.ok "marker")
      (.ok "third")] ++ rules.map Op.createACLRule).map Op.accepted

/-- The store after that run, under default-deny. -/
def routedPhoneStore (rules : List ACLRuleSpec) : Store.State :=
  (Store.machine (.sample false)).run
    (.empty defaultNetwork (some defaultNetwork6)) (routedPhone rules)

/-- The row of an agent of that run. -/
def phoneAgent (id : Int) (key host token : String) : PeerRecord where
  id := id
  publicKey := key
  assignedIP := "100.64.0." ++ host
  assignedIP6 := some ("fd00:100:64::" ++ host)
  setupKeyID := 1
  authTokenHash := some ("hash of " ++ token)
  authTokenIssuedAt := some "0000-01-01T00:00:00.000Z"

/-- The row of the phone. -/
def phone : PeerRecord where
  id := 3
  publicKey := "phone"
  assignedIP := "100.64.0.3"
  assignedIP6 := some "fd00:100:64::3"
  setupKeyID := 2
  authTokenHash := some "hash of third"
  authTokenIssuedAt := some "0000-01-01T00:00:00.000Z"
  peerType := .static
  gatewayPeerID := some 2

/-- A rule that lets the laptop reach a peer by ssh. -/
def shellRule (id : Int) : ACLRuleSpec :=
  ⟨some 1, some id, "", "tcp", some 22, some 22⟩

/--
A rule connects the laptop and the phone, and no rule the laptop and the
gateway.  The laptop sees the phone, and no entry carries its address.
-/
theorem phone_unrouted :
    ∃ laptop gateway mobile,
      ActiveAgent (routedPhoneStore [shellRule 3]).db laptop ∧
        ActiveAgent (routedPhoneStore [shellRule 3]).db gateway ∧
        mobile ∈ (routedPhoneStore [shellRule 3]).db.tables.peers ∧
        mobile.peerType = .static ∧
        mobile.gatewayPeerID = some gateway.id ∧
        (routedPhoneStore [shellRule 3]).db.tables.isVisible laptop.id
          false mobile = true ∧
        "100.64.0.3/32" ∈ hostRoutes mobile ∧
        (reportPayload (.sample false) (fun _ => none) (fun _ => {})
          (routedPhoneStore [shellRule 3]).db.tables laptop).carriers
            "100.64.0.3/32" = 0 := by
  have rows :
      (routedPhoneStore [shellRule 3]).db.tables.peers =
        [phoneAgent 1 "laptop" "1" "first",
          phoneAgent 2 "gateway" "2" "second", phone] := by
    decide +kernel
  refine ⟨phoneAgent 1 "laptop" "1" "first",
    phoneAgent 2 "gateway" "2" "second", phone, ⟨by simp [rows], rfl, rfl⟩,
    ⟨by simp [rows], rfl, rfl⟩, by simp [rows], rfl, rfl, ?_⟩
  decide +kernel

/-- With a rule for the gateway too, one entry carries the phone's address. -/
theorem phone_routed_once :
    (reportPayload (.sample false) (fun _ => none) (fun _ => {})
      (routedPhoneStore [shellRule 3, shellRule 2]).db.tables
      (phoneAgent 1 "laptop" "1" "first")).carriers "100.64.0.3/32" = 1 := by
  have rows :
      (routedPhoneStore [shellRule 3, shellRule 2]).db.tables.peers =
        [phoneAgent 1 "laptop" "1" "first",
          phoneAgent 2 "gateway" "2" "second", phone] := by
    decide +kernel
  have seen :
      (routedPhoneStore [shellRule 3, shellRule 2]).db.tables.isVisible 1
          false phone = true ∧
        (routedPhoneStore [shellRule 3, shellRule 2]).db.tables.isVisible 1
          false (phoneAgent 2 "gateway" "2" "second") = true := by
    decide +kernel
  exact (mobile_routed_once_iff (.sample false) (fun _ => none)
    (fun _ => {}) defaultNetwork (some defaultNetwork6)
    (routedPhone [shellRule 3, shellRule 2])
    (routedPhoneStore [shellRule 3, shellRule 2]).db rfl
    (phoneAgent 1 "laptop" "1" "first") phone
    (phoneAgent 2 "gateway" "2" "second") ⟨by simp [rows], rfl, rfl⟩
    (by simp [rows]) seen.1 rfl ⟨by simp [rows], rfl, rfl⟩ rfl).mpr
    (Or.inr seen.2) _ (by decide)

end WgMesh.Server
