import WgMesh.BigEndian
import WgMesh.FlowRecords
import WgMesh.SelfAssignment

namespace WgMesh.Flows

/-!
# Flows from captured packets

Without connection tracking the agent reads packets off the overlay interface
and counts them by five-tuple, with its own end as the source.  The own
addresses are those the reporter was constructed with.
-/

open Agent BigEndian FiniteRuns NetAddress Server

/-! ## Reading a packet -/

/-- What `parseFlowTuple` returns. -/
structure FlowTuple where
  proto : Nat
  src : IPAddr
  sport : Nat
  dst : IPAddr
  dport : Nat
deriving DecidableEq

/-- `netip.AddrFrom4`. -/
def addrFrom4 (bytes : List UInt8) : IPAddr :=
  ⟨addressOf (number bytes), fun _ => rfl⟩

/-- `netip.AddrFrom16`. -/
def addrFrom16 (bytes : List UInt8) : IPAddr :=
  ⟨address6Of (number bytes), fun _ => rfl⟩

/-- The bytes of a packet from an offset on. -/
def slice (pkt : List UInt8) (offset count : Nat) : List UInt8 :=
  (pkt.drop offset).take count

/-- One byte of a packet; the callers have checked the length. -/
def byteAt (pkt : List UInt8) (offset : Nat) : Nat :=
  (pkt.getD offset 0).toNat

/-- TCP and UDP. -/
def hasPorts (proto : Nat) : Prop :=
  proto = 6 ∨ proto = 17

instance (proto : Nat) : Decidable (hasPorts proto) :=
  inferInstanceAs (Decidable (proto = 6 ∨ proto = 17))

/-- `l4Ports`. -/
def l4Ports (proto : Nat) (l4 : List UInt8) : Nat × Nat :=
  if hasPorts proto ∧ 4 ≤ l4.length then
    (number (slice l4 0 2), number (slice l4 2 2))
  else
    (0, 0)

/-- The length of an IPv4 header in bytes. -/
def headerLength (pkt : List UInt8) : Nat :=
  byteAt pkt 0 % 16 * 4

/-- The version of the header. -/
def version (pkt : List UInt8) : Nat :=
  byteAt pkt 0 / 16

/-- The IPv4 case of `parseFlowTuple`.  The fragment offset is not read. -/
def parseIPv4 (pkt : List UInt8) : Option FlowTuple :=
  if pkt.length < 20 then
    none
  else if headerLength pkt < 20 ∨ pkt.length < headerLength pkt then
    none
  else
    let proto := byteAt pkt 9
    let ports := l4Ports proto (pkt.drop (headerLength pkt))
    some
      { proto
        src := addrFrom4 (slice pkt 12 4)
        sport := ports.1
        dst := addrFrom4 (slice pkt 16 4)
        dport := ports.2 }

/-- The IPv6 case of `parseFlowTuple`.  An extension header is a protocol
without ports. -/
def parseIPv6 (pkt : List UInt8) : Option FlowTuple :=
  if pkt.length < 40 then
    none
  else
    let proto := byteAt pkt 6
    let ports := l4Ports proto (pkt.drop 40)
    some
      { proto
        src := addrFrom16 (slice pkt 8 16)
        sport := ports.1
        dst := addrFrom16 (slice pkt 24 16)
        dport := ports.2 }

/-- `parseFlowTuple`. -/
def parseFlowTuple (pkt : List UInt8) : Option FlowTuple :=
  if pkt.length < 1 then
    none
  else if version pkt = 4 then
    parseIPv4 pkt
  else if version pkt = 6 then
    parseIPv6 pkt
  else
    none

/-! ## Accounting -/

/-- `captureFlowTTL`, in nanoseconds. -/
def captureFlowTTL : Int := 300000000000

/-- `captureMaxFlows`. -/
def captureMaxFlows : Nat := 8192

/-- An entry of `flows`, with its `flowAccum`. -/
structure TrackedFlow where
  key : FlowKey
  counters : FlowCounters
  lastSeen : Int
deriving DecidableEq

/-- `captureDumper`; an invalid own address is missing. -/
structure Capture where
  self4 : Option Addr
  self6 : Option Addr
  flows : List TrackedFlow

/-- `isSelf`. -/
def Capture.isSelf (capture : Capture) (addr : IPAddr) : Bool :=
  decide (capture.self4 = some addr.val ∨ capture.self6 = some addr.val)

/-- The key of a packet, and whether it leaves this host. -/
def Capture.classify (capture : Capture) (tuple : FlowTuple) :
    Option (FlowKey × Bool) :=
  if capture.isSelf tuple.src then
    some (⟨tuple.proto, tuple.src, tuple.sport, tuple.dst, tuple.dport⟩, true)
  else if capture.isSelf tuple.dst then
    some
      (⟨tuple.proto, tuple.dst, tuple.dport, tuple.src, tuple.sport⟩, false)
  else
    none

/-- `evictLocked`. -/
def evictLocked (now : Int) (flows : List TrackedFlow) : List TrackedFlow :=
  flows.filter (fun flow => decide (now - flow.lastSeen ≤ captureFlowTTL))

/-- Count a packet in its direction. -/
def FlowCounters.count (counters : FlowCounters) (outbound : Bool)
    (length : Nat) : FlowCounters :=
  if outbound then
    { counters with
      txBytes := counters.txBytes + length
      txPackets := counters.txPackets + 1 }
  else
    { counters with
      rxBytes := counters.rxBytes + length
      rxPackets := counters.rxPackets + 1 }

/-- The entry of a key is there. -/
def tracks (key : FlowKey) (flows : List TrackedFlow) : Bool :=
  flows.any (fun flow => decide (flow.key = key))

/-- Make room for a new entry, if it takes evicting. -/
def makeRoom (key : FlowKey) (now : Int) (flows : List TrackedFlow) :
    List TrackedFlow :=
  if tracks key flows then flows
  else if captureMaxFlows ≤ flows.length then evictLocked now flows
  else flows

/-- The part of `account` under the lock. -/
def countPacket (key : FlowKey) (outbound : Bool) (length : Nat) (now : Int)
    (flows : List TrackedFlow) : List TrackedFlow :=
  let room := makeRoom key now flows
  if tracks key room then
    room.map fun flow =>
      if flow.key = key then
        { flow with
          counters := flow.counters.count outbound length
          lastSeen := now }
      else
        flow
  else if captureMaxFlows ≤ room.length then
    room
  else
    room ++
      [{ key
         counters := FlowCounters.count ⟨0, 0, 0, 0⟩ outbound length
         lastSeen := now }]

/-- The key that a packet is counted under, and whether it is sent. -/
def Capture.flowOf (capture : Capture) (pkt : List UInt8) :
    Option (FlowKey × Bool) :=
  (parseFlowTuple pkt).bind capture.classify

/-- `account`. -/
def Capture.account (capture : Capture) (pkt : List UInt8) (length : Nat)
    (now : Int) : Capture :=
  match capture.flowOf pkt with
  | none => capture
  | some (key, outbound) =>
      { capture with
        flows := countPacket key outbound length now capture.flows }

/-- The entry of a key. -/
def entryOf (key : FlowKey) (flows : List TrackedFlow) : Option TrackedFlow :=
  flows.find? (fun flow => decide (flow.key = key))

/-- The counters of a key; a key without an entry has counted nothing. -/
def counted (key : FlowKey) (flows : List TrackedFlow) : FlowCounters :=
  ((entryOf key flows).map (·.counters)).getD ⟨0, 0, 0, 0⟩

/-- There is no entry for a key, and evicting makes no room for one. -/
def Full (key : FlowKey) (now : Int) (flows : List TrackedFlow) : Prop :=
  tracks key flows = false ∧
    captureMaxFlows ≤ (evictLocked now flows).length

instance (key : FlowKey) (now : Int) (flows : List TrackedFlow) :
    Decidable (Full key now flows) :=
  inferInstanceAs (Decidable (_ ∧ _))

variable {key : FlowKey} {flows : List TrackedFlow} {pkt front : List UInt8}
  {offset size : Nat} {tuple : FlowTuple}

theorem tracks_eq_false_iff :
    tracks key flows = false ↔ entryOf key flows = none := by
  simp [tracks, entryOf]

theorem evictLocked_sublist
    (now : Int)
    (flows : List TrackedFlow) :
    (evictLocked now flows).Sublist flows :=
  List.filter_sublist

theorem makeRoom_sublist
    (key : FlowKey)
    (now : Int)
    (flows : List TrackedFlow) :
    (makeRoom key now flows).Sublist flows := by
  unfold makeRoom
  split
  · exact List.Sublist.refl flows
  · split
    · exact evictLocked_sublist now flows
    · exact List.Sublist.refl flows

theorem tracks_of_sublist
    {part : List TrackedFlow}
    (sublist : part.Sublist flows)
    (untracked : tracks key flows = false) :
    tracks key part = false := by
  simp only [tracks, List.any_eq_false] at untracked ⊢
  exact fun flow member => untracked flow (sublist.subset member)

/-- An entry after a packet is that of its key, or was there before. -/
theorem mem_countPacket
    {outbound : Bool}
    {length : Nat}
    {now : Int}
    {flow : TrackedFlow}
    (member : flow ∈ countPacket key outbound length now flows) :
    flow.key = key ∨ flow ∈ flows := by
  have sublist := makeRoom_sublist key now flows
  unfold countPacket at member
  dsimp only at member
  split at member
  · obtain ⟨old, oldMember, rfl⟩ := List.mem_map.mp member
    by_cases same : old.key = key
    · exact Or.inl (by rw [if_pos same]; exact same)
    · exact Or.inr (by rw [if_neg same]; exact sublist.subset oldMember)
  · split at member
    · exact Or.inr (sublist.subset member)
    · rcases List.mem_append.mp member with old | isNew
      · exact Or.inr (sublist.subset old)
      · exact Or.inl (by rw [List.mem_singleton.mp isNew])

/-- Unless the table is full, a packet is counted once under its key. -/
theorem entryOf_countPacket
    {now : Int}
    (room : ¬Full key now flows)
    (outbound : Bool)
    (length : Nat) :
    entryOf key (countPacket key outbound length now flows) =
      some
        { key
          counters := (counted key flows).count outbound length
          lastSeen := now } := by
  cases tracked : tracks key flows with
  | true =>
      have noEviction : makeRoom key now flows = flows := by
        simp [makeRoom, tracked]
      obtain ⟨flow, isEntry⟩ : ∃ flow, entryOf key flows = some flow := by
        refine Option.ne_none_iff_exists'.mp fun missing => ?_
        rw [tracks_eq_false_iff.mpr missing] at tracked
        cases tracked
      have ofKey : flow.key = key := by
        simpa using List.find?_some isEntry
      have counters : counted key flows = flow.counters := by
        simp [counted, isEntry]
      have sameTest :
          ((fun entry : TrackedFlow => decide (entry.key = key)) ∘
              fun entry =>
                if entry.key = key then
                  { entry with
                    counters := entry.counters.count outbound length
                    lastSeen := now }
                else
                  entry) =
            fun entry => decide (entry.key = key) := by
        funext entry
        by_cases same : entry.key = key
        · simp [same]
        · simp [same]
      unfold countPacket
      rw [noEviction]
      dsimp only
      rw [if_pos tracked, entryOf, List.find?_map, sameTest]
      change (entryOf key flows).map _ = _
      rw [isEntry, Option.map_some, if_pos ofKey, counters, ← ofKey]
  | false =>
      have untracked := tracks_of_sublist (makeRoom_sublist key now flows) tracked
      have space : ¬captureMaxFlows ≤ (makeRoom key now flows).length := by
        intro crowded
        refine room ⟨tracked, ?_⟩
        unfold makeRoom at crowded
        rw [if_neg (by simp [tracked])] at crowded
        split at crowded
        · exact crowded
        · contradiction
      have noEntry := tracks_eq_false_iff.mp untracked
      have counters : counted key flows = ⟨0, 0, 0, 0⟩ := by
        simp [counted, tracks_eq_false_iff.mp tracked]
      unfold countPacket
      dsimp only
      rw [if_neg (by simp [untracked]), if_neg space, counters]
      unfold entryOf at noEntry ⊢
      simp [List.find?_append, noEntry]

/-! ## The ports on the wire -/

/-- The fragment offset of an IPv4 packet, in units of eight bytes. -/
def fragmentOffset (pkt : List UInt8) : Nat :=
  number (slice pkt 6 2) % 8192

/-- A fragment of an IPv4 packet after the first.  An IPv6 fragment has a
header of its own, which is a protocol without ports. -/
def LaterFragment (pkt : List UInt8) : Prop :=
  version pkt = 4 ∧ fragmentOffset pkt ≠ 0

instance (pkt : List UInt8) : Decidable (LaterFragment pkt) :=
  inferInstanceAs (Decidable (_ ∧ _))

/-- The protocol of a packet, and where its header ends. -/
def transport (pkt : List UInt8) : Nat × Nat :=
  if version pkt = 4 then (byteAt pkt 9, headerLength pkt)
  else (byteAt pkt 6, 40)

/-- The source and the destination port in the bytes from an offset on. -/
def portsAt (pkt : List UInt8) (offset : Nat) : Nat × Nat :=
  (number (slice pkt offset 2), number (slice pkt (offset + 2) 2))

/-- The ports of a packet: those of the TCP or UDP header behind its IP header,
if it has one, and none otherwise. -/
def wirePorts (pkt : List UInt8) : Nat × Nat :=
  let (proto, offset) := transport pkt
  if ¬LaterFragment pkt ∧ hasPorts proto ∧ offset + 4 ≤ pkt.length then
    portsAt pkt offset
  else
    (0, 0)

/-- A later fragment whose payload is taken for ports. -/
def Misread (pkt : List UInt8) : Prop :=
  LaterFragment pkt ∧ hasPorts (byteAt pkt 9) ∧
    headerLength pkt + 4 ≤ pkt.length ∧
    number (slice pkt (headerLength pkt) 4) ≠ 0

instance (pkt : List UInt8) : Decidable (Misread pkt) :=
  inferInstanceAs (Decidable (_ ∧ _ ∧ _ ∧ _))

/-- The ports that the code reads. -/
def FlowTuple.ports (tuple : FlowTuple) : Nat × Nat :=
  (tuple.sport, tuple.dport)

theorem slice_drop
    (pkt : List UInt8)
    (start offset count : Nat) :
    slice (pkt.drop start) offset count = slice pkt (start + offset) count := by
  simp [slice]

theorem length_slice
    {count : Nat}
    (long : offset + count ≤ pkt.length) :
    (slice pkt offset count).length = count := by
  simp only [slice, List.length_take, List.length_drop]
  omega

theorem slice_add
    (pkt : List UInt8)
    (offset first second : Nat) :
    slice pkt offset (first + second) =
      slice pkt offset first ++ slice pkt (offset + first) second := by
  simp only [slice, List.take_add, List.drop_drop]

theorem portsAt_eq_zero_iff
    (long : offset + 4 ≤ pkt.length) :
    portsAt pkt offset = (0, 0) ↔ number (slice pkt offset 4) = 0 := by
  have second : (slice pkt (offset + 2) 2).length = 2 :=
    length_slice (by omega)
  rw [slice_add pkt offset 2 2, number_append, second, portsAt, Prod.mk.injEq]
  omega

theorem l4Ports_drop
    (header : offset ≤ pkt.length)
    (proto : Nat) :
    l4Ports proto (pkt.drop offset) =
      if hasPorts proto ∧ offset + 4 ≤ pkt.length then portsAt pkt offset
      else (0, 0) := by
  unfold l4Ports portsAt
  have long : 4 ≤ (pkt.drop offset).length ↔ offset + 4 ≤ pkt.length := by
    rw [List.length_drop]
    omega
  simp only [long, slice_drop, Nat.add_zero]

/-- What a parsed packet is. -/
theorem parseFlowTuple_some
    (parsed : parseFlowTuple pkt = some tuple) :
    (version pkt = 4 ∧ 20 ≤ headerLength pkt ∧
        headerLength pkt ≤ pkt.length ∧
        tuple.src = addrFrom4 (slice pkt 12 4) ∧
        tuple.dst = addrFrom4 (slice pkt 16 4) ∨
      version pkt = 6 ∧ 40 ≤ pkt.length ∧
        tuple.src = addrFrom16 (slice pkt 8 16) ∧
        tuple.dst = addrFrom16 (slice pkt 24 16)) ∧
      (transport pkt).2 ≤ pkt.length ∧
      tuple.proto = (transport pkt).1 ∧
      tuple.ports =
        l4Ports (transport pkt).1 (pkt.drop (transport pkt).2) := by
  unfold parseFlowTuple at parsed
  split at parsed
  · cases parsed
  · split at parsed
    case isTrue isFour =>
      unfold parseIPv4 at parsed
      split at parsed
      · cases parsed
      · split at parsed
        · cases parsed
        · rename_i header
          have fields := Option.some.inj parsed
          subst fields
          have found : transport pkt = (byteAt pkt 9, headerLength pkt) :=
            if_pos isFour
          rw [found]
          exact ⟨Or.inl ⟨isFour, by omega, by omega, rfl, rfl⟩, by omega,
            rfl, rfl⟩
    case isFalse notFour =>
      split at parsed
      · rename_i isSix
        unfold parseIPv6 at parsed
        split at parsed
        · cases parsed
        · rename_i header
          have fields := Option.some.inj parsed
          subst fields
          have found : transport pkt = (byteAt pkt 6, 40) := if_neg notFour
          rw [found]
          exact ⟨Or.inr ⟨isSix, by omega, rfl, rfl⟩, by omega, rfl, rfl⟩
      · cases parsed

/-- The code reads the ports on the wire, except in a later fragment whose
payload it takes for them. -/
theorem ports_eq_wirePorts_iff
    (parsed : parseFlowTuple pkt = some tuple) :
    tuple.ports = wirePorts pkt ↔ ¬Misread pkt := by
  obtain ⟨_, header, _, ports⟩ := parseFlowTuple_some parsed
  rw [ports, l4Ports_drop header]
  unfold wirePorts
  by_cases later : LaterFragment pkt
  · have isFour : transport pkt = (byteAt pkt 9, headerLength pkt) :=
      if_pos later.1
    simp only [isFour, later, not_true_eq_false, false_and, if_false]
    by_cases carries :
        hasPorts (byteAt pkt 9) ∧ headerLength pkt + 4 ≤ pkt.length
    · rw [if_pos carries, portsAt_eq_zero_iff carries.2]
      simp [Misread, later, carries]
    · rw [if_neg carries]
      simp only [true_iff]
      exact fun misread => carries ⟨misread.2.1, misread.2.2.1⟩
  · have sound : ¬Misread pkt := fun misread => later misread.1
    simp [later, sound]

/-! ## The other direction -/

/-- The tuple of a packet in the other direction. -/
def FlowTuple.swap (tuple : FlowTuple) : FlowTuple where
  proto := tuple.proto
  src := tuple.dst
  sport := tuple.dport
  dst := tuple.src
  dport := tuple.sport

/-- The connection a packet is part of. -/
def connection (pkt : List UInt8) : Option FlowTuple :=
  (parseFlowTuple pkt).map fun tuple =>
    { tuple with sport := (wirePorts pkt).1, dport := (wirePorts pkt).2 }

/-- A packet with its header is sent back on the connection of a packet. -/
def Answers (pkt reply : List UInt8) : Prop :=
  ¬LaterFragment reply ∧
    ∃ tuple, connection pkt = some tuple ∧ connection reply = some tuple.swap

/-- What the fields of a packet can hold. -/
structure FlowTuple.Valid (tuple : FlowTuple) : Prop where
  proto : tuple.proto < 256
  sport : tuple.sport < 256 ^ 2
  dport : tuple.dport < 256 ^ 2
  portless : ¬hasPorts tuple.proto → tuple.ports = (0, 0)
  families : tuple.dst.val.family = tuple.src.val.family
  srcZone : tuple.src.val.zone = ""
  dstZone : tuple.dst.val.zone = ""

/-- The other direction holds what a packet can hold. -/
theorem FlowTuple.Valid.swap
    (valid : tuple.Valid) :
    tuple.swap.Valid where
  proto := valid.proto
  sport := valid.dport
  dport := valid.sport
  portless := by
    intro noPorts
    have zero := Prod.mk.inj (valid.portless noPorts)
    exact Prod.ext zero.2 zero.1
  families := valid.families.symm
  srcZone := valid.dstZone
  dstZone := valid.srcZone

theorem byteAt_lt
    (pkt : List UInt8)
    (offset : Nat) :
    byteAt pkt offset < 256 :=
  (pkt.getD offset 0).toNat_lt

theorem portsAt_lt
    (pkt : List UInt8)
    (offset : Nat) :
    (portsAt pkt offset).1 < 256 ^ 2 ∧ (portsAt pkt offset).2 < 256 ^ 2 := by
  have bound (start : Nat) : number (slice pkt start 2) < 256 ^ 2 :=
    (number_lt _).trans_le
      (Nat.pow_le_pow_right (by decide) (List.length_take_le _ _))
  exact ⟨bound offset, bound (offset + 2)⟩

/-- The connection of a parsed packet holds what a packet can hold. -/
theorem connection_valid
    (isConnection : connection pkt = some tuple) :
    tuple.Valid := by
  obtain ⟨read, parsed, rfl⟩ := Option.map_eq_some_iff.mp isConnection
  obtain ⟨addresses, _, proto, _⟩ := parseFlowTuple_some parsed
  have ports :
      (wirePorts pkt).1 < 256 ^ 2 ∧ (wirePorts pkt).2 < 256 ^ 2 := by
    unfold wirePorts
    dsimp only
    split
    · exact portsAt_lt pkt _
    · exact ⟨by decide, by decide⟩
  refine ⟨?_, ports.1, ports.2, ?_, ?_, ?_, ?_⟩
  · change read.proto < 256
    rw [proto]
    unfold transport
    split
    · exact byteAt_lt pkt 9
    · exact byteAt_lt pkt 6
  · intro noPorts
    change wirePorts pkt = (0, 0)
    replace noPorts : ¬hasPorts read.proto := noPorts
    rw [proto] at noPorts
    unfold wirePorts
    exact if_neg fun carries => noPorts carries.2.1
  · change read.dst.val.family = read.src.val.family
    rcases addresses with ⟨_, _, _, src, dst⟩ | ⟨_, _, src, dst⟩
    · rw [src, dst]
      rfl
    · rw [src, dst]
      rfl
  · change read.src.val.zone = ""
    rcases addresses with ⟨_, _, _, src, _⟩ | ⟨_, _, src, _⟩
    · rw [src]
      rfl
    · rw [src]
      rfl
  · change read.dst.val.zone = ""
    rcases addresses with ⟨_, _, _, _, dst⟩ | ⟨_, _, _, dst⟩
    · rw [dst]
      rfl
    · rw [dst]
      rfl

/-- A header without options and the ports of a connection. -/
def packetOf (tuple : FlowTuple) : List UInt8 :=
  let ports := bytesOf 2 tuple.sport ++ bytesOf 2 tuple.dport
  let proto := UInt8.ofNat tuple.proto
  match tuple.src.val.family with
  | .v4 =>
      [0x45, 0, 0, 0, 0, 0, 0, 0, 0, proto, 0, 0] ++
        (bytesOf 4 tuple.src.val.value ++
          (bytesOf 4 tuple.dst.val.value ++ ports))
  | .v6 =>
      [0x60, 0, 0, 0, 0, 0, proto, 0] ++
        (bytesOf 16 tuple.src.val.value ++
          (bytesOf 16 tuple.dst.val.value ++ ports))

theorem drop_behind
    (length : front.length = size)
    (back : List UInt8)
    (offset : Nat) :
    (front ++ back).drop (size + offset) = back.drop offset := by
  subst length
  exact List.drop_length_add_append offset

theorem slice_behind
    (length : front.length = size)
    (back : List UInt8)
    (offset count : Nat) :
    slice (front ++ back) (size + offset) count = slice back offset count := by
  rw [slice, drop_behind length, slice]

theorem slice_front
    (length : front.length = size)
    (back : List UInt8) :
    slice (front ++ back) 0 size = front := by
  subst length
  simp [slice]

/-- An address is that of its number. -/
theorem addrFrom4_bytesOf
    {addr : IPAddr}
    (family : addr.val.family = .v4)
    (zone : addr.val.zone = "") :
    addrFrom4 (bytesOf 4 addr.val.value) = addr := by
  have bounded : addr.val.value < 2 ^ 32 := by
    have bound := addr.val.bounded
    rw [family] at bound
    exact bound
  have read : number (bytesOf 4 addr.val.value) = addr.val.value :=
    number_bytesOf bounded
  refine Subtype.ext (Addr.ext_of_value family.symm ?_ zone.symm)
  change number (bytesOf 4 addr.val.value) % 2 ^ 32 = addr.val.value
  rw [read]
  exact Nat.mod_eq_of_lt bounded

/-- An IPv6 address is that of its number. -/
theorem addrFrom16_bytesOf
    {addr : IPAddr}
    (family : addr.val.family = .v6)
    (zone : addr.val.zone = "") :
    addrFrom16 (bytesOf 16 addr.val.value) = addr := by
  have bounded : addr.val.value < 2 ^ 128 := by
    have bound := addr.val.bounded
    rw [family] at bound
    exact bound
  have read : number (bytesOf 16 addr.val.value) = addr.val.value :=
    number_bytesOf bounded
  refine Subtype.ext (Addr.ext_of_value family.symm ?_ zone.symm)
  change number (bytesOf 16 addr.val.value) % 2 ^ 128 = addr.val.value
  rw [read]
  exact Nat.mod_eq_of_lt bounded

/-- The ports are read back. -/
theorem l4Ports_bytesOf
    (valid : tuple.Valid) :
    l4Ports tuple.proto
        (bytesOf 2 tuple.sport ++ bytesOf 2 tuple.dport) =
      tuple.ports := by
  by_cases carries : hasPorts tuple.proto
  · have first :
        slice (bytesOf 2 tuple.sport ++ bytesOf 2 tuple.dport) 0 2 =
          bytesOf 2 tuple.sport :=
      slice_front (length_bytesOf 2 _) _
    have second :
        slice (bytesOf 2 tuple.sport ++ bytesOf 2 tuple.dport) 2 2 =
          bytesOf 2 tuple.dport := by
      rw [slice_behind (length_bytesOf 2 _) _ 0 2]
      simp [slice]
    rw [l4Ports, if_pos ⟨carries, by simp⟩, first, second,
      number_bytesOf valid.sport, number_bytesOf valid.dport]
    rfl
  · rw [valid.portless carries, l4Ports, if_neg fun both => carries both.1]

theorem toNat_protocol
    {proto : Nat}
    (small : proto < 256) :
    (UInt8.ofNat proto).toNat = proto := by
  rw [UInt8.toNat_ofNat', Nat.mod_eq_of_lt small]

/-- An IPv4 packet without options is read part by part. -/
theorem parseFlowTuple_v4
    (proto : UInt8)
    {src dst : List UInt8}
    (srcLength : src.length = 4)
    (dstLength : dst.length = 4)
    (l4 : List UInt8) :
    parseFlowTuple
        ([0x45, 0, 0, 0, 0, 0, 0, 0, 0, proto, 0, 0] ++
          (src ++ (dst ++ l4))) =
      some
        { proto := proto.toNat
          src := addrFrom4 src
          sport := (l4Ports proto.toNat l4).1
          dst := addrFrom4 dst
          dport := (l4Ports proto.toNat l4).2 } := by
  have front :
      ([0x45, 0, 0, 0, 0, 0, 0, 0, 0, proto, 0, 0] : List UInt8).length = 12 :=
    rfl
  have srcPart := slice_behind front (src ++ (dst ++ l4)) 0 4
  rw [slice_front srcLength] at srcPart
  have dstPart := slice_behind front (src ++ (dst ++ l4)) (4 + 0) 4
  rw [slice_behind srcLength, slice_front dstLength] at dstPart
  have rest := drop_behind front (src ++ (dst ++ l4)) (4 + (4 + 0))
  rw [drop_behind srcLength, drop_behind dstLength, List.drop_zero] at rest
  have long :
      20 ≤ ([0x45, 0, 0, 0, 0, 0, 0, 0, 0, proto, 0, 0] ++
        (src ++ (dst ++ l4))).length := by
    simp only [List.length_append, front, srcLength, dstLength]
    omega
  generalize whole : [0x45, 0, 0, 0, 0, 0, 0, 0, 0, proto, 0, 0] ++
    (src ++ (dst ++ l4)) = pkt at *
  have isFour : version pkt = 4 := by
    rw [← whole]
    simp [version, byteAt]
  have header : headerLength pkt = 20 := by
    rw [← whole]
    simp [headerLength, byteAt]
  have protocol : byteAt pkt 9 = proto.toNat := by rw [← whole]; rfl
  rw [parseFlowTuple, if_neg (by omega), if_pos isFour, parseIPv4,
    if_neg (by omega), if_neg (by omega), header]
  dsimp only
  rw [protocol, rest, srcPart, dstPart]

/-- An IPv6 packet is read part by part. -/
theorem parseFlowTuple_v6
    (proto : UInt8)
    {src dst : List UInt8}
    (srcLength : src.length = 16)
    (dstLength : dst.length = 16)
    (l4 : List UInt8) :
    parseFlowTuple
        ([0x60, 0, 0, 0, 0, 0, proto, 0] ++ (src ++ (dst ++ l4))) =
      some
        { proto := proto.toNat
          src := addrFrom16 src
          sport := (l4Ports proto.toNat l4).1
          dst := addrFrom16 dst
          dport := (l4Ports proto.toNat l4).2 } := by
  have front :
      ([0x60, 0, 0, 0, 0, 0, proto, 0] : List UInt8).length = 8 := rfl
  have srcPart := slice_behind front (src ++ (dst ++ l4)) 0 16
  rw [slice_front srcLength] at srcPart
  have dstPart := slice_behind front (src ++ (dst ++ l4)) (16 + 0) 16
  rw [slice_behind srcLength, slice_front dstLength] at dstPart
  have rest := drop_behind front (src ++ (dst ++ l4)) (16 + (16 + 0))
  rw [drop_behind srcLength, drop_behind dstLength, List.drop_zero] at rest
  have long :
      40 ≤ ([0x60, 0, 0, 0, 0, 0, proto, 0] ++
        (src ++ (dst ++ l4))).length := by
    simp only [List.length_append, front, srcLength, dstLength]
    omega
  generalize whole :
    [0x60, 0, 0, 0, 0, 0, proto, 0] ++ (src ++ (dst ++ l4)) = pkt at *
  have isSix : version pkt = 6 := by
    rw [← whole]
    simp [version, byteAt]
  have protocol : byteAt pkt 6 = proto.toNat := by rw [← whole]; rfl
  rw [parseFlowTuple, if_neg (by omega), if_neg (by omega), if_pos isSix,
    parseIPv6, if_neg (by omega)]
  dsimp only
  rw [protocol, rest, srcPart, dstPart]

/-- A packet is read back. -/
theorem parseFlowTuple_packetOf
    (valid : tuple.Valid) :
    parseFlowTuple (packetOf tuple) = some tuple := by
  have proto := toNat_protocol valid.proto
  have ports := l4Ports_bytesOf valid
  have sameFamily := valid.families
  unfold packetOf
  dsimp only
  cases family : tuple.src.val.family with
  | v4 =>
      rw [family] at sameFamily
      dsimp only
      rw [parseFlowTuple_v4 _ (length_bytesOf 4 _) (length_bytesOf 4 _),
        proto, ports, addrFrom4_bytesOf family valid.srcZone,
        addrFrom4_bytesOf sameFamily valid.dstZone]
      rfl
  | v6 =>
      rw [family] at sameFamily
      dsimp only
      rw [parseFlowTuple_v6 _ (length_bytesOf 16 _) (length_bytesOf 16 _),
        proto, ports, addrFrom16_bytesOf family valid.srcZone,
        addrFrom16_bytesOf sameFamily valid.dstZone]
      rfl

/-- A packet with its ports is no later fragment. -/
theorem not_laterFragment_packetOf
    (tuple : FlowTuple) :
    ¬LaterFragment (packetOf tuple) := by
  rintro ⟨isFour, offset⟩
  unfold packetOf at isFour offset
  dsimp only at isFour offset
  cases family : tuple.src.val.family with
  | v4 =>
      rw [family] at offset
      simp [fragmentOffset, slice, number] at offset
  | v6 =>
      rw [family] at isFour
      simp [version, byteAt] at isFour

theorem connection_packetOf
    (valid : tuple.Valid) :
    connection (packetOf tuple) = some tuple := by
  have parsed := parseFlowTuple_packetOf valid
  have sound : ¬Misread (packetOf tuple) :=
    fun misread => not_laterFragment_packetOf tuple misread.1
  have ports := (ports_eq_wirePorts_iff parsed).mpr sound
  rw [connection, parsed, Option.map_some, ← ports]
  rfl

/-! ## What is counted -/

/-- The key of a packet has the ports of the packet, the own end first. -/
def Capture.RealPorts (capture : Capture) (pkt : List UInt8) : Prop :=
  ∀ key outbound, capture.flowOf pkt = some (key, outbound) →
    wirePorts pkt =
      if outbound then (key.srcPort, key.dstPort)
      else (key.dstPort, key.srcPort)

/-- A packet and what answers it are counted under one key, in different
directions. -/
def Capture.OneKey (capture : Capture) (pkt : List UInt8) : Prop :=
  ∀ reply, Answers pkt reply →
    capture.flowOf reply =
      (capture.flowOf pkt).map fun flow => (flow.1, !flow.2)

/-- A packet changes or creates the entry of its key only; and unless the table
is full, it is counted there in its direction, with its true length. -/
def Capture.Counts (capture : Capture) (pkt : List UInt8) : Prop :=
  ∀ length now,
    (∀ flow, flow ∈ (capture.account pkt length now).flows →
      flow ∈ capture.flows ∨
        ∃ outbound, capture.flowOf pkt = some (flow.key, outbound)) ∧
    ∀ key outbound, capture.flowOf pkt = some (key, outbound) →
      ¬Full key now capture.flows →
      entryOf key (capture.account pkt length now).flows =
        some
          { key
            counters := (counted key capture.flows).count outbound length
            lastSeen := now }

/-- One end of a packet is this host, and it can be told which one: the other
end is another host, and no payload stands where the ports are read. -/
def Capture.Clear (capture : Capture) (pkt : List UInt8) : Prop :=
  ∀ tuple, connection pkt = some tuple →
    capture.isSelf tuple.src ∨ capture.isSelf tuple.dst →
    ¬Misread pkt ∧ ¬(capture.isSelf tuple.src ∧ capture.isSelf tuple.dst)

section Accounting

variable
  {capture : Capture}
  {pkt : List UInt8}
  {tuple : FlowTuple}

/-- The own end is the source of the key. -/
theorem Capture.classify_some
    {key : FlowKey}
    {outbound : Bool}
    (classified : capture.classify tuple = some (key, outbound)) :
    tuple.ports =
      if outbound then (key.srcPort, key.dstPort)
      else (key.dstPort, key.srcPort) := by
  unfold classify at classified
  split at classified
  · cases classified
    rfl
  · split at classified
    · cases classified
      rfl
    · cases classified

theorem Capture.exists_classify
    (own : capture.isSelf tuple.src ∨ capture.isSelf tuple.dst) :
    ∃ key outbound, capture.classify tuple = some (key, outbound) := by
  unfold classify
  split
  · exact ⟨_, _, rfl⟩
  · rename_i notSource
    rw [if_pos (own.resolve_left notSource)]
    exact ⟨_, _, rfl⟩

theorem Capture.classify_none
    (foreign : ¬(capture.isSelf tuple.src ∨ capture.isSelf tuple.dst)) :
    capture.classify tuple = none := by
  rw [not_or] at foreign
  rw [classify, if_neg foreign.1, if_neg foreign.2]

/-- Between an own and another end, both directions have one key. -/
theorem Capture.classify_swap
    (single : ¬(capture.isSelf tuple.src ∧ capture.isSelf tuple.dst)) :
    capture.classify tuple.swap =
      (capture.classify tuple).map fun flow => (flow.1, !flow.2) := by
  unfold classify FlowTuple.swap
  dsimp only
  by_cases source : capture.isSelf tuple.src
  · have other : ¬capture.isSelf tuple.dst := fun own => single ⟨source, own⟩
    rw [if_neg other, if_pos source, if_pos source]
    rfl
  · by_cases target : capture.isSelf tuple.dst
    · rw [if_pos target, if_neg source, if_pos target]
      rfl
    · rw [if_neg target, if_neg source, if_neg source, if_neg target]
      rfl

theorem Capture.flowOf_eq_connection
    (sound : ¬Misread pkt) :
    capture.flowOf pkt = (connection pkt).bind capture.classify := by
  unfold flowOf connection
  cases parsed : parseFlowTuple pkt with
  | none => rfl
  | some read =>
      rw [Option.map_some, ← (ports_eq_wirePorts_iff parsed).mpr sound]
      rfl

/-- Whether there is a key depends on the addresses only. -/
theorem Capture.exists_flowOf_iff
    (isConnection : connection pkt = some tuple) :
    (∃ key outbound, capture.flowOf pkt = some (key, outbound)) ↔
      capture.isSelf tuple.src ∨ capture.isSelf tuple.dst := by
  obtain ⟨read, parsed, rfl⟩ := Option.map_eq_some_iff.mp isConnection
  rw [flowOf, parsed, Option.bind_some]
  change _ ↔ capture.isSelf read.src ∨ capture.isSelf read.dst
  constructor
  · rintro ⟨key, outbound, classified⟩
    by_contra foreign
    rw [capture.classify_none foreign] at classified
    cases classified
  · exact Capture.exists_classify

/-- The ports are real unless they are misread. -/
theorem Capture.realPorts_iff
    (isConnection : connection pkt = some tuple)
    (own : capture.isSelf tuple.src ∨ capture.isSelf tuple.dst) :
    capture.RealPorts pkt ↔ ¬Misread pkt := by
  obtain ⟨read, parsed, -⟩ := Option.map_eq_some_iff.mp isConnection
  obtain ⟨key, outbound, classified⟩ :=
    (Capture.exists_flowOf_iff isConnection).mpr own
  have ofRead := classified
  rw [flowOf, parsed, Option.bind_some] at ofRead
  rw [← ports_eq_wirePorts_iff parsed, Capture.classify_some ofRead]
  constructor
  · exact fun real => (real key outbound classified).symm
  · intro same key' outbound' classified'
    rw [classified] at classified'
    cases classified'
    exact same.symm

/-- Between two own ends both directions are counted as sent. -/
theorem Capture.not_oneKey
    (isConnection : connection pkt = some tuple)
    (sound : ¬Misread pkt)
    (both : capture.isSelf tuple.src ∧ capture.isSelf tuple.dst) :
    ¬capture.OneKey pkt := by
  intro oneKey
  have valid := (connection_valid isConnection).swap
  have isReply := connection_packetOf valid
  have header := not_laterFragment_packetOf tuple.swap
  have same := oneKey (packetOf tuple.swap)
    ⟨header, tuple, isConnection, isReply⟩
  have replySound : ¬Misread (packetOf tuple.swap) :=
    fun misread => header misread.1
  rw [Capture.flowOf_eq_connection sound, isConnection,
    Capture.flowOf_eq_connection replySound, isReply, Option.bind_some,
    Option.bind_some, classify, classify, FlowTuple.swap] at same
  simp [both.1, both.2] at same

/-- A packet is counted under its key, and nowhere else. -/
theorem Capture.counts
    (capture : Capture)
    (pkt : List UInt8) :
    capture.Counts pkt := by
  intro length now
  unfold account
  cases classified : capture.flowOf pkt with
  | none =>
      refine ⟨fun flow member => Or.inl member, ?_⟩
      intro key outbound isSome
      cases isSome
  | some found =>
      obtain ⟨key, outbound⟩ := found
      constructor
      · intro flow member
        rcases mem_countPacket member with ofKey | old
        · exact Or.inr ⟨outbound, by rw [ofKey]⟩
        · exact Or.inl old
      · intro key' outbound' same room
        cases same
        exact entryOf_countPacket room outbound length

end Accounting

/-- A captured packet is counted under its real ports, together with the other
direction of its connection, if and only if it does not run between two own
addresses and is not a later fragment whose payload is taken for ports. -/
theorem captured_flow_iff
    (capture : Capture)
    (pkt : List UInt8) :
    capture.RealPorts pkt ∧ capture.OneKey pkt ∧ capture.Counts pkt ↔
      capture.Clear pkt := by
  constructor
  · rintro ⟨real, oneKey, -⟩ tuple isConnection own
    have sound := (Capture.realPorts_iff isConnection own).mp real
    exact ⟨sound, fun both =>
      Capture.not_oneKey isConnection sound both oneKey⟩
  · intro clear
    refine ⟨?_, ?_, capture.counts pkt⟩
    · intro key outbound classified
      cases isConnection : connection pkt with
      | none =>
          have unread : parseFlowTuple pkt = none :=
            Option.map_eq_none_iff.mp isConnection
          rw [Capture.flowOf, unread] at classified
          cases classified
      | some tuple =>
          have own :=
            (Capture.exists_flowOf_iff isConnection).mp
              ⟨key, outbound, classified⟩
          have sound := (clear tuple isConnection own).1
          exact (Capture.realPorts_iff isConnection own).mpr sound key
            outbound classified
    · rintro reply ⟨header, tuple, isConnection, isReply⟩
      have replySound : ¬Misread reply := fun misread => header misread.1
      rw [Capture.flowOf_eq_connection replySound, isReply, Option.bind_some]
      by_cases own : capture.isSelf tuple.src ∨ capture.isSelf tuple.dst
      · obtain ⟨sound, single⟩ := clear tuple isConnection own
        rw [Capture.flowOf_eq_connection sound, isConnection,
          Option.bind_some]
        exact Capture.classify_swap single
      · have noKey : capture.flowOf pkt = none := by
          refine Option.eq_none_iff_forall_ne_some.mpr fun found isSome => ?_
          exact own ((Capture.exists_flowOf_iff isConnection).mp
            ⟨found.1, found.2, isSome⟩)
        rw [noKey]
        exact capture.classify_none fun swapped => own swapped.symm

/-- The capture of a host that has counted nothing. -/
def freshCapture (self : Addr) : Capture where
  self4 := some self
  self6 := none
  flows := []

/-- The second fragment of a UDP packet from 100.64.0.2 to 100.64.0.1, with an
offset of 185 units. -/
def secondFragment : List UInt8 :=
  [0x45, 0, 0, 28, 0, 7, 0, 185, 64, 17, 0, 0] ++
    [100, 64, 0, 2] ++ [100, 64, 0, 1] ++
    [0x13, 0x88, 0x1f, 0x90, 1, 2, 3, 4]

/-- Payload of a later fragment becomes the ports of a flow. -/
theorem fragment_payload_as_ports :
    wirePorts secondFragment = (0, 0) ∧
      ((freshCapture (addressOf 0x64400001)).account
          secondFragment 28 0).flows =
        [{ key :=
            { protocol := 17
              src := addrFrom4 [100, 64, 0, 1]
              srcPort := 8080
              dst := addrFrom4 [100, 64, 0, 2]
              dstPort := 5000 }
           counters := ⟨0, 0, 28, 1⟩
           lastSeen := 0 }] ∧
      ¬(freshCapture (addressOf 0x64400001)).RealPorts secondFragment := by
  refine ⟨by decide +kernel, by decide +kernel, fun real => ?_⟩
  have ports := real
    { protocol := 17
      src := addrFrom4 [100, 64, 0, 1]
      srcPort := 8080
      dst := addrFrom4 [100, 64, 0, 2]
      dstPort := 5000 }
    false (by decide +kernel)
  exact absurd ports (by decide +kernel)

end WgMesh.Flows
