import Mathlib.Algebra.Group.Prod
import Mathlib.Data.Nat.Cast.Basic
import WgMesh.KeyedTotals
import WgMesh.NetAddressText
import WgMesh.StoreReports

namespace WgMesh.Flows

/-!
# Flow records

`collectFlows` turns the cumulative counters of a flow dump into increments and
folds them into pending records, one for each client, server and server port.
What a record calls sent and received depends on which side is the client; the
bytes from one address to another do not.
-/

open KeyedTotals NetAddress RowTables Store

/-- A `netip.Addr`: no IPv4 address has a zone. -/
abbrev IPAddr :=
  { addr : Addr // addr.family = .v4 → addr.zone = "" }

theorem IPAddr.parse_text
    (addr : IPAddr) :
    parseAddr addr.val.text = some addr.val := by
  cases family : addr.val.family with
  | v4 => exact parseAddr_text (addr.property family)
  | v6 => exact parseAddr_text_zoned family

/-- Addresses with one text are one address. -/
theorem IPAddr.text_inj
    {first second : IPAddr} :
    first.val.text = second.val.text ↔ first = second := by
  constructor
  · intro same
    have read := first.parse_text
    rw [same, second.parse_text] at read
    exact Subtype.ext (Option.some.inj read).symm
  · rintro rfl
    rfl

/-! ## Orientation -/

/-- `ephemeralMin`. -/
def ephemeralMin : Nat := 32768

/-- What `orientFlow` returns. -/
structure Orientation (Address : Type) where
  client : Address
  server : Address
  serverPort : Nat
  flipped : Bool
deriving DecidableEq

/-- `orientFlow`. -/
def orientFlow {Address : Type} (src : Address) (srcPort : Nat)
    (dst : Address) (dstPort : Nat) : Orientation Address :=
  let srcEph := decide (ephemeralMin ≤ srcPort)
  let dstEph := decide (ephemeralMin ≤ dstPort)
  if srcEph && !dstEph then
    ⟨src, dst, dstPort, false⟩
  else if dstEph && !srcEph then
    ⟨dst, src, srcPort, true⟩
  else if dstPort ≤ srcPort then
    ⟨src, dst, dstPort, false⟩
  else
    ⟨dst, src, srcPort, true⟩

variable {Address : Type} {network : Prefix} {network6 : Option Prefix}

/-- The client is the source, or the flow is flipped and it is the
destination. -/
theorem orientFlow_cases
    (src : Address)
    (srcPort : Nat)
    (dst : Address)
    (dstPort : Nat) :
    orientFlow src srcPort dst dstPort = ⟨src, dst, dstPort, false⟩ ∨
      orientFlow src srcPort dst dstPort = ⟨dst, src, srcPort, true⟩ := by
  unfold orientFlow
  dsimp only
  split
  · exact Or.inl rfl
  · split
    · exact Or.inr rfl
    · split
      · exact Or.inl rfl
      · exact Or.inr rfl

/-- `flowKey`. -/
structure FlowKey where
  protocol : Nat
  src : IPAddr
  srcPort : Nat
  dst : IPAddr
  dstPort : Nat
deriving DecidableEq

/-- The key under which a connection is aggregated. -/
def aggKey (protocol : Nat) (orientation : Orientation IPAddr) : FlowKey where
  protocol
  src := orientation.client
  srcPort := 0
  dst := orientation.server
  dstPort := orientation.serverPort

/-- Both ends of a connection describe it alike. -/
structure SameDescription {Address : Type}
    (first second : Orientation Address) : Prop where
  client : first.client = second.client
  server : first.server = second.server
  serverPort : first.serverPort = second.serverPort
  flipped : second.flipped = !first.flipped

theorem orientFlow_samePort
    (src dst : Address)
    (port : Nat) :
    orientFlow src port dst port = ⟨src, dst, port, false⟩ := by
  unfold orientFlow
  simp

/-- Between different ports the roles do not depend on the direction. -/
theorem orientFlow_swap
    (a b : Address)
    {p q : Nat}
    (different : p ≠ q) :
    orientFlow b q a p =
      { orientFlow a p b q with flipped := !(orientFlow a p b q).flipped } := by
  unfold orientFlow
  by_cases ephemeralP : ephemeralMin ≤ p
  · by_cases ephemeralQ : ephemeralMin ≤ q
    · rcases Nat.lt_or_gt_of_ne different with below | above
      · simp [ephemeralP, ephemeralQ, Nat.le_of_lt below,
          Nat.not_le_of_lt below]
      · simp [ephemeralP, ephemeralQ, Nat.le_of_lt above,
          Nat.not_le_of_lt above]
    · simp [ephemeralP, ephemeralQ]
  · by_cases ephemeralQ : ephemeralMin ≤ q
    · simp [ephemeralP, ephemeralQ]
    · rcases Nat.lt_or_gt_of_ne different with below | above
      · simp [ephemeralP, ephemeralQ, Nat.le_of_lt below,
          Nat.not_le_of_lt below]
      · simp [ephemeralP, ephemeralQ, Nat.le_of_lt above,
          Nat.not_le_of_lt above]

/-- The two ends of a connection orient it alike exactly when its ports are
different. -/
theorem orientFlow_swap_iff
    {a b : IPAddr}
    (distinct : a ≠ b)
    (p q protocol : Nat) :
    (SameDescription (orientFlow a p b q) (orientFlow b q a p) ∧
        aggKey protocol (orientFlow a p b q) =
          aggKey protocol (orientFlow b q a p)) ↔
      p ≠ q := by
  constructor
  · rintro ⟨alike, -⟩ rfl
    have roles := alike.client
    rw [orientFlow_samePort, orientFlow_samePort] at roles
    exact distinct roles
  · intro different
    rw [orientFlow_swap a b different]
    exact ⟨⟨rfl, rfl, rfl, rfl⟩, rfl⟩

/-- A host of `100.64.0.0/16`. -/
def overlayHost (host : Nat) : IPAddr :=
  ⟨addressOf (0x64400000 + host), fun _ => rfl⟩

/-- Two time servers talk to each other: each end takes itself for the
client. -/
theorem orientFlow_timeServers :
    orientFlow (overlayHost 1) 123 (overlayHost 2) 123 =
        ⟨overlayHost 1, overlayHost 2, 123, false⟩ ∧
      orientFlow (overlayHost 2) 123 (overlayHost 1) 123 =
        ⟨overlayHost 2, overlayHost 1, 123, false⟩ ∧
      aggKey 17 (orientFlow (overlayHost 1) 123 (overlayHost 2) 123) ≠
        aggKey 17 (orientFlow (overlayHost 2) 123 (overlayHost 1) 123) := by
  refine ⟨orientFlow_samePort _ _ _, orientFlow_samePort _ _ _, ?_⟩
  decide

/-- A client and a server agree. -/
theorem orientFlow_swap_web :
    SameDescription (orientFlow (overlayHost 1) 51722 (overlayHost 2) 443)
      (orientFlow (overlayHost 2) 443 (overlayHost 1) 51722) :=
  ((orientFlow_swap_iff (by decide) 51722 443 6).mpr (by decide)).1

/-! ## Collecting -/

/-- `flowCounters`. -/
structure FlowCounters where
  txBytes : Nat
  txPackets : Nat
  rxBytes : Nat
  rxPackets : Nat
deriving DecidableEq

/-- `ctFlow`: a five-tuple with its cumulative counters. -/
structure CtFlow where
  key : FlowKey
  counters : FlowCounters
deriving DecidableEq

/-- `counterDelta`; a flow that is not known has no previous value. -/
def counterDelta (cur : Nat) : Option Nat → Nat
  | none => cur
  | some prev => if cur < prev then cur else cur - prev

/-- The increments of a flow over its previous counters. -/
def flowDelta (cur : FlowCounters) (prev : Option FlowCounters) :
    FlowCounters where
  txBytes := counterDelta cur.txBytes (prev.map (·.txBytes))
  txPackets := counterDelta cur.txPackets (prev.map (·.txPackets))
  rxBytes := counterDelta cur.rxBytes (prev.map (·.rxBytes))
  rxPackets := counterDelta cur.rxPackets (prev.map (·.rxPackets))

/-- Nothing was transferred. -/
def FlowCounters.isZero (counters : FlowCounters) : Bool :=
  counters.txBytes == 0 && counters.rxBytes == 0 &&
    counters.txPackets == 0 && counters.rxPackets == 0

/-- The counters with both directions exchanged. -/
def FlowCounters.swap (counters : FlowCounters) : FlowCounters where
  txBytes := counters.rxBytes
  txPackets := counters.rxPackets
  rxBytes := counters.txBytes
  rxPackets := counters.txPackets

/-- An entry of `pendingFlows`. -/
structure PendingFlow where
  key : FlowKey
  record : FlowRecord
deriving DecidableEq

/-- A pending entry before its first increment. -/
def freshFlow (key : FlowKey) : PendingFlow where
  key
  record :=
    { protocol := key.protocol
      srcIP := key.src.val.text
      srcPort := 0
      dstIP := key.dst.val.text
      dstPort := key.dstPort
      txBytes := 0
      rxBytes := 0
      txPackets := 0
      rxPackets := 0 }

/-- Add oriented increments to an entry. -/
def addFlow (delta : FlowCounters) (pending : PendingFlow) : PendingFlow :=
  { pending with
    record :=
      { pending.record with
        txBytes := pending.record.txBytes + delta.txBytes
        rxBytes := pending.record.rxBytes + delta.rxBytes
        txPackets := pending.record.txPackets + delta.txPackets
        rxPackets := pending.record.rxPackets + delta.rxPackets } }

/-- The maps `prevFlow` and `pendingFlows`. -/
structure FlowMeter where
  prevFlow : FlowKey → Option FlowCounters
  pendingFlows : List PendingFlow

/-- The maps of a new process. -/
def FlowMeter.new : FlowMeter where
  prevFlow := fun _ => none
  pendingFlows := []

section Collect

variable (network : Prefix) (network6 : Option Prefix)

/-- `overlayContains`. -/
def overlayContains (addr : IPAddr) : Bool :=
  network.contains addr.val || network6.any (·.contains addr.val)

/-- A flow with an end in the overlay. -/
def concernsOverlay (key : FlowKey) : Bool :=
  overlayContains network network6 key.src ||
    overlayContains network network6 key.dst

/-- Fold increments into the record of their service. -/
def FlowMeter.fold (meter : FlowMeter) (key : FlowKey)
    (delta : FlowCounters) : List PendingFlow :=
  let orientation := orientFlow key.src key.srcPort key.dst key.dstPort
  let oriented := if orientation.flipped then delta.swap else delta
  upsert (·.key) (addFlow oriented)
    (addFlow oriented (freshFlow (aggKey key.protocol orientation)))
    meter.pendingFlows

/-- The loop body of `collectFlows`. -/
def FlowMeter.observe (meter : FlowMeter) (flow : CtFlow) : FlowMeter :=
  if concernsOverlay network network6 flow.key then
    let delta := flowDelta flow.counters (meter.prevFlow flow.key)
    { prevFlow :=
        Function.update meter.prevFlow flow.key (some flow.counters)
      pendingFlows :=
        if delta.isZero then meter.pendingFlows
        else meter.fold flow.key delta }
  else
    meter

/-- Drop the snapshots of flows that the dump did not show. -/
def FlowMeter.prune (meter : FlowMeter) (seen : List FlowKey) : FlowMeter :=
  { meter with
    prevFlow := fun key =>
      if key ∈ seen then meter.prevFlow key else none }

/-- `collectFlows` for a dump. -/
def FlowMeter.collectFlows (meter : FlowMeter) (flows : List CtFlow) :
    FlowMeter :=
  (flows.foldl (FlowMeter.observe network network6) meter).prune
    ((flows.map (·.key)).filter (concernsOverlay network network6))

end Collect

/-! ## Traffic from one address to another -/

/-- Bytes and packets. -/
abbrev Amount := Int × Int

/-- The bytes and packets that a record has from `x` to `y`. -/
def carriedBy (x y : IPAddr) (protocol : Nat) (record : FlowRecord) :
    Amount :=
  if record.protocol = protocol then
    if record.srcIP = x.val.text ∧ record.dstIP = y.val.text then
      (record.txBytes, record.txPackets)
    else if record.srcIP = y.val.text ∧ record.dstIP = x.val.text then
      (record.rxBytes, record.rxPackets)
    else
      0
  else
    0

/-- The part of a five-tuple's increments that goes from `x` to `y`. -/
def directed (x y : IPAddr) (protocol : Nat) (key : FlowKey)
    (delta : FlowCounters) : Amount :=
  if key.protocol = protocol then
    if key.src = x ∧ key.dst = y then
      (delta.txBytes, delta.txPackets)
    else if key.src = y ∧ key.dst = x then
      (delta.rxBytes, delta.rxPackets)
    else
      0
  else
    0

/-- A record names the ends of its key. -/
structure PendingFlow.Named (pending : PendingFlow) : Prop where
  protocol : pending.record.protocol = pending.key.protocol
  source : pending.record.srcIP = pending.key.src.val.text
  destination : pending.record.dstIP = pending.key.dst.val.text

/-- The pending entries have different keys and name them. -/
structure FlowMeter.Sound (meter : FlowMeter) : Prop where
  distinct : (meter.pendingFlows.map (·.key)).Nodup
  named : ∀ pending ∈ meter.pendingFlows, pending.Named

section Direction

variable {x y : IPAddr} {protocol : Nat}

/-- Increments of a named entry are added to its direction. -/
theorem carriedBy_addFlow
    {pending : PendingFlow}
    (named : pending.Named)
    (delta : FlowCounters) :
    carriedBy x y protocol (addFlow delta pending).record =
      carriedBy x y protocol pending.record +
        directed x y protocol pending.key delta := by
  have sameProtocol :
      pending.record.protocol = (protocol : Int) ↔
        pending.key.protocol = protocol := by
    rw [named.protocol]
    exact Int.ofNat_inj
  unfold carriedBy directed addFlow
  simp only [sameProtocol, named.source, named.destination, IPAddr.text_inj]
  split
  · split
    · rfl
    · split
      · rfl
      · exact (add_zero _).symm
  · exact (add_zero _).symm

/-- An entry without increments carries nothing. -/
theorem carriedBy_freshFlow
    (key : FlowKey) :
    carriedBy x y protocol (freshFlow key).record = 0 := by
  unfold carriedBy freshFlow
  dsimp only
  split
  · split
    · rfl
    · split
      · rfl
      · rfl
  · rfl

/-- Exchanging the ends and the directions changes nothing. -/
theorem directed_swap
    (distinct : x ≠ y)
    {key swapped : FlowKey}
    (sameProtocol : swapped.protocol = key.protocol)
    (source : swapped.src = key.dst)
    (destination : swapped.dst = key.src)
    (delta : FlowCounters) :
    directed x y protocol swapped delta.swap =
      directed x y protocol key delta := by
  unfold directed
  rw [sameProtocol, source, destination]
  split
  · by_cases forth : key.src = x ∧ key.dst = y
    · have notBack : ¬(key.dst = x ∧ key.src = y) := by
        rintro ⟨isX, -⟩
        exact distinct (isX.symm.trans forth.2)
      rw [if_neg notBack, if_pos ⟨forth.2, forth.1⟩, if_pos forth]
      rfl
    · rw [if_neg forth]
      by_cases back : key.src = y ∧ key.dst = x
      · rw [if_pos ⟨back.2, back.1⟩, if_pos back]
        rfl
      · rw [if_neg (fun both => back ⟨both.2, both.1⟩), if_neg back,
          if_neg (fun both => forth ⟨both.2, both.1⟩)]
  · rfl

/-- Folding increments in adds them to their direction, whoever is taken for
the client. -/
theorem FlowMeter.sum_fold
    (distinct : x ≠ y)
    {meter : FlowMeter}
    (sound : meter.Sound)
    (key : FlowKey)
    (delta : FlowCounters) :
    ((meter.fold key delta).map
        (fun pending => carriedBy x y protocol pending.record)).sum =
      (meter.pendingFlows.map
          (fun pending => carriedBy x y protocol pending.record)).sum +
        directed x y protocol key delta := by
  have oriented :
      ∀ (service : FlowKey) (moved : FlowCounters),
        directed x y protocol service moved =
            directed x y protocol key delta →
          ((upsert (·.key) (addFlow moved)
              (addFlow moved (freshFlow service)) meter.pendingFlows).map
              (fun pending => carriedBy x y protocol pending.record)).sum =
            (meter.pendingFlows.map
                (fun pending => carriedBy x y protocol pending.record)).sum +
              directed x y protocol key delta := by
    intro service moved same
    rw [← same]
    refine sum_upsert sound.distinct ?_ ?_
    · rw [carriedBy_addFlow ⟨rfl, rfl, rfl⟩, carriedBy_freshFlow, zero_add]
      rfl
    · intro pending member isKey
      rw [carriedBy_addFlow (sound.named pending member), isKey]
      rfl
  unfold FlowMeter.fold
  rcases orientFlow_cases key.src key.srcPort key.dst key.dstPort with
    forth | back
  · rw [forth]
    exact oriented _ delta rfl
  · rw [back]
    exact oriented _ delta.swap
      (@directed_swap x y protocol distinct key
        (aggKey key.protocol ⟨key.dst, key.src, key.srcPort, true⟩)
        rfl rfl rfl delta)

end Direction

/-- What is pending from `x` to `y`. -/
def FlowMeter.carried (x y : IPAddr) (protocol : Nat) (meter : FlowMeter) :
    Amount :=
  (meter.pendingFlows.map
    (fun pending => carriedBy x y protocol pending.record)).sum

/-- No increments, nothing in either direction. -/
theorem directed_of_isZero
    {delta : FlowCounters}
    (zero : delta.isZero = true)
    (x y : IPAddr)
    (protocol : Nat)
    (key : FlowKey) :
    directed x y protocol key delta = 0 := by
  simp only [FlowCounters.isZero, Bool.and_eq_true, beq_iff_eq] at zero
  obtain ⟨⟨⟨txBytes, rxBytes⟩, txPackets⟩, rxPackets⟩ := zero
  unfold directed
  rw [txBytes, rxBytes, txPackets, rxPackets]
  split
  · split
    · rfl
    · split
      · rfl
      · rfl
  · rfl

variable {meter : FlowMeter} {flows : List CtFlow} {key : FlowKey}

theorem FlowMeter.Sound.fold
    (sound : meter.Sound)
    (key : FlowKey)
    (delta : FlowCounters) :
    ((meter.fold key delta).map (·.key)).Nodup ∧
      ∀ pending ∈ meter.fold key delta, pending.Named := by
  unfold FlowMeter.fold
  refine ⟨nodup_upsert sound.distinct (fun _ => rfl), ?_⟩
  refine forall_mem_upsert ?_ sound.named ?_
  · exact ⟨rfl, rfl, rfl⟩
  · intro pending named
    exact ⟨named.protocol, named.source, named.destination⟩

section Observe

variable
  {network : Prefix}
  {network6 : Option Prefix}
  {x y : IPAddr}
  {protocol : Nat}
  {meter : FlowMeter}

/-- Looking at a flow keeps the entries sound. -/
theorem FlowMeter.Sound.observe
    (sound : meter.Sound)
    (flow : CtFlow) :
    (meter.observe network network6 flow).Sound := by
  unfold FlowMeter.observe
  split
  · dsimp only
    split
    · exact ⟨sound.distinct, sound.named⟩
    · obtain ⟨distinct, named⟩ :=
        sound.fold flow.key
          (flowDelta flow.counters (meter.prevFlow flow.key))
      exact ⟨distinct, named⟩
  · exact sound

theorem FlowMeter.prevFlow_observe_of_ne
    {flow : CtFlow}
    {key : FlowKey}
    (different : key ≠ flow.key) :
    (meter.observe network network6 flow).prevFlow key =
      meter.prevFlow key := by
  unfold FlowMeter.observe
  split
  · exact Function.update_of_ne different _ _
  · rfl

/-- A flow outside of the overlay is not between two addresses of which one is
in it. -/
theorem directed_of_outside
    (inside :
      overlayContains network network6 x = true ∨
        overlayContains network network6 y = true)
    {key : FlowKey}
    (outside : ¬concernsOverlay network network6 key = true)
    (delta : FlowCounters) :
    directed x y protocol key delta = 0 := by
  have notForth : ¬(key.src = x ∧ key.dst = y) := by
    rintro ⟨isX, isY⟩
    apply outside
    simpa [concernsOverlay, isX, isY] using inside
  have notBack : ¬(key.src = y ∧ key.dst = x) := by
    rintro ⟨isY, isX⟩
    apply outside
    simpa [concernsOverlay, isX, isY] using inside.symm
  unfold directed
  rw [if_neg notForth, if_neg notBack]
  exact ite_self 0

/-- Looking at a flow adds its increments to the directions of two addresses
of which one is in the overlay. -/
theorem FlowMeter.carried_observe
    (distinct : x ≠ y)
    (inside :
      overlayContains network network6 x = true ∨
        overlayContains network network6 y = true)
    (sound : meter.Sound)
    (flow : CtFlow) :
    (meter.observe network network6 flow).carried x y protocol =
      meter.carried x y protocol +
        directed x y protocol flow.key
          (flowDelta flow.counters (meter.prevFlow flow.key)) := by
  unfold FlowMeter.carried FlowMeter.observe
  split
  · dsimp only
    split
    · rename_i zero
      rw [directed_of_isZero zero, add_zero]
    · exact FlowMeter.sum_fold distinct sound _ _
  · rename_i outside
    rw [directed_of_outside inside outside, add_zero]

/-- Looking at flows with different tuples adds the increments of each over the
snapshots from before. -/
theorem FlowMeter.carried_foldl
    (distinct : x ≠ y)
    (inside :
      overlayContains network network6 x = true ∨
        overlayContains network network6 y = true)
    {flows : List CtFlow}
    (sound : meter.Sound)
    (different : (flows.map (·.key)).Nodup) :
    (flows.foldl (FlowMeter.observe network network6) meter).Sound ∧
      (flows.foldl (FlowMeter.observe network network6) meter).carried x y
          protocol =
        meter.carried x y protocol +
          (flows.map fun flow =>
            directed x y protocol flow.key
              (flowDelta flow.counters (meter.prevFlow flow.key))).sum := by
  induction flows generalizing meter with
  | nil => exact ⟨sound, (add_zero _).symm⟩
  | cons flow rest inductionHypothesis =>
      obtain ⟨fresh, restDifferent⟩ := List.nodup_cons.mp different
      obtain ⟨laterSound, later⟩ :=
        inductionHypothesis (sound.observe flow) restDifferent
      refine ⟨laterSound, later.trans ?_⟩
      have unchanged :
          (rest.map fun other =>
              directed x y protocol other.key
                (flowDelta other.counters
                  ((meter.observe network network6 flow).prevFlow
                    other.key))) =
            rest.map fun other =>
              directed x y protocol other.key
                (flowDelta other.counters (meter.prevFlow other.key)) := by
        refine List.map_congr_left fun other member => ?_
        rw [FlowMeter.prevFlow_observe_of_ne]
        intro same
        exact fresh (List.mem_map.mpr ⟨other, member, same⟩)
      rw [unchanged, FlowMeter.carried_observe distinct inside sound,
        List.map_cons, List.sum_cons, add_assoc]

end Observe

/-! ## Runs of the agent -/

/-- The counters of a tuple in a dump. -/
def countersOf (flows : List CtFlow) (key : FlowKey) : Option FlowCounters :=
  (flows.find? (fun flow => decide (flow.key = key))).map (·.counters)

theorem FlowMeter.prevFlow_foldl_of_absent
    (absent : key ∉ flows.map (·.key)) :
    (flows.foldl (FlowMeter.observe network network6) meter).prevFlow key =
      meter.prevFlow key := by
  induction flows generalizing meter with
  | nil => rfl
  | cons flow rest inductionHypothesis =>
      rw [List.map_cons, List.mem_cons, not_or] at absent
      rw [List.foldl_cons, inductionHypothesis absent.2]
      exact FlowMeter.prevFlow_observe_of_ne absent.1

/-- After a dump the snapshot of an overlay flow is its counters there. -/
theorem FlowMeter.prevFlow_foldl
    (different : (flows.map (·.key)).Nodup)
    (concerned : concernsOverlay network network6 key = true)
    (shown : key ∈ flows.map (·.key)) :
    (flows.foldl (FlowMeter.observe network network6) meter).prevFlow key =
      countersOf flows key := by
  induction flows generalizing meter with
  | nil => cases shown
  | cons flow rest inductionHypothesis =>
      obtain ⟨fresh, restDifferent⟩ := List.nodup_cons.mp different
      by_cases same : flow.key = key
      · rw [List.foldl_cons,
          FlowMeter.prevFlow_foldl_of_absent (same ▸ fresh)]
        subst same
        unfold FlowMeter.observe countersOf
        rw [if_pos concerned, List.find?_cons_of_pos (by simp)]
        exact Function.update_self _ _ _
      · have inRest : key ∈ rest.map (·.key) := by
          rcases List.mem_cons.mp shown with isFirst | inRest
          · exact absurd isFirst.symm same
          · exact inRest
        rw [List.foldl_cons, inductionHypothesis restDifferent inRest]
        unfold countersOf
        rw [List.find?_cons_of_neg (by simpa using same)]

/-- After `collectFlows` the snapshots are the overlay flows of the dump. -/
theorem FlowMeter.prevFlow_collectFlows
    (different : (flows.map (·.key)).Nodup)
    (concerned : concernsOverlay network network6 key = true) :
    (meter.collectFlows network network6 flows).prevFlow key =
      countersOf flows key := by
  unfold FlowMeter.collectFlows FlowMeter.prune
  dsimp only
  by_cases shown : key ∈ flows.map (·.key)
  · rw [if_pos (List.mem_filter.mpr ⟨shown, concerned⟩)]
    exact FlowMeter.prevFlow_foldl different concerned shown
  · rw [if_neg (fun seen => shown (List.mem_filter.mp seen).1)]
    have none : flows.find? (fun flow => decide (flow.key = key)) = none := by
      rw [List.find?_eq_none]
      intro flow member same
      exact shown (List.mem_map.mpr ⟨flow, member, of_decide_eq_true same⟩)
    rw [countersOf, none]
    rfl

/-- A successful dump; each five-tuple appears at most once. -/
structure FlowDump where
  flows : List CtFlow
  distinct : (flows.map (·.key)).Nodup

/-- What happens to the pending flows. -/
inductive FlowEvent where
  | dump (taken : FlowDump)
  | dumpFailed
  | posted (accepted : Bool)

/-- The agent's maps, with the records of all accepted reports. -/
structure FlowBooks where
  meter : FlowMeter
  reported : List FlowRecord

/-- The books of a new process. -/
def FlowBooks.new : FlowBooks where
  meter := FlowMeter.new
  reported := []

/-- A dump is collected; `send` drops what is pending once it is accepted. -/
def FlowBooks.step (network : Prefix) (network6 : Option Prefix)
    (books : FlowBooks) : FlowEvent → FlowBooks
  | .dump taken =>
      { books with
        meter := books.meter.collectFlows network network6 taken.flows }
  | .dumpFailed => books
  | .posted false => books
  | .posted true =>
      { meter := { books.meter with pendingFlows := [] }
        reported := books.reported ++ books.meter.pendingFlows.map (·.record) }

/-- The traffic from `x` to `y` in the accepted reports and pending. -/
def FlowBooks.carried (x y : IPAddr) (protocol : Nat) (books : FlowBooks) :
    Amount :=
  (books.reported.map (carriedBy x y protocol)).sum +
    books.meter.carried x y protocol

/-- The increments from `x` to `y` of all dumped tuples, each over its counters
in the successful dump before. -/
def dumped (x y : IPAddr) (protocol : Nat) :
    List CtFlow → List FlowEvent → Amount
  | _, [] => 0
  | previous, .dump taken :: rest =>
      (taken.flows.map fun flow =>
          directed x y protocol flow.key
            (flowDelta flow.counters (countersOf previous flow.key))).sum +
        dumped x y protocol taken.flows rest
  | previous, .dumpFailed :: rest => dumped x y protocol previous rest
  | previous, .posted _ :: rest => dumped x y protocol previous rest

/-- The snapshots are those of the last successful dump. -/
def FlowMeter.Follows (network : Prefix) (network6 : Option Prefix)
    (meter : FlowMeter) (previous : List CtFlow) : Prop :=
  ∀ key, concernsOverlay network network6 key = true →
    meter.prevFlow key = countersOf previous key

section Run

variable
  {network : Prefix}
  {network6 : Option Prefix}
  {x y : IPAddr}
  {protocol : Nat}

/-- One direction of a flow between two addresses, one of them in the overlay,
is measured against the last dump. -/
theorem directed_of_follows
    (inside :
      overlayContains network network6 x = true ∨
        overlayContains network network6 y = true)
    {meter : FlowMeter}
    {previous : List CtFlow}
    (follows : meter.Follows network network6 previous)
    (flow : CtFlow) :
    directed x y protocol flow.key
        (flowDelta flow.counters (meter.prevFlow flow.key)) =
      directed x y protocol flow.key
        (flowDelta flow.counters (countersOf previous flow.key)) := by
  by_cases concerned : concernsOverlay network network6 flow.key = true
  · rw [follows flow.key concerned]
  · rw [directed_of_outside inside concerned,
      directed_of_outside inside concerned]

/-- Over a run the increments of the dumps are added, and none are lost with
posts that fail or succeed. -/
theorem FlowBooks.carried_run
    (distinct : x ≠ y)
    (inside :
      overlayContains network network6 x = true ∨
        overlayContains network network6 y = true)
    {books : FlowBooks}
    {previous : List CtFlow}
    (sound : books.meter.Sound)
    (follows : books.meter.Follows network network6 previous)
    (events : List FlowEvent) :
    (events.foldl (FlowBooks.step network network6) books).carried x y
        protocol =
      books.carried x y protocol + dumped x y protocol previous events := by
  induction events generalizing books previous with
  | nil => exact (add_zero _).symm
  | cons event rest inductionHypothesis =>
      rw [List.foldl_cons]
      cases event with
      | dumpFailed => exact inductionHypothesis sound follows
      | posted accepted =>
          cases accepted with
          | false => exact inductionHypothesis sound follows
          | true =>
              have kept :
                  (books.step network network6 (.posted true)).carried x y
                      protocol =
                    books.carried x y protocol := by
                unfold FlowBooks.carried FlowBooks.step FlowMeter.carried
                rw [List.map_append, List.sum_append, List.map_map,
                  List.map_nil, List.sum_nil, add_zero]
                rfl
              have emptySound :
                  (books.step network network6 (.posted true)).meter.Sound :=
                ⟨List.nodup_nil, by simp [FlowBooks.step]⟩
              rw [@inductionHypothesis _ previous emptySound follows, kept]
              rfl
      | dump taken =>
          obtain ⟨foldSound, foldCarried⟩ :=
            @FlowMeter.carried_foldl network network6 x y protocol
              books.meter distinct inside taken.flows sound taken.distinct
          have collected :
              (books.step network network6 (.dump taken)).carried x y
                  protocol =
                books.carried x y protocol +
                  (taken.flows.map fun flow =>
                    directed x y protocol flow.key
                      (flowDelta flow.counters
                        (countersOf previous flow.key))).sum := by
            rw [← List.map_congr_left fun flow _ =>
              directed_of_follows inside follows flow]
            change
              (books.reported.map (carriedBy x y protocol)).sum +
                (taken.flows.foldl (FlowMeter.observe network network6)
                  books.meter).carried x y protocol = _
            rw [foldCarried, ← add_assoc]
            rfl
          rw [@inductionHypothesis _ taken.flows
            ⟨foldSound.distinct, foldSound.named⟩
            (fun key concerned =>
              FlowMeter.prevFlow_collectFlows taken.distinct concerned),
            collected, add_assoc]
          rfl

end Run

/-- Flow aggregation conserves traffic: what accepted reports and pending
records have from `x` to `y` is what the dumps have shown. -/
theorem flows_conserved
    (network : Prefix)
    (network6 : Option Prefix)
    (events : List FlowEvent)
    {x y : IPAddr}
    (distinct : x ≠ y)
    (inside :
      overlayContains network network6 x = true ∨
        overlayContains network network6 y = true)
    (protocol : Nat) :
    (events.foldl (FlowBooks.step network network6)
        FlowBooks.new).carried x y protocol =
      dumped x y protocol [] events := by
  have run :=
    @FlowBooks.carried_run network network6 x y protocol distinct inside
      FlowBooks.new [] ⟨List.nodup_nil, by simp [FlowBooks.new, FlowMeter.new]⟩
      (fun _ _ => rfl) events
  rw [run]
  exact zero_add _

/-- A dump in which a server is asked by a client and asks it back. -/
def twoFlows : FlowDump where
  flows :=
    [⟨⟨6, overlayHost 1, 51722, overlayHost 2, 443⟩, ⟨100, 1, 40, 1⟩⟩,
      ⟨⟨6, overlayHost 2, 40000, overlayHost 1, 22⟩, ⟨7, 1, 9, 1⟩⟩]
  distinct := by decide

/-- The same flows later; the second was recycled. -/
def twoFlowsLater : FlowDump where
  flows :=
    [⟨⟨6, overlayHost 1, 51722, overlayHost 2, 443⟩, ⟨160, 2, 60, 2⟩⟩,
      ⟨⟨6, overlayHost 2, 40000, overlayHost 1, 22⟩, ⟨3, 1, 4, 1⟩⟩]
  distinct := by decide

/-- Two dumps with a failed and an accepted post between them. -/
theorem flows_conserved_twoFlows :
    ([.dump twoFlows, .posted false, .posted true, .dumpFailed,
        .dump twoFlowsLater].foldl
      (FlowBooks.step ⟨addressOf 0x64400000, 16, by decide⟩ none)
      FlowBooks.new).carried (overlayHost 1) (overlayHost 2) 6 =
        (100 + 9 + 60 + 4, 1 + 1 + 1 + 0) := by
  rw [flows_conserved _ _ _ (by decide) (by decide) 6]
  decide

end WgMesh.Flows
