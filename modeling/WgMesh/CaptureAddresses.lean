import Mathlib.Data.List.Perm.Subperm
import WgMesh.FlowCapture
import WgMesh.ServerHandlers

namespace WgMesh.Flows

/-!
# The addresses of a flow capture

The capture of a reporter is given the own addresses when the reporter is
constructed.  `applySelfAssignment` moves the reporter to another address and
leaves the capture with the old ones.
-/

open Agent BigEndian FiniteRuns NetAddress Server

/-- `parseSelfAddr`; the zero address is no address. -/
def parseSelfAddr (text : String) : Option Addr :=
  if text = "" then
    none
  else
    match parseAddr text with
    | some addr => some (unmap addr)
    | none => (parsePrefix text).map fun network => unmap network.addr

/-- The addresses that two texts stand for. -/
def ownAddresses (selfAddr selfAddr6 : String) : List Addr :=
  (parseSelfAddr selfAddr).toList ++ (parseSelfAddr selfAddr6).toList

/-- The capture of `newTelemetryReporter`: `newCaptureDumper` of the parsed
addresses. -/
def newCapture (state : SelfState) : Capture where
  self4 := (parseSelfAddr state.selfAddr).map unmap
  self6 := (parseSelfAddr state.selfAddr6).map unmap
  flows := []

/-- `Dump` removes the idle entries. -/
def Capture.dump (capture : Capture) (now : Int) : List CtFlow × Capture :=
  let flows := evictLocked now capture.flows
  (flows.map fun flow => ⟨flow.key, flow.counters⟩, { capture with flows })

/-- A reporter and its capture. -/
structure CapturingAgent where
  self : SelfState
  capture : Capture

/-- What a reporter with a capture takes part in. -/
inductive CaptureEvent where
  | sync (input : AddressSync)
  | packet (pkt : List UInt8) (length : Nat) (now : Int)
  | dump (now : Int)

/-- A reporter with a capture: payloads, packets and dumps in any order. -/
def capturing (ifaceName : String) :
    Machine CapturingAgent CaptureEvent (Except String Unit) where
  step := fun agent event =>
    match event with
    | .sync input =>
        let outcome := applySelfAssignment ifaceName input agent.self
        (outcome.1, { agent with self := outcome.2 })
    | .packet pkt length now =>
        (.ok (), { agent with capture := agent.capture.account pkt length now })
    | .dump now =>
        (.ok (), { agent with capture := (agent.capture.dump now).2 })

/-- A reporter starts with a capture of its addresses. -/
def startCapturing (self : SelfState) : CapturingAgent :=
  ⟨self, newCapture self⟩

/-- The addresses of a capture. -/
def Capture.own (capture : Capture) : List Addr :=
  capture.self4.toList ++ capture.self6.toList

/-- The addresses a reporter has adopted. -/
def CapturingAgent.current (agent : CapturingAgent) : List Addr :=
  ownAddresses agent.self.selfAddr agent.self.selfAddr6

/-- Every packet from or to one of the addresses is counted, with such an
address as the source of its flow, unless the table is full. -/
def Follows (current : List Addr) (capture : Capture) : Prop :=
  ∀ pkt tuple, parseFlowTuple pkt = some tuple →
    tuple.src.val ∈ current ∨ tuple.dst.val ∈ current →
    ∃ key outbound,
      capture.flowOf pkt = some (key, outbound) ∧
        key.src.val ∈ current ∧
        ∀ length now, ¬Full key now capture.flows →
          entryOf key (capture.account pkt length now).flows =
            some
              { key
                counters := (counted key capture.flows).count outbound length
                lastSeen := now }

/-- Among the addresses a packet can carry, the current ones are among the own
ones, and no own one of their families is given up. -/
structure Covers (own current : List Addr) : Prop where
  known : ∀ addr ∈ current, addr.zone = "" → addr ∈ own
  kept :
    ∀ stale ∈ own, stale.zone = "" → stale ∉ current →
      ∀ addr ∈ current, addr.zone = "" → addr.family ≠ stale.family

/-! ## What a capture counts -/

theorem Capture.isSelf_iff
    {capture : Capture}
    {addr : IPAddr} :
    capture.isSelf addr ↔ addr.val ∈ capture.own := by
  simp [isSelf, own]

theorem parsed_ends
    {pkt : List UInt8}
    {tuple : FlowTuple}
    (parsed : parseFlowTuple pkt = some tuple) :
    tuple.src.val.zone = "" ∧ tuple.dst.val.zone = "" ∧
      tuple.dst.val.family = tuple.src.val.family := by
  have valid :=
    connection_valid
      (show connection pkt = some _ by rw [connection, parsed]; rfl)
  exact ⟨valid.srcZone, valid.dstZone, valid.families⟩

/-- A capture has at most two addresses. -/
theorem Capture.length_own_le
    (capture : Capture) :
    capture.own.length ≤ 2 := by
  have single (self : Option Addr) : self.toList.length ≤ 1 := by
    cases self with
    | none => exact Nat.zero_le 1
    | some addr => exact Nat.le_refl 1
  have first := single capture.self4
  have second := single capture.self6
  rw [own, List.length_append]
  omega

/-- There are more addresses in each family than a capture has. -/
theorem exists_foreign
    (capture : Capture)
    (family : Family) :
    ∃ addr : IPAddr,
      addr.val.family = family ∧ addr.val.zone = "" ∧
        ¬capture.isSelf addr := by
  have room : 2 < 2 ^ family.width := by
    cases family with
    | v4 => decide
    | v6 => decide
  by_contra none
  have own (value : Nat) (small : value < 2 ^ family.width) :
      ⟨family, value, "", small⟩ ∈ capture.own := by
    by_contra foreign
    refine none
      ⟨⟨⟨family, value, "", small⟩, fun _ => rfl⟩, rfl, rfl, fun isSelf => ?_⟩
    exact foreign (Capture.isSelf_iff.mp isSelf)
  have distinct :
      [(⟨family, 0, "", by omega⟩ : Addr), ⟨family, 1, "", by omega⟩,
        ⟨family, 2, "", room⟩].Nodup := by
    simp
  have subset :
      [(⟨family, 0, "", by omega⟩ : Addr), ⟨family, 1, "", by omega⟩,
        ⟨family, 2, "", room⟩] ⊆ capture.own := by
    simp [own]
  have tooMany := (List.subperm_of_subset distinct subset).length_le
  have few := capture.length_own_le
  simp only [List.length_cons, List.length_nil] at tooMany
  omega

/-- Some packet runs between two addresses of one family. -/
theorem exists_packet
    {src dst : IPAddr}
    (srcZone : src.val.zone = "")
    (dstZone : dst.val.zone = "")
    (families : dst.val.family = src.val.family) :
    ∃ pkt, parseFlowTuple pkt = some ⟨1, src, 0, dst, 0⟩ :=
  ⟨packetOf ⟨1, src, 0, dst, 0⟩,
    parseFlowTuple_packetOf
      { proto := show 1 < 256 by decide
        sport := show 0 < 256 ^ 2 by decide
        dport := show 0 < 256 ^ 2 by decide
        portless := fun _ => rfl
        families
        srcZone
        dstZone }⟩

/-- An address without a zone can stand in a packet. -/
def inPacket (addr : Addr) (zone : addr.zone = "") : IPAddr :=
  ⟨addr, fun _ => zone⟩

/-- The packets of the current addresses are counted if the capture covers
them. -/
theorem follows_of_covers
    {capture : Capture}
    {current : List Addr}
    (covers : Covers capture.own current) :
    Follows current capture := by
  intro pkt tuple parsed isCurrent
  obtain ⟨srcZone, dstZone, families⟩ := parsed_ends parsed
  have classified : capture.flowOf pkt = capture.classify tuple := by
    rw [Capture.flowOf, parsed, Option.bind_some]
  have counts {key : FlowKey} {outbound : Bool}
      (found : capture.flowOf pkt = some (key, outbound)) :=
    fun length now => (capture.counts pkt length now).2 key outbound found
  by_cases source : capture.isSelf tuple.src
  · rw [Capture.classify, if_pos source] at classified
    refine ⟨_, _, classified, ?_, counts classified⟩
    by_contra stale
    have target := isCurrent.resolve_left stale
    exact covers.kept _ (Capture.isSelf_iff.mp source) srcZone stale _ target
      dstZone families
  · have target : tuple.dst.val ∈ current := by
      refine isCurrent.resolve_left fun isSource => source ?_
      exact Capture.isSelf_iff.mpr (covers.known _ isSource srcZone)
    have own : capture.isSelf tuple.dst :=
      Capture.isSelf_iff.mpr (covers.known _ target dstZone)
    rw [Capture.classify, if_neg source, if_pos own] at classified
    exact ⟨_, _, classified, target, counts classified⟩

/-- A capture that counts the packets of the current addresses covers them. -/
theorem covers_of_follows
    {capture : Capture}
    {current : List Addr}
    (follows : Follows current capture) :
    Covers capture.own current := by
  constructor
  · intro addr member zone
    -- A packet from the address to a host that is no own one.
    obtain ⟨other, otherFamily, otherZone, foreign⟩ :=
      exists_foreign capture addr.family
    obtain ⟨pkt, parsed⟩ :=
      @exists_packet (inPacket addr zone) other zone otherZone otherFamily
    obtain ⟨key, outbound, found, -, -⟩ := follows pkt _ parsed (Or.inl member)
    by_contra unknown
    have notOwn : ¬capture.isSelf (inPacket addr zone) :=
      fun own => unknown (Capture.isSelf_iff.mp own)
    rw [Capture.flowOf, parsed, Option.bind_some, Capture.classify,
      if_neg notOwn, if_neg foreign] at found
    cases found
  · intro stale own staleZone notCurrent addr member zone family
    -- A packet from the address that is given up to the current one.
    obtain ⟨pkt, parsed⟩ :=
      @exists_packet (inPacket stale staleZone) (inPacket addr zone)
        staleZone zone family
    obtain ⟨key, outbound, found, isCurrent, -⟩ :=
      follows pkt _ parsed (Or.inr member)
    have isOwn : capture.isSelf (inPacket stale staleZone) :=
      Capture.isSelf_iff.mpr own
    rw [Capture.flowOf, parsed, Option.bind_some, Capture.classify,
      if_pos isOwn] at found
    cases found
    exact notCurrent isCurrent

/-- Unmapping twice is unmapping once. -/
theorem unmap_unmap
    (addr : Addr) :
    unmap (unmap addr) = unmap addr := by
  by_cases mapped : addr.is4In6
  · have isFour : unmap addr = addressOf addr.value := by
      rw [unmap, if_pos mapped]
      rfl
    rw [isFour, unmap, if_neg]
    simp [addressOf, Addr.is4In6]
  · have same : unmap addr = addr := if_neg mapped
    rw [same, same]

/-- What `parseSelfAddr` returns is unmapped. -/
theorem map_unmap_parseSelfAddr
    (text : String) :
    (parseSelfAddr text).map unmap = parseSelfAddr text := by
  unfold parseSelfAddr
  split
  · rfl
  · split
    · rw [Option.map_some, unmap_unmap]
    · cases parsePrefix text with
      | none => rfl
      | some network =>
          rw [Option.map_some, Option.map_some, unmap_unmap]

theorem own_newCapture
    (self : SelfState) :
    (newCapture self).own = ownAddresses self.selfAddr self.selfAddr6 := by
  rw [Capture.own, newCapture, map_unmap_parseSelfAddr,
    map_unmap_parseSelfAddr, ownAddresses]

/-! ## Runs -/

section Runs

variable
  {ifaceName : String}

theorem Capture.own_account
    (capture : Capture)
    (pkt : List UInt8)
    (length : Nat)
    (now : Int) :
    (capture.account pkt length now).own = capture.own := by
  unfold account
  split
  · rfl
  · rfl

theorem own_step
    (agent : CapturingAgent)
    (event : CaptureEvent) :
    ((capturing ifaceName).step agent event).2.capture.own =
      agent.capture.own := by
  cases event with
  | sync input => rfl
  | packet pkt length now => exact agent.capture.own_account pkt length now
  | dump now => rfl

theorem own_run
    (self : SelfState)
    (events : List CaptureEvent) :
    ((capturing ifaceName).run (startCapturing self) events).capture.own =
      ownAddresses self.selfAddr self.selfAddr6 := by
  refine @Machine.run_invariant _ _ _ (capturing ifaceName)
    (fun agent =>
      agent.capture.own = ownAddresses self.selfAddr self.selfAddr6)
    ?_ (startCapturing self) (own_newCapture self) events
  intro agent event holds
  exact (own_step agent event).trans holds

/-- In every state reached, the packets of the current addresses are counted if
and only if the addresses of the start cover them. -/
theorem follows_run_iff
    (ifaceName : String)
    (self : SelfState)
    (events : List CaptureEvent) :
    Follows
        ((capturing ifaceName).run (startCapturing self) events).current
        ((capturing ifaceName).run (startCapturing self) events).capture ↔
      Covers (ownAddresses self.selfAddr self.selfAddr6)
        ((capturing ifaceName).run (startCapturing self) events).current := by
  rw [← own_run self events]
  exact ⟨covers_of_follows, follows_of_covers⟩

/-- An address that is adopted is remembered. -/
theorem adopt_ok
    {refusals : AddressRefusals}
    {current next : String}
    {addresses : List Prefix}
    (isOk : (adopt ifaceName refusals current next addresses).1 = .ok ()) :
    (adopt ifaceName refusals current next addresses).2.1 = next := by
  unfold adopt at isOk ⊢
  by_cases same : next = current
  · rw [if_pos same]
    exact same.symm
  · rw [if_neg same] at isOk ⊢
    split at isOk
    · cases isOk
    · rfl

/-- A payload that is applied leaves the addresses it assigns. -/
theorem applySelfAssignment_adopts
    {input : AddressSync}
    {state : SelfState}
    {assignment : Assignment}
    (reads : readAssignment input.sync = .ok (some assignment))
    (applied : (applySelfAssignment ifaceName input state).1 = .ok ()) :
    (applySelfAssignment ifaceName input state).2.selfAddr =
        assignment.nextAddr ∧
      (applySelfAssignment ifaceName input state).2.selfAddr6 =
        assignment.nextAddr6 := by
  unfold applySelfAssignment at applied ⊢
  rw [reads] at applied ⊢
  dsimp only at applied ⊢
  split at applied
  · cases applied
  · rename_i first
    split at applied
    · cases applied
    · rename_i second
      exact ⟨adopt_ok first, adopt_ok second⟩

end Runs

/-- After a payload that is applied, the packets of the addresses it assigns
are counted if and only if the addresses the reporter was constructed with
cover them; in every state reached, the same holds of the addresses that are
remembered. -/
theorem capture_follows_iff
    (ifaceName : String)
    (self : SelfState)
    (events : List CaptureEvent) :
    (Follows
          ((capturing ifaceName).run (startCapturing self) events).current
          ((capturing ifaceName).run (startCapturing self) events).capture ↔
        Covers (ownAddresses self.selfAddr self.selfAddr6)
          ((capturing ifaceName).run
            (startCapturing self) events).current) ∧
      ∀ input assignment,
        readAssignment input.sync = .ok (some assignment) →
        ((capturing ifaceName).step
            ((capturing ifaceName).run (startCapturing self) events)
            (.sync input)).1 = .ok () →
        (Follows
            ((capturing ifaceName).run (startCapturing self)
              (events ++ [.sync input])).current
            ((capturing ifaceName).run (startCapturing self)
              (events ++ [.sync input])).capture ↔
          Covers (ownAddresses self.selfAddr self.selfAddr6)
            (ownAddresses assignment.nextAddr assignment.nextAddr6)) := by
  refine ⟨follows_run_iff ifaceName self events, ?_⟩
  intro input assignment reads applied
  refine (follows_run_iff ifaceName self _).trans ?_
  obtain ⟨first, second⟩ := applySelfAssignment_adopts reads applied
  have adopted :
      ((capturing ifaceName).run (startCapturing self)
          (events ++ [.sync input])).current =
        ownAddresses assignment.nextAddr assignment.nextAddr6 := by
    rw [Machine.run_append, ← first, ← second]
    rfl
  rw [adopted]

/-- The address of the start is assigned again. -/
theorem assigns_enrolled :
    Assigns (syncAt "100.64.0.1") enrolledAddress none where
  proper := ⟨rfl, rfl⟩
  address := by decide +kernel
  network := ⟨⟨addressOf 0x64400000, 10, by decide⟩, by decide +kernel, rfl⟩
  proper6 := by
    intro addr member
    cases member
  absent := fun _ => Or.inl rfl
  assigned := by
    intro addr member
    cases member

/-- The packets of an address that is assigned again are counted. -/
theorem capture_follows_sameAddress :
    Follows
      ((capturing "wg-int").run (startCapturing sampleSelf)
        [.sync ⟨syncAt "100.64.0.1", {}, {}⟩]).current
      ((capturing "wg-int").run (startCapturing sampleSelf)
        [.sync ⟨syncAt "100.64.0.1", {}, {}⟩]).capture := by
  obtain ⟨assignment, reads, first, second⟩ := assigns_enrolled.read
  refine ((capture_follows_iff "wg-int" sampleSelf []).2
    ⟨syncAt "100.64.0.1", {}, {}⟩ assignment reads (by decide +kernel)).mpr ?_
  rw [first, second]
  exact ⟨by decide +kernel, by decide +kernel⟩

/-- An ICMP packet from 100.64.0.2 to 100.64.0.3. -/
def movedPacket : List UInt8 :=
  [0x45, 0, 0, 28, 0, 7, 0, 0, 64, 1, 0, 0] ++
    [100, 64, 0, 2] ++ [100, 64, 0, 3] ++ [8, 0, 0, 0, 0, 1, 0, 1]

/-- After a move from 100.64.0.1 to 100.64.0.2, what the host sends is not
counted. -/
theorem moved_address_not_counted :
    startAddresses "wg-int" {} {} sampleEnrolled = .ok sampleSelf ∧
      ((capturing "wg-int").step (startCapturing sampleSelf)
          (.sync ⟨syncAt "100.64.0.2", {}, {}⟩)).1 = .ok () ∧
      ((capturing "wg-int").run (startCapturing sampleSelf)
          [.sync ⟨syncAt "100.64.0.2", {}, {}⟩]).current =
        [addressOf 0x64400002] ∧
      (parseFlowTuple movedPacket).map (·.src.val) =
        some (addressOf 0x64400002) ∧
      ((capturing "wg-int").run (startCapturing sampleSelf)
          [.sync ⟨syncAt "100.64.0.2", {}, {}⟩,
            .packet movedPacket 28 0]).capture.flows = [] ∧
      ¬Follows
        ((capturing "wg-int").run (startCapturing sampleSelf)
          [.sync ⟨syncAt "100.64.0.2", {}, {}⟩]).current
        ((capturing "wg-int").run (startCapturing sampleSelf)
          [.sync ⟨syncAt "100.64.0.2", {}, {}⟩]).capture := by
  refine ⟨by decide +kernel, by decide +kernel, by decide +kernel,
    by decide +kernel, by decide +kernel, ?_⟩
  · intro follows
    obtain ⟨key, outbound, found, -, -⟩ :=
      follows movedPacket
        ⟨1, addrFrom4 [100, 64, 0, 2], 0, addrFrom4 [100, 64, 0, 3], 0⟩
        (by decide +kernel) (by decide +kernel)
    have nothing :
        ((capturing "wg-int").run (startCapturing sampleSelf)
          [.sync ⟨syncAt "100.64.0.2", {}, {}⟩]).capture.flowOf movedPacket =
          none := by
      decide +kernel
    rw [nothing] at found
    cases found

end WgMesh.Flows
