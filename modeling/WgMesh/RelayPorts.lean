import WgMesh.PairKeys
import WgMesh.RelayForwarding
import WgMesh.RowTables

namespace WgMesh

/-!
# Relay ports and who uses them

A pair is given two ports of the configured range and loses them when it has
been idle.  Nobody tells the agents: they go on sending to the endpoint that
they were given last, whoever has the port by then.
-/

namespace PairKeys

end PairKeys

namespace Relay

open CivilTime FiniteRuns PairKeys RowTables TextScan

variable {Addr : Type}

/-- A pair with its ports. -/
structure LivePair (Addr : Type) where
  id : String
  port : Leg → Nat
  pair : Pair Addr

/-- `Server`: the live pairs, of distinct ids, on distinct ports. -/
structure Server (Addr : Type) where
  pairs : List (LivePair Addr)
  idsDistinct : (pairs.map (·.id)).Nodup
  portsDistinct : ∀ p q, p ∈ pairs → q ∈ pairs → ∀ leg side,
    p.port leg = q.port side → p.id = q.id ∧ leg = side

/-- `PortMin` and `PortMax`. -/
structure PortRange where
  portMin : Nat
  portMax : Nat

/-- A port that cannot be bound; `busy` are the ports of other programs. -/
def Server.taken (server : Server Addr) (busy : List Nat) (port : Nat) :
    Bool :=
  busy.contains port ||
    server.pairs.any (fun p => p.port .a == port || p.port .b == port)

/-- `listenUDP` with a configured range. -/
def listenUDP (range : PortRange) (taken : Nat → Bool) : Option Nat :=
  (List.range' range.portMin (range.portMax + 1 - range.portMin)).find?
    (fun port => !taken port)

/-- The lowest port of a range that can be bound. -/
structure LowestFree (range : PortRange) (taken : Nat → Bool) (port : Nat) :
    Prop where
  free : taken port = false
  lowest : ∀ lower, range.portMin ≤ lower → lower < port →
    taken lower = true

variable {port : Nat} {server : Server Addr} {busy : List Nat}
  {p : LivePair Addr}

/-- `listenUDP` binds the lowest free port. -/
theorem lowestFree_of_listenUDP
    {range : PortRange}
    {taken : Nat → Bool}
    (bound : listenUDP range taken = some port) :
    LowestFree range taken port := by
  obtain ⟨isFree, before, after, shape, refused⟩ :=
    List.find?_eq_some_iff_append.mp bound
  refine ⟨by simpa using isFree, fun lower inRange isLower => ?_⟩
  have member := List.mem_of_find?_eq_some bound
  have small := List.mem_range'_1.mp member
  have lowerMember :
      lower ∈ List.range' range.portMin
        (range.portMax + 1 - range.portMin) :=
    List.mem_range'_1.mpr ⟨inRange, by omega⟩
  -- The range is increasing, so a lower port stands before the bound one.
  have increasing :=
    @List.pairwise_lt_range' range.portMin
      (range.portMax + 1 - range.portMin) 1 (by decide)
  rw [shape] at lowerMember increasing
  rcases List.mem_append.mp lowerMember with isBefore | isAfter
  · simpa using refused lower isBefore
  · rcases List.mem_cons.mp isAfter with isPort | isLater
    · omega
    · have later :=
        (List.pairwise_cons.mp (List.pairwise_append.mp increasing).2.1).1
          lower isLater
      omega

/-- Change the pair with an id; its ports stay. -/
def Server.modify (server : Server Addr) (id : String)
    (update : Pair Addr → Pair Addr) : Server Addr where
  pairs :=
    updateWhere (fun p => p.id == id)
      (fun p => { p with pair := update p.pair }) server.pairs
  idsDistinct := by
    have same :
        (updateWhere (fun p => p.id == id)
            (fun p => { p with pair := update p.pair })
            server.pairs).map (·.id) =
          server.pairs.map (·.id) :=
      map_updateWhere server.pairs (fun _ => rfl)
    exact same ▸ server.idsDistinct
  portsDistinct := by
    intro p q pMember qMember
    obtain ⟨first, firstMember, rfl⟩ := mem_updateWhere.mp pMember
    obtain ⟨second, secondMember, rfl⟩ := mem_updateWhere.mp qMember
    have distinct :=
      server.portsDistinct first second firstMember secondMember
    split <;> split <;> exact distinct

/-- Close the pairs that do not satisfy a condition. -/
def Server.keep (server : Server Addr) (condition : LivePair Addr → Bool) :
    Server Addr where
  pairs := server.pairs.filter condition
  idsDistinct := server.idsDistinct.sublist (List.filter_sublist.map _)
  portsDistinct := fun p q pMember qMember =>
    server.portsDistinct p q (List.mem_filter.mp pMember).1
      (List.mem_filter.mp qMember).1

/-- Two ports that a server can bind for a new pair. -/
structure Server.Free (server : Server Addr) (id : String)
    (port : Leg → Nat) : Prop where
  newID : id ∉ server.pairs.map (·.id)
  unused : ∀ p ∈ server.pairs, ∀ leg side, p.port leg ≠ port side
  apart : port .a ≠ port .b

theorem Server.Free.leg_eq
    {id : String}
    {port : Leg → Nat}
    (free : server.Free id port)
    {leg side : Leg}
    (same : port leg = port side) :
    leg = side := by
  cases leg <;> cases side
  · rfl
  · exact (free.apart same).elim
  · exact (free.apart same.symm).elim
  · rfl

/-- Open a new pair on free ports. -/
def Server.open (server : Server Addr) (id : String) (port : Leg → Nat)
    (now : Instant) (free : server.Free id port) : Server Addr where
  pairs := server.pairs ++ [⟨id, port, ⟨fun _ => none, now⟩⟩]
  idsDistinct := by
    rw [List.map_append, List.map_singleton]
    exact List.nodup_append.mpr
      ⟨server.idsDistinct, List.nodup_singleton _, by
        intro old oldMember new newMember same
        rw [List.mem_singleton.mp newMember] at same
        change old = id at same
        exact free.newID (same ▸ oldMember)⟩
  portsDistinct := by
    intro p q pMember qMember leg side same
    rcases List.mem_append.mp pMember with pOld | pNew <;>
      rcases List.mem_append.mp qMember with qOld | qNew
    · exact server.portsDistinct p q pOld qOld leg side same
    · rw [List.mem_singleton.mp qNew] at same
      exact (free.unused p pOld leg side same).elim
    · rw [List.mem_singleton.mp pNew] at same
      exact (free.unused q qOld side leg same.symm).elim
    · rw [List.mem_singleton.mp pNew, List.mem_singleton.mp qNew] at same ⊢
      exact ⟨rfl, free.leg_eq same⟩

/-- The live pair with an id. -/
def Server.pair? (server : Server Addr) (id : String) :
    Option (LivePair Addr) :=
  rowWith? (·.id) id server.pairs

/-- Two ports, one for each leg. -/
def legPorts (portA portB : Nat) : Leg → Nat
  | .a => portA
  | .b => portB

theorem Server.unused_of_free
    (free : server.taken busy port = false)
    (member : p ∈ server.pairs)
    (leg : Leg) :
    p.port leg ≠ port := by
  simp only [taken, Bool.or_eq_false_iff, List.any_eq_false,
    Bool.or_eq_true, beq_iff_eq, not_or] at free
  cases leg
  · exact (free.2 p member).1
  · exact (free.2 p member).2

/-- Two ports that are bound one after the other are free for a new pair. -/
theorem Server.free_of_bound
    {id : String}
    {portA portB : Nat}
    (missing : server.pair? id = none)
    (first : server.taken busy portA = false)
    (second : (portB == portA || server.taken busy portB) = false) :
    server.Free id (legPorts portA portB) := by
  simp only [Bool.or_eq_false_iff, beq_eq_false_iff_ne] at second
  refine ⟨?_, ?_, fun same => second.1 same.symm⟩
  · intro member
    obtain ⟨p, pMember, isID⟩ := List.mem_map.mp member
    have absent := List.find?_eq_none.mp missing p pMember
    simp [isID] at absent
  · intro p member leg side
    cases side
    · exact server.unused_of_free first member leg
    · exact server.unused_of_free second.2 member leg

theorem Server.free_of_listenUDP
    {range : PortRange}
    {id : String}
    {portA portB : Nat}
    (missing : server.pair? id = none)
    (first : listenUDP range (server.taken busy) = some portA)
    (second :
      listenUDP range (fun port => port == portA || server.taken busy port) =
        some portB) :
    server.Free id (legPorts portA portB) :=
  free_of_bound missing (lowestFree_of_listenUDP first).free
    (lowestFree_of_listenUDP second).free

/-- `Allocate`: the ports of a pair, or nothing if the range is exhausted. -/
def Server.allocate (server : Server Addr) (range : PortRange)
    (busy : List Nat) (id : String) (now : Instant) :
    Option (Leg → Nat) × Server Addr :=
  match missing : server.pair? id with
  | some p =>
      (some p.port,
        server.modify id (fun pair => { pair with lastActive := now }))
  | none =>
      match first : listenUDP range (server.taken busy) with
      | none => (none, server)
      | some portA =>
          match second : listenUDP range
            (fun port => port == portA || server.taken busy port) with
          | none => (none, server)
          | some portB =>
              (some (legPorts portA portB),
                server.open id (legPorts portA portB) now
                  (free_of_listenUDP missing first second))

/-- `idleTimeout`. -/
def idleTimeout : Int := 600000000000

/-- One round of `cleanupLoop`. -/
def Server.cleanup (server : Server Addr) (now : Instant) : Server Addr :=
  server.keep (fun p => !decide (idleTimeout < now - p.pair.lastActive))

/-- What `Allocate` does to a server, and what it returns. -/
inductive Allocates (server : Server Addr) (range : PortRange)
    (busy : List Nat) (id : String) (now : Instant) :
    Option (Leg → Nat) → Server Addr → Prop where
  | found (p : LivePair Addr) (live : server.pair? id = some p) :
      Allocates server range busy id now (some p.port)
        (server.modify id (fun pair => { pair with lastActive := now }))
  | refused :
      Allocates server range busy id now none server
  | opened (portA portB : Nat)
      (missing : server.pair? id = none)
      (first : LowestFree range (server.taken busy) portA)
      (second :
        LowestFree range
          (fun port => port == portA || server.taken busy port) portB)
      (free : server.Free id (legPorts portA portB)) :
      Allocates server range busy id now (some (legPorts portA portB))
        (server.open id (legPorts portA portB) now free)

/-- `Allocate` finds the pair, opens it on the lowest free ports or fails. -/
theorem Server.allocates
    (server : Server Addr)
    (range : PortRange)
    (busy : List Nat)
    (id : String)
    (now : Instant) :
    Allocates server range busy id now
      (server.allocate range busy id now).1
      (server.allocate range busy id now).2 := by
  unfold allocate
  split
  · rename_i p live
    exact .found p live
  · rename_i missing
    split
    · exact .refused
    · rename_i portA first
      split
      · exact .refused
      · rename_i portB second
        exact .opened portA portB missing (lowestFree_of_listenUDP first)
          (lowestFree_of_listenUDP second)
          (free_of_listenUDP missing first second)

/-- The pair and the leg that a port belongs to. -/
def Server.listening (server : Server Addr) (port : Nat) :
    Option (LivePair Addr × Leg) :=
  server.pairs.findSome? (fun p =>
    if p.port .a = port then some (p, .a)
    else if p.port .b = port then some (p, .b)
    else none)

/-- A port that is listened on is the port of that leg of that live pair. -/
theorem Server.listening_port
    {leg : Leg}
    (found : server.listening port = some (p, leg)) :
    p ∈ server.pairs ∧ p.port leg = port := by
  obtain ⟨q, member, shape⟩ := List.exists_of_findSome?_eq_some found
  split at shape
  · rename_i isA
    cases shape
    exact ⟨member, isA⟩
  · split at shape
    · rename_i isB
      cases shape
      exact ⟨member, isB⟩
    · cases shape

theorem Server.mem_modify
    {id : String}
    {update : Pair Addr → Pair Addr}
    (member : p ∈ (server.modify id update).pairs) :
    ∃ old ∈ server.pairs, p.id = old.id ∧ p.port = old.port ∧
      p.pair = if old.id = id then update old.pair else old.pair := by
  obtain ⟨old, oldMember, rfl⟩ := mem_updateWhere.mp member
  refine ⟨old, oldMember, ?_⟩
  by_cases isPair : old.id = id
  · simp [isPair]
  · simp [isPair]

/-- The leg of the pair that an agent uses: port A serves the smaller key. -/
def legOf (own target : Key) : Leg :=
  if textLess target.text own.text then .b else .a

/--
The relay, the endpoint each agent was last given for each peer, and who
latched the address of each leg.
-/
structure World (Addr : Type) where
  server : Server Addr
  endpoints : Key → Key → Option Nat
  latchedBy : String → Leg → Option Key

/-- What can happen to the relay. -/
inductive WorldInput (Addr : Type) where
  | relayPair (own target : Key) (busy : List Nat) (now : Instant)
  | cleanup (now : Instant)
  | send (own target : Key) (datagram : Datagram Addr) (now : Instant)

/-- A datagram that is written out on a leg of a pair. -/
structure Written (Addr : Type) where
  pairID : String
  leg : Leg
  packet : List UInt8
  dst : Addr
deriving DecidableEq

/-- An agent is given its port of a pair, or an error. -/
def World.granted (world : World Addr) (own target : Key)
    (ports : Option (Leg → Nat)) (server : Server Addr) : World Addr where
  server := server
  endpoints :=
    match ports with
    | none => world.endpoints
    | some port => fun first second =>
        if first = own ∧ second = target then
          some (port (legOf own target))
        else world.endpoints first second
  latchedBy := world.latchedBy

/-- A datagram of an agent reaches a port. -/
def World.deliver [DecidableEq Addr] (world : World Addr) (own : Key)
    (port : Nat) (datagram : Datagram Addr) (now : Instant) :
    Option (Written Addr) × World Addr :=
  match world.server.listening port with
  | none => (none, world)
  | some (p, leg) =>
      let next := p.pair.forward leg datagram now
      (next.1.map (fun sent => ⟨p.id, leg.other, sent.1, sent.2⟩),
        { world with
          server := world.server.modify p.id (fun _ => next.2)
          latchedBy :=
            if next.2.src leg = p.pair.src leg then world.latchedBy
            else fun id side =>
              if id = p.id ∧ side = leg then some own
              else world.latchedBy id side })

/--
The relay and its agents.  An agent sends to the endpoint that
`handleRelayPair` last returned to it for a peer.
-/
def worldMachine [DecidableEq Addr] (range : PortRange)
    (digest : String → String) :
    Machine (World Addr) (WorldInput Addr) (Option (Written Addr)) where
  step world input :=
    match input with
    | .relayPair own target busy now =>
        let outcome :=
          world.server.allocate range busy
            (relayPairID digest own.text target.text) now
        (none, world.granted own target outcome.1 outcome.2)
    | .cleanup now => (none, { world with server := world.server.cleanup now })
    | .send own target datagram now =>
        match world.endpoints own target with
        | none => (none, world)
        | some port => world.deliver own port datagram now

/-- A relay that was just started. -/
def World.new : World Addr where
  server := ⟨[], List.nodup_nil, nofun⟩
  endpoints := fun _ _ => none
  latchedBy := fun _ _ => none

/--
What keeps pairs apart: whoever was last given a live port uses it for that
pair and on that leg, and so did whoever latched an address.
-/
structure World.Sound (digest : String → String) (world : World Addr) :
    Prop where
  holders : ∀ p ∈ world.server.pairs, ∀ leg own target,
    world.endpoints own target = some (p.port leg) →
      relayPairID digest own.text target.text = p.id ∧
        legOf own target = leg
  latched : ∀ p ∈ world.server.pairs, ∀ leg,
    p.pair.src leg ≠ none →
      ∃ own target, world.latchedBy p.id leg = some own ∧
        relayPairID digest own.text target.text = p.id ∧
        legOf own target = leg

/--
A request that opens a new pair finds, as the two lowest free ports, no port
that an agent was last given for another pair or for the other leg.
-/
def Unclaimed (range : PortRange) (digest : String → String)
    (world : World Addr) : WorldInput Addr → Prop
  | .relayPair own target busy _ =>
      world.server.pair? (relayPairID digest own.text target.text) = none →
        ∀ portA portB,
          LowestFree range (world.server.taken busy) portA →
          LowestFree range
            (fun port => port == portA || world.server.taken busy port)
            portB →
          ∀ leg first second,
            world.endpoints first second = some (legPorts portA portB leg) →
              relayPairID digest first.text second.text =
                  relayPairID digest own.text target.text ∧
                legOf first second = leg
  | _ => True

section Steps

variable
  {range : PortRange}
  {digest : String → String}
  {world : World Addr}

variable {own target : Key} {server : Server Addr}

/-- A request keeps the pairs apart if its new ports are unclaimed. -/
theorem World.Sound.granted
    (sound : world.Sound digest)
    {busy : List Nat}
    {now : Instant}
    {ports : Option (Leg → Nat)}
    (unclaimed :
      Unclaimed range digest world (.relayPair own target busy now))
    (allocates :
      Allocates world.server range busy
        (relayPairID digest own.text target.text) now ports server) :
    (world.granted own target ports server).Sound digest := by
  cases allocates with
  | refused => exact ⟨sound.holders, sound.latched⟩
  | found p live =>
      obtain ⟨pMember, isID⟩ := mem_of_rowWith? live
      refine ⟨fun q member leg first second held => ?_,
        fun q member leg isLatched => ?_⟩
      · obtain ⟨old, oldMember, sameID, samePort, -⟩ :=
          Server.mem_modify member
        rw [samePort] at held
        rw [sameID]
        simp only [World.granted] at held
        split at held
        · rename_i isOwn
          have same :=
            world.server.portsDistinct p old pMember oldMember
              (legOf own target) leg (Option.some.inj held)
          rw [isOwn.1, isOwn.2, ← same.1]
          exact ⟨isID.symm, same.2⟩
        · exact sound.holders old oldMember leg first second held
      · obtain ⟨old, oldMember, sameID, -, pairShape⟩ :=
          Server.mem_modify member
        rw [sameID]
        refine sound.latched old oldMember leg ?_
        rw [pairShape] at isLatched
        split at isLatched <;> exact isLatched
  | opened portA portB missing lowest next free =>
      have unclaimedPorts := unclaimed missing portA portB lowest next
      refine ⟨fun q member leg first second held => ?_,
        fun q member leg isLatched => ?_⟩
      · simp only [World.granted] at held
        rcases List.mem_append.mp member with old | new
        · split at held
          · exact (free.unused q old leg (legOf own target)
              (Option.some.inj held).symm).elim
          · exact sound.holders q old leg first second held
        · rw [List.mem_singleton.mp new] at held ⊢
          split at held
          · rename_i isOwn
            rw [isOwn.1, isOwn.2]
            exact ⟨rfl, free.leg_eq (Option.some.inj held)⟩
          · exact unclaimedPorts leg first second held
      · rcases List.mem_append.mp member with old | new
        · exact sound.latched q old leg isLatched
        · rw [List.mem_singleton.mp new] at isLatched
          exact (isLatched rfl).elim

theorem World.Sound.cleanup
    (sound : world.Sound digest)
    (now : Instant) :
    World.Sound digest
      { world with server := world.server.cleanup now } where
  holders := fun p member =>
    sound.holders p (List.mem_filter.mp member).1
  latched := fun p member =>
    sound.latched p (List.mem_filter.mp member).1

theorem Server.eq_of_id
    {p q : LivePair Addr}
    (pMember : p ∈ server.pairs)
    (qMember : q ∈ server.pairs)
    (same : p.id = q.id) :
    p = q :=
  List.inj_on_of_nodup_map server.idsDistinct pMember qMember same

variable [DecidableEq Addr]

theorem Pair.forward_other
    (pair : Pair Addr)
    {leg side : Leg}
    (different : side ≠ leg)
    (datagram : Datagram Addr)
    (now : Instant) :
    (pair.forward leg datagram now).2.src side = pair.src side := by
  unfold forward
  split
  · rfl
  · exact Function.update_of_ne different _ _

/-- A datagram of an agent keeps the pairs apart. -/
theorem World.Sound.deliver
    (sound : world.Sound digest)
    {port : Nat}
    (holds : world.endpoints own target = some port)
    (datagram : Datagram Addr)
    (now : Instant) :
    World.Sound digest (world.deliver own port datagram now).2 := by
  unfold World.deliver
  cases found : world.server.listening port with
  | none => exact sound
  | some place =>
      obtain ⟨p, leg⟩ := place
      obtain ⟨pMember, isPort⟩ := Server.listening_port found
      have used := sound.holders p pMember leg own target (isPort ▸ holds)
      refine ⟨fun q member side first second held => ?_,
        fun q member side isLatched => ?_⟩
      · obtain ⟨old, oldMember, sameID, samePort, -⟩ :=
          Server.mem_modify member
        rw [samePort] at held
        rw [sameID]
        exact sound.holders old oldMember side first second held
      · obtain ⟨old, oldMember, sameID, -, pairShape⟩ :=
          Server.mem_modify member
        rw [sameID]
        by_cases isPair : old.id = p.id
        · have same := Server.eq_of_id oldMember pMember isPair
          subst same
          rw [pairShape, if_pos rfl] at isLatched
          simp only
          by_cases isLeg : side = leg
          · subst isLeg
            by_cases kept :
                (old.pair.forward side datagram now).2.src side =
                  old.pair.src side
            · rw [if_pos kept]
              exact sound.latched old oldMember side (kept ▸ isLatched)
            · rw [if_neg kept]
              exact ⟨own, target, if_pos ⟨rfl, rfl⟩, used⟩
          · rw [Pair.forward_other _ isLeg] at isLatched
            split
            · exact sound.latched old oldMember side isLatched
            · simp only [isLeg, and_false, if_false]
              exact sound.latched old oldMember side isLatched
        · rw [pairShape, if_neg isPair] at isLatched
          simp only
          split
          · exact sound.latched old oldMember side isLatched
          · simp only [isPair, false_and, if_false]
            exact sound.latched old oldMember side isLatched

/-- Every step of a run keeps the pairs apart if its ports are unclaimed. -/
theorem World.Sound.step
    (sound : world.Sound digest)
    (input : WorldInput Addr)
    (unclaimed : Unclaimed range digest world input) :
    World.Sound digest ((worldMachine range digest).step world input).2 := by
  cases input with
  | relayPair own target busy now =>
      exact sound.granted unclaimed (world.server.allocates range busy _ now)
  | cleanup now => exact sound.cleanup now
  | send own target datagram now =>
      simp only [worldMachine]
      cases holds : world.endpoints own target with
      | none => exact sound
      | some port => exact sound.deliver holds datagram now

end Steps

end Relay

end WgMesh
