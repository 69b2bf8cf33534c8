import Mathlib.Logic.Function.Basic
import WgMesh.CivilTime
import WgMesh.FiniteRuns

namespace WgMesh.Relay

/-!
# The UDP pair forwarder

Each leg of a pair is served by its own goroutine: it reads a datagram, learns
the sender's address, refreshes the pair and sends the datagram to the address
of the other leg.  The two goroutines share the learned addresses without a
lock, so their steps interleave.  Datagrams that are dropped at the first step
leave no trace.
-/

open CivilTime FiniteRuns

/-- The message types of WireGuard. -/
def msgInitiation : UInt8 := 1
def msgResponse : UInt8 := 2
def msgCookie : UInt8 := 3
def msgTransport : UInt8 := 4

/-- `wgShaped`. -/
def wgShaped (b : List UInt8) : Bool :=
  match b with
  | kind :: first :: second :: third :: _ =>
      if first != 0 || second != 0 || third != 0 then false
      else if kind = msgInitiation then b.length == 148
      else if kind = msgResponse then b.length == 92
      else if kind = msgCookie then b.length == 64
      else if kind = msgTransport then 32 ≤ b.length
      else false
  | _ => false

/-- The first byte says transport data. -/
def isTransport (b : List UInt8) : Bool :=
  b.head? == some msgTransport

/-- One of the two sides of a pair. -/
inductive Leg where
  | a
  | b
deriving DecidableEq

/-- The opposite side. -/
def Leg.other : Leg → Leg
  | .a => .b
  | .b => .a

variable {Addr : Type} [DecidableEq Addr]

/-- A datagram and the address it comes from. -/
structure Datagram (Addr : Type) where
  bytes : List UInt8
  src : Addr

/-- What a pair remembers: the latched addresses and its last activity. -/
structure Pair (Addr : Type) where
  src : Leg → Option Addr
  lastActive : Instant

/--
Learning from a datagram: the address that is latched after it, or nothing if
the datagram is dropped.
-/
def learn (cur : Option Addr) (datagram : Datagram Addr) : Option Addr :=
  if wgShaped datagram.bytes then
    match cur with
    | none => some datagram.src
    | some addr =>
        if addr = datagram.src then some addr
        else if isTransport datagram.bytes then none
        else some datagram.src
  else
    none

/--
One iteration of `forward` with nothing in between: the datagram that is sent
on, with its destination, and the pair after it.
-/
def Pair.forward
    (pair : Pair Addr)
    (leg : Leg)
    (datagram : Datagram Addr)
    (now : Instant) : Option (List UInt8 × Addr) × Pair Addr :=
  match learn (pair.src leg) datagram with
  | none => (none, pair)
  | some addr =>
      ((pair.src leg.other).map (fun dst => (datagram.bytes, dst)),
        { src := Function.update pair.src leg (some addr)
          lastActive := now })

/-- Where the goroutine of a leg stands. -/
inductive Stage (Addr : Type) where
  | reading
  | touching (packet : List UInt8)
  | resolving (packet : List UInt8)
  | sending (packet : List UInt8) (dst : Addr)

/-- A pair and its two goroutines. -/
structure Forwarder (Addr : Type) where
  pair : Pair Addr
  stage : Leg → Stage Addr

/-- A goroutine reads a datagram, or makes its next step. -/
inductive ForwardInput (Addr : Type) where
  | read (leg : Leg) (datagram : Datagram Addr)
  | go (leg : Leg) (now : Instant)

/-- What is seen of a step. -/
inductive ForwardEvent (Addr : Type) where
  | nothing
  | refreshed (now : Instant)
  | sent (leg : Leg) (packet : List UInt8) (dst : Addr)
deriving DecidableEq

/-- Put the goroutine of a leg at a stage. -/
def Forwarder.at (forwarder : Forwarder Addr) (leg : Leg)
    (stage : Stage Addr) : Forwarder Addr :=
  { forwarder with stage := Function.update forwarder.stage leg stage }

/-- The step of a goroutine past its read. -/
def Forwarder.go (forwarder : Forwarder Addr) (leg : Leg) (now : Instant) :
    ForwardEvent Addr × Forwarder Addr :=
  match forwarder.stage leg with
  | .reading => (.nothing, forwarder)
  | .touching packet =>
      (.refreshed now,
        { forwarder.at leg (.resolving packet) with
          pair := { forwarder.pair with lastActive := now } })
  | .resolving packet =>
      match forwarder.pair.src leg.other with
      | none => (.nothing, forwarder.at leg .reading)
      | some dst => (.nothing, forwarder.at leg (.sending packet dst))
  | .sending packet dst =>
      (.sent leg packet dst, forwarder.at leg .reading)

/-- A goroutine that is ready to read takes a datagram in. -/
def Forwarder.read (forwarder : Forwarder Addr) (leg : Leg)
    (datagram : Datagram Addr) : Forwarder Addr :=
  match forwarder.stage leg with
  | .reading =>
      match learn (forwarder.pair.src leg) datagram with
      | none => forwarder
      | some addr =>
          { forwarder.at leg (.touching datagram.bytes) with
            pair :=
              { forwarder.pair with
                src :=
                  Function.update forwarder.pair.src leg (some addr) } }
  | _ => forwarder

/-- What a step sends. -/
def ForwardEvent.sent? : ForwardEvent Addr → Option (List UInt8 × Addr)
  | .sent _ packet dst => some (packet, dst)
  | _ => none

/-- When a step refreshes the pair. -/
def ForwardEvent.refreshed? : ForwardEvent Addr → Option Instant
  | .refreshed now => some now
  | _ => none

/-- The two goroutines of a pair, in any interleaving. -/
def forwardMachine :
    Machine (Forwarder Addr) (ForwardInput Addr) (ForwardEvent Addr) where
  step forwarder input :=
    match input with
    | .read leg datagram => (.nothing, forwarder.read leg datagram)
    | .go leg now => forwarder.go leg now

theorem Leg.other_ne (leg : Leg) : leg.other ≠ leg := by
  cases leg <;> decide

variable {forwarder : Forwarder Addr}

/--
A goroutine that is not interrupted handles a datagram as one iteration of its
loop does.
-/
theorem run_uninterrupted
    {leg : Leg}
    (ready : forwarder.stage leg = .reading)
    (datagram : Datagram Addr)
    (now : Instant) :
    let inputs : List (ForwardInput Addr) :=
      [.read leg datagram, .go leg now, .go leg now, .go leg now]
    (forwardMachine.run forwarder inputs).pair =
        (forwarder.pair.forward leg datagram now).2 ∧
      (forwardMachine.visits forwarder inputs).filterMap
          (fun visit => visit.output.sent?) =
        (forwarder.pair.forward leg datagram now).1.toList := by
  cases learned : learn (forwarder.pair.src leg) datagram with
  | none =>
      simp [Machine.run, Machine.visits, Machine.visit, forwardMachine,
        Forwarder.read, Forwarder.go, ready, learned, Pair.forward,
        ForwardEvent.sent?]
  | some addr =>
      cases dst : forwarder.pair.src leg.other with
      | none =>
          simp [Machine.run, Machine.visits, Machine.visit, forwardMachine,
            Forwarder.read, Forwarder.go, Forwarder.at, ready, learned, dst,
            Pair.forward, ForwardEvent.sent?, leg.other_ne]
      | some target =>
          simp [Machine.run, Machine.visits, Machine.visit, forwardMachine,
            Forwarder.read, Forwarder.go, Forwarder.at, ready, learned, dst,
            Pair.forward, ForwardEvent.sent?, leg.other_ne]

/--
A datagram that has to be without influence: not of WireGuard's shape, or of
transport type on a leg that has latched another address.
-/
def Noise (forwarder : Forwarder Addr) : ForwardInput Addr → Prop
  | .read leg datagram =>
      wgShaped datagram.bytes = false ∨
        isTransport datagram.bytes = true ∧
          ∃ addr, forwarder.pair.src leg = some addr ∧ addr ≠ datagram.src
  | .go _ _ => False

theorem learn_noise
    {leg : Leg}
    {datagram : Datagram Addr}
    (noise : Noise forwarder (.read leg datagram)) :
    learn (forwarder.pair.src leg) datagram = none := by
  unfold learn
  rcases noise with junk | ⟨transport, addr, latched, different⟩
  · rw [if_neg (by simp [junk])]
  · by_cases shaped : wgShaped datagram.bytes = true
    · simp [latched, shaped, different, transport]
    · simp [shaped]

theorem step_noise
    {input : ForwardInput Addr}
    (noise : Noise forwarder input) :
    forwardMachine.step forwarder input = (.nothing, forwarder) := by
  cases input with
  | go leg now => exact noise.elim
  | read leg datagram =>
      simp only [forwardMachine, Forwarder.read, learn_noise noise]
      split <;> rfl

/-- The latched addresses after each visit. -/
def latches
    (visits :
      List (Visit (Forwarder Addr) (ForwardInput Addr)
        (ForwardEvent Addr))) : List (Leg → Option Addr) :=
  visits.map (fun visit => visit.after.pair.src)

/-- What the visits send, with the destinations. -/
def forwarded
    (visits :
      List (Visit (Forwarder Addr) (ForwardInput Addr)
        (ForwardEvent Addr))) : List (List UInt8 × Addr) :=
  visits.filterMap (fun visit => visit.output.sent?)

/-- When the visits refresh the pair. -/
def refreshes
    (visits :
      List (Visit (Forwarder Addr) (ForwardInput Addr)
        (ForwardEvent Addr))) : List Instant :=
  visits.filterMap (fun visit => visit.output.refreshed?)

/--
Junk and spoofed data packets do not influence a pair: from every state and in
every interleaving of the two goroutines, noise inserted anywhere changes
neither the latched addresses after each genuine step, nor what is forwarded
to whom, nor when the pair is refreshed.
-/
theorem noise_has_no_influence
    (forwarder : Forwarder Addr)
    (inputs : List (ForwardInput Addr × Bool))
    (inserts : forwardMachine.InsertsOnly Noise forwarder inputs) :
    let padded := forwardMachine.visits forwarder (inputs.map (·.1))
    let genuine :=
      forwardMachine.visits forwarder (Machine.genuine inputs)
    latches (forwardMachine.genuineVisits forwarder inputs) =
        latches genuine ∧
      forwarded padded = forwarded genuine ∧
      refreshes padded = refreshes genuine := by
  have silent :
      ∀ {Seen : Type} (observe : ForwardEvent Addr → Option Seen),
        observe .nothing = none →
        ∀ forwarder input, Noise forwarder input →
          (forwardMachine.step forwarder input).2 = forwarder ∧
            observe (forwardMachine.step forwarder input).1 = none := by
    intro Seen observe unseen state input noise
    rw [step_noise noise]
    exact ⟨rfl, unseen⟩
  have sends :=
    forwardMachine.genuineVisits_of_silent
      (silent ForwardEvent.sent? rfl) inserts
  have touches :=
    forwardMachine.genuineVisits_of_silent
      (silent ForwardEvent.refreshed? rfl) inserts
  exact ⟨congrArg latches sends.1, sends.2, touches.2⟩

/-- A spoofed data packet between two handshakes on a latched leg. -/
def spoofed : List (ForwardInput Nat × Bool) :=
  [(.read .a ⟨1 :: List.replicate 147 0, 1⟩, true), (.go .a 5, true),
    (.go .a 5, true),
    (.read .a ⟨4 :: List.replicate 63 0, 9⟩, false),
    (.read .b ⟨[71, 69, 84], 9⟩, false),
    (.read .b ⟨1 :: List.replicate 147 0, 2⟩, true), (.go .b 6, true),
    (.go .b 6, true), (.go .b 6, true)]

/-- A pair that has just been allocated. -/
def Forwarder.new : Forwarder Nat where
  pair := ⟨fun _ => none, 0⟩
  stage := fun _ => .reading

/-- The second handshake is forwarded to the sender of the first. -/
theorem noise_has_no_influence_spoofed :
    forwarded
        (forwardMachine.visits Forwarder.new (spoofed.map (·.1))) =
      [(1 :: List.replicate 147 0, 1)] := by
  have same :=
    (noise_has_no_influence Forwarder.new spoofed (by
      refine ⟨nofun, nofun, nofun,
        fun _ => Or.inr ⟨rfl, 1, by decide +kernel, by decide⟩,
        fun _ => Or.inl rfl, nofun, nofun, nofun, nofun, trivial⟩)).2.1
  rw [same]
  decide +kernel

end WgMesh.Relay
