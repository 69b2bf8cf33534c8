import Mathlib.Data.Finset.Card
import Mathlib.Data.Finset.Range
import WgMesh.FiniteRuns
import WgMesh.QUICFragments

namespace WgMesh.Relay

/-!
# Reassembly of interleaved fragments

What one end of a QUIC relay makes of fragments that arrive in any order, from
any number of packets and senders.  An assembly is described by the packet it is
of and the fragments that have been taken in.  Sequence numbers are all that
ties a fragment to its assembly, and every sender starts them afresh.
-/

open FiniteRuns

/-- A datagram that `udpToQUIC` cuts: it has read it into its buffer, given it
the next number, and passes over empty ones. -/
structure SentPacket where
  id : Nat
  bytes : List UInt8
  numbered : id < 2 ^ 32
  nonempty : bytes ≠ []
  fits : bytes.length ≤ 2 ^ 16
deriving DecidableEq

/-- How many fragments a packet has. -/
def SentPacket.count (packet : SentPacket) : Nat :=
  fragmentCount packet.bytes.length

/-- A fragment of a packet that arrives; `pick` is for the order of a map. -/
structure Arrival where
  packet : SentPacket
  index : Nat
  pick : Nat
  inside : index < packet.count

/-- Which fragment arrives. -/
def Arrival.label (arrival : Arrival) : SentPacket × Nat :=
  (arrival.packet, arrival.index)

/-- The frame that arrives, as `udpToQUIC` sent it. -/
def Arrival.frame (arrival : Arrival) : List UInt8 :=
  (fragments arrival.packet.id arrival.packet.bytes).getD arrival.index []

/-- All fragments of a packet. -/
def SentPacket.labels (packet : SentPacket) : List (SentPacket × Nat) :=
  (List.range packet.count).map (packet, ·)

/-- The loop of `quicToUDP`, one frame at a time. -/
def receiver : Machine Assemblies Arrival (Option (List UInt8)) where
  step assemblies arrival :=
    quicToUDP assemblies arrival.frame arrival.pick

/-- The assembly of a packet of which some fragments have been taken in. -/
def assemblyFrom (packet : SentPacket) (got : Finset Nat) : Assembly where
  parts :=
    (List.range packet.count).map
      (fun i => if i ∈ got then part packet.bytes i else [])
  seen := got.card

/-- Some fragments of a packet, but not all of them. -/
structure Incomplete (packet : SentPacket) (got : Finset Nat) : Prop where
  inside : got ⊆ Finset.range packet.count
  missing : got.card < packet.count

/-- What is pending under the number of a packet: nothing, or fragments of that
packet. -/
inductive Pending (packet : SentPacket) :
    Option Assembly → Finset Nat → Prop where
  | absent : Pending packet none ∅
  | held {got : Finset Nat} (incomplete : Incomplete packet got) :
      Pending packet (some (assemblyFrom packet got)) got

/-- The receiving end, with the packet whose fragment has started the assembly
under each number.  The loop itself does not know the packet. -/
structure Tracked where
  assemblies : Assemblies
  startedBy : Nat → Option SentPacket

/-- The loop of `quicToUDP`, keeping track of who started an assembly. -/
def tracking : Machine Tracked Arrival (Option (List UInt8)) where
  step state arrival :=
    let taken := receiver.step state.assemblies arrival
    (taken.1,
      { assemblies := taken.2
        startedBy :=
          if (state.assemblies.lookup arrival.packet.id).isSome then
            state.startedBy
          else
            Function.update state.startedBy arrival.packet.id
              (some arrival.packet) })

/-- The receiving end of a new proxy. -/
def Tracked.new : Tracked where
  assemblies := ∅
  startedBy := fun _ => none

/-- One frame of a run of the loop. -/
abbrev Reception := Visit Tracked Arrival (Option (List UInt8))

/-- What is pending under the number of the fragment that arrives was started
by a fragment of the same packet. -/
def Reception.Clean (reception : Reception) : Prop :=
  (reception.before.assemblies.lookup
      reception.input.packet.id).isSome = true →
    reception.before.startedBy reception.input.packet.id =
      some reception.input.packet

section Packets

variable (packet : SentPacket)

theorem SentPacket.count_bounds :
    0 < packet.count ∧ packet.count ≤ 255 := by
  have positive := List.length_pos_of_ne_nil packet.nonempty
  have fits := packet.fits
  unfold SentPacket.count fragmentCount quicFragmentPayload
  omega

/-- Every part of a packet has bytes. -/
theorem SentPacket.part_ne_nil
    {index : Nat}
    (inside : index < packet.count) :
    part packet.bytes index ≠ [] := by
  have starts : index * quicFragmentPayload < packet.bytes.length := by
    unfold SentPacket.count fragmentCount quicFragmentPayload at inside
    unfold quicFragmentPayload
    omega
  intro empty
  have length := congrArg List.length empty
  simp only [part, List.length_take, List.length_drop, List.length_nil]
    at length
  unfold quicFragmentPayload at length starts
  omega

/-- A frame is read as the fragment it carries. -/
theorem Arrival.header?_frame
    (arrival : Arrival) :
    header? arrival.frame =
      some
        { idx := arrival.index
          count := arrival.packet.count
          id := arrival.packet.id
          payload := part arrival.packet.bytes arrival.index } := by
  obtain ⟨positive, few⟩ := arrival.packet.count_bounds
  have isFragment :
      arrival.frame =
        fragment arrival.packet.id arrival.packet.count
          arrival.packet.bytes arrival.index := by
    have cut :
        ¬(fragmentCount arrival.packet.bytes.length = 0 ∨
          255 < fragmentCount arrival.packet.bytes.length) := by
      unfold SentPacket.count at positive few
      omega
    have inside := arrival.inside
    unfold SentPacket.count at inside
    unfold Arrival.frame fragments
    dsimp only
    rw [if_neg cut]
    simp [List.getD, inside, SentPacket.count]
  rw [isFragment]
  exact header?_fragment arrival.packet.numbered few arrival.inside _

theorem getD_assemblyFrom
    {got : Finset Nat}
    {index : Nat}
    (inside : index < packet.count) :
    (assemblyFrom packet got).parts.getD index [] =
      if index ∈ got then part packet.bytes index else [] := by
  simp [assemblyFrom, List.getD, inside]

/-- Taking in a fragment. -/
theorem set_assemblyFrom
    (got : Finset Nat)
    (index : Nat) :
    (assemblyFrom packet got).parts.set index (part packet.bytes index) =
      (assemblyFrom packet (insert index got)).parts := by
  refine List.ext_getElem (by simp [assemblyFrom]) ?_
  intro i _ _
  simp only [assemblyFrom, List.getElem_set, List.getElem_map,
    List.getElem_range, Finset.mem_insert]
  by_cases isIndex : index = i
  · rw [if_pos isIndex, if_pos (Or.inl isIndex.symm), isIndex]
  · rw [if_neg isIndex]
    refine if_congr ?_ rfl rfl
    simp [Ne.symm isIndex]

/-- An assembly of all fragments is the packet. -/
theorem flatten_assemblyFrom
    {got : Finset Nat}
    (inside : got ⊆ Finset.range packet.count)
    (all : got.card = packet.count) :
    (assemblyFrom packet got).parts.flatten = packet.bytes := by
  have isAll : got = Finset.range packet.count :=
    Finset.eq_of_subset_of_card_le inside
      (by rw [Finset.card_range, all])
  have parts :
      (assemblyFrom packet got).parts =
        (List.range packet.count).map (part packet.bytes) := by
    refine List.map_congr_left fun i member => ?_
    rw [if_pos]
    rw [isAll]
    exact Finset.mem_range.mpr (List.mem_range.mp member)
  rw [parts]
  exact flatten_all_parts packet.bytes

end Packets

/-! ## One frame -/

/-- A fragment that finds the assembly of its packet. -/
theorem takeFragment_assemblyFrom
    {assemblies : Assemblies}
    {packet : SentPacket}
    {got : Finset Nat}
    {index pick : Nat}
    (inside : index < packet.count)
    (incomplete : Incomplete packet got)
    {header : Header}
    (isHeader :
      header =
        { idx := index
          count := packet.count
          id := packet.id
          payload := part packet.bytes index })
    (found : (assemblyOf assemblies header pick).1 = assemblyFrom packet got) :
    takeFragment assemblies header pick =
      if index ∈ got then
        (none, (assemblyOf assemblies header pick).2)
      else if (insert index got).card = packet.count then
        (some packet.bytes,
          (assemblyOf assemblies header pick).2.erase packet.id)
      else
        (none,
          (assemblyOf assemblies header pick).2.insert packet.id
            (assemblyFrom packet (insert index got))) := by
  have places : (assemblyFrom packet got).parts.length = packet.count := by
    simp [assemblyFrom]
  unfold takeFragment
  dsimp only
  rw [found]
  subst isHeader
  dsimp only
  simp only [places, getD_assemblyFrom packet inside, set_assemblyFrom]
  by_cases known : index ∈ got
  · rw [if_pos known, if_pos known,
      if_pos (Or.inr (packet.part_ne_nil inside))]
  · have counted :
        (assemblyFrom packet got).seen + 1 = (insert index got).card :=
      (Finset.card_insert_of_notMem known).symm
    rw [if_neg known, if_neg known, if_neg (by simp), counted]
    by_cases complete : (insert index got).card = packet.count
    · have whole : insert index got ⊆ Finset.range packet.count :=
        Finset.insert_subset (Finset.mem_range.mpr inside) incomplete.inside
      rw [if_neg (not_not_intro complete), if_pos complete]
      simp only [flatten_assemblyFrom packet whole complete, packet.fits,
        if_true]
    · rw [if_pos complete, if_neg complete]
      rfl

variable {assemblies : Assemblies} {packet : SentPacket} {got : Finset Nat}
  {arrival : Arrival}

/-- The first fragment of a packet that arrives finds an empty assembly. -/
theorem assemblyOf_pending
    (pending : Pending packet (assemblies.lookup packet.id) got)
    {header : Header}
    (sameID : header.id = packet.id)
    (sameCount : header.count = packet.count)
    (pick : Nat) :
    (assemblyOf assemblies header pick).1 = assemblyFrom packet got := by
  unfold assemblyOf
  rw [sameID]
  generalize slot : assemblies.lookup packet.id = found at pending
  cases pending with
  | absent =>
      dsimp only
      rw [sameCount]
      simp [assemblyFrom, List.map_const']
  | held incomplete => rfl

theorem Pending.incomplete
    {slot : Option Assembly}
    (pending : Pending packet slot got) :
    Incomplete packet got := by
  cases pending with
  | absent =>
      exact ⟨Finset.empty_subset _, by simpa using packet.count_bounds.1⟩
  | held incomplete => exact incomplete

/-- What a frame does to the assembly of its packet: it completes the packet,
which is written, or is added to what is pending. -/
theorem Pending.receive
    (pending :
      Pending arrival.packet (assemblies.lookup arrival.packet.id) got) :
    let after := receiver.step assemblies arrival
    if (insert arrival.index got).card = arrival.packet.count then
      after.1 = some arrival.packet.bytes ∧
        after.2.lookup arrival.packet.id = none
    else
      after.1 = none ∧
        Pending arrival.packet (after.2.lookup arrival.packet.id)
          (insert arrival.index got) := by
  have incomplete := pending.incomplete
  have taken :=
    @takeFragment_assemblyFrom assemblies _ _ _ arrival.pick arrival.inside
      incomplete _ rfl (assemblyOf_pending pending rfl rfl _)
  have stepped :
      receiver.step assemblies arrival =
        takeFragment assemblies
          { idx := arrival.index
            count := arrival.packet.count
            id := arrival.packet.id
            payload := part arrival.packet.bytes arrival.index }
          arrival.pick := by
    simp only [receiver, quicToUDP, arrival.header?_frame]
  dsimp only
  rw [stepped, taken]
  by_cases known : arrival.index ∈ got
  · have same : insert arrival.index got = got := Finset.insert_eq_self.mpr known
    have missing := incomplete.missing
    rw [if_pos known, same, if_neg (by omega)]
    refine ⟨rfl, ?_⟩
    generalize slot : assemblies.lookup arrival.packet.id = found at pending
    cases pending with
    | absent => simp at known
    | held incomplete =>
        have kept :
            (assemblyOf assemblies
              { idx := arrival.index
                count := arrival.packet.count
                id := arrival.packet.id
                payload := part arrival.packet.bytes arrival.index }
              arrival.pick).2 = assemblies := by
          simp only [assemblyOf, slot]
        dsimp only
        rw [kept, slot]
        exact .held incomplete
  · rw [if_neg known]
    by_cases complete :
        (insert arrival.index got).card = arrival.packet.count
    · rw [if_pos complete, if_pos complete]
      exact ⟨rfl, AList.lookup_erase _ _⟩
    · have inside :
          insert arrival.index got ⊆ Finset.range arrival.packet.count :=
        Finset.insert_subset (Finset.mem_range.mpr arrival.inside)
          incomplete.inside
      have atMost := Finset.card_le_card inside
      rw [Finset.card_range] at atMost
      rw [if_neg complete, if_neg complete]
      refine ⟨rfl, ?_⟩
      dsimp only
      rw [AList.lookup_insert]
      exact .held ⟨inside, by omega⟩

theorem Arrival.header_ne
    {id : Nat}
    (arrival : Arrival)
    (other : arrival.packet.id ≠ id) :
    ∀ header, header? arrival.frame = some header → header.id ≠ id := by
  intro header read
  rw [arrival.header?_frame] at read
  cases read
  exact other

theorem lookup_receive_other
    {id : Nat}
    (other : arrival.packet.id ≠ id) :
    (receiver.step assemblies arrival).2.lookup id =
        assemblies.lookup id ∨
      (receiver.step assemblies arrival).2.lookup id = none := by
  rcases lookup_quicToUDP (arrival.header_ne other) arrival.pick with kept | made
  · exact Or.inl kept
  · rcases lookup_makeRoom assemblies arrival.pick id with same | removed
    · exact Or.inl (made.trans same)
    · exact Or.inr (made.trans removed)

theorem lookup_receive_room
    {id : Nat}
    (other : arrival.packet.id ≠ id)
    (room : assemblies.keys.length < 64) :
    (receiver.step assemblies arrival).2.lookup id =
      assemblies.lookup id := by
  have same : makeRoom assemblies arrival.pick = assemblies :=
    if_neg (Nat.not_le.mpr room)
  rcases lookup_quicToUDP (arrival.header_ne other) arrival.pick with kept | made
  · exact kept
  · rw [same] at made
    exact made

/-! ## Assemblies of one packet each -/

/-- Everything pending is of the packet that started it, and that packet is
known. -/
def Tracked.Sound (known : SentPacket → Prop) (state : Tracked) : Prop :=
  ∀ id, (state.assemblies.lookup id).isSome = true →
    ∃ packet got,
      state.startedBy id = some packet ∧ packet.id = id ∧ known packet ∧
        Pending packet (state.assemblies.lookup id) got

section Sound

variable
  {known : SentPacket → Prop} {state : Tracked} {arrival : Arrival}

/-- A clean arrival finds nothing, or fragments of its packet. -/
theorem Tracked.Sound.pending
    (sound : state.Sound known)
    (clean : Reception.Clean (tracking.visit state arrival)) :
    ∃ got,
      Pending arrival.packet
        (state.assemblies.lookup arrival.packet.id) got := by
  cases slot : state.assemblies.lookup arrival.packet.id with
  | none => exact ⟨∅, .absent⟩
  | some assembly =>
      have isThere :
          (state.assemblies.lookup arrival.packet.id).isSome = true := by
        rw [slot]
        rfl
      obtain ⟨packet, got, started, -, -, pending⟩ := sound _ isThere
      have samePacket : packet = arrival.packet :=
        Option.some.inj (started.symm.trans (clean isThere))
      rw [samePacket, slot] at pending
      exact ⟨got, pending⟩

theorem startedBy_arrival
    (clean : Reception.Clean (tracking.visit state arrival)) :
    (tracking.step state arrival).2.startedBy arrival.packet.id =
      some arrival.packet := by
  by_cases isThere :
      (state.assemblies.lookup arrival.packet.id).isSome = true
  · simp only [tracking, isThere, if_true]
    exact clean isThere
  · simp only [tracking, isThere, Bool.false_eq_true, if_false,
      Function.update_self]

theorem startedBy_other
    {id : Nat}
    (other : arrival.packet.id ≠ id) :
    (tracking.step state arrival).2.startedBy id = state.startedBy id := by
  by_cases isThere :
      (state.assemblies.lookup arrival.packet.id).isSome = true
  · simp only [tracking, isThere, if_true]
  · simp only [tracking, isThere, Bool.false_eq_true, if_false]
    exact Function.update_of_ne (Ne.symm other) _ _

/-- A clean arrival keeps everything pending of one packet each. -/
theorem Tracked.Sound.step
    (sound : state.Sound known)
    (clean : Reception.Clean (tracking.visit state arrival))
    (isKnown : known arrival.packet) :
    (tracking.step state arrival).2.Sound known := by
  intro id isThere
  have assemblies :
      (tracking.step state arrival).2.assemblies =
        (receiver.step state.assemblies arrival).2 :=
    rfl
  rw [assemblies] at isThere ⊢
  by_cases own : arrival.packet.id = id
  · subst own
    obtain ⟨got, pending⟩ := sound.pending clean
    have received := pending.receive
    dsimp only at received
    split at received
    · rw [received.2] at isThere
      cases isThere
    · exact ⟨arrival.packet, _, startedBy_arrival clean, rfl, isKnown,
        received.2⟩
  · rw [startedBy_other own]
    rcases lookup_receive_other own with kept | removed
    · rw [kept] at isThere ⊢
      exact sound id isThere
    · rw [removed] at isThere
      cases isThere

/-- What a clean arrival writes is its packet. -/
theorem Tracked.Sound.output
    (sound : state.Sound known)
    (clean : Reception.Clean (tracking.visit state arrival))
    {datagram : List UInt8}
    (written : (tracking.step state arrival).1 = some datagram) :
    datagram = arrival.packet.bytes := by
  obtain ⟨got, pending⟩ := sound.pending clean
  have received := pending.receive
  have output :
      (receiver.step state.assemblies arrival).1 = some datagram :=
    written
  dsimp only at received
  split at received
  · rw [received.1] at output
    exact (Option.some.inj output).symm
  · rw [received.1] at output
    cases output

end Sound

theorem sound_new
    (known : SentPacket → Prop) :
    Tracked.new.Sound known := by
  intro id isThere
  have missing : Tracked.new.assemblies.lookup id = none :=
    AList.lookup_empty id
  rw [missing] at isThere
  cases isThere

/-! ## Packets whose fragments all arrive -/

/-- At least some fragments of a packet have been taken in. -/
def Tracked.Holding (state : Tracked) (packet : SentPacket)
    (got : Finset Nat) : Prop :=
  got = ∅ ∨
    ∃ more,
      got ⊆ more ∧ Incomplete packet more ∧
        state.startedBy packet.id = some packet ∧
        state.assemblies.lookup packet.id =
          some (assemblyFrom packet more)

/-- While there is room, an arrival writes a packet or adds to what is held of
it. -/
theorem Tracked.Holding.step
    {known : SentPacket → Prop}
    {state : Tracked}
    (holding : state.Holding packet got)
    (sound : state.Sound known)
    (clean : Reception.Clean (tracking.visit state arrival))
    (room : state.assemblies.keys.length < 64) :
    if arrival.packet = packet then
      (tracking.step state arrival).1 = some packet.bytes ∨
        (tracking.step state arrival).2.Holding packet
          (insert arrival.index got)
    else
      (tracking.step state arrival).2.Holding packet got := by
  have assemblies :
      (tracking.step state arrival).2.assemblies =
        (receiver.step state.assemblies arrival).2 :=
    rfl
  split
  · rename_i own
    subst own
    have found :
        ∃ more,
          got ⊆ more ∧
            Pending arrival.packet
              (state.assemblies.lookup arrival.packet.id) more := by
      rcases holding with rfl | ⟨more, within, incomplete, -, slot⟩
      · obtain ⟨more, pending⟩ := sound.pending clean
        exact ⟨more, Finset.empty_subset _, pending⟩
      · rw [slot]
        exact ⟨more, within, .held incomplete⟩
    obtain ⟨more, within, pending⟩ := found
    have received := pending.receive
    dsimp only at received
    split at received
    · exact Or.inl received.1
    · refine Or.inr (Or.inr ⟨insert arrival.index more,
        Finset.insert_subset_insert _ within, received.2.incomplete,
        startedBy_arrival clean, ?_⟩)
      rw [assemblies]
      have after := received.2
      generalize slot :
        (receiver.step state.assemblies arrival).2.lookup
          arrival.packet.id = found at after
      generalize all : insert arrival.index more = added at after
      cases after with
      | absent => exact absurd all (Finset.insert_ne_empty _ _)
      | held => rfl
  · rename_i other
    rcases holding with rfl | ⟨more, within, incomplete, started, slot⟩
    · exact Or.inl rfl
    · -- A fragment of another packet under this number would not be clean.
      have otherID : arrival.packet.id ≠ packet.id := by
        intro sameID
        have isThere :
            (state.assemblies.lookup arrival.packet.id).isSome = true := by
          rw [sameID, slot]
          rfl
        have startedHere : state.startedBy arrival.packet.id =
            some arrival.packet := clean isThere
        rw [sameID, started] at startedHere
        exact other (Option.some.inj startedHere).symm
      refine Or.inr ⟨more, within, incomplete, ?_, ?_⟩
      · rw [startedBy_other otherID]
        exact started
      · rw [assemblies, lookup_receive_room otherID room]
        exact slot

/-- A packet is written once all its fragments have arrived, if there is room
for it all the time. -/
theorem Tracked.Holding.written
    {known : SentPacket → Prop}
    {state : Tracked}
    {packet : SentPacket}
    {got : Finset Nat}
    {window : List Arrival}
    (holding : state.Holding packet got)
    (sound : state.Sound known)
    (isKnown : ∀ arrival ∈ window, known arrival.packet)
    (clean :
      ∀ reception : Reception, reception ∈ tracking.visits state window →
        reception.Clean)
    (room :
      ∀ reception : Reception, reception ∈ tracking.visits state window →
        reception.before.assemblies.keys.length < 64)
    (all :
      ∀ index, index < packet.count →
        index ∈ got ∨
          ∃ arrival ∈ window, arrival.label = (packet, index)) :
    ∃ reception : Reception,
      reception ∈ tracking.visits state window ∧
        reception.input.packet = packet ∧
        reception.output = some packet.bytes := by
  induction window generalizing state got with
  | nil =>
      have whole : Finset.range packet.count ⊆ got := by
        intro index member
        rcases all index (Finset.mem_range.mp member) with
          isThere | ⟨arrival, impossible, -⟩
        · exact isThere
        · cases impossible
      have enough := Finset.card_le_card whole
      rw [Finset.card_range] at enough
      rcases holding with rfl | ⟨more, within, incomplete, -⟩
      · have positive := packet.count_bounds.1
        rw [Finset.card_empty] at enough
        omega
      · have missing := incomplete.missing
        have atLeast := Finset.card_le_card within
        omega
  | cons arrival rest inductionHypothesis =>
      have cleanHere : Reception.Clean (tracking.visit state arrival) :=
        clean _ List.mem_cons_self
      have stepped :=
        holding.step sound cleanHere (room _ List.mem_cons_self)
      have afterwards :
          ∀ {now : Finset Nat},
            (tracking.step state arrival).2.Holding packet now →
            (∀ index, index < packet.count →
              index ∈ now ∨
                ∃ later ∈ rest, later.label = (packet, index)) →
            ∃ reception : Reception,
              reception ∈ tracking.visits state (arrival :: rest) ∧
                reception.input.packet = packet ∧
                reception.output = some packet.bytes := by
        intro now held missing
        obtain ⟨reception, member, isPacket, output⟩ :=
          inductionHypothesis held
            (sound.step cleanHere (isKnown arrival List.mem_cons_self))
            (fun later inRest => isKnown later (List.mem_cons_of_mem _ inRest))
            (fun later inRest => clean later (List.mem_cons_of_mem _ inRest))
            (fun later inRest => room later (List.mem_cons_of_mem _ inRest))
            missing
        exact ⟨reception, List.mem_cons_of_mem _ member, isPacket, output⟩
      split at stepped
      · rename_i own
        rcases stepped with output | held
        · exact ⟨tracking.visit state arrival, List.mem_cons_self, own,
            output⟩
        · refine afterwards held fun index inside => ?_
          rcases all index inside with isThere | ⟨later, member, isLabel⟩
          · exact Or.inl (Finset.mem_insert_of_mem isThere)
          · rcases List.mem_cons.mp member with rfl | inRest
            · have sameIndex : later.index = index :=
                congrArg Prod.snd isLabel
              rw [sameIndex]
              exact Or.inl (Finset.mem_insert_self _ _)
            · exact Or.inr ⟨later, inRest, isLabel⟩
      · rename_i other
        refine afterwards stepped fun index inside => ?_
        rcases all index inside with isThere | ⟨later, member, isLabel⟩
        · exact Or.inl isThere
        · rcases List.mem_cons.mp member with rfl | inRest
          · exact absurd (congrArg Prod.fst isLabel) other
          · exact Or.inr ⟨later, inRest, isLabel⟩

/-! ## Packets of distinct numbers -/

theorem outputs_tracking
    (state : Tracked)
    (arrivals : List Arrival) :
    (tracking.visits state arrivals).map (·.output) =
      (receiver.visits state.assemblies arrivals).map (·.output) := by
  induction arrivals generalizing state with
  | nil => rfl
  | cons arrival rest inductionHypothesis =>
      simp only [Machine.visits, List.map_cons, inductionHypothesis]
      rfl

section Distinct

variable
  {packets : List SentPacket}
  (distinct : (packets.map (·.id)).Nodup)
  {state : Tracked} (sound : state.Sound (· ∈ packets))
include distinct sound

theorem clean_of_distinct
    {arrival : Arrival}
    (isPacket : arrival.packet ∈ packets) :
    Reception.Clean (tracking.visit state arrival) := by
  intro isThere
  obtain ⟨packet, got, started, sameID, known, -⟩ := sound _ isThere
  have same : packet = arrival.packet :=
    List.inj_on_of_nodup_map distinct known isPacket sameID
  rw [same] at started
  exact started

omit distinct in
/-- At most one assembly is pending for each packet. -/
theorem keys_length_le :
    state.assemblies.keys.length ≤ packets.length := by
  have within : state.assemblies.keys ⊆ packets.map (·.id) := by
    intro id member
    have isThere : (state.assemblies.lookup id).isSome = true :=
      AList.lookup_isSome.mpr (AList.mem_keys.mpr member)
    obtain ⟨packet, got, -, sameID, known, -⟩ := sound id isThere
    rw [← sameID]
    exact List.mem_map_of_mem known
  have bound :=
    (state.assemblies.nodupKeys.subperm within).length_le
  rwa [List.length_map] at bound

omit sound in
/-- What an arrival does to what is pending of a packet. -/
theorem pendingAfter_arrival
    {packet : SentPacket}
    (isPacket : packet ∈ packets)
    {arrival : Arrival}
    (arrived : arrival.packet ∈ packets)
    {more : Finset Nat}
    (pending :
      Pending packet (state.assemblies.lookup packet.id) more) :
    if arrival.packet = packet then
      ((tracking.step state arrival).1 = none ∨
          insert arrival.index more = Finset.range packet.count) ∧
        ∃ kept, kept ⊆ insert arrival.index more ∧
          Pending packet
            ((tracking.step state arrival).2.assemblies.lookup packet.id)
            kept
    else
      ∃ kept, kept ⊆ more ∧
        Pending packet
          ((tracking.step state arrival).2.assemblies.lookup packet.id)
          kept := by
  have assemblies :
      (tracking.step state arrival).2.assemblies =
        (receiver.step state.assemblies arrival).2 :=
    rfl
  rw [assemblies]
  split
  · rename_i own
    subst own
    have received := pending.receive
    dsimp only at received
    split at received
    · rename_i complete
      have inside :
          insert arrival.index more ⊆
            Finset.range arrival.packet.count :=
        Finset.insert_subset (Finset.mem_range.mpr arrival.inside)
          pending.incomplete.inside
      refine ⟨Or.inr (Finset.eq_of_subset_of_card_le inside ?_), ∅,
        Finset.empty_subset _, ?_⟩
      · rw [Finset.card_range, complete]
      · rw [received.2]
        exact .absent
    · exact ⟨Or.inl received.1, _, subset_rfl, received.2⟩
  · rename_i other
    have otherID : arrival.packet.id ≠ packet.id := fun same =>
      other (List.inj_on_of_nodup_map distinct arrived isPacket same)
    rcases lookup_receive_other otherID with kept | removed
    · rw [kept]
      exact ⟨more, subset_rfl, pending⟩
    · rw [removed]
      exact ⟨∅, Finset.empty_subset _, .absent⟩

omit sound in
/-- A packet that is written has had all its fragments arrive since its number
was free. -/
theorem arrived_of_written
    {packet : SentPacket}
    (isPacket : packet ∈ packets)
    {state : Tracked}
    (sound : state.Sound (· ∈ packets))
    {arrivals : List Arrival}
    (known : ∀ arrival ∈ arrivals, arrival.packet ∈ packets)
    {got : Finset Nat}
    (pending :
      ∃ more, more ⊆ got ∧
        Pending packet (state.assemblies.lookup packet.id) more)
    {reception : Reception}
    (member : reception ∈ tracking.visits state arrivals)
    (own : reception.input.packet = packet)
    (written : reception.output.isSome = true) :
    ∀ index, index < packet.count →
      index ∈ got ∨ (packet, index) ∈ arrivals.map (·.label) := by
  induction arrivals generalizing state got with
  | nil => cases member
  | cons arrival rest inductionHypothesis =>
      obtain ⟨more, within, pending⟩ := pending
      have arrived := known arrival List.mem_cons_self
      have stepped :=
        pendingAfter_arrival distinct isPacket arrived pending
      intro index inside
      rcases List.mem_cons.mp member with rfl | inRest
      · have own' : arrival.packet = packet := own
        rw [if_pos own'] at stepped
        rcases stepped.1 with silent | complete
        · have output :
              (tracking.visit state arrival).output = none :=
            silent
          rw [output] at written
          cases written
        · have isThere : index ∈ insert arrival.index more := by
            rw [complete]
            exact Finset.mem_range.mpr inside
          rcases Finset.mem_insert.mp isThere with rfl | old
          · refine Or.inr (List.mem_map.mpr
              ⟨arrival, List.mem_cons_self, ?_⟩)
            rw [Arrival.label, own']
          · exact Or.inl (within old)
      · have sound' :=
          sound.step (clean_of_distinct distinct sound arrived) arrived
        have knownLater :
            ∀ other ∈ rest, other.packet ∈ packets :=
          fun other inTail => known other (List.mem_cons_of_mem _ inTail)
        by_cases own' : arrival.packet = packet
        · rw [if_pos own'] at stepped
          obtain ⟨kept, subset, after⟩ := stepped.2
          rcases @inductionHypothesis _ sound' knownLater
              (insert arrival.index got)
              ⟨kept, subset.trans (Finset.insert_subset_insert _ within),
                after⟩
              inRest index inside with isThere | inLater
          · rcases Finset.mem_insert.mp isThere with rfl | old
            · refine Or.inr (List.mem_map.mpr
                ⟨arrival, List.mem_cons_self, ?_⟩)
              rw [Arrival.label, own']
            · exact Or.inl old
          · exact Or.inr (List.mem_cons_of_mem _ inLater)
        · rw [if_neg own'] at stepped
          obtain ⟨kept, subset, after⟩ := stepped
          rcases inductionHypothesis sound' knownLater
              ⟨kept, subset.trans within, after⟩ inRest index inside with
            isThere | inLater
          · exact Or.inl isThere
          · exact Or.inr (List.mem_cons_of_mem _ inLater)

end Distinct

/-- The packets that a run writes, in the order of their last fragments. -/
def writtenPackets (state : Tracked) (arrivals : List Arrival) :
    List SentPacket :=
  ((tracking.visits state arrivals).filter (·.output.isSome)).map
    (·.input.packet)

/-- A packet whose fragments arrive once each is written at most once. -/
theorem nodup_writtenPackets
    {packets : List SentPacket}
    (distinct : (packets.map (·.id)).Nodup)
    {state : Tracked}
    (sound : state.Sound (· ∈ packets))
    {arrivals : List Arrival}
    (known : ∀ arrival ∈ arrivals, arrival.packet ∈ packets)
    (once : (arrivals.map (·.label)).Nodup) :
    (writtenPackets state arrivals).Nodup := by
  induction arrivals generalizing state with
  | nil => exact List.nodup_nil
  | cons arrival rest inductionHypothesis =>
      have arrived := known arrival List.mem_cons_self
      have clean := clean_of_distinct distinct sound arrived
      have knownLater :
          ∀ other ∈ rest, other.packet ∈ packets :=
        fun other inTail => known other (List.mem_cons_of_mem _ inTail)
      obtain ⟨newLabel, restOnce⟩ := List.nodup_cons.mp once
      have sound' := sound.step clean arrived
      have rest' := inductionHypothesis sound' knownLater restOnce
      unfold writtenPackets
      simp only [Machine.visits, List.filter_cons]
      split
      case isFalse => exact rest'
      case isTrue isWritten =>
        refine List.nodup_cons.mpr ⟨?_, rest'⟩
        intro again
        obtain ⟨reception, written, own⟩ := List.mem_map.mp again
        obtain ⟨member, isSome⟩ := List.mem_filter.mp written
        obtain ⟨got, pending⟩ := sound.pending clean
        have received := pending.receive
        dsimp only at received
        split at received
        · -- The number is free again, so all fragments would come twice.
          have twice :=
            @arrived_of_written packets distinct arrival.packet arrived _
              sound' rest knownLater ∅
              ⟨∅, subset_rfl, by
                rw [show (tracking.step state arrival).2.assemblies =
                  (receiver.step state.assemblies arrival).2 from rfl,
                  received.2]
                exact .absent⟩
              reception member own isSome arrival.index arrival.inside
          rcases twice with impossible | inRest
          · exact absurd impossible (Finset.notMem_empty _)
          · exact newLabel inRest
        · have silent : (tracking.visit state arrival).output = none :=
            received.1
          rw [silent] at isWritten
          cases isWritten

/-- Where every output is the packet that was completed, the outputs are the
bytes of the completed packets. -/
theorem outputs_eq_bytes
    {receptions : List Reception}
    (faithful :
      ∀ reception, reception ∈ receptions →
        ∀ datagram, reception.output = some datagram →
          datagram = reception.input.packet.bytes) :
    receptions.filterMap (·.output) =
      ((receptions.filter (·.output.isSome)).map (·.input.packet)).map
        (·.bytes) := by
  induction receptions with
  | nil => rfl
  | cons reception rest inductionHypothesis =>
      have restSame :=
        inductionHypothesis fun later inRest =>
          faithful later (List.mem_cons_of_mem _ inRest)
      cases written : reception.output with
      | none =>
          rw [List.filterMap_cons_none written, restSame,
            List.filter_cons_of_neg (by rw [written]; exact Bool.noConfusion)]
      | some datagram =>
          rw [List.filterMap_cons_some written, restSame,
            List.filter_cons_of_pos (by rw [written]; rfl),
            faithful reception List.mem_cons_self datagram written]
          rfl

/-- Fragments of different packets differ. -/
theorem nodup_labels
    {packets : List SentPacket}
    (distinct : packets.Nodup) :
    (packets.flatMap (·.labels)).Nodup := by
  refine List.nodup_flatMap.mpr ⟨?_, ?_⟩
  · intro packet _
    refine List.Nodup.map ?_ List.nodup_range
    intro first second same
    exact congrArg Prod.snd same
  · refine distinct.imp ?_
    intro first second different label inFirst inSecond
    obtain ⟨_, -, rfl⟩ := List.mem_map.mp inFirst
    obtain ⟨_, -, same⟩ := List.mem_map.mp inSecond
    exact different (congrArg Prod.fst same).symm

/--
Of fewer than 64 packets with distinct numbers every fragment arrives once, in
any order.  Then each packet is written exactly once, with its bytes, and
nothing else is.
-/
theorem fragments_roundtrip
    (packets : List SentPacket)
    (distinct : (packets.map (·.id)).Nodup)
    (few : packets.length < 64)
    (arrivals : List Arrival)
    (delivery :
      (arrivals.map (·.label)).Perm (packets.flatMap (·.labels))) :
    ((receiver.visits ∅ arrivals).filterMap (·.output)).Perm
      (packets.map (·.bytes)) := by
  have known : ∀ arrival ∈ arrivals, arrival.packet ∈ packets := by
    intro arrival member
    obtain ⟨packet, isPacket, isLabel⟩ :=
      List.mem_flatMap.mp
        (delivery.mem_iff.mp (List.mem_map_of_mem member))
    obtain ⟨index, -, same⟩ := List.mem_map.mp isLabel
    have samePacket : packet = arrival.packet := congrArg Prod.fst same
    exact samePacket ▸ isPacket
  have once : (arrivals.map (·.label)).Nodup :=
    delivery.nodup_iff.mpr (nodup_labels (List.Nodup.of_map _ distinct))
  obtain ⟨-, sound⟩ :=
    @Machine.visits_invariant _ _ _ tracking
      (Tracked.Sound (· ∈ packets)) (fun _ arrival => arrival.packet ∈ packets)
      (fun _ _ sound arrived =>
        sound.step (clean_of_distinct distinct sound arrived) arrived)
      Tracked.new (sound_new _) arrivals
      (fun reception member => by
        obtain ⟨past, future, shape, -⟩ :=
          tracking.exists_prefix_of_mem_visits member
        exact known reception.input (by rw [shape]; simp))
  have clean :
      ∀ reception : Reception,
        reception ∈ tracking.visits Tracked.new arrivals →
          reception.Clean := by
    intro reception member
    have soundHere := sound reception member
    obtain ⟨past, future, shape, isVisit⟩ :=
      tracking.exists_prefix_of_mem_visits member
    have arrived := known reception.input (by rw [shape]; simp)
    rw [isVisit] at soundHere ⊢
    exact clean_of_distinct distinct soundHere arrived
  have outputs :
      (receiver.visits ∅ arrivals).filterMap (·.output) =
        (writtenPackets Tracked.new arrivals).map (·.bytes) := by
    have sameOutputs :=
      congrArg (List.filterMap id) (outputs_tracking Tracked.new arrivals)
    simp only [List.filterMap_map, Function.id_comp] at sameOutputs
    refine sameOutputs.symm.trans (outputs_eq_bytes ?_)
    intro reception member datagram written
    have soundHere := sound reception member
    have cleanHere := clean reception member
    obtain ⟨past, future, -, isVisit⟩ :=
      tracking.exists_prefix_of_mem_visits member
    rw [isVisit] at soundHere cleanHere written ⊢
    exact soundHere.output cleanHere written
  have isWritten :
      ∀ packet, packet ∈ writtenPackets Tracked.new arrivals ↔
        packet ∈ packets := by
    intro packet
    refine ⟨?_, ?_⟩
    · intro written
      obtain ⟨reception, member, rfl⟩ := List.mem_map.mp written
      obtain ⟨past, future, shape, -⟩ :=
        tracking.exists_prefix_of_mem_visits (List.mem_filter.mp member).1
      exact known reception.input (by rw [shape]; simp)
    · intro isPacket
      obtain ⟨reception, member, own, output⟩ :=
        @Tracked.Holding.written _ _ packet ∅ _ (Or.inl rfl)
          (sound_new (· ∈ packets)) known clean
          (fun reception member =>
            (keys_length_le (sound reception member)).trans_lt few)
          (fun index inside => by
            have isLabel : (packet, index) ∈ arrivals.map (·.label) :=
              delivery.mem_iff.mpr (List.mem_flatMap.mpr
                ⟨packet, isPacket, List.mem_map_of_mem
                  (List.mem_range.mpr inside)⟩)
            exact Or.inr (List.mem_map.mp isLabel))
      refine List.mem_map.mpr
        ⟨reception, List.mem_filter.mpr ⟨member, ?_⟩, own⟩
      rw [output]
      rfl
  rw [outputs]
  refine List.Perm.map _ ((List.perm_ext_iff_of_nodup ?_ ?_).mpr isWritten)
  · exact nodup_writtenPackets distinct (sound_new _) known once
  · exact List.Nodup.of_map _ distinct

/-- A packet of two fragments, all of whose bytes are the same. -/
def twoFragments (byte : UInt8) : SentPacket where
  id := 1
  bytes := List.replicate 1001 byte
  numbered := by decide
  nonempty := List.cons_ne_nil _ _
  fits := by
    rw [List.length_replicate]
    decide

theorem count_twoFragments
    (byte : UInt8) :
    (twoFragments byte).count = 2 := by
  unfold SentPacket.count twoFragments
  rw [List.length_replicate]
  rfl

/-- A fragment of such a packet. -/
def arriving (byte : UInt8) (index : Fin 2) : Arrival where
  packet := twoFragments byte
  index := index
  pick := 0
  inside := by
    rw [count_twoFragments]
    exact index.isLt

/-- The next packet of the same sender. -/
def nextPacket : SentPacket :=
  { twoFragments 2 with id := 2, numbered := by decide }

/-- A fragment of that packet. -/
def arrivingNext (index : Fin 2) : Arrival where
  packet := nextPacket
  index := index
  pick := 0
  inside := (count_twoFragments 2).symm ▸ index.isLt

/-- The fragments of two packets, interleaved and in the other order. -/
def interleaved : List Arrival :=
  [arriving 1 1, arrivingNext 1, arriving 1 0, arrivingNext 0]

/-- Two packets whose fragments are interleaved. -/
theorem fragments_roundtrip_interleaved :
    ((receiver.visits ∅ interleaved).filterMap (·.output)).Perm
      [(twoFragments 1).bytes, nextPacket.bytes] := by
  refine
    fragments_roundtrip [twoFragments 1, nextPacket] (by decide) (by decide)
      interleaved ?_
  have labels :
      [twoFragments 1, nextPacket].flatMap (·.labels) =
        [(twoFragments 1, 0), (twoFragments 1, 1), (nextPacket, 0),
          (nextPacket, 1)] := by
    have next : nextPacket.count = 2 := count_twoFragments 2
    simp [SentPacket.labels, count_twoFragments, next, List.range_succ]
  rw [labels]
  exact
    (@List.perm_middle _ (twoFragments 1, 0)
      [(twoFragments 1, 1), (nextPacket, 1)] [(nextPacket, 0)]).trans
        (.cons _ (.cons _ (.swap _ _ [])))

/-! ## Successive senders -/

/-- A sender that read some datagrams has sent a packet: the number is the
place in what it read, as an `uint32`, and counts from one. -/
def SentBy (read : List (List UInt8)) (packet : SentPacket) : Prop :=
  ∃ position,
    read[position]? = some packet.bytes ∧
      packet.id = (position + 1) % 2 ^ 32

/--
Fragments of successive senders arrive in any order, some of them not at all,
and none finds fragments of another packet pending under its number.  Then only
packets that a sender read are written, and a packet is written once all its
fragments have arrived while fewer than 64 packets were pending.
-/
theorem reassembly_faithful
    (senders : List (List (List UInt8)))
    (arrivals : List Arrival)
    (sent :
      ∀ arrival, arrival ∈ arrivals →
        ∃ read ∈ senders, SentBy read arrival.packet)
    (clean :
      ∀ reception : Reception,
        reception ∈ tracking.visits Tracked.new arrivals →
          reception.Clean) :
    (∀ reception : Reception,
      reception ∈ tracking.visits Tracked.new arrivals →
        ∀ datagram, reception.output = some datagram →
          ∃ read ∈ senders, datagram ∈ read) ∧
      ∀ earlier window later packet,
        arrivals = earlier ++ window ++ later →
          (∀ index, index < packet.count →
            ∃ arrival, arrival ∈ window ∧
              arrival.label = (packet, index)) →
          (∀ reception : Reception,
            reception ∈
                tracking.visits (tracking.run Tracked.new earlier) window →
              reception.before.assemblies.keys.length < 64) →
          ∃ reception : Reception,
            reception ∈
                tracking.visits (tracking.run Tracked.new earlier) window ∧
              reception.input.packet = packet ∧
              reception.output = some packet.bytes := by
  have soundRuns :
      ∀ inputs,
        (∀ reception : Reception,
          reception ∈ tracking.visits Tracked.new inputs →
            reception.Clean) →
        (tracking.run Tracked.new inputs).Sound (fun _ => True) ∧
          ∀ reception : Reception,
            reception ∈ tracking.visits Tracked.new inputs →
              reception.before.Sound (fun _ => True) := by
    intro inputs cleanInputs
    refine
      @Machine.visits_invariant _ _ _ tracking
        (Tracked.Sound fun _ => True)
        (fun state arrival => Reception.Clean (tracking.visit state arrival))
        (fun _ _ sound allowed => sound.step allowed trivial)
        Tracked.new (sound_new _) inputs ?_
    intro reception member
    obtain ⟨past, future, -, isVisit⟩ :=
      tracking.exists_prefix_of_mem_visits member
    have cleanHere := cleanInputs reception member
    rw [isVisit] at cleanHere ⊢
    exact cleanHere
  refine ⟨?_, ?_⟩
  · intro reception member datagram written
    have sound := (soundRuns arrivals clean).2 reception member
    have cleanHere := clean reception member
    obtain ⟨past, future, shape, isVisit⟩ :=
      tracking.exists_prefix_of_mem_visits member
    obtain ⟨read, isSender, position, isRead, -⟩ :=
      sent reception.input (by rw [shape]; simp)
    rw [isVisit] at sound cleanHere written
    have isBytes := sound.output cleanHere written
    rw [isBytes]
    exact ⟨read, isSender, List.mem_of_getElem? isRead⟩
  · intro earlier window later packet shape all room
    have parts :
        tracking.visits Tracked.new arrivals =
          tracking.visits Tracked.new earlier ++
            tracking.visits (tracking.run Tracked.new earlier) window ++
            tracking.visits (tracking.run Tracked.new (earlier ++ window))
              later := by
      rw [shape, Machine.visits_append, Machine.visits_append]
    refine
      @Tracked.Holding.written (fun _ => True) _ _ ∅ _ (Or.inl rfl) ?_
        (fun _ _ => trivial) ?_ room
        (fun index inside => Or.inr (all index inside))
    · refine (soundRuns earlier fun reception member => clean reception ?_).1
      rw [parts]
      exact List.mem_append_left _ (List.mem_append_left _ member)
    · intro reception member
      refine clean reception ?_
      rw [parts]
      exact List.mem_append_left _ (List.mem_append_right _ member)

/-- A packet is put together while the fragments of another arrive. -/
theorem reassembly_faithful_interleaved :
    ∃ reception : Reception,
      reception ∈ tracking.visits Tracked.new interleaved ∧
        reception.input.packet = twoFragments 1 ∧
        reception.output = some (twoFragments 1).bytes := by
  refine
    (reassembly_faithful [[(twoFragments 1).bytes, nextPacket.bytes]]
      interleaved ?_ ?_).2 [] _ [] (twoFragments 1) rfl ?_ ?_
  · intro arrival member
    refine ⟨_, List.mem_singleton_self _, arrival.packet.id - 1, ?_⟩
    simp only [interleaved, List.mem_cons, List.not_mem_nil, or_false]
      at member
    rcases member with rfl | rfl | rfl | rfl <;> exact ⟨rfl, rfl⟩
  · intro reception member
    simp only [interleaved, Machine.visits, List.mem_cons, List.not_mem_nil,
      or_false] at member
    rcases member with rfl | rfl | rfl | rfl <;> unfold Reception.Clean <;>
      decide +kernel
  · intro index inside
    rw [count_twoFragments] at inside
    have isIndex : index = 0 ∨ index = 1 := by omega
    rcases isIndex with rfl | rfl
    · exact ⟨arriving 1 0, by simp [interleaved], rfl⟩
    · exact ⟨arriving 1 1, by simp [interleaved], rfl⟩
  · intro reception member
    simp only [interleaved, Machine.visits, Machine.run, List.mem_cons,
      List.not_mem_nil, or_false] at member
    rcases member with rfl | rfl | rfl | rfl <;> decide +kernel

/-- The second fragment of one sender's packet is lost, and the next sender's
fragments come under the same number: its second fragment completes a datagram
that neither of them has read. -/
theorem mixed_datagram_written :
    ((tracking.visits Tracked.new
          [arriving 1 0, arriving 2 1]).map (·.output)) =
        [none, some (List.replicate 1000 1 ++ [2])] ∧
      SentBy [(twoFragments 1).bytes] (twoFragments 1) ∧
      SentBy [(twoFragments 2).bytes] (twoFragments 2) ∧
      ¬∃ read,
        read ∈ [[(twoFragments 1).bytes], [(twoFragments 2).bytes]] ∧
          List.replicate 1000 1 ++ [2] ∈ read := by
  refine ⟨by decide +kernel, ⟨0, rfl, rfl⟩, ⟨0, rfl, rfl⟩, by decide +kernel⟩

end WgMesh.Relay
