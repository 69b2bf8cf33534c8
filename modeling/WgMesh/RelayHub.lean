import Mathlib.Data.List.AList
import WgMesh.FiniteRuns

namespace WgMesh.Relay

/-!
# The hub that brings two relayed connections together

`WSHub` keeps, per pair id, the connections of the pair's members.  Its three
operations hold one lock, so they are atomic; between them any number of
`Serve` calls interleave.  This module models the operations and the calls, and
proves what every interleaving keeps.
-/

open FiniteRuns

variable {Conn Frame : Type}

/-- `wsPair`: the connections of a pair, by member id. -/
abbrev WSPair (Conn : Type) : Type := AList (fun _ : String => Conn)

/-- `WSHub`: the pairs, by pair id. -/
abbrev WSHub (Conn : Type) : Type := AList (fun _ : String => WSPair Conn)

/-- The connection that a hub has registered for a member of a pair. -/
def WSHub.conn? (hub : WSHub Conn) (pairID memberID : String) :
    Option Conn :=
  (hub.lookup pairID).bind (fun members => members.lookup memberID)

/-- The connections of the members of a pair other than one. -/
def WSPair.others (members : WSPair Conn) (memberID : String) :
    List Conn :=
  (members.entries.filter (fun entry => entry.1 ≠ memberID)).map (·.2)

/-- What `join` does for a member it lets in. -/
structure Joined (Conn : Type) where
  evicted : Option Conn
  other : Option Conn
deriving DecidableEq

/-- `join`; `none` stands for `errPairFull`. -/
def WSHub.join
    (hub : WSHub Conn)
    (pairID memberID : String)
    (conn : Conn) : Option (Joined Conn) × WSHub Conn :=
  let hub :=
    match hub.lookup pairID with
    | none => hub.insert pairID ∅
    | some _ => hub
  let p := (hub.lookup pairID).getD ∅
  if memberID ∉ p ∧ 2 ≤ p.keys.length then
    (none, hub)
  else
    let members := p.insert memberID conn
    (some ⟨p.lookup memberID, (WSPair.others members memberID).getLast?⟩,
      hub.insert pairID members)

/-- `leave`. -/
def WSHub.leave
    [DecidableEq Conn]
    (hub : WSHub Conn)
    (pairID memberID : String)
    (conn : Conn) : WSHub Conn :=
  match hub.lookup pairID with
  | none => hub
  | some p =>
      let members :=
        if p.lookup memberID = some conn then p.erase memberID else p
      if members.keys.length = 0 then hub.erase pairID
      else hub.insert pairID members

/--
`peer`.  The loop over the members returns the first other one it meets;
`pick` stands for the order of the map.
-/
def WSHub.peer
    (hub : WSHub Conn)
    (pairID memberID : String)
    (pick : Nat) : Option Conn :=
  match hub.lookup pairID with
  | none => none
  | some p =>
      let others := WSPair.others p memberID
      others[pick % others.length]?

/-- Where a `Serve` call stands. -/
inductive Phase (Conn Frame : Type) where
  | joining
  | reading
  | resolving (frame : Frame)
  | sending (frame : Frame) (other : Conn)
  | leaving
  | returned

/-- The call has joined and has still to leave. -/
def Phase.Serves : Phase Conn Frame → Prop
  | .joining => False
  | .returned => False
  | _ => True

/-- A `Serve` call. -/
structure Session (Conn Frame : Type) where
  pairID : String
  memberID : String
  conn : Conn
  phase : Phase Conn Frame

/-- What a step of a call does. -/
inductive Event (Conn Frame : Type) where
  | idle
  | started
  | joined (joined : Joined Conn)
  | refused
  | read (frame : Frame)
  | ended
  | resolved (other : Option Conn)
  | wrote (frame : Frame) (other : Conn)
  | left
deriving DecidableEq

/--
The next step of `Serve`.  `read` is what reading the connection gives, an
error if nothing; a write that fails changes nothing.
-/
def serveStep
    [DecidableEq Conn]
    (hub : WSHub Conn)
    (session : Session Conn Frame)
    (read : Option Frame)
    (pick : Nat) : Event Conn Frame × WSHub Conn × Phase Conn Frame :=
  match session.phase with
  | .joining =>
      match hub.join session.pairID session.memberID session.conn with
      | (none, hub) => (.refused, hub, .returned)
      | (some joined, hub) => (.joined joined, hub, .reading)
  | .reading =>
      match read with
      | none => (.ended, hub, .leaving)
      | some frame => (.read frame, hub, .resolving frame)
  | .resolving frame =>
      match hub.peer session.pairID session.memberID pick with
      | none => (.resolved none, hub, .reading)
      | some other => (.resolved (some other), hub, .sending frame other)
  | .sending frame other => (.wrote frame other, hub, .reading)
  | .leaving =>
      (.left, hub.leave session.pairID session.memberID session.conn,
        .returned)
  | .returned => (.idle, hub, .returned)

/-- A hub and its calls. -/
structure HubState (Conn Frame : Type) where
  hub : WSHub Conn
  sessions : Nat → Option (Session Conn Frame)

/-- The next call starts, or a call makes its next step. -/
inductive HubInput (Conn Frame : Type) where
  | serve (call : Nat) (pairID memberID : String) (conn : Conn)
  | step (call : Nat) (read : Option Frame) (pick : Nat)

/-- The call that makes a step. -/
def HubInput.stepping : HubInput Conn Frame → Option Nat
  | .serve _ _ _ _ => none
  | .step call _ _ => some call

/-- Any number of `Serve` calls on one hub, one atomic step at a time. -/
def hubMachine [DecidableEq Conn] :
    Machine (HubState Conn Frame) (HubInput Conn Frame)
      (Event Conn Frame) where
  step state input :=
    match input with
    | .serve call pairID memberID conn =>
        match state.sessions call with
        | some _ => (.idle, state)
        | none =>
            (.started,
              { state with
                sessions :=
                  Function.update state.sessions call
                    (some ⟨pairID, memberID, conn, .joining⟩) })
    | .step call read pick =>
        match state.sessions call with
        | none => (.idle, state)
        | some session =>
            let next := serveStep state.hub session read pick
            (next.1,
              { hub := next.2.1
                sessions :=
                  Function.update state.sessions call
                    (some { session with phase := next.2.2 }) })

/-- `NewWSHub`, before the first call. -/
def HubState.new : HubState Conn Frame where
  hub := ∅
  sessions := fun _ => none

/-- The members of a pair, none if the hub has no entry. -/
def WSHub.members (hub : WSHub Conn) (pairID : String) : WSPair Conn :=
  (hub.lookup pairID).getD ∅

theorem WSHub.lookup_members
    (hub : WSHub Conn)
    (pairID memberID : String) :
    (hub.members pairID).lookup memberID = hub.conn? pairID memberID := by
  unfold members conn?
  cases hub.lookup pairID with
  | none => exact AList.lookup_empty _
  | some p => rfl

/-- The pair has two members, and a given one is not among them. -/
def WSHub.Full (hub : WSHub Conn) (pairID memberID : String) : Prop :=
  hub.conn? pairID memberID = none ∧ 2 ≤ (hub.members pairID).keys.length

variable {hub : WSHub Conn} {pairID memberID : String}

theorem WSHub.full_iff :
    (memberID ∉ hub.members pairID ∧
        2 ≤ (hub.members pairID).keys.length) ↔
      hub.Full pairID memberID := by
  rw [← AList.lookup_eq_none, hub.lookup_members]
  rfl

/-- `join` refuses a third member and leaves the hub alone. -/
theorem WSHub.join_of_full
    (full : hub.Full pairID memberID)
    (conn : Conn) :
    hub.join pairID memberID conn = (none, hub) := by
  have check := full_iff.mpr full
  cases found : hub.lookup pairID with
  | none => simp [members, found] at check
  | some p =>
      simp only [members, found, Option.getD_some] at check
      simp only [join, found, Option.getD_some]
      rw [if_pos check]

/-- `join` registers every other member. -/
theorem WSHub.join_of_not_full
    (notFull : ¬ hub.Full pairID memberID)
    (conn : Conn) :
    ∃ joined,
      hub.join pairID memberID conn =
        (some joined,
          hub.insert pairID
            ((hub.members pairID).insert memberID conn)) := by
  have check := full_iff.not.mpr notFull
  refine ⟨⟨(hub.members pairID).lookup memberID,
    (WSPair.others ((hub.members pairID).insert memberID conn)
      memberID).getLast?⟩, ?_⟩
  cases found : hub.lookup pairID with
  | none =>
      simp only [members, found, Option.getD_none] at check
      simp only [join, found, AList.lookup_insert, Option.getD_some, members,
        Option.getD_none, AList.insert_insert]
      rw [if_neg check]
  | some p =>
      simp only [members, found, Option.getD_some] at check
      simp only [join, found, Option.getD_some, members]
      rw [if_neg check]

theorem WSHub.conn?_insert
    (hub : WSHub Conn)
    (pairID : String)
    (p : WSPair Conn)
    (otherPair otherMember : String) :
    WSHub.conn? (hub.insert pairID p) otherPair otherMember =
      if otherPair = pairID then p.lookup otherMember
      else hub.conn? otherPair otherMember := by
  unfold conn?
  by_cases same : otherPair = pairID
  · subst same
    rw [AList.lookup_insert, if_pos rfl]
    rfl
  · rw [AList.lookup_insert_ne same, if_neg same]

/-- What is registered after a member has joined. -/
theorem WSHub.conn?_joined
    (hub : WSHub Conn)
    (pairID memberID : String)
    (conn : Conn)
    (otherPair otherMember : String) :
    WSHub.conn?
        (hub.insert pairID ((hub.members pairID).insert memberID conn))
        otherPair otherMember =
      if otherPair = pairID ∧ otherMember = memberID then some conn
      else hub.conn? otherPair otherMember := by
  rw [conn?_insert]
  by_cases samePair : otherPair = pairID
  · subst samePair
    rw [if_pos rfl]
    by_cases sameMember : otherMember = memberID
    · subst sameMember
      rw [AList.lookup_insert, if_pos ⟨rfl, rfl⟩]
    · rw [AList.lookup_insert_ne sameMember, hub.lookup_members,
        if_neg (fun both => sameMember both.2)]
  · rw [if_neg samePair, if_neg (fun both => samePair both.1)]

section Leave

variable [DecidableEq Conn]

/-- The members that a leaving connection leaves behind. -/
def WSHub.remaining (hub : WSHub Conn) (pairID memberID : String)
    (conn : Conn) : WSPair Conn :=
  if hub.conn? pairID memberID = some conn then
    (hub.members pairID).erase memberID
  else
    hub.members pairID

theorem WSHub.leave_eq
    (hub : WSHub Conn)
    (pairID memberID : String)
    (conn : Conn) :
    hub.leave pairID memberID conn =
      match hub.lookup pairID with
      | none => hub
      | some _ =>
          if (hub.remaining pairID memberID conn).keys.length = 0 then
            hub.erase pairID
          else hub.insert pairID (hub.remaining pairID memberID conn) := by
  unfold leave remaining
  cases found : hub.lookup pairID with
  | none => rfl
  | some p => simp only [members, conn?, found, Option.getD_some,
      Option.bind_some]

/-- A remaining member keeps its connection. -/
theorem WSHub.lookup_remaining
    (hub : WSHub Conn)
    (pairID memberID : String)
    (conn : Conn)
    (otherMember : String) :
    (hub.remaining pairID memberID conn).lookup otherMember =
      if otherMember = memberID ∧ hub.conn? pairID memberID = some conn then
        none
      else hub.conn? pairID otherMember := by
  unfold remaining
  by_cases registered : hub.conn? pairID memberID = some conn
  · rw [if_pos registered]
    by_cases same : otherMember = memberID
    · subst same
      rw [AList.lookup_erase, if_pos ⟨rfl, registered⟩]
    · rw [AList.lookup_erase_ne same, hub.lookup_members,
        if_neg (fun both => same both.1)]
  · rw [if_neg registered, hub.lookup_members,
      if_neg (fun both => registered both.2)]

/-- What is registered after a connection has left. -/
theorem WSHub.conn?_leave
    (hub : WSHub Conn)
    (pairID memberID : String)
    (conn : Conn)
    (otherPair otherMember : String) :
    WSHub.conn? (hub.leave pairID memberID conn) otherPair otherMember =
      if otherPair = pairID ∧ otherMember = memberID ∧
          hub.conn? pairID memberID = some conn then none
      else hub.conn? otherPair otherMember := by
  rw [leave_eq]
  by_cases samePair : otherPair = pairID
  · subst samePair
    simp only [true_and]
    rw [← lookup_remaining]
    cases found : hub.lookup otherPair with
    | none =>
        have nothing : ∀ member, hub.conn? otherPair member = none := by
          intro member
          simp [conn?, found]
        rw [lookup_remaining, nothing, nothing]
        simp
    | some p =>
        simp only
        split
        · rename_i empty
          have noKeys := List.length_eq_zero_iff.mp empty
          have absent :
              otherMember ∉ hub.remaining otherPair memberID conn := by
            rw [AList.mem_keys, noKeys]
            exact List.not_mem_nil
          simp [conn?, AList.lookup_eq_none.mpr absent]
        · rw [conn?_insert, if_pos rfl]
  · have elsewhere :
        ¬ (otherPair = pairID ∧ otherMember = memberID ∧
          hub.conn? pairID memberID = some conn) :=
      fun both => samePair both.1
    simp only [elsewhere, if_false]
    cases found : hub.lookup pairID with
    | none => rfl
    | some p =>
        simp only
        split
        · unfold conn?
          rw [AList.lookup_erase_ne samePair]
        · rw [conn?_insert, if_neg samePair]

end Leave

/-- Every entry has one or two members. -/
def WSHub.Sized (hub : WSHub Conn) : Prop :=
  ∀ pairID p, hub.lookup pairID = some p →
    p.keys ≠ [] ∧ p.keys.length ≤ 2

/-- Replacing one pair's members by one or two keeps the sizes. -/
theorem WSHub.Sized.insert
    (sized : hub.Sized)
    (pairID : String)
    {p : WSPair Conn}
    (filled : p.keys ≠ [])
    (few : p.keys.length ≤ 2) :
    WSHub.Sized (AList.insert pairID p hub) := by
  intro otherPair q found
  by_cases same : otherPair = pairID
  · subst same
    rw [AList.lookup_insert] at found
    cases found
    exact ⟨filled, few⟩
  · rw [AList.lookup_insert_ne same] at found
    exact sized otherPair q found

theorem WSHub.Sized.members_le
    (sized : hub.Sized)
    (pairID : String) :
    (hub.members pairID).keys.length ≤ 2 := by
  unfold members
  cases found : hub.lookup pairID with
  | none => simp
  | some p => exact (sized pairID p found).2

/-- A member that is let in leaves the pair with at most two. -/
theorem WSHub.Sized.joined
    (sized : hub.Sized)
    (notFull : ¬ hub.Full pairID memberID)
    (conn : Conn) :
    WSHub.Sized
      (hub.insert pairID ((hub.members pairID).insert memberID conn)) := by
  refine sized.insert pairID (by simp) ?_
  rw [AList.keys_insert, List.length_cons]
  by_cases present : memberID ∈ (hub.members pairID).keys
  · have members := sized.members_le pairID
    have shorter := List.length_erase_of_mem present
    have positive := List.length_pos_of_mem present
    omega
  · rw [List.erase_of_not_mem present]
    have absent : hub.conn? pairID memberID = none := by
      rw [← hub.lookup_members]
      exact AList.lookup_eq_none.mpr present
    have fewer : ¬ 2 ≤ (hub.members pairID).keys.length :=
      fun many => notFull ⟨absent, many⟩
    omega

/-- A leaving connection keeps the sizes. -/
theorem WSHub.Sized.leave
    [DecidableEq Conn]
    (sized : hub.Sized)
    (pairID memberID : String)
    (conn : Conn) :
    WSHub.Sized (hub.leave pairID memberID conn) := by
  rw [WSHub.leave_eq]
  cases found : hub.lookup pairID with
  | none => exact sized
  | some p =>
      simp only
      split
      · intro otherPair q kept
        by_cases same : otherPair = pairID
        · subst same
          rw [AList.lookup_erase] at kept
          cases kept
        · rw [AList.lookup_erase_ne same] at kept
          exact sized otherPair q kept
      · rename_i filled
        refine sized.insert pairID (by simpa using filled) ?_
        refine Nat.le_trans ?_ (sized.members_le pairID)
        unfold remaining
        split
        · rw [AList.keys_erase]
          exact List.length_erase_le
        · exact Nat.le_refl _

/-- `peer` returns the connection of another registered member. -/
theorem WSHub.peer_registered
    {pick : Nat}
    {conn : Conn}
    (found : hub.peer pairID memberID pick = some conn) :
    ∃ other, other ≠ memberID ∧ hub.conn? pairID other = some conn := by
  unfold WSHub.peer at found
  cases entry : hub.lookup pairID with
  | none =>
      rw [entry] at found
      cases found
  | some p =>
      rw [entry] at found
      have member := List.mem_of_getElem? found
      obtain ⟨⟨other, held⟩, kept, shape⟩ := List.mem_map.mp member
      obtain ⟨present, different⟩ := List.mem_filter.mp kept
      refine ⟨other, by simpa using different, ?_⟩
      unfold WSHub.conn?
      rw [entry]
      exact shape ▸ AList.mem_lookup_iff.mpr present

/-- In a pair of at most two there is one member besides a registered one. -/
theorem WSHub.Sized.other_unique
    (sized : hub.Sized)
    {first second third : String}
    (firstThere : hub.conn? pairID first ≠ none)
    (secondThere : hub.conn? pairID second ≠ none)
    (thirdThere : hub.conn? pairID third ≠ none)
    (different : second ≠ first) :
    third = first ∨ third = second := by
  have isKey :
      ∀ {member}, hub.conn? pairID member ≠ none →
        member ∈ (hub.members pairID).keys := by
    intro member there
    rw [← hub.lookup_members] at there
    by_contra absent
    exact there (AList.lookup_eq_none.mpr absent)
  by_contra neither
  obtain ⟨notFirst, notSecond⟩ := not_or.mp neither
  have distinct : [third, second, first].Nodup := by
    simp [notFirst, notSecond, different]
  have included : [third, second, first] ⊆ (hub.members pairID).keys := by
    simp [isKey firstThere, isKey secondThere, isKey thirdThere]
  have three : 3 ≤ (hub.members pairID).keys.length :=
    (List.subperm_of_subset distinct included).length_le
  have two := sized.members_le pairID
  omega

/--
What a reachable hub satisfies: no entry without members, at most two members,
and every registered connection belongs to a call that has still to leave.
-/
structure HubState.Coherent (state : HubState Conn Frame) : Prop where
  sized : state.hub.Sized
  live : ∀ pairID memberID conn,
    state.hub.conn? pairID memberID = some conn →
      ∃ call session, state.sessions call = some session ∧
        session.pairID = pairID ∧ session.memberID = memberID ∧
        session.conn = conn ∧ session.phase.Serves

/-- Once no session of a pair serves, the hub has no entry for it. -/
theorem HubState.Coherent.no_entry
    {state : HubState Conn Frame}
    (coherent : state.Coherent)
    (gone :
      ∀ call session, state.sessions call = some session →
        session.pairID = pairID → ¬ session.phase.Serves) :
    state.hub.lookup pairID = none := by
  cases entry : state.hub.lookup pairID with
  | none => rfl
  | some p =>
      obtain ⟨memberID, isKey⟩ :=
        List.exists_mem_of_ne_nil _ (coherent.sized pairID p entry).1
      obtain ⟨conn, registered⟩ :=
        Option.isSome_iff_exists.mp (AList.lookup_isSome.mpr isKey)
      obtain ⟨call, session, found, pairShape, -, -, serves⟩ :=
        coherent.live pairID memberID conn
          (by simp [WSHub.conn?, entry, registered])
      exact (gone call session found pairShape serves).elim

section Calls

variable [DecidableEq Conn]

variable {hub : WSHub Conn} {session : Session Conn Frame} {read : Option Frame}
  {pick call : Nat} {conn : Conn} {state : HubState Conn Frame}
  {input : HubInput Conn Frame} {frame : Frame}

/-- A step of a call keeps the sizes of the entries. -/
theorem serveStep_sized
    (sized : hub.Sized)
    (session : Session Conn Frame)
    (read : Option Frame)
    (pick : Nat) :
    (serveStep hub session read pick).2.1.Sized := by
  unfold serveStep
  split
  · by_cases full : hub.Full session.pairID session.memberID
    · rw [WSHub.join_of_full full]
      exact sized
    · obtain ⟨joined, shape⟩ := WSHub.join_of_not_full full session.conn
      rw [shape]
      exact sized.joined full _
  · split <;> exact sized
  · split <;> exact sized
  · exact sized
  · exact sized.leave _ _ _
  · exact sized

/--
A connection registered after a step of a call is the call's own, which then
has still to leave, or was registered before and is not one that the call
gives up.
-/
theorem serveStep_registered
    {pairID memberID : String}
    (registered :
      (serveStep hub session read pick).2.1.conn? pairID memberID =
        some conn) :
    (session.pairID = pairID ∧ session.memberID = memberID ∧
        session.conn = conn ∧
        (serveStep hub session read pick).2.2.Serves) ∨
      hub.conn? pairID memberID = some conn ∧
        ((session.pairID = pairID ∧ session.memberID = memberID ∧
            session.conn = conn) →
          session.phase.Serves →
          (serveStep hub session read pick).2.2.Serves) := by
  unfold serveStep at registered ⊢
  split at registered
  · rename_i joining
    by_cases full : hub.Full session.pairID session.memberID
    · rw [WSHub.join_of_full full] at registered ⊢
      refine Or.inr ⟨registered, fun _ serves => ?_⟩
      exact (joining ▸ serves).elim
    · obtain ⟨joined, shape⟩ := WSHub.join_of_not_full full session.conn
      rw [shape] at registered ⊢
      simp only at registered
      rw [WSHub.conn?_joined] at registered
      split at registered
      · rename_i own
        exact Or.inl ⟨own.1.symm, own.2.symm, Option.some.inj registered,
          trivial⟩
      · exact Or.inr ⟨registered, fun _ _ => trivial⟩
  · cases read with
    | none => exact Or.inr ⟨registered, fun _ _ => trivial⟩
    | some frame => exact Or.inr ⟨registered, fun _ _ => trivial⟩
  · rename_i frame _
    cases found : hub.peer session.pairID session.memberID pick with
    | none =>
        rw [found] at registered
        exact Or.inr ⟨registered, fun _ _ => trivial⟩
    | some other =>
        rw [found] at registered
        exact Or.inr ⟨registered, fun _ _ => trivial⟩
  · exact Or.inr ⟨registered, fun _ _ => trivial⟩
  · simp only at registered
    rw [WSHub.conn?_leave] at registered
    split at registered
    · cases registered
    · rename_i kept
      refine Or.inr ⟨registered, ?_⟩
      rintro ⟨rfl, rfl, rfl⟩ -
      exact (kept ⟨rfl, rfl, registered⟩).elim
  · rename_i returned
    refine Or.inr ⟨registered, fun _ serves => ?_⟩
    exact (returned ▸ serves).elim

/-- A state in which a call has reached its next phase. -/
def HubState.proceed
    (state : HubState Conn Frame)
    (call : Nat)
    (session : Session Conn Frame)
    (read : Option Frame)
    (pick : Nat) : HubState Conn Frame where
  hub := (serveStep state.hub session read pick).2.1
  sessions :=
    Function.update state.sessions call
      (some
        { session with
          phase := (serveStep state.hub session read pick).2.2 })

theorem hubMachine_step
    (found : state.sessions call = some session)
    (read : Option Frame)
    (pick : Nat) :
    hubMachine.step state (.step call read pick) =
      ((serveStep state.hub session read pick).1,
        state.proceed call session read pick) := by
  simp only [hubMachine, found, HubState.proceed]

theorem hubMachine_step_none
    (missing : state.sessions call = none)
    (read : Option Frame)
    (pick : Nat) :
    hubMachine.step state (.step call read pick) = (.idle, state) := by
  simp only [hubMachine, missing]

/-- A new call changes no session but its own. -/
theorem hubMachine_serve
    (state : HubState Conn Frame)
    (call : Nat)
    (pairID memberID : String)
    (conn : Conn) :
    hubMachine.step state (.serve call pairID memberID conn) =
        (.idle, state) ∨
      state.sessions call = none ∧
        hubMachine.step state (.serve call pairID memberID conn) =
          (.started,
            { state with
              sessions :=
                Function.update state.sessions call
                  (some ⟨pairID, memberID, conn, .joining⟩) }) := by
  cases free : state.sessions call with
  | some session =>
      refine Or.inl ?_
      simp only [hubMachine, free]
  | none =>
      refine Or.inr ⟨rfl, ?_⟩
      simp only [hubMachine, free]

/-- A step of a call keeps the hub coherent. -/
theorem HubState.Coherent.proceed
    (coherent : state.Coherent)
    (found : state.sessions call = some session)
    (read : Option Frame)
    (pick : Nat) :
    (state.proceed call session read pick).Coherent := by
  refine ⟨serveStep_sized coherent.sized session read pick,
    fun pairID memberID conn registered => ?_⟩
  have own := Function.update_self call
    (some
      { session with
        phase := (serveStep state.hub session read pick).2.2 })
    state.sessions
  rcases serveStep_registered registered with
    ⟨pairShape, memberShape, connShape, serves⟩ | ⟨before, goesOn⟩
  · exact ⟨call, _, own, pairShape, memberShape, connShape, serves⟩
  · obtain ⟨holder, owner, ownerFound, pairShape, memberShape, connShape,
      serves⟩ := coherent.live pairID memberID conn before
    by_cases same : holder = call
    · subst same
      rw [found] at ownerFound
      cases ownerFound
      exact ⟨holder, _, own, pairShape, memberShape, connShape,
        goesOn ⟨pairShape, memberShape, connShape⟩ serves⟩
    · exact ⟨holder, owner,
        (Function.update_of_ne same _ _).trans ownerFound, pairShape,
        memberShape, connShape, serves⟩

/-- Every step of a run keeps the hub coherent. -/
theorem HubState.Coherent.step
    (coherent : state.Coherent)
    (input : HubInput Conn Frame) :
    HubState.Coherent (hubMachine.step state input).2 := by
  cases input with
  | serve call pairID memberID conn =>
      rcases hubMachine_serve state call pairID memberID conn with
        same | ⟨free, started⟩
      · rw [same]
        exact coherent
      · rw [started]
        refine ⟨coherent.sized,
          fun otherPair otherMember other registered => ?_⟩
        obtain ⟨holder, session, found, parts⟩ :=
          coherent.live otherPair otherMember other registered
        have different : holder ≠ call := by
          rintro rfl
          rw [free] at found
          cases found
        exact ⟨holder, session,
          (Function.update_of_ne different _ _).trans found, parts⟩
  | step call read pick =>
      cases found : state.sessions call with
      | none =>
          rw [hubMachine_step_none found]
          exact coherent
      | some session =>
          rw [hubMachine_step found]
          exact coherent.proceed found read pick

theorem coherent_run
    (inputs : List (HubInput Conn Frame)) :
    HubState.Coherent
      (hubMachine.run (.new : HubState Conn Frame) inputs) := by
  refine @Machine.run_invariant _ _ _ hubMachine HubState.Coherent
    (fun _ input coherent => HubState.Coherent.step coherent input) _ ?_ inputs
  refine ⟨fun _ _ found => ?_, fun _ _ _ registered => ?_⟩
  · simp [HubState.new] at found
  · simp [HubState.new, WSHub.conn?] at registered

/-- A visit is the last step of a call in a history. -/
def LastStep
    (past :
      List (Visit (HubState Conn Frame) (HubInput Conn Frame)
        (Event Conn Frame)))
    (call : Nat)
    (visit :
      Visit (HubState Conn Frame) (HubInput Conn Frame)
        (Event Conn Frame)) : Prop :=
  ∃ earlier later, past = earlier ++ visit :: later ∧
    visit.input.stepping = some call ∧
    ∀ next ∈ later, next.input.stepping ≠ some call

/-- A call that does not step is new or as it was. -/
theorem sessions_of_other
    (other : input.stepping ≠ some call)
    (found : (hubMachine.step state input).2.sessions call = some session) :
    session.phase = .joining ∨ state.sessions call = some session := by
  cases input with
  | serve started pairID memberID conn =>
      rcases hubMachine_serve state started pairID memberID conn with
        same | ⟨-, shape⟩
      · rw [same] at found
        exact Or.inr found
      · rw [shape] at found
        by_cases isNew : call = started
        · subst isNew
          have opened :=
            (Function.update_self call _ state.sessions).symm.trans found
          exact Or.inl (congrArg Session.phase (Option.some.inj opened)).symm
        · exact Or.inr
            ((Function.update_of_ne isNew _ _).symm.trans found)
  | step stepping read pick =>
      have different : call ≠ stepping :=
        fun same => other (congrArg some same.symm)
      cases there : state.sessions stepping with
      | none =>
          rw [hubMachine_step_none there] at found
          exact Or.inr found
      | some active =>
          rw [hubMachine_step there] at found
          exact Or.inr
            ((Function.update_of_ne different _ _).symm.trans found)

/-- A session that has joined is as the last step of its call has left it. -/
theorem exists_lastStep
    (inputs : List (HubInput Conn Frame)) :
    ∀ call session,
      (hubMachine.run (.new : HubState Conn Frame) inputs).sessions call =
          some session →
        session.phase = .joining ∨
          ∃ state input,
            LastStep (hubMachine.visits .new inputs) call
                (hubMachine.visit state input) ∧
              (hubMachine.step state input).2.sessions call =
                some session := by
  refine @Machine.history_invariant _ _ _ hubMachine
    (fun past (current : HubState Conn Frame) =>
      ∀ call session, current.sessions call = some session →
        session.phase = .joining ∨
          ∃ state input,
            LastStep past call (hubMachine.visit state input) ∧
              (hubMachine.step state input).2.sessions call = some session)
    _ (fun _ _ found => by simp [HubState.new] at found) ?_ inputs
  intro past current input known call session found
  by_cases own : input.stepping = some call
  · refine Or.inr ⟨current, input, ⟨past, [], rfl, own, ?_⟩, found⟩
    exact fun _ member => (List.not_mem_nil member).elim
  · rcases sessions_of_other own found with joining | before
    · exact Or.inl joining
    · refine (known call session before).imp_right ?_
      rintro ⟨state, last, ⟨earlier, later, shape, isCall, noLater⟩, left⟩
      refine ⟨state, last, ⟨earlier,
        later ++ [hubMachine.visit current input], ?_, isCall, ?_⟩, left⟩
      · rw [shape, List.append_assoc, List.cons_append]
      · intro next member
        rcases List.mem_append.mp member with old | new
        · exact noLater next old
        · rw [List.mem_singleton.mp new]
          exact own

/-- A call gets to send by resolving the other member. -/
theorem serveStep_sending
    {other : Conn}
    (sending :
      (serveStep hub session read pick).2.2 = .sending frame other) :
    session.phase = .resolving frame ∧
      hub.peer session.pairID session.memberID pick = some other ∧
      (serveStep hub session read pick).1 = .resolved (some other) := by
  unfold serveStep at sending ⊢
  split at sending
  · split at sending <;> cases sending
  · split at sending <;> cases sending
  · rename_i resolved shape
    cases found : hub.peer session.pairID session.memberID pick with
    | none =>
        rw [found] at sending
        cases sending
    | some conn =>
        rw [found] at sending
        cases sending
        exact ⟨shape, rfl, rfl⟩
  · cases sending
  · cases sending
  · cases sending

/-- A call writes what it has resolved. -/
theorem serveStep_wrote
    {other : Conn}
    (wrote : (serveStep hub session read pick).1 = .wrote frame other) :
    session.phase = .sending frame other := by
  unfold serveStep at wrote
  split at wrote
  · split at wrote <;> cases wrote
  · split at wrote <;> cases wrote
  · split at wrote <;> cases wrote
  · rename_i shape
    cases wrote
    exact shape
  · cases wrote
  · cases wrote

/-- A call that is about to send has just looked the other member up. -/
theorem step_sending
    (steps : input.stepping = some call)
    (found : (hubMachine.step state input).2.sessions call = some session)
    (sending : session.phase = .sending frame conn) :
    (hubMachine.step state input).1 = .resolved (some conn) ∧
      state.sessions call =
        some
          ⟨session.pairID, session.memberID, session.conn,
            .resolving frame⟩ ∧
      ∃ pick,
        state.hub.peer session.pairID session.memberID pick = some conn := by
  cases input with
  | serve started pairID memberID opened => cases steps
  | step stepping read pick =>
      cases steps
      cases there : state.sessions call with
      | none =>
          rw [hubMachine_step_none there, there] at found
          cases found
      | some active =>
          rw [hubMachine_step there] at found ⊢
          have shape := Option.some.inj
            ((Function.update_self call _ state.sessions).symm.trans found)
          subst shape
          obtain ⟨resolving, looked, output⟩ := serveStep_sending sending
          refine ⟨output, ?_, pick, looked⟩
          cases active
          simp only at resolving
          subst resolving
          rfl

/-- The state before the last step of a call is coherent. -/
theorem LastStep.coherent
    {inputs : List (HubInput Conn Frame)}
    (last :
      LastStep (hubMachine.visits .new inputs) call
        (hubMachine.visit state input)) :
    state.Coherent := by
  obtain ⟨earlier, later, shape, -⟩ := last
  have member :
      hubMachine.visit state input ∈
        hubMachine.visits (.new : HubState Conn Frame) inputs := by
    rw [shape]
    simp
  obtain ⟨before, after, -, same⟩ :=
    hubMachine.exists_prefix_of_mem_visits member
  have isRun : state = hubMachine.run .new before :=
    congrArg Visit.before same
  rw [isRun]
  exact coherent_run before

/--
The last step of a session found, at that moment, a connection registered for
the other member of the pair; the other one if the session's own member is
registered as well.
-/
def LookedUp
    (past :
      List (Visit (HubState Conn Frame) (HubInput Conn Frame)
        (Event Conn Frame)))
    (call : Nat)
    (session : Session Conn Frame)
    (frame : Frame)
    (conn : Conn) : Prop :=
  ∃ state input other,
    LastStep past call (hubMachine.visit state input) ∧
      (hubMachine.step state input).1 = .resolved (some conn) ∧
      state.sessions call =
        some
          ⟨session.pairID, session.memberID, session.conn,
            .resolving frame⟩ ∧
      other ≠ session.memberID ∧
      state.hub.conn? session.pairID other = some conn ∧
      (state.hub.conn? session.pairID session.memberID ≠ none →
        ∀ third, state.hub.conn? session.pairID third ≠ none →
          third = session.memberID ∨ third = other)

/-- A frame is written to the connection that was looked up for it. -/
theorem lookedUp_of_wrote
    {inputs : List (HubInput Conn Frame)}
    (found :
      (hubMachine.run (.new : HubState Conn Frame) inputs).sessions call =
        some session)
    (wrote :
      (hubMachine.step (hubMachine.run .new inputs)
        (.step call read pick)).1 = .wrote frame conn) :
    LookedUp (hubMachine.visits .new inputs) call session frame conn := by
  rw [hubMachine_step found] at wrote
  have sending := serveStep_wrote wrote
  rcases exists_lastStep inputs call session found with
    joining | ⟨state, input, last, left⟩
  · rw [sending] at joining
    cases joining
  · have steps : input.stepping = some call := by
      obtain ⟨_, _, _, steps, _⟩ := last
      exact steps
    obtain ⟨output, resolving, looked, peer⟩ :=
      step_sending steps left sending
    obtain ⟨other, different, registered⟩ := WSHub.peer_registered peer
    refine ⟨state, input, other, last, output, resolving, different,
      registered, fun own third there => ?_⟩
    exact last.coherent.sized.other_unique own (by simp [registered]) there
      different

/-- A joining call is refused exactly when the pair is full. -/
theorem refused_iff_full
    (found : state.sessions call = some session)
    (joining : session.phase = .joining)
    (read : Option Frame)
    (pick : Nat) :
    ((hubMachine.step state (.step call read pick)).1 = .refused ↔
        state.hub.Full session.pairID session.memberID) ∧
      (state.hub.Full session.pairID session.memberID →
        (hubMachine.step state (.step call read pick)).2.hub =
          state.hub) := by
  rw [hubMachine_step found]
  simp only [HubState.proceed, serveStep, joining]
  by_cases full : state.hub.Full session.pairID session.memberID
  · rw [WSHub.join_of_full full]
    exact ⟨⟨fun _ => full, fun _ => rfl⟩, fun _ => rfl⟩
  · obtain ⟨joined, shape⟩ := WSHub.join_of_not_full full session.conn
    rw [shape]
    exact ⟨⟨nofun, fun isFull => (full isFull).elim⟩,
      fun isFull => (full isFull).elim⟩

theorem registered_of_late_leave
    (found : state.sessions call = some session)
    (leaving : session.phase = .leaving)
    (replaced :
      state.hub.conn? session.pairID session.memberID ≠ some session.conn)
    (read : Option Frame)
    (pick : Nat)
    (pairID memberID : String) :
    (hubMachine.step state (.step call read pick)).2.hub.conn? pairID
        memberID =
      state.hub.conn? pairID memberID := by
  rw [hubMachine_step found]
  simp only [HubState.proceed, serveStep, leaving]
  rw [WSHub.conn?_leave, if_neg (fun all => replaced all.2.2)]

/--
The hub routes safely, whatever the order of the steps of any number of calls.
In every state that a run reaches: a pair has at most two members, of distinct
ids; a frame is written to the connection that was registered for the other
member when the session looked; a third member is refused, and nobody else,
without changing the hub; a connection that is no longer the registered one
leaves without removing any; and a pair whose sessions have all left has no
entry.
-/
theorem hub_routes_safely
    (inputs : List (HubInput Conn Frame))
    (state : HubState Conn Frame)
    (reached : hubMachine.run .new inputs = state) :
    (∀ pairID p, state.hub.lookup pairID = some p →
        p.keys.Nodup ∧ p.keys.length ≤ 2) ∧
      (∀ call session read pick frame conn,
        state.sessions call = some session →
          (hubMachine.step state (.step call read pick)).1 =
              .wrote frame conn →
            LookedUp (hubMachine.visits .new inputs) call session frame
              conn) ∧
      (∀ call session read pick, state.sessions call = some session →
        session.phase = .joining →
          ((hubMachine.step state (.step call read pick)).1 = .refused ↔
              state.hub.Full session.pairID session.memberID) ∧
            (state.hub.Full session.pairID session.memberID →
              (hubMachine.step state (.step call read pick)).2.hub =
                state.hub)) ∧
      (∀ call session read pick, state.sessions call = some session →
        session.phase = .leaving →
        state.hub.conn? session.pairID session.memberID ≠
            some session.conn →
          ∀ pairID memberID,
            (hubMachine.step state (.step call read pick)).2.hub.conn?
                pairID memberID =
              state.hub.conn? pairID memberID) ∧
      ∀ pairID,
        (∀ call session, state.sessions call = some session →
            session.pairID = pairID → ¬ session.phase.Serves) →
          state.hub.lookup pairID = none := by
  subst reached
  have coherent := coherent_run inputs
  refine ⟨fun pairID p entry => ?_, fun call session read pick frame conn
    found wrote => ?_, fun call session read pick found joining => ?_,
    fun call session read pick found leaving replaced => ?_,
    fun pairID gone => ?_⟩
  · exact ⟨p.keys_nodup, (coherent.sized pairID p entry).2⟩
  · exact lookedUp_of_wrote found wrote
  · exact refused_iff_full found joining read pick
  · exact registered_of_late_leave found leaving replaced read pick
  · exact coherent.no_entry gone

end Calls

/-- Two members meet, one of them reads a frame and looks the other up. -/
def meeting : List (HubInput Nat Nat) :=
  [.serve 0 "pair" "alice" 10, .step 0 none 0,
    .serve 1 "pair" "bob" 20, .step 1 none 0,
    .step 0 (some 7) 0, .step 0 none 0]

/-- The frame is then written to the other member's connection. -/
theorem hub_routes_meeting :
    LookedUp (hubMachine.visits .new meeting) 0
      ⟨"pair", "alice", 10, .sending 7 20⟩ 7 20 :=
  (hub_routes_safely meeting _ rfl).2.1 0
    ⟨"pair", "alice", 10, .sending 7 20⟩ none 0 7 20 rfl rfl

end WgMesh.Relay
