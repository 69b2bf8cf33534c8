import Mathlib.Data.List.AList
import WgMesh.RelayAuthorization

namespace WgMesh.Server

/-!
# Signal sessions

Agents keep a connection open over which the server wakes them and passes their
messages on.  The hub knows one client for each key; its operations hold one
lock, and between them any number of sessions, broadcasts and requests
interleave.  A session ends long after it has been superseded, so that it must
not take its successor's entry away.
-/

open CivilTime FiniteRuns RowTables Store TextScan Transactions

/--
`signalHub`: the client of each key.  Every session makes one client, which is
known by the session's number.
-/
abbrev SignalHub : Type := AList (fun _ : String => Nat)

/-- `register` up to its lock; the first part is the client it then closes. -/
def SignalHub.register (hub : SignalHub) (publicKey : String)
    (client : Nat) : Option Nat × SignalHub :=
  ((hub.lookup publicKey).filter (· ≠ client), hub.insert publicKey client)

/-- `unregister`. -/
def SignalHub.unregister (hub : SignalHub) (publicKey : String)
    (client : Nat) : SignalHub :=
  if hub.lookup publicKey = some client then hub.erase publicKey else hub

/-- Where `handleSignalWS` stands after the upgrade. -/
inductive SignalPhase where
  | registering
  | evicting (old : Nat)
  | greeting
  | reading
  | sending (message : SignalMessage)
  | writing (message : SignalMessage) (client : Nat)
  | complaining (text : String)
  | closing
  | unregistering
  | returned
deriving DecidableEq

/-- The session has registered and has still to unregister. -/
@[grind] def SignalPhase.serves : SignalPhase → Bool
  | .registering | .returned => false
  | _ => true

/-- The message that a session is passing on. -/
def SignalPhase.message? : SignalPhase → Option SignalMessage
  | .sending message | .writing message _ => some message
  | _ => none

deriving instance DecidableEq for SignalClient

/-- A session of `handleSignalWS`. -/
structure SignalSession where
  client : SignalClient
  phase : SignalPhase
deriving DecidableEq

/--
The server, its hub, the requests whose token was accepted as a peer's, the
sessions, the connections that are closed, and what is still to be written.
-/
structure SignalState where
  server : State
  hub : SignalHub
  entering : Nat → Option Int
  sessions : Nat → Option SignalSession
  closed : Nat → Bool
  pending : List (Nat × SignalMessage)

/-- A server before its first session. -/
def SignalState.new (server : State) : SignalState where
  server := server
  hub := ∅
  entering := fun _ => none
  sessions := fun _ => none
  closed := fun _ => false
  pending := []

/-- What reading a connection gives. -/
inductive SignalRead where
  | failed
  | binary
  | text (message : Option SignalMessage)

/-- What a session meets in one step. -/
structure SignalMeets where
  read : SignalRead
  stamp : String
  broken : Bool
  answers : List (Option String)

/-- What can be seen of a step. -/
inductive SignalEvent where
  | idle
  | registered (publicKey : String) (client : Nat)
  | wrote (client : Nat) (message : SignalMessage)
deriving DecidableEq

/-- `write`; nothing is written to a closed or broken connection. -/
def SignalState.write (state : SignalState) (client : Nat)
    (message : SignalMessage) (broken : Bool) : SignalEvent :=
  if state.closed client || broken then .idle else .wrote client message

/-- A session goes on to a phase. -/
def SignalState.move (state : SignalState) (number : Nat)
    (session : SignalSession) (phase : SignalPhase) : SignalState :=
  { state with
    sessions :=
      Function.update state.sessions number (some { session with phase }) }

/-- What is known of a request before it is a session. -/
def SignalState.enter (state : SignalState) (number : Nat)
    (peerID : Option Int) : SignalState :=
  { state with entering := Function.update state.entering number peerID }

/-- A request concerns one number. -/
@[grind =] theorem SignalState.entering_enter
    {state : SignalState}
    {number other : Nat}
    {peerID : Option Int} :
    (state.enter number peerID).entering other =
      if other = number then peerID else state.entering other := by
  simp [SignalState.enter, Function.update_apply]

/-- A connection is closed. -/
def SignalState.close (state : SignalState) (number : Nat) : SignalState :=
  { state with closed := Function.update state.closed number true }

/-- What `send` makes of a missing client or a failed write. -/
def notConnected : String := "target peer is not connected to signal"

/--
The next step of `handleSignalWS`.  `handleSignalMessage` ends in a `send`,
which looks the client up in one step and writes in another, so that its checks
are run here with every target connected.
-/
def signalStep (config : Config) (state : SignalState) (number : Nat)
    (session : SignalSession) (meets : SignalMeets) :
    SignalEvent × SignalState :=
  let client := session.client
  match session.phase with
  | .registering =>
      let done := state.hub.register client.publicKey number
      (.registered client.publicKey number,
        { state with hub := done.2 }.move number session
          (done.1.elim .greeting .evicting))
  | .evicting old => (.idle, (state.close old).move number session .greeting)
  | .greeting =>
      (state.write number ⟨"hello", "", client.publicKey, meets.stamp, ""⟩
          meets.broken,
        state.move number session .reading)
  | .reading =>
      match meets.read with
      | .failed => (.idle, state.move number session .closing)
      | .binary => (.idle, state)
      | .text message =>
          match (handleSignalMessage config client message meets.stamp
            (fun _ => true) ⟨state.server, meets.answers⟩).1 with
          | .error text =>
              (.idle, state.move number session (.complaining text))
          | .ok none => (.idle, state)
          | .ok (some message) =>
              (.idle, state.move number session (.sending message))
  | .sending message =>
      match state.hub.lookup message.target with
      | none =>
          (.idle, state.move number session (.complaining notConnected))
      | some target =>
          (.idle, state.move number session (.writing message target))
  | .writing message target =>
      let event := state.write target message meets.broken
      (event, state.move number session
        (if event = .idle then .complaining notConnected else .reading))
  | .complaining text =>
      (state.write number
          ⟨"error", "", "", meets.stamp, "\"" ++ text ++ "\""⟩ meets.broken,
        state.move number session .reading)
  | .closing =>
      (.idle, (state.close number).move number session .unregistering)
  | .unregistering =>
      (.idle,
        { state with hub := state.hub.unregister client.publicKey number }.move
          number session .returned)
  | .returned => (.idle, state)

/-- `handleSignalWS` from its second read of the store up to the hub. -/
def openSignal (config : Config) (upgrade : Option Response)
    (peerID : Int) : HandlerM SignalClient := do
  let peers ← storing internalError
    (peersForID peerID config.store.defaultAllow)
  match upgrade with
  | none => pure ⟨peerID, peers.1.publicKey⟩
  | some answer => raise answer

/--
A request is authenticated, looks its own peer up, a session goes on,
`signalSync` or `signalPeerSync` looks clients up or writes to one, or the
server does anything else.
-/
inductive SignalInput where
  | authenticate (number : Nat) (http : Request) (now : Instant)
      (answers : List (Option String))
  | connect (number : Nat) (upgrade : Option Response)
      (answers : List (Option String))
  | step (number : Nat) (meets : SignalMeets)
  | signalSync (stamp payload : String)
  | signalPeerSync (publicKey stamp payload : String)
  | deliver (place : Nat) (broken : Bool)
  | server (event : Event)

/-- Any number of sessions beside the server, one atomic step at a time. -/
def signalMachine (config : Config) :
    Machine SignalState SignalInput SignalEvent where
  step state
    | .authenticate number http now answers =>
        match state.sessions number, state.entering number,
          (authenticated config http now ⟨state.server, answers⟩).1 with
        | none, none, .ok peerID => (.idle, state.enter number (some peerID))
        | _, _, _ => (.idle, state)
    | .connect number upgrade answers =>
        match state.sessions number, state.entering number with
        | none, some peerID =>
            match (openSignal config upgrade peerID
              ⟨state.server, answers⟩).1 with
            | .ok client =>
                (.idle, (state.enter number none).move number
                  ⟨client, .registering⟩ .registering)
            | .error _ => (.idle, state.enter number none)
        | _, _ => (.idle, state)
    | .step number meets =>
        match state.sessions number with
        | none => (.idle, state)
        | some session => signalStep config state number session meets
    | .signalSync stamp payload =>
        (.idle, { state with
          pending :=
            state.pending ++ state.hub.entries.map (fun entry =>
              (entry.2, ⟨"sync-now", "", "", stamp, payload⟩)) })
    | .signalPeerSync publicKey stamp payload =>
        (.idle, { state with
          pending :=
            state.pending ++ (state.hub.lookup publicKey).toList.map
              (·, ⟨"sync-now", "", publicKey, stamp, payload⟩) })
    | .deliver place broken =>
        match state.pending[place]? with
        | none => (.idle, state)
        | some write =>
            (state.write write.1 write.2 broken,
              { state with pending := state.pending.eraseIdx place })
    | .server event =>
        (.idle,
          { state with
            server := ((system config).step state.server event).2 })

variable {config : Config} {state : SignalState}

/-- The client that an event registers for a key. -/
@[grind] def SignalEvent.registration? (publicKey : String) :
    SignalEvent → Option Nat
  | .registered other client =>
      if other = publicKey then some client else none
  | _ => none

/-- A session goes on with checked messages and registered targets. -/
structure SignalPasses (config : Config) (state : SignalState)
    (session : SignalSession) (phase : SignalPhase) : Prop where
  checked :
    ∀ message, phase.message? = some message →
      session.phase.message? = some message ∨
        session.phase = .reading ∧ ∃ sent stamp after,
          Runs
            (handleSignalMessage config session.client sent stamp
              (fun _ => true))
            state.server (.ok (some message)) after
  found :
    ∀ message target, phase = .writing message target →
      session.phase = .sending message ∧
        state.hub.lookup message.target = some target

/-- The server looks up whom to wake. -/
def SignalInput.wakes : SignalInput → Bool
  | .signalSync _ _ | .signalPeerSync _ _ _ => true
  | _ => false

/-- A client is looked up to be woken, that of the target if there is one. -/
def Wakes (state : SignalState) (input : SignalInput) (publicKey : String)
    (write : Nat × SignalMessage) : Prop :=
  input.wakes = true ∧ state.hub.lookup publicKey = some write.1 ∧
    (write.2.target = "" ∨ publicKey = write.2.target)

/-- What the server has still to write was looked up. -/
def SignalState.Queues (state : SignalState) (input : SignalInput)
    (pending : List (Nat × SignalMessage)) : Prop :=
  ∀ write ∈ pending, write ∈ state.pending ∨
    ∃ publicKey, Wakes state input publicKey write

/-- What one step of a session goes on to, once it has registered. -/
structure SignalMoves (config : Config) (state : SignalState)
    (number : Nat) (session : SignalSession) (closed : Nat → Bool)
    (phase : SignalPhase) : Prop where
  present : state.sessions number = some session
  served : session.phase.serves = true
  serves : phase.serves = true
  closes : ∀ other, state.closed other = true → closed other = true
  evicted : ∀ old, session.phase = .evicting old → closed old = true
  passes : SignalPasses config state session phase

/-- Everything that a step can do. -/
inductive SignalChange (config : Config) (state : SignalState) :
    SignalInput → SignalEvent → SignalState → Prop where
  | accepted
      {number : Nat} {http : Request} {now : Instant}
      {answers : List (Option String)} {peerID : Int} {after : State}
      (run :
        Runs (authenticated config http now) state.server (.ok peerID)
          after) :
      SignalChange config state (.authenticate number http now answers) .idle
        (state.enter number (some peerID))
  | opened
      {number : Nat} {upgrade : Option Response}
      {answers : List (Option String)} {client : SignalClient} {after : State}
      (fresh : state.sessions number = none)
      (entered : state.entering number = some client.peerID)
      (run :
        Runs (openSignal config upgrade client.peerID) state.server
          (.ok client) after) :
      SignalChange config state (.connect number upgrade answers) .idle
        ((state.enter number none).move number ⟨client, .registering⟩
          .registering)
  | registered
      {number : Nat} {meets : SignalMeets} {session : SignalSession}
      {phase : SignalPhase}
      (present : state.sessions number = some session)
      (registering : session.phase = .registering)
      (serves : phase.serves = true)
      (passes : SignalPasses config state session phase)
      (evicts :
        ∀ old, state.hub.lookup session.client.publicKey = some old →
          old = number ∨ phase = .evicting old) :
      SignalChange config state (.step number meets)
        (.registered session.client.publicKey number)
        ({ state with
          hub := state.hub.insert session.client.publicKey number }.move
            number session phase)
  | moved
      {number : Nat} {meets : SignalMeets} {session : SignalSession}
      {phase : SignalPhase} {event : SignalEvent} {closed : Nat → Bool}
      (moves : SignalMoves config state number session closed phase)
      (silent : ∀ publicKey, event.registration? publicKey = none) :
      SignalChange config state (.step number meets) event
        ({ state with closed }.move number session phase)
  | unregistered
      {number : Nat} {meets : SignalMeets} {session : SignalSession}
      (present : state.sessions number = some session)
      (unregistering : session.phase = .unregistering) :
      SignalChange config state (.step number meets) .idle
        ({ state with
          hub := state.hub.unregister session.client.publicKey number }.move
            number session .returned)
  | elsewhere
      {input : SignalInput} {event : SignalEvent} {server : State}
      {entering : Nat → Option Int} {pending : List (Nat × SignalMessage)}
      (silent : ∀ publicKey, event.registration? publicKey = none)
      (enters :
        ∀ number peerID, entering number = some peerID →
          state.entering number = some peerID)
      (queues : state.Queues input pending) :
      SignalChange config state input event
        { state with server, entering, pending }

/-- A step may leave everything as it is. -/
theorem SignalChange.still
    {input : SignalInput}
    {event : SignalEvent}
    (silent : ∀ publicKey, event.registration? publicKey = none) :
    SignalChange config state input event state :=
  .elsewhere silent (fun _ _ => id) (fun _ => Or.inl)

/-- Writing registers nobody. -/
theorem SignalState.write_silent
    (client : Nat)
    (message : SignalMessage)
    (broken : Bool)
    (publicKey : String) :
    (state.write client message broken).registration? publicKey = none := by
  unfold write
  split <;> rfl

/-- A step of a session is a change. -/
theorem signalStep_change
    {number : Nat}
    {session : SignalSession}
    (present : state.sessions number = some session)
    (meets : SignalMeets) :
    SignalChange config state (.step number meets)
      (signalStep config state number session meets).1
      (signalStep config state number session meets).2 := by
  obtain ⟨client, phase⟩ := session
  cases phase with
  | registering =>
      refine .registered present rfl ?_ ?_ ?_
      · cases (state.hub.register client.publicKey number).1 <;> rfl
      · cases (state.hub.register client.publicKey number).1 <;>
          exact ⟨nofun, nofun⟩
      · intro old found
        by_cases same : old = number
        · exact Or.inl same
        · right
          simp [SignalHub.register, found, Option.filter, same]
  | evicting old =>
      refine .moved ⟨present, rfl, rfl, ?_, ?_, nofun, nofun⟩ (fun _ => rfl)
      · intro other wasClosed
        by_cases same : other = old <;> simp [same, wasClosed]
      · rintro _ ⟨⟩
        exact Function.update_self ..
  | greeting =>
      exact .moved ⟨present, rfl, rfl, fun _ => id, nofun, nofun, nofun⟩
        (state.write_silent _ _ _)
  | reading =>
      obtain ⟨read, stamp, broken, answers⟩ := meets
      cases read with
      | failed =>
          exact .moved ⟨present, rfl, rfl, fun _ => id, nofun, nofun, nofun⟩
            (fun _ => rfl)
      | binary => exact .still (fun _ => rfl)
      | text sent =>
          have run :=
            Runs.of_session
              (handleSignalMessage config client sent stamp (fun _ => true))
              ⟨state.server, answers⟩
          simp only [signalStep]
          cases outcome :
              (handleSignalMessage config client sent stamp (fun _ => true)
                ⟨state.server, answers⟩).1 with
          | error text =>
              exact .moved
                ⟨present, rfl, rfl, fun _ => id, nofun, nofun, nofun⟩
                (fun _ => rfl)
          | ok passed =>
              cases passed with
              | none => exact .still (fun _ => rfl)
              | some message =>
                  refine .moved
                    ⟨present, rfl, rfl, fun _ => id, nofun, ?_, nofun⟩
                    (fun _ => rfl)
                  rintro _ ⟨⟩
                  exact Or.inr ⟨rfl, sent, stamp, _, outcome ▸ run⟩
  | sending message =>
      simp only [signalStep]
      cases found : state.hub.lookup message.target with
      | none =>
          exact .moved ⟨present, rfl, rfl, fun _ => id, nofun, nofun, nofun⟩
            (fun _ => rfl)
      | some target =>
          refine .moved
            ⟨present, rfl, rfl, fun _ => id, nofun, fun _ => Or.inl, ?_⟩
            (fun _ => rfl)
          rintro _ _ ⟨⟩
          exact ⟨rfl, found⟩
  | writing message target =>
      simp only [signalStep]
      refine .moved
        ⟨present, rfl, ?_, fun _ => id, nofun, ?_, ?_⟩
        (state.write_silent _ _ _)
      · split <;> rfl
      · split <;> nofun
      · split <;> nofun
  | complaining text =>
      exact .moved ⟨present, rfl, rfl, fun _ => id, nofun, nofun, nofun⟩
        (state.write_silent _ _ _)
  | closing =>
      refine .moved ⟨present, rfl, rfl, ?_, nofun, nofun, nofun⟩
        (fun _ => rfl)
      intro other wasClosed
      by_cases same : other = number <;> simp [same, wasClosed]
  | unregistering => exact .unregistered present rfl
  | returned => exact .still (fun _ => rfl)

/-- A client has the id that was accepted, and the key of its row. -/
theorem openSignal_ok
    {upgrade : Option Response}
    {peerID : Int}
    {before after : State}
    {client : SignalClient}
    (run :
      Runs (openSignal config upgrade peerID) before (.ok client) after) :
    client.peerID = peerID ∧
      before.HasRow client.peerID client.publicKey := by
  obtain ⟨⟨self, others⟩, _, lookRun, last⟩ := run.bind_ok
  obtain ⟨_, rfl, looked⟩ := asking_ok lookRun
  obtain ⟨-, ⟨found, lookup, rfl⟩, -⟩ := peersForID_ok looked
  obtain ⟨member, isID⟩ := mem_of_rowWith? lookup
  split at last
  · cases last.pure_inv.1
    exact ⟨rfl, found, member, isID, rfl⟩
  · exact last.raise_ok.elim

/-- A token that is accepted belongs to an unrevoked peer. -/
theorem authenticated_row
    {http : Request}
    {now : Instant}
    {peerID : Int}
    {before after : State}
    (run : Runs (authenticated config http now) before (.ok peerID) after) :
    ∃ row token, row ∈ before.store.db.tables.peers ∧ row.id = peerID ∧
      row.isActive = true ∧
      cutPrefix "Bearer " http.authorization = some token ∧
      row.authTokenHash = some (config.store.hashToken token) := by
  rcases (bearerToken_stage _).bind_inv run with
    ⟨⟨_, _, refused⟩, -⟩ | ⟨token, _, ⟨bearer, rfl⟩, asked⟩
  · cases refused
  obtain ⟨⟨id, overlayIP⟩, _, storeRun, returned⟩ := asked.bind_ok
  obtain ⟨_, rfl, inner⟩ := asking_ok storeRun
  obtain ⟨-, row, member, hashed, active, -, isRow, -⟩ :=
    authenticatePeer_ok inner
  cases returned.pure_inv.1
  exact ⟨row, token, member, isRow.symm, active, bearer, hashed⟩

/-- A step of the machine is a change. -/
theorem signalMachine_change
    (config : Config)
    (state : SignalState)
    (input : SignalInput) :
    SignalChange config state input
      ((signalMachine config).step state input).1
      ((signalMachine config).step state input).2 := by
  cases input with
  | authenticate number http now answers =>
      have run :=
        Runs.of_session (authenticated config http now)
          ⟨state.server, answers⟩
      simp only [signalMachine]
      split
      · rename_i accepted
        exact .accepted (accepted ▸ run)
      · exact .still (fun _ => rfl)
  | connect number upgrade answers =>
      simp only [signalMachine]
      split
      · rename_i peerID fresh entered
        have run :=
          Runs.of_session (openSignal config upgrade peerID)
            ⟨state.server, answers⟩
        split
        · rename_i client opened
          rw [opened] at run
          obtain ⟨rfl, -⟩ := openSignal_ok run
          exact .opened fresh entered run
        · refine .elsewhere (fun _ => rfl) ?_ (fun _ => Or.inl)
          intro other id remains
          grind
      · exact .still (fun _ => rfl)
  | step number meets =>
      simp only [signalMachine]
      split
      · exact .still (fun _ => rfl)
      · rename_i session present
        exact signalStep_change present meets
  | signalSync stamp payload =>
      refine .elsewhere (fun _ => rfl) (fun _ _ => id) ?_
      intro write member
      rcases List.mem_append.mp member with old | new
      · exact Or.inl old
      · obtain ⟨entry, entryMember, rfl⟩ := List.mem_map.mp new
        exact Or.inr
          ⟨entry.1, rfl, AList.mem_lookup_iff.mpr entryMember, Or.inl rfl⟩
  | signalPeerSync publicKey stamp payload =>
      refine .elsewhere (fun _ => rfl) (fun _ _ => id) ?_
      intro write member
      rcases List.mem_append.mp member with old | new
      · exact Or.inl old
      · simp only [List.mem_map, Option.mem_toList] at new
        obtain ⟨client, found, rfl⟩ := new
        exact Or.inr ⟨publicKey, rfl, found, Or.inr rfl⟩
  | deliver place broken =>
      simp only [signalMachine]
      split
      · exact .still (fun _ => rfl)
      · exact .elsewhere (state.write_silent _ _ _) (fun _ _ => id)
          (fun _ member => Or.inl (List.mem_of_mem_eraseIdx member))
  | server event =>
      exact .elsewhere (fun _ => rfl) (fun _ _ => id) (fun _ => Or.inl)

/-- One executed step of the machine. -/
abbrev SignalVisit : Type := Visit SignalState SignalInput SignalEvent

/-- The client that has registered last for a key. -/
def newestClient (past : List SignalVisit) (publicKey : String) :
    Option Nat :=
  (past.filterMap (fun visit =>
    visit.output.registration? publicKey)).getLast?

/-- A step that registers supersedes what came before. -/
@[grind =] theorem newestClient_append
    (past : List SignalVisit)
    (visit : SignalVisit)
    (publicKey : String) :
    newestClient (past ++ [visit]) publicKey =
      (visit.output.registration? publicKey).or
        (newestClient past publicKey) := by
  unfold newestClient
  cases event : visit.output.registration? publicKey with
  | none => simp [event]
  | some client => simp [event]

/-- A session has registered and has still to unregister. -/
@[grind] def SignalState.serves (state : SignalState) (number : Nat) : Bool :=
  (state.sessions number).any (·.phase.serves)

/-- A connection is closed, or a session is about to close it. -/
def SignalState.Evicts (state : SignalState) (number : Nat) : Prop :=
  state.closed number = true ∨
    ∃ newer other, state.sessions newer = some other ∧
      other.phase = .evicting number

/-- How the hub stands to the sessions and their past. -/
structure SignalTracked (past : List SignalVisit) (state : SignalState) :
    Prop where
  entry :
    ∀ publicKey number,
      state.hub.lookup publicKey = some number ↔
        newestClient past publicKey = some number ∧
          state.serves number = true
  keyed :
    ∀ publicKey number, newestClient past publicKey = some number →
      ∃ session, state.sessions number = some session ∧
        session.client.publicKey = publicKey
  superseded :
    ∀ number session, state.sessions number = some session →
      session.phase.serves = true →
        state.hub.lookup session.client.publicKey = some number ∨
          state.Evicts number

section Change

variable {number other : Nat} {session found : SignalSession}
  {phase : SignalPhase} {next : SignalState} {event : SignalEvent}
  {input : SignalInput}

/-- A move concerns one session. -/
@[grind =] theorem SignalState.sessions_move :
    (state.move number session phase).sessions other =
      if other = number then some { session with phase }
      else state.sessions other :=
  Function.update_apply ..

/-- A move leaves the hub alone. -/
@[grind =] theorem SignalState.move_hub :
    (state.move number session phase).hub = state.hub :=
  rfl

/-- A request that enters changes no session. -/
@[grind =] theorem SignalState.enter_sessions
    {peerID : Option Int} :
    (state.enter number peerID).sessions = state.sessions :=
  rfl

/-- A session that moves leaves the entering requests alone. -/
theorem SignalState.entering_move :
    (state.move number session phase).entering = state.entering :=
  rfl

/-- A request that enters leaves the hub alone. -/
@[grind =] theorem SignalState.enter_hub
    {peerID : Option Int} :
    (state.enter number peerID).hub = state.hub :=
  rfl

/-- Sessions stay, and keep their clients. -/
theorem SignalChange.keeps
    (change : SignalChange config state input event next)
    (present : state.sessions other = some found) :
    ∃ later, next.sessions other = some later ∧
      later.client = found.client := by
  cases change with
  | accepted _ => exact ⟨_, present, rfl⟩
  | opened _ _ _ => grind
  | registered _ _ _ _ _ => grind
  | moved moves _ => grind [SignalMoves]
  | unregistered _ _ => grind
  | elsewhere _ _ _ => exact ⟨_, present, rfl⟩

/-- What the server has still to write was looked up. -/
theorem SignalChange.queues
    (change : SignalChange config state input event next) :
    state.Queues input next.pending := by
  cases change with
  | elsewhere _ _ queues => exact queues
  | _ => exact fun _ => Or.inl

variable {past : List SignalVisit} {visit : SignalVisit}

/-- What is registered after a client has unregistered. -/
@[grind =] theorem SignalHub.lookup_unregister
    (hub : SignalHub)
    (publicKey key : String)
    (client : Nat) :
    (hub.unregister publicKey client).lookup key =
      if key = publicKey ∧ hub.lookup key = some client then none
      else hub.lookup key := by
  unfold unregister
  by_cases same : key = publicKey
  · subst same
    split <;> simp_all
  · split <;> simp [same]

/-- What is registered after a client has registered. -/
@[grind =] theorem SignalHub.lookup_insert
    (hub : SignalHub)
    (publicKey key : String)
    (client : Nat) :
    AList.lookup key (hub.insert publicKey client) =
      if key = publicKey then some client else hub.lookup key := by
  by_cases same : key = publicKey
  · subst same
    simp
  · simp [same]

/-- A connection that is to be closed is closed or remains to be closed. -/
theorem SignalChange.evicts
    (change : SignalChange config state input event next)
    (evicts : state.Evicts other) :
    next.Evicts other := by
  rcases evicts with isClosed | ⟨newer, closing, present, evicting⟩
  · left
    cases change with
    | moved moves _ => exact moves.closes _ isClosed
    | _ => exact isClosed
  · cases change with
    | accepted _ => exact Or.inr ⟨newer, closing, present, evicting⟩
    | opened fresh _ _ =>
        exact Or.inr ⟨newer, closing, by grind, evicting⟩
    | registered mover registering _ _ _ =>
        exact Or.inr ⟨newer, closing, by grind, evicting⟩
    | @moved number _ _ _ _ _ moves _ =>
        by_cases isMover : newer = number
        · subst isMover
          cases moves.present.symm.trans present
          exact Or.inl (moves.evicted _ evicting)
        · exact Or.inr ⟨newer, closing, by grind, evicting⟩
    | unregistered mover unregistering =>
        exact Or.inr ⟨newer, closing, by grind, evicting⟩
    | elsewhere _ _ _ => exact Or.inr ⟨newer, closing, present, evicting⟩

/-- A session that serves is registered, or its connection is to be closed. -/
theorem SignalChange.superseded
    (change : SignalChange config state input event next)
    (holds :
      ∀ session, state.sessions other = some session →
        session.phase.serves = true →
          state.hub.lookup session.client.publicKey = some other ∨
            state.Evicts other)
    (present : next.sessions other = some found)
    (serves : found.phase.serves = true) :
    next.hub.lookup found.client.publicKey = some other ∨
      next.Evicts other := by
  have evicts : state.Evicts other → next.Evicts other := change.evicts
  cases change with
  | accepted _ => exact (holds _ present serves).imp_right evicts
  | opened _ _ _ => grind
  | @registered number _ session phase mover _ _ _ supersedes =>
      rw [SignalState.sessions_move] at present
      rw [SignalState.move_hub, SignalHub.lookup_insert]
      by_cases isMover : other = number
      · grind
      · rcases holds found (by simpa [isMover] using present) serves with
          entry | isEvicted
        · by_cases sameKey :
            found.client.publicKey = session.client.publicKey
          · refine Or.inr (Or.inr ⟨number, ⟨session.client, phase⟩, ?_, ?_⟩)
            · rw [SignalState.sessions_move, if_pos rfl]
            · grind
          · grind
        · exact Or.inr (evicts isEvicted)
  | moved moves _ => grind [SignalMoves]
  | unregistered _ _ => grind
  | elsewhere _ _ _ => exact (holds _ present serves).imp_right evicts

/-- A step keeps the hub and the sessions together. -/
theorem SignalTracked.step
    (tracked : SignalTracked past state)
    (change :
      SignalChange config state visit.input visit.output visit.after) :
    SignalTracked (past ++ [visit]) visit.after := by
  refine ⟨?_, ?_, fun number session =>
    change.superseded (tracked.superseded number)⟩
  all_goals
    obtain ⟨entry, keyed, -⟩ := tracked
    obtain ⟨before, input, output, after⟩ := visit
    cases change with
    | accepted _ => grind
    | opened fresh _ _ => grind
    | registered mover _ _ _ _ => grind
    | moved moves _ => grind [SignalMoves]
    | unregistered mover _ => grind
    | elsewhere _ _ _ => grind

end Change

/-- A request's token is accepted as that of an unrevoked peer. -/
def Accepts (config : Config) (number : Nat) (peerID : Int)
    (visit : SignalVisit) : Prop :=
  ∃ http now answers row token,
    visit.input = .authenticate number http now answers ∧
      row ∈ visit.before.server.store.db.tables.peers ∧
      row.id = peerID ∧ row.isActive = true ∧
      cutPrefix "Bearer " http.authorization = some token ∧
      row.authTokenHash = some (config.store.hashToken token)

/-- A request was accepted, and has not been answered since. -/
def Entered (config : Config) (number : Nat) (peerID : Int)
    (past : List SignalVisit) : Prop :=
  Machine.Since (fun _ => Accepts config number peerID)
    (fun later => later.before.entering number = some peerID) past

/-- An accepted request looks up the key of the row with its peer's id. -/
structure Opens (config : Config) (number : Nat) (client : SignalClient)
    (past : List SignalVisit) (visit : SignalVisit) : Prop where
  input : ∃ upgrade answers, visit.input = .connect number upgrade answers
  fresh : visit.before.sessions number = none
  accepted : Entered config number client.peerID past
  row : visit.before.server.HasRow client.peerID client.publicKey

/-- A session was opened by its own request. -/
def Opened (config : Config) (number : Nat) (client : SignalClient)
    (past : List SignalVisit) : Prop :=
  Machine.Since (Opens config number client)
    (fun later =>
      ∃ session, later.before.sessions number = some session ∧
        session.client = client)
    past

/-- A session has read a message and finds its target among the peers. -/
structure Checks (config : Config) (number : Nat) (client : SignalClient)
    (message : SignalMessage) (visit : SignalVisit) : Prop where
  input : ∃ meets, visit.input = .step number meets
  reading : visit.before.sessions number = some ⟨client, .reading⟩
  reaches :
    ∃ row,
      visit.before.server.store.db.tables.peerWithID? client.peerID =
          some row ∧
        Reaches config visit.before.server row message.target

/-- A session checked the message that it has been passing on since. -/
def Checked (config : Config) (number : Nat) (client : SignalClient)
    (message : SignalMessage) (past : List SignalVisit) : Prop :=
  Machine.Since (fun _ => Checks config number client message)
    (fun later =>
      ∃ session, later.before.sessions number = some session ∧
        session.phase.message? = some message)
    past

/-- A session looks up the client to which it writes a message. -/
structure Finds (number : Nat) (client : SignalClient)
    (message : SignalMessage) (target : Nat) (visit : SignalVisit) :
    Prop where
  input : ∃ meets, visit.input = .step number meets
  sending : visit.before.sessions number = some ⟨client, .sending message⟩
  registered : visit.before.hub.lookup message.target = some target

/-- A session looked up the client to which it has been writing since. -/
def Found (number : Nat) (client : SignalClient) (message : SignalMessage)
    (target : Nat) (past : List SignalVisit) : Prop :=
  Machine.Since (fun _ => Finds number client message target)
    (fun later =>
      later.before.sessions number = some ⟨client, .writing message target⟩)
    past

/-- The server looked up the client of a key, and is still to write to it. -/
def Woken (publicKey : String) (write : Nat × SignalMessage)
    (past : List SignalVisit) : Prop :=
  Machine.Since
    (fun _ visit => Wakes visit.before visit.input publicKey write)
    (fun later => write ∈ later.before.pending) past

/-- A session's client has a key. -/
def SignalState.Keyed (state : SignalState) (number : Nat)
    (publicKey : String) : Prop :=
  ∃ session, state.sessions number = some session ∧
    session.client.publicKey = publicKey

/--
Where sessions and messages come from: for each there is the step at which it
was let in, checked or looked up, since which it has been under way.
-/
structure SignalAuthentic (config : Config) (past : List SignalVisit)
    (state : SignalState) : Prop where
  entered :
    ∀ number peerID, state.entering number = some peerID →
      Entered config number peerID past
  opened :
    ∀ number session, state.sessions number = some session →
      Opened config number session.client past
  passing :
    ∀ number session message, state.sessions number = some session →
      session.phase.message? = some message →
        message.sender = session.client.publicKey ∧
          Checked config number session.client message past
  found :
    ∀ number client message target,
      state.sessions number = some ⟨client, .writing message target⟩ →
        state.Keyed target message.target ∧
          Found number client message target past
  pending :
    ∀ write, write ∈ state.pending →
      ∃ publicKey, state.Keyed write.1 publicKey ∧
        Woken publicKey write past

section Source

variable {next : SignalState} {event : SignalEvent} {input : SignalInput}
  {number : Nat}

/-- A request is entering, or has just been accepted. -/
theorem SignalChange.enters
    {peerID : Int}
    (change : SignalChange config state input event next)
    (entering : next.entering number = some peerID) :
    state.entering number = some peerID ∨
      ∃ http now answers after,
        input = .authenticate number http now answers ∧
          Runs (authenticated config http now) state.server (.ok peerID)
            after := by
  cases change with
  | accepted run =>
      rw [SignalState.entering_enter] at entering
      split at entering
      · rename_i same
        cases entering
        subst same
        exact Or.inr ⟨_, _, _, _, rfl, run⟩
      · exact Or.inl entering
  | opened _ _ _ =>
      rw [SignalState.entering_move, SignalState.entering_enter] at entering
      split at entering
      · cases entering
      · exact Or.inl entering
  | registered _ _ _ _ _ => exact Or.inl entering
  | moved _ _ => exact Or.inl entering
  | unregistered _ _ => exact Or.inl entering
  | elsewhere _ enters _ => exact Or.inl (enters _ _ entering)

/-- A session was there, or is the one that has gone on. -/
theorem SignalPasses.source
    {base : SignalState}
    {mover : Nat}
    {meets : SignalMeets}
    {session found : SignalSession}
    {phase : SignalPhase}
    (passes : SignalPasses config state session phase)
    (was : state.sessions mover = some session)
    (same : base.sessions = state.sessions)
    (present : (base.move mover session phase).sessions number = some found) :
    ∃ earlier, state.sessions number = some earlier ∧
      earlier.client = found.client ∧
      (earlier.phase = found.phase ∨
        (∃ met, SignalInput.step mover meets = .step number met) ∧
          SignalPasses config state earlier found.phase) := by
  rw [SignalState.sessions_move, same] at present
  split at present
  · rename_i moved
    cases present
    subst moved
    exact ⟨session, was, rfl, Or.inr ⟨⟨_, rfl⟩, passes⟩⟩
  · exact ⟨found, present, rfl, Or.inl rfl⟩

/-- A session was there, was let in, or has gone on. -/
theorem SignalChange.source
    {session : SignalSession}
    (change : SignalChange config state input event next)
    (present : next.sessions number = some session) :
    ((∃ upgrade answers, input = .connect number upgrade answers) ∧
        state.sessions number = none ∧
        state.entering number = some session.client.peerID ∧
        state.server.HasRow session.client.peerID session.client.publicKey ∧
        session.phase = .registering) ∨
      ∃ earlier, state.sessions number = some earlier ∧
        earlier.client = session.client ∧
        (earlier.phase = session.phase ∨
          (∃ meets, input = .step number meets) ∧
            SignalPasses config state earlier session.phase) := by
  cases change with
  | accepted _ => exact Or.inr ⟨_, present, rfl, Or.inl rfl⟩
  | opened fresh entered run =>
      rw [SignalState.sessions_move] at present
      split at present
      · rename_i same
        cases present
        subst same
        exact Or.inl
          ⟨⟨_, _, rfl⟩, fresh, entered, (openSignal_ok run).2, rfl⟩
      · exact Or.inr ⟨_, present, rfl, Or.inl rfl⟩
  | registered was _ _ passes _ => exact Or.inr (passes.source was rfl present)
  | moved moves _ =>
      exact Or.inr (moves.passes.source moves.present rfl present)
  | @unregistered _ _ mover was _ =>
      have passes : SignalPasses config state mover .returned :=
        ⟨nofun, nofun⟩
      exact Or.inr (passes.source was rfl present)
  | elsewhere _ _ _ => exact Or.inr ⟨_, present, rfl, Or.inl rfl⟩

/-- Sessions keep the keys of their clients. -/
theorem SignalChange.keeps_key
    {publicKey : String}
    (change : SignalChange config state input event next)
    (holds : state.Keyed number publicKey) :
    next.Keyed number publicKey := by
  obtain ⟨other, was, named⟩ := holds
  obtain ⟨later, remains, same⟩ := change.keeps was
  exact ⟨later, remains, same ▸ named⟩

end Source

section Step

variable {past : List SignalVisit} {visit : SignalVisit}
  (authentic : SignalAuthentic config past visit.before)
  (tracked : SignalTracked past visit.before)
  (change :
    SignalChange config visit.before visit.input visit.output visit.after)

include authentic change

theorem SignalAuthentic.entered_step
    {number : Nat}
    {peerID : Int}
    (entering : visit.after.entering number = some peerID) :
    Entered config number peerID (past ++ [visit]) := by
  rcases change.enters entering with was | ⟨http, now, answers, _, given, run⟩
  · exact (authentic.entered _ _ was).append was
  · obtain ⟨row, token, rest⟩ := authenticated_row run
    exact Machine.Since.last ⟨http, now, answers, row, token, given, rest⟩

theorem SignalAuthentic.opened_step
    {number : Nat}
    {session : SignalSession}
    (present : visit.after.sessions number = some session) :
    Opened config number session.client (past ++ [visit]) := by
  rcases change.source present with
    ⟨given, fresh, entering, row, -⟩ | ⟨earlier, was, same, -⟩
  · exact Machine.Since.last
      ⟨given, fresh, authentic.entered _ _ entering, row⟩
  · exact (same ▸ authentic.opened number earlier was).append
      ⟨earlier, was, same⟩

theorem SignalAuthentic.passing_step
    {number : Nat}
    {session : SignalSession}
    {message : SignalMessage}
    (present : visit.after.sessions number = some session)
    (passing : session.phase.message? = some message) :
    message.sender = session.client.publicKey ∧
      Checked config number session.client message (past ++ [visit]) := by
  rcases change.source present with
    ⟨-, -, -, -, registering⟩ | ⟨earlier, was, same, phases⟩
  · rw [registering] at passing
    cases passing
  have known :
      earlier.phase.message? = some message ∨
        (∃ meets, visit.input = .step number meets) ∧
          earlier.phase = .reading ∧ ∃ sent stamp after,
            Runs
              (handleSignalMessage config earlier.client sent stamp
                (fun _ => true))
              visit.before.server (.ok (some message)) after := by
    rcases phases with samePhase | ⟨given, passes⟩
    · exact Or.inl (samePhase ▸ passing)
    · exact (passes.checked message passing).imp_right (⟨given, ·⟩)
  rw [← same]
  rcases known with held | ⟨given, reading, _, _, _, run⟩
  · obtain ⟨sender, since⟩ :=
      authentic.passing number earlier message was held
    exact ⟨sender, since.append ⟨earlier, was, held⟩⟩
  · obtain ⟨⟨_, -, shape⟩, reaches⟩ := handleSignalMessage_ok run
    refine ⟨shape ▸ rfl, Machine.Since.last ⟨given, ?_, reaches⟩⟩
    rw [was, ← reading]

include tracked

theorem SignalAuthentic.found_step
    {number target : Nat}
    {client : SignalClient}
    {message : SignalMessage}
    (present :
      visit.after.sessions number =
        some ⟨client, .writing message target⟩) :
    visit.after.Keyed target message.target ∧
      Found number client message target (past ++ [visit]) := by
  rcases change.source present with
    ⟨-, -, -, -, ⟨⟩⟩ | ⟨⟨own, phase⟩, was, ownSame, phases⟩
  cases ownSame
  rcases phases with samePhase | ⟨given, passes⟩
  · cases samePhase
    obtain ⟨registered, since⟩ := authentic.found _ _ _ _ was
    exact ⟨change.keeps_key registered, since.append was⟩
  · obtain ⟨sending, lookup⟩ := passes.found _ _ rfl
    cases sending
    exact ⟨change.keeps_key
        (tracked.keyed _ _ ((tracked.entry _ _).mp lookup).1),
      Machine.Since.last ⟨given, was, lookup⟩⟩

theorem SignalAuthentic.pending_step
    {write : Nat × SignalMessage}
    (member : write ∈ visit.after.pending) :
    ∃ publicKey, visit.after.Keyed write.1 publicKey ∧
      Woken publicKey write (past ++ [visit]) := by
  rcases change.queues write member with old | ⟨key, wakes⟩
  · obtain ⟨key, registered, since⟩ := authentic.pending write old
    exact ⟨key, change.keeps_key registered, since.append old⟩
  · exact ⟨key,
      change.keeps_key
        (tracked.keyed _ _ ((tracked.entry _ _).mp wakes.2.1).1),
      Machine.Since.last wakes⟩

/-- A step keeps what it does not begin. -/
theorem SignalAuthentic.step :
    SignalAuthentic config (past ++ [visit]) visit.after where
  entered _ _ entering := authentic.entered_step change entering
  opened _ _ present := authentic.opened_step change present
  passing _ _ _ present passing :=
    authentic.passing_step change present passing
  found _ _ _ _ present := authentic.found_step tracked change present
  pending _ member := authentic.pending_step tracked change member

end Step

section Runs

variable (config : Config) (server : State) (inputs : List SignalInput)

/-- What every run keeps. -/
theorem signal_run :
    let past := (signalMachine config).visits (.new server) inputs
    let state := (signalMachine config).run (.new server) inputs
    SignalTracked past state ∧ SignalAuthentic config past state := by
  refine @Machine.history_invariant _ _ _ (signalMachine config)
    (fun past state =>
      SignalTracked past state ∧ SignalAuthentic config past state)
    _ ⟨⟨?_, nofun, ?_⟩, ?_, ?_, ?_, ?_, ?_⟩ ?_ inputs
  · intro publicKey number
    exact ⟨nofun, fun both => nomatch both.1⟩
  iterate 6
    simp [SignalState.new]
  · rintro past current input ⟨tracked, authentic⟩
    have change := signalMachine_change config current input
    exact ⟨tracked.step change, authentic.step tracked change⟩

/--
In every interleaving of sessions, broadcasts and requests, the hub's client of
a key is the one that registered last, if it has not unregistered.  The
connection of any other client that has not unregistered is closed or about to
be, so that an old session neither keeps nor takes away a new one's place.
-/
theorem signal_hub_follows_sessions :
    SignalTracked ((signalMachine config).visits (.new server) inputs)
      ((signalMachine config).run (.new server) inputs) :=
  (signal_run config server inputs).1

end Runs

/-- A step of the server removes a peer. -/
def SignalInput.removes (id : Int) : SignalInput → Prop
  | .server (.request ⟨.admin admin, _⟩) => admin.op = .removePeer id
  | .server (.operation input) => input.op = .removePeer id
  | _ => False

/-- A row stays with its key until its peer is removed. -/
theorem hasRow_step
    {server : State}
    {id : Int}
    {publicKey : String}
    (has : server.HasRow id publicKey)
    {event : Event}
    (stays : ¬ (SignalInput.server event).removes id) :
    ((system config).step server event).2.HasRow id publicKey := by
  have kept :
      ∀ {store : Store.State} {after : DB} {op : Op} {reply : Reply},
        (∃ row ∈ store.db.tables.peers, row.id = id ∧
          row.publicKey = publicKey) →
        op ≠ .removePeer id →
        Effect config.store store.view store.db after op reply →
        ∃ row,
          row ∈ (remember { store with db := after } op
            reply).db.tables.peers ∧
          row.id = id ∧ row.publicKey = publicKey := by
    rintro store after op reply ⟨row, member, rfl, rfl⟩ other effect
    rw [remember_db]
    obtain ⟨later, laterMember, continued⟩ := effect.persists member other
    exact ⟨later, laterMember, continued.id, continued.publicKey⟩
  cases event with
  | operation input =>
      rcases step_cases config.store server.store input with
        ⟨_, stepped⟩ | ⟨_, _, stepped, effect⟩
      · simp only [system, stepped]
        exact has
      · simp only [State.HasRow, system, stepped]
        exact kept has stays effect
  | request input =>
      obtain ⟨ops, performed, path⟩ := step_performs config server input
      refine path.invariant (fun _ _ _ _ => kept) ?_ has
      intro step member removes
      obtain ⟨call, answers⟩ := input
      cases performed with
      | nothing => cases member
      | enrolled _ follows =>
          rcases List.mem_cons.mp member with rfl | later
          · cases removes
          · rcases follows step later with rfl | rfl <;> cases removes
      | reported _ _ _ _ | mobilePeer _ | migrated _ =>
          rw [List.mem_singleton.mp member] at removes
          cases removes
      | admin op reply =>
          rw [List.mem_singleton.mp member] at removes
          exact stays removes

/-- Sessions leave the server alone. -/
theorem hasRow_signal
    {id : Int}
    {publicKey : String}
    (has : state.server.HasRow id publicKey)
    {input : SignalInput}
    (stays : ¬ input.removes id) :
    ((signalMachine config).step state input).2.server.HasRow id
      publicKey := by
  cases input with
  | server event => exact hasRow_step has stays
  | step number meets =>
      simp only [signalMachine, signalStep]
      repeat' split
      all_goals exact has
  | _ =>
      simp only [signalMachine]
      repeat' split
      all_goals exact has

/--
As long as a peer is not removed, every session that was opened with its token
acts under the key of its row, whoever else comes and goes.  Ids are used
again, so that this ends with a removal.
-/
theorem signal_senders_current
    (config : Config)
    (server : State)
    {inputs : List SignalInput}
    {id : Int}
    (stays : ∀ input ∈ inputs, ¬ input.removes id)
    {number : Nat}
    {session : SignalSession}
    (present :
      ((signalMachine config).run (.new server) inputs).sessions number =
        some session)
    (own : session.client.peerID = id) :
    ((signalMachine config).run (.new server) inputs).server.HasRow id
      session.client.publicKey := by
  refine @Machine.run_invariant_on _ _ _ (signalMachine config)
    (fun state =>
      ∀ number session, state.sessions number = some session →
        session.client.peerID = id →
          state.server.HasRow id session.client.publicKey)
    (fun input => ¬ input.removes id) ?_ (.new server) nofun _ stays
    number session present own
  intro state input holds allowed number session present own
  refine hasRow_signal ?_ allowed
  rcases (signalMachine_change config state input).source present with
    ⟨-, -, -, row, -⟩ | ⟨earlier, was, same, -⟩
  · exact own ▸ row
  · exact same ▸ holds number earlier was (same ▸ own)

/-- The first agent's session outlives the second agent's row. -/
theorem signal_senders_current_alice :
    ((signalMachine (.sample true)).run (.new strangersState)
      ([.authenticate 1 aliceRequest 0 [], .connect 1 none []] ++
        replacement.map (fun input => .server (.operation input)) ++
        [.step 1 ⟨.failed, "", false, []⟩])).server.HasRow 1 "alice" := by
  have present :
      ((signalMachine (.sample true)).run (.new strangersState)
        ([.authenticate 1 aliceRequest 0 [], .connect 1 none []] ++
          replacement.map (fun input => .server (.operation input)) ++
          [.step 1 ⟨.failed, "", false, []⟩])).sessions 1 =
        some ⟨⟨1, "alice"⟩, .greeting⟩ := by
    decide +kernel
  refine signal_senders_current _ _ ?_ present rfl
  simp [SignalInput.removes, replacement, Op.accepted]

end WgMesh.Server
