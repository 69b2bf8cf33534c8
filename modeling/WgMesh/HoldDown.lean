import Mathlib.Data.List.Induction
import WgMesh.RelayCoherence

namespace WgMesh.Agent

/-!
# The hold-down after a flap

While a hold-down is in force no probe is started and none is active, whatever
else asks for one.  Flaps in a row double it up to sixteen minutes, and a punch
epoch that comes during it is used up.
-/

open CivilTime FiniteRuns PairKeys Server

/-- The clock readings of a call, in their order. -/
def Call.readings : Call → List Instant
  | .count _ now => [now]
  | .maybeRetryDirect _ _ _ answers =>
      [answers.gate, answers.since, answers.started]
  | .checkPeer _ now _ => [now]
  | .checkDirectProbe _ now _ => [now]
  | _ => []

/-- The clock never goes back. -/
def Clocked (calls : List Call) : Prop :=
  (calls.flatMap (·.readings)).Pairwise (fun first second => first ≤ second)

instance (calls : List Call) : Decidable (Clocked calls) :=
  inferInstanceAs (Decidable (List.Pairwise _ _))

/-- The count of a peer's flaps in a row, carried over one event. -/
def countFlap (key : Key) (flaps : Nat) : Event → Nat
  | .flapped other _ _ => if other = key then flaps + 1 else flaps
  | .settled other => if other = key then 0 else flaps
  | _ => flaps

/-- How many flaps of a peer there were since its last stable stint. -/
def flapsInARow (key : Key) (events : List Event) : Nat :=
  events.foldl (countFlap key) 0

/-- Two, four, eight and then sixteen minutes. -/
def holdLength (flaps : Nat) : Int :=
  minute *
    (if flaps ≤ 1 then 2
    else if flaps = 2 then 4
    else if flaps = 3 then 8
    else 16)

/-- What the hold-down of a peer guarantees in a run of calls. -/
structure HoldsDown
    (config : ReporterConfig)
    (device : Device)
    (calls : List Call)
    (key : Key) : Prop where
  /-- A probe is active at no moment of the hold-down. -/
  quiet :
    ∀ before after,
      calls = before ++ after →
      ∀ moment,
        (∀ reading,
          reading ∈ before.flatMap (·.readings) → reading ≤ moment) →
        (((callMachine config).run (Reporter.new device) before).state
            key).directProbe.isSome = true →
        (((callMachine config).run (Reporter.new device) before).state
            key).isHeld moment = false
  /-- A probe is started at no moment of the hold-down. -/
  started :
    ∀ before call after endpoint coordinated epoch,
      calls = before ++ call :: after →
      .retrying key endpoint coordinated epoch ∈
        (((callMachine config).run (Reporter.new device) before).call config
          call).1 →
      ∃ now,
        call.time = some now ∧
          (((callMachine config).run (Reporter.new device) before).state
            key).isHeld now = false
  /-- The length goes by the flaps in a row. -/
  lengths :
    ∀ before call after hold flaps,
      calls = before ++ call :: after →
      .flapped key hold flaps ∈
        (((callMachine config).run (Reporter.new device) before).call config
          call).1 →
      flaps =
          flapsInARow key
              (told
                ((callMachine config).visits (Reporter.new device) before)) +
            1 ∧
        hold = holdLength flaps ∧
        ∃ now,
          call.time = some now ∧
            (((callMachine config).run (Reporter.new device)
                (before ++ [call])).state key).holdDownUntil =
              some (now + hold)
  /-- An epoch of the hold-down coordinates no later probe. -/
  consumed :
    ∀ before candidates epoch answers after,
      calls =
        before ++ .maybeRetryDirect key candidates epoch answers :: after →
      config.directProbeOff = false →
      candidates ≠ [] →
      (((callMachine config).run (Reporter.new device) before).state
          key).relayed = true →
      (((callMachine config).run (Reporter.new device) before).state
          key).isHeld answers.gate = true →
      ∀ visit,
        visit ∈
          (callMachine config).visits
            ((callMachine config).run (Reporter.new device) before)
            (.maybeRetryDirect key candidates epoch answers :: after) →
        ∀ endpoint, .retrying key endpoint true epoch ∉ visit.output

variable {p : PeerRelay} {now moment : Instant} {key : Key}
  {before after : View} {events : List Event} {candidates : List AddrPort}
  {call : Call} {event : Event} {epoch : Nat} {config : ReporterConfig}

/-- A hold-down that is over stays over. -/
theorem PeerRelay.isHeld_mono
    {later : Instant}
    (notBefore : now ≤ later)
    (free : p.isHeld now = false) :
    p.isHeld later = false := by
  unfold PeerRelay.isHeld at free ⊢
  cases held : p.holdDownUntil with
  | none => rfl
  | some heldUntil =>
      rw [held] at free
      have passed : ¬ now < heldUntil := of_decide_eq_false free
      exact
        decide_eq_false
          (fun early => passed (Int.lt_of_le_of_lt notBefore early))

/-- No probe is active while the hold-down is in force. -/
def Unheld (moment : Instant) (p : PeerRelay) : Prop :=
  p.directProbe.isSome = true → p.isHeld moment = false

theorem unheld_of_none
    (idle : p.directProbe = none) :
    Unheld moment p := by
  intro active
  rw [idle] at active
  cases active

/-- A change starts no probe and arms no hold-down. -/
theorem Change.unheld
    (change : Change key now before events after)
    (unheld : Unheld now before.relay) :
    Unheld now after.relay := by
  cases change with
  | counted peer => exact unheld
  | verifying active =>
      exact fun _ => unheld (by rw [active]; rfl)
  | rotating active chosen =>
      exact fun _ => unheld (by rw [active]; rfl)
  | restoring active => exact unheld_of_none rfl
  | promoting active found direct => exact unheld_of_none rfl
  | seen => exact unheld
  | unavailable direct => exact unheld

theorem Changes.unheld
    (changes : Changes key now before events after)
    (unheld : Unheld now before.relay) :
    Unheld now after.relay := by
  induction changes with
  | done => exact unheld
  | next change _ inductionHypothesis =>
      exact inductionHypothesis (change.unheld unheld)

/-- A fallback arms the hold-down of a peer that has no probe. -/
theorem Fall.unheld
    (fall : Fall key now before events after)
    (coherent : Coherent before.relay)
    (unheld : Unheld now before.relay) :
    Unheld now after.relay := by
  cases fall with
  | stays => exact unheld
  | relaying kind endpoint direct =>
      have idle :
          (before.relay.fallenBack kind endpoint now).directProbe = none := by
        have bare := (coherent.bare direct).1
        cases kind <;> exact bare
      refine unheld_of_none ?_
      exact
        (PeerRelay.noteDirectStintEnded_fields _ now).2.2.2.1.trans idle

/-- A retry starts a probe when nothing holds it down. -/
theorem Retried.unheld
    {punchEpoch : Nat}
    (retried : Retried key now candidates punchEpoch before events after)
    (unheld : Unheld now before.relay) :
    Unheld now after.relay := by
  cases retried with
  | refused => exact unheld
  | noted relayed =>
      intro active
      rw [PeerRelay.noted_eq] at active
      rw [PeerRelay.isHeld_noted]
      exact unheld active
  | probing relayed free nonempty tries index endpoint fresh =>
      intro _
      rw [← PeerRelay.isHeld_noted before.relay candidates punchEpoch] at free
      exact free

/-- A turn at a moment leaves no probe that is held down. -/
theorem Turn.unheld
    (turn : Turn key call before events after)
    (time : ∀ now, call.time = some now → now = moment)
    (coherent : Coherent before.relay)
    (unheld : Unheld moment before.relay) :
    Unheld moment after.relay := by
  cases turn with
  | idle => exact unheld
  | checked target isTime isCheck checked =>
      have same := time _ isTime
      subst same
      obtain ⟨changes, fall⟩ := checked
      exact fall.unheld (changes.coherent coherent) (changes.unheld unheld)
  | retried retried =>
      have same := time _ rfl
      subst same
      exact retried.unheld unheld
  | synced desired _ => exact unheld
  | retired =>
      rcases coherent.retire_cases with
        same | ⟨-, -, retired⟩ | ⟨-, -, retired⟩
      · change Unheld moment before.relay.retire
        rw [same]
        exact unheld
      · exact unheld_of_none (congrArg PeerRelay.directProbe retired)
      · exact unheld_of_none (congrArg PeerRelay.directProbe retired)
  | died => exact unheld
  | heard lastHandshakeTime receiveBytes => exact unheld
  | roamed endpoint => exact unheld

theorem Call.time_mem_readings
    (time : call.time = some now) :
    now ∈ call.readings := by
  cases call <;> cases time <;> exact List.mem_cons_self

theorem coherent_run
    (config : ReporterConfig)
    (device : Device)
    (calls : List Call) :
    ((callMachine config).run (Reporter.new device) calls).Coherent :=
  @Machine.run_invariant _ _ _ (callMachine config) Reporter.Coherent
    (fun _ call coherent => Reporter.Coherent.call config coherent call)
    (Reporter.new device) (Reporter.coherent_new device) calls

/-- In a run with a clock, no probe is active at a moment of the hold-down. -/
theorem unheld_run
    (config : ReporterConfig)
    (device : Device)
    (key : Key)
    {calls : List Call}
    (clocked : Clocked calls)
    (reached :
      ∀ reading, reading ∈ calls.flatMap (·.readings) → reading ≤ moment) :
    Unheld moment
      (((callMachine config).run (Reporter.new device) calls).state key) := by
  -- From the last call back: it is decided at its own reading, which no
  -- earlier reading exceeds.
  induction calls using List.reverseRecOn generalizing moment with
  | nil => exact unheld_of_none rfl
  | append_singleton calls call inductionHypothesis =>
      have readings :
          (calls ++ [call]).flatMap (·.readings) =
            calls.flatMap (·.readings) ++ call.readings := by
        simp
      unfold Clocked at clocked
      rw [readings] at clocked reached
      obtain ⟨clockedBefore, -, inOrder⟩ := List.pairwise_append.mp clocked
      have turn :=
        call_turn config
          ((callMachine config).run (Reporter.new device) calls) call key
      rw [Machine.run_append]
      cases time : call.time with
      | none =>
          refine
            turn.unheld (fun now isTime => ?_)
              (coherent_run config device calls key)
              (inductionHypothesis clockedBefore
                (fun reading member =>
                  reached reading (List.mem_append_left _ member)))
          rw [time] at isTime
          cases isTime
      | some now =>
          have member := Call.time_mem_readings time
          have unheldNow :=
            turn.unheld
              (fun other isTime => Option.some.inj (isTime.symm.trans time))
              (coherent_run config device calls key)
              (inductionHypothesis clockedBefore
                (fun reading earlier =>
                  inOrder reading earlier now member))
          exact fun active =>
            PeerRelay.isHeld_mono
              (reached now (List.mem_append_right _ member))
              (unheldNow active)

/-- The events of a check before a fallback. -/
def Event.isCheck : Event → Bool
  | .tryingNext _ _ => true
  | .verifying _ => true
  | .leavingRelay _ => true
  | .stayingOnRelay _ _ _ => true
  | _ => false

theorem Change.isCheck_of_mem
    (change : Change key now before events after)
    (member : event ∈ events) :
    event.isCheck = true := by
  cases change with
  | counted | seen | unavailable => exact (List.not_mem_nil member).elim
  | verifying | rotating | restoring | promoting =>
      rw [List.mem_singleton.mp member]
      rfl

theorem Changes.isCheck_of_mem
    (changes : Changes key now before events after)
    (member : event ∈ events) :
    event.isCheck = true := by
  induction changes with
  | done => exact (List.not_mem_nil member).elim
  | next change _ inductionHypothesis =>
      rcases List.mem_append.mp member with inFirst | inRest
      · exact change.isCheck_of_mem inFirst
      · exact inductionHypothesis inRest

/-- The end of a stint tells of a flap or of a stable stint. -/
theorem PeerRelay.mem_stintEvents
    (member : event ∈ p.stintEvents key now) :
    event = .settled key ∨
      event =
          .flapped key (flapHoldDown (p.directFlaps + 1))
            (p.directFlaps + 1) ∧
        (p.noteDirectStintEnded now).holdDownUntil =
          some (now + flapHoldDown (p.directFlaps + 1)) := by
  unfold PeerRelay.stintEvents at member
  split at member
  · exact (List.not_mem_nil member).elim
  · rename_i since started
    split at member
    · exact Or.inl (List.mem_singleton.mp member)
    · rename_i short
      refine Or.inr ⟨List.mem_singleton.mp member, ?_⟩
      simp [PeerRelay.noteDirectStintEnded, started, short]

/-- A check tells of no retry. -/
theorem Checked.not_retrying
    (checked : Checked key now before events after)
    (endpoint : AddrPort)
    (coordinated : Bool)
    (epoch : Nat) :
    .retrying key endpoint coordinated epoch ∉ events := by
  intro member
  obtain ⟨changes, fall⟩ := checked
  rcases List.mem_append.mp member with inChanges | inFall
  · cases changes.isCheck_of_mem inChanges
  · cases fall with
    | stays => exact (List.not_mem_nil inFall).elim
    | relaying kind endpoint direct =>
        rcases List.mem_cons.mp inFall with isRelaying | inStint
        · cases isRelaying
        · rcases PeerRelay.mem_stintEvents inStint with settled | ⟨flapped, -⟩
          · cases settled
          · cases flapped

/-- A probe starts in `maybeRetryDirect`, when nothing holds it down, and is
coordinated by a fresh epoch only. -/
theorem Turn.retrying
    (turn : Turn key call before events after)
    {endpoint : AddrPort}
    {coordinated : Bool}
    (member : .retrying key endpoint coordinated epoch ∈ events) :
    (∃ now, call.time = some now ∧ before.relay.isHeld now = false) ∧
      (coordinated = true → before.relay.isFresh epoch = true) := by
  cases turn with
  | idle | synced | retired | died | heard | roamed =>
      exact (List.not_mem_nil member).elim
  | checked target time isCheck checked =>
      exact (checked.not_retrying endpoint coordinated epoch member).elim
  | retried retried =>
      cases retried with
      | refused | noted => exact (List.not_mem_nil member).elim
      | probing relayed free nonempty tries index endpoint fresh =>
          cases List.mem_singleton.mp member
          exact ⟨⟨_, rfl, free⟩, fresh⟩

theorem countFlap_of_other
    (isOther : event.key ≠ key)
    (flaps : Nat) :
    countFlap key flaps event = flaps := by
  cases event with
  | flapped other hold count => exact if_neg isOther
  | settled other => exact if_neg isOther
  | _ => rfl

/-- Checks do not count for the flaps. -/
theorem foldl_countFlap_isCheck
    (checks : ∀ event ∈ events, event.isCheck = true)
    (flaps : Nat) :
    events.foldl (countFlap key) flaps = flaps := by
  induction events with
  | nil => rfl
  | cons event rest inductionHypothesis =>
      have unmoved : countFlap key flaps event = flaps := by
        have isCheck := checks event List.mem_cons_self
        cases event with
        | flapped | settled => cases isCheck
        | _ => rfl
      rw [List.foldl_cons, unmoved]
      exact
        inductionHypothesis
          (fun other member => checks other (List.mem_cons_of_mem _ member))

theorem Changes.directFlaps
    (changes : Changes key now before events after) :
    after.relay.directFlaps = before.relay.directFlaps ∧
      after.relay.lastPunchEpoch = before.relay.lastPunchEpoch := by
  induction changes with
  | done => exact ⟨rfl, rfl⟩
  | next change _ inductionHypothesis =>
      cases change <;> exact inductionHypothesis

/-- The end of a stint counts its flap, and leaves the epoch alone. -/
theorem PeerRelay.directFlaps_noteDirectStintEnded
    (p : PeerRelay)
    (key : Key)
    (now : Instant) :
    (p.noteDirectStintEnded now).directFlaps =
        (p.stintEvents key now).foldl (countFlap key) p.directFlaps ∧
      (p.noteDirectStintEnded now).lastPunchEpoch = p.lastPunchEpoch := by
  unfold PeerRelay.noteDirectStintEnded PeerRelay.stintEvents
  cases p.directSince with
  | none => exact ⟨rfl, rfl⟩
  | some since =>
      by_cases stable : directStableTenure ≤ now - since
      · simp [stable, countFlap]
      · simp [stable, countFlap]

/-- The sweep touches neither the flaps nor the epoch. -/
theorem PeerRelay.directFlaps_retire
    (p : PeerRelay) :
    p.retire.directFlaps = p.directFlaps ∧
      p.retire.lastPunchEpoch = p.lastPunchEpoch := by
  unfold PeerRelay.retire
  simp only
  split
  · split
    · exact ⟨rfl, rfl⟩
    · exact ⟨rfl, rfl⟩
  · split
    · exact ⟨rfl, rfl⟩
    · exact ⟨rfl, rfl⟩

/-- A turn counts the flaps it tells of. -/
theorem Turn.directFlaps
    (turn : Turn key call before events after) :
    after.relay.directFlaps =
      events.foldl (countFlap key) before.relay.directFlaps := by
  cases turn with
  | idle | synced | died | heard | roamed => rfl
  | retired => exact before.relay.directFlaps_retire.1
  | checked target time isCheck checked =>
      obtain ⟨changes, fall⟩ := checked
      rw [List.foldl_append,
        foldl_countFlap_isCheck (fun _ => changes.isCheck_of_mem),
        ← changes.directFlaps.1]
      cases fall with
      | stays => rfl
      | relaying kind endpoint direct =>
          refine
            (PeerRelay.directFlaps_noteDirectStintEnded _ key _).1.trans ?_
          cases kind <;> rfl
  | retried retried =>
      cases retried with
      | refused => rfl
      | noted relayed =>
          rw [PeerRelay.noted_eq]
          rfl
      | probing relayed free nonempty tries index endpoint fresh =>
          change (before.relay.noted _ _).directFlaps = _
          rw [PeerRelay.noted_eq]
          rfl

/-- A turn that tells of a flap arms the hold-down for it. -/
theorem Turn.flapped
    (turn : Turn key call before events after)
    {hold : Int}
    {flaps : Nat}
    (member : .flapped key hold flaps ∈ events) :
    flaps = before.relay.directFlaps + 1 ∧
      hold = flapHoldDown flaps ∧
      ∃ now,
        call.time = some now ∧
          after.relay.holdDownUntil = some (now + hold) := by
  cases turn with
  | idle | synced | retired | died | heard | roamed =>
      exact (List.not_mem_nil member).elim
  | retried retried =>
      cases retried with
      | refused | noted => exact (List.not_mem_nil member).elim
      | probing => cases List.mem_singleton.mp member
  | checked target time isCheck checked =>
      obtain ⟨changes, fall⟩ := checked
      rw [← changes.directFlaps.1]
      rcases List.mem_append.mp member with inChanges | inFall
      · cases changes.isCheck_of_mem inChanges
      · cases fall with
        | stays => exact (List.not_mem_nil inFall).elim
        | relaying kind endpoint direct =>
            rcases List.mem_cons.mp inFall with isRelaying | inStint
            · cases isRelaying
            · rcases PeerRelay.mem_stintEvents inStint with
                settled | ⟨isFlap, armed⟩
              · cases settled
              · cases isFlap
                refine ⟨?_, rfl, _, time, armed⟩
                cases kind <;> rfl

/-- The epoch a peer has seen only grows. -/
theorem Turn.lastPunchEpoch_le
    (turn : Turn key call before events after) :
    before.relay.lastPunchEpoch ≤ after.relay.lastPunchEpoch := by
  have noted :
      ∀ candidates punchEpoch,
        before.relay.lastPunchEpoch ≤
          (before.relay.noted candidates punchEpoch).lastPunchEpoch := by
    intro candidates punchEpoch
    rw [PeerRelay.noted_eq]
    simp only
    split
    · rename_i fresh
      simp only [PeerRelay.isFresh, Bool.and_eq_true,
        decide_eq_true_eq] at fresh
      exact Nat.le_of_lt fresh.2
    · exact Nat.le_refl _
  cases turn with
  | idle | synced | died | heard | roamed => exact Nat.le_refl _
  | retired => exact Nat.le_of_eq before.relay.directFlaps_retire.2.symm
  | checked target time isCheck checked =>
      obtain ⟨changes, fall⟩ := checked
      rw [← changes.directFlaps.2]
      cases fall with
      | stays => exact Nat.le_refl _
      | relaying kind endpoint direct =>
          refine Nat.le_of_eq (Eq.symm ?_)
          refine
            (PeerRelay.directFlaps_noteDirectStintEnded _ key _).2.trans ?_
          cases kind <;> rfl
  | retried retried =>
      cases retried with
      | refused => exact Nat.le_refl _
      | noted relayed => exact noted _ _
      | probing => exact noted _ _

/-- A peer's last epoch is the old one, or that of a retry. -/
theorem Turn.lastPunchEpoch_cases
    (turn : Turn key call before events after) :
    after.relay.lastPunchEpoch = before.relay.lastPunchEpoch ∨
      ∃ candidates answers,
        call =
          .maybeRetryDirect key candidates after.relay.lastPunchEpoch
            answers := by
  cases turn with
  | idle | synced | died | heard | roamed => exact Or.inl rfl
  | retired => exact Or.inl before.relay.directFlaps_retire.2
  | checked target time isCheck checked =>
      obtain ⟨changes, fall⟩ := checked
      rw [← changes.directFlaps.2]
      cases fall with
      | stays => exact Or.inl rfl
      | relaying kind endpoint direct =>
          refine
            Or.inl
              ((PeerRelay.directFlaps_noteDirectStintEnded _ key _).2.trans ?_)
          cases kind <;> rfl
  | retried retried =>
      rename_i candidates punchEpoch answers
      have noted :
          (before.relay.noted candidates punchEpoch).lastPunchEpoch =
              before.relay.lastPunchEpoch ∨
            (before.relay.noted candidates punchEpoch).lastPunchEpoch =
              punchEpoch := by
        rw [PeerRelay.noted_eq]
        simp only
        split
        · exact Or.inr rfl
        · exact Or.inl rfl
      have either :
          after.relay.lastPunchEpoch = before.relay.lastPunchEpoch ∨
            after.relay.lastPunchEpoch = punchEpoch := by
        cases retried with
        | refused => exact Or.inl rfl
        | noted relayed => exact noted
        | probing => exact noted
      rcases either with same | isEpoch
      · exact Or.inl same
      · exact Or.inr ⟨candidates, answers, by rw [isEpoch]⟩

/-- After a run, a peer's last epoch is the old one, or that of a retry. -/
theorem lastPunchEpoch_run
    (config : ReporterConfig)
    (t : Reporter)
    (calls : List Call)
    (key : Key) :
    (((callMachine config).run t calls).state key).lastPunchEpoch =
        (t.state key).lastPunchEpoch ∨
      ∃ candidates answers,
        .maybeRetryDirect key candidates
            (((callMachine config).run t calls).state key).lastPunchEpoch
            answers ∈
          calls := by
  induction calls generalizing t with
  | nil => exact Or.inl rfl
  | cons call rest inductionHypothesis =>
      rcases inductionHypothesis (t.call config call).2 with
        same | ⟨candidates, answers, member⟩
      · rcases (call_turn config t call key).lastPunchEpoch_cases with
          unmoved | ⟨candidates, answers, isCall⟩
        · exact Or.inl (same.trans unmoved)
        · refine Or.inr ⟨candidates, answers, ?_⟩
          have isLast :
              (((callMachine config).run t (call :: rest)).state
                  key).lastPunchEpoch =
                ((t.call config call).2.view key).relay.lastPunchEpoch :=
            same
          rw [isLast, ← isCall]
          exact List.mem_cons_self
      · exact Or.inr ⟨candidates, answers, List.mem_cons_of_mem _ member⟩

/-- A retry of `applySync` comes from an entry. -/
theorem entry_of_retry
    {configured : Bool}
    {entries : List (PeerConfigResponse × RetryAnswers)}
    {earlier : List PeerConfig}
    {answers : RetryAnswers}
    (member :
      .maybeRetryDirect key candidates epoch answers ∈
        syncCalls config configured entries earlier) :
    ∃ entry,
      entry ∈ entries ∧
        parseKey entry.1.publicKey = some key ∧
        entry.1.punchEpoch = epoch := by
  induction entries generalizing earlier with
  | nil => cases List.mem_singleton.mp member
  | cons first rest inductionHypothesis =>
      obtain ⟨entry, entryAnswers⟩ := first
      unfold syncCalls at member
      split at member
      · exact (List.not_mem_nil member).elim
      · rename_i want converted
        rcases List.mem_cons.mp member with isFirst | inRest
        · cases isFirst
          exact
            ⟨(entry, answers), List.mem_cons_self,
              peerConfigFromProto_key converted, rfl⟩
        · obtain ⟨found, foundMember, isKey, isEpoch⟩ :=
            inductionHypothesis inRest
          exact ⟨found, List.mem_cons_of_mem _ foundMember, isKey, isEpoch⟩

/-- The flaps of a peer are those its run has told of. -/
theorem directFlaps_run
    (config : ReporterConfig)
    (device : Device)
    (calls : List Call)
    (key : Key) :
    (((callMachine config).run (Reporter.new device) calls).state
        key).directFlaps =
      flapsInARow key
        (told ((callMachine config).visits (Reporter.new device) calls)) := by
  have counted :=
    @Machine.history_invariant _ _ _ (callMachine config)
      (fun past current =>
        (current.state key).directFlaps = flapsInARow key (told past))
      (Reporter.new device) rfl
      (by
        intro past current call flaps
        have turned := (call_turn config current call key).directFlaps
        have extended :
            told (past ++ [(callMachine config).visit current call]) =
              told past ++ (current.call config call).1 := by
          simp [told]
          rfl
        rw [extended]
        unfold flapsInARow at flaps ⊢
        rw [List.foldl_append, ← flaps,
          ← foldl_eventsOf (fun _ isOther => countFlap_of_other isOther)]
        exact turned)
      calls
  exact counted

/-- The hold-down of each flap in a row. -/
theorem flapHoldDown_eq
    (flaps : Nat) :
    flapHoldDown (flaps + 1) = holdLength (flaps + 1) := by
  match flaps with
  | 0 => rfl
  | 1 => rfl
  | 2 => rfl
  | more + 3 =>
      have capped : ¬ more + 3 < 3 := by omega
      have many : ¬ more + 4 ≤ 1 := by omega
      simp [flapHoldDown, holdLength, capped, many, flapHoldDownBase]
      decide

/-- During the hold-down `maybeRetryDirect` only notes. -/
theorem Reporter.maybeRetryDirect_held
    {t : Reporter}
    {punchEpoch : Nat}
    {answers : RetryAnswers}
    (probes : config.directProbeOff = false)
    (nonempty : candidates ≠ [])
    (relayed : (t.state key).relayed = true)
    (held : (t.state key).isHeld answers.gate = true) :
    t.maybeRetryDirect config key candidates punchEpoch answers =
      ([], t.set key ((t.state key).noted candidates punchEpoch)) := by
  have goesOn :
      ¬ (config.directProbeOff = true ∨ candidates = [] ∨
        (t.state key).relayed = false) := by
    simp [probes, nonempty, relayed]
  unfold Reporter.maybeRetryDirect
  rw [if_neg goesOn]
  rw [← PeerRelay.isHeld_noted (t.state key) candidates punchEpoch] at held
  exact if_pos held

/-- A noted epoch is not fresh any more. -/
theorem PeerRelay.le_lastPunchEpoch_noted
    (p : PeerRelay)
    (candidates : List AddrPort)
    (punchEpoch : Nat) :
    punchEpoch ≤ (p.noted candidates punchEpoch).lastPunchEpoch := by
  rw [PeerRelay.noted_eq]
  simp only
  split
  · exact Nat.le_refl _
  · rename_i stale
    simp only [PeerRelay.isFresh, Bool.and_eq_true, decide_eq_true_eq,
      not_and, Nat.not_lt] at stale
    omega

/-- An epoch that a peer has seen coordinates no probe any more. -/
theorem not_coordinated_of_seen
    {t : Reporter}
    (seen : epoch ≤ (t.state key).lastPunchEpoch)
    (calls : List Call)
    {visit : Visit Reporter Call (List Event)}
    (member : visit ∈ (callMachine config).visits t calls)
    (endpoint : AddrPort) :
    .retrying key endpoint true epoch ∉ visit.output := by
  intro retrying
  obtain ⟨earlier, later, -, isVisit⟩ :=
    Machine.exists_prefix_of_mem_visits _ member
  have stillSeen :
      epoch ≤
        (((callMachine config).run t earlier).state key).lastPunchEpoch :=
    @Machine.run_invariant _ _ _ (callMachine config)
      (fun current => epoch ≤ (current.state key).lastPunchEpoch)
      (fun current call known =>
        Nat.le_trans known
          (call_turn config current call key).lastPunchEpoch_le)
      t seen earlier
  rw [isVisit] at retrying
  have fresh :=
    ((call_turn config ((callMachine config).run t earlier) visit.input
      key).retrying (mem_eventsOf retrying)).2 rfl
  simp only [PeerRelay.isFresh, Bool.and_eq_true,
    decide_eq_true_eq] at fresh
  exact absurd fresh.2 (Nat.not_lt.mpr stillSeen)

/--
In every run with a clock that does not go back, whatever the order of reports,
status ticks, syncs, epochs, candidate changes and proxy deaths: no probe is
started or active at a moment of the hold-down, the hold-down of the n-th flap
in a row is two, four, eight and then sixteen minutes, and an epoch that comes
with candidates for a relayed peer during it coordinates no probe.
-/
theorem hold_down_absolute
    (config : ReporterConfig)
    (device : Device)
    {calls : List Call}
    (clocked : Clocked calls)
    (key : Key) :
    HoldsDown config device calls key where
  quiet := by
    rintro before after rfl moment reached active
    refine unheld_run config device key ?_ reached active
    unfold Clocked at clocked
    rw [List.flatMap_append] at clocked
    exact (List.pairwise_append.mp clocked).1
  started := by
    intro before call after endpoint coordinated epoch _ member
    exact ((call_turn config _ call key).retrying (mem_eventsOf member)).1
  lengths := by
    intro before call after hold flaps _ member
    obtain ⟨isNext, isHold, now, time, armed⟩ :=
      (call_turn config
        ((callMachine config).run (Reporter.new device) before) call
        key).flapped (mem_eventsOf member)
    have counted := directFlaps_run config device before key
    refine ⟨isNext.trans (congrArg (· + 1) counted), ?_, now, time, ?_⟩
    · rw [isHold, isNext]
      exact flapHoldDown_eq _
    · rw [Machine.run_append]
      exact armed
  consumed := by
    intro before candidates epoch answers after _ probes nonempty relayed held
      visit member endpoint
    have only :
        ((callMachine config).run (Reporter.new device) before).call config
            (.maybeRetryDirect key candidates epoch answers) =
          _ :=
      Reporter.maybeRetryDirect_held probes nonempty relayed held
    rcases List.mem_cons.mp member with isFirst | inRest
    · rw [isFirst]
      change _ ∉ (Reporter.call config _ _).1
      rw [only]
      exact List.not_mem_nil
    · refine not_coordinated_of_seen ?_ after inRest endpoint
      change _ ≤ ((Reporter.call config _ _).2.state key).lastPunchEpoch
      rw [only]
      simp only [Reporter.set, Function.update_self]
      exact PeerRelay.le_lastPunchEpoch_noted _ candidates epoch

/-- A peer leaves the relay for a minute and a half; the next epoch comes
while it is held down. -/
def flappingCalls : List Call :=
  [.checkPeer zeroKey 0 (tunnelled 40000),
    .checkPeer zeroKey (90 * second) (tunnelled 40000),
    .maybeRetryDirect zeroKey [endpointOf 3221225985 51820] 1
      (retriedAt (91 * second)),
    .traffic zeroKey (some (92 * second)) 100,
    .checkDirectProbe zeroKey (93 * second) true,
    .traffic zeroKey (some (92 * second)) 200,
    .count zeroKey (114 * second),
    .checkDirectProbe zeroKey (115 * second) true,
    .checkPeer zeroKey (205 * second) (tunnelled 40001),
    .maybeRetryDirect zeroKey [endpointOf 3221225985 51820] 2
      (retriedAt (206 * second))]

/-- The flap is held down for two minutes. -/
theorem hold_down_absolute_flapping :
    Clocked flappingCalls ∧
      (((callMachine (webSocketAgent (endpointOf 3221225985 51820))).run
          (Reporter.new (silentDevice (endpointOf 3221225985 51820)))
          flappingCalls).state zeroKey).holdDownUntil =
        some (325 * second) ∧
      HoldsDown (webSocketAgent (endpointOf 3221225985 51820))
        (silentDevice (endpointOf 3221225985 51820)) flappingCalls zeroKey :=
  ⟨by decide +kernel, by decide +kernel,
    hold_down_absolute (webSocketAgent (endpointOf 3221225985 51820))
      (silentDevice (endpointOf 3221225985 51820)) (by decide +kernel)
      zeroKey⟩

end WgMesh.Agent
