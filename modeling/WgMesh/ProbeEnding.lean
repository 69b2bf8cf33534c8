import WgMesh.RelayRuns

namespace WgMesh.Agent

/-!
# How an unanswered probe ends

A probe tries its candidates one after the other, each for one interval, and
after the last one goes back to the relay.  A candidate that cannot be set on
the device is not passed over: `checkDirectProbe` returns without storing the
index it had moved to, so that the next call tries the same candidate again.
The probe ends exactly when no candidate that is still to come fails.
-/

open CivilTime PairKeys Server

/-- The endpoint that `checkDirectProbe` would set, once the interval is
over. -/
def DirectProbe.attempt (probe : DirectProbe) (now : Instant) :
    Option AddrPort :=
  if probe.confirmedAt.isNone && probe.canRotate now then
    probe.candidates[probe.nextIndex]?
  else
    some probe.relayEndpoint

/-- One call of `checkDirectProbe` with the peer as the device has it; only
some endpoints can be set. -/
def Reporter.checkedAt (settable : AddrPort → Bool) (key : Key)
    (t : Reporter) (now : Instant) : Reporter :=
  match t.device.peer? key with
  | none => t
  | some peer =>
      (t.checkDirectProbe peer now
        (((t.state key).directProbe.bind (·.attempt now)).all settable)).2

/-- Calls of `checkDirectProbe`, one after the other. -/
def Reporter.checkedAll (settable : AddrPort → Bool) (key : Key)
    (t : Reporter) (times : List Instant) : Reporter :=
  times.foldl (Reporter.checkedAt settable key) t

/-- Each call is at least the probe interval after the one before. -/
def Spaced (times : List Instant) : Prop :=
  times.IsChain fun earlier later => earlier + directProbeInterval ≤ later

/-- The calls after the first one come later, and are spaced. -/
theorem Spaced.cons
    {now : Instant}
    {rest : List Instant}
    (spaced : Spaced (now :: rest)) :
    (∀ later ∈ rest, now ≤ later) ∧ Spaced rest := by
  induction rest generalizing now with
  | nil => exact ⟨List.forall_mem_nil _, .nil⟩
  | cons next rest inductionHypothesis =>
      obtain ⟨apart, restSpaced⟩ := List.isChain_cons_cons.mp spaced
      have ordered : now ≤ next :=
        Int.le_trans (Int.le_add_of_nonneg_right (by decide)) apart
      refine ⟨?_, restSpaced⟩
      intro later member
      rcases List.mem_cons.mp member with rfl | inRest
      · exact ordered
      · exact Int.le_trans ordered
          ((inductionHypothesis restSpaced).1 later inRest)

/-- An uncoordinated probe that no handshake has answered. -/
structure Reporter.Probing (t : Reporter) (key : Key) (probe : DirectProbe) :
    Prop where
  active : (t.state key).directProbe = some probe
  unconfirmed : probe.confirmedAt = none
  uncoordinated : probe.deadline = none
  interval : probe.interval = directProbeInterval
  positioned : probe.index < probe.candidates.length
  unanswered :
    ∃ peer,
      t.device.peer? key = some peer ∧ probe.isAnswered peer = false

/-- There is no probe, and the device has an endpoint for the peer. -/
def Reporter.Restored (t : Reporter) (key : Key) (endpoint : AddrPort) :
    Prop :=
  (t.state key).directProbe = none ∧
    ∃ peer, t.device.peer? key = some peer ∧ peer.endpoint = some endpoint

/-- A probe that went on to its next candidate. -/
def DirectProbe.rotated (probe : DirectProbe) (now : Instant) :
    DirectProbe :=
  { probe with index := probe.index + 1, started := now }

section OneCall

variable
  {settable : AddrPort → Bool} {t : Reporter} {key : Key}
  {probe : DirectProbe} {now : Instant}

theorem Reporter.peer?_point
    {peer : LivePeer}
    (found : t.device.peer? key = some peer)
    (endpoint : AddrPort) :
    (t.point key endpoint).device.peer? key =
      some (peer.pointed endpoint) := by
  unfold Reporter.point
  rw [Device.peer?_endpointChange, if_pos rfl, found, Option.map_some,
    configured_endpointChange]

/-- Without a probe nothing happens. -/
theorem Reporter.Restored.checkedAt
    {endpoint : AddrPort}
    (restored : t.Restored key endpoint) :
    (t.checkedAt settable key now).Restored key endpoint := by
  obtain ⟨inactive, peer, found, isEndpoint⟩ := restored
  have isKey := Device.publicKey_of_peer? found
  have same : t.checkedAt settable key now = t := by
    unfold Reporter.checkedAt
    rw [found]
    simp [Reporter.checkDirectProbe, isKey, inactive]
  rw [same]
  exact ⟨inactive, peer, found, isEndpoint⟩

/-- A call on a probe that was not answered. -/
theorem Reporter.Probing.checkedAt_eq
    (probing : t.Probing key probe) :
    t.checkedAt settable key now =
      if now - probe.started < directProbeInterval then t
      else if probe.index + 1 < probe.candidates.length then
        (t.rotateProbe key probe now
          ((probe.candidates[probe.index + 1]?).all settable)).2
      else
        (t.restoreRelayAfterProbe key probe now
          (settable probe.relayEndpoint)).2 := by
  obtain ⟨peer, found, unanswered⟩ := probing.unanswered
  have isKey := Device.publicKey_of_peer? found
  unfold Reporter.checkedAt Reporter.checkDirectProbe
  rw [found]
  dsimp only
  rw [isKey, probing.active]
  simp only [probing.unconfirmed, unanswered, Bool.false_and,
    Bool.false_eq_true, if_false, probing.interval, Option.bind_some]
  split
  · rfl
  · by_cases more : probe.index + 1 < probe.candidates.length
    · have next : probe.nextIndex = probe.index + 1 :=
        if_neg (by omega)
      simp [DirectProbe.canRotate, DirectProbe.attempt, probing.uncoordinated,
        probing.unconfirmed, more, next]
    · simp [DirectProbe.canRotate, DirectProbe.attempt,
        probing.uncoordinated, probing.unconfirmed, more]

private theorem not_early
    {started later : Instant}
    (elapsed : started + directProbeInterval ≤ later) :
    ¬later - started < directProbeInterval :=
  Int.not_lt.mpr (Int.le_sub_left_of_add_le elapsed)

theorem Reporter.Probing.waits
    (probing : t.Probing key probe)
    (early : now - probe.started < directProbeInterval) :
    t.checkedAt settable key now = t := by
  rw [probing.checkedAt_eq, if_pos early]

/-- A call goes on to a next candidate that can be set. -/
theorem Reporter.Probing.rotates
    (probing : t.Probing key probe)
    (elapsed : probe.started + directProbeInterval ≤ now)
    {next : AddrPort}
    (isNext : probe.candidates[probe.index + 1]? = some next)
    (canSet : settable next = true) :
    (t.checkedAt settable key now).Probing key (probe.rotated now) := by
  have more := (List.getElem?_eq_some_iff.mp isNext).1
  have index : probe.nextIndex = probe.index + 1 := if_neg (by omega)
  obtain ⟨peer, found, unanswered⟩ := probing.unanswered
  have called :
      t.checkedAt settable key now =
        (t.point key next).set key
          { t.state key with directProbe := some (probe.rotated now) } := by
    rw [probing.checkedAt_eq, if_neg (not_early elapsed), if_pos more]
    unfold Reporter.rotateProbe
    simp only [index, isNext, Option.all_some, canSet, if_true]
    rfl
  rw [called]
  refine
    { active := ?_
      unconfirmed := probing.unconfirmed
      uncoordinated := probing.uncoordinated
      interval := probing.interval
      positioned := more
      unanswered := ⟨peer.pointed next, t.peer?_point found next, ?_⟩ }
  · simp [Reporter.set]
  · -- What was no answer to the last candidate is none to this one.
    have passed : probe.started ≤ now :=
      Int.le_trans (Int.le_add_of_nonneg_right (by decide)) elapsed
    unfold DirectProbe.isAnswered at unanswered ⊢
    cases heard : peer.lastHandshakeTime with
    | none => simp [LivePeer.pointed, heard]
    | some handshake =>
        simp only [heard, Option.any_some, decide_eq_false_iff_not]
          at unanswered
        simp only [LivePeer.pointed, DirectProbe.rotated, heard,
          Option.any_some]
        exact decide_eq_false
          (fun later => unanswered (Int.lt_of_le_of_lt passed later))

theorem Reporter.Probing.sticks
    (probing : t.Probing key probe)
    {next : AddrPort}
    (isNext : probe.candidates[probe.index + 1]? = some next)
    (cannotSet : settable next = false) :
    t.checkedAt settable key now = t := by
  have more := (List.getElem?_eq_some_iff.mp isNext).1
  have index : probe.nextIndex = probe.index + 1 := if_neg (by omega)
  rw [probing.checkedAt_eq, if_pos more]
  split
  · rfl
  · simp [Reporter.rotateProbe, index, isNext, cannotSet]

/-- After the last candidate a call goes back to the relay. -/
theorem Reporter.Probing.restores
    (probing : t.Probing key probe)
    (elapsed : probe.started + directProbeInterval ≤ now)
    (last : probe.candidates.length ≤ probe.index + 1)
    (canSet : settable probe.relayEndpoint = true) :
    (t.checkedAt settable key now).Restored key probe.relayEndpoint := by
  obtain ⟨peer, found, -⟩ := probing.unanswered
  rw [probing.checkedAt_eq, if_neg (not_early elapsed),
    if_neg (Nat.not_lt.mpr last)]
  unfold Reporter.restoreRelayAfterProbe
  rw [if_pos canSet]
  refine ⟨?_, peer.pointed probe.relayEndpoint, t.peer?_point found _, rfl⟩
  simp [Reporter.set]

end OneCall

section Runs

variable
  {settable : AddrPort → Bool} {t : Reporter} {key : Key}
  {probe : DirectProbe}

theorem Reporter.Restored.checkedAll
    {endpoint : AddrPort}
    (restored : t.Restored key endpoint)
    (times : List Instant) :
    (t.checkedAll settable key times).Restored key endpoint := by
  induction times generalizing t with
  | nil => exact restored
  | cons now rest inductionHypothesis =>
      exact inductionHypothesis restored.checkedAt

/-- A probe whose later candidates can all be set ends after as many calls as
candidates are left. -/
theorem Reporter.Probing.ends
    (probing : t.Probing key probe)
    (relaySettable : settable probe.relayEndpoint = true)
    (allSettable :
      ∀ candidate, candidate ∈ probe.candidates.drop (probe.index + 1) →
        settable candidate = true)
    {times : List Instant}
    (enough : probe.candidates.length - probe.index ≤ times.length)
    (spaced : Spaced (probe.started :: times)) :
    (t.checkedAll settable key times).Restored key probe.relayEndpoint := by
  induction times generalizing t probe with
  | nil =>
      have positioned := probing.positioned
      rw [List.length_nil] at enough
      omega
  | cons now rest inductionHypothesis =>
      obtain ⟨elapsed, restSpaced⟩ := List.isChain_cons_cons.mp spaced
      rw [List.length_cons] at enough
      by_cases more : probe.index + 1 < probe.candidates.length
      · have isNext :
            probe.candidates[probe.index + 1]? =
              some probe.candidates[probe.index + 1] :=
          List.getElem?_eq_getElem more
        have later :
            probe.candidates.drop (probe.index + 1) =
              probe.candidates[probe.index + 1] ::
                probe.candidates.drop (probe.index + 1 + 1) :=
          List.drop_eq_getElem_cons more
        rw [later] at allSettable
        refine
          @inductionHypothesis _ (probe.rotated now)
            (probing.rotates elapsed isNext
              (allSettable _ List.mem_cons_self))
            relaySettable ?_ ?_ restSpaced
        · intro candidate member
          exact allSettable candidate (List.mem_cons_of_mem _ member)
        · simp only [DirectProbe.rotated]
          omega
      · exact (probing.restores elapsed (by omega) relaySettable).checkedAll rest

/-- A probe with a later candidate that cannot be set never ends. -/
theorem Reporter.Probing.stuck
    (probing : t.Probing key probe)
    {candidate : AddrPort}
    (isLater : candidate ∈ probe.candidates.drop (probe.index + 1))
    (cannotSet : settable candidate = false)
    {times : List Instant}
    (since : ∀ now ∈ times, probe.started ≤ now)
    (spaced : Spaced times) :
    ((t.checkedAll settable key times).state key).directProbe ≠ none := by
  induction times generalizing t probe with
  | nil =>
      intro inactive
      have active := probing.active
      cases inactive.symm.trans active
  | cons now rest inductionHypothesis =>
      obtain ⟨restSince, restSpaced⟩ := spaced.cons
      have more : probe.index + 1 < probe.candidates.length := by
        have nonempty := List.length_pos_of_mem isLater
        rw [List.length_drop] at nonempty
        omega
      have isNext :
          probe.candidates[probe.index + 1]? =
            some probe.candidates[probe.index + 1] :=
        List.getElem?_eq_getElem more
      have later :
          probe.candidates.drop (probe.index + 1) =
            probe.candidates[probe.index + 1] ::
              probe.candidates.drop (probe.index + 1 + 1) :=
        List.drop_eq_getElem_cons more
      have unfolded :
          t.checkedAll settable key (now :: rest) =
            (t.checkedAt settable key now).checkedAll settable key rest :=
        rfl
      have startedRest : ∀ later ∈ rest, probe.started ≤ later :=
        fun later member => since later (List.mem_cons_of_mem _ member)
      rw [unfolded]
      by_cases early : now - probe.started < directProbeInterval
      · rw [probing.waits early]
        exact inductionHypothesis probing isLater startedRest restSpaced
      have elapsed : probe.started + directProbeInterval ≤ now :=
        Int.add_le_of_le_sub_left (Int.not_lt.mp early)
      cases canSet : settable probe.candidates[probe.index + 1] with
      | false =>
          rw [probing.sticks isNext canSet]
          exact inductionHypothesis probing isLater startedRest restSpaced
      | true =>
          have stillLater :
              candidate ∈ probe.candidates.drop (probe.index + 1 + 1) := by
            rw [later] at isLater
            rcases List.mem_cons.mp isLater with rfl | member
            · cases canSet.symm.trans cannotSet
            · exact member
          exact
            @inductionHypothesis _ (probe.rotated now)
              (probing.rotates elapsed isNext canSet) stillLater restSince
              restSpaced

/--
After one call more than the probe has candidates, each at least the probe
interval after the one before, the probe is over and the peer back on its
relay, exactly when every candidate that was still to be tried could be set.
-/
theorem probe_ends_iff
    (settable : AddrPort → Bool)
    {t : Reporter}
    {key : Key}
    {probe : DirectProbe}
    (probing : t.Probing key probe)
    (relaySettable : settable probe.relayEndpoint = true)
    {times : List Instant}
    (count : times.length = probe.candidates.length + 1)
    (since : ∀ now ∈ times, probe.started ≤ now)
    (spaced : Spaced times) :
    (t.checkedAll settable key times).Restored key probe.relayEndpoint ↔
      ∀ candidate, candidate ∈ probe.candidates.drop (probe.index + 1) →
        settable candidate = true := by
  constructor
  · intro restored candidate isLater
    by_contra cannotSet
    exact probing.stuck isLater (Bool.eq_false_iff.mpr cannotSet) since spaced
      restored.1
  · intro allSettable
    cases times with
    | nil => cases count
    | cons first rest =>
        have enough : rest.length = probe.candidates.length :=
          Nat.succ.inj count
        have started := since first List.mem_cons_self
        have unfolded :
            t.checkedAll settable key (first :: rest) =
              (t.checkedAt settable key first).checkedAll settable key rest :=
          rfl
        by_cases early : first - probe.started < directProbeInterval
        · -- The first call may come before the interval is over.
          rw [unfolded, probing.waits early]
          refine probing.ends relaySettable allSettable (by omega) ?_
          cases rest with
          | nil => exact .singleton _
          | cons next later =>
              obtain ⟨apart, laterSpaced⟩ := List.isChain_cons_cons.mp spaced
              refine List.isChain_cons_cons.mpr ⟨?_, laterSpaced⟩
              exact Int.le_trans (Int.add_le_add_right started _) apart
        · have elapsed : probe.started + directProbeInterval ≤ first :=
            Int.add_le_of_le_sub_left (Int.not_lt.mp early)
          refine probing.ends relaySettable allSettable ?_
            (List.isChain_cons_cons.mpr ⟨elapsed, spaced⟩)
          rw [count]
          omega

end Runs

/-- The candidates of the probe below, and the loopback socket of its relay. -/
def probeCandidate (number : Nat) : AddrPort :=
  endpointOf (0xc0000200 + number) 51820
def probeRelay : AddrPort :=
  endpointOf 0x7f000001 40000

/-- A relayed peer for which a probe of two candidates was started. -/
def twoCandidates : Reporter :=
  (Reporter.startDirectProbe
    { state := fun _ =>
        { relayed := true, relayEndpoint := some probeRelay }
      relayBroken := false
      device := silentDevice probeRelay }
    zeroKey [probeCandidate 1, probeCandidate 2] directProbeInterval 0 0
    (retriedAt 0)).2

/-- The probe that was started. -/
def twoCandidatesProbe : DirectProbe where
  started := 0
  confirmedAt := none
  candidates := [probeCandidate 1, probeCandidate 2]
  index := 0
  relayEndpoint := probeRelay
  interval := directProbeInterval
  deadline := none
  epoch := 0

theorem probing_twoCandidates :
    twoCandidates.Probing zeroKey twoCandidatesProbe where
  active := by decide +kernel
  unconfirmed := rfl
  uncoordinated := rfl
  interval := rfl
  positioned := by decide
  unanswered := ⟨_, rfl, rfl⟩

/-- Three calls, one interval apart. -/
def threeCalls : List Instant :=
  [20 * second, 40 * second, 60 * second]

/-- With a second candidate that can be set, the probe ends. -/
theorem probe_ends_twoCandidates :
    (twoCandidates.checkedAll (fun _ => true) zeroKey threeCalls).Restored
      zeroKey probeRelay := by
  refine (probe_ends_iff _ probing_twoCandidates rfl rfl (by decide) ?_).mpr
    (fun _ _ => rfl)
  refine .cons_cons (by decide) (.cons_cons (by decide) (.singleton _))

/-- With a second candidate that cannot be set, the three calls leave the probe
as it was, and the peer on its first candidate. -/
theorem unsettable_candidate_retried :
    let settable := fun endpoint => endpoint != probeCandidate 2
    let after := twoCandidates.checkedAll settable zeroKey threeCalls
    settable probeRelay = true ∧
      threeCalls.length = twoCandidatesProbe.candidates.length + 1 ∧
      (after.state zeroKey).directProbe = some twoCandidatesProbe ∧
      (after.device.peer? zeroKey).map (·.endpoint) =
        some (some (probeCandidate 1)) := by
  decide +kernel

end WgMesh.Agent
