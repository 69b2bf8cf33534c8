import Mathlib.Algebra.Order.BigOperators.Group.List
import WgMesh.TrafficDeltas

namespace WgMesh.Traffic

/-!
# Link counters over presence intervals

A peer that leaves the device and comes back starts its counters again.
`collectLinkCounters` keeps the last value of a peer that is gone, and takes a
new value for a restart only if it is smaller.  The bytes it counts are compared
here with the last values of the intervals in which the peer was present.
-/

open FiniteRuns KeyedTotals PairKeys Store

/-! ## One counter -/

/-- The deltas of successive values, where the peer may be missing. -/
def deltasFrom (prev : Int) : List (Option Int) → Int
  | [] => 0
  | none :: rest => deltasFrom prev rest
  | some cur :: rest => counterSince prev cur + deltasFrom cur rest

/-- The last value of each interval of presence, added up. -/
def intervalTotal (values : List (Option Int)) : Int :=
  ((values.splitOnP (·.isNone)).filterMap (·.getLast?.join)).sum

/-- The values at which a counter comes back, each with the last value that
was seen before. -/
def restarts (last : Int) (absent : Bool) :
    List (Option Int) → List (Int × Int)
  | [] => []
  | none :: rest => restarts last true rest
  | some cur :: rest =>
      if absent then (last, cur) :: restarts cur false rest
      else restarts cur false rest

/-- A counter never falls while the peer stays present. -/
def Steady (values : List (Option Int)) : Prop :=
  values.IsChain fun first second =>
    ∀ low, first = some low → ∀ high, second = some high → low ≤ high

/-- What is missed when a counter comes back without having fallen. -/
def missed (restart : Int × Int) : Int :=
  if restart.1 ≤ restart.2 then restart.1 else 0

/-- The values fit into 64 bits with a sign. -/
def AllFit (values : List (Option Int)) : Prop :=
  ∀ value, some value ∈ values → 0 ≤ value ∧ value < 9223372036854775808

/-- A fall or a rise from the value before. -/
theorem counterSince_add_missed
    {prev cur : Int}
    (prevFits : 0 ≤ prev ∧ prev < 9223372036854775808)
    (curFits : 0 ≤ cur ∧ cur < 9223372036854775808) :
    counterSince prev cur + missed (prev, cur) = cur := by
  rw [counterSince_of_fits prevFits curFits]
  unfold missed
  split
  · rw [if_neg (by simp only; omega)]
    omega
  · rw [if_pos (by simp only; omega)]
    omega

variable {values : List (Option Int)}

/-- Deltas of what fits are not negative. -/
theorem deltasFrom_nonneg
    {prev : Int}
    (prevFits : 0 ≤ prev ∧ prev < 9223372036854775808)
    (fit : AllFit values) :
    0 ≤ deltasFrom prev values := by
  induction values generalizing prev with
  | nil => exact Int.le_refl 0
  | cons value rest inductionHypothesis =>
      have restFit : AllFit rest :=
        fun value member => fit value (List.mem_cons_of_mem _ member)
      cases value with
      | none => exact inductionHypothesis prevFits restFit
      | some cur =>
          have curFits := fit cur List.mem_cons_self
          exact Int.add_nonneg (fits_counterSince prevFits curFits).1
            (inductionHypothesis curFits restFit)

theorem intervalTotal_none
    (rest : List (Option Int)) :
    intervalTotal (none :: rest) = intervalTotal rest := by
  unfold intervalTotal
  rw [List.splitOnP_cons_eq_if_modifyHead]
  rfl

theorem intervalTotal_some_none
    (last : Int)
    (rest : List (Option Int)) :
    intervalTotal (some last :: none :: rest) =
      last + intervalTotal rest := by
  unfold intervalTotal
  rw [List.splitOnP_cons_eq_if_modifyHead, List.splitOnP_cons_eq_if_modifyHead]
  rfl

theorem intervalTotal_singleton
    (last : Int) :
    intervalTotal [some last] = last := by
  simp [intervalTotal, List.splitOnP_cons_eq_if_modifyHead]

theorem intervalTotal_some_some
    (first second : Int)
    (rest : List (Option Int)) :
    intervalTotal (some first :: some second :: rest) =
      intervalTotal (some second :: rest) := by
  unfold intervalTotal
  obtain ⟨interval, others, parts⟩ :=
    List.exists_cons_of_ne_nil (List.splitOnP_ne_nil (·.isNone) rest)
  simp only [List.splitOnP_cons_eq_if_modifyHead, parts, Option.isNone_some,
    Bool.false_eq_true, if_false, List.modifyHead_cons,
    List.filterMap_cons, List.getLast?_cons_cons]

/-- The deltas and what was missed make up the intervals: for a peer that is
gone, and for one that is present with a value. -/
theorem deltasFrom_add_missed
    (fit : AllFit values) :
    (∀ last, 0 ≤ last ∧ last < 9223372036854775808 → Steady values →
      deltasFrom last values + ((restarts last true values).map missed).sum =
        intervalTotal values) ∧
      ∀ last, Steady (some last :: values) →
        0 ≤ last ∧ last < 9223372036854775808 →
        deltasFrom last values +
            ((restarts last false values).map missed).sum + last =
          intervalTotal (some last :: values) := by
  induction values with
  | nil =>
      refine ⟨fun last _ _ => rfl, fun last _ _ => ?_⟩
      rw [intervalTotal_singleton]
      simp [deltasFrom, restarts]
  | cons value rest inductionHypothesis =>
      obtain ⟨whenGone, whenPresent⟩ :=
        inductionHypothesis
          fun value member => fit value (List.mem_cons_of_mem _ member)
      cases value with
      | none =>
          refine ⟨fun last lastFits steady => ?_,
            fun last steady lastFits => ?_⟩
          · rw [intervalTotal_none]
            exact whenGone last lastFits steady.of_cons
          · rw [intervalTotal_some_none,
              ← whenGone last lastFits steady.of_cons.of_cons, Int.add_comm]
            rfl
      | some cur =>
          have curFits := fit cur List.mem_cons_self
          refine ⟨fun last lastFits steady => ?_,
            fun last steady lastFits => ?_⟩
          · have since := counterSince_add_missed lastFits curFits
            have later := whenPresent cur steady curFits
            simp only [deltasFrom, restarts, if_true, List.map_cons,
              List.sum_cons]
            omega
          · have grown : last ≤ cur :=
              (List.isChain_cons_cons.mp steady).1 last rfl cur rfl
            have later := whenPresent cur steady.of_cons curFits
            have since : counterSince last cur = cur - last := by
              rw [counterSince_of_fits lastFits curFits, if_neg (by omega)]
            rw [intervalTotal_some_some, ← later]
            simp only [deltasFrom, restarts, Bool.false_eq_true, if_false,
              since]
            omega

/-- Counters come back with a value no smaller than the one before only from
zero. -/
def FallsAtRestart (values : List (Option Int)) : Prop :=
  ∀ restart ∈ restarts 0 true values,
    restart.2 < restart.1 ∨ restart.1 = 0

instance (values : List (Option Int)) : Decidable (FallsAtRestart values) :=
  inferInstanceAs
    (Decidable
      (∀ restart ∈ restarts 0 true values,
        restart.2 < restart.1 ∨ restart.1 = 0))

/-- The values before a restart are values that were seen. -/
theorem nonneg_of_mem_restarts
    {last : Int}
    {absent : Bool}
    {values : List (Option Int)}
    (lastNonneg : 0 ≤ last)
    (nonneg : ∀ value, some value ∈ values → 0 ≤ value) :
    ∀ restart ∈ restarts last absent values, 0 ≤ restart.1 := by
  induction values generalizing last absent with
  | nil =>
      intro restart member
      cases member
  | cons value rest inductionHypothesis =>
      have restNonneg : ∀ value, some value ∈ rest → 0 ≤ value :=
        fun value member => nonneg value (List.mem_cons_of_mem _ member)
      cases value with
      | none => exact inductionHypothesis lastNonneg restNonneg
      | some cur =>
          have curNonneg := nonneg cur List.mem_cons_self
          intro restart member
          unfold restarts at member
          split at member
          · rcases List.mem_cons.mp member with rfl | later
            · exact lastNonneg
            · exact inductionHypothesis curNonneg restNonneg restart later
          · exact inductionHypothesis curNonneg restNonneg restart member

/-- What is missed is not negative. -/
theorem sum_missed_nonneg
    {pairs : List (Int × Int)}
    (nonneg : ∀ restart ∈ pairs, 0 ≤ restart.1) :
    0 ≤ (pairs.map missed).sum := by
  apply List.sum_nonneg
  intro amount member
  obtain ⟨restart, isRestart, rfl⟩ := List.mem_map.mp member
  unfold missed
  split
  · exact nonneg restart isRestart
  · exact Int.le_refl 0

/-- Nothing is missed exactly when every restart falls or starts from zero. -/
theorem sum_missed_eq_zero_iff
    {pairs : List (Int × Int)}
    (nonneg : ∀ restart ∈ pairs, 0 ≤ restart.1) :
    (pairs.map missed).sum = 0 ↔
      ∀ restart ∈ pairs, restart.2 < restart.1 ∨ restart.1 = 0 := by
  induction pairs with
  | nil => simp
  | cons restart rest inductionHypothesis =>
      rw [List.forall_mem_cons] at nonneg ⊢
      have restNonneg := sum_missed_nonneg nonneg.2
      have single : 0 ≤ missed restart ∧ (missed restart = 0 ↔
          restart.2 < restart.1 ∨ restart.1 = 0) := by
        have first := nonneg.1
        unfold missed
        split <;> omega
      have later := inductionHypothesis nonneg.2
      rw [← single.2, List.map_cons, List.sum_cons]
      constructor
      · intro nothing
        exact ⟨by omega, later.mp (by omega)⟩
      · rintro ⟨noneNow, noneLater⟩
        have restNothing := later.mpr noneLater
        omega

/-- The deltas of a counter add up to no more than its intervals, and to these
exactly when every restart shows as a fall. -/
theorem deltasFrom_eq_intervalTotal_iff
    (steady : Steady values)
    (fit : AllFit values) :
    deltasFrom 0 values ≤ intervalTotal values ∧
      (deltasFrom 0 values = intervalTotal values ↔
        FallsAtRestart values) := by
  have balance := (deltasFrom_add_missed fit).1 0 (by decide) steady
  have pairs :=
    @nonneg_of_mem_restarts 0 true values (Int.le_refl 0)
      (fun value member => (fit value member).1)
  have nonneg := sum_missed_nonneg pairs
  unfold FallsAtRestart
  rw [← sum_missed_eq_zero_iff pairs]
  omega

/-! ## Snapshots of the device -/

/-- `Device().Peers`; the device has each peer once. -/
structure Snapshot where
  readings : List Reading
  distinct : (readings.map (·.publicKey)).Nodup

/-- The counters of a peer in a snapshot. -/
def countersIn (peer : Key) (readings : List Reading) :
    Option LinkCounters :=
  (readings.find? (fun reading => decide (reading.publicKey = peer))).map
    (·.counters)

/-- A reading is the only one of its peer. -/
theorem countersIn_of_mem
    {readings : List Reading}
    (distinct : (readings.map (·.publicKey)).Nodup)
    {reading : Reading}
    (member : reading ∈ readings) :
    countersIn reading.publicKey readings = some reading.counters := by
  unfold countersIn
  cases isFound : readings.find?
      (fun other => decide (other.publicKey = reading.publicKey)) with
  | none =>
      exact (List.find?_eq_none.mp isFound reading member
        (decide_eq_true rfl)).elim
  | some found =>
      have isKey : found.publicKey = reading.publicKey := by
        simpa using List.find?_some isFound
      rw [List.inj_on_of_nodup_map distinct
        (List.mem_of_find?_eq_some isFound) member isKey]
      rfl

/-- A peer that is not read keeps its last value and gets no delta. -/
theorem Meter.collect_absent
    {meter : Meter}
    {peer : Key}
    {readings : List Reading}
    (absent : peer ∉ readings.map (·.publicKey)) :
    meter.deltas peer readings = 0 ∧
      (meter.collectLinkCounters readings).prevLink peer =
        meter.prevLink peer := by
  induction readings generalizing meter with
  | nil => exact ⟨rfl, rfl⟩
  | cons reading rest inductionHypothesis =>
      rw [List.map_cons, List.mem_cons, not_or] at absent
      obtain ⟨deltas, kept⟩ :=
        @inductionHypothesis (meter.read reading) absent.2
      constructor
      · rw [Meter.deltas, deltas, amountAt_of_ne (Ne.symm absent.1), add_zero]
      · refine kept.trans ?_
        exact Function.update_of_ne absent.1 _ _

/-- What a snapshot adds for a peer, and the value it leaves. -/
theorem Meter.collect_snapshot
    (meter : Meter)
    (peer : Key)
    {readings : List Reading}
    (distinct : (readings.map (·.publicKey)).Nodup) :
    match countersIn peer readings with
    | none =>
        meter.deltas peer readings = 0 ∧
          (meter.collectLinkCounters readings).prevLink peer =
            meter.prevLink peer
    | some counters =>
        meter.deltas peer readings =
            ⟨counterSince (meter.prevLink peer).rx counters.rx,
              counterSince (meter.prevLink peer).tx counters.tx⟩ ∧
          (meter.collectLinkCounters readings).prevLink peer = counters := by
  induction readings generalizing meter with
  | nil => exact ⟨rfl, rfl⟩
  | cons reading rest inductionHypothesis =>
      obtain ⟨fresh, restDistinct⟩ := List.nodup_cons.mp distinct
      by_cases same : reading.publicKey = peer
      · -- The others have other keys, so this reading is the only one.
        have found :
            countersIn peer (reading :: rest) = some reading.counters := by
          simp [countersIn, same]
        rw [found]
        dsimp only at fresh
        rw [same] at fresh
        obtain ⟨deltas, kept⟩ :=
          @Meter.collect_absent (meter.read reading) peer rest fresh
        constructor
        · rw [Meter.deltas, deltas, amountAt_of_eq same, add_zero]
          unfold Meter.delta
          rw [same]
        · refine kept.trans ?_
          unfold Meter.read
          rw [same]
          exact Function.update_self _ _ _
      · have found :
            countersIn peer (reading :: rest) = countersIn peer rest := by
          simp [countersIn, same]
        have later := inductionHypothesis (meter.read reading) restDistinct
        have kept : (meter.read reading).prevLink peer = meter.prevLink peer :=
          Function.update_of_ne (Ne.symm same) _ _
        have first :
            meter.deltas peer (reading :: rest) =
              (meter.read reading).deltas peer rest := by
          rw [Meter.deltas, amountAt_of_ne same, zero_add]
        rw [found, first]
        rw [kept] at later
        exact later

/-! ## Runs of the agent -/

/-- What happens to the pending counters. -/
inductive LinkEvent where
  | snapshot (taken : Snapshot)
  | accepted

/-- The agent's maps, with the counters of all accepted reports. -/
structure LinkBooks where
  meter : Meter
  reported : List PeerCounter

/-- The books of a new process. -/
def LinkBooks.new : LinkBooks where
  meter := Meter.new
  reported := []

/-- A snapshot is collected; an accepted report takes what is pending. -/
def LinkBooks.step (books : LinkBooks) : LinkEvent → LinkBooks
  | .snapshot taken =>
      { books with meter := books.meter.collectLinkCounters taken.readings }
  | .accepted =>
      { meter := { books.meter with pendingCounters := [] }
        reported := books.reported ++ books.meter.pendingCounters }

/-- What was added to the pending counters of a peer so far. -/
def LinkBooks.total (books : LinkBooks) (peer : Key) : LinkCounters :=
  reportedFor peer.text books.reported + books.meter.pending peer

/-- One direction of the values of a peer in the snapshots. -/
def valuesOf (direction : LinkCounters → Int) (peer : Key) :
    List LinkEvent → List (Option Int)
  | [] => []
  | .snapshot taken :: rest =>
      (countersIn peer taken.readings).map direction ::
        valuesOf direction peer rest
  | .accepted :: rest => valuesOf direction peer rest

theorem LinkBooks.total_accepted
    (books : LinkBooks)
    (peer : Key) :
    (books.step .accepted).total peer = books.total peer := by
  unfold total step Meter.pending reportedFor
  rw [totalAt_append, totalAt_nil, add_zero]

section Runs

variable {peer : Key} {events : List LinkEvent}

theorem fitFor_snapshot
    {taken : Snapshot}
    (fitRx : AllFit (valuesOf (·.rx) peer (.snapshot taken :: events)))
    (fitTx : AllFit (valuesOf (·.tx) peer (.snapshot taken :: events))) :
    FitFor peer taken.readings := by
  rintro reading member rfl
  have found := countersIn_of_mem taken.distinct member
  exact ⟨fitRx _ (by simp [valuesOf, found]),
    fitTx _ (by simp [valuesOf, found])⟩

/-- The deltas of the values of a peer, in each direction. -/
def deltasOf (peer : Key) (last : LinkCounters) (events : List LinkEvent) :
    LinkCounters where
  rx := deltasFrom last.rx (valuesOf (·.rx) peer events)
  tx := deltasFrom last.tx (valuesOf (·.tx) peer events)

/-- A snapshot adds the deltas of its values. -/
theorem Meter.deltas_snapshot
    (meter : Meter)
    (taken : Snapshot) :
    deltasOf peer (meter.prevLink peer) (.snapshot taken :: events) =
      meter.deltas peer taken.readings +
        deltasOf peer
          ((meter.collectLinkCounters taken.readings).prevLink peer)
          events := by
  have collected := Meter.collect_snapshot meter peer taken.distinct
  unfold deltasOf
  cases found : countersIn peer taken.readings with
  | none =>
      rw [found] at collected
      ext <;> simp [valuesOf, found, collected.1, collected.2, deltasFrom]
  | some counters =>
      rw [found] at collected
      ext <;> simp [valuesOf, found, collected.1, collected.2, deltasFrom]

/-- Over a run the deltas of the values are added. -/
theorem LinkBooks.total_run
    {books : LinkBooks}
    (sound : books.meter.Sound peer)
    (reported : (reportedFor peer.text books.reported).Nonneg)
    (fitRx : AllFit (valuesOf (·.rx) peer events))
    (fitTx : AllFit (valuesOf (·.tx) peer events))
    (fits :
      (books.total peer +
        deltasOf peer (books.meter.prevLink peer) events).Fits) :
    (events.foldl step books).total peer =
      books.total peer +
        deltasOf peer (books.meter.prevLink peer) events := by
  induction events generalizing books with
  | nil => exact (add_zero _).symm
  | cons event rest inductionHypothesis =>
      cases event with
      | accepted =>
          have moved : reportedFor peer.text (books.step .accepted).reported =
              reportedFor peer.text books.reported +
                books.meter.pending peer :=
            totalAt_append _ _
          rw [← books.total_accepted peer] at fits ⊢
          exact inductionHypothesis ⟨List.nodup_nil, sound.prev, .zero⟩
            (moved ▸ reported.add sound.pending.nonneg) fitRx fitTx fits
      | snapshot taken =>
          have readFits := fitFor_snapshot fitRx fitTx
          have deltas := Meter.nonneg_deltas sound.prev readFits
          have restRx : AllFit (valuesOf (·.rx) peer rest) :=
            fun value member => fitRx value (List.mem_cons_of_mem _ member)
          have restTx : AllFit (valuesOf (·.tx) peer rest) :=
            fun value member => fitTx value (List.mem_cons_of_mem _ member)
          have prev := Meter.prevLink_collect sound.prev readFits
          have pending := sound.pending.nonneg
          rw [Meter.deltas_snapshot, ← add_assoc] at fits ⊢
          have grown :=
            (fits.of_add ((reported.add pending).add deltas)
              ⟨deltasFrom_nonneg prev.rx restRx,
                deltasFrom_nonneg prev.tx restTx⟩).1
          rw [total, add_assoc] at grown
          obtain ⟨stillSound, added⟩ :=
            sound.collect readFits
              (grown.of_add reported (pending.add deltas)).2
          have snapshot :
              (books.step (.snapshot taken)).total peer =
                books.total peer + books.meter.deltas peer taken.readings := by
            simp only [total, step, added, add_assoc]
          rw [← snapshot] at fits ⊢
          exact inductionHypothesis stillSound reported restRx restTx fits

end Runs

/-- Accepted reports and pending counters hold, for each direction, the last
values of the intervals in which a peer was present, exactly when every restart
of its counter shows as a fall, as long as these values fit into 64 bits with a
sign and so does their sum. -/
theorem link_totals_iff
    (peer : Key)
    (events : List LinkEvent)
    (steadyRx : Steady (valuesOf (·.rx) peer events))
    (steadyTx : Steady (valuesOf (·.tx) peer events))
    (fitRx : AllFit (valuesOf (·.rx) peer events))
    (fitTx : AllFit (valuesOf (·.tx) peer events))
    (sumFits :
      LinkCounters.Fits
        ⟨intervalTotal (valuesOf (·.rx) peer events),
          intervalTotal (valuesOf (·.tx) peer events)⟩) :
    (((events.foldl LinkBooks.step LinkBooks.new).total peer).rx =
          intervalTotal (valuesOf (·.rx) peer events) ↔
        FallsAtRestart (valuesOf (·.rx) peer events)) ∧
      (((events.foldl LinkBooks.step LinkBooks.new).total peer).tx =
          intervalTotal (valuesOf (·.tx) peer events) ↔
        FallsAtRestart (valuesOf (·.tx) peer events)) := by
  have start : LinkBooks.new.total peer = 0 := by
    unfold LinkBooks.total Meter.pending reportedFor
    exact add_zero 0
  have intervalsRx := deltasFrom_eq_intervalTotal_iff steadyRx fitRx
  have intervalsTx := deltasFrom_eq_intervalTotal_iff steadyTx fitTx
  have fits : (deltasOf peer 0 events).Fits :=
    ⟨⟨deltasFrom_nonneg LinkCounters.Fits.zero.rx fitRx,
        Int.lt_of_le_of_lt intervalsRx.1 sumFits.rx.2⟩,
      deltasFrom_nonneg LinkCounters.Fits.zero.tx fitTx,
      Int.lt_of_le_of_lt intervalsTx.1 sumFits.tx.2⟩
  have run :=
    @LinkBooks.total_run peer events LinkBooks.new
      ⟨List.nodup_nil, .zero, .zero⟩ LinkCounters.Fits.zero.nonneg fitRx fitTx
  rw [start, zero_add] at run
  rw [run fits]
  exact ⟨intervalsRx.2, intervalsTx.2⟩

/-- A peer of the examples. -/
def lonePeer : Key :=
  ⟨List.replicate 32 (Base64Text.byteOf 7), List.length_replicate⟩

/-- A snapshot with one peer. -/
def alone (rx tx : Int) : LinkEvent :=
  .snapshot ⟨[⟨lonePeer, ⟨rx, tx⟩, ""⟩], List.nodup_singleton _⟩

/-- A snapshot of a device without peers. -/
def nobody : LinkEvent :=
  .snapshot ⟨[], List.nodup_nil⟩

/-- A peer received ten bytes, went away, and has received fifteen since it
came back: fifteen of the twenty-five are counted. -/
theorem restart_without_fall :
    valuesOf (·.rx) lonePeer [alone 10 1, nobody, alone 15 0] =
        [some 10, none, some 15] ∧
      Steady (valuesOf (·.rx) lonePeer [alone 10 1, nobody, alone 15 0]) ∧
      intervalTotal
          (valuesOf (·.rx) lonePeer [alone 10 1, nobody, alone 15 0]) = 25 ∧
      (([alone 10 1, nobody, alone 15 0].foldl LinkBooks.step
        LinkBooks.new).total lonePeer).rx = 15 := by
  have values :
      valuesOf (·.rx) lonePeer [alone 10 1, nobody, alone 15 0] =
        [some 10, none, some 15] := by
    decide
  refine ⟨values, ?_, ?_, by decide +kernel⟩
  · rw [values]
    simp [Steady]
  · rw [values]
    decide

/-- A peer whose counters fall at each return, with a report in between. -/
theorem link_totals_falling :
    (([alone 3 5, alone 10 7, nobody, .accepted, alone 2 0].foldl
        LinkBooks.step LinkBooks.new).total lonePeer).rx =
      intervalTotal [some 3, some 10, none, some 2] := by
  have values :
      valuesOf (·.rx) lonePeer
          [alone 3 5, alone 10 7, nobody, .accepted, alone 2 0] =
        [some 3, some 10, none, some 2] := by
    decide
  have valuesTx :
      valuesOf (·.tx) lonePeer
          [alone 3 5, alone 10 7, nobody, .accepted, alone 2 0] =
        [some 5, some 7, none, some 0] := by
    decide
  rw [← values]
  refine (link_totals_iff lonePeer _ ?_ ?_ ?_ ?_ ?_).1.mpr (by decide)
  · rw [values]
    simp [Steady]
  · rw [valuesTx]
    simp [Steady]
  · rw [values]
    simp [AllFit]
  · rw [valuesTx]
    simp [AllFit]
  · rw [values, valuesTx]
    decide

end WgMesh.Traffic
