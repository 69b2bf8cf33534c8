import WgMesh.FaultFreeReports
import WgMesh.KeyedTotals
import WgMesh.SyncAcceptance
import WgMesh.TokenExpiry

namespace WgMesh.Traffic

/-!
# Traffic counters from the kernel to the store

`collectLinkCounters` turns the kernel's counters into deltas that wait in
`pendingCounters`; `send` reports them, and drops them once the server has
answered with success.  `ApplyReport` adds them to `link_stats`.

The store has no way to tell a report it has applied from a new one.  A delta is
therefore counted once exactly as long as the agent hears of every report that
was applied.  The agent adds in 64 bits and SQLite beyond them in doubles, so
that this is about totals of less than 2^63 bytes; the sums of `LinkCounters`,
which say what should be counted, are exact.
-/

open CivilTime FiniteRuns KeyedTotals PairKeys RowTables Store TextScan
open Transactions

variable {Value Item : Type}

/-- `linkCounters`: bytes received and transmitted. -/
@[ext] structure LinkCounters where
  rx : Int
  tx : Int
deriving DecidableEq

instance : Zero LinkCounters := ⟨⟨0, 0⟩⟩

instance : Add LinkCounters :=
  ⟨fun first second => ⟨first.rx + second.rx, first.tx + second.tx⟩⟩

@[simp] theorem LinkCounters.rx_zero : (0 : LinkCounters).rx = 0 := rfl

@[simp] theorem LinkCounters.tx_zero : (0 : LinkCounters).tx = 0 := rfl

@[simp] theorem LinkCounters.rx_add
    (first second : LinkCounters) :
    (first + second).rx = first.rx + second.rx :=
  rfl

@[simp] theorem LinkCounters.tx_add
    (first second : LinkCounters) :
    (first + second).tx = first.tx + second.tx :=
  rfl

/-- Bytes are added direction by direction. -/
instance : AddCommMonoid LinkCounters where
  add_assoc first second third := by
    ext <;> simp [Int.add_assoc]
  zero_add counters := by
    ext <;> simp
  add_zero counters := by
    ext <;> simp
  add_comm first second := by
    ext <;> simp [Int.add_comm]
  nsmul := nsmulRec

/-- Bytes that 64 bits with a sign can hold. -/
structure LinkCounters.Fits (counters : LinkCounters) : Prop where
  rx : 0 ≤ counters.rx ∧ counters.rx < 9223372036854775808
  tx : 0 ≤ counters.tx ∧ counters.tx < 9223372036854775808

instance (counters : LinkCounters) : Decidable counters.Fits :=
  decidable_of_iff (_ ∧ _) ⟨fun both => ⟨both.1, both.2⟩, fun fits =>
    ⟨fits.rx, fits.tx⟩⟩

/-- Bytes that are not negative in either direction. -/
structure LinkCounters.Nonneg (counters : LinkCounters) : Prop where
  rx : 0 ≤ counters.rx
  tx : 0 ≤ counters.tx

section Bounds

variable {first second : LinkCounters}

theorem LinkCounters.Fits.zero : (0 : LinkCounters).Fits := by
  decide

theorem LinkCounters.Fits.nonneg (fits : first.Fits) : first.Nonneg :=
  ⟨fits.rx.1, fits.tx.1⟩

theorem LinkCounters.Nonneg.add
    (nonneg : first.Nonneg)
    (other : second.Nonneg) :
    (first + second).Nonneg :=
  ⟨Int.add_nonneg nonneg.rx other.rx, Int.add_nonneg nonneg.tx other.tx⟩

theorem LinkCounters.Fits.of_add
    (sum : (first + second).Fits)
    (nonneg : first.Nonneg)
    (other : second.Nonneg) :
    first.Fits ∧ second.Fits := by
  obtain ⟨rx, tx⟩ := sum
  simp only [LinkCounters.rx_add, LinkCounters.tx_add] at rx tx
  obtain ⟨firstRx, firstTx⟩ := nonneg
  obtain ⟨secondRx, secondTx⟩ := other
  exact ⟨⟨by omega, by omega⟩, ⟨by omega, by omega⟩⟩

end Bounds

theorem sqlAdd_of_fits
    {first second : Int}
    (firstNonneg : 0 ≤ first)
    (secondNonneg : 0 ≤ second)
    (fits : first + second < 9223372036854775808) :
    sqlAdd first second = first + second :=
  if_pos ⟨by unfold IsInt64; omega, by unfold IsInt64; omega,
    by unfold IsInt64; omega⟩

/-- The bytes of a reported counter. -/
def counterBytes (counter : PeerCounter) : LinkCounters :=
  ⟨counter.rxBytes, counter.txBytes⟩

/-- The bytes of a row of `link_stats`. -/
def rowBytes (row : LinkStatRow) : LinkCounters :=
  ⟨row.rxBytes, row.txBytes⟩

/-- The key of `link_stats`. -/
def rowKey (row : LinkStatRow) : Int × Int :=
  (row.peerID, row.remotePeerID)

/-- What `link_stats` has stored for a pair. -/
def linkTotal (agent remote : Int) (tables : Tables) : LinkCounters :=
  totalAt rowKey rowBytes (agent, remote) tables.linkStats

/-- What counters say about a peer. -/
def reportedFor (publicKey : String) (counters : List PeerCounter) :
    LinkCounters :=
  totalAt (·.peerPublicKey) counterBytes publicKey counters

section Totals

variable {Key : Type} [DecidableEq Key] {key : Item → Key}
  {amount : Item → LinkCounters} {wanted : Key}

theorem fits_amountAt
    {row : Item}
    (fits : key row = wanted → (amount row).Fits) :
    (amountAt key amount wanted row).Fits := by
  unfold amountAt
  split
  · exact fits ‹_›
  · exact .zero

/-- Totals of what fits are not negative. -/
theorem nonneg_totalAt
    {rows : List Item}
    (fits : ∀ row ∈ rows, key row = wanted → (amount row).Fits) :
    (totalAt key amount wanted rows).Nonneg := by
  induction rows with
  | nil => exact LinkCounters.Fits.zero.nonneg
  | cons row rest inductionHypothesis =>
      rw [totalAt_cons]
      exact (fits_amountAt (fits row List.mem_cons_self)).nonneg.add
        (inductionHypothesis fun other member =>
          fits other (List.mem_cons_of_mem _ member))

end Totals

section Store

/-- An action leaves a part of the tables as it is. -/
abbrev KeepsPart (part : Tables → Value) (action : StoreM Item) : Prop :=
  Within (fun before after => part after.tables = part before.tables) action

variable {part : Tables → Value}

theorem keepsPart_of_readOnly
    {action : StoreM Item}
    (readOnly : ReadOnly action) :
    KeepsPart part action :=
  readOnly.within fun _ => rfl

theorem keepsPart_bind
    {Other : Type}
    {first : StoreM Item}
    {next : Item → StoreM Other}
    (firstKeeps : KeepsPart part first)
    (nextKeeps : ∀ value, KeepsPart part (next value)) :
    KeepsPart part (first >>= next) :=
  firstKeeps.bind nextKeeps fun earlier later => later.trans earlier

theorem keepsPart_modify
    {context : String}
    {compute : Tables → Item × Tables}
    (elsewhere : ∀ tables, part (compute tables).2 = part tables) :
    KeepsPart part (modify context compute) := by
  apply within_exec
  · exact fun _ => rfl
  · intro before value after written
    rw [(write_eq_ok written).2]
    exact elsewhere before.tables

/-- A prepared loop of writes elsewhere keeps a part. -/
theorem keepsPart_preparedEach
    {prepareContext context : String}
    {update : Item → Tables → Tables}
    (items : List Item)
    (elsewhere : ∀ item tables, part (update item tables) = part tables) :
    KeepsPart part (preparedEach prepareContext context update items) := by
  refine keepsPart_bind (keepsPart_of_readOnly (readOnly_statement _)) ?_
  intro _
  induction items with
  | nil => exact keepsPart_of_readOnly (readOnly_pure _)
  | cons item rest inductionHypothesis =>
      exact keepsPart_bind (keepsPart_modify (elsewhere item))
        fun _ => inductionHypothesis

/-- Path states are not link counters. -/
theorem keepsLinks_applyPaths
    (peerID : Int)
    (ids : List (String × Int))
    (now : String)
    (paths : List PeerPathState) :
    KeepsPart Tables.linkStats (applyPaths peerID ids now paths) := by
  have recorded :
      ∀ prev, KeepsPart Tables.linkStats
        (recordPaths peerID ids prev now paths) := by
    intro prev
    induction paths with
    | nil => exact keepsPart_of_readOnly (readOnly_pure _)
    | cons path rest inductionHypothesis =>
        unfold recordPaths
        split
        · exact inductionHypothesis
        · refine keepsPart_bind ?_ fun _ =>
            keepsPart_bind (keepsPart_modify fun _ => rfl)
              fun _ => inductionHypothesis
          unfold logTransition
          split
          · exact keepsPart_of_readOnly (readOnly_pure _)
          · exact keepsPart_modify fun _ => rfl
  unfold applyPaths
  split
  · exact keepsPart_of_readOnly (readOnly_pure _)
  · exact keepsPart_bind (keepsPart_of_readOnly (readOnly_statement _))
      fun _ => keepsPart_bind (keepsPart_of_readOnly (readOnly_select _ _))
        fun prev => keepsPart_bind
          (keepsPart_of_readOnly (readOnly_statement _))
          fun _ => recorded prev

theorem keepsLinks_applyFlows
    (peerID : Int)
    (now : String)
    (flows : List FlowRecord) :
    KeepsPart Tables.linkStats (applyFlows peerID now flows) := by
  unfold applyFlows
  split
  · exact keepsPart_of_readOnly (readOnly_pure _)
  · exact keepsPart_preparedEach _ fun _ _ => rfl

theorem keepsLinks_applyProxyEvents
    (peerID : Int)
    (now : String)
    (events : List ProxyEvent) :
    KeepsPart Tables.linkStats (applyProxyEvents peerID now events) := by
  unfold applyProxyEvents
  split
  · exact keepsPart_of_readOnly (readOnly_pure _)
  · exact keepsPart_preparedEach _ fun _ _ => rfl

/-- The link totals after a loop of accumulating upserts. -/
theorem linkTotal_addLinkStats
    (agent remote : Int)
    {tables : Tables}
    (distinct : (tables.linkStats.map rowKey).Nodup)
    {rows : List LinkStatRow}
    (rowsFit :
      ∀ row ∈ rows, rowKey row = (agent, remote) →
        (rowBytes row).Fits)
    (stored : (linkTotal agent remote tables).Fits)
    (fits :
      (linkTotal agent remote tables +
        totalAt rowKey rowBytes (agent, remote) rows).Fits) :
    linkTotal agent remote
        (rows.foldl (fun tables row => tables.addLinkStat row) tables) =
      linkTotal agent remote tables +
        totalAt rowKey rowBytes (agent, remote) rows := by
  induction rows generalizing tables with
  | nil => rw [List.foldl_nil, totalAt_nil, add_zero]
  | cons row rest inductionHypothesis =>
      have restFit : ∀ row ∈ rest, rowKey row = (agent, remote) →
          (rowBytes row).Fits :=
        fun other member => rowsFit other (List.mem_cons_of_mem _ member)
      rw [totalAt_cons, ← add_assoc] at fits
      have amountFits :
          (amountAt rowKey rowBytes (agent, remote) row).Fits :=
        fits_amountAt (rowsFit row List.mem_cons_self)
      have next :
          (linkTotal agent remote tables +
            amountAt rowKey rowBytes (agent, remote) row).Fits :=
        (fits.of_add (stored.nonneg.add amountFits.nonneg)
          (nonneg_totalAt restFit)).1
      have added :
          linkTotal agent remote (tables.addLinkStat row) =
            linkTotal agent remote tables +
              amountAt rowKey rowBytes (agent, remote) row := by
        refine totalAt_upsert distinct (fun _ => rfl) ?_
        intro known isKey isTotal
        rw [amountAt_of_eq isKey] at next amountFits
        change rowBytes known = linkTotal agent remote tables at isTotal
        rw [← isTotal] at next stored
        exact LinkCounters.ext
          (sqlAdd_of_fits stored.rx.1 amountFits.rx.1 next.rx.2)
          (sqlAdd_of_fits stored.tx.1 amountFits.tx.1 next.tx.2)
      have stillDistinct :
          ((tables.addLinkStat row).linkStats.map rowKey).Nodup :=
        nodup_upsert distinct (fun _ => rfl)
      rw [← added] at next fits
      rw [List.foldl_cons,
        inductionHypothesis stillDistinct restFit next fits, added,
        totalAt_cons, add_assoc]

/-- The row of one counter. -/
def linkRow (agent remote : Int) (now : String) (counter : PeerCounter) :
    LinkStatRow where
  peerID := agent
  remotePeerID := remote
  rxBytes := counter.rxBytes
  txBytes := counter.txBytes
  lastHandshakeAt := nullable counter.lastHandshakeAt
  updatedAt := now

theorem linkRows_cons
    (agent : Int)
    (ids : List (String × Int))
    (now : String)
    (counter : PeerCounter)
    (rest : List PeerCounter) :
    linkRows agent ids now (counter :: rest) =
      match idByKey ids counter.peerPublicKey with
      | none => linkRows agent ids now rest
      | some remote =>
          linkRow agent remote now counter :: linkRows agent ids now rest := by
  unfold linkRows
  rw [List.filterMap_cons]
  cases idByKey ids counter.peerPublicKey with
  | none => rfl
  | some remote => rfl

variable {publicKey : String} {remote : Int}

/-- The rows of a report for a peer carry what its counters say. -/
theorem totalAt_linkRows
    {ids : List (String × Int)}
    (known : idByKey ids publicKey = some remote)
    (sole : ∀ other, idByKey ids other = some remote → other = publicKey)
    (agent : Int)
    (now : String)
    (counters : List PeerCounter) :
    totalAt rowKey rowBytes (agent, remote)
        (linkRows agent ids now counters) =
      reportedFor publicKey counters := by
  induction counters with
  | nil => rfl
  | cons counter rest inductionHypothesis =>
      unfold reportedFor at inductionHypothesis ⊢
      rw [linkRows_cons, totalAt_cons, ← inductionHypothesis]
      by_cases isPeer : counter.peerPublicKey = publicKey
      · rw [amountAt_of_eq isPeer, isPeer, known]
        simp only
        have isRow : rowKey (linkRow agent remote now counter) =
            (agent, remote) :=
          rfl
        rw [totalAt_cons, amountAt_of_eq isRow]
        rfl
      · rw [amountAt_of_ne isPeer, zero_add]
        cases other : idByKey ids counter.peerPublicKey with
        | none => rfl
        | some id =>
            have notRemote : rowKey (linkRow agent id now counter) ≠
                (agent, remote) := by
              intro same
              have isRemote : id = remote := (Prod.mk.inj same).2
              exact isPeer (sole _ (isRemote ▸ other))
            simp only
            rw [totalAt_cons, amountAt_of_ne notRemote, zero_add]

theorem fits_linkRows
    {ids : List (String × Int)}
    (sole : ∀ other, idByKey ids other = some remote → other = publicKey)
    {agent : Int}
    {now : String}
    {counters : List PeerCounter}
    (fits :
      ∀ counter ∈ counters, counter.peerPublicKey = publicKey →
        (counterBytes counter).Fits)
    {row : LinkStatRow}
    (member : row ∈ linkRows agent ids now counters)
    (isRow : rowKey row = (agent, remote)) :
    (rowBytes row).Fits := by
  obtain ⟨counter, counterMember, shape⟩ := List.mem_filterMap.mp member
  obtain ⟨id, found, rfl⟩ := Option.map_eq_some_iff.mp shape
  cases (Prod.mk.inj isRow).2
  exact fits counter counterMember (sole _ found)

/-- The ids a report looks up are those of the peers. -/
def peerIDs (tables : Tables) : List (String × Int) :=
  tables.peers.map fun row => (row.publicKey, row.id)

theorem peerIDs_reported
    (tables : Tables)
    (peerID : Int)
    (observedIP : String)
    (report : ReportRequest)
    (now : String) :
    peerIDs
        (tables.updatePeer peerID
          (PeerRecord.reported observedIP report now)) =
      peerIDs tables :=
  map_updateWhere _ (fun _ => rfl)

theorem mem_of_idByKey
    {tables : Tables}
    {id : Int}
    (found : idByKey (peerIDs tables) publicKey = some id) :
    ∃ row ∈ tables.peers, row.publicKey = publicKey ∧ row.id = id := by
  obtain ⟨earlier, later, shape, -⟩ := List.lookup_eq_some_iff.mp found
  have listed : (publicKey, id) ∈ peerIDs tables := by
    rw [shape]
    simp
  obtain ⟨row, member, pair⟩ := List.mem_map.mp listed
  exact ⟨row, member, (Prod.mk.inj pair).1, (Prod.mk.inj pair).2⟩

theorem sole_of_idByKey
    (db : DB)
    {first second : String}
    {id : Int}
    (isFirst : idByKey (peerIDs db.tables) first = some id)
    (isSecond : idByKey (peerIDs db.tables) second = some id) :
    second = first := by
  obtain ⟨row, member, isKey, isID⟩ := mem_of_idByKey isFirst
  obtain ⟨other, otherMember, otherKey, otherID⟩ := mem_of_idByKey isSecond
  have same : other = row :=
    db.legal.peerOrder.eq_of_id otherMember member (otherID.trans isID.symm)
  rw [← isKey, ← otherKey, same]

/-- An applied report has added what its counters say about a known peer. -/
theorem linkTotal_applyReport
    {agent : Int}
    {observedIP : String}
    {report : ReportRequest}
    {now : Instant}
    {before after : DB}
    (known : idByKey (peerIDs before.tables) publicKey = some remote)
    (counters :
      ∀ counter, counter ∈ report.counters →
        counter.peerPublicKey = publicKey → (counterBytes counter).Fits)
    (stored : (linkTotal agent remote before.tables).Fits)
    (fits :
      (linkTotal agent remote before.tables +
        reportedFor publicKey report.counters).Fits)
    (run :
      Runs (applyReport agent observedIP report now)
        before (.ok ()) after) :
    linkTotal agent remote after.tables =
      linkTotal agent remote before.tables +
        reportedFor publicKey report.counters := by
  obtain ⟨_, seen, seenRun, rest⟩ := (inTransaction_ok run).bind_ok
  obtain ⟨_, linked, linkRun, rest⟩ := rest.bind_ok
  obtain ⟨_, flowed, flowRun, proxyRun⟩ := rest.bind_ok
  have written := (modify_ok seenRun).2
  have sameIDs : peerIDs seen.tables = peerIDs before.tables := by
    rw [written]
    exact peerIDs_reported _ _ _ _ _
  have sameSeen : linkTotal agent remote seen.tables =
      linkTotal agent remote before.tables := by
    rw [written]
    rfl
  have sameEnd : linkTotal agent remote after.tables =
      linkTotal agent remote linked.tables := by
    unfold linkTotal
    rw [keepsLinks_applyProxyEvents _ _ _ _ _ _ proxyRun,
      keepsLinks_applyFlows _ _ _ _ _ _ flowRun]
  rw [← sameSeen] at stored fits
  rw [sameEnd, ← sameSeen]
  unfold applyLinks at linkRun
  split at linkRun
  · rename_i nothing
    rw [linkRun.pure_inv.2, nothing.1]
    exact (add_zero _).symm
  · obtain ⟨ids, listed, listRun, rest⟩ := linkRun.bind_ok
    obtain ⟨sameListed, idsShape⟩ := select_ok listRun
    subst listed
    obtain ⟨_, counted, countRun, pathRun⟩ := rest.bind_ok
    have samePaths : linkTotal agent remote linked.tables =
        linkTotal agent remote counted.tables := by
      unfold linkTotal
      rw [keepsLinks_applyPaths _ _ _ _ _ _ _ pathRun]
    rw [samePaths]
    unfold applyCounters at countRun
    split at countRun
    · rename_i noCounters
      rw [countRun.pure_inv.2, noCounters]
      exact (add_zero _).symm
    · obtain ⟨_, prepared, prepareRun, loopRun⟩ := countRun.bind_ok
      have samePrepared := prepareRun.statement_inv.1
      subst prepared
      have isIDs : ids = peerIDs before.tables := idsShape.trans sameIDs
      have sole : ∀ other, idByKey ids other = some remote →
          other = publicKey :=
        fun other isOther => sole_of_idByKey before known (isIDs ▸ isOther)
      have rows :=
        totalAt_linkRows (isIDs ▸ known) sole agent (format now)
          report.counters
      rw [← rows] at fits
      rw [modifyEach_ok loopRun,
        linkTotal_addLinkStats agent remote seen.legal.linkUnique
          (fun _ => fits_linkRows sole counters) stored fits, rows]

end Store

section Agent

/-- A peer of the device as `collectLinkCounters` reads it; the handshake time
is given as it is printed, empty when there was none. -/
structure Reading where
  publicKey : Key
  counters : LinkCounters
  handshake : String

/-- Arithmetic on `int64` wraps around. -/
def int64 (n : Int) : Int :=
  n.bmod 18446744073709551616

theorem int64_of_isInt64
    {n : Int}
    (fits : IsInt64 n) :
    int64 n = n :=
  Int.bmod_eq_of_le (by have := fits.1; omega) (by have := fits.2; omega)

/-- One direction of a delta: counters that fell are counted from zero. -/
def counterSince (prev cur : Int) : Int :=
  if int64 (cur - prev) < 0 then cur else int64 (cur - prev)

theorem counterSince_of_fits
    {prev cur : Int}
    (prevFits : 0 ≤ prev ∧ prev < 9223372036854775808)
    (curFits : 0 ≤ cur ∧ cur < 9223372036854775808) :
    counterSince prev cur = if cur < prev then cur else cur - prev := by
  rw [counterSince, int64_of_isInt64 (by unfold IsInt64; omega)]
  split <;> split <;> omega

theorem fits_counterSince
    {prev cur : Int}
    (prevFits : 0 ≤ prev ∧ prev < 9223372036854775808)
    (curFits : 0 ≤ cur ∧ cur < 9223372036854775808) :
    0 ≤ counterSince prev cur ∧
      counterSince prev cur < 9223372036854775808 := by
  rw [counterSince_of_fits prevFits curFits]
  split <;> omega

/-- The maps `prevLink` and `pendingCounters`.  The latter is given by its
values, each of which names its key. -/
structure Meter where
  prevLink : Key → LinkCounters
  pendingCounters : List PeerCounter

/-- The maps of a new process. -/
def Meter.new : Meter where
  prevLink := fun _ => 0
  pendingCounters := []

/-- What was transferred since the last reading of a peer. -/
def Meter.delta (meter : Meter) (reading : Reading) : LinkCounters where
  rx := counterSince (meter.prevLink reading.publicKey).rx reading.counters.rx
  tx := counterSince (meter.prevLink reading.publicKey).tx reading.counters.tx

/-- Add a delta to a pending counter; the latest handshake is kept. -/
def addDelta (delta : LinkCounters) (handshake : String)
    (pending : PeerCounter) : PeerCounter :=
  { pending with
    rxBytes := int64 (pending.rxBytes + delta.rx)
    txBytes := int64 (pending.txBytes + delta.tx)
    lastHandshakeAt :=
      if handshake = "" then pending.lastHandshakeAt else handshake }

/-- The counter of a peer that has none pending. -/
def freshCounter (publicKey : String) : PeerCounter where
  peerPublicKey := publicKey
  rxBytes := 0
  txBytes := 0
  lastHandshakeAt := ""

/-- The loop body of `collectLinkCounters`. -/
def Meter.read (meter : Meter) (reading : Reading) : Meter where
  prevLink :=
    Function.update meter.prevLink reading.publicKey reading.counters
  pendingCounters :=
    if meter.delta reading = 0 ∧ reading.handshake = "" then
      meter.pendingCounters
    else
      upsert (·.peerPublicKey)
        (addDelta (meter.delta reading) reading.handshake)
        (addDelta (meter.delta reading) reading.handshake
          (freshCounter reading.publicKey.text))
        meter.pendingCounters

/-- `collectLinkCounters`. -/
def Meter.collectLinkCounters (meter : Meter) (readings : List Reading) :
    Meter :=
  readings.foldl Meter.read meter

/-- The deltas that `collectLinkCounters` computes for a peer. -/
def Meter.deltas (peer : Key) : Meter → List Reading → LinkCounters
  | _, [] => 0
  | meter, reading :: rest =>
      amountAt Reading.publicKey meter.delta peer reading +
        Meter.deltas peer (meter.read reading) rest

/-- The pending delta of a peer. -/
def Meter.pending (meter : Meter) (peer : Key) : LinkCounters :=
  reportedFor peer.text meter.pendingCounters

/-- The pending counters have different keys. -/
def Meter.Distinct (meter : Meter) : Prop :=
  (meter.pendingCounters.map (·.peerPublicKey)).Nodup

theorem text_inj
    {first second : Key}
    (same : first.text = second.text) :
    first = second := by
  have parsed := congrArg parseKey same
  rw [parseKey_text, parseKey_text] at parsed
  exact Option.some.inj parsed

theorem counterBytes_addDelta
    {delta : LinkCounters}
    {handshake : String}
    {counter : PeerCounter}
    (fits : (counterBytes counter + delta).Fits) :
    counterBytes (addDelta delta handshake counter) =
      counterBytes counter + delta := by
  obtain ⟨rx, tx⟩ := fits
  exact LinkCounters.ext
    (int64_of_isInt64 ⟨Int.le_trans (by decide) rx.1, rx.2⟩)
    (int64_of_isInt64 ⟨Int.le_trans (by decide) tx.1, tx.2⟩)

/-- A meter without duplicates, whose counters of a peer fit. -/
structure Meter.Sound (meter : Meter) (peer : Key) : Prop where
  distinct : meter.Distinct
  prev : (meter.prevLink peer).Fits
  pending : (meter.pending peer).Fits

/-- What is read of a peer fits. -/
def FitFor (peer : Key) (readings : List Reading) : Prop :=
  ∀ reading ∈ readings, reading.publicKey = peer →
    reading.counters.Fits

section Read

variable {meter : Meter} {peer : Key} {reading : Reading}

/-- The last value after a reading fits. -/
theorem Meter.prevLink_read
    (prev : (meter.prevLink peer).Fits)
    (fits : reading.publicKey = peer → reading.counters.Fits) :
    ((meter.read reading).prevLink peer).Fits := by
  change
    (Function.update meter.prevLink reading.publicKey reading.counters
      peer).Fits
  rw [Function.update_apply]
  split
  · exact fits (Eq.symm ‹_›)
  · exact prev

theorem Meter.fits_delta
    (prev : (meter.prevLink peer).Fits)
    (fits : reading.publicKey = peer → reading.counters.Fits) :
    (amountAt Reading.publicKey meter.delta peer reading).Fits := by
  refine fits_amountAt fun same => ?_
  rw [← same] at prev
  exact ⟨fits_counterSince prev.rx (fits same).rx,
    fits_counterSince prev.tx (fits same).tx⟩

variable {readings : List Reading}

theorem Meter.prevLink_collect
    (prev : (meter.prevLink peer).Fits)
    (fits : FitFor peer readings) :
    ((meter.collectLinkCounters readings).prevLink peer).Fits := by
  induction readings generalizing meter with
  | nil => exact prev
  | cons reading rest inductionHypothesis =>
      exact inductionHypothesis
        (Meter.prevLink_read prev (fits reading List.mem_cons_self))
        fun other member => fits other (List.mem_cons_of_mem _ member)

/-- Deltas of what fits are not negative. -/
theorem Meter.nonneg_deltas
    (prev : (meter.prevLink peer).Fits)
    (fits : FitFor peer readings) :
    (meter.deltas peer readings).Nonneg := by
  induction readings generalizing meter with
  | nil => exact LinkCounters.Fits.zero.nonneg
  | cons reading rest inductionHypothesis =>
      have first := fits reading List.mem_cons_self
      exact (Meter.fits_delta prev first).nonneg.add
        (inductionHypothesis (Meter.prevLink_read prev first)
          fun other member => fits other (List.mem_cons_of_mem _ member))

/-- A reading adds its delta to what is pending. -/
theorem Meter.Sound.read
    (sound : meter.Sound peer)
    (readFits : reading.publicKey = peer → reading.counters.Fits)
    (fits :
      (meter.pending peer +
        amountAt Reading.publicKey meter.delta peer reading).Fits) :
    (meter.read reading).Sound peer ∧
      (meter.read reading).pending peer =
        meter.pending peer +
          amountAt Reading.publicKey meter.delta peer reading := by
  have distinct : (meter.read reading).Distinct := by
    unfold Distinct Meter.read
    simp only
    split
    · exact sound.distinct
    · exact nodup_upsert sound.distinct (fun _ => rfl)
  have pending :
      (meter.read reading).pending peer =
        meter.pending peer +
          amountAt Reading.publicKey meter.delta peer reading := by
    unfold Meter.pending reportedFor Meter.read
    simp only
    split
    · rename_i nothing
      have zero :
          amountAt Reading.publicKey meter.delta peer reading = 0 := by
        unfold amountAt
        rw [nothing.1]
        exact ite_self 0
      rw [zero, add_zero]
    · have isKey :
          (addDelta (meter.delta reading) reading.handshake
            (freshCounter reading.publicKey.text)).peerPublicKey =
              reading.publicKey.text :=
        rfl
      have fresh :
          amountAt (·.peerPublicKey) counterBytes peer.text
              (addDelta (meter.delta reading) reading.handshake
                (freshCounter reading.publicKey.text)) =
            amountAt Reading.publicKey meter.delta peer reading := by
        by_cases same : reading.publicKey = peer
        · have delta := Meter.fits_delta sound.prev readFits
          rw [amountAt_of_eq same] at delta ⊢
          rw [amountAt_of_eq (by rw [isKey, same])]
          have zero : counterBytes (freshCounter reading.publicKey.text) =
              0 :=
            rfl
          rw [counterBytes_addDelta (by rwa [zero, zero_add]), zero,
            zero_add]
        · rw [amountAt_of_ne same,
            amountAt_of_ne (fun text => same (text_inj (isKey ▸ text)))]
      rw [← fresh]
      refine totalAt_upsert sound.distinct (fun _ => rfl) ?_
      intro row isPeer isPending
      have same : reading.publicKey = peer := text_inj isPeer
      rw [amountAt_of_eq isPeer, amountAt_of_eq same] at fresh
      rw [amountAt_of_eq same] at fits
      change counterBytes row = meter.pending peer at isPending
      rw [fresh, counterBytes_addDelta (by rwa [isPending])]
  exact ⟨⟨distinct, Meter.prevLink_read sound.prev readFits, pending ▸ fits⟩,
    pending⟩

/-- Collecting adds its deltas to what is pending. -/
theorem Meter.Sound.collect
    (sound : meter.Sound peer)
    (readFits : FitFor peer readings)
    (fits : (meter.pending peer + meter.deltas peer readings).Fits) :
    (meter.collectLinkCounters readings).Sound peer ∧
      (meter.collectLinkCounters readings).pending peer =
        meter.pending peer + meter.deltas peer readings := by
  induction readings generalizing meter with
  | nil => exact ⟨sound, (add_zero _).symm⟩
  | cons reading rest inductionHypothesis =>
      have first := readFits reading List.mem_cons_self
      have later : FitFor peer rest :=
        fun other member => readFits other (List.mem_cons_of_mem _ member)
      rw [Meter.deltas, ← add_assoc] at fits ⊢
      have delta := Meter.fits_delta sound.prev first
      obtain ⟨stillSound, pending⟩ :=
        sound.read first
          (fits.of_add (sound.pending.nonneg.add delta.nonneg)
            (Meter.nonneg_deltas (Meter.prevLink_read sound.prev first)
              later)).1
      rw [← pending] at fits ⊢
      exact inductionHypothesis stillSound later fits

end Read

end Agent

section Handler

open Server

variable {config : Server.Config}

/-- `handleReport` up to the commit of `ApplyReport`: the reporter's id and the
report. -/
def ingest
    (config : Server.Config)
    (http : Request)
    (body : Body ReportRequest)
    (times : ReportTimes) : HandlerM (Int × ReportRequest) := do
  let token ← bearerToken http.authorization
  let peer ← storing authError
    (authenticatePeer config.store token times.authenticated)
  let report ← decodeJSON 4194304 body
  storing internalError
    (applyReport peer.1 (config.clientIP http) (config.admitted report)
      times.applied)
  pure (peer.1, report)

/-- `handleReport` after the commit. -/
def respond
    (config : Server.Config)
    (relay : Relay)
    (times : ReportTimes)
    (ingested : Int × ReportRequest) : HandlerM Response := do
  let visible ← storing internalError
    (peersForID ingested.1 config.store.defaultAllow)
  coordinate config relay times.coordinated visible.1 visible.2
    ingested.2.pathStates
  syncResponse config relay visible.1 visible.2

theorem handleReport_eq
    (relay : Relay)
    (http : Request)
    (body : Body ReportRequest)
    (times : ReportTimes) :
    handleReport config relay http body times =
      ingest config http body times >>= respond config relay times := by
  unfold handleReport ingest respond
  simp only [Action.bind_bind]
  rfl

/-- What has happened when a report is ingested. -/
structure Ingested
    (config : Server.Config)
    (http : Request)
    (body : Body ReportRequest)
    (times : ReportTimes)
    (before : Server.State)
    (ingested : Int × ReportRequest)
    (after : Server.State) : Prop where
  decoded : body = .decoded ingested.2
  authenticated :
    ∃ token overlayIP,
      cutPrefix "Bearer " http.authorization = some token ∧
        Runs (authenticatePeer config.store token times.authenticated)
          before.store.db (.ok (ingested.1, overlayIP)) before.store.db
  applied :
    ∃ db,
      Runs
          (applyReport ingested.1 (config.clientIP http)
            (config.admitted ingested.2) times.applied)
          before.store.db (.ok ()) db ∧
        after = before.withDB db

/-- A report is refused and changes nothing, or it is ingested. -/
theorem ingest_stage
    (http : Request)
    (body : Body ReportRequest)
    (times : ReportTimes) :
    Stage (ingest config http body times)
      (Ingested config http body times) := by
  intro before result after run
  rcases (bearerToken_stage _).bind_inv run with
    refused | ⟨token, _, ⟨bearer, rfl⟩, authenticating⟩
  · exact Or.inl refused
  rcases (reading_stage authError_answers
      (readOnly_authenticatePeer _ _ _)).bind_inv authenticating with
    refused | ⟨⟨id, overlayIP⟩, _, ⟨authenticated, rfl⟩, decoding⟩
  · exact Or.inl refused
  rcases (decodeJSON_stage _ _).bind_inv decoding with
    refused | ⟨report, _, ⟨decoded, rfl⟩, applying⟩
  · exact Or.inl refused
  rcases (storing_stage internalError_answers
      (atomic_applyReport _ _ _ _)).bind_inv applying with
    refused | ⟨_, _, ⟨db, rfl, applied⟩, returning⟩
  · exact Or.inl refused
  obtain ⟨shape, same⟩ := returning.pure_inv
  exact Or.inr ⟨(id, report), shape, decoded,
    ⟨token, overlayIP, bearer, authenticated⟩, db, applied, same⟩

theorem syncOutcome_of_valid
    {settings : Settings}
    {dns : DNSConfig}
    (valid : normalizeDNSConfig settings.dns = .ok dns)
    (respond : DNSConfig → ReportResponse) :
    syncOutcome settings respond = .ok (.report (respond dns)) := by
  unfold syncOutcome
  rw [valid]

/-- A peer with valid DNS settings gets its answer when the driver refuses
nothing more. -/
theorem completes_respond
    (relay : Relay)
    (times : ReportTimes)
    {state : Server.State}
    {ingested : Int × ReportRequest}
    {peer : PeerRecord}
    (found : state.store.db.tables.peerWithID? ingested.1 = some peer)
    {dns : DNSConfig}
    (valid :
      normalizeDNSConfig state.store.db.tables.settings.dns = .ok dns) :
    ∃ response after,
      Completes (respond config relay times ingested) state
          (.ok (.report response)) after ∧
        after.store = state.store := by
  have visible :
      Completes
        (storing internalError
          (peersForID ingested.1 config.store.defaultAllow))
        state
        (.ok
          (peer.selfRow,
            state.store.db.tables.visibleTo ingested.1
              config.store.defaultAllow))
        state :=
    completes_storing (completes_peersForID found _)
  have coordinated :=
    @completes_coordinate config relay state times.coordinated peer.selfRow
      (state.store.db.tables.visibleTo ingested.1 config.store.defaultAllow)
      ingested.2.pathStates
  have answer :=
    @completes_syncResponse config relay
      { state with
        punchEpochs :=
          coordinatedEpochs config relay times.coordinated peer.selfRow
            (state.store.db.tables.visibleTo ingested.1
              config.store.defaultAllow)
            ingested.2.pathStates state.store.db.tables state.punchEpochs }
      peer.selfRow
      (state.store.db.tables.visibleTo ingested.1 config.store.defaultAllow)
  rw [syncOutcome_of_valid valid] at answer
  refine ⟨_, _, visible.bind (coordinated.bind answer), ?_⟩
  rfl

end Handler

section Ticks

open Server

/-- How a report fares on its way to the server. -/
inductive Arrival where
  | lost
  | tooLarge
  | malformed
  | intact
deriving DecidableEq

/-- What the server gets of a report. -/
def Arrival.body? : Arrival → ReportRequest → Option (Body ReportRequest)
  | .lost, _ => none
  | .tooLarge, _ => some .tooLarge
  | .malformed, _ => some .malformed
  | .intact, report => some (.decoded report)

/-- A report is decoded only if it arrives intact. -/
theorem Arrival.intact_of_decoded
    {arrival : Arrival}
    {report decoded : ReportRequest}
    (isBody : arrival.body? report = some (.decoded decoded)) :
    arrival = .intact ∧ decoded = report := by
  cases arrival with
  | lost => cases isBody
  | tooLarge => cases isBody
  | malformed => cases isBody
  | intact =>
      cases isBody
      exact ⟨rfl, rfl⟩

/-- One `send`: what the report holds besides the counters, the order in which
the map yields these, and how the report and its answer fare. -/
structure Tick where
  http : Request
  rest : ReportRequest
  order : List PeerCounter
  arrival : Arrival
  relay : Relay
  times : ReportTimes
  answers : List (Option String)
  returns : Bool

/-- The request of a tick, with the agent's token. -/
def Tick.request (tick : Tick) (token : String) : Request :=
  { tick.http with authorization := "Bearer " ++ token }

/-- The report of a tick has all the pending counters. -/
def Meter.report (meter : Meter) (tick : Tick) : ReportRequest :=
  { tick.rest with
    counters :=
      if tick.order.isPerm meter.pendingCounters then tick.order
      else meter.pendingCounters }

/-- The answer has the status 200. -/
def isSuccess : Response → Bool
  | .error _ _ => false
  | _ => true

/-- The server, the agent's maps, and all deltas ever computed. -/
structure World where
  server : Server.State
  meter : Meter
  collected : Key → LinkCounters

/-- The agent's process starts. -/
def World.new (server : Server.State) : World where
  server := server
  meter := .new
  collected := fun _ => 0

/-- A tick of the agent: it collects, then it sends. -/
inductive Input where
  | collect (readings : List Reading)
  | send (tick : Tick)

/-- The report of a tick reaches the server. -/
def World.deliver (config : Server.Config) (token : String) (world : World)
    (tick : Tick) (body : Body ReportRequest) : World :=
  let served :=
    (Server.machine config).step world.server
      ⟨.report (tick.request token) body tick.relay tick.times, tick.answers⟩
  { world with
    server := served.2
    meter :=
      if tick.returns && isSuccess served.1 then
        { world.meter with pendingCounters := [] }
      else
        world.meter }

/-- One input of the agent that has the token. -/
def World.step (config : Server.Config) (token : String) (world : World) :
    Input → World
  | .collect readings =>
      { world with
        meter := world.meter.collectLinkCounters readings
        collected := fun peer =>
          world.collected peer + world.meter.deltas peer readings }
  | .send tick =>
      match tick.arrival.body? (world.meter.report tick) with
      | none => world
      | some body => world.deliver config token tick body

/-- The ticks of an agent as a machine. -/
def ticks (config : Server.Config) (token : String) :
    Machine World Input Unit where
  step := fun world input => ((), world.step config token input)

/-- The tables of the server. -/
def World.tables (world : World) : Tables :=
  world.server.store.db.tables

/-- The agent hears of every report that is applied: from the commit of
`ApplyReport` on the driver refuses nothing, the DNS settings are valid, and the
answer is not lost. -/
def Acknowledged (config : Server.Config) (token : String) (world : World) :
    Input → Prop
  | .collect _ => True
  | .send tick =>
      ∀ ingested later,
        tick.arrival = .intact →
        ingest config (tick.request token)
            (.decoded (world.meter.report tick)) tick.times
            ⟨world.server, tick.answers⟩ =
          (.ok ingested, later) →
        tick.returns = true ∧ later.answers = [] ∧
          ∃ dns, normalizeDNSConfig world.tables.settings.dns = .ok dns

/-- The kernel's counters of a peer fit into 64 bits, and so does all that was
stored and collected for it. -/
def Representable (peer : Key) (base : LinkCounters) (world : World) :
    Input → Prop
  | .collect readings =>
      FitFor peer readings ∧
        (base + (world.collected peer +
          world.meter.deltas peer readings)).Fits
  | .send _ => True

/-- The stored total and the pending delta of a known peer make up what was
collected. -/
structure Balanced (config : Server.Config) (token : String)
    (agent remote : Int) (peer : Key) (base : LinkCounters)
    (world : World) : Prop where
  holder :
    ∀ row,
      world.tables.peerWithToken? (config.store.hashToken token) = some row →
      row.id = agent
  known : idByKey (peerIDs world.tables) peer.text = some remote
  sound : world.meter.Sound peer
  stored : (linkTotal agent remote world.tables).Fits
  bounded : (base + world.collected peer).Fits
  total :
    linkTotal agent remote world.tables + world.meter.pending peer =
      base + world.collected peer

variable {config : Server.Config} {token : String} {agent remote : Int}
variable {peer : Key} {base : LinkCounters} {world : World}

/-- Collecting keeps the balance. -/
theorem Balanced.collect
    (balanced : Balanced config token agent remote peer base world)
    {readings : List Reading}
    (representable :
      Representable peer base world (.collect readings)) :
    Balanced config token agent remote peer base
      (world.step config token (.collect readings)) := by
  obtain ⟨readFits, bounded⟩ := representable
  have all := bounded
  rw [← add_assoc, ← balanced.total, add_assoc] at all
  have deltas := Meter.nonneg_deltas balanced.sound.prev readFits
  obtain ⟨sound, added⟩ :=
    balanced.sound.collect readFits
      (all.of_add balanced.stored.nonneg
        (balanced.sound.pending.nonneg.add deltas)).2
  refine ⟨balanced.holder, balanced.known, sound, balanced.stored, bounded,
    ?_⟩
  change
    linkTotal agent remote world.tables +
        (world.meter.collectLinkCounters readings).pending peer =
      base + (world.collected peer + world.meter.deltas peer readings)
  rw [added, ← add_assoc, balanced.total, add_assoc]

/-- An authenticated peer holds the token. -/
theorem authenticatePeer_holder
    {config : Store.Config}
    {token overlayIP : String}
    {now : Instant}
    {id : Int}
    {before after : DB}
    (run :
      Runs (authenticatePeer config token now)
        before (.ok (id, overlayIP)) after) :
    ∃ row,
      before.tables.peerWithToken? (config.hashToken token) = some row ∧
        row.id = id := by
  obtain ⟨found, middle, lookRun, rest⟩ := run.bind_ok
  obtain ⟨same, foundShape⟩ := select_ok lookRun
  subst middle
  split at rest
  · exact rest.raise_ok.elim
  · rename_i row
    split at rest
    · exact rest.raise_ok.elim
    · obtain ⟨shape, -⟩ := rest.pure_inv
      cases shape
      exact ⟨row, foundShape.symm, rfl⟩

/-- Reporting does not change who holds a token. -/
theorem holder_reported
    {tables : Tables}
    {tokenHash : String}
    {agent : Int}
    (holder :
      ∀ row, tables.peerWithToken? tokenHash = some row → row.id = agent)
    (peerID : Int)
    (observedIP : String)
    (report : ReportRequest)
    (now : String)
    {row : PeerRecord}
    (found :
      (tables.updatePeer peerID
        (PeerRecord.reported observedIP report now)).peerWithToken?
          tokenHash = some row) :
    row.id = agent := by
  change
    (tables.peers.map
      (fun row =>
        if row.id == peerID then
          PeerRecord.reported observedIP report now row
        else row)).find? _ = some row at found
  rw [List.find?_map] at found
  obtain ⟨old, isOld, rfl⟩ := Option.map_eq_some_iff.mp found
  have isHolder : old.id = agent := by
    refine holder old (Eq.trans ?_ isOld)
    unfold Tables.peerWithToken?
    congr 1
    funext row
    rw [Function.comp_apply]
    split
    · rfl
    · rfl
  split
  · exact isHolder
  · exact isHolder

theorem Meter.reportedFor_report
    (meter : Meter)
    (tick : Tick)
    (peer : Key) :
    reportedFor peer.text (meter.report tick).counters =
      meter.pending peer := by
  unfold Meter.report Meter.pending reportedFor
  simp only
  split
  · rename_i same
    exact totalAt_perm (List.isPerm_iff.mp same)
  · rfl

variable {tick : Tick} {body : Body ReportRequest}
  {later : Session Server.State}

/-- The counters of a report are pending. -/
theorem Meter.Sound.fits_report
    {meter : Meter}
    (sound : meter.Sound peer)
    {counter : PeerCounter}
    (member : counter ∈ (meter.report tick).counters)
    (isPeer : counter.peerPublicKey = peer.text) :
    (counterBytes counter).Fits := by
  have pendingMember : counter ∈ meter.pendingCounters := by
    unfold Meter.report at member
    simp only at member
    split at member
    · exact (List.isPerm_iff.mp ‹_›).mem_iff.mp member
    · exact member
  have fits := sound.pending
  unfold Meter.pending reportedFor at fits
  rwa [← isPeer, totalAt_of_mem sound.distinct pendingMember] at fits

/-- The server ingests a report, and responds if that has worked. -/
theorem served_eq :
    let served :=
      Action.andThen (ingest config (tick.request token) body tick.times)
        (respond config tick.relay tick.times) ⟨world.server, tick.answers⟩
    (Server.machine config).step world.server
        ⟨.report (tick.request token) body tick.relay tick.times,
          tick.answers⟩ =
      (written served.1, served.2.data) := by
  change
    (written (handleReport config _ _ _ _ ⟨world.server, tick.answers⟩).1,
      (handleReport config _ _ _ _ ⟨world.server, tick.answers⟩).2.data) = _
  rw [handleReport_eq]
  rfl

/-- A refused report changes neither the store nor the agent. -/
theorem deliver_refused
    {failure : Response}
    (refused :
      ingest config (tick.request token) body tick.times
          ⟨world.server, tick.answers⟩ =
        (.error failure, later)) :
    world.deliver config token tick body = world := by
  have run :=
    Runs.of_session (ingest config (tick.request token) body tick.times)
      ⟨world.server, tick.answers⟩
  rw [refused] at run
  rcases ingest_stage _ _ _ _ _ _ run with
    ⟨⟨status, text, shape⟩, same⟩ | ⟨ingested, impossible, -⟩
  · cases shape
    change later.data = world.server at same
    unfold World.deliver
    rw [served_eq]
    simp only [Action.andThen, refused, same, written, isSuccess,
      Bool.and_false, Bool.false_eq_true, if_false]
  · cases impossible

/-- A report that gets through has been ingested. -/
theorem ingested_of_done
    {ingested : Int × ReportRequest}
    (done :
      ingest config (tick.request token) body tick.times
          ⟨world.server, tick.answers⟩ =
        (.ok ingested, later)) :
    Ingested config (tick.request token) body tick.times world.server
      ingested later.data := by
  have run :=
    Runs.of_session (ingest config (tick.request token) body tick.times)
      ⟨world.server, tick.answers⟩
  rw [done] at run
  rcases ingest_stage _ _ _ _ _ _ run with
    ⟨⟨_, _, impossible⟩, -⟩ | ⟨_, shape, applied⟩
  · cases impossible
  · cases shape
    exact applied

/-- An applied report that is acknowledged leaves nothing pending. -/
theorem deliver_ingested
    {ingested : Int × ReportRequest}
    (done :
      ingest config (tick.request token) body tick.times
          ⟨world.server, tick.answers⟩ =
        (.ok ingested, later))
    (returns : tick.returns = true)
    (unrefused : later.answers = [])
    {dns : DNSConfig}
    (valid : normalizeDNSConfig world.tables.settings.dns = .ok dns) :
    (world.deliver config token tick body).server.store =
        later.data.store ∧
      (world.deliver config token tick body).meter =
        { world.meter with pendingCounters := [] } := by
  have applied := ingested_of_done done
  obtain ⟨db, applyRun, isLater⟩ := applied.applied
  obtain ⟨_, overlayIP, -, authenticated⟩ := applied.authenticated
  obtain ⟨-, row, member, -, -, -, isID, -⟩ :=
    authenticatePeer_ok authenticated
  have core := applyReport_ok applyRun
  have rowMember :
      row.reported (config.clientIP (tick.request token))
          (config.admitted ingested.2) (format tick.times.applied) ∈
        db.tables.peers := by
    rw [core.peers]
    exact mem_updateWhere.mpr ⟨row, member, by simp [isID]⟩
  have found : db.tables.peerWithID? ingested.1 = some _ :=
    isID ▸ db.peerWithID?_eq rowMember
  have stillValid : normalizeDNSConfig db.tables.settings.dns = .ok dns := by
    rw [core.settings]
    exact valid
  have laterDB : later.data.store.db = db := by
    rw [isLater]
    rfl
  rw [← laterDB] at found stillValid
  obtain ⟨response, after, responded, sameStore⟩ :=
    completes_respond tick.relay tick.times found stillValid
  have isSession : later = ⟨later.data, []⟩ := by
    rw [← unrefused]
  have answered :
      respond config tick.relay tick.times ingested later =
        (.ok (.report response), ⟨after, []⟩) := by
    rw [isSession]
    exact responded
  unfold World.deliver
  rw [served_eq]
  simp only [Action.andThen, done, answered, written, isSuccess, returns,
    Bool.and_self, if_true]
  exact ⟨sameStore, trivial⟩

/-- What an applied report adds to the store was pending before. -/
theorem Balanced.ingested
    (balanced : Balanced config token agent remote peer base world)
    {ingested : Int × ReportRequest}
    {state : Server.State}
    (applied :
      Ingested config (tick.request token) body tick.times world.server
        ingested state)
    (isReport : ingested.2 = world.meter.report tick)
    {after : World}
    (sameStore : after.server.store = state.store)
    (cleared : after.meter = { world.meter with pendingCounters := [] })
    (sameCollected : after.collected = world.collected) :
    Balanced config token agent remote peer base after := by
  obtain ⟨db, applyRun, isState⟩ := applied.applied
  have isAgent : ingested.1 = agent := by
    obtain ⟨found, overlayIP, bearer, authenticated⟩ := applied.authenticated
    change cutPrefix "Bearer " ("Bearer " ++ token) = some found at bearer
    rw [Agent.cutPrefix_append] at bearer
    cases bearer
    obtain ⟨row, isHolder, isID⟩ := authenticatePeer_holder authenticated
    rw [← isID]
    exact balanced.holder row isHolder
  have isTables : after.tables = db.tables := by
    unfold World.tables
    rw [sameStore, isState]
    rfl
  have core := applyReport_ok applyRun
  have reported :
      reportedFor peer.text (config.admitted ingested.2).counters =
        world.meter.pending peer := by
    rw [isReport]
    exact world.meter.reportedFor_report tick peer
  rw [isAgent] at applyRun
  have added :=
    linkTotal_applyReport balanced.known
      (fun counter member =>
        balanced.sound.fits_report (isReport ▸ member))
      balanced.stored
      (by
        rw [reported]
        exact balanced.total ▸ balanced.bounded)
      applyRun
  rw [reported] at added
  refine ⟨?_, ?_, ⟨?_, ?_, ?_⟩, ?_, ?_, ?_⟩
  · intro row found
    rw [isTables] at found
    unfold Tables.peerWithToken? at found
    rw [core.peers] at found
    exact holder_reported balanced.holder _ _ _ _ found
  · rw [isTables]
    unfold peerIDs
    rw [core.peers]
    exact (congrArg (idByKey · peer.text)
      (peerIDs_reported world.tables _ _ _ _)).trans balanced.known
  · rw [cleared]
    exact List.nodup_nil
  · rw [cleared]
    exact balanced.sound.prev
  · rw [cleared]
    exact .zero
  · rw [isTables, added]
    exact balanced.total ▸ balanced.bounded
  · rw [sameCollected]
    exact balanced.bounded
  · rw [isTables, added, cleared, sameCollected]
    exact (add_zero _).trans balanced.total

/-- An acknowledged report keeps the balance. -/
theorem Balanced.deliver
    (balanced : Balanced config token agent remote peer base world)
    (isBody : tick.arrival.body? (world.meter.report tick) = some body)
    (acknowledged : Acknowledged config token world (.send tick)) :
    Balanced config token agent remote peer base
      (world.deliver config token tick body) := by
  cases done :
      ingest config (tick.request token) body tick.times
        ⟨world.server, tick.answers⟩ with
  | mk outcome later =>
      cases outcome with
      | error failure =>
          rw [deliver_refused done]
          exact balanced
      | ok ingested =>
          have applied := ingested_of_done done
          rw [applied.decoded] at isBody
          obtain ⟨intact, isReport⟩ := Arrival.intact_of_decoded isBody
          rw [applied.decoded, isReport] at done
          obtain ⟨returns, unrefused, dns, valid⟩ :=
            acknowledged ingested later intact done
          rw [applied.decoded, isReport]
          obtain ⟨sameStore, cleared⟩ :=
            deliver_ingested done returns unrefused valid
          exact balanced.ingested applied isReport sameStore cleared rfl

/-- Every acknowledged input keeps the balance. -/
theorem Balanced.step
    (balanced : Balanced config token agent remote peer base world)
    {input : Input}
    (acknowledged : Acknowledged config token world input)
    (representable : Representable peer base world input) :
    Balanced config token agent remote peer base
      (world.step config token input) := by
  cases input with
  | collect readings => exact balanced.collect representable
  | send tick =>
      cases isBody : tick.arrival.body? (world.meter.report tick) with
      | none =>
          simp only [World.step, isBody]
          exact balanced
      | some body =>
          simp only [World.step, isBody]
          exact balanced.deliver isBody acknowledged

/--
In every run of an agent's ticks in which it hears of each report that the server
has applied, and in which the total fits into 64 bits, what `link_stats` holds
for a peer that the server knows, together with the agent's pending delta, has
grown by exactly the deltas collected.
-/
theorem deltas_counted_once
    (config : Server.Config)
    (token : String)
    {server : Server.State}
    {agent remote : Int}
    {peer : Key}
    (holder :
      ∀ row,
        server.store.db.tables.peerWithToken?
          (config.store.hashToken token) = some row →
        row.id = agent)
    (known :
      idByKey (peerIDs server.store.db.tables) peer.text = some remote)
    (stored : (linkTotal agent remote server.store.db.tables).Fits)
    {inputs : List Input}
    (conforms :
      ∀ visit, visit ∈ (ticks config token).visits (.new server) inputs →
        Acknowledged config token visit.before visit.input ∧
          Representable peer
            (linkTotal agent remote server.store.db.tables)
            visit.before visit.input) :
    let world := (ticks config token).run (.new server) inputs
    linkTotal agent remote world.tables + world.meter.pending peer =
      linkTotal agent remote server.store.db.tables +
        world.collected peer := by
  have start :
      Balanced config token agent remote peer
        (linkTotal agent remote server.store.db.tables) (.new server) :=
    ⟨holder, known, ⟨List.nodup_nil, .zero, .zero⟩, stored,
      (add_zero (linkTotal agent remote server.store.db.tables)).symm ▸
        stored, rfl⟩
  exact
    (@Machine.visits_invariant _ _ _ (ticks config token)
      (Balanced config token agent remote peer
        (linkTotal agent remote server.store.db.tables))
      (fun world input =>
        Acknowledged config token world input ∧
          Representable peer
            (linkTotal agent remote server.store.db.tables) world input)
      (fun _ _ balanced allowed => balanced.step allowed.1 allowed.2)
      (.new server) start inputs conforms).1.total

/-- A server with two agents; the second one has the token `second`. -/
def pairServer : Server.State :=
  (Server.machine (.sample true)).run .fresh (twoAgents "")

/-- The kernel has counted five bytes from the first agent and seven to it. -/
def firstTraffic : Reading where
  publicKey := zeroKey
  counters := ⟨5, 7⟩
  handshake := ""

/-- A report without anything but the counters. -/
def plainTick (arrival : Arrival) (returns : Bool) : Tick where
  http := ⟨"192.0.2.7:4000", "", ""⟩
  rest := {}
  order := []
  arrival := arrival
  relay := fun _ => none
  times := ⟨0, 0, 0⟩
  answers := []
  returns := returns

/-- The first report is lost, the second one is answered. -/
def retriedTicks : List Input :=
  [.collect [firstTraffic], .send (plainTick .lost true),
    .send (plainTick .intact true)]

theorem exists_of_isSome
    {Failure : Type}
    {outcome : Except Failure Value}
    (succeeds : outcome.toOption.isSome = true) :
    ∃ value, outcome = .ok value := by
  cases outcome with
  | error failure => cases succeeds
  | ok value => exact ⟨value, rfl⟩

/-- The bytes are stored once. -/
theorem deltas_counted_once_retried :
    let world :=
      (ticks (.sample true) "second").run (.new pairServer) retriedTicks
    linkTotal 2 1 world.tables = ⟨5, 7⟩ ∧
      linkTotal 2 1 world.tables + world.meter.pending zeroKey =
        linkTotal 2 1 pairServer.store.db.tables +
          world.collected zeroKey := by
  refine
    ⟨by decide +kernel,
      deltas_counted_once (.sample true) "second" ?_ (by decide +kernel)
        (by decide +kernel) ?_⟩
  · intro row found
    have isTwo :
        (pairServer.store.db.tables.peerWithToken?
          ((Server.Config.sample true).store.hashToken "second")).map
            (·.id) = some 2 := by
      decide +kernel
    rw [found] at isTwo
    exact Option.some.inj isTwo
  · intro visit member
    simp only [retriedTicks, Machine.visits, List.mem_cons,
      List.not_mem_nil, or_false] at member
    rcases member with isVisit | isVisit | isVisit
    · rw [isVisit]
      refine ⟨trivial, ?_, by decide +kernel⟩
      intro reading isReading _
      rw [List.mem_singleton.mp isReading]
      decide
    · rw [isVisit]
      refine ⟨?_, trivial⟩
      intro ingested later intact
      cases intact
    · rw [isVisit]
      refine ⟨?_, trivial⟩
      intro ingested later _ done
      have unrefused := congrArg (·.2.answers) done
      exact ⟨rfl, Eq.trans (Eq.symm unrefused) (by decide +kernel),
        exists_of_isSome (by decide +kernel)⟩

/-- The first report is applied but its answer is lost, the second one is
answered. -/
def repeatedTicks : List Input :=
  [.collect [firstTraffic], .send (plainTick .intact false),
    .send (plainTick .intact true)]

/-- The bytes are stored twice. -/
theorem lost_answer_counts_twice :
    let world :=
      (ticks (.sample true) "second").run (.new pairServer) repeatedTicks
    idByKey (peerIDs pairServer.store.db.tables) zeroKey.text = some 1 ∧
      linkTotal 2 1 pairServer.store.db.tables = 0 ∧
      world.collected zeroKey = ⟨5, 7⟩ ∧
      world.meter.pending zeroKey = 0 ∧
      linkTotal 2 1 world.tables = ⟨10, 14⟩ := by
  decide +kernel

end Ticks

end WgMesh.Traffic
