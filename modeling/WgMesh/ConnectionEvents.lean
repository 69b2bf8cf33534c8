import WgMesh.RelayAuthorization
import WgMesh.TrafficDeltas

namespace WgMesh.Store

/-!
# Connection events and current paths

`ApplyReport` overwrites the path of a pair and adds an event to a log when the
pair's kind of connection changes.  A report reads the paths once, before its
loop, so that the log follows the paths as long as no report lists a peer twice.
-/

open FiniteRuns RowTables Traffic Transactions

/-- The kind of connection that a path state stands for, if it is one. -/
def pathKind (state : String) : Option String :=
  if state = "direct" then some "direct"
  else if state = "quic-relay" ∨ state = "ws-relay" ∨ state = "udp-relay" then
    some "relay"
  else none

theorem connectionEventKind_eq
    (prev next : String) :
    connectionEventKind prev next =
      if pathKind prev = pathKind next then none else pathKind next := by
  unfold connectionEventKind pathKind
  grind

/-- The kind of connection that a pair has now. -/
def Tables.kindNow (tables : Tables) (pair : Int × Int) : Option String :=
  (rowWith? (fun row => (row.peerID, row.remotePeerID)) pair
    tables.peerPaths).bind (fun row => pathKind row.state)

/-- The kind of the newest event of a pair. -/
def Tables.lastLogged (tables : Tables) (pair : Int × Int) :
    Option String :=
  (tables.connectionEvents.filter (fun row =>
    (row.reporterPeerID, row.remotePeerID) = pair)).getLast?.map (·.kind)

/-- The newest event of every connected pair tells its kind of connection. -/
def Tables.LogTells (tables : Tables) : Prop :=
  ∀ pair kind, tables.kindNow pair = some kind →
    tables.lastLogged pair = some kind

/-- What paths and events are read from. -/
def Tables.pathLog (tables : Tables) :
    List PeerPathRow × List ConnectionEventRow :=
  (tables.peerPaths, tables.connectionEvents)

variable {tables : Tables} {before after : DB}

theorem Tables.LogTells.congr
    {other : Tables}
    (tells : tables.LogTells)
    (same : other.pathLog = tables.pathLog) :
    other.LogTells := by
  obtain ⟨samePaths, sameEvents⟩ := Prod.mk.inj same
  unfold LogTells kindNow lastLogged
  rw [samePaths, sameEvents]
  exact tells

/-- A pair has the kind of connection that was put last. -/
theorem Tables.kindNow_putPath
    (row : PeerPathRow)
    (pair : Int × Int) :
    (tables.putPath row).kindNow pair =
      if pair = (row.peerID, row.remotePeerID) then pathKind row.state
      else tables.kindNow pair := by
  unfold putPath kindNow
  dsimp only
  rw [rowWith?_upsert]
  · split
    · cases rowWith? _ pair tables.peerPaths <;> rfl
    · rfl
  · exact fun _ => rfl

theorem Tables.lastLogged_add
    (reporter remote : Int)
    (kind : String)
    (fromState : Option String)
    (toState : String)
    (pair : Int × Int) :
    (tables.addConnectionEvent reporter remote kind fromState
        toState).lastLogged pair =
      if pair = (reporter, remote) then some kind
      else tables.lastLogged pair := by
  unfold addConnectionEvent lastLogged
  by_cases same : (reporter, remote) = pair
  · simp [List.filter_append, same]
  · simp [List.filter_append, same, Ne.symm same]

/-- What a logged transition leaves. -/
theorem logTransition_ok
    {peerID remote : Int}
    {prev next : String}
    (run :
      Runs (logTransition peerID remote prev next) before (.ok ()) after)
    (pair : Int × Int) :
    after.tables.kindNow pair = before.tables.kindNow pair ∧
      after.tables.lastLogged pair =
        if pair = (peerID, remote) ∧ pathKind prev ≠ pathKind next ∧
            pathKind next ≠ none then pathKind next
        else before.tables.lastLogged pair := by
  unfold logTransition at run
  rw [connectionEventKind_eq] at run
  split at run
  · rename_i silent
    rw [run.pure_inv.2]
    exact ⟨rfl, by grind⟩
  · rename_i kind logged
    rw [(modify_ok run).2]
    refine ⟨rfl, ?_⟩
    dsimp only
    rw [Tables.lastLogged_add]
    grind

/--
The loop over the reported paths keeps the log telling, if what was read before
it is still there for the paths to come and none of them is listed twice.
-/
theorem logTells_recordPaths
    {peerID : Int}
    {ids : List (String × Int)}
    {prev : List (Int × String)}
    {now : String}
    {paths : List PeerPathState}
    (tells : before.tables.LogTells)
    (current :
      ∀ path, path ∈ paths →
        ∀ remote, idByKey ids path.peerPublicKey = some remote →
          pathKind ((prev.lookup remote).getD "") =
            before.tables.kindNow (peerID, remote))
    (once :
      paths.Pairwise (fun first second =>
        ∀ remote, idByKey ids first.peerPublicKey = some remote →
          idByKey ids second.peerPublicKey ≠ some remote))
    (run :
      Runs (recordPaths peerID ids prev now paths) before (.ok ()) after) :
    after.tables.LogTells := by
  induction paths generalizing before with
  | nil =>
      rw [run.pure_inv.2]
      exact tells
  | cons path rest inductionHypothesis =>
      obtain ⟨apart, restOnce⟩ := List.pairwise_cons.mp once
      unfold recordPaths at run
      split at run
      · exact inductionHypothesis tells
          (fun other member => current other (List.mem_cons_of_mem _ member))
          restOnce run
      · rename_i remote found
        obtain ⟨_, logged, logRun, rest⟩ := run.bind_ok
        obtain ⟨_, put, putRun, loop⟩ := rest.bind_ok
        have asRead := current path List.mem_cons_self remote found
        have kinds :
            ∀ pair, put.tables.kindNow pair =
              if pair = (peerID, remote) then pathKind path.state
              else before.tables.kindNow pair := by
          intro pair
          rw [(modify_ok putRun).2, Tables.kindNow_putPath,
            (logTransition_ok logRun pair).1]
        have logs :
            ∀ pair, put.tables.lastLogged pair =
              logged.tables.lastLogged pair := by
          intro pair
          rw [(modify_ok putRun).2]
          rfl
        refine inductionHypothesis ?_ ?_ restOnce loop
        · intro pair kind now
          have before := tells pair kind
          rw [logs, (logTransition_ok logRun pair).2]
          grind
        · intro other member otherRemote isOther
          have differs : otherRemote ≠ remote := by
            rintro rfl
            exact apart other member _ found isOther
          rw [kinds, if_neg (by simpa using differs)]
          exact current other (List.mem_cons_of_mem _ member) _ isOther

/-- What is read before the loop are the current kinds. -/
theorem kindNow_eq_lookup
    (peerID remote : Int)
    (rows : List PeerPathRow) :
    pathKind
        ((((rows.filter (fun row => row.peerID == peerID)).map
          (fun row => (row.remotePeerID, row.state))).lookup remote).getD
            "") =
      (rowWith? (fun row => (row.peerID, row.remotePeerID)) (peerID, remote)
        rows).bind (fun row => pathKind row.state) := by
  unfold rowWith?
  induction rows with
  | nil => rfl
  | cons row rest inductionHypothesis =>
      by_cases own : row.peerID = peerID
      · by_cases named : row.remotePeerID = remote
        · simp [own, named]
        · simp only [List.filter_cons, own, beq_self_eq_true, if_true,
            List.map_cons, List.lookup_cons, List.find?_cons,
            beq_eq_false_iff_ne.mpr (Ne.symm named)]
          simpa [own, named] using inductionHypothesis
      · simpa [own] using inductionHypothesis

/-- The peers whose paths an operation reports. -/
def Op.pathPeers : Op → List String
  | .applyReport _ _ report _ => report.pathStates.map (·.peerPublicKey)
  | _ => []

theorem Tables.LogTells.unless
    {Item : Type}
    {prepareContext context : String}
    {update : Item → Tables → Tables}
    {items : List Item}
    {skipped : Prop}
    [Decidable skipped]
    {value : Unit}
    (tells : before.tables.LogTells)
    (run :
      Runs
        (if skipped then pure ()
          else preparedEach prepareContext context update items)
        before (.ok value) after)
    (elsewhere :
      ∀ item tables, (update item tables).pathLog = tables.pathLog) :
    after.tables.LogTells := by
  split at run
  · rw [run.pure_inv.2]
    exact tells
  · exact tells.congr (keepsPart_preparedEach items elsewhere _ _ _ run)

/-- A report keeps the log telling. -/
theorem logTells_applyReport
    {peerID : Int}
    {observedIP : String}
    {report : ReportRequest}
    {now : CivilTime.Instant}
    (tells : before.tables.LogTells)
    (once : (report.pathStates.map (·.peerPublicKey)).Nodup)
    (run :
      Runs (applyReport peerID observedIP report now)
        before (.ok ()) after) :
    after.tables.LogTells := by
  obtain ⟨_, seen, seenRun, linking⟩ := (inTransaction_ok run).bind_ok
  obtain ⟨_, linked, linkRun, flowing⟩ := linking.bind_ok
  obtain ⟨_, flowed, flowRun, proxyRun⟩ := flowing.bind_ok
  have seenTells : seen.tables.LogTells := by
    rw [(modify_ok seenRun).2]
    exact tells
  suffices linkedTells : linked.tables.LogTells from
    (linkedTells.unless flowRun (fun _ _ => rfl)).unless proxyRun
      (fun _ _ => rfl)
  unfold applyLinks at linkRun
  split at linkRun
  · rw [linkRun.pure_inv.2]
    exact seenTells
  obtain ⟨ids, _, listRun, counting⟩ := linkRun.bind_ok
  obtain ⟨rfl, isIDs⟩ := select_ok listRun
  obtain ⟨_, counted, countRun, pathRun⟩ := counting.bind_ok
  have countedTells : counted.tables.LogTells :=
    seenTells.unless countRun (fun _ _ => rfl)
  unfold applyPaths at pathRun
  split at pathRun
  · rw [pathRun.pure_inv.2]
    exact countedTells
  obtain ⟨_, _, prepareRun, reading⟩ := pathRun.bind_ok
  obtain ⟨prev, _, readRun, preparing⟩ := reading.bind_ok
  obtain ⟨_, _, secondRun, loop⟩ := preparing.bind_ok
  obtain rfl := prepareRun.statement_inv.1
  obtain ⟨rfl, isPrev⟩ := select_ok readRun
  obtain rfl := secondRun.statement_inv.1
  refine logTells_recordPaths countedTells ?_ ?_ loop
  · intro path _ remote _
    rw [isPrev]
    exact kindNow_eq_lookup _ _ _
  · refine (List.pairwise_map.mp once).imp ?_
    intro first second differ remote isFirst isSecond
    rw [isIDs] at isFirst isSecond
    exact differ (sole_of_idByKey _ isSecond isFirst)

/-- A removal keeps the log telling about the pairs that remain. -/
theorem Tables.LogTells.removePeer
    (tells : tables.LogTells)
    (id : Int) :
    (tables.removePeer id).LogTells := by
  rintro ⟨reporter, remote⟩ kind now
  have remains : reporter ≠ id ∧ remote ≠ id := by
    obtain ⟨row, found, -⟩ := Option.bind_eq_some_iff.mp now
    obtain ⟨member, isPair⟩ := mem_of_rowWith? found
    cases isPair
    simpa using (List.mem_filter.mp member).2
  have same := tells (reporter, remote) kind
  unfold kindNow lastLogged rowWith? Tables.removePeer at *
  simp only [List.find?_filter, List.filter_filter] at *
  grind

/-- Every operation keeps the log telling. -/
theorem logTells_step
    (config : Config)
    (state : State)
    (input : Input)
    (tells : state.db.tables.LogTells)
    (once : input.op.pathPeers.Nodup) :
    ((machine config).step state input).2.db.tables.LogTells := by
  have run :=
    Runs.of_session (perform config state.view input.op)
      ⟨state.db, input.answers⟩
  rcases step_cases config state input with
    ⟨error, stepped⟩ | ⟨reply, after, stepped, effect⟩
  · rw [stepped]
    exact tells
  rw [stepped, remember_db]
  obtain ⟨op, answers⟩ := input
  cases effect with
  | peerRemoved _ stored =>
      rw [stored]
      exact tells.removePeer _
  | reported _ =>
      have succeeded := congrArg Prod.fst stepped
      have ended := congrArg (fun step => step.2.db) stepped
      simp only [machine] at succeeded ended
      rw [succeeded] at run ended
      simp only [settle, remember_db] at ended
      obtain ⟨_, _, reportRun, returned⟩ := run.bind_ok
      rw [← ended, returned.pure_inv.2]
      exact logTells_applyReport tells once reportRun
  | candidatesSet stored =>
      refine tells.congr ?_
      rw [stored]
      split <;> rfl
  | reEnrolled done | enrolledNew done | staticCreated done
  | exitAssigned done => exact tells.congr (by rw [done.stored]; rfl)
  | migrated _ _ _ _ stored | networksLoaded _ _ _ stored
  | readdressed _ stored | dnsUpdated _ stored | peerRevoked _ stored
  | ruleAdded _ stored | rulesImported _ stored | keyCreated stored
  | keyRevoked stored | offerSet stored | ruleDeleted stored =>
      exact tells.congr (by rw [stored]; rfl)

/--
After every run of the store whose reports list no peer twice, the newest event
of every pair that is connected, directly or through a relay, tells how.  The
retention of old events is not part of such a run.
-/
theorem events_tell_current_path
    (config : Config)
    (network : NetAddress.Prefix)
    (network6 : Option NetAddress.Prefix)
    {inputs : List Input}
    (once : ∀ input ∈ inputs, input.op.pathPeers.Nodup) :
    ((machine config).run (.empty network network6)
      inputs).db.tables.LogTells := by
  refine @Machine.run_invariant_on _ _ _ (machine config)
    (fun state => state.db.tables.LogTells)
    (fun input => input.op.pathPeers.Nodup) ?_ _ ?_ _ once
  · exact logTells_step config
  · intro pair kind now
    cases now

/-- The first of two agents reports states of its path to the second. -/
def pathReports (reports : List (List String)) : List Input :=
  Server.strangers ++
    reports.map (fun states =>
      Op.accepted (.applyReport 1 ""
        { pathStates := states.map (⟨"bob", ·, ""⟩) } 0))

/-- The tables after such reports. -/
def pathTables (reports : List (List String)) : Tables :=
  ((machine (.sample false)).run (.empty defaultNetwork none)
    (pathReports reports)).db.tables

/-- A pair that probes and falls back to a relay. -/
theorem events_tell_current_path_relayed :
    (pathTables
          [["direct"], ["probing-direct"], ["ws-relay"]]).kindNow (1, 2) =
        some "relay" ∧
      (pathTables [["direct"], ["probing-direct"], ["ws-relay"]]).LogTells :=
  ⟨by decide +kernel,
    events_tell_current_path _ _ _ (by decide +kernel)⟩

-- A peer that is listed twice is compared with what was read before the loop.
example :
    (pathTables [["direct"], ["ws-relay", "direct"]]).kindNow (1, 2) =
        some "direct" ∧
      (pathTables [["direct"], ["ws-relay", "direct"]]).lastLogged (1, 2) =
        some "relay" := by
  decide +kernel

end WgMesh.Store
