import WgMesh.MutualVisibility

namespace WgMesh

/-!
# Reports when the driver refuses nothing

A run without refusals is determined by the state and the request.  This
module computes it: the policy and the epochs as functions of the tables, and
the answer to a report as a function of the tables the report has left.
-/

namespace Server

open CivilTime RowTables Store TextScan Transactions

/-- The peers whose addresses `buildACLPolicy` knows. -/
def activePeers (tables : Tables) : List PeerInfo :=
  (tables.peers.map (·.info)).filter (fun p => p.revokedAt == "")

/-- The policy that `buildACLPolicy` computes. -/
def aclPolicyOf (config : Config) (tables : Tables) : ACLPolicy :=
  if config.store.defaultAllow then
    { defaultPolicy := "allow", rules := [] }
  else
    { defaultPolicy := "deny"
      rules :=
        (tables.aclRules.map (·.listed)).filterMap
          (policyRule (activePeers tables)) }

/-- The epochs that `coordinatePunches` computes. -/
def coordinatedEpochs
    (config : Config)
    (relay : Relay)
    (now : Instant)
    (self : PeerRow)
    (others : List PeerRow)
    (paths : List PeerPathState)
    (tables : Tables)
    (epochs : PunchEpochs) : PunchEpochs :=
  if paths = [] then
    epochs
  else
    paths.foldl
      (coordinatePath config relay now self others
        (isOnline (tables.peers.map (·.info)) now))
      epochs

/-- How a report's handler ends once the report is applied. -/
def syncOutcome (settings : Settings) (respond : DNSConfig → ReportResponse) :
    Except Response Response :=
  match normalizeDNSConfig settings.dns with
  | .error _ => .error (.error 500 "internal error")
  | .ok dns => .ok (.report (respond dns))

section FaultFree

variable {Value : Type} {config : Config} {relay : Relay} {state : State}

theorem completes_buildACLPolicy
    (config : Config)
    (db : DB) :
    Completes (buildACLPolicy config) db
      (.ok (aclPolicyOf config db.tables)) db := by
  unfold buildACLPolicy aclPolicyOf
  split
  · exact completes_pure _ _
  · exact (completes_query _ _ _).bind
      ((completes_query _ _ _).bind (completes_pure _ _))

theorem completes_coordinatePunches
    (now : Instant)
    (self : PeerRow)
    (others : List PeerRow)
    (paths : List PeerPathState)
    (epochs : PunchEpochs)
    (db : DB) :
    Completes
      (coordinatePunches config relay now self others paths epochs) db
      (.ok
        (coordinatedEpochs config relay now self others paths db.tables
          epochs))
      db := by
  unfold coordinatePunches coordinatedEpochs
  split
  · exact completes_pure _ _
  · exact (completes_query _ _ _).bind (completes_pure _ _)

theorem completes_storing
    {answer : StoreError → Response}
    {action : StoreM Value}
    {value : Value}
    {db : DB}
    (complete : Completes action state.store.db (.ok value) db) :
    Completes (storing answer action) state (.ok value)
      (state.withDB db) :=
  Completes.bind
    (@Completes.zoom _ _ _ _ _ _ State.withDB _ _ _ _ complete) (completes_pure _ _)

theorem completes_storing_error
    {answer : StoreError → Response}
    {action : StoreM Value}
    {error : StoreError}
    {db : DB}
    (complete : Completes action state.store.db (.error error) db) :
    Completes (storing answer action) state (.error (answer error))
      (state.withDB db) :=
  Completes.bind
    (@Completes.zoom _ _ _ _ _ _ State.withDB _ _ _ _ complete) (completes_raise _ _)

/-- A request carries the token of a peer. -/
structure Bears
    (config : Config)
    (http : Request)
    (db : DB)
    (peer : PeerRecord)
    (token : String) : Prop where
  bearer : cutPrefix "Bearer " http.authorization = some token
  holder :
    db.tables.peerWithToken? (config.store.hashToken token) = some peer

theorem completes_peersForID
    {db : DB}
    {id : Int}
    {peer : PeerRecord}
    (found : db.tables.peerWithID? id = some peer)
    (defaultAllow : Bool) :
    Completes (peersForID id defaultAllow) db
      (.ok (peer.selfRow, db.tables.visibleTo id defaultAllow)) db := by
  refine (completes_query _ _ _).bind ?_
  simp only [found]
  exact (completes_query _ _ _).bind (completes_pure _ _)

/-- Assembling the answer to a report. -/
theorem completes_syncResponse
    (self : PeerRow)
    (others : List PeerRow) :
    Completes (syncResponse config relay self others) state
      (syncOutcome state.store.db.tables.settings fun dns =>
        reportResponse config relay state self others dns
          (aclPolicyOf config state.store.db.tables))
      state := by
  unfold syncOutcome
  refine (completes_peek _ _).bind ?_
  have read := completes_currentDNSConfig state.store.db
  cases normalized :
      normalizeDNSConfig state.store.db.tables.settings.dns with
  | error error =>
      rw [normalized] at read
      exact (completes_storing_error read).bind_error
  | ok dns =>
      rw [normalized] at read
      exact (completes_storing read).bind
        ((completes_storing
          (completes_buildACLPolicy config state.store.db)).bind
          (completes_pure _ _))

theorem completes_coordinate
    (now : Instant)
    (self : PeerRow)
    (others : List PeerRow)
    (paths : List PeerPathState) :
    Completes (coordinate config relay now self others paths) state (.ok ())
      { state with
        punchEpochs :=
          coordinatedEpochs config relay now self others paths
            state.store.db.tables state.punchEpochs } := by
  refine (completes_peek _ _).bind ?_
  exact Completes.bind
    (@Completes.zoom _ _ _ _ _ _ State.withDB _ _ _ _
      (completes_coordinatePunches now self others paths _ _)) rfl

end FaultFree

end Server

end WgMesh
