import WgMesh.MutualVisibility

namespace WgMesh.Store

/-!
# Which token authenticates whom

Only the hash of a peer's last token is stored.  This module compares what
`AuthenticatePeer` answers with the history of the store: which operation drew
the presented token, for which row, and what happened to that row since.
-/

open CivilTime FiniteRuns RowTables TextScan Transactions

/-- A token drawn for a public key at an instant. -/
structure Issue where
  publicKey : String
  token : String
  instant : Instant
deriving DecidableEq

/-- What an operation draws a token for. -/
def Op.issue? : Op → Option Issue
  | .enroll args now (.ok token) => some ⟨args.publicKey, token, now⟩
  | .createStaticPeer spec now _ (.ok token) =>
      some ⟨trimSpace spec.publicKey, token, now⟩
  | _ => none

/-- The tokens that the operations of a run draw. -/
def drawnTokens (inputs : List Input) : List String :=
  inputs.filterMap (fun input => input.op.issue?.map (·.token))

/-- A step has given a token to the row with an id. -/
def Step.Issues (step : Step) (id : Int) (issue : Issue) : Prop :=
  (∃ reply, step.output = .ok reply) ∧
    step.input.op.issue? = some issue ∧
    ∃ holder ∈ step.after.db.tables.peers, holder.id = id ∧
      holder.publicKey = issue.publicKey

/-- A step has removed the row with an id. -/
def Step.Removes (step : Step) (id : Int) : Prop :=
  (∃ reply, step.output = .ok reply) ∧ step.input.op = .removePeer id

/-- A step gives the row with an id another token, or removes it. -/
def Step.Supersedes (step : Step) (id : Int) : Prop :=
  step.Removes id ∨ ∃ issue, step.Issues id issue

/-- The last token that a history has given to the row now under an id. -/
def Current (past : List Step) (id : Int) (issue : Issue) : Prop :=
  ∃ earlier step later, past = earlier ++ step :: later ∧
    step.Issues id issue ∧ ∀ next ∈ later, ¬ next.Supersedes id

/-- The last token after one more step. -/
theorem current_append_iff
    {past : List Step}
    {step : Step}
    {id : Int}
    {issue : Issue} :
    Current (past ++ [step]) id issue ↔
      step.Issues id issue ∨
        Current past id issue ∧ ¬ step.Supersedes id := by
  constructor
  · rintro ⟨earlier, issuing, later, shape, issues, kept⟩
    rcases List.eq_nil_or_concat later with rfl | ⟨rest, last, rfl⟩
    · have isStep : step = issuing := by
        have lasts := congrArg List.getLast? shape
        simpa using lasts
      exact Or.inl (isStep ▸ issues)
    · have parts :
          past ++ [step] = (earlier ++ issuing :: rest) ++ [last] := by
        simpa using shape
      obtain ⟨samePast, sameStep⟩ := List.append_inj' parts rfl
      obtain rfl : step = last := by simpa using sameStep
      exact Or.inr ⟨⟨earlier, issuing, rest, samePast, issues,
        fun next member => kept next (by simp [member])⟩,
        kept step (by simp)⟩
  · rintro (issues | ⟨⟨earlier, issuing, later, rfl, issues, kept⟩, spared⟩)
    · exact ⟨past, step, [], rfl, issues, fun next member =>
        (List.not_mem_nil member).elim⟩
    · refine ⟨earlier, issuing, later ++ [step], by simp, issues, ?_⟩
      intro next member
      rcases List.mem_append.mp member with old | new
      · exact kept next old
      · rw [List.mem_singleton.mp new]
        exact spared

/-- A row stores a token: its hash and the text of its instant. -/
def PeerRecord.Stores
    (config : Config)
    (row : PeerRecord)
    (issue : Issue) : Prop :=
  row.authTokenHash = some (config.hashToken issue.token) ∧
    row.authTokenIssuedAt = some (format issue.instant)

section Effects

variable
  {config : Config}
  {view : NetworkView}
  {before after : DB}
  {op : Op}
  {reply : Reply}

/-- A row keeps its token columns, or gets those of the operation's token. -/
theorem RowOrigin.stores
    {row : PeerRecord}
    (origin : RowOrigin config view before after op reply row) :
    (∃ old ∈ before.tables.peers, old.id = row.id ∧
        old.authTokenHash = row.authTokenHash ∧
        old.authTokenIssuedAt = row.authTokenIssuedAt) ∨
      ∃ issue, op.issue? = some issue ∧ issue.publicKey = row.publicKey ∧
        row.Stores config issue := by
  cases origin with
  | @refreshed args now draw result old token ip6 _ done =>
      have sameKey := (mem_of_rowWith? done.found).2
      refine Or.inr ⟨⟨args.publicKey, token, now⟩, ?_, sameKey.symm, rfl, rfl⟩
      rw [done.issued]
      rfl
  | @enrolled args now draw result key token ip ip6 done =>
      refine Or.inr ⟨⟨args.publicKey, token, now⟩, ?_, rfl, rfl, rfl⟩
      rw [done.issued]
      rfl
  | @static spec now keyDraw tokenDraw info marker token ip ip6 done =>
      refine Or.inr
        ⟨⟨trimSpace spec.publicKey, token, now⟩, ?_, rfl, rfl, rfl⟩
      rw [done.issued]
      rfl
  | kept member => exact Or.inl ⟨_, member, rfl, rfl, rfl⟩
  | readdressed member _ _ => exact Or.inl ⟨_, member, rfl, rfl, rfl⟩
  | moved member _ _ => exact Or.inl ⟨_, member, rfl, rfl, rfl⟩
  | revoked member _ => exact Or.inl ⟨_, member, rfl, rfl, rfl⟩
  | cleared member _ => exact Or.inl ⟨_, member, rfl, rfl, rfl⟩
  | candidates member _ => exact Or.inl ⟨_, member, rfl, rfl, rfl⟩
  | offer member _ => exact Or.inl ⟨_, member, rfl, rfl, rfl⟩
  | exit member _ => exact Or.inl ⟨_, member, rfl, rfl, rfl⟩
  | reported member _ => exact Or.inl ⟨_, member, rfl, rfl, rfl⟩

/-- An operation that draws a token stores it with the row of its key. -/
theorem Effect.stores
    {issue : Issue}
    (effect : Effect config view before after op reply)
    (draws : op.issue? = some issue) :
    ∃ row ∈ after.tables.peers, row.publicKey = issue.publicKey ∧
      row.Stores config issue := by
  cases effect with
  | @reEnrolled args now draw result peer token ip6 done =>
      obtain ⟨member, sameKey⟩ := mem_of_rowWith? done.found
      rw [done.issued] at draws
      cases draws
      rw [done.stored]
      refine ⟨_, List.mem_map.mpr ⟨peer, member, rfl⟩, ?_⟩
      rw [if_pos (by simp)]
      exact ⟨sameKey, rfl, rfl⟩
  | enrolledNew done =>
      rw [done.issued] at draws
      cases draws
      rw [done.stored]
      exact ⟨_, List.mem_append_right _ List.mem_cons_self, rfl, rfl, rfl⟩
  | staticCreated done =>
      rw [done.issued] at draws
      cases draws
      rw [done.stored]
      exact ⟨_, List.mem_append_right _ List.mem_cons_self, rfl, rfl, rfl⟩
  | _ => cases draws

theorem Effect.removed
    {id : Int}
    (effect : Effect config view before after (.removePeer id) reply)
    {row : PeerRecord}
    (member : row ∈ after.tables.peers) :
    row.id ≠ id := by
  cases effect with
  | peerRemoved _ stored =>
      rw [stored] at member
      obtain ⟨old, oldMember, rfl⟩ := List.mem_map.mp member
      have other := (List.mem_filter.mp oldMember).2
      simpa [PeerRecord.clearReferences] using other

end Effects

/-- The rows and the last tokens of a history belong together. -/
structure TokensCurrent
    (config : Config)
    (past : List Step)
    (state : State) : Prop where
  rows :
    ∀ row, row ∈ state.db.tables.peers →
      ∃ issue, Current past row.id issue ∧ row.Stores config issue
  issues :
    ∀ id issue, Current past id issue →
      ∃ row ∈ state.db.tables.peers, row.id = id ∧
        row.Stores config issue

section Steps

variable {config : Config} {past : List Step} {state : State} {input : Input}

theorem Step.not_supersedes_of_error
    {step : Step}
    {error : StoreError}
    (failed : step.output = .error error)
    (id : Int) :
    ¬ step.Supersedes id := by
  rintro (⟨⟨reply, shape⟩, -⟩ | ⟨issue, ⟨reply, shape⟩, -⟩)
  · rw [failed] at shape
    cases shape
  · rw [failed] at shape
    cases shape

/-- After a successful step, rows hold the last tokens. -/
theorem TokensCurrent.rows_after
    {reply : Reply}
    {after : DB}
    (current : TokensCurrent config past state)
    (shape :
      (machine config).step state input =
        (.ok reply, remember { state with db := after } input.op reply))
    (effect : Effect config state.view state.db after input.op reply)
    {row : PeerRecord}
    (member : row ∈ after.tables.peers) :
    ∃ issue, Current (past ++ [(machine config).visit state input]) row.id
        issue ∧ row.Stores config issue := by
  have succeeded :
      ∃ given, ((machine config).visit state input).output = .ok given :=
    ⟨reply, by simp only [Machine.visit, shape]⟩
  have final :
      ((machine config).visit state input).after.db = after := by
    simp only [Machine.visit, shape, remember_db]
  by_cases own :
      ∃ issue, input.op.issue? = some issue ∧
        issue.publicKey = row.publicKey
  · obtain ⟨issue, draws, ownKey⟩ := own
    obtain ⟨holder, holderMember, holderKey, stores⟩ := effect.stores draws
    obtain rfl : holder = row :=
      after.eq_of_publicKey holderMember member (holderKey.trans ownKey)
    refine ⟨issue, current_append_iff.mpr (Or.inl ⟨succeeded, draws, ?_⟩),
      stores⟩
    rw [final]
    exact ⟨holder, member, rfl, holderKey⟩
  · rcases (effect.origin member).stores with
      ⟨old, oldMember, sameID, sameHash, sameTime⟩ |
        ⟨issue, draws, ownKey, -⟩
    · obtain ⟨issue, held, stores⟩ := current.rows old oldMember
      rw [sameID] at held
      refine ⟨issue, current_append_iff.mpr (Or.inr ⟨held, ?_⟩),
        sameHash ▸ stores.1, sameTime ▸ stores.2⟩
      rintro (⟨-, removes⟩ | ⟨other, -, draws, holder, inAfter, isRow, key⟩)
      · rw [Machine.visit_input] at removes
        rw [removes] at effect
        exact effect.removed member rfl
      · rw [final] at inAfter
        obtain rfl : holder = row := after.eq_of_peerID inAfter member isRow
        exact own ⟨other, draws, key.symm⟩
    · exact (own ⟨issue, draws, ownKey⟩).elim

/-- After a successful step, the last tokens are those of rows. -/
theorem TokensCurrent.issues_after
    {reply : Reply}
    {after : DB}
    (current : TokensCurrent config past state)
    (shape :
      (machine config).step state input =
        (.ok reply, remember { state with db := after } input.op reply))
    (effect : Effect config state.view state.db after input.op reply)
    {id : Int}
    {issue : Issue}
    (held : Current (past ++ [(machine config).visit state input]) id issue) :
    ∃ row ∈ after.tables.peers, row.id = id ∧
      row.Stores config issue := by
  have succeeded :
      ∃ given, ((machine config).visit state input).output = .ok given :=
    ⟨reply, by simp only [Machine.visit, shape]⟩
  have final :
      ((machine config).visit state input).after.db = after := by
    simp only [Machine.visit, shape, remember_db]
  rcases current_append_iff.mp held with
    ⟨-, draws, holder, inAfter, isID, key⟩ | ⟨earlier, spared⟩
  · rw [final] at inAfter
    obtain ⟨row, member, rowKey, stores⟩ := effect.stores draws
    obtain rfl : holder = row :=
      after.eq_of_publicKey inAfter member (key.trans rowKey.symm)
    exact ⟨holder, inAfter, isID, stores⟩
  · obtain ⟨old, oldMember, rfl, stores⟩ := current.issues id issue earlier
    have notRemoved : input.op ≠ .removePeer old.id :=
      fun removes => spared (Or.inl ⟨succeeded, removes⟩)
    obtain ⟨row, member, continued⟩ := effect.persists oldMember notRemoved
    refine ⟨row, member, continued.id, ?_⟩
    rcases (effect.origin member).stores with
      ⟨source, sourceMember, sameID, sameHash, sameTime⟩ |
        ⟨other, draws, key, -⟩
    · obtain rfl : source = old :=
        state.db.eq_of_peerID sourceMember oldMember
          (sameID.trans continued.id)
      exact ⟨sameHash ▸ stores.1, sameTime ▸ stores.2⟩
    · refine (spared (Or.inr ⟨other, succeeded, draws, row, ?_,
        continued.id, key.symm⟩)).elim
      rw [final]
      exact member

/-- Every step keeps rows and last tokens together. -/
theorem TokensCurrent.step
    (current : TokensCurrent config past state)
    (input : Input) :
    TokensCurrent config (past ++ [(machine config).visit state input])
      ((machine config).step state input).2 := by
  rcases step_cases config state input with
    ⟨error, shape⟩ | ⟨reply, after, shape, effect⟩
  · have failed :
        ((machine config).visit state input).output = .error error := by
      simp only [Machine.visit, shape]
    have spared := Step.not_supersedes_of_error failed
    rw [shape]
    constructor
    · intro row member
      obtain ⟨issue, held, stores⟩ := current.rows row member
      exact ⟨issue, current_append_iff.mpr (Or.inr ⟨held, spared _⟩), stores⟩
    · intro id issue held
      rcases current_append_iff.mp held with issued | ⟨earlier, -⟩
      · exact (spared id (Or.inr ⟨issue, issued⟩)).elim
      · exact current.issues id issue earlier
  · constructor
    · intro row member
      rw [shape, remember_db] at member
      exact current.rows_after shape effect member
    · intro id issue held
      rw [shape, remember_db]
      exact current.issues_after shape effect held

/-- Rows and last tokens belong together in every run. -/
theorem tokensCurrent_run
    (config : Config)
    (network : NetAddress.Prefix)
    (network6 : Option NetAddress.Prefix)
    (inputs : List Input) :
    TokensCurrent config
      ((machine config).visits (.empty network network6) inputs)
      ((machine config).run (.empty network network6) inputs) := by
  refine (machine config).history_invariant ?_ ?_ inputs
  · constructor
    · intro row member
      cases member
    · rintro id issue ⟨earlier, step, later, shape, -⟩
      simp at shape
  · intro past state input current
    exact current.step input

end Steps

/-- The instant of a token, cut to whole milliseconds. -/
def Issue.truncated (issue : Issue) : Instant :=
  nanosPerMilli * milliOf issue.instant

/-- A stored token is fresh for its lifetime. -/
theorem PeerRecord.Stores.fresh_iff
    {config : Config}
    {row : PeerRecord}
    {issue : Issue}
    {now : Instant}
    (stores : row.Stores config issue)
    (clock : FourDigitYear issue.instant) :
    tokenExpired config row now = false ↔
      (0 < config.tokenTTL →
        now - issue.truncated ≤ config.tokenTTL) := by
  simp only [tokenExpired, stores.2, parse_format clock, Issue.truncated,
    Bool.and_eq_false_iff, decide_eq_false_iff_not]
  constructor
  · rintro (unlimited | inTime) limited
    · exact (unlimited limited).elim
    · exact Int.not_lt.mp inTime
  · intro inTime
    by_cases limited : 0 < config.tokenTTL
    · exact Or.inr (Int.not_lt.mpr (inTime limited))
    · exact Or.inl limited

theorem completes_authenticate
    {config : Config}
    {token : String}
    {now : Instant}
    {db : DB}
    {row : PeerRecord}
    (found : db.tables.peerWithToken? (config.hashToken token) = some row)
    (fresh : tokenExpired config row now = false) :
    Completes (authenticatePeer config token now) db
      (.ok (row.id, row.assignedIP)) db := by
  refine (completes_query _ _ _).bind ?_
  simp only [found, fresh]
  exact completes_pure _ _

section Presented

variable
  {config : Config}
  {network : NetAddress.Prefix}
  {network6 : Option NetAddress.Prefix}
  {inputs : List Input}
  {presented : String}

theorem input_mem_of_visit
    {step : Step}
    (member :
      step ∈ (machine config).visits (.empty network network6) inputs) :
    step.input ∈ inputs := by
  have inputsOf :=
    (machine config).map_input_visits (.empty network network6) inputs
  rw [← inputsOf]
  exact List.mem_map_of_mem member

variable {issue issue' : Issue} {id' : Int}

theorem Step.Issues.drawn
    {step : Step}
    {id : Int}
    (issues : step.Issues id issue)
    (member :
      step ∈ (machine config).visits (.empty network network6) inputs) :
    issue.token ∈ drawnTokens inputs := by
  refine List.mem_filterMap.mpr ⟨step.input, input_mem_of_visit member, ?_⟩
  rw [issues.2.1]
  rfl

theorem Step.Issues.id_unique
    {step : Step}
    {id : Int}
    (issues : step.Issues id issue)
    (issues' : step.Issues id' issue') :
    id = id' := by
  obtain ⟨-, draws, holder, member, rfl, key⟩ := issues
  obtain ⟨-, draws', holder', member', rfl, key'⟩ := issues'
  have sameIssue := Option.some.inj (draws.symm.trans draws')
  rw [step.after.db.eq_of_publicKey member member'
    (key.trans (sameIssue ▸ key'.symm))]

/-- Steps that issue one token are one step, at one place of the run. -/
theorem issue_place_unique
    (distinct : (drawnTokens inputs).Nodup)
    {earlier earlier' later later' : List Step}
    {step step' : Step}
    {id : Int}
    (place :
      (machine config).visits (.empty network network6) inputs =
        earlier ++ step :: later)
    (place' :
      (machine config).visits (.empty network network6) inputs =
        earlier' ++ step' :: later')
    (issues : step.Issues id issue)
    (issues' : step'.Issues id' issue')
    (sameToken : issue.token = issue'.token) :
    step = step' ∧ later = later' := by
  have tokens :
      (((machine config).visits (.empty network network6) inputs).filterMap
        (fun visit => visit.input.op.issue?.map (·.token))).Nodup := by
    have inputsOf :=
      (machine config).map_input_visits (.empty network network6) inputs
    rw [drawnTokens, ← inputsOf, List.filterMap_map] at distinct
    exact distinct
  have value : step.input.op.issue?.map (·.token) = some issue.token := by
    rw [issues.2.1]
    rfl
  have value' : step'.input.op.issue?.map (·.token) = some issue.token := by
    rw [issues'.2.1, sameToken]
    rfl
  have same : step = step' :=
    eq_of_nodup_filterMap tokens (by simp [place]) (by simp [place']) value
      value'
  subst same
  refine ⟨rfl, ?_⟩
  -- The token occurs once, so the step stands neither before nor after.
  rw [place, List.filterMap_append, List.filterMap_cons, value] at tokens
  obtain ⟨-, tail, apart⟩ := List.nodup_append.mp tokens
  have notEarlier : step ∉ earlier := fun member =>
    apart issue.token (List.mem_filterMap.mpr ⟨step, member, value⟩)
      issue.token List.mem_cons_self rfl
  have notLater : step ∉ later := fun member =>
    (List.nodup_cons.mp tail).1
      (List.mem_filterMap.mpr ⟨step, member, value⟩)
  have shapes := place.symm.trans place'
  exact ((List.append_cons_inj_of_notMem notEarlier notLater).mp shapes).2.2

/-- A row that the presented token opens holds this token as its last. -/
theorem current_of_hash
    (injective :
      Set.InjOn config.hashToken
        {token | token = presented ∨ token ∈ drawnTokens inputs})
    {row : PeerRecord}
    (member :
      row ∈ ((machine config).run (.empty network network6)
        inputs).db.tables.peers)
    (hashed : row.authTokenHash = some (config.hashToken presented)) :
    ∃ issue,
      Current ((machine config).visits (.empty network network6) inputs)
          row.id issue ∧
        issue.token = presented ∧ row.Stores config issue := by
  obtain ⟨issue, held, stores⟩ :=
    (tokensCurrent_run config network network6 inputs).rows row member
  obtain ⟨earlier, step, later, place, issues, kept⟩ := held
  have drawn : issue.token ∈ drawnTokens inputs :=
    issues.drawn (by rw [place]; simp)
  have sameHash := Option.some.inj (stores.1.symm.trans hashed)
  exact ⟨issue, ⟨earlier, step, later, place, issues, kept⟩,
    injective (Or.inr drawn) (Or.inl rfl) sameHash, stores⟩

theorem current_id_unique
    (distinct : (drawnTokens inputs).Nodup)
    {id : Int}
    (held :
      Current ((machine config).visits (.empty network network6) inputs) id
        issue)
    (held' :
      Current ((machine config).visits (.empty network network6) inputs) id'
        issue')
    (sameToken : issue.token = issue'.token) :
    id = id' := by
  obtain ⟨earlier, step, later, place, issues, -⟩ := held
  obtain ⟨earlier', step', later', place', issues', -⟩ := held'
  obtain ⟨rfl, -⟩ :=
    issue_place_unique distinct place place' issues issues' sameToken
  exact issues.id_unique issues'

end Presented

/--
Over every run from an empty database, a token authenticates a peer exactly
when it is the last one drawn for the row now stored under the peer's id, the
row is unrevoked and the token is within its lifetime; a token that was
replaced, or whose row was removed, authenticates nobody.

Tokens never repeat, their hash tells them and the presented one apart, and
the clock shows years of four digits.
-/
theorem token_authenticates_current_holder
    (config : Config)
    (network : NetAddress.Prefix)
    (network6 : Option NetAddress.Prefix)
    (inputs : List Input)
    (presented : String)
    (distinct : (drawnTokens inputs).Nodup)
    (injective :
      Set.InjOn config.hashToken
        {token | token = presented ∨ token ∈ drawnTokens inputs})
    (clock :
      ∀ input ∈ inputs, ∀ issue, input.op.issue? = some issue →
        FourDigitYear issue.instant)
    (db : DB)
    (reached :
      db = ((machine config).run (.empty network network6) inputs).db) :
    (∀ id now,
        (∃ overlayIP,
            Completes (authenticatePeer config presented now) db
              (.ok (id, overlayIP)) db) ↔
          ∃ row issue, row ∈ db.tables.peers ∧ row.id = id ∧
            row.isActive = true ∧
            Current ((machine config).visits (.empty network network6) inputs)
              id issue ∧
            issue.token = presented ∧
            (0 < config.tokenTTL →
              now - issue.truncated ≤ config.tokenTTL)) ∧
      ∀ (earlier : List Step) (step : Step) (later : List Step) (id : Int)
          (issue : Issue),
        (machine config).visits (.empty network network6) inputs =
            earlier ++ step :: later →
          step.Issues id issue → issue.token = presented →
          (∃ next ∈ later, next.Supersedes id) →
            ∀ now holder overlayIP after,
              ¬ Runs (authenticatePeer config presented now) db
                (.ok (holder, overlayIP)) after := by
  subst reached
  have inYears :
      ∀ id issue,
        Current ((machine config).visits (.empty network network6) inputs) id
            issue →
          FourDigitYear issue.instant := by
    rintro id issue ⟨earlier, step, later, place, issues, -⟩
    exact clock step.input
      (input_mem_of_visit (by rw [place]; simp)) issue issues.2.1
  refine ⟨fun id now => ⟨?_, ?_⟩, ?_⟩
  · rintro ⟨overlayIP, complete⟩
    obtain ⟨-, row, member, hashed, active, fresh, rfl, -⟩ :=
      authenticatePeer_ok complete.runs
    obtain ⟨issue, held, isPresented, stores⟩ :=
      current_of_hash injective member hashed
    exact ⟨row, issue, member, rfl, active, held, isPresented,
      (stores.fresh_iff (inYears _ _ held)).mp fresh⟩
  · rintro ⟨row, issue, member, rfl, active, held, rfl, inTime⟩
    obtain ⟨same, sameMember, sameID, stores⟩ :=
      (tokensCurrent_run config network network6 inputs).issues row.id issue
        held
    obtain rfl : same = row := DB.eq_of_peerID sameMember member sameID
    -- The query finds a row with this token, and there is no other.
    have found :
        (((machine config).run (.empty network network6)
          inputs).db.tables.peerWithToken?
            (config.hashToken issue.token)).isSome = true := by
      refine List.find?_isSome.mpr ⟨same, member, ?_⟩
      simp [stores.1, active]
    obtain ⟨other, isOther⟩ := Option.isSome_iff_exists.mp found
    have otherMember := List.mem_of_find?_eq_some isOther
    have accepted := List.find?_some isOther
    simp only [Bool.and_eq_true, beq_iff_eq] at accepted
    obtain ⟨otherIssue, otherHeld, otherToken, -⟩ :=
      current_of_hash injective otherMember accepted.1
    have sameRow : other = same :=
      DB.eq_of_peerID otherMember member
        (current_id_unique distinct otherHeld held otherToken)
    rw [sameRow] at isOther
    exact ⟨_, completes_authenticate isOther
      ((stores.fresh_iff (inYears _ _ held)).mpr inTime)⟩
  · intro earlier step later id issue place issues isPresented superseded now
      holder overlayIP after run
    obtain ⟨-, row, member, hashed, -⟩ := authenticatePeer_ok run
    obtain ⟨last, held, lastToken, -⟩ :=
      current_of_hash injective member hashed
    have sameToken : last.token = issue.token :=
      lastToken.trans isPresented.symm
    obtain ⟨earlier', step', later', place', issues', kept⟩ := held
    obtain ⟨rfl, rfl⟩ :=
      issue_place_unique distinct place place' issues issues' sameToken.symm
    obtain ⟨next, nextMember, supersedes⟩ := superseded
    exact kept next nextMember (issues.id_unique issues' ▸ supersedes)

/-- A peer enrols, and again one and a half milliseconds later. -/
def rotatedToken : List Input :=
  [.createSetupKey "" 5 0 0 (.ok "key"),
    .enroll ⟨"key", "peer", "", 0, "", ""⟩ 0 (.ok "first"),
    .enroll ⟨"key", "peer", "", 0, "", ""⟩ 1500000 (.ok "second")].map
      Op.accepted

/-- A store whose tokens live for five milliseconds. -/
def shortLived : Config :=
  { Config.sample true with tokenTTL := 5000000 }

/-- That run of the store, from an empty database. -/
def rotatedVisits : List Step :=
  (machine shortLived).visits
    (.empty defaultNetwork (some defaultNetwork6)) rotatedToken

/-- The database after that run. -/
def rotatedDB : DB :=
  ((machine shortLived).run
    (.empty defaultNetwork (some defaultNetwork6)) rotatedToken).db

/-- Both enrolments succeed and give their tokens to the first row. -/
private theorem rotated_issues :
    ∃ created first second,
      rotatedVisits = [created, first, second] ∧
        first.Issues 1 ⟨"peer", "first", 0⟩ ∧
        second.Issues 1 ⟨"peer", "second", 1500000⟩ := by
  have holds :
      ∀ step, step ∈ rotatedVisits.tail →
        step.output.isOk = true ∧
          ∃ holder ∈ step.after.db.tables.peers, holder.id = 1 ∧
            holder.publicKey = "peer" := by
    decide +kernel
  have issues :
      ∀ (step : Step) (token : String) (instant : Instant),
        step ∈ rotatedVisits.tail →
          step.input.op.issue? = some ⟨"peer", token, instant⟩ →
            step.Issues 1 ⟨"peer", token, instant⟩ := by
    intro step token instant member draws
    obtain ⟨succeeded, holder⟩ := holds step member
    refine ⟨?_, draws, holder⟩
    cases output : step.output with
    | error error =>
        rw [output] at succeeded
        cases succeeded
    | ok reply => exact ⟨reply, rfl⟩
  exact ⟨_, _, _, rfl, issues _ _ _ List.mem_cons_self rfl,
    issues _ _ _ (List.mem_cons_of_mem _ List.mem_cons_self) rfl⟩

/-- Six milliseconds in, the second token opens, and the first never does. -/
theorem token_authenticates_rotatedToken :
    (∃ overlayIP,
        Completes (authenticatePeer shortLived "second" 6000000) rotatedDB
          (.ok (1, overlayIP)) rotatedDB) ∧
      ∀ now holder overlayIP after,
        ¬ Runs (authenticatePeer shortLived "first" now) rotatedDB
          (.ok (holder, overlayIP)) after := by
  have distinct : (drawnTokens rotatedToken).Nodup := by decide
  have injective :
      ∀ tokens : Set String, Set.InjOn shortLived.hashToken tokens :=
    fun tokens token _ token' _ same => (String.append_right_inj _).mp same
  have clock :
      ∀ input, input ∈ rotatedToken →
        ∀ issue, input.op.issue? = some issue →
          FourDigitYear issue.instant := by
    intro input member issue draws
    simp only [rotatedToken, List.map_cons, List.map_nil, List.mem_cons,
      List.not_mem_nil, or_false] at member
    rcases member with rfl | rfl | rfl
    · cases draws
    · cases draws
      decide
    · cases draws
      decide
  obtain ⟨created, first, second, shape, firstIssues, secondIssues⟩ :=
    rotated_issues
  constructor
  · have row :
        ∃ row ∈ rotatedDB.tables.peers, row.id = 1 ∧
          row.isActive = true := by
      decide +kernel
    obtain ⟨row, member, isRow, active⟩ := row
    refine ((token_authenticates_current_holder shortLived defaultNetwork
      (some defaultNetwork6) rotatedToken "second" distinct (injective _)
      clock rotatedDB rfl).1 1 6000000).mpr
        ⟨row, _, member, isRow, active,
          ⟨[created, first], second, [], shape, secondIssues, ?_⟩, rfl, ?_⟩
    · intro next none
      cases none
    · decide
  · exact (token_authenticates_current_holder shortLived defaultNetwork
      (some defaultNetwork6) rotatedToken "first" distinct (injective _)
      clock rotatedDB rfl).2 [created] first [second] 1 _ shape firstIssues
        rfl ⟨second, List.mem_cons_self, Or.inr ⟨_, secondIssues⟩⟩

end WgMesh.Store
