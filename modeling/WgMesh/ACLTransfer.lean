import WgMesh.MutualVisibility

namespace WgMesh.Store

/-!
# Exporting and importing access rules

An export is what `ListACLRules` returns; an import inserts rules one by one
in a transaction, each checked and normalised as a new rule is.  Stored rules
pass the checks and are normal already, so an export is imported as it is.
-/

open FiniteRuns RowTables TextScan Transactions

/-- `aclRuleJSON`, without labels and times. -/
structure ACLRuleJSON where
  id : Int
  srcPeerID : Option Int
  dstPeerID : Option Int
  name : String
  protocol : String
  portMin : Option Int
  portMax : Option Int
deriving DecidableEq

/-- `aclRulesJSON` for one rule, as `handleExportACL` sends it. -/
def ACLRule.toJSON (rule : ACLRule) : ACLRuleJSON where
  id := rule.id
  srcPeerID := rule.srcPeerID
  dstPeerID := rule.dstPeerID
  name := rule.name
  protocol := rule.protocol.text
  portMin := rule.portMin
  portMax := rule.portMax

/-- The rule that `handleImportACL` passes to the store. -/
def ACLRuleJSON.spec (rule : ACLRuleJSON) : ACLRuleSpec where
  srcPeerID := rule.srcPeerID
  dstPeerID := rule.dstPeerID
  name := rule.name
  protocol := rule.protocol
  portMin := rule.portMin
  portMax := rule.portMax

/-- What a rule says: its sides, its name and its service. -/
structure ACLContent where
  srcPeerID : Option Int
  dstPeerID : Option Int
  name : String
  service : ACLService
deriving DecidableEq

/-- What a listed rule says. -/
def ACLRule.content (rule : ACLRule) : ACLContent where
  srcPeerID := rule.srcPeerID
  dstPeerID := rule.dstPeerID
  name := rule.name
  service := ⟨rule.protocol, rule.portMin, rule.portMax⟩

/-! ## Stored rules are normal -/

theorem parseACLProtocol_text
    (protocol : ACLProtocol) :
    parseACLProtocol (toLower (trimSpace protocol.text)) = some protocol := by
  cases protocol <;> decide

variable {row : ACLRuleRow}

/-- An accepted service is normalised to itself. -/
theorem ACLRuleRow.Accepted.normalize
    (accepted : row.Accepted) :
    normalizeACLService row.protocol.text row.portMin row.portMax =
      .ok ⟨row.protocol, row.portMin, row.portMax⟩ := by
  unfold normalizeACLService
  rw [parseACLProtocol_text]
  dsimp only
  rcases accepted.ports with ⟨noMin, noMax⟩ | ⟨notICMP, notICMP6, ports⟩
  · rw [noMin, noMax]
    unfold normalizeACLPorts
    simp
  · obtain ⟨low, high, isLow, isHigh, positive, ordered, bounded⟩ := ports
    have ported : ¬(row.protocol = .icmp ∨ row.protocol = .icmpv6) :=
      not_or.mpr ⟨notICMP, notICMP6⟩
    have inRange :
        ¬(low < 1 ∨ 65535 < low ∨ high < 1 ∨ 65535 < high ∨ high < low) := by
      omega
    rw [if_neg ported, isLow, isHigh]
    unfold normalizeACLPorts
    rw [if_neg (by simp)]
    exact if_neg inRange

/-- The rule of an export that stands for a row. -/
def ACLRuleRow.exported (row : ACLRuleRow) : ACLRuleSpec :=
  row.listed.toJSON.spec

/-- An exported rule passes the checks again. -/
theorem ACLRuleRow.Accepted.insertable
    (accepted : row.Accepted) :
    row.exported.isReflexive = false ∧
      normalizeACLService row.exported.protocol row.exported.portMin
          row.exported.portMax =
        .ok ⟨row.protocol, row.portMin, row.portMax⟩ := by
  refine ⟨?_, accepted.normalize⟩
  change (row.srcPeerID.isSome && row.srcPeerID == row.dstPeerID) = false
  cases source : row.srcPeerID with
  | none => rfl
  | some peer =>
      have distinct := accepted.irreflexive peer source
      simpa using Ne.symm distinct

theorem orEmpty_nullable
    (text : String) :
    orEmpty (nullable text) = text := by
  unfold orEmpty nullable
  split
  · rename_i empty
    exact empty.symm
  · rfl

/-! ## The import of an export -/

/-- A rule between known peers may be added. -/
theorem Schema.addRule
    {tables : Tables}
    (legal : Schema tables)
    (new : row.id = tables.nextRuleID)
    (source : ∀ id ∈ row.srcPeerID, id ∈ tables.peerIDs)
    (destination : ∀ id ∈ row.dstPeerID, id ∈ tables.peerIDs) :
    Schema (tables.addRule row) :=
  { legal with
    ruleOrder := legal.ruleOrder.append_new new
    rulePeers := by
      intro other member
      rcases List.mem_append.mp member with known | added
      · exact legal.rulePeers other known
      · rw [List.mem_singleton.mp added]
        exact ⟨source, destination⟩ }

/-- An exported rule of known peers is inserted again. -/
theorem completes_insert_exported
    {db : DB}
    (accepted : row.Accepted)
    (source : ∀ id ∈ row.srcPeerID, id ∈ db.tables.peerIDs)
    (destination : ∀ id ∈ row.dstPeerID, id ∈ db.tables.peerIDs) :
    ∃ (added : ACLRuleRow) (after : DB),
      added.listed.content = row.listed.content ∧
        Completes (insertACLRule row.exported) db
          (.ok db.tables.nextRuleID) after ∧
        after.tables = db.tables.addRule added := by
  obtain ⟨distinct, normal⟩ := accepted.insertable
  have legal :
      Schema
        (db.tables.addRule
          (newRule row.exported ⟨row.protocol, row.portMin, row.portMax⟩
            db.tables.nextRuleID)) :=
    db.legal.addRule rfl source destination
  refine ⟨newRule row.exported ⟨row.protocol, row.portMin, row.portMax⟩
      db.tables.nextRuleID, ⟨_, legal⟩, ?_, ?_, rfl⟩
  · unfold ACLRule.content ACLRuleRow.listed
    dsimp only [newRule]
    rw [orEmpty_nullable]
    rfl
  · unfold insertACLRule
    rw [if_neg (by simp [distinct]), normal]
    exact completes_exec (write_eq legal)

/-- The rules of an export are inserted one after the other. -/
theorem completes_import_exported
    {db : DB}
    {rows : List ACLRuleRow}
    {index : Int}
    (accepted : ∀ row ∈ rows, row.Accepted)
    (peers :
      ∀ row ∈ rows,
        (∀ id ∈ row.srcPeerID, id ∈ db.tables.peerIDs) ∧
          ∀ id ∈ row.dstPeerID, id ∈ db.tables.peerIDs) :
    ∃ (added : List ACLRuleRow) (after : DB),
      added.map (·.listed.content) = rows.map (·.listed.content) ∧
        Completes (importRules index (rows.map (·.exported))) db (.ok ())
          after ∧
        after.tables =
          { db.tables with aclRules := db.tables.aclRules ++ added } := by
  induction rows generalizing db index with
  | nil => exact ⟨[], db, rfl, completes_pure _ _, by simp⟩
  | cons row rest inductionHypothesis =>
      obtain ⟨source, destination⟩ := peers row List.mem_cons_self
      obtain ⟨first, middle, sameFirst, firstRun, firstStored⟩ :=
        completes_insert_exported (accepted row List.mem_cons_self) source
          destination
      have samePeers : middle.tables.peerIDs = db.tables.peerIDs := by
        rw [firstStored]
        rfl
      obtain ⟨others, after, sameOthers, restRun, stored⟩ :=
        @inductionHypothesis middle (index + 1)
          (fun other member => accepted other (List.mem_cons_of_mem _ member))
          (by
            rw [samePeers]
            exact fun other member =>
              peers other (List.mem_cons_of_mem _ member))
      refine ⟨first :: others, after, ?_, ?_, ?_⟩
      · simp only [List.map_cons, sameFirst, sameOthers]
      · exact firstRun.mapError.bind restRun
      · rw [stored, firstStored]
        simp [Tables.addRule]

theorem Schema.clearRules
    {tables : Tables}
    (legal : Schema tables) :
    Schema { tables with aclRules := [] } :=
  { legal with
    ruleOrder := List.Pairwise.nil
    rulePeers := by simp }

/-- An export replaces the rules by rules that say the same. -/
theorem completes_replace_exported
    {db : DB}
    (accepted : ∀ row ∈ db.tables.aclRules, row.Accepted) :
    ∃ (added : List ACLRuleRow) (after : DB),
      added.map (·.listed.content) =
          db.tables.aclRules.map (·.listed.content) ∧
        Completes
          (importACLRules (db.tables.aclRules.map (·.exported)) true) db
          (.ok db.tables.aclRules.length) after ∧
        after.tables = { db.tables with aclRules := added } := by
  obtain ⟨added, after, same, run, stored⟩ :=
    @completes_import_exported
      ⟨{ db.tables with aclRules := [] }, db.legal.clearRules⟩
      db.tables.aclRules 1 accepted db.legal.rulePeers
  refine ⟨added, after, same, ?_, by simpa using stored⟩
  have cleared :
      Completes (clearRules true) db (.ok ())
        ⟨{ db.tables with aclRules := [] }, db.legal.clearRules⟩ :=
    completes_exec (write_eq db.legal.clearRules)
  refine Completes.transaction (cleared.bind (run.bind ?_))
  rw [List.length_map]
  exact completes_pure _ _

/-- Every rule of a reachable store was accepted. -/
theorem accepted_run
    (config : Config)
    {start : State}
    (initial : ∀ row ∈ start.db.tables.aclRules, row.Accepted)
    (inputs : List Input) :
    ∀ row ∈ ((machine config).run start inputs).db.tables.aclRules,
      row.Accepted := by
  refine @Machine.run_invariant _ _ _ (machine config)
    (fun state => ∀ row ∈ state.db.tables.aclRules, row.Accepted) ?_ _
    initial inputs
  intro state input accepted
  rcases step_cases config state input with
    ⟨error, same⟩ | ⟨reply, after, shape, effect⟩
  · rw [same]
    exact accepted
  · rw [shape, remember_db]
    intro row member
    exact (effect.rule_origin member).elim (accepted row) id

/-- The export of every reachable store replaces its rules by rules that say
the same, in the same order; an import that fails leaves the store alone, and
one that succeeds without replacing appends the normalised rules. -/
theorem acl_transfer
    (config : Config)
    (network : NetAddress.Prefix)
    (network6 : Option NetAddress.Prefix)
    (inputs : List Input) :
    (∃ (exported listed : List ACLRule) (after : DB),
      Completes listACLRules
          ((machine config).run (State.empty network network6) inputs).db
          (.ok exported)
          ((machine config).run (State.empty network network6) inputs).db ∧
        Completes
          (importACLRules
            ((exported.map ACLRule.toJSON).map ACLRuleJSON.spec) true)
          ((machine config).run (State.empty network network6) inputs).db
          (.ok exported.length) after ∧
        Completes listACLRules after (.ok listed) after ∧
        listed.map ACLRule.content = exported.map ACLRule.content ∧
        after.tables =
          { ((machine config).run
                (State.empty network network6) inputs).db.tables with
            aclRules := after.tables.aclRules }) ∧
      ∀ (rules : List ACLRuleSpec) (before after : DB),
        (∀ (replace : Bool) (error : StoreError),
          Runs (importACLRules rules replace) before (.error error) after →
            after = before) ∧
        ∀ count : Nat,
          Runs (importACLRules rules false) before (.ok count) after →
            ∃ rows,
              List.Forall₂ ACLRuleSpec.Inserts rules rows ∧
                after.tables =
                  { before.tables with
                    aclRules := before.tables.aclRules ++ rows } := by
  have accepted :=
    @accepted_run config (State.empty network network6)
      (fun row member => absurd member List.not_mem_nil) inputs
  obtain ⟨added, after, same, run, stored⟩ :=
    completes_replace_exported accepted
  constructor
  · refine ⟨_, _, after, completes_query _ _ _, ?_, completes_query _ _ _,
      ?_, ?_⟩
    · rw [List.map_map, List.map_map, List.length_map]
      exact run
    · rw [List.map_map, List.map_map, stored]
      exact same
    · rw [stored]
  · intro rules before after
    refine ⟨fun replace error failed => ?_, fun count done => ?_⟩
    · exact atomic_importACLRules rules replace _ _ _ failed
    · simpa using importACLRules_inserts done

/-- A rule for web servers, with a port given once. -/
def webRule : ACLRuleSpec :=
  ⟨none, none, "web", " TCP", some 443, none⟩

/-- A rule of a peer that does not exist. -/
def strayRule : ACLRuleSpec :=
  ⟨some 9, none, "", "any", none, none⟩

/-- An empty store takes the normalised rule, and is left alone by an import
whose second rule fails. -/
theorem acl_transfer_webRule :
    (∃ after row,
      Runs (importACLRules [webRule] false) DB.empty (.ok 1) after ∧
        webRule.Inserts row ∧ after.tables.aclRules = [row]) ∧
      ∃ error,
        Runs (importACLRules [webRule, strayRule] true) DB.empty
          (.error error) DB.empty := by
  obtain ⟨-, every⟩ :=
    acl_transfer (Config.sample false) defaultNetwork none []
  have imported :=
    Runs.of_session (importACLRules [webRule] false) ⟨DB.empty, []⟩
  have refused :=
    Runs.of_session (importACLRules [webRule, strayRule] true)
      ⟨DB.empty, []⟩
  constructor
  · have count :
        (importACLRules [webRule] false ⟨DB.empty, []⟩).1 = .ok 1 := by
      decide +kernel
    rw [count] at imported
    obtain ⟨rows, inserts, stored⟩ := (every _ _ _).2 1 imported
    obtain ⟨row, others, first, rest, rfl⟩ :=
      List.forall₂_cons_left_iff.mp inserts
    rw [List.forall₂_nil_left_iff.mp rest] at stored
    exact ⟨_, row, imported, first, by rw [stored]; rfl⟩
  · cases outcome :
      (importACLRules [webRule, strayRule] true ⟨DB.empty, []⟩).1 with
    | ok count =>
        have failed :
            (importACLRules [webRule, strayRule] true
              ⟨DB.empty, []⟩).1.isOk = false := by
          decide +kernel
        rw [outcome] at failed
        cases failed
    | error error =>
        rw [outcome] at refused
        have same := (every _ _ _).1 true error refused
        rw [same] at refused
        exact ⟨error, refused⟩

end WgMesh.Store
