import WgMesh.StorePeers

namespace WgMesh.Store

/-!
# Access rules

Rules are ALLOW rules between two sides, each a peer or any peer, for a
service.  Whether a rule may be stored is decided by `insertACLRule`, which
every way of adding rules goes through.
-/

open RowTables TextScan Transactions

/-- An `ACLRule` as the handlers pass it to the store. -/
structure ACLRuleSpec where
  srcPeerID : Option Int
  dstPeerID : Option Int
  name : String
  protocol : String
  portMin : Option Int
  portMax : Option Int
deriving DecidableEq

/-- An `ACLRule` as `ListACLRules` returns it, without labels and times. -/
structure ACLRule where
  id : Int
  srcPeerID : Option Int
  dstPeerID : Option Int
  name : String
  protocol : ACLProtocol
  portMin : Option Int
  portMax : Option Int
deriving DecidableEq

/-- A normalised service: a protocol and the two port columns. -/
structure ACLService where
  protocol : ACLProtocol
  portMin : Option Int
  portMax : Option Int
deriving DecidableEq

/-- The protocol a trimmed lower-case text names. -/
def parseACLProtocol (text : String) : Option ACLProtocol :=
  if text = "" then some .any
  else if text = "any" then some .any
  else if text = "tcp" then some .tcp
  else if text = "udp" then some .udp
  else if text = "icmp" then some .icmp
  else if text = "icmpv6" then some .icmpv6
  else none

/-- The port part of `normalizeACLService`, for protocols with ports. -/
def normalizeACLPorts
    (protocol : ACLProtocol)
    (portMin portMax : Option Int) : Except StoreError ACLService :=
  if portMin = none ∧ portMax = none then
    .ok { protocol, portMin := none, portMax := none }
  else
    let max := (portMax <|> portMin).getD 0
    let min := portMin.getD max
    if min < 1 ∨ 65535 < min ∨ max < 1 ∨ 65535 < max ∨ max < min then
      .error (failure "port range must be 1-65535 with min <= max")
    else
      .ok { protocol, portMin := some min, portMax := some max }

/-- `normalizeACLService`. -/
def normalizeACLService
    (protocol : String)
    (portMin portMax : Option Int) : Except StoreError ACLService :=
  match parseACLProtocol (toLower (trimSpace protocol)) with
  | none =>
      .error
        (failure "protocol must be any, tcp, udp, icmp, or icmpv6")
  | some known =>
      if known = .icmp ∨ known = .icmpv6 then
        if portMin.isSome || portMax.isSome then
          .error (failure (known.text ++ " rules cannot specify ports"))
        else
          .ok { protocol := known, portMin := none, portMax := none }
      else
        normalizeACLPorts known portMin portMax

/-- Add a rule. -/
def Tables.addRule (row : ACLRuleRow) (tables : Tables) : Tables :=
  { tables with aclRules := tables.aclRules ++ [row] }

/-- The row id the next rule gets. -/
def Tables.nextRuleID (tables : Tables) : Int :=
  nextID (·.id) tables.aclRules

/-- The row `insertACLRule` inserts. -/
def newRule (rule : ACLRuleSpec) (service : ACLService) (id : Int) :
    ACLRuleRow where
  id := id
  srcPeerID := rule.srcPeerID
  dstPeerID := rule.dstPeerID
  name := nullable rule.name
  protocol := service.protocol
  portMin := service.portMin
  portMax := service.portMax

/-- Both sides of a rule name the same peer. -/
def ACLRuleSpec.isReflexive (rule : ACLRuleSpec) : Bool :=
  rule.srcPeerID.isSome && rule.srcPeerID == rule.dstPeerID

/-- `insertACLRule`. -/
def insertACLRule (rule : ACLRuleSpec) : StoreM Int :=
  if rule.isReflexive then
    raise (failure "src and dst are the same peer")
  else
    match normalizeACLService rule.protocol rule.portMin rule.portMax with
    | .error error => raise error
    | .ok service =>
        modify "insert acl rule" fun tables =>
          (tables.nextRuleID,
            tables.addRule (newRule rule service tables.nextRuleID))

/-- `CreateACLRuleDetailed`. -/
def createACLRule (rule : ACLRuleSpec) : StoreM Int :=
  insertACLRule rule

/-- `DELETE FROM acl_rules`, when the import replaces the rules. -/
def clearRules (replace : Bool) : StoreM Unit :=
  if replace then
    modify "clear acl rules" fun tables =>
      ((), { tables with aclRules := [] })
  else
    pure ()

/-- The loop of `ImportACLRules`, counting from `index`. -/
def importRules (index : Int) : List ACLRuleSpec → StoreM Unit
  | [] => pure ()
  | rule :: rest => do
      let _ ← mapError
        (StoreError.wrap ("import acl rule " ++ decimal index))
        (insertACLRule rule)
      importRules (index + 1) rest

/-- `ImportACLRules`. -/
def importACLRules (rules : List ACLRuleSpec) (replace : Bool) :
    StoreM Nat :=
  inTransaction "begin acl import" "commit acl import" do
    clearRules replace
    importRules 1 rules
    pure rules.length

/-- Delete a rule. -/
def Tables.deleteRule (id : Int) (tables : Tables) : Tables :=
  { tables with
    aclRules := tables.aclRules.filter (fun row => row.id != id) }

/-- `DeleteACLRule`. -/
def deleteACLRule (id : Int) : StoreM Unit := do
  let context := "delete acl rule " ++ decimal id
  let rows ← modify context fun tables =>
    (tables.aclRules.countP (fun row => row.id == id), tables.deleteRule id)
  if rows = 0 then raise (notFound context) else pure ()

/-- The columns `ListACLRules` selects. -/
def ACLRuleRow.listed (row : ACLRuleRow) : ACLRule where
  id := row.id
  srcPeerID := row.srcPeerID
  dstPeerID := row.dstPeerID
  name := orEmpty row.name
  protocol := row.protocol
  portMin := row.portMin
  portMax := row.portMax

/-- `ListACLRules`. -/
def listACLRules : StoreM (List ACLRule) :=
  select "list acl rules" (fun tables => tables.aclRules.map (·.listed))

/-- A row that `insertACLRule` may insert. -/
structure ACLRuleRow.Accepted (row : ACLRuleRow) : Prop where
  irreflexive :
    ∀ id, row.srcPeerID = some id → row.dstPeerID ≠ some id
  service :
    ∃ protocol portMin portMax,
      normalizeACLService protocol portMin portMax =
        .ok ⟨row.protocol, row.portMin, row.portMax⟩

/-- What `normalizeACLService` lets through. -/
theorem ACLRuleRow.Accepted.ports
    {rule : ACLRuleRow}
    (accepted : rule.Accepted) :
    (rule.portMin = none ∧ rule.portMax = none) ∨
      (rule.protocol ≠ .icmp ∧ rule.protocol ≠ .icmpv6 ∧
        ∃ low high, rule.portMin = some low ∧ rule.portMax = some high ∧
          1 ≤ low ∧ low ≤ high ∧ high ≤ 65535) := by
  obtain ⟨protocol, portMin, portMax, normal⟩ := accepted.service
  unfold normalizeACLService at normal
  split at normal
  · cases normal
  · rename_i known _
    split at normal
    · split at normal
      · cases normal
      · injection normal with service
        injection service with _ first second
        exact Or.inl ⟨first.symm, second.symm⟩
    · rename_i ported
      unfold normalizeACLPorts at normal
      split at normal
      · injection normal with service
        injection service with _ first second
        exact Or.inl ⟨first.symm, second.symm⟩
      · dsimp only at normal
        split at normal
        · cases normal
        · injection normal with service
          injection service with isKnown first second
          refine Or.inr ⟨?_, ?_, _, _, first.symm, second.symm, ?_⟩
          · rw [← isKnown]
            exact fun same => ported (Or.inl same)
          · rw [← isKnown]
            exact fun same => ported (Or.inr same)
          · omega

/-- A row is what `insertACLRule` makes of a rule, up to its id. -/
structure ACLRuleSpec.Inserts (rule : ACLRuleSpec) (row : ACLRuleRow) :
    Prop where
  irreflexive : rule.isReflexive = false
  service :
    ∃ service,
      normalizeACLService rule.protocol rule.portMin rule.portMax =
          .ok service ∧
        row = newRule rule service row.id

/-- What is inserted is accepted. -/
theorem ACLRuleSpec.Inserts.accepted
    {rule : ACLRuleSpec}
    {row : ACLRuleRow}
    (inserts : rule.Inserts row) :
    row.Accepted := by
  obtain ⟨service, normal, shape⟩ := inserts.service
  rw [shape]
  refine ⟨?_, _, _, _, normal⟩
  intro peer source destination
  have distinct := inserts.irreflexive
  simp only [newRule] at source destination
  simp [ACLRuleSpec.isReflexive, source, destination] at distinct

section Specifications

variable {before after : DB}

/-- A successful insertion adds the row of its rule. -/
theorem insertACLRule_inserts
    {rule : ACLRuleSpec}
    {id : Int}
    (run : Runs (insertACLRule rule) before (.ok id) after) :
    ∃ row : ACLRuleRow, rule.Inserts row ∧
      after.tables = before.tables.addRule row := by
  unfold insertACLRule at run
  split at run
  · exact run.raise_ok.elim
  · rename_i distinct
    split at run
    · exact run.raise_ok.elim
    · rename_i service normal
      refine ⟨_, ⟨?_, service, normal, rfl⟩, (modify_ok run).2⟩
      simpa using distinct

theorem insertACLRule_ok
    {rule : ACLRuleSpec}
    {id : Int}
    (run : Runs (insertACLRule rule) before (.ok id) after) :
    ∃ row : ACLRuleRow, row.Accepted ∧
      after.tables = before.tables.addRule row := by
  obtain ⟨row, inserts, stored⟩ := insertACLRule_inserts run
  exact ⟨row, inserts.accepted, stored⟩

/-- The import loop adds the rows of its rules, in order. -/
private theorem importRules_inserts
    {index : Int}
    {rules : List ACLRuleSpec}
    (run : Runs (importRules index rules) before (.ok ()) after) :
    ∃ rows : List ACLRuleRow,
      List.Forall₂ ACLRuleSpec.Inserts rules rows ∧
        after.tables =
          { before.tables with
            aclRules := before.tables.aclRules ++ rows } := by
  induction rules generalizing index before with
  | nil =>
      rw [run.pure_inv.2]
      exact ⟨[], List.Forall₂.nil, by simp⟩
  | cons rule rest inductionHypothesis =>
      obtain ⟨_, middle, first, others⟩ := run.bind_ok
      obtain ⟨row, inserts, added⟩ := insertACLRule_inserts first.mapError_ok
      obtain ⟨rows, restInserts, stored⟩ := inductionHypothesis others
      refine ⟨row :: rows, List.Forall₂.cons inserts restInserts, ?_⟩
      rw [stored, added]
      simp [Tables.addRule]

/-- A successful import adds the rows of its rules to the kept ones. -/
theorem importACLRules_inserts
    {rules : List ACLRuleSpec}
    {replace : Bool}
    {count : Nat}
    (run : Runs (importACLRules rules replace) before (.ok count) after) :
    ∃ rows : List ACLRuleRow,
      List.Forall₂ ACLRuleSpec.Inserts rules rows ∧
        after.tables =
          { before.tables with
            aclRules :=
              (if replace then [] else before.tables.aclRules) ++
                rows } := by
  obtain ⟨_, cleared, clearRun, rest⟩ := (inTransaction_ok run).bind_ok
  obtain ⟨_, added, addRun, rest⟩ := rest.bind_ok
  obtain ⟨rows, inserts, stored⟩ := importRules_inserts addRun
  refine ⟨rows, inserts, ?_⟩
  rw [rest.pure_inv.2, stored]
  unfold clearRules at clearRun
  cases replace with
  | true =>
      rw [(modify_ok clearRun).2]
      rfl
  | false =>
      rw [clearRun.pure_inv.2]
      rfl

/-- A successful import adds accepted rows to the kept ones. -/
theorem importACLRules_ok
    {rules : List ACLRuleSpec}
    {replace : Bool}
    {count : Nat}
    (run : Runs (importACLRules rules replace) before (.ok count) after) :
    ∃ rows : List ACLRuleRow,
      (∀ row ∈ rows, row.Accepted) ∧
        after.tables =
          { before.tables with
            aclRules :=
              (if replace then [] else before.tables.aclRules) ++
                rows } := by
  obtain ⟨rows, inserts, stored⟩ := importACLRules_inserts run
  refine ⟨rows, ?_, stored⟩
  clear stored run
  induction inserts with
  | nil => simp
  | cons first others inductionHypothesis =>
      intro row member
      rcases List.mem_cons.mp member with isFirst | isLater
      · exact isFirst ▸ first.accepted
      · exact inductionHypothesis row isLater

theorem deleteACLRule_ok
    {id : Int}
    (run : Runs (deleteACLRule id) before (.ok ()) after) :
    after.tables = before.tables.deleteRule id := by
  obtain ⟨rows, written, writeRun, rest⟩ := run.bind_ok
  split at rest
  · exact rest.raise_ok.elim
  · rw [rest.pure_inv.2]
    exact (modify_ok writeRun).2

theorem atomic_insertACLRule
    (rule : ACLRuleSpec) :
    Atomic (insertACLRule rule) := by
  unfold insertACLRule
  split
  · exact (readOnly_raise _).atomic
  · split
    · exact (readOnly_raise _).atomic
    · exact atomic_modify _ _

theorem atomic_importACLRules
    (rules : List ACLRuleSpec)
    (replace : Bool) :
    Atomic (importACLRules rules replace) :=
  atomic_inTransaction _ _ _

/-- A deletion that fails changes nothing. -/
theorem atomic_deleteACLRule
    (id : Int) :
    Atomic (deleteACLRule id) := by
  intro before failure after run
  rcases run.bind_inv with
    ⟨_, writeRun, -⟩ | ⟨rows, written, writeRun, rest⟩
  · exact atomic_modify _ _ _ _ _ writeRun
  · obtain ⟨rowsShape, stored⟩ := modify_ok writeRun
    split at rest
    · rename_i unaffected
      rw [rest.raise_inv.2]
      apply DB.ext
      have absent :
          before.tables.aclRules.countP (fun row => row.id == id) = 0 :=
        rowsShape.symm.trans unaffected
      rw [stored]
      simp only [Tables.deleteRule]
      rw [List.filter_eq_self.mpr]
      intro row member
      have different := List.countP_eq_zero.mp absent row member
      simpa using different
    · cases rest.pure_inv.1

end Specifications

end WgMesh.Store
