import Mathlib.Data.List.Infix
import WgMesh.CommandScripts
import WgMesh.TextScan

namespace WgMesh.Firewall

open CommandScripts TextScan

/-!
# The firewall manager

A component opens the ports it binds on the firewall it finds on its host, and
closes them again.  The manager only knows the command lines of four firewalls.
What they do to the rules of a host is documented by the tools themselves, and
this much of it is taken here.  firewalld and ufw keep one entry for a port:
adding it again succeeds and changes nothing, and deleting it succeeds.  nft
adds a table or a chain that is there without any effect, puts a rule at the end
of its chain, and deletes a table with all that is in it.  iptables puts a rule
at the head of its chain and deletes the first one that is the same; nft and
iptables fail where what they name is missing.

The manager may keep a state file with the rules it has added.
-/

/-- The protocols of a rule. -/
inductive PortProto where
  | udp
  | tcp
deriving DecidableEq

/-- The text of a protocol. -/
def PortProto.text : PortProto → String
  | .udp => "udp"
  | .tcp => "tcp"

/-- `Rule`. -/
structure PortRule where
  proto : PortProto
  portMin : Int
  portMax : Int
deriving DecidableEq

/-- The backends on Linux. -/
inductive Backend where
  | firewalld
  | ufw
  | nftables
  | iptables
deriving DecidableEq

/-- `name`. -/
def Backend.name : Backend → String
  | .firewalld => "firewalld"
  | .ufw => "ufw"
  | .nftables => "nftables"
  | .iptables => "iptables"

/-- `detect`: the first firewall that is active, given the output of each
probing command that succeeds. -/
def detect (run : List String → Option String) : Option Backend :=
  let shows (command : List String) (text : String) : Bool :=
    (run command).any fun out => decide (text.toList <:+: out.toList)
  if shows ["firewall-cmd", "--state"] "running" then
    some .firewalld
  else if shows ["ufw", "status"] "Status: active" then
    some .ufw
  else if (run ["nft", "list", "tables"]).isSome then
    some .nftables
  else if (run ["iptables", "-S", "INPUT"]).isSome then
    some .iptables
  else
    none

/-- The ports of a rule. -/
def portSpan (separator : String) (r : PortRule) : String :=
  if r.portMin = r.portMax then
    decimal r.portMin
  else
    decimal r.portMin ++ separator ++ decimal r.portMax

/-- `firewalldPort`. -/
def firewalldPort (r : PortRule) : String :=
  portSpan "-" r ++ "/" ++ r.proto.text

/-- `ufwPort`. -/
def ufwPort (r : PortRule) : String :=
  portSpan ":" r ++ "/" ++ r.proto.text

/-- `nftPort`. -/
def nftPort (r : PortRule) : String :=
  portSpan "-" r

/-- `iptablesPort`. -/
def iptablesPort (r : PortRule) : String :=
  portSpan ":" r

/-- The words of a rule of iptables after its chain. -/
def iptablesSpec (tag : String) (r : PortRule) : List String :=
  ["-p", r.proto.text, "--dport", iptablesPort r, "-j", "ACCEPT", "-m",
    "comment", "--comment", tag]

/-- `iptablesCmd`. -/
def iptablesCmd (action tag : String) (r : PortRule) : List String :=
  "iptables" :: action :: "INPUT" :: iptablesSpec tag r

/-- The words of a rule of nftables after its chain. -/
def nftSpec (r : PortRule) : List String :=
  [r.proto.text, "dport", nftPort r, "accept"]

/-- `allowCmds`. -/
def Backend.allowCmds (tag : String) (r : PortRule) :
    Backend → List (List String)
  | .firewalld => [["firewall-cmd", "--add-port=" ++ firewalldPort r]]
  | .ufw => [["ufw", "allow", ufwPort r, "comment", tag]]
  | .nftables =>
      [ ["nft", "add", "table", "inet", tag],
        ["nft", "add", "chain", "inet", tag, "input", "\x7b", "type",
          "filter", "hook", "input", "priority", "-10", ";", "\x7d"],
        "nft" :: "add" :: "rule" :: "inet" :: tag :: "input" :: nftSpec r ]
  | .iptables => [iptablesCmd "-I" tag r]

/-- `removeCmds`. -/
def Backend.removeCmds (tag : String) (r : PortRule) :
    Backend → List (List String)
  | .firewalld => [["firewall-cmd", "--remove-port=" ++ firewalldPort r]]
  | .ufw => [["ufw", "--force", "delete", "allow", ufwPort r]]
  | .nftables => []
  | .iptables => [iptablesCmd "-D" tag r]

/-- `teardownCmds`. -/
def Backend.teardownCmds (tag : String) :
    Backend → Option (List (List String))
  | .nftables => some [["nft", "delete", "table", "inet", tag]]
  | _ => none

/-- A table of nftables in the family inet, with the rules of its chain
`input`. -/
structure NftTable where
  name : String
  input : Option (List (List String))
deriving DecidableEq

/-- The rules of a host: the ports of firewalld, those of ufw with their
comments, the tables of nftables and the chain INPUT of iptables. -/
structure Ruleset where
  firewalld : List String
  ufw : List (String × String)
  nft : List NftTable
  input : List (List String)
deriving DecidableEq

/-- Change the table of a name. -/
def mapTable (name : String) (change : NftTable → NftTable)
    (tables : List NftTable) : List NftTable :=
  tables.map fun table => if table.name = name then change table else table

/-- The table of a name. -/
def nftTable (name : String) (tables : List NftTable) : Option NftTable :=
  tables.find? fun table => decide (table.name = name)

/-- The rules of the chain `input` of a table, if there is one. -/
def nftInput (name : String) (tables : List NftTable) :
    Option (List (List String)) :=
  (nftTable name tables).bind NftTable.input

/-- An entry is added unless its port is there. -/
def addOnce {Entry : Type} (port : Entry → String) (entry : Entry)
    (entries : List Entry) : List Entry :=
  if entries.any (fun other => port other == port entry) then
    entries
  else
    entries ++ [entry]

/-- The entry of a port is deleted. -/
def dropPort {Entry : Type} (port : Entry → String) (name : String)
    (entries : List Entry) : List Entry :=
  entries.filter fun entry => port entry != name

/-- `firewall-cmd` with one option. -/
def firewallCmd (option : String) (rules : Ruleset) : Option Ruleset :=
  match cutPrefix "--add-port=" option with
  | some port =>
      some { rules with firewalld := addOnce id port rules.firewalld }
  | none =>
      match cutPrefix "--remove-port=" option with
      | some port =>
          some { rules with firewalld := dropPort id port rules.firewalld }
      | none => none

/-- What a command line does to the rules; nothing if it fails. -/
def runCommand (rules : Ruleset) : List String → Option Ruleset
  | ["firewall-cmd", option] => firewallCmd option rules
  | ["ufw", "allow", port, "comment", tag] =>
      some { rules with ufw := addOnce Prod.fst (port, tag) rules.ufw }
  | ["ufw", "--force", "delete", "allow", port] =>
      some { rules with ufw := dropPort Prod.fst port rules.ufw }
  | ["nft", "add", "table", "inet", tag] =>
      if (nftTable tag rules.nft).isSome then
        some rules
      else
        some { rules with nft := rules.nft ++ [⟨tag, none⟩] }
  | "nft" :: "add" :: "chain" :: "inet" :: tag :: "input" :: _ =>
      if (nftTable tag rules.nft).isSome then
        some
          { rules with
            nft :=
              mapTable tag
                (fun table =>
                  { table with input := some (table.input.getD []) })
                rules.nft }
      else
        none
  | "nft" :: "add" :: "rule" :: "inet" :: tag :: "input" :: spec =>
      if (nftInput tag rules.nft).isSome then
        some
          { rules with
            nft :=
              mapTable tag
                (fun table =>
                  { table with input := table.input.map (· ++ [spec]) })
                rules.nft }
      else
        none
  | ["nft", "delete", "table", "inet", tag] =>
      if (nftTable tag rules.nft).isSome then
        some
          { rules with
            nft := rules.nft.filter (fun table => table.name != tag) }
      else
        none
  | "iptables" :: "-I" :: "INPUT" :: spec =>
      some { rules with input := spec :: rules.input }
  | "iptables" :: "-D" :: "INPUT" :: spec =>
      if spec ∈ rules.input then
        some { rules with input := rules.input.erase spec }
      else
        none
  | _ => none

section Commands

variable (rules : Ruleset) (tag : String) (r : PortRule)

theorem cutPrefix_append
    (marker text : String) :
    cutPrefix marker (marker ++ text) = some text := by
  unfold cutPrefix
  rw [String.toList_append, if_pos, List.drop_left, String.ofList_toList]
  exact List.isPrefixOf_iff_prefix.mpr (List.prefix_append ..)

theorem runCommand_firewalld_add :
    runCommand rules ["firewall-cmd", "--add-port=" ++ firewalldPort r] =
      some
        { rules with
          firewalld := addOnce id (firewalldPort r) rules.firewalld } := by
  change firewallCmd ("--add-port=" ++ firewalldPort r) rules = _
  rw [firewallCmd, cutPrefix_append]

/-- A port is closed on firewalld. -/
theorem runCommand_firewalld_remove :
    runCommand rules
        ["firewall-cmd", "--remove-port=" ++ firewalldPort r] =
      some
        { rules with
          firewalld := dropPort id (firewalldPort r) rules.firewalld } := by
  have other :
      cutPrefix "--add-port=" ("--remove-port=" ++ firewalldPort r) =
        none := by
    unfold cutPrefix
    rw [String.toList_append, if_neg]
    simp [List.isPrefixOf]
  change firewallCmd ("--remove-port=" ++ firewalldPort r) rules = _
  rw [firewallCmd, other]
  dsimp only
  rw [cutPrefix_append]

/-- A table is found again after a change that keeps its name. -/
theorem nftTable_mapTable
    (change : NftTable → NftTable)
    (keepsName : ∀ table, (change table).name = table.name)
    (tables : List NftTable) :
    nftTable tag (mapTable tag change tables) =
      (nftTable tag tables).map change := by
  unfold nftTable mapTable
  induction tables with
  | nil => rfl
  | cons table rest inductionHypothesis =>
      rw [List.map_cons, List.find?_cons, List.find?_cons]
      by_cases isTag : table.name = tag
      · simp [isTag, keepsName]
      · simp only [isTag, if_false, decide_false]
        exact inductionHypothesis

/-- The other tables stay as they are. -/
theorem filter_mapTable
    (change : NftTable → NftTable)
    (keepsName : ∀ table, (change table).name = table.name)
    (tables : List NftTable) :
    (mapTable tag change tables).filter (fun table => table.name != tag) =
      tables.filter (fun table => table.name != tag) := by
  unfold mapTable
  induction tables with
  | nil => rfl
  | cons table rest inductionHypothesis =>
      rw [List.map_cons, List.filter_cons, List.filter_cons,
        inductionHypothesis]
      by_cases isTag : table.name = tag
      · simp [isTag, keepsName]
      · simp [isTag]

/-- The tables after a port is opened on nftables. -/
def nftOpened (tag : String) (r : PortRule) (tables : List NftTable) :
    List NftTable :=
  mapTable tag
    (fun table => { table with input := table.input.map (· ++ [nftSpec r]) })
    (mapTable tag
      (fun table => { table with input := some (table.input.getD []) })
      (if (nftTable tag tables).isSome then tables
      else tables ++ [⟨tag, none⟩]))

theorem nftTable_added
    (tables : List NftTable) :
    (nftTable tag
        (if (nftTable tag tables).isSome then tables
        else tables ++ [⟨tag, none⟩])).isSome = true := by
  split
  · assumption
  · simp [nftTable]

/-- A port is opened on nftables in three steps. -/
theorem runCommand_nftables :
    ∃ first second,
      runCommand rules ["nft", "add", "table", "inet", tag] = some first ∧
        runCommand first
            ["nft", "add", "chain", "inet", tag, "input", "\x7b", "type",
              "filter", "hook", "input", "priority", "-10", ";", "\x7d"] =
          some second ∧
        runCommand second
            ("nft" :: "add" :: "rule" :: "inet" :: tag :: "input" ::
              nftSpec r) =
          some { rules with nft := nftOpened tag r rules.nft } := by
  have added := nftTable_added tag rules.nft
  refine
    ⟨{ rules with
        nft :=
          if (nftTable tag rules.nft).isSome then rules.nft
          else rules.nft ++ [⟨tag, none⟩] },
      { rules with
        nft :=
          mapTable tag
            (fun table => { table with input := some (table.input.getD []) })
            (if (nftTable tag rules.nft).isSome then rules.nft
            else rules.nft ++ [⟨tag, none⟩]) }, ?_, ?_, ?_⟩
  · simp only [runCommand]
    split
    · rfl
    · rfl
  · simp only [runCommand, added, if_true]
  · have hasChain :
        (nftInput tag
          (mapTable tag
            (fun table => { table with input := some (table.input.getD []) })
            (if (nftTable tag rules.nft).isSome then rules.nft
            else rules.nft ++ [⟨tag, none⟩]))).isSome = true := by
      obtain ⟨table, found⟩ := Option.isSome_iff_exists.mp added
      rw [nftInput, nftTable_mapTable, found]
      · rfl
      · exact fun _ => rfl
    simp only [runCommand, hasChain, if_true]
    rfl

end Commands

/-- Rules after all command lines have been tried. -/
def applyAll (commands : List (List String)) (rules : Ruleset) : Ruleset :=
  commands.foldl
    (fun rules words => (runCommand rules words).getD rules) rules

/-- A command line, or an operation on the state file. -/
inductive HostOp where
  | run (words : List String)
  | truncateState
  | writeState (rules : List PortRule)
  | removeState
deriving DecidableEq

/-- A host: its rules, and the state file, which may be missing or unreadable. -/
structure Host where
  rules : Ruleset
  stateFile : Option (Option (List PortRule))
deriving DecidableEq

/-- What the operations do. -/
def system : Interpreter HostOp Unit Host where
  exec operation host :=
    match operation with
    | .run words =>
        (runCommand host.rules words).map
          fun rules => ((), { host with rules })
    | .truncateState => some ((), { host with stateFile := some none })
    | .writeState rules =>
        some ((), { host with stateFile := some (some rules) })
    | .removeState =>
        if host.stateFile.isSome then
          some ((), { host with stateFile := none })
        else
          none

/-- A program that works on a host. -/
abbrev HostScript := Script HostOp Unit

/-- `Manager`; without a state file nothing is tracked. -/
structure Manager where
  tag : String
  backend : Option Backend
  rules : List PortRule
  tracked : Bool
deriving DecidableEq

/-- A command line in an error text. -/
def quoted (words : List String) : String :=
  "\"" ++ String.intercalate " " words ++ "\""

/-- Run command lines up to the first that fails, which is returned. -/
def runEach : List (List String) → HostScript (Option (List String))
  | [] => pure none
  | words :: rest => do
      if ← issue (.run words) then
        runEach rest
      else
        pure (some words)

/-- Run all command lines; those that fail are returned. -/
def attemptAll : List (List String) → HostScript (List (List String))
  | [] => pure []
  | words :: rest => do
      let succeeded ← issue (.run words)
      let failed ← attemptAll rest
      pure (if succeeded then failed else words :: failed)

/-- `Open`. -/
def openManager (run : List String → Option String) (tag : String) :
    Manager where
  tag := tag
  backend := detect run
  rules := []
  tracked := false

/-- `persist`. -/
def persist (manager : Manager) : HostScript Unit := do
  if manager.tracked then
    if ← issue .truncateState then
      let _ ← issue (.writeState manager.rules)
      pure ()
    else
      pure ()
  else
    pure ()

/-- `allow`. -/
def allow (manager : Manager) (r : PortRule) :
    HostScript (Except String Unit × Manager) :=
  match manager.backend with
  | none => pure (.ok (), manager)
  | some backend => do
      match ← runEach (backend.allowCmds manager.tag r) with
      | some words =>
          pure (.error (backend.name ++ ": " ++ quoted words), manager)
      | none =>
          let added := { manager with rules := manager.rules ++ [r] }
          persist added
          pure (.ok (), added)

/-- `clearState`. -/
def clearState (manager : Manager) : HostScript Manager := do
  if manager.tracked then
    let _ ← issue .removeState
    pure { manager with rules := [] }
  else
    pure { manager with rules := [] }

/-- `Close`, with the texts of its errors. -/
def close (manager : Manager) : HostScript (List String × Manager) :=
  match manager.backend with
  | none => pure ([], manager)
  | some backend =>
      if manager.rules = [] then
        pure ([], manager)
      else do
        let failed ←
          attemptAll
            ((backend.teardownCmds manager.tag).getD
              (manager.rules.reverse.flatMap fun r =>
                backend.removeCmds manager.tag r))
        let cleared ← clearState manager
        pure (failed.map quoted, cleared)

section Runs

variable {host : Host}

theorem run_issue_run
    (words : List String)
    (host : Host) :
    system.run (issue (.run words)) host =
      ((runCommand host.rules words).isSome,
        { host with
          rules := (runCommand host.rules words).getD host.rules }) := by
  cases ran : runCommand host.rules words with
  | none => exact Interpreter.run_issue_failed (by simp [system, ran])
  | some rules =>
      exact @Interpreter.run_issue _ _ _ system _ _ _ ()
        (by simp [system, ran])

/-- All command lines without refusals. -/
theorem run_attemptAll
    (commands : List (List String))
    (host : Host) :
    (system.run (attemptAll commands) host).2 =
      { host with rules := applyAll commands host.rules } := by
  induction commands generalizing host with
  | nil => rfl
  | cons words rest inductionHypothesis =>
      rw [attemptAll, Interpreter.run_bind, run_issue_run,
        Interpreter.run_bind]
      exact inductionHypothesis _

theorem run_runEach_cons
    {words : List String}
    {rest : List (List String)}
    {rules : Ruleset}
    (ran : runCommand host.rules words = some rules) :
    system.run (runEach (words :: rest)) host =
      system.run (runEach rest) { host with rules } := by
  rw [runEach, Interpreter.run_bind, run_issue_run, ran]
  rfl

/-- Opening a port succeeds when nothing is refused. -/
theorem run_runEach_allowCmds
    (backend : Backend)
    (tag : String)
    (r : PortRule)
    (host : Host) :
    system.run (runEach (backend.allowCmds tag r)) host =
      (none,
        { host with
          rules := applyAll (backend.allowCmds tag r) host.rules }) := by
  have single :
      ∀ words rules,
        runCommand host.rules words = some rules →
        system.run (runEach [words]) host =
          (none, { host with rules := applyAll [words] host.rules }) := by
    intro words rules ran
    rw [run_runEach_cons ran]
    simp [applyAll, ran, runEach, pure, Interpreter.run]
  cases backend with
  | firewalld => exact single _ _ (runCommand_firewalld_add _ r)
  | ufw => exact single _ _ rfl
  | nftables =>
      obtain ⟨first, second, table, chain, rule⟩ :=
        runCommand_nftables host.rules tag r
      rw [Backend.allowCmds, run_runEach_cons table, run_runEach_cons chain,
        run_runEach_cons rule]
      simp [applyAll, table, chain, rule, runEach, pure, Interpreter.run]
  | iptables => exact single _ _ rfl

end Runs

/-- A call of `AllowUDP`, `AllowUDPRange` or `AllowTCP`. -/
inductive AllowCall where
  | udp (port : Int)
  | udpRange (min max : Int)
  | tcp (port : Int)
deriving DecidableEq

/-- The rule of a call. -/
def AllowCall.rule : AllowCall → PortRule
  | .udp port => ⟨.udp, port, port⟩
  | .udpRange min max => ⟨.udp, min, max⟩
  | .tcp port => ⟨.tcp, port, port⟩

end WgMesh.Firewall
