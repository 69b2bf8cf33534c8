import Mathlib.Data.List.Basic
import WgMesh.HostFirewall

namespace WgMesh.Firewall

open CommandScripts

/-!
# Closing what was opened

A session of the manager opens ports and closes them again.  The rules that
iptables had before come back in their places, because a rule is added at the
head of the chain and the copies are removed in reverse.  The other firewalls
have one entry for a port, or one table for a component, and the manager removes
it whoever added it.
-/

/-- A sequence of `AllowUDP`, `AllowUDPRange` and `AllowTCP` calls. -/
def allowAll (manager : Manager) : List AllowCall → HostScript Manager
  | [] => pure manager
  | call :: rest => do
      let (_, manager) ← allow manager call.rule
      allowAll manager rest

/-- `Open`, any calls, and `Close` with its errors. -/
def session (run : List String → Option String) (tag : String)
    (calls : List AllowCall) : HostScript (List String) := do
  let manager ← allowAll (openManager run tag) calls
  let (errors, _) ← close manager
  pure errors

/-- The same ports are allowed, and the same rules are there. -/
def SameRules (before after : Ruleset) : Prop :=
  (∀ port, port ∈ after.firewalld ↔ port ∈ before.firewalld) ∧
    (∀ entry, entry ∈ after.ufw ↔ entry ∈ before.ufw) ∧
    (∀ table, table ∈ after.nft ↔ table ∈ before.nft) ∧
    after.input = before.input

/-- Nothing that the manager is going to add is there before. -/
def Separate (tag : String) (before : Ruleset) (added : List PortRule) :
    Option Backend → Prop
  | some .firewalld => ∀ r ∈ added, firewalldPort r ∉ before.firewalld
  | some .ufw => ∀ r ∈ added, ufwPort r ∉ before.ufw.map Prod.fst
  | some .nftables => added = [] ∨ nftTable tag before.nft = none
  | some .iptables => True
  | none => True

/-- The command lines that open ports. -/
def openingCmds (backend : Backend) (tag : String) (added : List PortRule) :
    List (List String) :=
  added.flatMap fun r => backend.allowCmds tag r

/-- The command lines that `Close` runs if there is a rule. -/
def closingCmds (backend : Backend) (tag : String) (added : List PortRule) :
    List (List String) :=
  (backend.teardownCmds tag).getD
    (added.reverse.flatMap fun r => backend.removeCmds tag r)

section Entries

variable {Entry : Type} (port : Entry → String) (entry : PortRule → Entry)

/-- Deleting ports leaves the entries of the other ports. -/
theorem foldl_dropPort
    (added : List PortRule)
    (entries : List Entry) :
    added.foldl (fun entries r => dropPort port (port (entry r)) entries)
        entries =
      entries.filter fun other =>
        added.all fun r => port other != port (entry r) := by
  induction added generalizing entries with
  | nil => simp
  | cons r rest inductionHypothesis =>
      rw [List.foldl_cons, inductionHypothesis, dropPort, List.filter_filter]
      congr 1
      funext other
      rw [List.all_cons, Bool.and_comm]

/-- Entries that are going to be deleted may as well be left out. -/
theorem filter_foldl_addOnce
    {kept : Entry → Bool}
    (added : List PortRule)
    (deleted : ∀ r ∈ added, kept (entry r) = false)
    (entries : List Entry) :
    (added.foldl (fun entries r => addOnce port (entry r) entries)
        entries).filter kept =
      entries.filter kept := by
  induction added generalizing entries with
  | nil => rfl
  | cons r rest inductionHypothesis =>
      rw [List.foldl_cons,
        inductionHypothesis
          (fun later inRest => deleted later (List.mem_cons_of_mem r inRest))]
      unfold addOnce
      split
      · rfl
      · simp [deleted r List.mem_cons_self]

theorem foldl_dropPort_addOnce
    (added : List PortRule)
    (entries : List Entry) :
    added.reverse.foldl
        (fun entries r => dropPort port (port (entry r)) entries)
        (added.foldl (fun entries r => addOnce port (entry r) entries)
          entries) =
      entries.filter fun other =>
        added.all fun r => port other != port (entry r) := by
  rw [foldl_dropPort, filter_foldl_addOnce]
  · simp
  · intro r inAdded
    simpa using ⟨r, inAdded, rfl⟩

/-- The entries are the same exactly if none had a port that was opened. -/
theorem mem_filter_ports_iff
    (added : List PortRule)
    (entries : List Entry) :
    (∀ other,
        (other ∈ entries.filter fun other =>
            added.all fun r => port other != port (entry r)) ↔
          other ∈ entries) ↔
      ∀ r ∈ added, port (entry r) ∉ entries.map port := by
  simp only [List.mem_filter, and_iff_left_iff_imp, List.all_eq_true,
    bne_iff_ne, List.mem_map, not_exists, not_and]
  constructor
  · intro apart r inAdded other inEntries isPort
    exact apart other inEntries r inAdded isPort
  · intro apart other inEntries r inAdded isPort
    exact apart r inAdded other inEntries isPort

end Entries

section Effects

variable (tag : String) (added : List PortRule) (rules : Ruleset)

theorem applyAll_append
    (first second : List (List String)) :
    applyAll (first ++ second) rules =
      applyAll second (applyAll first rules) :=
  List.foldl_append

theorem applyAll_flatMap
    {Part : Type}
    {commands : PortRule → List (List String)}
    {act : Part → PortRule → Part}
    (whole : Part → Ruleset)
    (each : ∀ part r, applyAll (commands r) (whole part) = whole (act part r))
    (part : Part) :
    applyAll (added.flatMap commands) (whole part) =
      whole (added.foldl act part) := by
  induction added generalizing part with
  | nil => rfl
  | cons r rest inductionHypothesis =>
      rw [List.flatMap_cons, applyAll_append, each, inductionHypothesis,
        List.foldl_cons]

/-- A session on firewalld. -/
theorem firewalld_session :
    applyAll (closingCmds .firewalld tag added)
        (applyAll (openingCmds .firewalld tag added) rules) =
      { rules with
        firewalld :=
          rules.firewalld.filter fun other =>
            added.all fun r => other != firewalldPort r } := by
  let whole (ports : List String) : Ruleset := { rules with firewalld := ports }
  have opened :
      applyAll (openingCmds .firewalld tag added) (whole rules.firewalld) =
        whole
          (added.foldl (fun ports r => addOnce id (firewalldPort r) ports)
            rules.firewalld) := by
    refine applyAll_flatMap added whole (fun ports r => ?_) _
    rw [Backend.allowCmds, applyAll, List.foldl_cons, runCommand_firewalld_add]
    rfl
  have closed :
      ∀ ports,
        applyAll (closingCmds .firewalld tag added) (whole ports) =
          whole
            (added.reverse.foldl
              (fun ports r => dropPort id (firewalldPort r) ports) ports) := by
    refine applyAll_flatMap added.reverse whole (fun ports r => ?_)
    rw [Backend.removeCmds, applyAll, List.foldl_cons,
      runCommand_firewalld_remove]
    rfl
  exact (congrArg _ opened).trans
    ((closed _).trans
      (congrArg whole (foldl_dropPort_addOnce id firewalldPort added _)))

/-- A session on ufw. -/
theorem ufw_session :
    applyAll (closingCmds .ufw tag added)
        (applyAll (openingCmds .ufw tag added) rules) =
      { rules with
        ufw :=
          rules.ufw.filter fun other =>
            added.all fun r => other.1 != ufwPort r } := by
  let whole (entries : List (String × String)) : Ruleset :=
    { rules with ufw := entries }
  have opened :
      applyAll (openingCmds .ufw tag added) (whole rules.ufw) =
        whole
          (added.foldl
            (fun entries r => addOnce Prod.fst (ufwPort r, tag) entries)
            rules.ufw) :=
    applyAll_flatMap added whole (fun _ _ => rfl) _
  have closed :
      ∀ entries,
        applyAll (closingCmds .ufw tag added) (whole entries) =
          whole
            (added.reverse.foldl
              (fun entries r => dropPort Prod.fst (ufwPort r) entries)
              entries) :=
    applyAll_flatMap added.reverse whole (fun _ _ => rfl)
  exact (congrArg _ opened).trans
    ((closed _).trans
      (congrArg whole
        (foldl_dropPort_addOnce Prod.fst (fun r => (ufwPort r, tag)) added _)))

theorem nftTable_nftOpened
    (r : PortRule)
    (tables : List NftTable) :
    (nftTable tag (nftOpened tag r tables)).isSome = true := by
  unfold nftOpened
  rw [nftTable_mapTable, nftTable_mapTable, Option.isSome_map,
    Option.isSome_map]
  · exact nftTable_added tag tables
  · exact fun _ => rfl
  · exact fun _ => rfl

/-- The tables of others are as before after a port is opened. -/
theorem filter_nftOpened
    (r : PortRule)
    (tables : List NftTable) :
    (nftOpened tag r tables).filter (fun table => table.name != tag) =
      tables.filter (fun table => table.name != tag) := by
  unfold nftOpened
  rw [filter_mapTable, filter_mapTable]
  · split
    · rfl
    · simp
  · exact fun _ => rfl
  · exact fun _ => rfl

/-- A session on nftables that has opened a port leaves no table of its name. -/
theorem nftables_session
    (opens : added ≠ []) :
    applyAll (closingCmds .nftables tag added)
        (applyAll (openingCmds .nftables tag added) rules) =
      { rules with
        nft := rules.nft.filter fun table => table.name != tag } := by
  let whole (tables : List NftTable) : Ruleset := { rules with nft := tables }
  have opened :
      applyAll (openingCmds .nftables tag added) (whole rules.nft) =
        whole
          (added.foldl (fun tables r => nftOpened tag r tables) rules.nft) := by
    refine applyAll_flatMap added whole (fun tables r => ?_) _
    obtain ⟨first, second, table, chain, rule⟩ :=
      runCommand_nftables (whole tables) tag r
    simp only [applyAll, Backend.allowCmds, List.foldl_cons, List.foldl_nil,
      table, chain, rule, Option.getD_some]
    rfl
  have closed :
      ∀ tables,
        (nftTable tag tables).isSome = true →
        applyAll (closingCmds .nftables tag added) (whole tables) =
          whole (tables.filter fun table => table.name != tag) := by
    intro tables isThere
    have deleted :
        runCommand (whole tables) ["nft", "delete", "table", "inet", tag] =
          some (whole (tables.filter fun table => table.name != tag)) :=
      if_pos isThere
    change
      (runCommand (whole tables)
        ["nft", "delete", "table", "inet", tag]).getD _ = _
    rw [deleted, Option.getD_some]
  refine (congrArg _ opened).trans ((closed _ ?_).trans (congrArg whole ?_))
  · obtain isEmpty | ⟨earlier, r, isLast⟩ := List.eq_nil_or_concat added
    · exact absurd isEmpty opens
    · rw [isLast, List.concat_eq_append, List.foldl_concat]
      exact nftTable_nftOpened tag r _
  · generalize rules.nft = tables
    clear opened closed opens
    induction added generalizing tables with
    | nil => rfl
    | cons r rest inductionHypothesis =>
        rw [List.foldl_cons, inductionHypothesis, filter_nftOpened]

/-- A session on iptables leaves the chain as it was. -/
theorem iptables_session :
    applyAll (closingCmds .iptables tag added)
        (applyAll (openingCmds .iptables tag added) rules) =
      rules := by
  induction added using List.reverseRecOn with
  | nil => rfl
  | append_singleton earlier r inductionHypothesis =>
      have undone :
          ∀ rules,
            applyAll (Backend.iptables.removeCmds tag r)
                (applyAll (Backend.iptables.allowCmds tag r) rules) =
              rules := by
        intro rules
        have removed :
            runCommand
                { rules with input := iptablesSpec tag r :: rules.input }
                (iptablesCmd "-D" tag r) =
              some rules := by
          change
            (if iptablesSpec tag r ∈ iptablesSpec tag r :: rules.input then _
              else _) = _
          rw [if_pos List.mem_cons_self]
          simp
        exact congrArg (Option.getD · _) removed
      have split :
          applyAll (closingCmds .iptables tag (earlier ++ [r]))
              (applyAll (openingCmds .iptables tag (earlier ++ [r])) rules) =
            applyAll (closingCmds .iptables tag earlier)
              (applyAll (Backend.iptables.removeCmds tag r)
                (applyAll (Backend.iptables.allowCmds tag r)
                  (applyAll (openingCmds .iptables tag earlier) rules))) := by
        have closing :
            closingCmds .iptables tag (earlier ++ [r]) =
              Backend.iptables.removeCmds tag r ++
                closingCmds .iptables tag earlier := by
          simp [closingCmds, Backend.teardownCmds]
        have opening :
            openingCmds .iptables tag (earlier ++ [r]) =
              openingCmds .iptables tag earlier ++
                Backend.iptables.allowCmds tag r := by
          simp [openingCmds]
        rw [closing, opening, applyAll_append, applyAll_append]
      rw [split, undone, inductionHypothesis]

end Effects

section Sessions

variable {run : List String → Option String} {tag : String}

/-- Opening ports when nothing is refused. -/
theorem run_allowAll
    {manager : Manager}
    {backend : Backend}
    (found : manager.backend = some backend)
    (untracked : manager.tracked = false)
    (calls : List AllowCall)
    (host : Host) :
    system.run (allowAll manager calls) host =
      ({ manager with rules := manager.rules ++ calls.map AllowCall.rule },
        { host with
          rules :=
            applyAll
              (openingCmds backend manager.tag (calls.map AllowCall.rule))
              host.rules }) := by
  induction calls generalizing manager host with
  | nil => simp [allowAll, openingCmds, applyAll, pure, Interpreter.run]
  | cons call rest inductionHypothesis =>
      have allowed :
          system.run (allow manager call.rule) host =
            ((.ok (), { manager with rules := manager.rules ++ [call.rule] }),
              { host with
                rules :=
                  applyAll (backend.allowCmds manager.tag call.rule)
                    host.rules }) := by
        rw [allow, found]
        dsimp only
        rw [Interpreter.run_bind, run_runEach_allowCmds]
        simp [persist, untracked, pure, Interpreter.run, Interpreter.run_bind]
      rw [allowAll, Interpreter.run_bind, allowed]
      dsimp only
      rw [@inductionHypothesis
        { manager with rules := manager.rules ++ [call.rule] } found untracked]
      simp [openingCmds, applyAll_append]

theorem run_close_nil
    {manager : Manager}
    (empty : manager.rules = [])
    (host : Host) :
    (system.run (close manager) host).2 = host := by
  unfold close
  split
  · rfl
  · rw [if_pos empty]
    rfl

/-- `Close` when nothing is refused. -/
theorem run_close
    {manager : Manager}
    {backend : Backend}
    (found : manager.backend = some backend)
    (untracked : manager.tracked = false)
    (opens : manager.rules ≠ [])
    (host : Host) :
    (system.run (close manager) host).2 =
      { host with
        rules :=
          applyAll (closingCmds backend manager.tag manager.rules)
            host.rules } := by
  unfold close
  rw [found]
  dsimp only
  rw [if_neg opens, Interpreter.run_bind, Interpreter.run_bind, clearState,
    untracked]
  exact run_attemptAll _ host

/-- What a session leaves. -/
theorem run_session
    {backend : Backend}
    (found : detect run = some backend)
    (calls : List AllowCall)
    (host : Host) :
    (system.run (session run tag calls) host).2.rules =
      if calls = [] then
        host.rules
      else
        applyAll (closingCmds backend tag (calls.map AllowCall.rule))
          (applyAll (openingCmds backend tag (calls.map AllowCall.rule))
            host.rules) := by
  rw [session, Interpreter.run_bind,
    @run_allowAll (openManager run tag) backend found rfl calls host]
  dsimp only
  rw [Interpreter.run_bind]
  change (system.run (close _) _).2.rules = _
  split
  case isTrue empty =>
    subst empty
    rw [run_close_nil rfl]
    rfl
  case isFalse opens =>
    have hasRule : calls.map AllowCall.rule ≠ [] := by
      rw [Ne, List.map_eq_nil_iff]
      exact opens
    rw [run_close found rfl hasRule]
    rfl

/-- Without a firewall a session does nothing. -/
theorem run_session_none
    (missing : detect run = none)
    (calls : List AllowCall)
    (host : Host) :
    (system.run (session run tag calls) host).2.rules = host.rules := by
  have allowed :
      system.run (allowAll (openManager run tag) calls) host =
        (openManager run tag, host) := by
    induction calls with
    | nil => rfl
    | cons call rest inductionHypothesis =>
        have idle :
            allow (openManager run tag) call.rule =
              pure (.ok (), openManager run tag) := by
          unfold allow
          rw [show (openManager run tag).backend = none from missing]
        rw [allowAll, idle]
        exact inductionHypothesis
  rw [session, Interpreter.run_bind, allowed, Interpreter.run_bind]
  exact congrArg Host.rules (run_close_nil rfl host)

/-- A session undoes exactly its own changes if and only if nothing that it
adds was there before. -/
theorem session_undoes_iff_separate
    (run : List String → Option String)
    (tag : String)
    (calls : List AllowCall)
    (host : Host) :
    SameRules host.rules
        (system.run (session run tag calls) host).2.rules ↔
      Separate tag host.rules (calls.map AllowCall.rule) (detect run) := by
  have unchanged : SameRules host.rules host.rules :=
    ⟨fun _ => Iff.rfl, fun _ => Iff.rfl, fun _ => Iff.rfl, rfl⟩
  cases found : detect run with
  | none =>
      rw [run_session_none found]
      exact iff_of_true unchanged trivial
  | some backend =>
      rw [run_session found]
      by_cases opens : calls = []
      · subst opens
        rw [if_pos rfl]
        refine iff_of_true unchanged ?_
        cases backend <;> simp [Separate]
      · rw [if_neg opens]
        cases backend with
        | firewalld =>
            rw [firewalld_session, Separate]
            simp only [SameRules, iff_self, implies_true, and_true]
            simpa using
              mem_filter_ports_iff id firewalldPort
                (calls.map AllowCall.rule) host.rules.firewalld
        | ufw =>
            rw [ufw_session, Separate]
            simp only [SameRules, iff_self, implies_true, and_true, true_and]
            exact
              mem_filter_ports_iff Prod.fst (fun r => (ufwPort r, tag))
                (calls.map AllowCall.rule) host.rules.ufw
        | nftables =>
            have hasRule : calls.map AllowCall.rule ≠ [] := by
              rw [Ne, List.map_eq_nil_iff]
              exact opens
            rw [nftables_session tag _ _ hasRule, Separate,
              or_iff_right hasRule]
            simp [SameRules, nftTable]
        | iptables =>
            rw [iptables_session]
            exact iff_of_true unchanged trivial

end Sessions

/-- A host on which firewalld runs and an administrator has opened a port. -/
def sampleHost : Host where
  rules :=
    { firewalld := ["51820/udp"]
      ufw := [("51820/udp", "vpn")]
      nft := []
      input := [] }
  stateFile := none

/-- The port of the administrator is closed with the manager's own, on firewalld
and on ufw. -/
theorem administrator_port_closed :
    (system.run
        (session
          (fun command =>
            if command = ["firewall-cmd", "--state"] then some "running"
            else none)
          "wgmesh-agent" [.udp 51820])
        sampleHost).2.rules.firewalld = [] ∧
      (system.run
        (session
          (fun command =>
            if command = ["ufw", "status"] then some "Status: active"
            else none)
          "wgmesh-agent" [.udp 51820])
        sampleHost).2.rules.ufw = [] ∧
      ¬ SameRules sampleHost.rules
        (system.run
          (session
            (fun command =>
              if command = ["firewall-cmd", "--state"] then some "running"
              else none)
            "wgmesh-agent" [.udp 51820])
          sampleHost).2.rules := by
  have closed :
      (system.run
        (session
          (fun command =>
            if command = ["firewall-cmd", "--state"] then some "running"
            else none)
          "wgmesh-agent" [.udp 51820])
        sampleHost).2.rules.firewalld = [] := by
    decide +kernel
  refine ⟨closed, by decide +kernel, ?_⟩
  intro same
  have kept := (same.1 "51820/udp").mpr (by decide)
  rw [closed] at kept
  cases kept

end WgMesh.Firewall
