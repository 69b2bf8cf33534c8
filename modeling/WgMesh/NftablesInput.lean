import Mathlib.Data.List.Sort
import WgMesh.HostFirewall

namespace WgMesh.Firewall

/-!
# Open ports on nftables hosts

With nftables the manager puts its rules into a base chain of its own at the
input hook.  Every base chain of a hook sees the packet, in the order of their
priorities; an accept ends only the chain it stands in, while a drop is final.
An accept in the manager's chain therefore opens a port only if no other chain
drops the packet and no earlier rule of its own chain does.

The ruleset of the host is arbitrary: a rule is any function of the packet.  Of
nftables itself its documented order of base chains is taken, that their
verdicts are final as said, and that adding a table or a chain again changes
nothing unless the chain differs in its hook or priority.
-/

open CommandScripts TextScan

/-- A packet for the host: what the manager's rules look at, whether it came
with IPv6, and anything else that rules may look at. -/
structure InputPacket (Other : Type) where
  proto : PortProto
  port : Nat
  isIPv6 : Bool
  other : Other

/-- What a rule does with a packet; jumps are part of the function. -/
inductive RuleEffect where
  | next
  | accept
  | drop
  | ret
deriving DecidableEq

/-- The verdict of a chain, or its policy. -/
inductive ChainVerdict where
  | accept
  | drop
deriving DecidableEq

/-- The hooks that matter here. -/
inductive ChainHook where
  | input
  | elsewhere
deriving DecidableEq

/-- What makes a chain a base chain. -/
structure ChainBase where
  hook : ChainHook
  priority : Int
  policy : ChainVerdict
deriving DecidableEq

/-- The families of tables; only the first three see packets at this hook. -/
inductive TableFamily where
  | inet
  | ip
  | ip6
  | others
deriving DecidableEq

section Rulesets

variable {Other : Type}

/-- A chain, which may be a base chain. -/
structure FilterChain (Other : Type) where
  name : String
  base : Option ChainBase
  rules : List (InputPacket Other → RuleEffect)

/-- A table of any family. -/
structure FilterTable (Other : Type) where
  family : TableFamily
  name : String
  chains : List (FilterChain Other)

/-- The first effect of the rules that is not to go on. -/
def firstEffect (packet : InputPacket Other) :
    List (InputPacket Other → RuleEffect) → RuleEffect
  | [] => .next
  | rule :: rest =>
      if rule packet = .next then firstEffect packet rest else rule packet

/-- The verdict of a base chain. -/
def FilterChain.verdict (chain : FilterChain Other) (base : ChainBase)
    (packet : InputPacket Other) : ChainVerdict :=
  match firstEffect packet chain.rules with
  | .accept => .accept
  | .drop => .drop
  | .ret => base.policy
  | .next => base.policy

/-- The family sees the packet. -/
def TableFamily.sees (packet : InputPacket Other) : TableFamily → Bool
  | .inet => true
  | .ip => !packet.isIPv6
  | .ip6 => packet.isIPv6
  | .others => false

/-- The base chains of a table at the input hook. -/
def FilterTable.inputChains (table : FilterTable Other) :
    List (FilterChain Other × ChainBase) :=
  table.chains.filterMap fun chain =>
    (chain.base.filter fun base => base.hook = .input).map (chain, ·)

/-- The base chains that see a packet, in the order of their priorities. -/
def inputChains (tables : List (FilterTable Other))
    (packet : InputPacket Other) : List (FilterChain Other × ChainBase) :=
  ((tables.filter (·.family.sees packet)).flatMap
    FilterTable.inputChains).insertionSort
      (fun first second => first.2.priority ≤ second.2.priority)

/-- The chains one after the other: an accept goes on to the next. -/
def traverse (packet : InputPacket Other) :
    List (FilterChain Other × ChainBase) → ChainVerdict
  | [] => .accept
  | (chain, base) :: rest =>
      match chain.verdict base packet with
      | .accept => traverse packet rest
      | .drop => .drop

/-- What becomes of a packet at the input hook. -/
def inputVerdict (tables : List (FilterTable Other))
    (packet : InputPacket Other) : ChainVerdict :=
  traverse packet (inputChains tables packet)

/-- The table of a name in the family inet. -/
def FilterTable.isNamed (name : String) (table : FilterTable Other) : Bool :=
  decide (table.family = .inet) && decide (table.name = name)

/-- `nft add table inet`. -/
def addTable (name : String) (tables : List (FilterTable Other)) :
    List (FilterTable Other) :=
  if tables.any (FilterTable.isNamed name) then tables
  else tables ++ [⟨.inet, name, []⟩]

/-- Change the chains of a table. -/
def mapChains (name : String)
    (change : List (FilterChain Other) → List (FilterChain Other))
    (tables : List (FilterTable Other)) : List (FilterTable Other) :=
  tables.map fun table =>
    if table.isNamed name then { table with chains := change table.chains }
    else table

/-- `nft add chain inet` of a base chain at the input hook: refused if a chain
of the name is there and differs in hook or priority. -/
def addInputChain (name chain : String) (priority : Int)
    (tables : List (FilterTable Other)) : Option (List (FilterTable Other)) :=
  if tables.any (FilterTable.isNamed name) &&
      tables.all (fun table =>
        !table.isNamed name || table.chains.all (fun other =>
          decide (other.name ≠ chain) ||
            other.base.any (fun base =>
              decide (base.hook = .input) &&
                decide (base.priority = priority)))) then
    some
      (mapChains name
        (fun chains =>
          if chains.any (fun other => decide (other.name = chain)) then chains
          else chains ++ [⟨chain, some ⟨.input, priority, .accept⟩, []⟩])
        tables)
  else
    none

/-- `nft add rule inet`. -/
def addRule (name chain : String) (rule : InputPacket Other → RuleEffect)
    (tables : List (FilterTable Other)) : Option (List (FilterTable Other)) :=
  if tables.any (fun table => table.isNamed name &&
      table.chains.any (fun other => decide (other.name = chain))) then
    some
      (mapChains name
        (fun chains => chains.map fun other =>
          if other.name = chain then
            { other with rules := other.rules ++ [rule] }
          else
            other)
        tables)
  else
    none

/-- A port number. -/
def readPort (text : List Char) : Option Nat :=
  (readNumber? 10 text).filter fun port => decide (port ≤ 65535)

/-- A port or a range of ports. -/
def nftPorts (text : String) : Option (Nat × Nat) :=
  match text.toList.span (· != '-') with
  | (port, []) => (readPort port).map fun port => (port, port)
  | (low, _ :: high) =>
      (readPort low).bind fun low =>
        ((readPort high).filter fun high => decide (low ≤ high)).map (low, ·)

/-- The protocol of a word. -/
def nftProto (word : String) : Option PortProto :=
  if word = "udp" then some .udp
  else if word = "tcp" then some .tcp
  else none

/-- A rule that accepts a range of ports. -/
def acceptPorts (proto : PortProto) (low high : Nat)
    (packet : InputPacket Other) : RuleEffect :=
  if packet.proto = proto ∧ low ≤ packet.port ∧ packet.port ≤ high then
    .accept
  else
    .next

/-- What a command line does to the tables; nothing if it fails. -/
def nftCommand (tables : List (FilterTable Other)) :
    List String → Option (List (FilterTable Other))
  | ["nft", "add", "table", "inet", name] => some (addTable name tables)
  | ["nft", "add", "chain", "inet", name, chain, "\x7b", "type", "filter",
      "hook", "input", "priority", "-10", ";", "\x7d"] =>
      addInputChain name chain (-10) tables
  | ["nft", "add", "rule", "inet", name, chain, proto, "dport", ports,
      "accept"] =>
      (nftProto proto).bind fun proto =>
        (nftPorts ports).bind fun range =>
          addRule name chain (acceptPorts proto range.1 range.2) tables
  | _ => none

/-- A host with nftables, and the manager's state file. -/
structure NftHost (Other : Type) where
  tables : List (FilterTable Other)
  stateFile : Option (Option (List PortRule))

/-- What the manager's operations do on such a host. -/
def nftSystem : Interpreter HostOp Unit (NftHost Other) where
  exec operation host :=
    match operation with
    | .run words =>
        (nftCommand host.tables words).map
          fun tables => ((), { host with tables })
    | .truncateState => some ((), { host with stateFile := some none })
    | .writeState rules =>
        some ((), { host with stateFile := some (some rules) })
    | .removeState =>
        if host.stateFile.isSome then
          some ((), { host with stateFile := none })
        else
          none

end Rulesets

section Ports

variable {r : PortRule} {low high : Nat}

/-- A printed number that is read as a port is that port. -/
theorem readPort_decimal
    {number : Int}
    {port : Nat}
    (read : readPort (decimal number).toList = some port) :
    (port : Int) = number := by
  unfold readPort at read
  rw [Option.filter_eq_some_iff] at read
  rw [decimal, String.toList_ofList] at read
  split at read
  · cases read.1
  · rw [readNumber?_toDigits (by decide) (by decide)] at read
    cases read.1
    omega

/-- The characters of a printed number that is not negative. -/
theorem span_decimal
    {number : Int}
    (unsigned : 0 ≤ number)
    (rest : List Char) :
    (decimal number).toList.span (· != '-') = ((decimal number).toList, []) ∧
      ((decimal number).toList ++ '-' :: rest).span (· != '-') =
        ((decimal number).toList, '-' :: rest) := by
  have absent : '-' ∉ (decimal number).toList := by
    rw [decimal, if_neg (by omega), String.toList_ofList]
    exact not_mem_toDigits (by decide) (by decide) (by decide)
  refine ⟨?_, span_ne_append absent rest⟩
  rw [List.span_eq_takeWhile_dropWhile, List.takeWhile_eq_self_iff.mpr,
    List.dropWhile_eq_nil_iff.mpr]
  · intro char member
    simpa using ne_of_mem_of_not_mem member absent
  · intro char member
    simpa using ne_of_mem_of_not_mem member absent

/-- The printed ports of a rule are read as its ports. -/
theorem nftPorts_nftPort
    (parsed : nftPorts (nftPort r) = some (low, high)) :
    (low : Int) = r.portMin ∧ (high : Int) = r.portMax := by
  unfold nftPorts nftPort portSpan at parsed
  by_cases negative : r.portMin < 0
  · -- the text starts with the separator
    have shape :
        ∃ rest,
          (if r.portMin = r.portMax then decimal r.portMin
            else decimal r.portMin ++ "-" ++ decimal r.portMax).toList =
            '-' :: rest := by
      rw [decimal, if_pos negative]
      split <;> simp
    obtain ⟨rest, shape⟩ := shape
    rw [shape] at parsed
    simp [List.span, List.span.loop, readPort, readNumber?] at parsed
  · by_cases single : r.portMin = r.portMax
    · rw [if_pos single, (span_decimal (by omega) []).1] at parsed
      dsimp only at parsed
      obtain ⟨port, read, shape⟩ := Option.map_eq_some_iff.mp parsed
      cases shape
      have same := readPort_decimal read
      exact ⟨same, same.trans single⟩
    · rw [if_neg single, String.toList_append, String.toList_append,
        List.append_assoc,
        show "-".toList ++ (decimal r.portMax).toList =
          '-' :: (decimal r.portMax).toList from rfl,
        (span_decimal (by omega) _).2] at parsed
      dsimp only at parsed
      obtain ⟨first, readFirst, rest⟩ := Option.bind_eq_some_iff.mp parsed
      obtain ⟨second, kept, shape⟩ := Option.map_eq_some_iff.mp rest
      cases shape
      rw [Option.filter_eq_some_iff] at kept
      exact ⟨readPort_decimal readFirst, readPort_decimal kept.1⟩

end Ports

section Opening

variable
  {Other : Type}
  {tag : String}
  {packet : InputPacket Other}
  {tables changed : List (FilterTable Other)}

/-- The chains drop nothing exactly if each accepts. -/
theorem traverse_eq_accept
    (chains : List (FilterChain Other × ChainBase)) :
    traverse packet chains = .accept ↔
      ∀ entry ∈ chains, entry.1.verdict entry.2 packet = .accept := by
  induction chains with
  | nil => simp [traverse]
  | cons entry rest inductionHypothesis =>
      rw [traverse, List.forall_mem_cons, ← inductionHypothesis]
      cases entry.1.verdict entry.2 packet with
      | accept => simp
      | drop => simp

/-- A statement about every base chain that sees a packet. -/
def EveryInput (tables : List (FilterTable Other))
    (packet : InputPacket Other)
    (holds : FilterTable Other → FilterChain Other → ChainBase → Prop) :
    Prop :=
  ∀ table ∈ tables, table.family.sees packet = true →
    ∀ chain, chain ∈ table.chains →
      ∀ base, chain.base = some base → base.hook = .input →
        holds table chain base

/-- A packet is accepted exactly if every base chain that sees it accepts. -/
theorem inputVerdict_eq_accept :
    inputVerdict tables packet = .accept ↔
      EveryInput tables packet
        (fun _ chain base => chain.verdict base packet = .accept) := by
  rw [inputVerdict, traverse_eq_accept]
  simp only [inputChains, List.mem_insertionSort, List.mem_flatMap,
    List.mem_filter, FilterTable.inputChains, List.mem_filterMap,
    Option.map_eq_some_iff, Option.filter_eq_some_iff, decide_eq_true_eq]
  constructor
  · intro all table member sees chain chainMember base isBase hooked
    exact all (chain, base)
      ⟨table, ⟨member, sees⟩, chain, chainMember, base, ⟨isBase, hooked⟩, rfl⟩
  · rintro all _
      ⟨table, ⟨member, sees⟩, chain, chainMember, base, ⟨isBase, hooked⟩, rfl⟩
    exact all table member sees chain chainMember base isBase hooked

/-- A rule of the chain drops the packet, or leaves it to a policy that
does. -/
def Blocks (chain : FilterChain Other) (base : ChainBase)
    (packet : InputPacket Other) : Prop :=
  firstEffect packet chain.rules = .drop ∨
    firstEffect packet chain.rules = .ret ∧ base.policy = .drop

/-- No rule of the manager's chain blocks the packet, and every other chain
accepts it. -/
def Clear (tag : String) (tables : List (FilterTable Other))
    (packet : InputPacket Other) : Prop :=
  EveryInput tables packet fun table chain base =>
    if table.isNamed tag = true ∧ chain.name = "input" then
      ¬ Blocks chain base packet
    else
      chain.verdict base packet = .accept

/-- The effect of rules with one more. -/
theorem firstEffect_append
    (rules : List (InputPacket Other → RuleEffect))
    (rule : InputPacket Other → RuleEffect) :
    firstEffect packet (rules ++ [rule]) =
      if firstEffect packet rules = .next then rule packet
      else firstEffect packet rules := by
  induction rules with
  | nil =>
      simp only [List.nil_append, firstEffect, if_true]
      cases rule packet <;> rfl
  | cons first rest inductionHypothesis =>
      by_cases goesOn : first packet = .next
      · have skipped :
            ∀ later, firstEffect packet (first :: later) =
              firstEffect packet later :=
          fun later => if_pos goesOn
        rw [List.cons_append, skipped, skipped, inductionHypothesis]
      · have decided :
            ∀ later, firstEffect packet (first :: later) = first packet :=
          fun later => if_neg goesOn
        rw [List.cons_append, decided, decided, if_neg goesOn]

/-- A chain that ends with an accept of the packet. -/
theorem verdict_append
    {chain : FilterChain Other}
    {base : ChainBase}
    {rule : InputPacket Other → RuleEffect}
    (accepts : rule packet = .accept) :
    FilterChain.verdict { chain with rules := chain.rules ++ [rule] } base
        packet = .accept ↔
      ¬ Blocks chain base packet := by
  unfold FilterChain.verdict Blocks
  dsimp only
  rw [firstEffect_append, accepts]
  cases firstEffect packet chain.rules <;> cases base.policy <;> simp

/-- A new table has no chains. -/
theorem clear_addTable :
    Clear tag (addTable tag tables) packet ↔ Clear tag tables packet := by
  unfold addTable
  split
  · rfl
  · unfold Clear EveryInput
    simp only [List.mem_append, List.mem_singleton]
    constructor
    · intro all table member
      exact all table (Or.inl member)
    · rintro all table (member | rfl)
      · exact all table member
      · intro _ chain member
        cases member

theorem sees_of_isNamed
    {table : FilterTable Other}
    (named : table.isNamed tag = true) :
    table.family.sees packet = true := by
  simp only [FilterTable.isNamed, Bool.and_eq_true,
    decide_eq_true_eq] at named
  rw [named.1]
  rfl

/-- A statement about the base chains after the chains of a table changed. -/
theorem everyInput_mapChains
    {holds : FilterTable Other → FilterChain Other → ChainBase → Prop}
    (change : List (FilterChain Other) → List (FilterChain Other)) :
    EveryInput (mapChains tag change tables) packet holds ↔
      EveryInput tables packet (fun table chain base =>
        table.isNamed tag = false → holds table chain base) ∧
      ∀ table ∈ tables, table.isNamed tag = true →
        ∀ chain, chain ∈ change table.chains →
          ∀ base, chain.base = some base → base.hook = .input →
            holds { table with chains := change table.chains } chain base := by
  unfold EveryInput mapChains
  simp only [List.mem_map]
  constructor
  · intro all
    constructor
    · intro table member sees chain chainMember base isBase hooked other
      exact all table ⟨table, member, by rw [other]; rfl⟩ sees chain
        chainMember base isBase hooked
    · intro table member named chain chainMember base isBase hooked
      exact all { table with chains := change table.chains }
        ⟨table, member, by rw [if_pos named]⟩
        (@sees_of_isNamed _ _ packet _ named) chain chainMember base isBase
        hooked
  · rintro ⟨others, own⟩ _ ⟨table, member, rfl⟩
    by_cases named : table.isNamed tag = true
    · rw [if_pos named]
      intro _ chain chainMember base isBase hooked
      exact own table member named chain chainMember base isBase hooked
    · rw [if_neg named]
      intro sees chain chainMember base isBase hooked
      exact others table member sees chain chainMember base isBase hooked
        (Bool.eq_false_iff.mpr named)

/-- A new chain has no rules and the policy to accept. -/
theorem clear_addInputChain
    {priority : Int}
    (added : addInputChain tag "input" priority tables = some changed) :
    Clear tag changed packet ↔ Clear tag tables packet := by
  unfold addInputChain at added
  split at added
  · cases added
    unfold Clear
    rw [everyInput_mapChains]
    constructor
    · rintro ⟨others, own⟩ table member sees chain chainMember base isBase
        hooked
      by_cases named : table.isNamed tag = true
      · refine own table member named chain ?_ base isBase hooked
        split
        · exact chainMember
        · exact List.mem_append_left _ chainMember
      · exact others table member sees chain chainMember base isBase hooked
          (Bool.eq_false_iff.mpr named)
    · intro clear
      refine ⟨fun table member sees chain chainMember base isBase hooked _ =>
        clear table member sees chain chainMember base isBase hooked, ?_⟩
      intro table member named chain chainMember base isBase hooked
      have sees := @sees_of_isNamed _ _ packet _ named
      split at chainMember
      · exact clear table member sees chain chainMember base isBase hooked
      · rcases List.mem_append.mp chainMember with old | new
        · exact clear table member sees chain old base isBase hooked
        · cases List.mem_singleton.mp new
          rw [if_pos ⟨named, rfl⟩]
          rintro (dropped | ⟨returned, -⟩)
          · cases dropped
          · cases returned
  · cases added

/-- With a rule that accepts the packet, it passes exactly if the way was
clear before. -/
theorem accept_addRule_iff
    {rule : InputPacket Other → RuleEffect}
    (added : addRule tag "input" rule tables = some changed)
    (accepts : rule packet = .accept) :
    inputVerdict changed packet = .accept ↔ Clear tag tables packet := by
  rw [inputVerdict_eq_accept]
  unfold addRule at added
  split at added
  · cases added
    unfold Clear
    rw [everyInput_mapChains]
    constructor
    · rintro ⟨others, own⟩ table member sees chain chainMember base isBase
        hooked
      by_cases named : table.isNamed tag = true
      · have accepted := own table member named _
          (List.mem_map_of_mem chainMember)
        by_cases isInput : chain.name = "input"
        · rw [if_pos isInput] at accepted
          rw [if_pos ⟨named, isInput⟩]
          exact (verdict_append accepts).mp (accepted base isBase hooked)
        · rw [if_neg isInput] at accepted
          rw [if_neg fun both => isInput both.2]
          exact accepted base isBase hooked
      · rw [if_neg fun both => named both.1]
        exact others table member sees chain chainMember base isBase hooked
          (Bool.eq_false_iff.mpr named)
    · intro clear
      constructor
      · intro table member sees chain chainMember base isBase hooked other
        have accepted :=
          clear table member sees chain chainMember base isBase hooked
        dsimp only at accepted
        rw [if_neg fun both => Bool.false_ne_true (other.symm.trans both.1)]
          at accepted
        exact accepted
      · intro table member named chain chainMember base isBase hooked
        have sees := @sees_of_isNamed _ _ packet _ named
        obtain ⟨old, oldMember, rfl⟩ := List.mem_map.mp chainMember
        by_cases isInput : old.name = "input"
        · rw [if_pos isInput] at isBase ⊢
          have unblocked :=
            clear table member sees old oldMember base isBase hooked
          dsimp only at unblocked
          rw [if_pos ⟨named, isInput⟩] at unblocked
          exact (verdict_append accepts).mpr unblocked
        · rw [if_neg isInput] at isBase ⊢
          have accepted :=
            clear table member sees old oldMember base isBase hooked
          dsimp only at accepted
          rw [if_neg fun both => isInput both.2] at accepted
          exact accepted
  · cases added

end Opening

section Allowing

variable {Other : Type} {host : NftHost Other}

/-- Command lines without refusals: all are run, or one has failed. -/
theorem run_runEach_nft
    {commands : List (List String)}
    {after : NftHost Other}
    (ran : nftSystem.run (runEach commands) host = (none, after)) :
    commands.foldlM nftCommand host.tables = some after.tables := by
  induction commands generalizing host with
  | nil =>
      cases ran
      rfl
  | cons words rest inductionHypothesis =>
      rw [runEach, Interpreter.run_bind] at ran
      cases done : nftCommand host.tables words with
      | none =>
          rw [Interpreter.run_issue_failed (by simp [nftSystem, done])] at ran
          cases ran
      | some tables =>
          rw [@Interpreter.run_issue _ _ _ nftSystem _ _ _ ()
            (by simp [nftSystem, done]; rfl)] at ran
          have later := inductionHypothesis ran
          rw [List.foldlM_cons, done]
          exact later

theorem run_persist_nft
    (manager : Manager) :
    (nftSystem.run (persist manager) host).2.tables = host.tables := by
  unfold persist
  split <;> rfl

/-- The three command lines that open a port. -/
theorem foldlM_allowCmds
    {tag : String}
    {r : PortRule}
    {tables changed : List (FilterTable Other)}
    (ran :
      (Backend.nftables.allowCmds tag r).foldlM nftCommand tables =
        some changed) :
    ∃ middle low high,
      addInputChain tag "input" (-10) (addTable tag tables) = some middle ∧
        nftPorts (nftPort r) = some (low, high) ∧
        addRule tag "input" (acceptPorts r.proto low high) middle =
          some changed := by
  simp only [Backend.allowCmds, nftSpec, List.foldlM_cons, List.foldlM_nil,
    Option.bind_eq_bind, nftCommand, Option.bind_some] at ran
  obtain ⟨middle, isMiddle, rest⟩ := Option.bind_eq_some_iff.mp ran
  have proto : nftProto r.proto.text = some r.proto := by
    cases r.proto <;> rfl
  rw [proto] at rest
  simp only [Option.bind_some] at rest
  obtain ⟨last, isLast, same⟩ := Option.bind_eq_some_iff.mp rest
  obtain ⟨range, isRange, isAdded⟩ := Option.bind_eq_some_iff.mp isLast
  cases same
  exact ⟨middle, range.1, range.2, isMiddle, isRange, isAdded⟩

end Allowing

/-- A packet that a rule is meant for. -/
def PortRule.Covers {Other : Type} (r : PortRule)
    (packet : InputPacket Other) : Prop :=
  packet.proto = r.proto ∧ r.portMin ≤ packet.port ∧ packet.port ≤ r.portMax

/--
After a port was opened with nftables, the packets of the rule all pass the
input hook exactly if, before, no rule of the manager's chain blocked one of
them and every other base chain accepted them.
-/
theorem allowed_port_open_iff
    {Other : Type}
    (manager later : Manager)
    (r : PortRule)
    (host after : NftHost Other)
    (isNftables : manager.backend = some .nftables)
    (allowed :
      nftSystem.run (allow manager r) host = ((.ok (), later), after)) :
    (∀ packet : InputPacket Other, r.Covers packet →
        inputVerdict after.tables packet = .accept) ↔
      ∀ packet : InputPacket Other, r.Covers packet →
        Clear manager.tag host.tables packet := by
  unfold allow at allowed
  rw [isNftables] at allowed
  dsimp only at allowed
  rw [Interpreter.run_bind] at allowed
  cases ran :
      nftSystem.run (runEach (Backend.nftables.allowCmds manager.tag r))
        host with
  | mk failed opened =>
      rw [ran] at allowed
      cases failed with
      | some words => cases allowed
      | none =>
          dsimp only at allowed
          rw [Interpreter.run_bind] at allowed
          obtain ⟨middle, low, high, chained, parsed, added⟩ :=
            foldlM_allowCmds (run_runEach_nft ran)
          have tables : after.tables = opened.tables :=
            (congrArg (fun pair => pair.2.tables) allowed).symm.trans
              (run_persist_nft _)
          obtain ⟨lowest, highest⟩ := nftPorts_nftPort parsed
          rw [tables]
          refine forall₂_congr fun packet covers => ?_
          have accepts :
              acceptPorts r.proto low high packet = .accept := by
            obtain ⟨isProto, above, below⟩ := covers
            exact if_pos ⟨isProto, by omega, by omega⟩
          rw [accept_addRule_iff added accepts, clear_addInputChain chained,
            clear_addTable]

/-- The manager of a component on a host with nftables. -/
def nftManager : Manager where
  tag := "wgmesh-agent"
  backend := some .nftables
  rules := []
  tracked := false

/-- A host that drops by policy in a chain of another table. -/
def droppingHost : NftHost Unit where
  tables :=
    [⟨.inet, "filter", [⟨"input", some ⟨.input, 0, .drop⟩, []⟩]⟩]
  stateFile := none

/-- The port is opened, and its packets are dropped all the same. -/
theorem allowed_port_dropped :
    (nftSystem.run (allow nftManager ⟨.udp, 51820, 51820⟩)
          droppingHost).1.1.isOk = true ∧
      inputVerdict
          (nftSystem.run (allow nftManager ⟨.udp, 51820, 51820⟩)
            droppingHost).2.tables ⟨.udp, 51820, false, ()⟩ = .drop := by
  decide +kernel

/-- The same host with a rule of its own for the port. -/
def acceptingHost : NftHost Unit where
  tables :=
    [⟨.inet, "filter",
      [⟨"input", some ⟨.input, 0, .drop⟩, [acceptPorts .udp 51820 51820]⟩]⟩]
  stateFile := none

/-- On a host whose own chain accepts the packets the port is open. -/
theorem allowed_port_open_accepting :
    ∃ later after,
      nftSystem.run (allow nftManager ⟨.udp, 51820, 51820⟩) acceptingHost =
          ((.ok (), later), after) ∧
        ∀ packet : InputPacket Unit,
          PortRule.Covers ⟨.udp, 51820, 51820⟩ packet →
            inputVerdict after.tables packet = .accept := by
  refine ⟨_, _, rfl, ?_⟩
  refine (allowed_port_open_iff nftManager _ ⟨.udp, 51820, 51820⟩
    acceptingHost _ rfl rfl).mpr ?_
  rintro packet ⟨isUDP, above, below⟩ table member - chain chainMember base
    isBase -
  have port : packet.port = 51820 := by
    dsimp only at above below
    omega
  obtain rfl := List.mem_singleton.mp member
  obtain rfl := List.mem_singleton.mp chainMember
  cases isBase
  simp [nftManager, FilterTable.isNamed, FilterChain.verdict, firstEffect,
    acceptPorts, isUDP, port]

end WgMesh.Firewall
