import Mathlib.Data.List.Sort
import WgMesh.PairKeys
import WgMesh.NetAddressText
import WgMesh.StoreVisibility

namespace WgMesh.Server

/-!
# Endpoint candidates

How the control plane ranks the ways one agent might reach another
(`endpointCandidates`, `pairCandidates`), and the allowlist for candidates
that agents report (`validAgentCandidates`).
-/

open NetAddress PairKeys Store TextScan

/-- Split a text at the last occurrence of a character. -/
def splitLast (char : Char) : List Char → Option (List Char × List Char)
  | [] => none
  | head :: rest =>
      match splitLast char rest with
      | some (before, after) => some (head :: before, after)
      | none => if head = char then some ([], rest) else none

/-- `net.SplitHostPort`; its error texts are left out. -/
def splitHostPort (hostport : String) : Option (String × String) :=
  match splitLast ':' hostport.toList with
  | none => none
  | some ('[' :: bracketed, port) =>
      -- The first closing bracket stands right before the last colon.
      let host := bracketed.dropLast
      if bracketed.getLast? = some ']' ∧ ']' ∉ host ∧ '[' ∉ host ∧
          '[' ∉ port ∧ ']' ∉ port then
        some (String.ofList host, String.ofList port)
      else
        none
  | some (host, port) =>
      if ':' ∈ host ∨ '[' ∈ host ++ port ∨ ']' ∈ host ++ port then
        none
      else
        some (String.ofList host, String.ofList port)

/-- `net.JoinHostPort`. -/
def joinHostPort (host port : String) : String :=
  if ':' ∈ host.toList then "[" ++ host ++ "]:" ++ port
  else host ++ ":" ++ port

/-- `net.ParseIP(host).To4()`, as the number the four bytes spell. -/
def parseIP4 (host : String) : Option Nat :=
  match parseAddr host with
  | none => none
  | some addr =>
      if addr.zone ≠ "" then none
      else if addr.is4 then some addr.value
      else if addr.is4In6 then some (addr.value % 2 ^ 32)
      else none

/-- `sameHost`. -/
def sameHost (a b : String) : Bool :=
  match splitHostPort a, splitHostPort b with
  | some (hostA, _), some (hostB, _) => hostA == hostB
  | _, _ => false

/-- The IPv4 host of an endpoint. -/
def endpointIP4 (endpoint : String) : Option Nat :=
  (splitHostPort endpoint).bind (fun parts => parseIP4 parts.1)

/-- `sameV4Subnet`: a shared /24 with a reported host address. -/
def sameV4Subnet (selfCands : List AgentCandidate) (endpoint : String) :
    Bool :=
  match endpointIP4 endpoint with
  | none => false
  | some ip =>
      selfCands.any fun candidate =>
        candidate.type == "host" &&
          (endpointIP4 candidate.endpoint).any
            (fun selfIP => ip / 256 == selfIP / 256)

/-- `maxEndpointCandidates`. -/
def maxEndpointCandidates : Nat := 6

/-- `maxAgentCandidates`. -/
def maxAgentCandidates : Nat := 8

/-- The candidate types that agents may report. -/
def isAgentCandidateType (type : String) : Bool :=
  type == "host" || type == "host6" || type == "stun6" || type == "upnp" ||
    type == "pinned"

/-- `validAgentCandidates`: the first eight of known type that resolve. -/
def validAgentCandidates
    (resolves : String → Bool)
    (candidates : List AgentCandidate) : List AgentCandidate :=
  (candidates.filter fun candidate =>
    isAgentCandidateType candidate.type &&
      resolves candidate.endpoint).take maxAgentCandidates

/-- `agentCandidates`: the decoded list, cut to its first eight. -/
def agentCandidates (peer : PeerRow) : List AgentCandidate :=
  peer.candidates.take maxAgentCandidates

/-- `lanEndpoint`: the observed address with the listen port. -/
def lanEndpoint (peer : PeerRow) : Option String :=
  if peer.observedIP ≠ "" ∧ 0 < peer.listenPort then
    some (joinHostPort peer.observedIP (decimal peer.listenPort))
  else
    none

/-- `proto.EndpointCandidate`. -/
structure EndpointCandidate where
  endpoint : String
  type : String
  priority : Nat
deriving DecidableEq

/-- The closure `add`: no empty and no repeated endpoint. -/
def addCandidate (endpoint type : String) (priority : Nat)
    (out : List EndpointCandidate) : List EndpointCandidate :=
  if endpoint = "" ∨ endpoint ∈ out.map (·.endpoint) then out
  else out ++ [⟨endpoint, type, priority⟩]

/-- Add what a function picks of each reported candidate, in order. -/
def addEach
    (pick : AgentCandidate → Option (String × Nat))
    (reported : List AgentCandidate)
    (out : List EndpointCandidate) : List EndpointCandidate :=
  reported.foldl
    (fun out candidate =>
      match pick candidate with
      | some (type, priority) =>
          addCandidate candidate.endpoint type priority out
      | none => out)
    out

/-- Add the observed address, when there is one. -/
def addLAN (peer : PeerRow) (priority : Nat)
    (out : List EndpointCandidate) : List EndpointCandidate :=
  match lanEndpoint peer with
  | some endpoint => addCandidate endpoint "lan" priority out
  | none => out

/-- Candidates of one type, at a priority. -/
def pickType (type : String) (priority : Nat) (candidate : AgentCandidate) :
    Option (String × Nat) :=
  if candidate.type = type then some (type, priority) else none

/-- Both sides discovered the same public address. -/
def sameNAT (self p : PeerRow) : Bool :=
  p.publicEndpoint != "" && self.publicEndpoint != "" &&
    sameHost self.publicEndpoint p.publicEndpoint

/-- What the first loop of the same-NAT branch adds. -/
def pickBehindNAT (selfReported : List AgentCandidate)
    (candidate : AgentCandidate) : Option (String × Nat) :=
  if candidate.type = "pinned" then some ("pinned", 95)
  else if candidate.type = "host" then
    if sameV4Subnet selfReported candidate.endpoint then some ("host", 110)
    else none
  else if candidate.type = "host6" then some ("host6", 100)
  else if candidate.type = "stun6" then some ("stun6", 130)
  else none

/-- What the last loop of the other branch adds. -/
def pickHost (selfReported : List AgentCandidate)
    (candidate : AgentCandidate) : Option (String × Nat) :=
  if candidate.type = "host6" then some ("host6", 85)
  else if candidate.type = "host" then
    if sameV4Subnet selfReported candidate.endpoint then some ("host", 110)
    else none
  else none

/-- The candidates of the same-NAT branch, in insertion order. -/
def candidatesBehindNAT (self p : PeerRow) : List EndpointCandidate :=
  let out := addEach (pickBehindNAT (agentCandidates self))
    (agentCandidates p) []
  let out := addLAN p 105 out
  let out := addCandidate p.publicEndpoint "stun" 85 out
  addEach (pickType "upnp" 84) (agentCandidates p) out

/-- The candidates of the other branch, in insertion order. -/
def candidatesAcrossNAT (self p : PeerRow) : List EndpointCandidate :=
  let out := addEach (pickType "pinned" 140) (agentCandidates p) []
  let out := addEach (pickType "stun6" 130) (agentCandidates p) out
  let out := addEach (pickType "upnp" 120) (agentCandidates p) out
  let out := addCandidate p.publicEndpoint "stun" 90 out
  let out := addEach (pickHost (agentCandidates self))
    (agentCandidates p) out
  addLAN p 80 out

/-- `sortCandidates`: by priority, stable, cut to six. -/
def sortCandidates (out : List EndpointCandidate) :
    List EndpointCandidate :=
  (out.insertionSort
    (fun first second => second.priority ≤ first.priority)).take
      maxEndpointCandidates

/-- `endpointCandidates`. -/
def endpointCandidates (self p : PeerRow) : List EndpointCandidate :=
  sortCandidates
    (if sameNAT self p then candidatesBehindNAT self p
      else candidatesAcrossNAT self p)

/-- `netip.AddrPort`. -/
structure AddrPort where
  addr : Addr
  port : Nat
  bounded : port < 2 ^ 16
deriving DecidableEq

/-- `AddrPort.String`. -/
def AddrPort.text (source : AddrPort) : String :=
  if source.addr.is4 then source.addr.text ++ ":" ++ decimal source.port
  else "[" ++ source.addr.text ++ "]:" ++ decimal source.port

/-- `Addr.IsLoopback`. -/
def isLoopback (addr : Addr) : Bool :=
  if addr.is4 then addr.value / 2 ^ 24 == 127
  else if addr.is4In6 then addr.value % 2 ^ 32 / 2 ^ 24 == 127
  else addr.value == 1

/--
What the embedded relay has observed of the two legs of a pair id, the leg of
the smaller key first; `none` for an invalid address.
-/
abbrev Relay := String → Option (Option AddrPort × Option AddrPort)

/-- The live mapping of `p` that the relay may add to the candidates. -/
def relaySource
    (relay : Relay)
    (digest : String → String)
    (self p : PeerRow) : Option AddrPort :=
  match relay (relayPairID digest self.publicKey p.publicKey) with
  | none => none
  | some (srcA, srcB) =>
      (if textLess self.publicKey p.publicKey then srcB else srcA).filter
        (fun source => !isLoopback source.addr)

/-- `pairCandidates`. -/
def pairCandidates
    (relay : Relay)
    (digest : String → String)
    (self p : PeerRow) : List EndpointCandidate :=
  let out := endpointCandidates self p
  match relaySource relay digest self p with
  | none => out
  | some source =>
      if source.text ∈ out.map (·.endpoint) then out
      else
        sortCandidates
          (out ++
            [⟨source.text, "relay", if sameNAT self p then 83 else 95⟩])

section Endpoints

variable {good : String → Prop}

/-- Every endpoint of a candidate list has a property. -/
def EachEndpoint (good : String → Prop) (out : List EndpointCandidate) :
    Prop :=
  ∀ candidate ∈ out, good candidate.endpoint

variable {out : List EndpointCandidate}

/-- Adding a good endpoint. -/
theorem EachEndpoint.addCandidate
    {endpoint type : String}
    {priority : Nat}
    (each : EachEndpoint good out)
    (goodEndpoint : endpoint ≠ "" → good endpoint) :
    EachEndpoint good (addCandidate endpoint type priority out) := by
  unfold Server.addCandidate
  split
  · exact each
  · rename_i added
    intro candidate member
    rcases List.mem_append.mp member with old | new
    · exact each candidate old
    · rw [List.mem_singleton.mp new]
      exact goodEndpoint (fun empty => added (Or.inl empty))

/-- Adding picked candidates with good endpoints. -/
theorem EachEndpoint.addEach
    {pick : AgentCandidate → Option (String × Nat)}
    {reported : List AgentCandidate}
    (each : EachEndpoint good out)
    (goodReported :
      ∀ candidate ∈ reported, good candidate.endpoint) :
    EachEndpoint good (addEach pick reported out) := by
  unfold Server.addEach
  induction reported generalizing out with
  | nil => exact each
  | cons head rest inductionHypothesis =>
      rw [List.foldl_cons]
      refine inductionHypothesis ?_
        (fun candidate member =>
          goodReported candidate (List.mem_cons_of_mem _ member))
      split
      · exact each.addCandidate
          (fun _ => goodReported head List.mem_cons_self)
      · exact each

theorem EachEndpoint.addLAN
    {peer : PeerRow}
    {priority : Nat}
    (each : EachEndpoint good out)
    (goodLAN : ∀ endpoint, lanEndpoint peer = some endpoint → good endpoint) :
    EachEndpoint good (addLAN peer priority out) := by
  unfold Server.addLAN
  split
  · rename_i endpoint found
    exact each.addCandidate (fun _ => goodLAN endpoint found)
  · exact each

theorem EachEndpoint.sortCandidates
    (each : EachEndpoint good out) :
    EachEndpoint good (sortCandidates out) := by
  intro candidate member
  exact each candidate
    ((List.mem_insertionSort _).mp (List.mem_of_mem_take member))

/--
The endpoints for a pair come from four places: the peer's reported
candidates, its observed address, its public endpoint, and the relay.
-/
theorem eachEndpoint_pairCandidates
    {relay : Relay}
    {digest : String → String}
    {self p : PeerRow}
    (reported :
      ∀ candidate ∈ p.candidates, good candidate.endpoint)
    (lan : ∀ endpoint, lanEndpoint p = some endpoint → good endpoint)
    (discovered : p.publicEndpoint ≠ "" → good p.publicEndpoint)
    (relayed :
      ∀ source, relaySource relay digest self p = some source →
        good source.text) :
    EachEndpoint good (pairCandidates relay digest self p) := by
  have agents :
      ∀ candidate, candidate ∈ agentCandidates p →
        good candidate.endpoint :=
    fun candidate member =>
      reported candidate (List.mem_of_mem_take member)
  have none : EachEndpoint good [] := by
    intro candidate member
    cases member
  have known : EachEndpoint good (endpointCandidates self p) := by
    refine EachEndpoint.sortCandidates ?_
    split
    · exact (((none.addEach agents).addLAN lan).addCandidate
        discovered).addEach agents
    · exact (((((none.addEach agents).addEach agents).addEach
        agents).addCandidate discovered).addEach agents).addLAN lan
  unfold pairCandidates
  dsimp only
  split
  · exact known
  · rename_i source found
    split
    · exact known
    · refine EachEndpoint.sortCandidates ?_
      intro candidate member
      rcases List.mem_append.mp member with old | new
      · exact known candidate old
      · rw [List.mem_singleton.mp new]
        exact relayed source found

end Endpoints

end WgMesh.Server
