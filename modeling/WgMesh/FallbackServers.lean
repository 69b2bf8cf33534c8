import WgMesh.ResolvConf

namespace WgMesh.Agent

/-!
# The name servers of the generated resolv.conf

Resolvers read three name servers, so the pushed ones are filled up to three
with those of the original file.  The loop over the original compares the
number after it has appended an entry: the first one is taken even if three or
more were pushed.
-/

open NetAddress Store TextScan

/-- The name server of a line, in its canonical text. -/
def serverOf (line : List Char) : Option String :=
  match fields line with
  | directive :: address :: _ =>
      if directive = "nameserver".toList then
        (parseAddr (String.ofList address)).map (·.text)
      else
        none
  | _ => none

/-- The name servers of a file, in their order. -/
def originalServers (original : String) : List String :=
  (original.toList.splitOn '\n').filterMap serverOf

/-- The name servers that are not among those known, each once. -/
def freshServers (known : List String) : List String → List String
  | [] => []
  | server :: rest =>
      if server ∈ known then
        freshServers known rest
      else
        server :: freshServers (known ++ [server]) rest

/-- How many name servers the loop appends at most. -/
def room (pushed : List String) : Nat :=
  if pushed.length < 3 then 3 - pushed.length else 1

section Loop

variable {pushed out : List String}

/-- A line that names no server is skipped. -/
theorem fallbackLoop_skip
    {line : List Char}
    {rest : List (List Char)}
    (names : serverOf line = none) :
    fallbackLoop pushed (line :: rest) out =
      fallbackLoop pushed rest out := by
  unfold serverOf at names
  rw [fallbackLoop]
  split
  · rename_i directive address _ shape
    rw [shape] at names
    dsimp only at names
    split
    · rename_i isServer
      rw [if_pos isServer, Option.map_eq_none_iff] at names
      rw [names]
    · rfl
  · rfl

/-- A line that names a server: it is known, the last one or one more. -/
theorem fallbackLoop_server
    {line : List Char}
    {rest : List (List Char)}
    {server : String}
    (names : serverOf line = some server) :
    fallbackLoop pushed (line :: rest) out =
      if server ∈ pushed ∨ server ∈ out then fallbackLoop pushed rest out
      else if 3 ≤ pushed.length + (out.length + 1) then out ++ [server]
      else fallbackLoop pushed rest (out ++ [server]) := by
  unfold serverOf at names
  rw [fallbackLoop]
  split
  · rename_i directive address _ shape
    rw [shape] at names
    dsimp only at names
    by_cases isServer : directive = "nameserver".toList
    · rw [if_pos isServer] at names ⊢
      obtain ⟨addr, parsed, rfl⟩ := Option.map_eq_some_iff.mp names
      rw [parsed]
    · rw [if_neg isServer] at names
      cases names
  · rename_i short
    split at names
    · rename_i shape
      exact (short _ _ _ shape).elim
    · cases names

/-- The loop appends the first new name servers there is room for. -/
theorem fallbackLoop_eq
    (lines : List (List Char)) :
    fallbackLoop pushed lines out =
      out ++ (freshServers (pushed ++ out) (lines.filterMap serverOf)).take
        (room (pushed ++ out)) := by
  induction lines generalizing out with
  | nil => simp [fallbackLoop, freshServers]
  | cons line rest inductionHypothesis =>
      cases names : serverOf line with
      | none =>
          rw [fallbackLoop_skip names, List.filterMap_cons_none names]
          exact inductionHypothesis
      | some server =>
          rw [fallbackLoop_server names, List.filterMap_cons_some names]
          by_cases known : server ∈ pushed ++ out
          · rw [if_pos (List.mem_append.mp known), freshServers,
              if_pos known]
            exact inductionHypothesis
          · rw [if_neg (fun found => known (List.mem_append.mpr found)),
              freshServers, if_neg known]
            by_cases last : 3 ≤ pushed.length + (out.length + 1)
            · have one : room (pushed ++ out) = 1 := by
                unfold room
                rw [List.length_append]
                split <;> omega
              rw [if_pos last, one, List.take_succ_cons, List.take_zero]
            · have more :
                  room (pushed ++ out) = room (pushed ++ (out ++ [server])) + 1 := by
                unfold room
                simp only [List.length_append, List.length_singleton]
                rw [if_pos (by omega), if_pos (by omega)]
                omega
              rw [if_neg last, inductionHypothesis, more,
                List.take_succ_cons, List.append_assoc, List.append_assoc]
              rfl

theorem fallbackNameservers_eq
    (original : String)
    (pushed : List String) :
    fallbackNameservers true original pushed =
      (freshServers pushed (originalServers original)).take (room pushed) := by
  rw [fallbackNameservers, if_pos rfl, fallbackLoop_eq, List.nil_append,
    List.append_nil]
  rfl

/-- What is fresh is in the file and not known. -/
theorem mem_freshServers
    {known servers : List String}
    {server : String} :
    server ∈ freshServers known servers ↔
      server ∈ servers ∧ server ∉ known := by
  induction servers generalizing known with
  | nil => simp [freshServers]
  | cons first rest inductionHypothesis =>
      rw [freshServers]
      split
      · rename_i isKnown
        rw [inductionHypothesis, List.mem_cons]
        refine and_congr_left fun isNew => (or_iff_right ?_).symm
        rintro rfl
        exact isNew isKnown
      · rename_i isNew
        rw [List.mem_cons, inductionHypothesis, List.mem_cons]
        by_cases isFirst : server = first
        · simp [isFirst, isNew]
        · simp [isFirst]

/-- What is fresh has the order of the file. -/
theorem sublist_freshServers
    (known servers : List String) :
    (freshServers known servers).Sublist servers := by
  induction servers generalizing known with
  | nil => exact .slnil
  | cons first rest inductionHypothesis =>
      rw [freshServers]
      split
      · exact (inductionHypothesis known).cons first
      · exact (inductionHypothesis _).cons_cons first

/-- What is fresh comes once. -/
theorem nodup_freshServers
    (known servers : List String) :
    (freshServers known servers).Nodup := by
  induction servers generalizing known with
  | nil => exact List.nodup_nil
  | cons first rest inductionHypothesis =>
      rw [freshServers]
      split
      · exact inductionHypothesis known
      · refine List.nodup_cons.mpr ⟨?_, inductionHypothesis _⟩
        intro again
        exact (mem_freshServers.mp again).2
          (List.mem_append_right _ List.mem_cons_self)

end Loop

/-- A line that names a server. -/
def nameserverLine (server : String) : String :=
  "nameserver " ++ server ++ "\n"

/-- The lines that `applyResolvConfDNS` prints, in their order. -/
def takeoverLines (keepFallback : Bool) (cfg : DNSConfig)
    (original : String) : List String :=
  let fallbacks := fallbackNameservers keepFallback original cfg.nameservers
  let domains := dnsPlainSearchDomains cfg
  [resolvConfMarker ++ " (dns push); do not edit.\n",
      "# Original saved at " ++ ResolvFile.backup.path ++
        "; restored when dns push is disabled or the agent exits.\n"] ++
    cfg.nameservers.map nameserverLine ++
    (if fallbacks = [] then
      []
    else
      ["# Fallback: the host's original nameservers, so name resolution\n",
          "# (including the control plane's own name) survives mesh DNS " ++
            "loss.\n"] ++
        fallbacks.map nameserverLine ++
        ["options timeout:2 attempts:2\n"]) ++
    if domains = [] then
      []
    else
      ["search " ++ String.intercalate " " domains ++ "\n"]

section Content

variable {keepFallback : Bool} {cfg : DNSConfig} {original : String}

/-- The printed lines make up the content of the file. -/
theorem join_takeoverLines :
    String.join (takeoverLines keepFallback cfg original) =
      takeoverContent keepFallback cfg original := by
  have lines :
      ∀ servers : List String,
        String.join (servers.map nameserverLine) = nameserverLines servers :=
    fun _ => rfl
  unfold takeoverLines takeoverContent
  dsimp only
  split <;> split <;>
    simp only [String.join_append, String.join_cons, String.join_nil, lines,
      String.append_assoc, String.append_empty]

/-- The line names a server. -/
def isServerLine (line : String) : Bool :=
  "nameserver ".toList.isPrefixOf line.toList

theorem countP_nameserverLine
    (servers : List String) :
    (servers.map nameserverLine).countP isServerLine = servers.length := by
  rw [List.countP_map, List.countP_eq_length]
  intro server _
  simp [isServerLine, nameserverLine, String.toList_append]

/-- How many lines name a server. -/
theorem countP_takeoverLines :
    (takeoverLines keepFallback cfg original).countP isServerLine =
      cfg.nameservers.length +
        (fallbackNameservers keepFallback original cfg.nameservers).length := by
  have search :
      ∀ text : String,
        isServerLine ("search " ++ text ++ "\n") = false := by
    intro text
    simp [isServerLine, String.toList_append, List.isPrefixOf]
  have comments :
      List.countP isServerLine
        [resolvConfMarker ++ " (dns push); do not edit.\n",
          "# Original saved at " ++ ResolvFile.backup.path ++
            "; restored when dns push is disabled or the agent exits.\n"] =
        0 := by
    decide +kernel
  have remarks :
      List.countP isServerLine
        ["# Fallback: the host's original nameservers, so name resolution\n",
          "# (including the control plane's own name) survives mesh DNS " ++
            "loss.\n"] = 0 := by
    decide +kernel
  have options :
      List.countP isServerLine ["options timeout:2 attempts:2\n"] = 0 := by
    decide +kernel
  unfold takeoverLines
  dsimp only
  rw [List.countP_append, List.countP_append, List.countP_append,
    countP_nameserverLine, comments]
  split
  · rename_i none
    rw [none]
    split <;> simp [search]
  · rw [List.countP_append, List.countP_append, countP_nameserverLine,
      remarks, options]
    split <;> simp [search]

theorem exists_take_fallbackNameservers
    (keepFallback : Bool)
    (original : String)
    (pushed : List String) :
    ∃ count,
      fallbackNameservers keepFallback original pushed =
        (freshServers pushed (originalServers original)).take count := by
  cases keepFallback with
  | false => exact ⟨0, rfl⟩
  | true => exact ⟨_, fallbackNameservers_eq original pushed⟩

/--
The fallbacks are distinct name servers of the original that were not pushed,
in its order.  With fewer than three pushed as many are kept as fit.  The file
has at most three name servers or those pushed, unless three or more were
pushed and the original has another one.
-/
theorem fallback_respects_limit_iff
    (keepFallback : Bool)
    (cfg : DNSConfig)
    (original : String) :
    ((fallbackNameservers keepFallback original cfg.nameservers).Nodup ∧
        (∀ server,
          server ∈
              fallbackNameservers keepFallback original cfg.nameservers →
            server ∉ cfg.nameservers) ∧
        (fallbackNameservers keepFallback original
          cfg.nameservers).Sublist (originalServers original) ∧
        ((takeoverLines keepFallback cfg original).countP isServerLine ≤ 3 ∨
          (takeoverLines keepFallback cfg original).countP isServerLine =
            cfg.nameservers.length) ∧
        (keepFallback = true → cfg.nameservers.length < 3 →
          fallbackNameservers keepFallback original cfg.nameservers =
            (freshServers cfg.nameservers (originalServers original)).take
              (3 - cfg.nameservers.length))) ↔
      cfg.nameservers.length < 3 ∨ keepFallback = false ∨
        ∀ server, server ∈ originalServers original →
          server ∈ cfg.nameservers := by
  obtain ⟨count, taken⟩ :=
    exists_take_fallbackNameservers keepFallback original cfg.nameservers
  rw [countP_takeoverLines]
  constructor
  · rintro ⟨-, -, -, limited, -⟩
    by_contra crowded
    simp only [not_or, Bool.not_eq_false] at crowded
    obtain ⟨many, rfl, another⟩ := crowded
    -- the first fresh name server is appended to three or more
    have one :
        (fallbackNameservers true original cfg.nameservers).length = 1 := by
      rw [fallbackNameservers_eq, room, if_neg many, List.length_take,
        Nat.min_eq_left]
      simp only [not_forall] at another
      obtain ⟨server, isOriginal, isNew⟩ := another
      exact List.length_pos_of_mem
        (mem_freshServers.mpr ⟨isOriginal, isNew⟩)
    omega
  · intro fits
    refine ⟨?_, ?_, ?_, ?_, ?_⟩
    · rw [taken]
      exact (nodup_freshServers _ _).sublist (List.take_sublist _ _)
    · intro server isFallback
      rw [taken] at isFallback
      exact (mem_freshServers.mp (List.mem_of_mem_take isFallback)).2
    · rw [taken]
      exact (List.take_sublist _ _).trans (sublist_freshServers _ _)
    · rcases fits with few | off | known
      · left
        cases keepFallback with
        | false =>
            rw [fallbackNameservers, if_neg Bool.false_ne_true]
            simpa using few.le
        | true =>
            rw [fallbackNameservers_eq, room, if_pos few, List.length_take]
            omega
      · right
        rw [fallbackNameservers, off, if_neg Bool.false_ne_true]
        rfl
      · right
        have none :
            freshServers cfg.nameservers (originalServers original) = [] := by
          refine List.eq_nil_iff_forall_not_mem.mpr fun server fresh => ?_
          obtain ⟨isOriginal, isNew⟩ := mem_freshServers.mp fresh
          exact isNew (known server isOriginal)
        rw [taken, none, List.take_nil, List.length_nil, Nat.add_zero]
    · rintro rfl few
      rw [fallbackNameservers_eq, room, if_pos few]

end Content

/-- Three pushed name servers. -/
def threeServers : DNSConfig where
  enabled := true
  nameservers := ["100.64.0.1", "100.64.0.2", "100.64.0.3"]
  searchDomains := []
  domain := ""
  magicDNS := false

/-- With three pushed, the first name server of the original is a fourth. -/
theorem fallback_exceeds_limit :
    fallbackNameservers true "nameserver 1.1.1.1\nnameserver 9.9.9.9\n"
        threeServers.nameservers = ["1.1.1.1"] ∧
      (takeoverLines true threeServers
        "nameserver 1.1.1.1\nnameserver 9.9.9.9\n").countP isServerLine =
        4 := by
  decide +kernel

/-- With one pushed, two of the original's are kept. -/
theorem fallback_respects_limit_one :
    fallbackNameservers true
        "nameserver 100.64.0.1\nnameserver 1.1.1.1\nnameserver 9.9.9.9\n"
        ["100.64.0.1"] =
      (freshServers ["100.64.0.1"] (originalServers
        "nameserver 100.64.0.1\nnameserver 1.1.1.1\nnameserver 9.9.9.9\n")).take
        2 :=
  ((fallback_respects_limit_iff true
    { threeServers with nameservers := ["100.64.0.1"] }
    "nameserver 100.64.0.1\nnameserver 1.1.1.1\nnameserver 9.9.9.9\n").mpr
      (Or.inl (by decide))).2.2.2.2 rfl (by decide)

end WgMesh.Agent
