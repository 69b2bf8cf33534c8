import WgMesh.NetAddressText
import WgMesh.StoreSetupKeys
import WgMesh.StoreVisibility

namespace WgMesh.Store

/-!
# Overlay addresses

The three ways an overlay address enters the database: the lowest free
address of the current prefix (`allocateAddr`), an operator's choice
(`updatePeerAddress`) and the reassignment of all peers
(`applyNetworkMigration`).  Addresses are stored as texts, and uniqueness is
enforced on the texts.
-/

open NetAddress RowTables TextScan Transactions

/--
What one operation reads of the prefixes kept in memory.

`network4`, the test `v6Enabled` and `network6` are three separate reads, each
under its own lock.  `none` is the invalid prefix.
-/
structure NetworkView where
  network4 : Prefix
  v6Enabled : Bool
  network6 : Option Prefix

/-- `Prefix.String`, of the invalid prefix too. -/
def prefixText (network : Option Prefix) : String :=
  (network.map (·.text)).getD "invalid Prefix"

/-- The loop of `allocateAddr` over the rows; the parser's text is left out. -/
def parseColumn (column : String) :
    List String → Except StoreError (List Addr)
  | [] => .ok []
  | raw :: rest =>
      match parseAddr raw with
      | none =>
          .error
            (failure
              ("parse " ++ column ++ " \"" ++ raw ++ "\" from database"))
      | some addr => (parseColumn column rest).map (List.cons addr)

/-- The error of an allocation that finds no free address. -/
def noFreeAddresses (network : Option Prefix) : StoreError :=
  failure
    ("overlay network " ++ prefixText network ++ " has no free addresses")

/-- `allocateAddr`; the invalid prefix contains no address. -/
def allocateAddr
    (network : Option Prefix)
    (column : String)
    (values : Tables → List String) : StoreM String := do
  let raws ← select ("list " ++ column) values
  match parseColumn column raws with
  | .error error => raise error
  | .ok used =>
      match network.bind (·.firstFree used) with
      | some addr => pure addr.text
      | none => raise (noFreeAddresses network)

/-- The texts of the column `assigned_ip`. -/
def Tables.assignedIPs (tables : Tables) : List String :=
  tables.peers.map (·.assignedIP)

/-- The texts of the column `assigned_ip6` that are not `NULL`. -/
def Tables.assignedIP6s (tables : Tables) : List String :=
  tables.peers.filterMap (·.assignedIP6)

/-- `allocateIP`. -/
def allocateIP (view : NetworkView) : StoreM String :=
  allocateAddr (some view.network4) "assigned_ip" Tables.assignedIPs

/-- `allocateIP6`. -/
def allocateIP6 (view : NetworkView) : StoreM String :=
  allocateAddr view.network6 "assigned_ip6" Tables.assignedIP6s

/-- The IPv6 text of a peer that gets one; empty when IPv6 is disabled. -/
def allocateIP6IfEnabled (view : NetworkView) : StoreM String :=
  if view.v6Enabled then allocateIP6 view else pure ""

/--
`validateOverlayAddr` with `required` set, as both callers set it; the
parser's text is left out.
-/
def validateOverlayAddr (field raw : String) (network : Option Prefix) :
    Except StoreError Addr :=
  let raw := trimSpace raw
  if raw = "" then
    .error (failure (field ++ " is required"))
  else
    match parseAddr raw with
    | none => .error (failure (field ++ " must be an IP address"))
    | some addr =>
        if !network.any (·.contains addr) then
          .error
            (failure
              (field ++ " " ++ addr.text ++ " is outside overlay network " ++
                prefixText network))
        else if network.any (fun known => addr = known.addr) then
          .error
            (failure
              (field ++ " cannot be the overlay network address " ++
                addr.text))
        else if network.any (fun known => known.addr.is4 != addr.is4) then
          .error
            (failure
              (field ++ " has wrong IP family for " ++ prefixText network))
        else
          .ok addr

/-- The checks `UpdatePeerAddress` makes before its transaction. -/
def validateAddressPair
    (view : NetworkView)
    (assignedIP assignedIP6 : String) :
    Except StoreError (Addr × Option Addr) :=
  match validateOverlayAddr "assigned_ip" assignedIP
      (some view.network4) with
  | .error error => .error error
  | .ok addr4 =>
      if view.v6Enabled then
        (validateOverlayAddr "assigned_ip6" assignedIP6 view.network6).map
          fun addr6 => (addr4, some addr6)
      else if trimSpace assignedIP6 ≠ "" then
        .error
          (failure
            "assigned_ip6 cannot be set when IPv6 overlay is disabled")
      else
        .ok (addr4, none)

/-- `ensurePeerAddressFree` for a column. -/
def ensurePeerAddressFree
    (column : String)
    (value : PeerRecord → Option String)
    (selfID : Int)
    (ip : String) : StoreM Unit := do
  let holder ← select ("check " ++ column ++ " availability") fun tables =>
    tables.peers.find? fun row => value row == some ip && row.id != selfID
  match holder with
  | none => pure ()
  | some row =>
      raise
        (addressInUse (ip ++ " belongs to peer " ++ decimal row.id))

/-- The availability check of the IPv6 address, when there is one. -/
def ensurePeerAddress6Free (selfID : Int) : Option Addr → StoreM Unit
  | none => pure ()
  | some addr =>
      ensurePeerAddressFree "assigned_ip6" (·.assignedIP6) selfID addr.text

/-- Give one active peer new addresses. -/
def Tables.readdress
    (id : Int)
    (ip : String)
    (ip6 : Option String)
    (tables : Tables) : Tables :=
  { tables with
    peers :=
      updateWhere (PeerRecord.isUnrevoked id)
        (fun row => { row with assignedIP := ip, assignedIP6 := ip6 })
        tables.peers }

/-- The transaction of `UpdatePeerAddress`, after validation. -/
def updatePeerAddressBody
    (id : Int)
    (addr4 : Addr)
    (addr6 : Option Addr) : StoreM PeerInfo := do
  ensurePeerAddressFree "assigned_ip" (fun row => some row.assignedIP)
    id addr4.text
  ensurePeerAddress6Free id addr6
  let context := "update peer " ++ decimal id ++ " address"
  let rows ← modify context fun tables =>
    (tables.peers.countP (PeerRecord.isUnrevoked id),
      tables.readdress id addr4.text (addr6.map (·.text)))
  if rows = 0 then
    raise (notFound context)
  else
    getPeerInfo id

/-- `UpdatePeerAddress`. -/
def updatePeerAddress
    (view : NetworkView)
    (id : Int)
    (assignedIP assignedIP6 : String) : StoreM PeerInfo :=
  match validateAddressPair view assignedIP assignedIP6 with
  | .error error => raise error
  | .ok (addr4, addr6) =>
      inTransaction "begin peer address update"
        "commit peer address update"
        (updatePeerAddressBody id addr4 addr6)

/-- An address is denoted by one of the texts of a column. -/
def Denoted (raws : List String) (addr : Addr) : Prop :=
  ∃ raw ∈ raws, parseAddr raw = some addr

variable {column : String} {raws : List String} {before after : DB}
  {view : NetworkView}

/-- The addresses read from a column are those its texts denote. -/
theorem mem_of_parseColumn
    {used : List Addr}
    (parsed : parseColumn column raws = .ok used)
    (addr : Addr) :
    addr ∈ used ↔ Denoted raws addr := by
  induction raws generalizing used with
  | nil =>
      cases parsed
      simp [Denoted]
  | cons raw rest inductionHypothesis =>
      unfold parseColumn at parsed
      split at parsed
      · contradiction
      · rename_i first firstShape
        cases restShape : parseColumn column rest with
        | error error =>
            rw [restShape] at parsed
            cases parsed
        | ok others =>
            rw [restShape] at parsed
            cases parsed
            have fromRest := inductionHypothesis restShape
            simp [Denoted, fromRest, firstShape, eq_comm]

/-- A column whose texts all parse is read without an error. -/
theorem exists_parseColumn
    (column : String)
    (readable : ∀ raw ∈ raws, (parseAddr raw).isSome = true) :
    ∃ used, parseColumn column raws = .ok used := by
  induction raws with
  | nil =>
      exact ⟨[], rfl⟩
  | cons raw rest inductionHypothesis =>
      obtain ⟨first, firstShape⟩ :=
        Option.isSome_iff_exists.mp (readable raw List.mem_cons_self)
      obtain ⟨others, othersShape⟩ :=
        inductionHypothesis fun other member =>
          readable other (List.mem_cons_of_mem raw member)
      refine ⟨first :: others, ?_⟩
      simp [parseColumn, firstShape, othersShape, Except.map]

/-- The search over a read column is the search over what it denotes. -/
private theorem firstFree_of_parseColumn
    {used : List Addr}
    {network : Prefix}
    (parsed : parseColumn column raws = .ok used)
    (isNetwork : network.IsNetwork) :
    match network.firstFree used with
    | some addr => network.IsLowestFree (Denoted raws) addr
    | none => ∀ addr, network.IsHost addr → Denoted raws addr := by
  have sameHeld : (fun addr => addr ∈ used) = Denoted raws :=
    funext fun addr => propext (mem_of_parseColumn parsed addr)
  have spec := Prefix.firstFree_spec isNetwork used
  rw [sameHeld] at spec
  cases shape : network.firstFree used with
  | some addr =>
      rw [shape] at spec
      exact spec
  | none =>
      rw [shape] at spec
      exact fun addr host =>
        (mem_of_parseColumn parsed addr).mp (spec addr host)

/-- Allocation is read-only. -/
theorem readOnly_allocateAddr
    (network : Option Prefix)
    (column : String)
    (values : Tables → List String) :
    ReadOnly (allocateAddr network column values) := by
  apply ReadOnly.bind (readOnly_select _ _)
  intro raws
  split
  · exact readOnly_raise _
  · split
    · exact readOnly_pure _
    · exact readOnly_raise _

/--
A text is what allocation returns for a prefix and a column: when the prefix
is a network, the lowest host that the column leaves free.
-/
def Allocates
    (network : Option Prefix)
    (raws : List String)
    (text : String) : Prop :=
  ∃ known addr,
    network = some known ∧ text = addr.text ∧
      (known.IsNetwork → known.IsLowestFree (Denoted raws) addr)

/-- Allocation returns the lowest host of its prefix the column leaves free. -/
theorem allocateAddr_ok
    {network : Option Prefix}
    {values : Tables → List String}
    {text : String}
    (run :
      Runs (allocateAddr network column values) before (.ok text) after) :
    after = before ∧ Allocates network (values before.tables) text := by
  refine ⟨readOnly_allocateAddr _ _ _ _ _ _ run, ?_⟩
  obtain ⟨raws, middle, listRun, rest⟩ := run.bind_ok
  obtain ⟨sameList, rawsShape⟩ := select_ok listRun
  subst middle raws
  split at rest
  · exact rest.raise_ok.elim
  · rename_i used parsed
    split at rest
    · rename_i addr found
      obtain ⟨known, knownShape, foundIn⟩ :=
        Option.bind_eq_some_iff.mp found
      obtain ⟨textShape, -⟩ := rest.pure_inv
      refine ⟨known, addr, knownShape, Except.ok.inj textShape, ?_⟩
      intro isNetwork
      have spec := firstFree_of_parseColumn parsed isNetwork
      rw [foundIn] at spec
      exact spec
    · exact rest.raise_ok.elim

/-- What allocation gives a new peer; the empty text is no IPv6 address. -/
structure NewAddresses
    (view : NetworkView)
    (tables : Tables)
    (ip ip6 : String) : Prop where
  first : Allocates (some view.network4) tables.assignedIPs ip
  second :
    if view.v6Enabled then
      Allocates view.network6 tables.assignedIP6s ip6
    else
      ip6 = ""

/-- The IPv6 allocation is made exactly when IPv6 is enabled. -/
theorem allocateIP6IfEnabled_ok
    {ip6 : String}
    (run : Runs (allocateIP6IfEnabled view) before (.ok ip6) after) :
    after = before ∧
      if view.v6Enabled then
        Allocates view.network6 before.tables.assignedIP6s ip6
      else
        ip6 = "" := by
  unfold allocateIP6IfEnabled at run
  by_cases enabled : view.v6Enabled = true
  · rw [if_pos enabled] at run ⊢
    exact allocateAddr_ok run
  · rw [if_neg enabled] at run ⊢
    obtain ⟨shape, same⟩ := run.pure_inv
    exact ⟨same, Except.ok.inj shape⟩

/--
Without refusals, and with a readable column, allocation fails exactly when
every host of the prefix is denoted by the column.
-/
theorem completes_allocateAddr
    {network : Prefix}
    (isNetwork : network.IsNetwork)
    (column : String)
    (values : Tables → List String)
    {db : DB}
    (readable :
      ∀ raw ∈ values db.tables, (parseAddr raw).isSome = true) :
    (∃ addr,
        Completes (allocateAddr (some network) column values)
            db (.ok addr.text) db ∧
          network.IsLowestFree (Denoted (values db.tables)) addr) ∨
      Completes (allocateAddr (some network) column values)
          db (.error (noFreeAddresses (some network))) db ∧
        ∀ addr, network.IsHost addr →
          Denoted (values db.tables) addr := by
  obtain ⟨used, parsed⟩ := exists_parseColumn column readable
  have spec := firstFree_of_parseColumn parsed isNetwork
  cases found : network.firstFree used with
  | some addr =>
      rw [found] at spec
      refine Or.inl ⟨addr, ?_, spec⟩
      refine Completes.bind (completes_query _ _ _) ?_
      simp only [parsed, Option.bind_some, found]
      exact completes_pure _ _
  | none =>
      rw [found] at spec
      refine Or.inr ⟨Completes.bind (completes_query _ _ _) ?_, spec⟩
      simp only [parsed, Option.bind_some, found]
      exact completes_raise _ _

/-- An accepted address is a host of the prefix it was checked against. -/
theorem validateOverlayAddr_ok
    {field raw : String}
    {network : Option Prefix}
    {addr : Addr}
    (isNetwork : ∀ known, network = some known → known.IsNetwork)
    (accepted : validateOverlayAddr field raw network = .ok addr) :
    ∃ known, network = some known ∧ known.IsHost addr := by
  unfold validateOverlayAddr at accepted
  dsimp only at accepted
  split at accepted
  · cases accepted
  · split at accepted
    · cases accepted
    · rename_i parsed parsedShape
      split at accepted
      · cases accepted
      · rename_i inside
        split at accepted
        · cases accepted
        · rename_i notBase
          split at accepted
          · cases accepted
          · cases accepted
            cases network with
            | none =>
                simp at inside
            | some known =>
                have member : known.contains addr = true := by
                  simpa using inside
                have differs : addr ≠ known.addr := by
                  simpa using notBase
                exact ⟨known, rfl,
                  (isNetwork known rfl).isHost_of_ne member differs⟩

/-- Accepted pairs are hosts; there is an IPv6 host exactly when enabled. -/
theorem validateAddressPair_ok
    {assignedIP assignedIP6 : String}
    {addr4 : Addr}
    {addr6 : Option Addr}
    (isNetwork4 : view.network4.IsNetwork)
    (isNetwork6 :
      view.v6Enabled = true →
        ∀ known, view.network6 = some known → known.IsNetwork)
    (accepted :
      validateAddressPair view assignedIP assignedIP6 =
        .ok (addr4, addr6)) :
    view.network4.IsHost addr4 ∧
      (addr6.isSome = view.v6Enabled) ∧
      ∀ addr, addr6 = some addr →
        ∃ known, view.network6 = some known ∧ known.IsHost addr := by
  unfold validateAddressPair at accepted
  split at accepted
  · cases accepted
  · rename_i first firstShape
    obtain ⟨known, knownShape, firstHost⟩ :=
      validateOverlayAddr_ok
        (fun known shape => Option.some.inj shape ▸ isNetwork4) firstShape
    cases knownShape
    split at accepted
    · rename_i enabled
      cases secondShape :
          validateOverlayAddr "assigned_ip6" assignedIP6 view.network6 with
      | error error =>
          rw [secondShape] at accepted
          cases accepted
      | ok second =>
          rw [secondShape] at accepted
          cases accepted
          refine ⟨firstHost, enabled.symm, ?_⟩
          intro addr shape
          cases shape
          exact validateOverlayAddr_ok (isNetwork6 enabled) secondShape
    · rename_i disabled
      split at accepted
      · cases accepted
      · cases accepted
        refine ⟨firstHost, ?_, ?_⟩
        · simpa using disabled
        · intro addr impossible
          cases impossible

theorem readOnly_ensurePeerAddressFree
    (column : String)
    (value : PeerRecord → Option String)
    (selfID : Int)
    (ip : String) :
    ReadOnly (ensurePeerAddressFree column value selfID ip) := by
  apply ReadOnly.bind (readOnly_select _ _)
  intro holder
  split
  · exact readOnly_pure _
  · exact readOnly_raise _

/-- A successful address update moves one active peer to accepted hosts. -/
theorem updatePeerAddress_ok
    {id : Int}
    {assignedIP assignedIP6 : String}
    {info : PeerInfo}
    (run :
      Runs (updatePeerAddress view id assignedIP assignedIP6)
        before (.ok info) after) :
    ∃ addr4 addr6,
      validateAddressPair view assignedIP assignedIP6 =
          .ok (addr4, addr6) ∧
        (∃ row, row ∈ before.tables.peers ∧
          PeerRecord.isUnrevoked id row = true) ∧
        after.tables =
          before.tables.readdress id addr4.text
            (addr6.map (·.text)) := by
  unfold updatePeerAddress at run
  split at run
  · exact run.raise_ok.elim
  · rename_i addr4 addr6 accepted
    obtain ⟨_, afterFirst, firstRun, rest⟩ :=
      (inTransaction_ok run).bind_ok
    have sameFirst := readOnly_ensurePeerAddressFree _ _ _ _ _ _ _ firstRun
    subst afterFirst
    obtain ⟨_, afterSecond, secondRun, rest⟩ := rest.bind_ok
    have sameSecond : afterSecond = before := by
      cases addr6 with
      | none => exact secondRun.pure_inv.2
      | some addr =>
          exact readOnly_ensurePeerAddressFree _ _ _ _ _ _ _ secondRun
    subst afterSecond
    obtain ⟨rows, written, writeRun, rest⟩ := rest.bind_ok
    obtain ⟨rowsShape, tablesShape⟩ := modify_ok writeRun
    split at rest
    · exact rest.raise_ok.elim
    · rename_i someRow
      obtain ⟨sameEnd, -⟩ := getPeerInfo_ok rest
      have positive :
          0 < before.tables.peers.countP (PeerRecord.isUnrevoked id) :=
        Nat.pos_of_ne_zero (fun zero => someRow (rowsShape.trans zero))
      refine ⟨addr4, addr6, accepted, List.countP_pos_iff.mp positive, ?_⟩
      rw [sameEnd]
      exact tablesShape

theorem atomic_updatePeerAddress
    (view : NetworkView)
    (id : Int)
    (assignedIP assignedIP6 : String) :
    Atomic (updatePeerAddress view id assignedIP assignedIP6) := by
  unfold updatePeerAddress
  split
  · exact (readOnly_raise _).atomic
  · exact atomic_inTransaction _ _ _

end WgMesh.Store
