import WgMesh.AgentSync
import WgMesh.FiniteRuns

namespace WgMesh.Agent

open FiniteRuns NetAddress Server TextScan

/-!
# The agent's own address

`applySelfAssignment` moves the interface to the address of a payload: it adds
the new address, removes the old one, and remembers the new one when both calls
have succeeded.  A failed call ends `applySync`, and the next payload tries
again.

The kernel is Linux as it is documented for the two families.  A call is
refused without a reason of its own, or because it adds an address that is there
or removes one that is not.  IPv4 addresses are told apart by address and
length; the first one of a subnet is primary there, and its removal takes the
others of the subnet along unless `promote_secondaries` is set.  IPv6 addresses
are told apart by the address alone.

When the second call of a replacement is refused, the new address stays on the
interface without being remembered, and adding it again is refused forever.
When no replacement is left half done that way, and the kernel keeps the two
addresses of each replacement apart, what the agent remembers is what the
interface carries, and every payload can be applied.
-/

/-- An address under a bit count, as both libraries print it. -/
def addressText (addr : Addr) (bits : Nat) : String :=
  addr.text ++ "/" ++ String.ofList (Nat.toDigits 10 bits)

/-- `overlayAddress`: an address under the bit count of its network. -/
def overlayAddress (addr : String) (network : Prefix) :
    Except String String :=
  match parseAddr addr with
  | none => .error ("parse overlay address \"" ++ addr ++ "\"")
  | some ip => .ok (addressText ip network.bits)

/-- `netlink.ParseAddr`, of a text without a label. -/
def parseInterfaceAddr (text : String) : Option Prefix :=
  match text.toList.span (· != '/') with
  | (_, []) => none
  | (address, _ :: mask) => do
      let addr ← parseAddr (String.ofList address)
      let count ← dtoi mask
      prefixOf? addr count

/--
The calls of one replacement that the kernel refuses, and whether a removed
primary address takes its secondaries along (`promote_secondaries` is 0).
-/
structure AddressRefusals where
  link : Bool := false
  add : Bool := false
  del : Bool := false
  drops : Bool := false
deriving DecidableEq

/-- The kernel takes one address for another. -/
def sameAddress (addr other : Prefix) : Bool :=
  other.addr == addr.addr &&
    (addr.addr.family == .v6 || other.bits == addr.bits)

/-- Two IPv4 addresses of which the later is secondary. -/
def sameSubnet (addr other : Prefix) : Bool :=
  addr.addr.family == .v4 && other.masked == addr.masked

/-- `netlink.AddrAdd`: an address is on the interface once. -/
def addrAdd (refused : Bool) (addr : Prefix) (addresses : List Prefix) :
    Option (List Prefix) :=
  if refused = true ∨ addresses.any (sameAddress addr) = true then
    none
  else
    some (addresses ++ [addr])

/-- `netlink.AddrDel`. -/
def addrDel (refusals : AddressRefusals) (addr : Prefix)
    (addresses : List Prefix) : Option (List Prefix) :=
  if refusals.del = true ∨ addr ∉ addresses then
    none
  else if refusals.drops = true ∧
      addresses.find? (sameSubnet addr) = some addr then
    some ((addresses.erase addr).filter fun other => !sameSubnet addr other)
  else
    some (addresses.erase addr)

/-- `assignIPAddress`, after the lookup of the interface. -/
def assignAddress (refused : Bool) (cidr : String)
    (addresses : List Prefix) : Except String (List Prefix) :=
  match parseInterfaceAddr cidr with
  | none => .error ("parse CIDR \"" ++ cidr ++ "\"")
  | some addr =>
      match addrAdd refused addr addresses with
      | none => .error ("assign address \"" ++ cidr ++ "\"")
      | some added => .ok added

/-- `assignIPAddress`. -/
def assignIPAddress (ifaceName : String) (refusals : AddressRefusals)
    (cidr : String) (addresses : List Prefix) :
    Except String (List Prefix) :=
  if refusals.link then
    .error ("lookup interface \"" ++ ifaceName ++ "\"")
  else
    assignAddress refusals.add cidr addresses

/-- The first half of `replaceIPAddress`. -/
def addNew (refused : Bool) (newCIDR : String) (addresses : List Prefix) :
    Except String (List Prefix) :=
  if newCIDR = "" then .ok addresses
  else assignAddress refused newCIDR addresses

/-- The second half of `replaceIPAddress`. -/
def removeOld (refusals : AddressRefusals) (oldCIDR : String)
    (addresses : List Prefix) : Except String (List Prefix) :=
  if oldCIDR = "" then
    .ok addresses
  else
    match parseInterfaceAddr oldCIDR with
    | none => .error ("parse old CIDR \"" ++ oldCIDR ++ "\"")
    | some addr =>
        match addrDel refusals addr addresses with
        | none => .error ("remove old address \"" ++ oldCIDR ++ "\"")
        | some removed => .ok removed

/-- `replaceIPAddress`, with the addresses it leaves when it fails. -/
def replaceIPAddress (ifaceName : String) (refusals : AddressRefusals)
    (oldCIDR newCIDR : String) (addresses : List Prefix) :
    Except String Unit × List Prefix :=
  if oldCIDR = newCIDR then
    (.ok (), addresses)
  else if refusals.link then
    (.error ("lookup interface \"" ++ ifaceName ++ "\""), addresses)
  else
    match addNew refusals.add newCIDR addresses with
    | .error text => (.error text, addresses)
    | .ok added =>
        match removeOld refusals oldCIDR added with
        | .error text => (.error text, added)
        | .ok removed => (.ok (), removed)

/-- The fields of the reporter that a payload assigns, and the interface. -/
structure SelfState where
  addresses : List Prefix
  selfAddr : String
  selfAddr6 : String
  network : Option Prefix
  network6 : Option Prefix
deriving DecidableEq

/-- What a payload assigns. -/
structure Assignment where
  network : Prefix
  nextAddr : String
  network6 : Option Prefix
  nextAddr6 : String

/-- The part of `applySelfAssignment` that reads the IPv6 fields. -/
def readNetwork6 (sync : ReportResponse) :
    Except String (Option Prefix × String) :=
  if sync.network6CIDR = "" then
    .ok (none, "")
  else
    match parsePrefix sync.network6CIDR with
    | none =>
        .error
          ("parse synced IPv6 network CIDR \"" ++ sync.network6CIDR ++ "\"")
    | some network6 =>
        if sync.assignedIP6 = "" then
          .ok (some network6, "")
        else
          (overlayAddress sync.assignedIP6 network6).map
            fun nextAddr6 => (some network6, nextAddr6)

/-- The part of `applySelfAssignment` that reads the payload; without an
address or a network there is nothing to do. -/
def readAssignment (sync : ReportResponse) :
    Except String (Option Assignment) :=
  if sync.assignedIP = "" ∨ sync.networkCIDR = "" then
    .ok none
  else
    match parsePrefix sync.networkCIDR with
    | none =>
        .error ("parse synced network CIDR \"" ++ sync.networkCIDR ++ "\"")
    | some network =>
        match overlayAddress sync.assignedIP network with
        | .error text => .error text
        | .ok nextAddr =>
            (readNetwork6 sync).map fun second =>
              some
                { network
                  nextAddr
                  network6 := second.1
                  nextAddr6 := second.2 }

/-- The change of one of the two addresses: the outcome, the address that is
remembered and those of the interface. -/
def adopt (ifaceName : String) (refusals : AddressRefusals)
    (current next : String) (addresses : List Prefix) :
    Except String Unit × String × List Prefix :=
  if next = current then
    (.ok (), current, addresses)
  else
    match replaceIPAddress ifaceName refusals current next addresses with
    | (.error text, left) => (.error text, current, left)
    | (.ok _, changed) => (.ok (), next, changed)

/-- A payload, with the calls that are refused for each address.  A call that
is not made counts as not refused. -/
structure AddressSync where
  sync : ReportResponse
  first : AddressRefusals
  second : AddressRefusals

/-- `applySelfAssignment`. -/
def applySelfAssignment (ifaceName : String) (input : AddressSync)
    (state : SelfState) : Except String Unit × SelfState :=
  match readAssignment input.sync with
  | .error text => (.error text, state)
  | .ok none => (.ok (), state)
  | .ok (some assignment) =>
      let first :=
        adopt ifaceName input.first state.selfAddr assignment.nextAddr
          state.addresses
      let moved :=
        { state with selfAddr := first.2.1, addresses := first.2.2 }
      match first.1 with
      | .error text => (.error text, moved)
      | .ok _ =>
          let second :=
            adopt ifaceName input.second moved.selfAddr6
              assignment.nextAddr6 moved.addresses
          let both :=
            { moved with selfAddr6 := second.2.1, addresses := second.2.2 }
          match second.1 with
          | .error text => (.error text, both)
          | .ok _ =>
              (.ok (),
                { both with
                  network := some assignment.network
                  network6 := assignment.network6 })

/-- The payloads of a reporter, one after the other. -/
def addressing (ifaceName : String) :
    Machine SelfState AddressSync (Except String Unit) where
  step := fun state input => applySelfAssignment ifaceName input state

/-- The IPv6 fields of the enrolment. -/
def enrolledNetwork6 (resp : EnrollResponse) :
    Except String (Option Prefix × String) :=
  if resp.network6CIDR = "" then
    .ok (none, "")
  else
    match parsePrefix resp.network6CIDR with
    | none =>
        .error
          ("parse IPv6 network CIDR \"" ++ resp.network6CIDR ++
            "\" from server")
    | some network6 =>
        (overlayAddress resp.assignedIP6 network6).map
          fun overlayAddr6 => (some network6, overlayAddr6)

/-- The addresses of `startupState` and `setupInterface`: the interface is new,
and a refused call ends the start. -/
def startAddresses (ifaceName : String) (first second : AddressRefusals)
    (resp : EnrollResponse) : Except String SelfState :=
  match parsePrefix resp.networkCIDR with
  | none =>
      .error
        ("parse network CIDR \"" ++ resp.networkCIDR ++ "\" from server")
  | some network => do
      let overlayAddr ← overlayAddress resp.assignedIP network
      let (network6, overlayAddr6) ← enrolledNetwork6 resp
      let assigned ← assignIPAddress ifaceName first overlayAddr []
      let addresses ←
        (if overlayAddr6 = "" then .ok assigned
        else assignIPAddress ifaceName second overlayAddr6 assigned)
      .ok
        { addresses
          selfAddr := overlayAddr
          selfAddr6 := overlayAddr6
          network := some network
          network6 }

theorem parseInterfaceAddr_addressText
    {addr : Addr}
    (zoneFree : addr.zone = "")
    (bits : Nat) :
    parseInterfaceAddr (addressText addr bits) = prefixOf? addr bits := by
  unfold parseInterfaceAddr addressText
  rw [span_addressText zoneFree]
  simp [parseAddr_text zoneFree, dtoi, readNumber?_toDigits]

theorem addressText_ne_empty
    (addr : Addr)
    (bits : Nat) :
    addressText addr bits ≠ "" := by
  intro isEmpty
  have noChars := congrArg String.toList isEmpty
  simp [addressText] at noChars

/-- The address the agent remembers, empty for none. -/
def ownText : Option Prefix → String
  | none => ""
  | some own => own.text

/-- An address of a family, without a zone. -/
def ProperIn (family : Family) (addr : Addr) : Prop :=
  addr.family = family ∧ addr.zone = ""

/-- The addresses of a family. -/
def ofFamily (family : Family) (addresses : List Prefix) : List Prefix :=
  addresses.filter fun own => decide (own.addr.family = family)

/-- The agent remembers the address of a family that the interface carries. -/
structure Held (family : Family) (current : String)
    (addresses : List Prefix) (own : Option Prefix) : Prop where
  current : current = ownText own
  proper : ∀ addr ∈ own, ProperIn family addr.addr
  carried : ofFamily family addresses = own.toList

/-- The kernel keeps the new address of a replacement apart from the old. -/
structure AddressRefusals.Separates (refusals : AddressRefusals)
    (old new : Prefix) : Prop where
  distinct : sameAddress new old = false
  apart : refusals.drops = true → sameSubnet old new = false

/-- It does so for the addresses of two texts that differ. -/
def AddressRefusals.Exchanges (refusals : AddressRefusals)
    (current next : String) : Prop :=
  next ≠ current → ∀ old new,
    parseInterfaceAddr current = some old →
    parseInterfaceAddr next = some new →
      refusals.Separates old new

section Held

variable
  {family : Family}
  {current next ifaceName : String}
  {addresses added : List Prefix}
  {own new : Option Prefix}
  {refusals : AddressRefusals}

variable {addr : Prefix}

theorem parseInterfaceAddr_text
    (proper : ProperIn family addr.addr) :
    parseInterfaceAddr addr.text = some addr := by
  change parseInterfaceAddr (addressText addr.addr addr.bits) = some addr
  rw [parseInterfaceAddr_addressText proper.2]
  exact prefixOf?_self proper.2

/-- Proper addresses with one text are one. -/
theorem ownText_injective
    {first second : Option Prefix}
    (properFirst : ∀ addr ∈ first, ProperIn family addr.addr)
    (properSecond : ∀ addr ∈ second, ProperIn family addr.addr)
    (same : ownText first = ownText second) :
    first = second := by
  cases first with
  | none =>
      cases second with
      | none => rfl
      | some addr =>
          exact (addressText_ne_empty addr.addr addr.bits same.symm).elim
  | some addr =>
      cases second with
      | none => exact (addressText_ne_empty addr.addr addr.bits same).elim
      | some other =>
          have read := parseInterfaceAddr_text (properFirst addr rfl)
          rw [show addr.text = other.text from same,
            parseInterfaceAddr_text (properSecond other rfl)] at read
          exact read.symm

/-- An address that is added is a proper one that was not there. -/
theorem addNew_ok
    {refused : Bool}
    (shape :
      next = "" ∨
        ∃ ip bits, next = addressText ip bits ∧ ProperIn family ip)
    (isOk : addNew refused next addresses = .ok added) :
    ∃ new : Option Prefix,
      next = ownText new ∧
        (∀ addr ∈ new, ProperIn family addr.addr) ∧
        (next ≠ "" → refused = false) ∧
        added = addresses ++ new.toList := by
  unfold addNew assignAddress at isOk
  rcases shape with rfl | ⟨ip, bits, rfl, proper⟩
  · simp only [↓reduceIte, Except.ok.injEq] at isOk
    refine ⟨none, rfl, ?_, fun isFull => (isFull rfl).elim, ?_⟩
    · intro addr member
      cases member
    · simp [isOk]
  · rw [if_neg (addressText_ne_empty ip bits),
      parseInterfaceAddr_addressText proper.2] at isOk
    cases read : prefixOf? ip bits with
    | none =>
        rw [read] at isOk
        cases isOk
    | some addr =>
        have parts : addr.addr = ip ∧ addr.bits = bits := by
          unfold prefixOf? at read
          split at read
          · cases read
            exact ⟨rfl, rfl⟩
          · cases read
        obtain ⟨rfl, rfl⟩ := parts
        rw [read] at isOk
        simp only [addrAdd] at isOk
        split at isOk
        · cases isOk
        · rename_i isAdded
          split at isAdded
          · cases isAdded
          · rename_i allowed
            cases isAdded
            cases isOk
            refine ⟨some addr, rfl, ?_, ?_, rfl⟩
            · intro other member
              cases member
              exact proper
            · intro _
              cases refused with
              | false => rfl
              | true => exact (allowed (Or.inl rfl)).elim

/-- What is remembered is removed, unless the call is refused. -/
theorem removeOld_own
    (proper : ∀ addr ∈ own, ProperIn family addr.addr)
    (present : ∀ addr ∈ own, addr ∈ added)
    (apart :
      refusals.drops = true →
        ∀ addr ∈ own, ∀ other, other ∈ added.diff own.toList →
          sameSubnet addr other = false)
    (granted : refusals.del = false) :
    removeOld refusals (ownText own) added =
      .ok (added.diff own.toList) := by
  cases own with
  | none => rfl
  | some addr =>
      have isFull : addr.text ≠ "" := addressText_ne_empty _ _
      have deleted :
          addrDel refusals addr added = some (added.erase addr) := by
        rw [addrDel, if_neg (by simp [granted, present addr rfl])]
        split
        · rename_i drops
          rw [List.filter_eq_self.mpr]
          intro other member
          rw [apart drops.1 addr rfl other (by simpa using member)]
          rfl
        · rfl
      simp [removeOld, ownText, isFull,
        parseInterfaceAddr_text (proper addr rfl), deleted]

/-- A refused removal leaves an address that is remembered. -/
theorem removeOld_refused
    (held : Held family current addresses own)
    (refused : refusals.del = true) :
    removeOld refusals current added =
      if current = "" then .ok added
      else .error ("remove old address \"" ++ current ++ "\"") := by
  unfold removeOld
  split
  · rfl
  · rename_i isFull
    cases own with
    | none => exact (isFull held.current).elim
    | some addr =>
        rw [held.current, show ownText (some addr) = addr.text from rfl,
          parseInterfaceAddr_text (held.proper addr rfl)]
        simp [addrDel, refused]

theorem ofFamily_append
    (first second : List Prefix) :
    ofFamily family (first ++ second) =
      ofFamily family first ++ ofFamily family second :=
  List.filter_append ..

theorem ofFamily_diff
    (own : Option Prefix) :
    ofFamily family (added.diff own.toList) =
      (ofFamily family added).diff own.toList := by
  cases own with
  | none => rfl
  | some addr =>
      simp only [Option.toList_some, List.diff_cons, List.diff_nil]
      exact List.erase_filter.symm

/-- Addresses of another family are not of this one. -/
theorem ofFamily_other
    {other : Family}
    (different : other ≠ family)
    (proper : ∀ addr ∈ own, ProperIn family addr.addr) :
    ofFamily other own.toList = [] := by
  cases own with
  | none => rfl
  | some addr =>
      have isOther : addr.addr.family ≠ other := by
        rw [(proper addr rfl).1]
        exact different.symm
      simp [ofFamily, isOther]

theorem ofFamily_own
    (proper : ∀ addr ∈ own, ProperIn family addr.addr) :
    ofFamily family own.toList = own.toList := by
  cases own with
  | none => rfl
  | some addr => simp [ofFamily, (proper addr rfl).1]

theorem Held.present
    (held : Held family current addresses own) :
    ∀ addr ∈ own, addr ∈ addresses := by
  intro addr member
  have inFamily : addr ∈ ofFamily family addresses := by
    rw [held.carried]
    exact Option.mem_toList.mpr member
  exact (List.mem_filter.mp inFamily).1

theorem Held.separates
    (held : Held family current addresses own)
    (proper : ∀ addr ∈ new, ProperIn family addr.addr)
    (exchanges : refusals.Exchanges current (ownText new))
    (differs : ownText new ≠ current)
    {old : Prefix}
    (isOwn : old ∈ own)
    (isNew : addr ∈ new) :
    refusals.Separates old addr := by
  refine exchanges differs old addr ?_ ?_
  · rw [held.current, Option.mem_def.mp isOwn]
    exact parseInterfaceAddr_text (held.proper old isOwn)
  · rw [Option.mem_def.mp isNew]
    exact parseInterfaceAddr_text (proper addr isNew)

/-- No address stays behind that the removal of the old one takes along. -/
theorem Held.apart
    (held : Held family current addresses own)
    (separates :
      ∀ old ∈ own, ∀ addr ∈ new, refusals.Separates old addr)
    (drops : refusals.drops = true)
    {old other : Prefix}
    (isOwn : old ∈ own)
    (member : other ∈ (addresses ++ new.toList).diff own.toList) :
    sameSubnet old other = false := by
  rw [Bool.eq_false_iff]
  intro same
  have masks : other.masked = old.masked :=
    eq_of_beq (Bool.and_eq_true_iff.mp same).2
  have inFamily : other.addr.family = family :=
    (congrArg (fun mask => mask.addr.family) masks).trans
      (held.proper old isOwn).1
  have remains :
      other ∈ ofFamily family
        ((addresses ++ new.toList).diff own.toList) :=
    List.mem_filter.mpr ⟨member, decide_eq_true inFamily⟩
  cases Option.mem_def.mp isOwn
  rw [ofFamily_diff, ofFamily_append, held.carried] at remains
  have isNew : other ∈ new := by
    have rest : other ∈ ofFamily family new.toList := by
      simpa using remains
    exact Option.mem_toList.mp (List.mem_filter.mp rest).1
  rw [(separates old rfl other isNew).apart drops] at same
  cases same

/-- A replacement whose removal does not fail alone either changes nothing or
puts the new address in the place of the old one. -/
theorem adopt_cases
    (held : Held family current addresses own)
    (shape :
      next = "" ∨
        ∃ ip bits, next = addressText ip bits ∧ ProperIn family ip)
    (undivided :
      refusals.del = true →
        refusals.link = true ∨ refusals.add = true ∨ next = "")
    (exchanges : refusals.Exchanges current next) :
    (adopt ifaceName refusals current next addresses).2 =
        (current, addresses) ∨
      ∃ new : Option Prefix,
        next = ownText new ∧
          (∀ addr ∈ new, ProperIn family addr.addr) ∧
          adopt ifaceName refusals current next addresses =
            (.ok (), next, (addresses ++ new.toList).diff own.toList) := by
  unfold adopt replaceIPAddress
  by_cases same : next = current
  · exact Or.inl (by rw [if_pos same])
  rw [if_neg same, if_neg (Ne.symm same)]
  cases link : refusals.link with
  | true => exact Or.inl rfl
  | false =>
      cases adds : addNew refusals.add next addresses with
      | error text => exact Or.inl rfl
      | ok added =>
          obtain ⟨new, isNew, properNew, granted, rfl⟩ :=
            addNew_ok shape adds
          have present :
              ∀ addr ∈ own, addr ∈ addresses ++ new.toList :=
            fun addr member =>
              List.mem_append_left _ (held.present addr member)
          cases refused : refusals.del with
          | false =>
              refine Or.inr ⟨new, isNew, properNew, ?_⟩
              have removed :=
                removeOld_own held.proper present
                  (fun drops old isOwn other member =>
                    held.apart
                      (fun _ isOwn _ =>
                        held.separates properNew (isNew ▸ exchanges)
                          (isNew ▸ same) isOwn)
                      drops isOwn member)
                  refused
              rw [← held.current] at removed
              simp [removed]
          | true =>
              -- The address to add is empty, so the one to remove is not.
              have nothing : next = "" := by
                by_contra isFull
                rcases undivided refused with failed | failed | isEmpty
                · rw [failed] at link
                  cases link
                · rw [granted isFull] at failed
                  cases failed
                · exact isFull isEmpty
              have noNew : new.toList = [] := by
                cases new with
                | none => rfl
                | some addr =>
                    rw [isNew] at nothing
                    exact (addressText_ne_empty _ _ nothing).elim
              have isFull : current ≠ "" := by
                rw [nothing] at same
                exact Ne.symm same
              refine Or.inl ?_
              simp [removeOld_refused held refused, isFull, noNew]

/-- A replacement keeps what is remembered of a family, and the addresses of
the other. -/
theorem Held.kept
    (held : Held family current addresses own)
    (shape :
      next = "" ∨
        ∃ ip bits, next = addressText ip bits ∧ ProperIn family ip)
    (undivided :
      refusals.del = true →
        refusals.link = true ∨ refusals.add = true ∨ next = "")
    (exchanges : refusals.Exchanges current next) :
    (∃ new,
        Held family (adopt ifaceName refusals current next addresses).2.1
          (adopt ifaceName refusals current next addresses).2.2 new) ∧
      ∀ other, other ≠ family →
        ofFamily other
            (adopt ifaceName refusals current next addresses).2.2 =
          ofFamily other addresses := by
  rcases adopt_cases held shape undivided exchanges with
    unchanged | ⟨new, isNew, properNew, changed⟩
  · rw [unchanged]
    exact ⟨⟨own, held⟩, fun _ _ => rfl⟩
  · rw [changed]
    refine ⟨⟨new, isNew, properNew, ?_⟩, ?_⟩
    · rw [ofFamily_diff, ofFamily_append, held.carried, ofFamily_own properNew]
      cases own with
      | none => rfl
      | some addr => simp
    · intro other different
      have absent : own.toList.Disjoint (ofFamily other addresses) := by
        intro addr member inOther
        have isOther := (List.mem_filter.mp inOther).2
        rw [decide_eq_true_eq,
          (held.proper addr (Option.mem_toList.mp member)).1] at isOther
        exact different isOther.symm
      rw [ofFamily_diff, ofFamily_append, ofFamily_other different properNew,
        List.append_nil]
      cases own with
      | none => rfl
      | some addr =>
          simp only [Option.toList_some, List.diff_cons, List.diff_nil]
          exact List.erase_of_not_mem
            fun inOther => absent List.mem_cons_self inOther

/-- An address that is kept apart from the one it replaces can be added. -/
theorem Held.fresh
    (held : Held family current addresses own)
    (separates :
      ∀ old ∈ own, ∀ addr ∈ new, refusals.Separates old addr)
    (proper : ∀ addr ∈ new, ProperIn family addr.addr)
    (isNew : addr ∈ new) :
    addresses.any (sameAddress addr) = false := by
  rw [Bool.eq_false_iff]
  intro taken
  obtain ⟨other, member, same⟩ := List.any_eq_true.mp taken
  have sameAddr : other.addr = addr.addr :=
    eq_of_beq (Bool.and_eq_true_iff.mp same).1
  have inFamily : other ∈ ofFamily family addresses :=
    List.mem_filter.mpr
      ⟨member, decide_eq_true (sameAddr ▸ (proper addr isNew).1)⟩
  rw [held.carried, Option.mem_toList] at inFamily
  rw [(separates other inFamily addr isNew).distinct] at same
  cases same

/-- Without a refusal the address of a payload is adopted. -/
theorem Held.adopted
    (held : Held family current addresses own)
    (proper : ∀ addr ∈ new, ProperIn family addr.addr)
    (exchanges : refusals.Exchanges current (ownText new))
    (granted :
      refusals.link = false ∧ refusals.add = false ∧
        refusals.del = false) :
    (adopt ifaceName refusals current (ownText new) addresses).1 =
        .ok () ∧
      (adopt ifaceName refusals current (ownText new) addresses).2.1 =
        ownText new := by
  unfold adopt replaceIPAddress
  by_cases same : ownText new = current
  · rw [if_pos same]
    exact ⟨rfl, same.symm⟩
  rw [if_neg same, if_neg (Ne.symm same)]
  have separates :
      ∀ old ∈ own, ∀ addr, addr ∈ new →
        refusals.Separates old addr :=
    fun _ isOwn _ => held.separates proper exchanges same isOwn
  have adds :
      addNew false (ownText new) addresses =
        .ok (addresses ++ new.toList) := by
    cases new with
    | none => simp [addNew, ownText]
    | some addr =>
        have isFull : addr.text ≠ "" := addressText_ne_empty _ _
        simp [addNew, assignAddress, ownText, isFull, addrAdd,
          parseInterfaceAddr_text (proper addr rfl),
          held.fresh separates proper rfl]
  have removes :=
    removeOld_own held.proper
      (fun addr member =>
        List.mem_append_left new.toList (held.present addr member))
      (fun drops _ isOwn _ => held.apart separates drops isOwn)
      granted.2.2
  rw [← held.current] at removes
  simp [granted.1, granted.2.1, adds, removes]

end Held

/-- The agent remembers the addresses that the interface carries. -/
structure SelfState.Carried (state : SelfState) : Prop where
  first : ∃ own, Held .v4 state.selfAddr state.addresses own
  second : ∃ own, Held .v6 state.selfAddr6 state.addresses own

/-- The addresses of a payload are of their families. -/
structure AddressSync.Proper (input : AddressSync) : Prop where
  first :
    ∀ ip, parseAddr input.sync.assignedIP = some ip → ProperIn .v4 ip
  second :
    input.sync.network6CIDR ≠ "" →
      ∀ ip, parseAddr input.sync.assignedIP6 = some ip → ProperIn .v6 ip

/-- No removal is refused after the addition of the same replacement. -/
structure AddressSync.Undivided (input : AddressSync) : Prop where
  first :
    input.first.del = true →
      input.first.link = true ∨ input.first.add = true
  second :
    input.second.del = true →
      input.second.link = true ∨ input.second.add = true ∨
        input.sync.assignedIP6 = "" ∨ input.sync.network6CIDR = ""

/-- The kernel keeps the addresses apart that a payload exchanges. -/
def AddressSync.Separable (input : AddressSync) (state : SelfState) : Prop :=
  ∀ assignment, readAssignment input.sync = .ok (some assignment) →
    input.first.Exchanges state.selfAddr assignment.nextAddr ∧
      input.second.Exchanges state.selfAddr6 assignment.nextAddr6

/-- A payload assigns one address and at most one IPv6 address. -/
structure Assigns (sync : ReportResponse) (first : Prefix)
    (second : Option Prefix) : Prop where
  proper : ProperIn .v4 first.addr
  address : parseAddr sync.assignedIP = some first.addr
  network :
    ∃ network,
      parsePrefix sync.networkCIDR = some network ∧
        network.bits = first.bits
  proper6 : ∀ addr ∈ second, ProperIn .v6 addr.addr
  absent :
    second = none →
      sync.network6CIDR = "" ∨
        (parsePrefix sync.network6CIDR).isSome = true ∧
          sync.assignedIP6 = ""
  assigned :
    ∀ addr, addr ∈ second →
      parseAddr sync.assignedIP6 = some addr.addr ∧
        ∃ network6,
          parsePrefix sync.network6CIDR = some network6 ∧
            network6.bits = addr.bits

section Assignments

variable
  {ifaceName : String}
  {state : SelfState}
  {input : AddressSync}

theorem overlayAddress_ok
    {addr next : String}
    {network : Prefix}
    (isOk : overlayAddress addr network = .ok next) :
    ∃ ip, parseAddr addr = some ip ∧ next = addressText ip network.bits := by
  unfold overlayAddress at isOk
  split at isOk
  · cases isOk
  · rename_i ip read
    cases isOk
    exact ⟨ip, read, rfl⟩

variable {sync : ReportResponse} {first : Prefix} {second : Option Prefix}

/-- The IPv6 address that is read is empty or one of the payload. -/
theorem readNetwork6_ok
    {second : Option Prefix × String}
    (isOk : readNetwork6 sync = .ok second) :
    second.2 = "" ∨
      sync.assignedIP6 ≠ "" ∧ sync.network6CIDR ≠ "" ∧
        ∃ ip bits,
          parseAddr sync.assignedIP6 = some ip ∧
            second.2 = addressText ip bits := by
  unfold readNetwork6 at isOk
  split at isOk
  · cases isOk
    exact Or.inl rfl
  · rename_i hasNetwork
    split at isOk
    · cases isOk
    · rename_i network6 _
      split at isOk
      · cases isOk
        exact Or.inl rfl
      · rename_i hasAddress
        cases read : overlayAddress sync.assignedIP6 network6 with
        | error text =>
            rw [read] at isOk
            cases isOk
        | ok next =>
            rw [read] at isOk
            cases isOk
            obtain ⟨ip, parsed, shape⟩ := overlayAddress_ok read
            exact Or.inr ⟨hasAddress, hasNetwork, ip, _, parsed, shape⟩

/-- The addresses that are read are those of the payload. -/
theorem readAssignment_ok
    {assignment : Assignment}
    (isOk : readAssignment sync = .ok (some assignment)) :
    (∃ ip bits,
        parseAddr sync.assignedIP = some ip ∧
          assignment.nextAddr = addressText ip bits) ∧
      readNetwork6 sync =
        .ok (assignment.network6, assignment.nextAddr6) := by
  unfold readAssignment at isOk
  split at isOk
  · cases isOk
  · split at isOk
    · cases isOk
    · split at isOk
      · cases isOk
      · rename_i next read
        obtain ⟨ip, parsed, shape⟩ := overlayAddress_ok read
        cases second : readNetwork6 sync with
        | error text =>
            rw [second] at isOk
            cases isOk
        | ok both =>
            rw [second] at isOk
            cases isOk
            exact ⟨⟨ip, _, parsed, shape⟩, rfl⟩

theorem Held.of_sameFamily
    {family : Family}
    {current : String}
    {addresses changed : List Prefix}
    {own : Option Prefix}
    (held : Held family current addresses own)
    (same : ofFamily family changed = ofFamily family addresses) :
    Held family current changed own :=
  ⟨held.current, held.proper, same.trans held.carried⟩

/-- One payload keeps the addresses carried. -/
theorem SelfState.Carried.step
    (carried : state.Carried)
    (proper : input.Proper)
    (undivided : input.Undivided)
    (separable : input.Separable state) :
    (applySelfAssignment ifaceName input state).2.Carried := by
  obtain ⟨⟨own, held⟩, ⟨own6, held6⟩⟩ := carried
  unfold applySelfAssignment
  split
  · exact ⟨⟨own, held⟩, ⟨own6, held6⟩⟩
  · exact ⟨⟨own, held⟩, ⟨own6, held6⟩⟩
  · rename_i assignment read
    obtain ⟨⟨ip, bits, parsed, shape⟩, read6⟩ := readAssignment_ok read
    obtain ⟨⟨new, heldNew⟩, others⟩ :=
      @Held.kept _ _ assignment.nextAddr ifaceName _ _ input.first held
        (Or.inr ⟨ip, bits, shape, proper.first ip parsed⟩)
        (fun refused => (undivided.first refused).imp id Or.inl)
        (separable assignment read).1
    have held6 := held6.of_sameFamily (others .v6 (by decide))
    dsimp only
    split
    · exact ⟨⟨new, heldNew⟩, ⟨own6, held6⟩⟩
    · obtain ⟨⟨new6, heldNew6⟩, others6⟩ :=
        @Held.kept _ _ assignment.nextAddr6 ifaceName _ _ input.second
          held6
          (by
            refine (readNetwork6_ok read6).imp id ?_
            rintro ⟨-, hasNetwork, ip6, bits6, parsed6, shape6⟩
            exact ⟨ip6, bits6, shape6,
              proper.second hasNetwork ip6 parsed6⟩)
          (by
            intro refused
            refine (undivided.second refused).imp id (Or.imp id ?_)
            intro isEmpty
            refine (readNetwork6_ok read6).elim id ?_
            rintro ⟨hasAddress, hasNetwork, -⟩
            exact (isEmpty.elim hasAddress hasNetwork).elim)
          (separable assignment read).2
      have heldNew := heldNew.of_sameFamily (others6 .v4 (by decide))
      split
      · exact ⟨⟨new, heldNew⟩, ⟨new6, heldNew6⟩⟩
      · exact ⟨⟨new, heldNew⟩, ⟨new6, heldNew6⟩⟩

/-- What is assigned at the start is a proper address. -/
theorem assignIPAddress_ok
    {family : Family}
    {refusals : AddressRefusals}
    {ip : Addr}
    {bits : Nat}
    {addresses added : List Prefix}
    (proper : ProperIn family ip)
    (isOk :
      assignIPAddress ifaceName refusals (addressText ip bits) addresses =
        .ok added) :
    ∃ new : Option Prefix,
      addressText ip bits = ownText new ∧
        (∀ addr ∈ new, ProperIn family addr.addr) ∧
        added = addresses ++ new.toList := by
  unfold assignIPAddress at isOk
  split at isOk
  · cases isOk
  · have adds :
        addNew refusals.add (addressText ip bits) addresses =
          .ok added := by
      unfold addNew
      rw [if_neg (addressText_ne_empty ip bits)]
      exact isOk
    obtain ⟨new, isNew, properNew, -, shape⟩ :=
      addNew_ok (Or.inr ⟨ip, bits, rfl, proper⟩) adds
    exact ⟨new, isNew, properNew, shape⟩

/-- The IPv6 address of the enrolment is absent or that of the response. -/
theorem enrolledNetwork6_ok
    {resp : EnrollResponse}
    {second : Option Prefix × String}
    (isOk : enrolledNetwork6 resp = .ok second) :
    second.2 = "" ∨
      ∃ ip bits,
        parseAddr resp.assignedIP6 = some ip ∧
          second.2 = addressText ip bits := by
  unfold enrolledNetwork6 at isOk
  split at isOk
  · cases isOk
    exact Or.inl rfl
  · split at isOk
    · cases isOk
    · rename_i network6 _
      cases read : overlayAddress resp.assignedIP6 network6 with
      | error text =>
          rw [read] at isOk
          cases isOk
      | ok next =>
          rw [read] at isOk
          cases isOk
          obtain ⟨ip, parsed, shape⟩ := overlayAddress_ok read
          exact Or.inr ⟨ip, _, parsed, shape⟩

private theorem ok_of_bind
    {First Second : Type}
    {call : Except String First}
    {next : First → Except String Second}
    {result : Second}
    (isOk : call >>= next = .ok result) :
    ∃ value, call = .ok value ∧ next value = .ok result := by
  cases call with
  | error text => cases isOk
  | ok value => exact ⟨value, rfl, isOk⟩

/-- The start leaves the addresses carried. -/
theorem carried_startAddresses
    {first second : AddressRefusals}
    {resp : EnrollResponse}
    (proper :
      ∀ ip, parseAddr resp.assignedIP = some ip → ProperIn .v4 ip)
    (proper6 :
      ∀ ip, parseAddr resp.assignedIP6 = some ip → ProperIn .v6 ip)
    (started : startAddresses ifaceName first second resp = .ok state) :
    state.Carried := by
  unfold startAddresses at started
  split at started
  · cases started
  obtain ⟨overlayAddr, read, started⟩ := ok_of_bind started
  obtain ⟨both, read6, started⟩ := ok_of_bind started
  obtain ⟨assigned, assigns, started⟩ := ok_of_bind started
  obtain ⟨addresses, assigns6, started⟩ := ok_of_bind started
  cases started
  obtain ⟨ip, parsed, rfl⟩ := overlayAddress_ok read
  obtain ⟨own, isOwn, properOwn, rfl⟩ :=
    assignIPAddress_ok (proper ip parsed) assigns
  have other6 := @ofFamily_other _ _ .v6 (by decide) properOwn
  rcases enrolledNetwork6_ok read6 with
    isEmpty | ⟨ip6, bits6, parsed6, shape6⟩
  · rw [if_pos isEmpty] at assigns6
    cases assigns6
    refine ⟨⟨own, isOwn, properOwn, ofFamily_own properOwn⟩,
      ⟨none, isEmpty, ?_, other6⟩⟩
    intro addr member
    cases member
  · rw [shape6, if_neg (addressText_ne_empty ip6 bits6)] at assigns6
    obtain ⟨own6, isOwn6, properOwn6, rfl⟩ :=
      assignIPAddress_ok (proper6 ip6 parsed6) assigns6
    have other := @ofFamily_other _ _ .v4 (by decide) properOwn6
    refine ⟨⟨own, isOwn, properOwn, ?_⟩,
      ⟨own6, shape6.trans isOwn6, properOwn6, ?_⟩⟩
    · dsimp only
      rw [List.nil_append, ofFamily_append, ofFamily_own properOwn, other,
        List.append_nil]
    · dsimp only
      rw [List.nil_append, ofFamily_append, other6,
        ofFamily_own properOwn6, List.nil_append]

/-- The assignment of a payload is read as it is. -/
theorem Assigns.read
    (assigns : Assigns sync first second) :
    ∃ assignment,
      readAssignment sync = .ok (some assignment) ∧
        assignment.nextAddr = ownText (some first) ∧
        assignment.nextAddr6 = ownText second := by
  obtain ⟨network, readNetwork, sameBits⟩ := assigns.network
  have hasAddress : sync.assignedIP ≠ "" := by
    intro isEmpty
    have unread := assigns.address
    rw [isEmpty] at unread
    cases unread
  have hasNetwork : sync.networkCIDR ≠ "" := by
    intro isEmpty
    rw [isEmpty] at readNetwork
    cases readNetwork
  have read6 :
      ∃ network6, readNetwork6 sync = .ok (network6, ownText second) := by
    unfold readNetwork6
    cases second with
    | none =>
        rcases assigns.absent rfl with noNetwork | ⟨isRead, noAddress⟩
        · exact ⟨none, by rw [if_pos noNetwork]; rfl⟩
        · by_cases noNetwork : sync.network6CIDR = ""
          · exact ⟨none, by rw [if_pos noNetwork]; rfl⟩
          · obtain ⟨network6, readNetwork6⟩ :=
              Option.isSome_iff_exists.mp isRead
            refine ⟨some network6, ?_⟩
            simp [noNetwork, readNetwork6, noAddress, ownText]
    | some addr =>
        obtain ⟨readAddress, network6, readNetwork6, sameBits6⟩ :=
          assigns.assigned addr rfl
        have hasNetwork6 : sync.network6CIDR ≠ "" := by
          intro isEmpty
          rw [isEmpty] at readNetwork6
          cases readNetwork6
        have hasAddress6 : sync.assignedIP6 ≠ "" := by
          intro isEmpty
          rw [isEmpty] at readAddress
          cases readAddress
        refine ⟨some network6, ?_⟩
        simp [hasNetwork6, readNetwork6, hasAddress6, overlayAddress,
          readAddress, sameBits6, Except.map, ownText]
        rfl
  obtain ⟨network6, read6⟩ := read6
  refine ⟨⟨network, first.text, network6, ownText second⟩, ?_, rfl, rfl⟩
  simp [readAssignment, hasAddress, hasNetwork, readNetwork,
    overlayAddress, assigns.address, sameBits, read6, Except.map]
  rfl

/-- A payload that assigns addresses is proper. -/
theorem Assigns.proper_input
    (assigns : Assigns sync first second)
    (refusals refusals6 : AddressRefusals) :
    AddressSync.Proper ⟨sync, refusals, refusals6⟩ := by
  refine ⟨?_, ?_⟩
  · intro ip parsed
    rw [assigns.address] at parsed
    cases parsed
    exact assigns.proper
  · intro hasNetwork ip parsed
    cases second with
    | none =>
        rcases assigns.absent rfl with noNetwork | ⟨-, noAddress⟩
        · exact (hasNetwork noNetwork).elim
        · rw [show sync.assignedIP6 = "" from noAddress] at parsed
          cases parsed
    | some addr =>
        rw [(assigns.assigned addr rfl).1] at parsed
        cases parsed
        exact assigns.proper6 addr rfl

theorem Assigns.separable
    (assigns : Assigns input.sync first second)
    (exchanges : input.first.Exchanges state.selfAddr first.text)
    (exchanges6 :
      input.second.Exchanges state.selfAddr6 (ownText second)) :
    input.Separable state := by
  obtain ⟨assignment, read, isFirst, isSecond⟩ := assigns.read
  intro other readOther
  rw [read] at readOther
  cases readOther
  rw [isFirst, isSecond]
  exact ⟨exchanges, exchanges6⟩

/-- The interface carries what is remembered, and nothing else. -/
theorem SelfState.Carried.mem_addresses
    (carried : state.Carried)
    {first : Option Prefix}
    (proper : ∀ addr ∈ first, ProperIn .v4 addr.addr)
    (proper6 : ∀ addr ∈ second, ProperIn .v6 addr.addr)
    (isFirst : state.selfAddr = ownText first)
    (isSecond : state.selfAddr6 = ownText second)
    (addr : Prefix) :
    addr ∈ state.addresses ↔ first = some addr ∨ second = some addr := by
  obtain ⟨⟨own, held⟩, ⟨own6, held6⟩⟩ := carried
  obtain rfl : own = first :=
    ownText_injective held.proper proper (held.current.symm.trans isFirst)
  obtain rfl : own6 = second :=
    ownText_injective held6.proper proper6
      (held6.current.symm.trans isSecond)
  have ofItsFamily :
      ∀ family,
        addr ∈ ofFamily family state.addresses ↔
          addr ∈ state.addresses ∧ addr.addr.family = family := by
    intro family
    simp [ofFamily]
  have inFirst := ofItsFamily .v4
  have inSecond := ofItsFamily .v6
  rw [held.carried, Option.mem_toList] at inFirst
  rw [held6.carried, Option.mem_toList] at inSecond
  rw [inFirst, inSecond]
  cases addr.addr.family with
  | v4 => simp
  | v6 => simp

/-- When the addresses are carried, a payload is adopted as soon as no call is
refused. -/
theorem SelfState.Carried.adopts
    (carried : state.Carried)
    {first : Prefix}
    {second : Option Prefix}
    (assigns : Assigns input.sync first second)
    {drops : Bool}
    (granted : input.first = { drops })
    (granted6 : input.second = {})
    (separable : input.Separable state) :
    (applySelfAssignment ifaceName input state).1 = .ok () ∧
      (applySelfAssignment ifaceName input state).2.selfAddr =
        first.text ∧
      (applySelfAssignment ifaceName input state).2.selfAddr6 =
        ownText second := by
  obtain ⟨⟨own, held⟩, ⟨own6, held6⟩⟩ := carried
  obtain ⟨assignment, read, isFirst, isSecond⟩ := assigns.read
  have proper : ∀ addr ∈ some first, ProperIn .v4 addr.addr := by
    intro addr member
    cases member
    exact assigns.proper
  obtain ⟨-, others⟩ :=
    @Held.kept _ _ assignment.nextAddr ifaceName _ _ input.first held
      (Or.inr ⟨first.addr, first.bits, isFirst, assigns.proper⟩)
      (fun refused => by
        rw [granted] at refused
        cases refused)
      (separable assignment read).1
  obtain ⟨isOk, isNext⟩ :=
    @Held.adopted _ _ ifaceName _ _ (some first) _ held proper
      (isFirst ▸ (separable assignment read).1) (by simp [granted])
  obtain ⟨isOk6, isNext6⟩ :=
    @Held.adopted _ _ ifaceName _ _ second _
      (held6.of_sameFamily (others .v6 (by decide))) assigns.proper6
      (isSecond ▸ (separable assignment read).2) (by simp [granted6])
  rw [isFirst] at isOk6 isNext6
  unfold applySelfAssignment
  simp only [read, isFirst, isSecond, isOk, isOk6]
  exact ⟨trivial, isNext, isNext6⟩

end Assignments

/--
After every run in which no removal is refused once the addition of the same
replacement has been granted, and in which the kernel keeps the addresses of
each replacement apart, the next payload whose calls are refused only for what
the interface carries is adopted: the interface carries the assigned addresses
and no other, and the agent remembers them.
-/
theorem readdressing_converges
    (ifaceName : String)
    {startFirst startSecond : AddressRefusals}
    {resp : EnrollResponse}
    (properStart :
      ∀ ip, parseAddr resp.assignedIP = some ip → ProperIn .v4 ip)
    (properStart6 :
      ∀ ip, parseAddr resp.assignedIP6 = some ip → ProperIn .v6 ip)
    {start : SelfState}
    (started :
      startAddresses ifaceName startFirst startSecond resp = .ok start)
    {inputs : List AddressSync}
    (conforms :
      ∀ visit, visit ∈ (addressing ifaceName).visits start inputs →
        visit.input.Proper ∧ visit.input.Undivided ∧
          visit.input.Separable visit.before)
    {sync : ReportResponse}
    {first : Prefix}
    {second : Option Prefix}
    (assigns : Assigns sync first second)
    (drops : Bool)
    (separable :
      AddressSync.Separable ⟨sync, { drops }, {}⟩
        ((addressing ifaceName).run start inputs)) :
    (applySelfAssignment ifaceName ⟨sync, { drops }, {}⟩
          ((addressing ifaceName).run start inputs)).1 = .ok () ∧
      (applySelfAssignment ifaceName ⟨sync, { drops }, {}⟩
          ((addressing ifaceName).run start inputs)).2.selfAddr =
        first.text ∧
      (applySelfAssignment ifaceName ⟨sync, { drops }, {}⟩
          ((addressing ifaceName).run start inputs)).2.selfAddr6 =
        ownText second ∧
      ∀ addr,
        addr ∈
            (applySelfAssignment ifaceName ⟨sync, { drops }, {}⟩
              ((addressing ifaceName).run start inputs)).2.addresses ↔
          addr = first ∨ second = some addr := by
  have carried :
      ((addressing ifaceName).run start inputs).Carried :=
    (@Machine.visits_invariant _ _ _ (addressing ifaceName)
      SelfState.Carried
      (fun state input =>
        input.Proper ∧ input.Undivided ∧ input.Separable state)
      (fun _ _ carried allowed =>
        carried.step allowed.1 allowed.2.1 allowed.2.2)
      _ (carried_startAddresses properStart properStart6 started) _
      conforms).1
  obtain ⟨isOk, isFirst, isSecond⟩ :=
    @SelfState.Carried.adopts ifaceName _ ⟨sync, { drops }, {}⟩ carried _ _
      assigns _ rfl rfl separable
  refine ⟨isOk, isFirst, isSecond, ?_⟩
  intro addr
  have after : ∀ input ∈ some first, ProperIn .v4 input.addr := by
    intro input member
    cases member
    exact assigns.proper
  have undivided : AddressSync.Undivided ⟨sync, { drops }, {}⟩ :=
    ⟨fun refused => Bool.noConfusion refused,
      fun refused => Bool.noConfusion refused⟩
  rw [(carried.step (assigns.proper_input _ _) undivided
    separable).mem_addresses after assigns.proper6 isFirst isSecond]
  rw [Option.some.injEq, eq_comm]

/-- A payload that assigns an address of 100.64.0.0/10. -/
def syncAt (address : String) : ReportResponse where
  assignedIP := address
  assignedIP6 := ""
  networkCIDR := "100.64.0.0/10"
  network6CIDR := ""
  dns := ⟨false, false, "", [], []⟩
  peers := []
  acl := { defaultPolicy := "allow", rules := [] }
  gatewayRoutes := []
  exitNodeActive := false
  stunServers := []

/-- An enrolment at the first address of that network. -/
def sampleEnrolled : EnrollResponse where
  peerID := 1
  assignedIP := "100.64.0.1"
  assignedIP6 := ""
  networkCIDR := "100.64.0.0/10"
  network6CIDR := ""
  dns := ⟨false, false, "", [], []⟩
  peers := []
  acl := { defaultPolicy := "allow", rules := [] }
  gatewayRoutes := []
  exitNodeActive := false
  authToken := ""
  stunServers := []

/-- The first address of the sample network, under its bit count. -/
def enrolledAddress : Prefix where
  addr := addressOf 0x64400001
  bits := 10
  fits := by decide

/-- The second one. -/
def movedAddress : Prefix where
  addr := addressOf 0x64400002
  bits := 10
  fits := by decide

/-- The agent of the sample after its start. -/
def sampleSelf : SelfState where
  addresses := [enrolledAddress]
  selfAddr := "100.64.0.1/10"
  selfAddr6 := ""
  network := parsePrefix "100.64.0.0/10"
  network6 := none

/-- The move to the second address is assigned. -/
theorem assigns_moved : Assigns (syncAt "100.64.0.2") movedAddress none where
  proper := ⟨rfl, rfl⟩
  address := by decide +kernel
  network := ⟨⟨addressOf 0x64400000, 10, by decide⟩, by decide +kernel, rfl⟩
  proper6 := by
    intro addr member
    cases member
  absent := fun _ => Or.inl rfl
  assigned := by
    intro addr member
    cases member

/-- Secondaries are promoted, so that the move can be made. -/
theorem separable_moved
    {refusals : AddressRefusals}
    (promotes : refusals.drops = false) :
    AddressSync.Separable ⟨syncAt "100.64.0.2", refusals, {}⟩
      sampleSelf := by
  refine assigns_moved.separable ?_ ?_
  · intro _ old new readOld readNew
    have isOld : some enrolledAddress = some old := by
      rw [← readOld]
      decide +kernel
    have isNew : some movedAddress = some new := by
      rw [← readNew]
      decide +kernel
    cases isOld
    cases isNew
    refine ⟨by decide +kernel, fun drops => ?_⟩
    rw [promotes] at drops
    cases drops
  · intro _ old new readOld readNew
    cases readNew

/-- A move whose first call is refused succeeds at the next payload. -/
theorem readdressing_converges_refusedAddition :
    (applySelfAssignment "wg-int" ⟨syncAt "100.64.0.2", {}, {}⟩
        ((addressing "wg-int").run sampleSelf
          [⟨syncAt "100.64.0.2", { add := true }, {}⟩])).2.addresses =
      [movedAddress] := by
  have proper :
      ∀ ip, parseAddr "100.64.0.1" = some ip → ProperIn .v4 ip := by
    intro ip parsed
    have isFirst : some enrolledAddress.addr = some ip := by
      rw [← parsed]
      decide +kernel
    cases isFirst
    exact ⟨rfl, rfl⟩
  have unmoved :
      (addressing "wg-int").run sampleSelf
        [⟨syncAt "100.64.0.2", { add := true }, {}⟩] = sampleSelf := by
    decide +kernel
  have converges :=
    (@readdressing_converges "wg-int" {} {} sampleEnrolled proper
      (fun _ parsed => nomatch parsed) sampleSelf (by decide +kernel)
      [⟨syncAt "100.64.0.2", { add := true }, {}⟩] ?_ _ _ _
      assigns_moved false (unmoved ▸ separable_moved rfl)).2.2.2
  · rw [unmoved] at converges ⊢
    have carried := (converges movedAddress).mpr (Or.inl rfl)
    revert carried
    decide +kernel
  · intro visit member
    rw [List.mem_singleton.mp member]
    exact ⟨assigns_moved.proper_input _ _, ⟨nofun, nofun⟩,
      separable_moved rfl⟩

/-- The agent of the sample after a move whose removal is refused. -/
def halfMoved : SelfState :=
  { sampleSelf with addresses := [enrolledAddress, movedAddress] }

/--
A move whose removal is refused once is never completed: every later payload
fails to add the address that is on the interface, although nothing else is
refused.  Without `promote_secondaries` the move fails in another way: when
nothing is refused, it takes both addresses from the interface.
-/
theorem refused_removal_is_final :
    startAddresses "wg-int" {} {} sampleEnrolled = .ok sampleSelf ∧
      Assigns (syncAt "100.64.0.2") movedAddress none ∧
      (∀ drops count,
        (applySelfAssignment "wg-int" ⟨syncAt "100.64.0.2", { drops }, {}⟩
            ((addressing "wg-int").run sampleSelf
              (⟨syncAt "100.64.0.2", { del := true, drops }, {}⟩ ::
                List.replicate count
                  ⟨syncAt "100.64.0.2", { drops }, {}⟩))) =
          (.error "assign address \"100.64.0.2/10\"", halfMoved)) ∧
      applySelfAssignment "wg-int"
          ⟨syncAt "100.64.0.2", { drops := true }, {}⟩ sampleSelf =
        (.ok (),
          { sampleSelf with
            addresses := []
            selfAddr := "100.64.0.2/10" }) := by
  refine ⟨by decide +kernel, assigns_moved, ?_, by decide +kernel⟩
  intro drops count
  have stuck :
      applySelfAssignment "wg-int" ⟨syncAt "100.64.0.2", { drops }, {}⟩
          halfMoved =
        (.error "assign address \"100.64.0.2/10\"", halfMoved) := by
    cases drops <;> decide +kernel
  have moved :
      (applySelfAssignment "wg-int"
        ⟨syncAt "100.64.0.2", { del := true, drops }, {}⟩ sampleSelf).2 =
          halfMoved := by
    cases drops <;> decide +kernel
  have stays :
      (addressing "wg-int").run halfMoved
          (List.replicate count ⟨syncAt "100.64.0.2", { drops }, {}⟩) =
        halfMoved := by
    induction count with
    | zero => rfl
    | succ count inductionHypothesis =>
        rw [List.replicate_succ]
        change
          (addressing "wg-int").run
            (applySelfAssignment "wg-int"
              ⟨syncAt "100.64.0.2", { drops }, {}⟩ halfMoved).2 _ =
            halfMoved
        rw [stuck]
        exact inductionHypothesis
  change
    applySelfAssignment "wg-int" _
      ((addressing "wg-int").run
        (applySelfAssignment "wg-int"
          ⟨syncAt "100.64.0.2", { del := true, drops }, {}⟩
          sampleSelf).2 _) = _
  rw [moved, stays, stuck]

end WgMesh.Agent
