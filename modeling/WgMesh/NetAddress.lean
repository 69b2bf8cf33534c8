import WgMesh.TextScan
import Mathlib.Data.List.Basic
import Mathlib.Algebra.Order.Ring.Nat
import Mathlib.Tactic.Linarith

namespace WgMesh.NetAddress

/-!
# IP addresses and prefixes

Addresses and prefixes with the behaviour of Go's `net/netip`.  The invalid
zero address and the invalid zero prefix are the absent values of `Option`,
so every value of `Addr` and `Prefix` is a valid one.

The second half is about the walk from the first address after a network
address: it visits the hosts of a prefix in ascending order, so a search that
stops at the first unused address finds the lowest one.
-/

/-- The two address families. -/
inductive Family where
  | v4
  | v6
  deriving Repr, DecidableEq

/-- Address length in bits. -/
def Family.width : Family → Nat
  | .v4 => 32
  | .v6 => 128

/-- A valid IP address; only IPv6 addresses carry a zone. -/
structure Addr where
  family : Family
  value : Nat
  zone : String
  bounded : value < 2 ^ family.width
  deriving DecidableEq

/-- The IPv4 address with a number. -/
def addressOf (value : Nat) : Addr where
  family := .v4
  value := value % 2 ^ 32
  zone := ""
  bounded := Nat.mod_lt _ (by decide)

/-- The IPv6 address with a number. -/
def address6Of (value : Nat) : Addr where
  family := .v6
  value := value % 2 ^ 128
  zone := ""
  bounded := Nat.mod_lt _ (by decide)

/-- A valid prefix: a base address and a number of leading bits. -/
structure Prefix where
  addr : Addr
  bits : Nat
  fits : bits ≤ addr.family.width
  deriving DecidableEq

namespace Addr

/-- `Addr.Is4`. -/
def is4 (addr : Addr) : Bool :=
  addr.family == .v4

/-- `Addr.Is6`, which also accepts IPv4-mapped IPv6 addresses. -/
def is6 (addr : Addr) : Bool :=
  addr.family == .v6

/-- `Addr.Is4In6`: an IPv4-mapped IPv6 address. -/
def is4In6 (addr : Addr) : Bool :=
  addr.family == .v6 && addr.value / 2 ^ 32 == 0xffff

/-- `Addr.Next`; there is no address after the last one of a family. -/
def next (addr : Addr) : Option Addr :=
  if room : addr.value + 1 < 2 ^ addr.family.width then
    some {
      family := addr.family
      value := addr.value + 1
      zone := addr.zone
      bounded := room
    }
  else
    none

theorem ext_of_value
    {first second : Addr}
    (family : first.family = second.family)
    (value : first.value = second.value)
    (zone : first.zone = second.zone) :
    first = second := by
  cases first
  cases second
  simp_all

theorem next_eq_some
    {addr following : Addr}
    (shape : addr.next = some following) :
    following.family = addr.family ∧
      following.zone = addr.zone ∧
      following.value = addr.value + 1 := by
  unfold next at shape
  split at shape
  · cases shape
    exact ⟨rfl, rfl, rfl⟩
  · contradiction

/-- No address of the family lies above an address without a next one. -/
theorem value_le_of_next_eq_none
    {addr other : Addr}
    (last : addr.next = none)
    (family : other.family = addr.family) :
    other.value ≤ addr.value := by
  unfold next at last
  split at last
  · contradiction
  · rename_i full
    have bound := other.bounded
    rw [family] at bound
    omega

end Addr

namespace Prefix

/-- The number of host bits of a prefix. -/
def hostBits (network : Prefix) : Nat :=
  network.addr.family.width - network.bits

/-- `Prefix.Contains`; a zoned address is in no prefix. -/
def contains (network : Prefix) (addr : Addr) : Bool :=
  addr.zone == "" &&
    addr.family == network.addr.family &&
    addr.value / 2 ^ network.hostBits ==
      network.addr.value / 2 ^ network.hostBits

/-- `Prefix.Masked`: the prefix with all host bits of its base cleared. -/
def masked (network : Prefix) : Prefix where
  addr := {
    family := network.addr.family
    value :=
      network.addr.value / 2 ^ network.hostBits *
        2 ^ network.hostBits
    zone := ""
    bounded :=
      Nat.lt_of_le_of_lt
        (Nat.div_mul_le_self _ _) network.addr.bounded
  }
  bits := network.bits
  fits := network.fits

/-- A prefix whose base is its own network address. -/
structure IsNetwork (network : Prefix) : Prop where
  zoneFree : network.addr.zone = ""
  aligned :
    network.addr.value / 2 ^ network.hostBits *
        2 ^ network.hostBits =
      network.addr.value

@[simp] theorem masked_family (network : Prefix) :
    network.masked.addr.family = network.addr.family :=
  rfl

@[simp] theorem masked_hostBits (network : Prefix) :
    network.masked.hostBits = network.hostBits :=
  rfl

/-- Masking always yields a network. -/
theorem masked_isNetwork (network : Prefix) :
    network.masked.IsNetwork where
  zoneFree := rfl
  aligned := by
    have positive : 0 < 2 ^ network.hostBits :=
      Nat.two_pow_pos _
    simp only [masked_hostBits]
    simp only [masked]
    rw [Nat.mul_div_cancel _ positive]

variable {network : Prefix} {addr : Addr}

/-- Masking a network changes nothing. -/
theorem IsNetwork.masked_eq
    (isNetwork : network.IsNetwork) :
    network.masked = network := by
  rcases network with ⟨addr, bits, fits⟩
  have same :
      (Prefix.masked ⟨addr, bits, fits⟩).addr = addr :=
    Addr.ext_of_value rfl isNetwork.aligned
      isNetwork.zoneFree.symm
  simp only [masked] at same ⊢
  simp only [same]

theorem contains_iff :
    network.contains addr = true ↔
      addr.zone = "" ∧
        addr.family = network.addr.family ∧
        addr.value / 2 ^ network.hostBits =
          network.addr.value / 2 ^ network.hostBits := by
  simp [contains, and_assoc]

/-- Addresses between the base and a member are members too. -/
theorem contains_of_le
    {upper : Addr}
    (upperIn : network.contains upper = true)
    (zoneFree : addr.zone = "")
    (family : addr.family = network.addr.family)
    (above : network.addr.value ≤ addr.value)
    (below : addr.value ≤ upper.value) :
    network.contains addr = true := by
  have upperParts := contains_iff.mp upperIn
  refine contains_iff.mpr ⟨zoneFree, family, ?_⟩
  have low :
      network.addr.value / 2 ^ network.hostBits ≤
        addr.value / 2 ^ network.hostBits :=
    Nat.div_le_div_right above
  have high :
      addr.value / 2 ^ network.hostBits ≤
        upper.value / 2 ^ network.hostBits :=
    Nat.div_le_div_right below
  omega

theorem IsNetwork.le_of_contains
    (isNetwork : network.IsNetwork)
    (member : network.contains addr = true) :
    network.addr.value ≤ addr.value := by
  have parts := contains_iff.mp member
  have lower := Nat.div_mul_le_self addr.value
    (2 ^ network.hostBits)
  rw [parts.2.2, isNetwork.aligned] at lower
  exact lower

/--
The loop `for ip := start; p.Contains(ip); ip = ip.Next()` that returns at the
first address accepted by `stop`, cut off after `fuel` rounds.
-/
def walk
    (network : Prefix)
    (stop : Addr → Bool) :
    Nat → Option Addr → Option Addr
  | 0, _ => none
  | _ + 1, none => none
  | fuel + 1, some addr =>
      if network.contains addr then
        if stop addr then
          some addr
        else
          walk network stop fuel addr.next
      else
        none

/--
The first address after the base that is not in use.  Every round that does
not return has met a used address, so one round more than there are used
addresses is enough.
-/
def firstFree
    (network : Prefix)
    (used : List Addr) : Option Addr :=
  network.walk (fun addr => !used.contains addr)
    (used.length + 1) network.addr.next

/--
The loop `for ip := start; p.Contains(ip); ip = ip.Next()` that collects
addresses and returns once it has `count` of them.
-/
def hostsFrom
    (network : Prefix) :
    Nat → Option Addr → List Addr
  | 0, _ => []
  | _ + 1, none => []
  | count + 1, some addr =>
      if network.contains addr then
        addr :: hostsFrom network count addr.next
      else
        []

/-- The first addresses after the base of a prefix, at most `count`. -/
def firstHosts (network : Prefix) (count : Nat) : List Addr :=
  network.hostsFrom count network.addr.next

/-- A host of a network: a member above the network address. -/
structure IsHost (network : Prefix) (addr : Addr) : Prop where
  member : network.contains addr = true
  above : network.addr.value < addr.value

/--
The lowest host that is not held: every host below it is held.
-/
structure IsLowestFree
    (network : Prefix)
    (held : Addr → Prop)
    (addr : Addr) : Prop where
  host : network.IsHost addr
  free : ¬ held addr
  lowest :
    ∀ other,
      network.IsHost other →
      other.value < addr.value →
      held other

theorem IsHost.eq_of_value
    {first second : Addr}
    (firstHost : network.IsHost first)
    (secondHost : network.IsHost second)
    (value : first.value = second.value) :
    first = second := by
  have firstParts := contains_iff.mp firstHost.member
  have secondParts := contains_iff.mp secondHost.member
  exact Addr.ext_of_value
    (firstParts.2.1.trans secondParts.2.1.symm)
    value
    (firstParts.1.trans secondParts.1.symm)

/-- A member of a network other than its base is a host. -/
theorem IsNetwork.isHost_of_ne
    (isNetwork : network.IsNetwork)
    (member : network.contains addr = true)
    (differs : addr ≠ network.addr) :
    network.IsHost addr := by
  refine ⟨member, Nat.lt_of_le_of_ne
    (isNetwork.le_of_contains member) ?_⟩
  intro sameValue
  have parts := contains_iff.mp member
  exact differs
    (Addr.ext_of_value parts.2.1 sameValue.symm
      (parts.1.trans isNetwork.zoneFree.symm))

theorem IsLowestFree.congr
    {held other : Addr → Prop}
    (agree : ∀ host, network.IsHost host → (held host ↔ other host))
    (lowest : network.IsLowestFree held addr) :
    network.IsLowestFree other addr where
  host := lowest.host
  free := fun taken =>
    lowest.free ((agree addr lowest.host).mpr taken)
  lowest := fun below host less =>
    (agree below host).mp (lowest.lowest below host less)

/-- There is at most one lowest free host. -/
theorem IsLowestFree.unique
    {held : Addr → Prop}
    {first second : Addr}
    (firstLowest : network.IsLowestFree held first)
    (secondLowest : network.IsLowestFree held second) :
    first = second := by
  apply firstLowest.host.eq_of_value secondLowest.host
  rcases Nat.lt_trichotomy first.value second.value with
    below | same | above
  · exact (firstLowest.free
      (secondLowest.lowest first firstLowest.host below)).elim
  · exact same
  · exact (secondLowest.free
      (firstLowest.lowest second secondLowest.host above)).elim

/--
What a walk over unused addresses finds from a given address on, as long as
its rounds outnumber the used addresses still ahead.
-/
private theorem walk_spec
    {network : Prefix}
    {used : List Addr}
    {fuel : Nat}
    {start : Addr}
    (zoneFree : start.zone = "")
    (family : start.family = network.addr.family)
    (above : network.addr.value ≤ start.value)
    (enough :
      (used.filter
        (fun addr => decide (start.value ≤ addr.value))).length <
          fuel) :
    match network.walk (fun addr => !used.contains addr)
        fuel (some start) with
    | some found =>
        network.contains found = true ∧
          start.value ≤ found.value ∧
          found ∉ used ∧
          ∀ other,
            network.contains other = true →
            start.value ≤ other.value →
            other.value < found.value →
            other ∈ used
    | none =>
        ∀ other,
          network.contains other = true →
          start.value ≤ other.value →
          other ∈ used := by
  induction fuel generalizing start with
  | zero =>
      omega
  | succ fuel inductionHypothesis =>
      by_cases inside : network.contains start = true
      · by_cases taken : start ∈ used
        · have sameValue :
              ∀ other,
                network.contains other = true →
                other.value = start.value →
                other ∈ used := by
            intro other otherIn value
            have parts := contains_iff.mp otherIn
            have same : other = start :=
              Addr.ext_of_value
                (parts.2.1.trans family.symm) value
                (parts.1.trans zoneFree.symm)
            rw [same]
            exact taken
          cases following : start.next with
          | none =>
              simp only [walk, inside, ↓reduceIte,
                List.contains_eq_mem, taken, decide_true,
                Bool.not_true, Bool.false_eq_true, following]
              have ended :
                  network.walk
                    (fun addr => !decide (addr ∈ used))
                      fuel none = none := by
                cases fuel <;> rfl
              rw [ended]
              intro other otherIn otherAbove
              have parts := contains_iff.mp otherIn
              have below :=
                Addr.value_le_of_next_eq_none following
                  (parts.2.1.trans family.symm)
              exact sameValue other otherIn (by omega)
          | some nextAddr =>
              have shape := Addr.next_eq_some following
              have fewer :
                  (used.filter
                    (fun addr =>
                      decide (nextAddr.value ≤ addr.value))).length <
                    (used.filter
                      (fun addr =>
                        decide (start.value ≤ addr.value))).length := by
                have split :
                    used.filter
                        (fun addr =>
                          decide (nextAddr.value ≤ addr.value)) =
                      (used.filter
                        (fun addr =>
                          decide (start.value ≤ addr.value))).filter
                        (fun addr =>
                          decide (nextAddr.value ≤ addr.value)) := by
                  rw [List.filter_filter]
                  apply List.filter_congr
                  intro addr _
                  rw [← Bool.decide_and]
                  apply decide_eq_decide.mpr
                  constructor
                  · intro high
                    exact ⟨high, by omega⟩
                  · exact fun both => both.1
                rw [split]
                apply List.length_filter_lt_length_iff_exists.mpr
                refine ⟨start, ?_, ?_⟩
                · simp [taken]
                · simp [shape.2.2]
              have rest :=
                inductionHypothesis
                  (shape.2.1.trans zoneFree)
                  (shape.1.trans family)
                  (by omega)
                  (by omega)
              simp only [walk, inside, ↓reduceIte,
                List.contains_eq_mem, taken, decide_true,
                Bool.not_true, Bool.false_eq_true, following]
              simp only [List.contains_eq_mem] at rest
              split at rest
              · rename_i found foundShape
                refine ⟨rest.1, by omega, rest.2.2.1, ?_⟩
                intro other otherIn otherAbove otherBelow
                by_cases value : other.value = start.value
                · exact sameValue other otherIn value
                · exact rest.2.2.2 other otherIn
                    (by omega) otherBelow
              · intro other otherIn otherAbove
                by_cases value : other.value = start.value
                · exact sameValue other otherIn value
                · exact rest other otherIn (by omega)
        · have stopsHere :
              network.walk (fun addr => !used.contains addr)
                (fuel + 1) (some start) = some start := by
            simp [walk, inside, taken]
          rw [stopsHere]
          refine ⟨inside, Nat.le_refl _, taken, ?_⟩
          intro other _ otherAbove otherBelow
          omega
      · simp only [walk, inside, Bool.false_eq_true, ↓reduceIte]
        intro other otherIn otherAbove
        exact (inside
          (contains_of_le otherIn zoneFree family
            above otherAbove)).elim

/-- The search result is the lowest free host, and nothing when all are held. -/
theorem firstFree_spec
    (isNetwork : network.IsNetwork)
    (used : List Addr) :
    match network.firstFree used with
    | some found => network.IsLowestFree (· ∈ used) found
    | none => ∀ addr, network.IsHost addr → addr ∈ used := by
  unfold firstFree
  cases following : network.addr.next with
  | none =>
      simp only [walk]
      intro addr host
      have parts := contains_iff.mp host.member
      have below :=
        Addr.value_le_of_next_eq_none following parts.2.1
      have above := host.above
      omega
  | some start =>
      have shape := Addr.next_eq_some following
      have found :=
        @walk_spec network used (used.length + 1) start
          (shape.2.1.trans isNetwork.zoneFree)
          shape.1
          (by omega)
          (Nat.lt_succ_of_le (List.length_filter_le _ _))
      split at found
      · rename_i addr addrShape
        exact {
          host := ⟨found.1, by omega⟩
          free := found.2.2.1
          lowest := by
            intro other otherHost otherBelow
            have otherAbove := otherHost.above
            exact found.2.2.2 other otherHost.member
              (by omega) otherBelow
        }
      · intro addr host
        have above := host.above
        exact found addr host.member (by omega)

/-- Consecutive hosts are members and number upward from the start. -/
private theorem hostsFrom_spec
    (network : Prefix)
    (count : Nat)
    (start : Option Addr) :
    (∀ addr, addr ∈ network.hostsFrom count start →
        network.contains addr = true ∧
          ∃ first, start = some first ∧ first.value ≤ addr.value) ∧
      (network.hostsFrom count start).Pairwise
        (fun first second => first.value < second.value) := by
  induction count generalizing start with
  | zero =>
      simp [hostsFrom]
  | succ count inductionHypothesis =>
      cases start with
      | none =>
          simp [hostsFrom]
      | some addr =>
          obtain ⟨members, ascending⟩ := inductionHypothesis addr.next
          have above :
              ∀ later, later ∈ network.hostsFrom count addr.next →
                addr.value < later.value := by
            intro later member
            obtain ⟨-, first, firstShape, firstLe⟩ := members later member
            have step := Addr.next_eq_some firstShape
            omega
          simp only [hostsFrom]
          split
          · rename_i inside
            refine ⟨?_, List.pairwise_cons.mpr ⟨above, ascending⟩⟩
            intro later member
            rcases List.mem_cons.mp member with isHead | inRest
            · subst later
              exact ⟨inside, addr, rfl, Nat.le_refl _⟩
            · exact ⟨(members later inRest).1, addr, rfl,
                Nat.le_of_lt (above later inRest)⟩
          · simp

/-- The first hosts of a prefix are hosts, in ascending order. -/
theorem firstHosts_spec
    (network : Prefix)
    (count : Nat) :
    (∀ addr ∈ network.firstHosts count, network.IsHost addr) ∧
      (network.firstHosts count).Pairwise
        (fun first second => first.value < second.value) := by
  obtain ⟨members, ascending⟩ :=
    hostsFrom_spec network count network.addr.next
  refine ⟨?_, ascending⟩
  intro addr member
  obtain ⟨inside, first, firstShape, firstLe⟩ := members addr member
  have step := Addr.next_eq_some firstShape
  exact ⟨inside, by omega⟩

end Prefix

end WgMesh.NetAddress
