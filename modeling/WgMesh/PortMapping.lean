import WgMesh.FiniteRuns
import WgMesh.ServerHandlers

namespace WgMesh.PortMap

/-!
# The mapping of a router

`portMapper` asks a router, over UPnP or NAT-PMP, to forward the WireGuard
port, renews the mapping at half its lease, and deletes it at the shutdown.  All
it knows of its mappings is how to delete the one of its last attempt: a failed
attempt, or one that another router answers, forgets a mapping that is still
open.
-/

open FiniteRuns NetAddress Server TextScan

/-! ## One attempt -/

/-- `portMapLease`, in nanoseconds. -/
def portMapLease : Nat := 1800000000000

/-- `portMapRenew`. -/
def portMapRenew : Nat := portMapLease / 2

/-- `portMapRetryMin`. -/
def portMapRetryMin : Nat := 300000000000

/-- `portMapRetryMax`. -/
def portMapRetryMax : Nat := 3600000000000

/-- `publicV4`. -/
def publicV4 (ip : Addr) : Bool :=
  let addr := unmap ip
  let within := fun base bits : Nat => addr.value / 2 ^ (32 - bits) == base
  addr.is4 &&
    -- `IsPrivate`
    !within 10 8 && !within 0xac1 12 && !within 0xc0a8 16 &&
    -- `IsLoopback`, `IsLinkLocalUnicast`, `IsMulticast`, `IsUnspecified`
    !within 127 8 && !within 0xa9fe 16 && !within 0xe 4 && !within 0 32 &&
    -- `cgnat`
    !within (0x6440 / 2 ^ 6) 10

/-- `igdConn`: a UPnP service, the router behind it and what its calls return;
`localAddr` is what `localAddrToward` returns for its host. -/
structure IGDConn (Router : Type) where
  name : String
  router : Router
  getIP : Except String String
  localAddr : Except String String
  add : Except String Unit

/-- The NAT-PMP client of the default gateway, and what its calls return: the
number of the external address and the mapped port. -/
structure Client (Router : Type) where
  router : Router
  getExternalAddress : Except String Nat
  addPortMapping : Except String Nat

/-- What one attempt meets. -/
structure Surroundings (Router : Type) where
  conns : List (IGDConn Router)
  gateway : Option (Client Router)

section Attempts

variable {Router : Type}

/-- One turn of the loop in `upnpMap`. -/
def IGDConn.tryMap (port : Nat) (c : IGDConn Router) :
    Except String (String × Router) :=
  match c.getIP with
  | .error text => .error (c.name ++ " external ip: " ++ text)
  | .ok extIP =>
      if (parseAddr extIP).any publicV4 then
        match c.localAddr with
        | .error text => .error text
        | .ok _ =>
            match c.add with
            | .error text => .error (c.name ++ " add mapping: " ++ text)
            | .ok _ => .ok (joinHostPort extIP (decimal port), c.router)
      else
        .error
          (c.name ++ " external ip \"" ++ extIP ++
            "\" is not public (double NAT?)")

/-- The loop in `upnpMap`. -/
def upnpLoop (port : Nat) (lastErr : String) :
    List (IGDConn Router) → Except String (String × Router)
  | [] => .error lastErr
  | c :: rest =>
      match c.tryMap port with
      | .ok mapped => .ok mapped
      | .error text => upnpLoop port text rest

/-- `upnpMap`: the external endpoint and the router to delete the mapping
from. -/
def upnpMap (port : Nat) (conns : List (IGDConn Router)) :
    Except String (String × Router) :=
  if conns.isEmpty then .error "no UPnP internet gateway found"
  else upnpLoop port "" conns

/-- `natpmpMap`. -/
def natpmpMap (gateway : Option (Client Router)) :
    Except String (String × Router) :=
  match gateway with
  | none => .error "no default gateway for NAT-PMP"
  | some client =>
      match client.getExternalAddress with
      | .error text => .error ("nat-pmp external address: " ++ text)
      | .ok ext =>
          let extIP := addressOf ext
          if publicV4 extIP then
            match client.addPortMapping with
            | .error text => .error ("nat-pmp add mapping: " ++ text)
            | .ok extPort =>
                .ok (joinHostPort extIP.text (decimal extPort), client.router)
          else
            .error
              ("nat-pmp external ip " ++ extIP.text ++
                " is not public (double NAT?)")

/-- `mapPort`. -/
def mapPort (port : Nat) (met : Surroundings Router) :
    Except String (String × Router) :=
  match upnpMap port met.conns with
  | .ok mapped => .ok mapped
  | .error _ => natpmpMap met.gateway

/-- A router reports an external address that is not public. -/
def Surroundings.HasPrivate (met : Surroundings Router) : Prop :=
  (∃ c ∈ met.conns, ∃ extIP,
      c.getIP = .ok extIP ∧ (parseAddr extIP).any publicV4 = false) ∨
    ∃ client ∈ met.gateway, ∃ ext,
      client.getExternalAddress = .ok ext ∧ publicV4 (addressOf ext) = false

/-! ## The loop -/

/-- The loop of `run` in its `select`, and the mappings that were added and not
deleted since, with the ends of their leases. -/
structure Mapper (Router : Type) where
  now : Nat
  wait : Nat
  retry : Nat
  ext : String
  unmap : Option Router
  leases : List (Router × Nat)

/-- An attempt: what it meets, how late the timer is, and how long it takes
before and after the mapping is added. -/
structure Turn (Router : Type) where
  met : Surroundings Router
  late : Nat
  toAdd : Nat
  toEnd : Nat

/-- What an attempt returns, and when a mapping was added. -/
structure Attempt (Router : Type) where
  result : Except String (String × Router)
  addedAt : Nat

/-- The loop before its first attempt. -/
def newPortMapper (Router : Type) : Mapper Router where
  now := 0
  wait := 0
  retry := portMapRetryMin
  ext := ""
  unmap := none
  leases := []

/-! ## What the loop knows -/

/-- No mapping whose lease still runs has been left undeleted. -/
def Mapper.Released (m : Mapper Router) : Prop :=
  ∀ lease ∈ m.leases, lease.2 ≤ m.now

instance (m : Mapper Router) : Decidable m.Released :=
  inferInstanceAs (Decidable (∀ lease ∈ m.leases, lease.2 ≤ m.now))

/-- The visits of a run. -/
abbrev Past (Router : Type) :=
  List (Visit (Mapper Router) (Turn Router) (Attempt Router))

/-- A past attempt has added a mapping. -/
def Added (past : Past Router) (router : Router) (addedAt : Nat) : Prop :=
  ∃ visit ∈ past, ∃ ep,
    visit.output.result = .ok (ep, router) ∧ visit.output.addedAt = addedAt

/-- The last attempt has added a mapping. -/
def AddedLast (past : Past Router) (router : Router) : Prop :=
  ∃ last, past.getLast? = some last ∧
    ∃ ep, last.output.result = .ok (ep, router)

/-- How a state of the loop is related to its past: the mappings are the last
ones that were added to each router, and only the one of the last attempt can
be deleted. -/
structure Recorded (past : Past Router) (m : Mapper Router) : Prop where
  recent : ∀ lease ∈ m.leases, lease.2 ≤ m.now + portMapLease
  sound :
    ∀ router ends, (router, ends) ∈ m.leases →
      ∃ addedAt, Added past router addedAt ∧ ends = addedAt + portMapLease
  complete :
    ∀ router addedAt, Added past router addedAt →
      ∃ ends, (router, ends) ∈ m.leases ∧ addedAt + portMapLease ≤ ends
  last : ∀ router, m.unmap = some router ↔ AddedLast past router

variable {past : Past Router} {m : Mapper Router}

/-- An added mapping stays in the past. -/
theorem added_append
    {visit : Visit (Mapper Router) (Turn Router) (Attempt Router)}
    {router : Router}
    {addedAt : Nat} :
    Added (past ++ [visit]) router addedAt ↔
      Added past router addedAt ∨
        ∃ ep, visit.output.result = .ok (ep, router) ∧
          visit.output.addedAt = addedAt := by
  constructor
  · rintro ⟨other, member, found⟩
    rcases List.mem_append.mp member with before | isLast
    · exact Or.inl ⟨other, before, found⟩
    · rw [List.mem_singleton.mp isLast] at found
      exact Or.inr found
  · rintro (⟨other, member, found⟩ | found)
    · exact ⟨other, List.mem_append_left _ member, found⟩
    · exact ⟨visit, by simp, found⟩

theorem addedLast_append
    {visit : Visit (Mapper Router) (Turn Router) (Attempt Router)}
    {router : Router} :
    AddedLast (past ++ [visit]) router ↔
      ∃ ep, visit.output.result = .ok (ep, router) := by
  constructor
  · rintro ⟨last, isLast, found⟩
    rw [List.getLast?_concat] at isLast
    cases isLast
    exact found
  · exact fun found => ⟨visit, List.getLast?_concat, found⟩

/-- Nothing is left open if every mapping that was added has expired. -/
theorem Recorded.released_iff
    (recorded : Recorded past m) :
    m.Released ↔
      ∀ router addedAt, Added past router addedAt →
        addedAt + portMapLease ≤ m.now := by
  constructor
  · intro released router addedAt added
    obtain ⟨ends, member, bound⟩ := recorded.complete router addedAt added
    exact bound.trans (released (router, ends) member)
  · rintro expired ⟨router, ends⟩ member
    obtain ⟨addedAt, added, rfl⟩ := recorded.sound router ends member
    exact expired router addedAt added

/-! ## The turns of the loop -/

variable [DecidableEq Router]

/-- The mappings without that of a router. -/
def without (router : Router) (leases : List (Router × Nat)) :
    List (Router × Nat) :=
  leases.filter fun lease => decide (lease.1 ≠ router)

/-- One turn of the loop of `run`, up to its `select`. -/
def Mapper.turn (port : Nat) (m : Mapper Router) (t : Turn Router) :
    Attempt Router × Mapper Router :=
  let addedAt := m.now + m.wait + t.late + t.toAdd
  let result := mapPort port t.met
  (⟨result, addedAt⟩,
    match result with
    | .error _ =>
        { m with
          now := addedAt + t.toEnd
          wait := m.retry
          retry :=
            if portMapRetryMax ≤ m.retry * 2 then portMapRetryMax
            else m.retry * 2
          ext := ""
          unmap := none }
    | .ok (ep, router) =>
        { now := addedAt + t.toEnd
          wait := portMapRenew
          retry := portMapRetryMin
          ext := ep
          unmap := some router
          leases :=
            without router m.leases ++ [(router, addedAt + portMapLease)] })

/-- `close`, while the loop waits: the mapping of the last attempt is deleted,
and some time has passed when it returns. -/
def Mapper.close (m : Mapper Router) (passed : Nat) : Mapper Router :=
  { m with
    now := m.now + passed
    leases :=
      match m.unmap with
      | none => m.leases
      | some router => without router m.leases }

/-- The attempts of `run`. -/
def mapping (port : Nat) :
    Machine (Mapper Router) (Turn Router) (Attempt Router) where
  step := fun m t => m.turn port t

variable {port : Nat}

theorem mem_without
    {router : Router}
    {lease : Router × Nat}
    {leases : List (Router × Nat)} :
    lease ∈ without router leases ↔ lease ∈ leases ∧ lease.1 ≠ router := by
  simp [without]

/-- One attempt extends the past. -/
theorem Recorded.step
    (recorded : Recorded past m)
    (t : Turn Router) :
    Recorded (past ++ [(mapping port).visit m t])
      ((mapping port).step m t).2 := by
  have later : m.now ≤ m.now + m.wait + t.late + t.toAdd := by omega
  cases result : mapPort port t.met with
  | error text =>
      -- Nothing is added, and nothing can be deleted any more.
      have output : ((mapping port).visit m t).output.result = .error text :=
        result
      have after :
          ((mapping port).step m t).2.leases = m.leases ∧
            ((mapping port).step m t).2.unmap = none ∧
            m.now ≤ ((mapping port).step m t).2.now := by
        simp only [mapping, Mapper.turn, result]
        exact ⟨trivial, trivial, by omega⟩
      obtain ⟨leases, unmap, now⟩ := after
      refine ⟨?_, ?_, ?_, ?_⟩
      · intro lease member
        rw [leases] at member
        have bound := recorded.recent lease member
        omega
      · intro router ends member
        rw [leases] at member
        obtain ⟨addedAt, added, isEnd⟩ := recorded.sound router ends member
        exact ⟨addedAt, added_append.mpr (Or.inl added), isEnd⟩
      · intro router addedAt added
        rw [leases]
        rcases added_append.mp added with before | ⟨ep, isNew, -⟩
        · exact recorded.complete router addedAt before
        · rw [output] at isNew
          cases isNew
      · intro router
        rw [unmap, addedLast_append, output]
        simp
  | ok mapped =>
      obtain ⟨ep, router⟩ := mapped
      have output :
          ((mapping port).visit m t).output =
            ⟨.ok (ep, router), m.now + m.wait + t.late + t.toAdd⟩ := by
        simp only [Machine.visit, mapping, Mapper.turn, result]
      have after :
          ((mapping port).step m t).2.leases =
              without router m.leases ++
                [(router,
                  m.now + m.wait + t.late + t.toAdd + portMapLease)] ∧
            ((mapping port).step m t).2.unmap = some router ∧
            m.now + m.wait + t.late + t.toAdd ≤
              ((mapping port).step m t).2.now := by
        simp only [mapping, Mapper.turn, result]
        exact ⟨trivial, trivial, by omega⟩
      obtain ⟨leases, unmap, now⟩ := after
      generalize m.now + m.wait + t.late + t.toAdd = addedAt at *
      refine ⟨?_, ?_, ?_, ?_⟩
      · intro lease member
        rw [leases] at member
        rcases List.mem_append.mp member with old | isNew
        · have bound := recorded.recent lease (mem_without.mp old).1
          omega
        · rw [List.mem_singleton.mp isNew]
          exact Nat.add_le_add_right now portMapLease
      · intro other ends member
        rw [leases] at member
        rcases List.mem_append.mp member with old | isNew
        · obtain ⟨before, added, isEnd⟩ :=
            recorded.sound other ends (mem_without.mp old).1
          exact ⟨before, added_append.mpr (Or.inl added), isEnd⟩
        · cases List.mem_singleton.mp isNew
          refine ⟨addedAt, added_append.mpr (Or.inr ⟨ep, ?_⟩), rfl⟩
          rw [output]
          exact ⟨rfl, rfl⟩
      · intro other before added
        rw [leases]
        rcases added_append.mp added with earlier | ⟨ep', isNew, isTime⟩
        · obtain ⟨ends, member, bound⟩ :=
            recorded.complete other before earlier
          by_cases same : other = router
          · -- The new lease of this router ends later.
            subst same
            have recent := recorded.recent _ member
            refine ⟨addedAt + portMapLease, by simp, ?_⟩
            dsimp only at recent
            omega
          · exact ⟨ends, List.mem_append_left _
              (mem_without.mpr ⟨member, same⟩), bound⟩
        · rw [output] at isNew isTime
          cases isNew
          cases isTime
          exact ⟨addedAt + portMapLease, by simp, Nat.le_refl _⟩
      · intro other
        rw [unmap, addedLast_append, output]
        simp

/-- The loop is related to its past in every state it reaches. -/
theorem recorded_run
    (port : Nat)
    (turns : List (Turn Router)) :
    Recorded ((mapping port).visits (newPortMapper Router) turns)
      ((mapping port).run (newPortMapper Router) turns) := by
  refine Machine.history_invariant _ ?_ ?_ turns
  · refine ⟨?_, ?_, ?_, ?_⟩
    · intro lease member
      cases member
    · intro router ends member
      cases member
    · rintro router addedAt ⟨visit, member, -⟩
      cases member
    · intro router
      constructor
      · intro impossible
        cases impossible
      · rintro ⟨last, impossible, -⟩
        cases impossible
  · intro before current t recorded
    exact recorded.step t

/-- Everything is released at the shutdown if the last attempt has added every
mapping whose lease still runs. -/
theorem Recorded.close_iff
    (recorded : Recorded past m)
    (passed : Nat) :
    (m.close passed).Released ↔
      ∀ router addedAt, Added past router addedAt →
        m.now + passed < addedAt + portMapLease → AddedLast past router := by
  have kept (router : Router) (ends : Nat) :
      (router, ends) ∈ (m.close passed).leases ↔
        (router, ends) ∈ m.leases ∧ m.unmap ≠ some router := by
    unfold Mapper.close
    cases m.unmap with
    | none => simp
    | some known => simp [mem_without, eq_comm]
  constructor
  · intro released router addedAt added running
    obtain ⟨ends, member, bound⟩ := recorded.complete router addedAt added
    rw [← recorded.last]
    by_contra forgotten
    have expired := released (router, ends) ((kept router ends).mpr
      ⟨member, forgotten⟩)
    change ends ≤ m.now + passed at expired
    omega
  · rintro covered ⟨router, ends⟩ member
    obtain ⟨inLeases, forgotten⟩ := (kept router ends).mp member
    obtain ⟨addedAt, added, isEnd⟩ := recorded.sound router ends inLeases
    change ends ≤ m.now + passed
    by_contra running
    refine forgotten ((recorded.last router).mpr ?_)
    exact covered router addedAt added (by omega)

end Attempts

/-- At the shutdown a delete has been issued for every mapping whose lease still
runs, if and only if the last attempt succeeded at the router of each of them.
After an attempt that fails where an external address is not public, no earlier
mapping is left open if and only if all their leases have run out. -/
theorem mapping_released_iff
    {Router : Type}
    [DecidableEq Router]
    (port : Nat)
    (turns : List (Turn Router)) :
    (∀ passed,
        (((mapping port).run (newPortMapper Router) turns).close
            passed).Released ↔
          ∀ router addedAt,
            Added ((mapping port).visits (newPortMapper Router) turns) router
              addedAt →
            ((mapping port).run (newPortMapper Router) turns).now + passed <
              addedAt + portMapLease →
            AddedLast ((mapping port).visits (newPortMapper Router) turns)
              router) ∧
      ∀ failing text,
        mapPort port failing.met = .error text → failing.met.HasPrivate →
        (((mapping port).run (newPortMapper Router)
            (turns ++ [failing])).Released ↔
          ∀ router addedAt,
            Added ((mapping port).visits (newPortMapper Router) turns) router
              addedAt →
            addedAt + portMapLease ≤
              ((mapping port).run (newPortMapper Router)
                (turns ++ [failing])).now) := by
  refine ⟨fun passed => (recorded_run port turns).close_iff passed, ?_⟩
  intro failing text fails _
  rw [(recorded_run port (turns ++ [failing])).released_iff]
  have same (router : Router) (addedAt : Nat) :
      Added
          ((mapping port).visits (newPortMapper Router) (turns ++ [failing]))
          router addedAt ↔
        Added ((mapping port).visits (newPortMapper Router) turns) router
          addedAt := by
    rw [Machine.visits_append]
    refine added_append.trans (or_iff_left ?_)
    rintro ⟨ep, succeeds, -⟩
    have failed : mapPort port failing.met = .ok (ep, router) := succeeds
    rw [fails] at failed
    cases failed
  simp only [same]

/-- A router that maps at once, over UPnP, under a public address. -/
def openRouter (router : Nat) : Surroundings Nat where
  conns :=
    [{ name := "WANIPConnection1"
       router
       getIP := .ok "203.0.113.7"
       localAddr := .ok "192.168.1.2"
       add := .ok () }]
  gateway := none

/-- The same router behind another one. -/
def behindAnother (router : Nat) : Surroundings Nat where
  conns :=
    [{ name := "WANIPConnection1"
       router
       getIP := .ok "192.168.0.17"
       localAddr := .ok "192.168.1.2"
       add := .ok () }]
  gateway := none

/-- An attempt without delays. -/
def promptly (met : Surroundings Nat) : Turn Nat :=
  ⟨met, 0, 0, 0⟩

/-- A mapping that is renewed is released at the shutdown, and one that has run
out is not open when the address turns private an hour later. -/
theorem mapping_released_renewed :
    (((mapping 51820).run (newPortMapper Nat)
        [promptly (openRouter 1), promptly (openRouter 1)]).close 5).Released ∧
      ((mapping 51820).run (newPortMapper Nat)
        ([promptly (openRouter 1), promptly (openRouter 1)] ++
          [⟨behindAnother 1, 3600000000000, 0, 0⟩])).Released := by
  have visited :
      ∀ visit ∈
          (mapping 51820).visits (newPortMapper Nat)
            [promptly (openRouter 1), promptly (openRouter 1)],
        visit.output.result = .ok ("203.0.113.7:51820", 1) ∧
          visit.output.addedAt ≤ portMapRenew := by
    decide +kernel
  constructor
  · refine ((mapping_released_iff 51820 _).1 5).mpr ?_
    rintro router addedAt ⟨visit, member, ep, isOk, -⟩ -
    rw [(visited visit member).1] at isOk
    cases isOk
    refine ⟨_, rfl, "203.0.113.7:51820", ?_⟩
    exact (visited _ (List.mem_cons_of_mem _ List.mem_cons_self)).1
  · refine ((mapping_released_iff 51820 _).2
      ⟨behindAnother 1, 3600000000000, 0, 0⟩
      "no default gateway for NAT-PMP" (by decide +kernel) ?_).mpr ?_
    · exact Or.inl ⟨_, List.mem_singleton_self _, "192.168.0.17", rfl,
        by decide +kernel⟩
    · rintro router addedAt ⟨visit, member, ep, -, isTime⟩
      have early := (visited visit member).2
      have now :
          portMapRenew + portMapLease ≤
            ((mapping 51820).run (newPortMapper Nat)
              ([promptly (openRouter 1), promptly (openRouter 1)] ++
                [⟨behindAnother 1, 3600000000000, 0, 0⟩])).now := by
        decide +kernel
      rw [← isTime]
      omega

/-- A mapping is left open at the shutdown after a failed renewal, after a
renewal at another router, and when the external address turns private. -/
theorem mapping_forgotten :
    ¬(((mapping 51820).run (newPortMapper Nat)
        [promptly (openRouter 1), promptly ⟨[], none⟩]).close 5).Released ∧
      ¬(((mapping 51820).run (newPortMapper Nat)
        [promptly (openRouter 1), promptly (openRouter 2)]).close
          5).Released ∧
      ¬((mapping 51820).run (newPortMapper Nat)
        [promptly (openRouter 1), promptly (behindAnother 1)]).Released :=
  ⟨by decide +kernel, by decide +kernel, by decide +kernel⟩

end WgMesh.PortMap
