import Mathlib.Algebra.Order.Ring.Nat
import Mathlib.Data.List.AList

namespace WgMesh.Relay

/-!
# Datagrams in QUIC frames

A QUIC frame is too small for every datagram, so the agents cut a datagram into
fragments with its number and put it together again at the other end: the loops
`udpToQUIC` and `quicToUDP`.  What the order of a map decides is a parameter.
-/

/-- `quicFragmentPayload`. -/
def quicFragmentPayload : Nat := 1000

/-- `binary.BigEndian.PutUint32`. -/
def putUint32 (id : Nat) : List UInt8 :=
  [UInt8.ofNat (id / 2 ^ 24), UInt8.ofNat (id / 2 ^ 16),
    UInt8.ofNat (id / 2 ^ 8), UInt8.ofNat id]

/-- `binary.BigEndian.Uint32`. -/
def uint32 (first second third fourth : UInt8) : Nat :=
  first.toNat * 2 ^ 24 + second.toNat * 2 ^ 16 + third.toNat * 2 ^ 8 +
    fourth.toNat

/-- How many fragments `udpToQUIC` makes of a number of bytes. -/
def fragmentCount (n : Nat) : Nat :=
  (n + quicFragmentPayload - 1) / quicFragmentPayload

/-- The bytes of the fragment with an index. -/
def part (bytes : List UInt8) (i : Nat) : List UInt8 :=
  (bytes.drop (i * quicFragmentPayload)).take quicFragmentPayload

/-- The fragment with an index, after its header. -/
def fragment (id count : Nat) (bytes : List UInt8) (i : Nat) : List UInt8 :=
  87 :: 81 :: UInt8.ofNat i :: UInt8.ofNat count ::
    (putUint32 id ++ part bytes i)

/-- The frames that `udpToQUIC` sends for a datagram. -/
def fragments (id : Nat) (bytes : List UInt8) : List (List UInt8) :=
  let count := fragmentCount bytes.length
  if count = 0 ∨ 255 < count then []
  else (List.range count).map (fragment id count bytes)

/-- `quicAssembly`.  A missing part is empty; the time is never read. -/
structure Assembly where
  parts : List (List UInt8)
  seen : Nat
deriving DecidableEq

/-- The datagrams that are not complete, by their numbers. -/
abbrev Assemblies : Type := AList (fun _ : Nat => Assembly)

/-- What a frame says about its fragment. -/
structure Header where
  idx : Nat
  count : Nat
  id : Nat
  payload : List UInt8
deriving DecidableEq

/-- The checks of `quicToUDP` on a frame. -/
def header? : List UInt8 → Option Header
  | w :: q :: idx :: count :: first :: second :: third :: fourth ::
      payload =>
      if w = 87 ∧ q = 81 ∧ count.toNat ≠ 0 ∧ idx.toNat < count.toNat then
        some
          { idx := idx.toNat
            count := count.toNat
            id := uint32 first second third fourth
            payload := payload }
      else
        none
  | _ => none

/-- Make room for an assembly; `pick` stands for the order of the map. -/
def makeRoom (assemblies : Assemblies) (pick : Nat) : Assemblies :=
  if 64 ≤ assemblies.keys.length then
    match assemblies.keys[pick % assemblies.keys.length]? with
    | some old => assemblies.erase old
    | none => assemblies
  else
    assemblies

/-- The assembly of a fragment, which may be the first of its datagram. -/
def assemblyOf (assemblies : Assemblies) (header : Header) (pick : Nat) :
    Assembly × Assemblies :=
  match assemblies.lookup header.id with
  | some a => (a, assemblies)
  | none =>
      let a : Assembly :=
        { parts := List.replicate header.count [], seen := 0 }
      (a, (makeRoom assemblies pick).insert header.id a)

/-- The rest of the loop of `quicToUDP`: the datagram that is written, if the
fragment completes one. -/
def takeFragment (assemblies : Assemblies) (header : Header) (pick : Nat) :
    Option (List UInt8) × Assemblies :=
  let found := assemblyOf assemblies header pick
  if found.1.parts.length ≠ header.count ∨
      found.1.parts.getD header.idx [] ≠ [] then
    (none, found.2)
  else
    let a : Assembly :=
      { parts := found.1.parts.set header.idx header.payload
        seen := found.1.seen + 1 }
    if a.seen ≠ header.count then
      (none, found.2.insert header.id a)
    else
      (if a.parts.flatten.length ≤ 2 ^ 16 then some a.parts.flatten else none,
        found.2.erase header.id)

/-- The loop of `quicToUDP` for one frame. -/
def quicToUDP (assemblies : Assemblies) (frame : List UInt8) (pick : Nat) :
    Option (List UInt8) × Assemblies :=
  match header? frame with
  | none => (none, assemblies)
  | some header => takeFragment assemblies header pick

theorem uint32_putUint32
    {id : Nat}
    (small : id < 2 ^ 32) :
    uint32 (UInt8.ofNat (id / 2 ^ 24)) (UInt8.ofNat (id / 2 ^ 16))
        (UInt8.ofNat (id / 2 ^ 8)) (UInt8.ofNat id) =
      id := by
  simp only [uint32, UInt8.toNat_ofNat']
  omega

/-- A fragment is read as it was written. -/
theorem header?_fragment
    {id count i : Nat}
    (small : id < 2 ^ 32)
    (few : count ≤ 255)
    (inside : i < count)
    (bytes : List UInt8) :
    header? (fragment id count bytes i) =
      some { idx := i, count := count, id := id, payload := part bytes i } := by
  have countBack : (UInt8.ofNat count).toNat = count := by
    rw [UInt8.toNat_ofNat']
    omega
  have indexBack : (UInt8.ofNat i).toNat = i := by
    rw [UInt8.toNat_ofNat']
    omega
  have positive : count ≠ 0 := by omega
  simp only [fragment, putUint32, List.cons_append, List.nil_append, header?,
    countBack, indexBack, uint32_putUint32 small]
  rw [if_pos ⟨trivial, trivial, positive, inside⟩]

theorem flatten_parts
    (bytes : List UInt8)
    (count : Nat) :
    ((List.range count).map (part bytes)).flatten =
      bytes.take (count * quicFragmentPayload) := by
  induction count with
  | zero => simp
  | succ count inductionHypothesis =>
      rw [List.range_succ, List.map_append, List.flatten_append,
        inductionHypothesis, Nat.succ_mul, List.take_add]
      simp [part]

theorem flatten_all_parts
    (bytes : List UInt8) :
    ((List.range (fragmentCount bytes.length)).map (part bytes)).flatten =
      bytes := by
  rw [flatten_parts]
  refine List.take_of_length_le ?_
  unfold fragmentCount quicFragmentPayload
  omega

/-- Making room removes an assembly or leaves it alone. -/
theorem lookup_makeRoom
    (assemblies : Assemblies)
    (pick id : Nat) :
    (makeRoom assemblies pick).lookup id = assemblies.lookup id ∨
      (makeRoom assemblies pick).lookup id = none := by
  unfold makeRoom
  split
  · split
    · rename_i old _
      by_cases same : id = old
      · rw [same]
        exact Or.inr (AList.lookup_erase _ _)
      · exact Or.inl (AList.lookup_erase_ne same)
    · exact Or.inl rfl
  · exact Or.inl rfl

/-- A frame under another number leaves an assembly alone, unless room is made
at its expense. -/
theorem lookup_quicToUDP
    {assemblies : Assemblies}
    {id : Nat}
    {frame : List UInt8}
    (other : ∀ header, header? frame = some header → header.id ≠ id)
    (pick : Nat) :
    (quicToUDP assemblies frame pick).2.lookup id = assemblies.lookup id ∨
      (quicToUDP assemblies frame pick).2.lookup id =
        (makeRoom assemblies pick).lookup id := by
  unfold quicToUDP
  split
  · exact Or.inl rfl
  · rename_i header read
    have different : id ≠ header.id := fun same =>
      other header read same.symm
    have found :
        (assemblyOf assemblies header pick).2.lookup id =
            assemblies.lookup id ∨
          (assemblyOf assemblies header pick).2.lookup id =
            (makeRoom assemblies pick).lookup id := by
      unfold assemblyOf
      split
      · exact Or.inl rfl
      · exact Or.inr (AList.lookup_insert_ne different)
    unfold takeFragment
    simp only
    split
    · exact found
    · split
      · rw [AList.lookup_insert_ne different]
        exact found
      · rw [AList.lookup_erase_ne different]
        exact found

end WgMesh.Relay
