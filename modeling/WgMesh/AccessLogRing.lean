import Mathlib.Data.List.Basic

namespace WgMesh.Server

/-!
# The access log in memory

The server keeps the newest lines of its access log in a ring for the admin
API.  A line is written at the next slot, which moves on and wraps; listing
walks backwards from there.  The ring is compared with the list of all lines
written so far.
-/

/-- `accessLogMode`. -/
inductive AccessLogMode where
  | memory
  | stdout
  | off
deriving DecidableEq

/-- `accessLogSink`; the next slot is one of the lines. -/
structure AccessLogSink (Line : Type) where
  mode : AccessLogMode
  next : Nat
  full : Bool
  lines : List Line
  inside : next < lines.length

/-- The number of lines a sink is made for. -/
def ringSize (size : Int) : Nat :=
  if size < 1 then 1 else size.toNat

theorem ringSize_pos
    (size : Int) :
    0 < ringSize size := by
  unfold ringSize
  split <;> omega

section Ring

variable {Line : Type} {sink : AccessLogSink Line} {recent : List Line}

theorem inside_replicate
    (size : Int)
    (zero : Line) :
    0 < (List.replicate (ringSize size) zero).length := by
  rw [List.length_replicate]
  exact ringSize_pos size

/-- `newAccessLogSink`, with the zero line in every slot. -/
def newAccessLogSink (mode : AccessLogMode) (size : Int) (zero : Line) :
    AccessLogSink Line where
  mode := mode
  next := 0
  full := false
  lines := List.replicate (ringSize size) zero
  inside := inside_replicate size zero

theorem inside_advance
    (sink : AccessLogSink Line)
    (line : Line) :
    (sink.next + 1) % sink.lines.length <
      (sink.lines.set sink.next line).length := by
  rw [List.length_set]
  exact Nat.mod_lt _ (Nat.zero_lt_of_lt sink.inside)

/-- The branch of `write` for memory mode. -/
def AccessLogSink.store (sink : AccessLogSink Line) (line : Line) :
    AccessLogSink Line where
  mode := sink.mode
  next := (sink.next + 1) % sink.lines.length
  full :=
    if (sink.next + 1) % sink.lines.length = 0 then true else sink.full
  lines := sink.lines.set sink.next line
  inside := inside_advance sink line

/-- `write`: the sink afterwards and the line printed to stdout, if any. -/
def AccessLogSink.write (sink : AccessLogSink Line) (line : Line) :
    AccessLogSink Line × Option Line :=
  match sink.mode with
  | .off => (sink, none)
  | .stdout => (sink, some line)
  | .memory => (sink.store line, none)

/-- How many lines the ring holds. -/
def AccessLogSink.total (sink : AccessLogSink Line) : Nat :=
  if sink.full then sink.lines.length else sink.next

/-- The slot of the line that is so many lines old. -/
def slot (next size age : Nat) : Nat :=
  let index : Int := next - 1 - age
  (if index < 0 then index + size else index).toNat

/-- `list`. -/
def AccessLogSink.list [Inhabited Line] (sink : AccessLogSink Line)
    (limit : Int) : List Line :=
  if sink.mode ≠ .memory ∨ limit ≤ 0 then
    []
  else
    let limit := if limit > sink.total then sink.total else limit.toNat
    (List.range limit).map fun age =>
      sink.lines.getD (slot sink.next sink.lines.length age) default

/-- The ring holds the newest lines, at the slots of their age. -/
structure AccessLogSink.Holds (sink : AccessLogSink Line)
    (recent : List Line) : Prop where
  memory : sink.mode = .memory
  filled : sink.total = min sink.lines.length recent.length
  entry :
    ∀ age, age < sink.total →
      sink.lines[slot sink.next sink.lines.length age]? = recent[age]?

/-- The line just written is at the slot before the next one. -/
theorem slot_zero
    {next size : Nat}
    (inside : next < size) :
    slot ((next + 1) % size) size 0 = next := by
  unfold slot
  by_cases wraps : next + 1 = size
  · rw [wraps, Nat.mod_self]
    dsimp only
    split <;> omega
  · rw [Nat.mod_eq_of_lt (by omega)]
    dsimp only
    split <;> omega

/-- A line keeps its slot while it gets older. -/
theorem slot_succ
    {next size age : Nat}
    (inside : next < size)
    (young : age + 1 < size) :
    slot ((next + 1) % size) size (age + 1) = slot next size age ∧
      slot next size age ≠ next := by
  unfold slot
  dsimp only
  by_cases wraps : next + 1 = size
  · rw [wraps, Nat.mod_self]
    constructor <;> split <;> (try split) <;> omega
  · rw [Nat.mod_eq_of_lt (by omega)]
    constructor <;> split <;> (try split) <;> omega

/-- The number of lines after one more. -/
theorem total_store
    (filled : sink.total = min sink.lines.length recent.length)
    (line : Line) :
    (sink.store line).total =
      min sink.lines.length (recent.length + 1) := by
  have inside := sink.inside
  unfold AccessLogSink.total at filled
  change
    (if (if (sink.next + 1) % sink.lines.length = 0 then true
          else sink.full) = true then
        (sink.lines.set sink.next line).length
      else (sink.next + 1) % sink.lines.length) = _
  rw [List.length_set]
  by_cases wraps : sink.next + 1 = sink.lines.length
  · rw [wraps, Nat.mod_self, if_pos rfl, if_pos rfl]
    split at filled <;> omega
  · have later : sink.next + 1 ≠ 0 := by omega
    rw [Nat.mod_eq_of_lt (by omega)]
    simp only [later, if_false]
    cases full : sink.full with
    | true =>
        rw [full, if_pos rfl] at filled
        rw [if_pos rfl]
        omega
    | false =>
        rw [full, if_neg Bool.false_ne_true] at filled
        rw [if_neg Bool.false_ne_true]
        omega

/-- One more line is written. -/
theorem AccessLogSink.Holds.store
    (holds : sink.Holds recent)
    (line : Line) :
    (sink.store line).Holds (line :: recent) := by
  refine ⟨holds.memory, ?_, ?_⟩
  · rw [total_store holds.filled]
    simp [AccessLogSink.store]
  · intro age young
    rw [total_store holds.filled] at young
    change (sink.lines.set sink.next line)[slot _
      (sink.lines.set sink.next line).length age]? = _
    rw [List.length_set]
    cases age with
    | zero =>
        rw [AccessLogSink.store, slot_zero sink.inside,
          List.getElem?_set_self sink.inside]
        rfl
    | succ age =>
        obtain ⟨same, other⟩ := slot_succ sink.inside
          (show age + 1 < sink.lines.length by omega)
        rw [AccessLogSink.store, same, List.getElem?_set_ne other.symm,
          List.getElem?_cons_succ]
        exact holds.entry age (by rw [holds.filled]; omega)

/-- A whole sequence of lines is written. -/
theorem AccessLogSink.Holds.run
    (holds : sink.Holds recent)
    (written : List Line) :
    (written.foldl (fun sink line => (sink.write line).1) sink).Holds
      (written.reverse ++ recent) := by
  induction written generalizing sink recent with
  | nil => exact holds
  | cons line rest inductionHypothesis =>
      have stored : (sink.write line).1 = sink.store line := by
        rw [AccessLogSink.write, holds.memory]
      rw [List.foldl_cons, stored, List.reverse_cons, List.append_assoc]
      exact inductionHypothesis (holds.store line)

theorem holds_newAccessLogSink
    (size : Int)
    (zero : Line) :
    (newAccessLogSink .memory size zero).Holds [] := by
  refine ⟨rfl, ?_, ?_⟩
  · simp [AccessLogSink.total, newAccessLogSink]
  · intro age young
    cases young

theorem length_run
    (written : List Line) :
    (written.foldl (fun sink line => (sink.write line).1) sink).lines.length =
      sink.lines.length := by
  induction written generalizing sink with
  | nil => rfl
  | cons line rest inductionHypothesis =>
      rw [List.foldl_cons, inductionHypothesis]
      cases mode : sink.mode <;>
        simp [AccessLogSink.write, mode, AccessLogSink.store]

variable [Inhabited Line]

/-- What is listed of a ring. -/
theorem AccessLogSink.Holds.list
    (holds : sink.Holds recent)
    {limit : Int}
    (positive : 0 < limit) :
    sink.list limit =
      recent.take (min limit.toNat (min sink.lines.length recent.length)) := by
  have count :
      (if limit > sink.total then sink.total else limit.toNat) =
        min limit.toNat (min sink.lines.length recent.length) := by
    rw [← holds.filled]
    split <;> omega
  unfold AccessLogSink.list
  rw [if_neg (by
    rintro (other | none)
    · exact other holds.memory
    · omega)]
  dsimp only
  rw [count]
  apply List.ext_getElem?
  intro age
  by_cases listed :
      age < min limit.toNat (min sink.lines.length recent.length)
  · have entry := holds.entry age (by rw [holds.filled]; omega)
    rw [List.getElem?_map, List.getElem?_range listed,
      List.getElem?_take_of_lt listed, Option.map_some,
      List.getD_eq_getElem?_getD, entry,
      List.getElem?_eq_getElem (by omega), Option.getD_some]
  · rw [List.getElem?_eq_none, List.getElem?_eq_none]
    · rw [List.length_take]
      omega
    · rw [List.length_map, List.length_range]
      omega

/--
After any lines were written to a sink in memory mode, listing returns the
newest of them, at most as many as asked for and as the ring has slots, the
newest first.
-/
theorem list_returns_newest
    (size : Int)
    (atLeastOne : 1 ≤ size)
    (zero : Line)
    (written : List Line)
    (limit : Int)
    (positive : 0 < limit) :
    (written.foldl (fun sink line => (sink.write line).1)
        (newAccessLogSink .memory size zero)).list limit =
      written.reverse.take
        (min limit.toNat (min size.toNat written.length)) := by
  have holds := (holds_newAccessLogSink size zero).run written
  have slots :
      (newAccessLogSink .memory size zero).lines.length = size.toNat := by
    simp only [newAccessLogSink, List.length_replicate, ringSize]
    rw [if_neg (by omega)]
  rw [holds.list positive, length_run, slots, List.append_nil,
    List.length_reverse]

end Ring

/-- Three lines in a ring of two: the last two, the newest first. -/
theorem list_returns_newest_wrapped :
    (["/one", "/two", "/three"].foldl (fun sink line => (sink.write line).1)
      (newAccessLogSink .memory 2 "")).list 10 = ["/three", "/two"] :=
  list_returns_newest 2 (by decide) "" ["/one", "/two", "/three"] 10
    (by decide)

end WgMesh.Server
