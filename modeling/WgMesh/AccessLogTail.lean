import WgMesh.FiniteRuns
import WgMesh.TerminatedLines

namespace WgMesh.AccessLog

/-!
# Following an access log

The tailer looks at the size of the log from time to time, reads what is new,
and advances behind the last complete line.  Which lines it ingests does not
depend on when it looks.
-/

open FiniteRuns TerminatedLines

/-- The end of a line. -/
def newline : UInt8 := 10

/-- One poll: the size of the log, if it is there, and its content when it is
opened, if it can be opened and positioned. -/
structure Poll where
  size : Option Nat
  file : Option (List UInt8)
deriving DecidableEq

/-- `readNew`: the lines that are ingested, and the new offset. -/
def readNew (offset size : Nat) (file : Option (List UInt8)) :
    List (List UInt8) × Nat :=
  match file with
  | none => ([], offset)
  | some content =>
      let data := (content.drop offset).take (size - offset)
      match lastIndexOf newline data with
      | none => ([], offset)
      | some lastNL =>
          (parts newline (data.take lastNL), offset + lastNL + 1)

/-- One turn of the loop in `run`.  An offset that is not positioned is
missing. -/
def poll (offset : Option Nat) (seen : Poll) :
    List (List UInt8) × Option Nat :=
  match seen.size, offset with
  | none, _ => ([], none)
  | some size, none => ([], some size)
  | some size, some offset =>
      if size < offset then
        ((readNew 0 size seen.file).1, some (readNew 0 size seen.file).2)
      else if size = offset then
        ([], some offset)
      else
        ((readNew offset size seen.file).1,
          some (readNew offset size seen.file).2)

/-- The polls of a tailer, one after the other. -/
def tailing : Machine (Option Nat) Poll (List (List UInt8)) where
  step := poll

/-- All lines that are passed to `ingest`. -/
def ingested (offset : Option Nat) (polls : List Poll) : List (List UInt8) :=
  (tailing.visits offset polls).flatMap (·.output)

/-- A poll of a log that is there: its content when its size is read and when
it is opened, and whether that succeeds. -/
structure Sighting where
  stat : List UInt8
  file : List UInt8
  opened : Bool
deriving DecidableEq

/-- What the tailer sees. -/
def Sighting.poll (sighting : Sighting) : Poll where
  size := some sighting.stat.length
  file := if sighting.opened then some sighting.file else none

/-- The log is only appended to: what it contains at one time starts what it
contains at any later time. -/
def AppendOnly (sightings : List Sighting) : Prop :=
  (sightings.flatMap fun sighting => [sighting.stat, sighting.file]).Pairwise
    (· <+: ·)

/-- A schedule of polls that ends with a look at a content, and reads it. -/
structure EndsAt (sightings : List Sighting) (content : List UInt8) : Prop where
  appendOnly : AppendOnly sightings
  last :
    ∃ sighting, sightings.getLast? = some sighting ∧
      sighting.stat = content ∧ sighting.opened = true

/-- A sighting fits a content that is appended to later. -/
structure Sighting.Within (sighting : Sighting) (whole : List UInt8) :
    Prop where
  stat : sighting.stat <+: whole
  file : sighting.file <+: whole
  grows : sighting.stat <+: sighting.file

theorem Sighting.Within.data
    {sighting : Sighting}
    {whole : List UInt8}
    (within : sighting.Within whole)
    {offset : Nat}
    (behind : offset ≤ sighting.stat.length) :
    (sighting.file.drop offset).take (sighting.stat.length - offset) =
      (whole.drop offset).take (sighting.stat.length - offset) := by
  obtain ⟨more, rfl⟩ := within.file
  have fits := within.grows.length_le
  rw [List.take_drop, List.take_drop, List.take_append_of_le_length]
  omega

/-- One poll behind the start ingests the complete lines of what is new, and
advances behind them. -/
theorem poll_step
    {sighting : Sighting}
    {whole : List UInt8}
    {offset : Nat}
    (within : sighting.Within whole)
    (behind : offset ≤ sighting.stat.length) :
    ∃ chunk tail,
      (whole.drop offset).take (sighting.stat.length - offset) =
          chunk ++ tail ∧
        Terminated newline chunk ∧
        poll (some offset) sighting.poll =
          (fields newline chunk, some (offset + chunk.length)) ∧
        (sighting.opened = true → newline ∉ tail) := by
  have data := within.data behind
  unfold poll Sighting.poll
  dsimp only
  rw [if_neg (by omega)]
  by_cases nothing : sighting.stat.length = offset
  · -- There is nothing new.
    refine ⟨[], [], ?_, Or.inl rfl, ?_, fun _ => List.not_mem_nil⟩
    · rw [nothing, Nat.sub_self, List.take_zero]
      rfl
    · rw [if_pos nothing]
      rfl
  rw [if_neg nothing]
  cases opened : sighting.opened with
  | false =>
      refine ⟨[], _, rfl, Or.inl rfl, rfl, ?_⟩
      intro impossible
      cases impossible
  | true =>
      simp only [readNew, if_true, data]
      generalize (whole.drop offset).take (sighting.stat.length - offset) = new
      cases isLast : lastIndexOf newline new with
      | none =>
          exact ⟨[], _, rfl, Or.inl rfl, rfl,
            fun _ => not_mem_of_lastIndexOf isLast⟩
      | some lastNL =>
          obtain ⟨back, shape, length, absent⟩ := split_of_lastIndexOf isLast
          refine ⟨new.take lastNL ++ [newline], back, ?_, Or.inr ⟨_, rfl⟩, ?_,
            fun _ => absent⟩
          · rw [List.append_assoc]
            exact shape
          · dsimp only
            rw [fields_mark, fields_of_not_mem List.not_mem_nil,
              List.append_nil, List.length_append, length]
            rfl

theorem ingested_cons
    (offset : Option Nat)
    (seen : Poll)
    (rest : List Poll) :
    ingested offset (seen :: rest) =
      (poll offset seen).1 ++ ingested (poll offset seen).2 rest :=
  rfl

/-- A schedule of polls behind a start ingests the complete lines of a part of
the log; if its last poll reads the log, no line that is complete by then is
behind that part. -/
theorem ingested_run
    {whole : List UInt8}
    {sightings : List Sighting}
    (within : ∀ sighting ∈ sightings, sighting.Within whole)
    (grows :
      sightings.Pairwise fun earlier later =>
        earlier.stat.length ≤ later.stat.length)
    {offset : Nat}
    (behind : ∀ sighting ∈ sightings, offset ≤ sighting.stat.length) :
    ∃ chunk,
      Terminated newline chunk ∧
        ingested (some offset) (sightings.map Sighting.poll) =
          fields newline chunk ∧
        ∀ last, sightings.getLast? = some last → last.opened = true →
          ∃ tail,
            (whole.drop offset).take (last.stat.length - offset) =
                chunk ++ tail ∧
              newline ∉ tail := by
  induction sightings generalizing offset with
  | nil =>
      refine ⟨[], Or.inl rfl, rfl, ?_⟩
      intro last isLast
      cases isLast
  | cons sighting rest inductionHypothesis =>
      obtain ⟨chunk, tail, shape, terminated, isPoll, complete⟩ :=
        poll_step (within sighting List.mem_cons_self)
          (behind sighting List.mem_cons_self)
      have short : offset + chunk.length ≤ sighting.stat.length := by
        have size := congrArg List.length shape
        have atLeast := behind sighting List.mem_cons_self
        rw [List.length_append, List.length_take] at size
        omega
      rw [List.map_cons, ingested_cons, isPoll]
      dsimp only
      cases rest with
      | nil =>
          refine ⟨chunk, terminated, List.append_nil _, ?_⟩
          intro last isLast opened
          cases isLast
          exact ⟨tail, shape, complete opened⟩
      | cons next later =>
          rw [List.pairwise_cons] at grows
          obtain ⟨chunk', terminated', lines, complete'⟩ :=
            @inductionHypothesis
              (fun other member => within other (List.mem_cons_of_mem _ member))
              grows.2 (offset + chunk.length)
              (fun other member => Nat.le_trans short (grows.1 other member))
          refine ⟨chunk ++ chunk', terminated.append terminated', ?_, ?_⟩
          · rw [lines, terminated.fields_append]
          · intro last isLast opened
            rw [List.getLast?_cons_cons] at isLast
            obtain ⟨tail', shape', absent⟩ := complete' last isLast opened
            refine ⟨tail', ?_, absent⟩
            have inRest : last ∈ next :: later := List.mem_of_getLast? isLast
            have longer := Nat.le_trans short (grows.1 last inRest)
            -- The part up to the last size continues the one of this poll.
            have starts : chunk <+: whole.drop offset :=
              (show chunk <+: (whole.drop offset).take _ from
                ⟨tail, shape.symm⟩).trans (List.take_prefix _ _)
            obtain ⟨more, continued⟩ := starts
            have rest : whole.drop (offset + chunk.length) = more := by
              rw [← List.drop_drop, ← continued, List.drop_left]
            rw [rest] at shape'
            rw [← continued, List.take_append,
              List.take_of_length_le (by omega), List.append_assoc, ← shape',
              Nat.sub_sub]

/-- In a log that is only appended to, every sighting fits the last content,
and the sizes grow. -/
theorem within_of_appendOnly
    {sightings : List Sighting}
    {last : Sighting}
    (appendOnly : AppendOnly sightings)
    (isLast : sightings.getLast? = some last) :
    (∀ sighting ∈ sightings, sighting.Within last.file) ∧
      sightings.Pairwise fun earlier later =>
        earlier.stat.length ≤ later.stat.length := by
  obtain ⟨each, between⟩ := List.pairwise_flatMap.mp appendOnly
  have grows : ∀ sighting ∈ sightings, sighting.stat <+: sighting.file := by
    intro sighting member
    exact List.rel_of_pairwise_cons (each sighting member)
      List.mem_cons_self
  obtain ⟨init, rfl⟩ := List.getLast?_eq_some_iff.mp isLast
  constructor
  · intro sighting member
    rcases List.mem_append.mp member with earlier | isSame
    · have before :=
        (List.pairwise_append.mp between).2.2 sighting earlier last
          List.mem_cons_self
      exact ⟨before _ List.mem_cons_self _ (by simp),
        before _ (by simp) _ (by simp), grows sighting member⟩
    · rw [List.mem_singleton.mp isSame] at member ⊢
      exact ⟨grows last member, List.prefix_refl _, grows last member⟩
  · refine between.imp ?_
    intro earlier later before
    exact (before _ List.mem_cons_self _ List.mem_cons_self).length_le

/-- A schedule ingests the complete lines behind the size it starts at. -/
theorem EndsAt.ingested_eq
    {first : Sighting}
    {rest : List Sighting}
    {content : List UInt8}
    (ends : EndsAt (first :: rest) content) :
    ingested none ((first :: rest).map Sighting.poll) =
      fields newline (content.drop first.stat.length) := by
  obtain ⟨last, isLast, isContent, opened⟩ := ends.last
  obtain ⟨within, grows⟩ := within_of_appendOnly ends.appendOnly isLast
  rw [List.pairwise_cons] at grows
  change ingested (some first.stat.length) (rest.map Sighting.poll) = _
  obtain ⟨chunk, terminated, lines, complete⟩ :=
    ingested_run
      (fun other member => within other (List.mem_cons_of_mem _ member))
      grows.2 grows.1
  cases rest with
  | nil =>
      have same : first = last := Option.some.inj isLast
      rw [← isContent, ← same, List.drop_length,
        fields_of_not_mem List.not_mem_nil]
      rfl
  | cons next later =>
      rw [List.getLast?_cons_cons] at isLast
      have inRest : last ∈ next :: later := List.mem_of_getLast? isLast
      have longer := grows.1 last inRest
      obtain ⟨more, continued⟩ :=
        (within last (List.mem_cons_of_mem _ inRest)).stat
      have atEnd :
          (last.file.drop first.stat.length).take
              (last.stat.length - first.stat.length) =
            content.drop first.stat.length := by
        rw [← isContent, ← continued, List.take_drop,
          Nat.add_sub_cancel' longer, List.take_left]
      obtain ⟨tail, shape, absent⟩ := complete last isLast opened
      rw [lines, ← atEnd, shape, terminated.fields_append,
        fields_of_not_mem absent, List.append_nil]

/-- Two schedules of polls of a log that is only appended to, with one size at
their start and one content at their end, ingest the same lines: those behind
the start that are not empty and that a line end completes, each once and in
order. -/
theorem tail_schedule_independent
    {content : List UInt8}
    {first first' : Sighting}
    {rest rest' : List Sighting}
    (ends : EndsAt (first :: rest) content)
    (ends' : EndsAt (first' :: rest') content)
    (sameStart : first.stat.length = first'.stat.length) :
    ingested none ((first :: rest).map Sighting.poll) =
        fields newline (content.drop first.stat.length) ∧
      ingested none ((first' :: rest').map Sighting.poll) =
        ingested none ((first :: rest).map Sighting.poll) := by
  refine ⟨ends.ingested_eq, ?_⟩
  rw [ends.ingested_eq, ends'.ingested_eq, sameStart]

/-- A poll that reads the content whose size it has seen. -/
def sighted (content : List UInt8) : Sighting where
  stat := content
  file := content
  opened := true

/-- A line that is seen in two parts is ingested once, whether it is polled in
between or not; the last line is not complete. -/
theorem tail_schedule_independent_halfLine :
    ingested none
        ([sighted [7], sighted [7, 65, 66], sighted [7, 65, 66, 67, 10, 10, 68]
          ].map Sighting.poll) = [[65, 66, 67]] ∧
      ingested none
        ([sighted [7], sighted [7, 65, 66, 67, 10, 10, 68]].map
          Sighting.poll) =
        ingested none
          ([sighted [7], sighted [7, 65, 66],
            sighted [7, 65, 66, 67, 10, 10, 68]].map Sighting.poll) := by
  have ends :
      EndsAt
        [sighted [7], sighted [7, 65, 66],
          sighted [7, 65, 66, 67, 10, 10, 68]]
        [7, 65, 66, 67, 10, 10, 68] :=
    ⟨by unfold AppendOnly; decide, _, rfl, rfl, rfl⟩
  have ends' :
      EndsAt [sighted [7], sighted [7, 65, 66, 67, 10, 10, 68]]
        [7, 65, 66, 67, 10, 10, 68] :=
    ⟨by unfold AppendOnly; decide, _, rfl, rfl, rfl⟩
  obtain ⟨lines, same⟩ := tail_schedule_independent ends ends' rfl
  exact ⟨lines.trans (by decide +kernel), same⟩

end WgMesh.AccessLog
