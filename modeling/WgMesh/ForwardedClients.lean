import WgMesh.ServerHandlers

namespace WgMesh.Server

open NetAddress TextScan

/-!
# Clients behind a proxy

A trusted proxy tells the server from which address a request reached it: it
appends the address to the last forwarding line of the request, or adds a line
of its own.  The server reads the last entry of the first line.  That is the
proxy's entry as long as the proxy's line is the first one; a client that sends
more lines than that chooses the entry itself.
-/

/-- The text of an observed address: not empty, without commas and spaces. -/
structure ObservedAddress where
  text : String
  nonempty : text ≠ ""
  plain : ∀ char ∈ text.toList, char ≠ ',' ∧ isSpace char = false

/-- How a proxy conveys the observed address. -/
inductive Conveyance where
  /-- A comma, a space and the address after the last line. -/
  | appended
  /-- A further line. -/
  | addedLine
deriving DecidableEq

/-- The lines that reach the server, from those the client has sent.  A proxy
that finds no line to append to adds one. -/
def Conveyance.lines (observed : String) (sent : List String) :
    Conveyance → List String
  | .appended =>
      match sent.getLast? with
      | some last => sent.dropLast ++ [last ++ ", " ++ observed]
      | none => [observed]
  | .addedLine => sent ++ [observed]

/-- How many lines a client may send before the proxy's is not the first. -/
def Conveyance.limit : Conveyance → Nat
  | .appended => 1
  | .addedLine => 0

/-- `Header.Get`: the first line, or nothing. -/
def headerGet (lines : List String) : String :=
  lines.head?.getD ""

/-- A request through a proxy. -/
def proxied (remoteAddr authorization : String) (way : Conveyance)
    (observed : String) (sent : List String) : Request where
  remoteAddr
  forwardedFor := headerGet (way.lines observed sent)
  authorization

theorem plain_of_digit
    {char : Char}
    (digit : (digitValue? char).isSome = true) :
    char ≠ ',' ∧ isSpace char = false := by
  obtain ⟨low, high⟩ := digit_bounds digit
  constructor
  · rintro rfl
    exact absurd low (by decide)
  · exact not_isSpace_of_printable (by omega) (by omega)

/-- An address without a zone can be observed. -/
def ObservedAddress.ofAddr (addr : Addr) (zoneFree : addr.zone = "") :
    ObservedAddress where
  text := addr.text
  nonempty := by
    intro empty
    have read := parseAddr_text zoneFree
    rw [empty] at read
    cases read
  plain := by
    intro char member
    rcases addr.digit_of_mem_text zoneFree member with rfl | rfl | digit
    · decide
    · decide
    · exact plain_of_digit digit

/-- Another address text. -/
def ObservedAddress.other (observed : ObservedAddress) : ObservedAddress where
  text := observed.text ++ "0"
  nonempty := by
    intro empty
    have noChars := congrArg String.toList empty
    simp at noChars
  plain := by
    intro char member
    rw [String.toList_append, List.mem_append] at member
    rcases member with inText | isZero
    · exact observed.plain char inText
    · obtain rfl := List.mem_singleton.mp isZero
      decide

theorem ObservedAddress.other_ne
    (observed : ObservedAddress) :
    observed.other.text ≠ observed.text := by
  intro same
  have sameLength := congrArg (fun text => text.toList.length) same
  simp [ObservedAddress.other] at sameLength

/-- The rightmost entry of a line. -/
def rightmost (line : String) : String :=
  trimSpace (String.ofList ((line.toList.splitOn ',').getLast?.getD []))

/-- The rightmost entry of a line without commas and spaces is the line. -/
theorem rightmost_plain
    (observed : ObservedAddress) :
    rightmost observed.text = observed.text := by
  have single : observed.text.toList.splitOn ',' = [observed.text.toList] := by
    refine List.splitOn_eq_singleton fun member => ?_
    exact (observed.plain _ member).1 rfl
  rw [rightmost, single]
  change trimSpace (String.ofList observed.text.toList) = _
  rw [String.ofList_toList]
  exact trimSpace_eq_self fun char member => (observed.plain char member).2

/-- The rightmost entry of a line to which an address was appended. -/
theorem rightmost_appended
    (observed : ObservedAddress)
    (line : String) :
    rightmost (line ++ ", " ++ observed.text) = observed.text := by
  have characters :
      (line ++ ", " ++ observed.text).toList =
        line.toList ++ ',' :: ' ' :: observed.text.toList := by
    simp
  have single :
      (' ' :: observed.text.toList).splitOn ',' =
        [' ' :: observed.text.toList] := by
    refine List.splitOn_eq_singleton fun member => ?_
    rcases List.mem_cons.mp member with isSpace | inText
    · cases isSpace
    · exact (observed.plain _ inText).1 rfl
  have trimmed :
      trimSpace (String.ofList (' ' :: observed.text.toList)) =
        trimSpace observed.text := by
    unfold trimSpace
    rw [String.toList_ofList, List.dropWhile_cons_of_pos (by decide)]
  rw [rightmost, characters, List.splitOn_append_cons_self, single,
    List.getLast?_concat]
  change trimSpace (String.ofList (' ' :: observed.text.toList)) = _
  rw [trimmed]
  exact trimSpace_eq_self fun char member => (observed.plain char member).2

section Proxied

variable
  {config : Config} {remoteAddr host port : String}
  (splits : splitHostPort remoteAddr = some (host, port))
  (trusted : config.trustsXFFFrom host = true)
  (authorization : String)

include splits trusted

theorem clientIP_proxied
    {way : Conveyance}
    {observed line : String}
    {sent : List String}
    (first : headerGet (way.lines observed sent) = line)
    (nonempty : line ≠ "") :
    config.clientIP (proxied remoteAddr authorization way observed sent) =
      rightmost line := by
  simp only [Config.clientIP, proxied, splits, trusted, first, Bool.true_and]
  rw [if_pos (bne_iff_ne.mpr nonempty)]
  rfl

/-- A client that sends no more lines than the proxy's place allows is seen
under the observed address. -/
theorem clientIP_vouched
    (way : Conveyance)
    (observed : ObservedAddress)
    {sent : List String}
    (few : sent.length ≤ way.limit) :
    config.clientIP (proxied remoteAddr authorization way observed.text sent) =
      observed.text := by
  -- the proxy's line is the first one in both ways of conveying
  have alone :
      config.clientIP (proxied remoteAddr authorization way observed.text []) =
        observed.text := by
    have first : headerGet (way.lines observed.text []) = observed.text := by
      cases way with
      | appended => rfl
      | addedLine => rfl
    rw [clientIP_proxied splits trusted authorization first observed.nonempty]
    exact rightmost_plain observed
  cases sent with
  | nil => exact alone
  | cons line rest =>
      cases way with
      | addedLine => cases few
      | appended =>
          have isLast : rest = [] :=
            List.eq_nil_of_length_eq_zero
              (Nat.le_zero.mp (Nat.le_of_succ_le_succ few))
          subst isLast
          rw [clientIP_proxied splits trusted authorization rfl]
          · exact rightmost_appended observed line
          · intro empty
            have noChars := congrArg String.toList empty
            simp [headerGet, Conveyance.lines] at noChars

/-- A client that sends more lines is seen under any name it likes. -/
theorem clientIP_forged
    (way : Conveyance)
    (observed : String)
    (forged : ObservedAddress)
    {count : Nat}
    (many : way.limit < count) :
    config.clientIP
        (proxied remoteAddr authorization way observed
          (List.replicate count forged.text)) =
      forged.text := by
  have first :
      headerGet
          (way.lines observed (List.replicate count forged.text)) =
        forged.text := by
    obtain ⟨rest, rfl⟩ := Nat.exists_eq_add_of_lt many
    cases way with
    | addedLine =>
        simp [headerGet, Conveyance.lines, List.replicate_succ]
    | appended =>
        have two :
            List.replicate (Conveyance.appended.limit + rest + 1) forged.text =
              forged.text :: forged.text :: List.replicate rest forged.text := by
          rw [Conveyance.limit, Nat.add_comm 1 rest]
          rfl
        rw [two, Conveyance.lines]
        split
        · rfl
        · rename_i noLast
          rw [List.getLast?_eq_none_iff] at noLast
          cases noLast
  rw [clientIP_proxied splits trusted authorization first forged.nonempty]
  exact rightmost_plain forged

/-- Clients that send a number of lines of their own are all seen under the
observed address if and only if the proxy's line remains the first. -/
theorem clientIP_vouched_iff
    (way : Conveyance)
    (observed : ObservedAddress)
    (count : Nat) :
    (∀ first second : List String,
      first.length = count →
      second.length = count →
      config.clientIP
          (proxied remoteAddr authorization way observed.text first) =
        config.clientIP
          (proxied remoteAddr authorization way observed.text second) ∧
      config.clientIP
          (proxied remoteAddr authorization way observed.text first) =
        observed.text) ↔
      count ≤ way.limit := by
  constructor
  · intro vouched
    by_contra many
    let forged := observed.other
    have named :=
      (vouched (List.replicate count forged.text)
        (List.replicate count forged.text) List.length_replicate
        List.length_replicate).2
    rw [clientIP_forged splits trusted authorization way observed.text forged
      (Nat.lt_of_not_le many)] at named
    exact observed.other_ne named
  · intro few first second firstLength secondLength
    have seen :
        ∀ sent : List String,
          sent.length = count →
          config.clientIP
              (proxied remoteAddr authorization way observed.text sent) =
            observed.text := by
      intro sent sentLength
      exact clientIP_vouched splits trusted authorization way observed
        (sentLength ▸ few)
    exact ⟨(seen first firstLength).trans (seen second secondLength).symm,
      seen first firstLength⟩

end Proxied

/-- Whoever talks to this server is believed to be a proxy. -/
def trustingConfig : Config := { Config.sample false with trustProxy := true }

/-- An observed address. -/
def sampleObserved : ObservedAddress :=
  .ofAddr (addressOf 3405803783) rfl

/-- Clients with one line of their own behind a proxy that appends. -/
theorem clientIP_vouched_iff_oneLine :
    (∀ first second : List String,
      first.length = 1 →
      second.length = 1 →
      trustingConfig.clientIP
          (proxied "10.0.0.9:41234" "" .appended sampleObserved.text first) =
        trustingConfig.clientIP
          (proxied "10.0.0.9:41234" "" .appended sampleObserved.text second) ∧
      trustingConfig.clientIP
          (proxied "10.0.0.9:41234" "" .appended sampleObserved.text first) =
        sampleObserved.text) ↔
      1 ≤ Conveyance.appended.limit :=
  @clientIP_vouched_iff trustingConfig "10.0.0.9:41234" "10.0.0.9" "41234"
    (by decide +kernel) rfl "" .appended sampleObserved 1

/-- A client chooses the address under which it is seen, with one line if the
proxy adds a line and with two if it appends. -/
theorem client_chooses_identity :
    trustingConfig.clientIP
        (proxied "10.0.0.9:41234" "" .addedLine "203.0.113.7" ["1.2.3.4"]) =
      "1.2.3.4" ∧
    trustingConfig.clientIP
        (proxied "10.0.0.9:41234" "" .addedLine "203.0.113.7" ["5.6.7.8"]) =
      "5.6.7.8" ∧
    trustingConfig.clientIP
        (proxied "10.0.0.9:41234" "" .appended "203.0.113.7"
          ["1.2.3.4", "x"]) =
      "1.2.3.4" := by
  decide +kernel

end WgMesh.Server
