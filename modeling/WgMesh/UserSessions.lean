import WgMesh.ServerHandlers

namespace WgMesh.Users

/-!
# Admin accounts and their UI sessions

A session cookie names an account by its row id and carries the account's
session epoch.  A password change raises the epoch and a deletion removes the
row, so both end the sessions of the account.  The id of a deleted last row is
used again by the next account, which starts at epoch zero.
-/

open CivilTime FiniteRuns RowTables Server TextScan Transactions
open Store (Draw)

/-- The column `auth_source`. -/
inductive AuthSource where
  | localAccount
  | oidc
deriving DecidableEq

/-- A row of `users`, without its two timestamps. -/
structure UserRow where
  id : Int
  username : String
  passwordHash : String
  authSource : AuthSource := .localAccount
  sessionEpoch : Int := 0
deriving DecidableEq

/-- The table `users`: ids are primary keys and names are unique. -/
structure Accounts where
  rows : List UserRow
  order : Ascending UserRow.id rows
  names : (rows.map (·.username)).Nodup

/-- The errors of the account operations. -/
inductive UserError where
  | userExists (username : String)
  | notFound
  | failed (text : String)
deriving DecidableEq

/-- An operation on the accounts. -/
abbrev UserM := Action Accounts UserError

/-- A refused statement, in its context. -/
def refusedIn (context text : String) : UserError :=
  .failed (context ++ ": " ++ text)

/-- The characters that a user name may contain. -/
def isNameChar (r : Char) : Bool :=
  r == '-' || r == '_' || r == '.' || r == '@' ||
    (decide ('a' ≤ r) && decide (r ≤ 'z')) ||
    (decide ('A' ≤ r) && decide (r ≤ 'Z')) ||
    (decide ('0' ≤ r) && decide (r ≤ '9'))

/-- `validateUsername`. -/
def validateUsername (username : String) : UserM String :=
  let username := trimSpace username
  if username = "" then
    raise (.failed "username is required")
  else if 64 < username.utf8ByteSize then
    raise (.failed "username too long (max 64)")
  else if username.toList.all isNameChar then
    pure username
  else
    raise (.failed "username may contain only letters, digits, and -_.@")

/-- `validatePassword`. -/
def validatePassword (password : String) : UserM Unit :=
  if password.utf8ByteSize < 8 then
    raise (.failed "password must be at least 8 characters")
  else if 512 < password.utf8ByteSize then
    raise (.failed "password too long (max 512)")
  else
    pure ()

/-- `hashPassword`, given what its random salt makes of the password. -/
def hashPassword (draw : Draw) : UserM String :=
  match draw with
  | .ok hash => pure hash
  | .error reason => raise (refusedIn "generate salt" reason)

/-- `userByID`. -/
def userByID (id : Int) : UserM UserRow := do
  let found ←
    query (refusedIn ("look up user " ++ decimal id))
      (fun accounts => rowWith? UserRow.id id accounts.rows)
  match found with
  | none => raise .notFound
  | some user => pure user

/-- The row of a new local account. -/
def newUser (username hash : String) (id : Int) : UserRow where
  id := id
  username := username
  passwordHash := hash

/-- The `INSERT` of an account, under the constraint on names. -/
def insertUser (username hash : String) (accounts : Accounts) :
    Except String (Int × Accounts) :=
  if taken : username ∈ accounts.rows.map (·.username) then
    .error "UNIQUE constraint failed: users.username"
  else
    .ok
      (nextID UserRow.id accounts.rows,
        { rows :=
            accounts.rows ++
              [newUser username hash (nextID UserRow.id accounts.rows)]
          order := accounts.order.append_new rfl
          names := by
            rw [List.map_append]
            refine accounts.names.append (by simp) ?_
            intro name old new
            rw [List.mem_singleton.mp new] at old
            exact taken old })

/-- How a failed `INSERT` is reported. -/
def insertRefused (username text : String) : UserError :=
  if text.toList.tails.any ("UNIQUE".toList.isPrefixOf ·) then
    .userExists username
  else
    refusedIn "insert user" text

/-- `CreateLocalUser`. -/
def createLocalUser (username password : String) (draw : Draw) :
    UserM UserRow := do
  let username ← validateUsername username
  validatePassword password
  let hash ← hashPassword draw
  let id ← exec (insertRefused username) (insertUser username hash)
  userByID id

/-- The `WHERE` clause of a password change. -/
def isLocalUser (userID : Int) (row : UserRow) : Bool :=
  row.id == userID && row.authSource == .localAccount

/-- The `SET` clause of a password change. -/
def rekeyed (hash : String) (row : UserRow) : UserRow :=
  { row with
    passwordHash := hash
    sessionEpoch := row.sessionEpoch + 1 }

/-- The `UPDATE` of a password change, with the number of affected rows. -/
def updatePassword (userID : Int) (hash : String) (accounts : Accounts) :
    Except String (Nat × Accounts) :=
  .ok
    (accounts.rows.countP (isLocalUser userID),
      { rows := updateWhere (isLocalUser userID) (rekeyed hash) accounts.rows
        order :=
          accounts.order.map fun row => by
            split
            · rfl
            · rfl
        names := by
          have same :
              (updateWhere (isLocalUser userID) (rekeyed hash)
                accounts.rows).map (·.username) =
                  accounts.rows.map (·.username) :=
            map_updateWhere accounts.rows fun _ => rfl
          rw [same]
          exact accounts.names })

/-- `SetPassword`. -/
def setPassword (userID : Int) (newPassword : String) (draw : Draw) :
    UserM Unit := do
  validatePassword newPassword
  let hash ← hashPassword draw
  let affected ← exec (refusedIn "update password")
    (updatePassword userID hash)
  if affected = 0 then raise .notFound else pure ()

/-- The `DELETE` of an account, with the number of affected rows. -/
def deleteRow (userID : Int) (accounts : Accounts) :
    Except String (Nat × Accounts) :=
  .ok
    (accounts.rows.countP (·.id == userID),
      { rows := accounts.rows.filter (·.id != userID)
        order := accounts.order.filter _
        names :=
          accounts.names.sublist (List.filter_sublist.map _) })

/-- `DeleteUser`. -/
def deleteUser (userID : Int) : UserM Unit :=
  transaction (refusedIn "begin delete user") (fun _ text => .failed text) do
    let count ← query (refusedIn "count users")
      (fun accounts => accounts.rows.length)
    if count ≤ 1 then
      raise (.failed "cannot delete the last remaining admin user")
    else do
      let affected ← exec (refusedIn "delete user") (deleteRow userID)
      if affected = 0 then raise .notFound else pure ()

/-- An operation on the accounts, with the draws it makes. -/
inductive UserOp where
  | createLocalUser (username password : String) (draw : Draw)
  | setPassword (userID : Int) (newPassword : String) (draw : Draw)
  | deleteUser (userID : Int)

/-- Perform an operation; the row a creation returns is dropped. -/
def UserOp.perform : UserOp → UserM Unit
  | .createLocalUser username password draw => do
      let _ ← Users.createLocalUser username password draw
      pure ()
  | .setPassword userID newPassword draw =>
      Users.setPassword userID newPassword draw
  | .deleteUser userID => Users.deleteUser userID

/-- An operation together with the driver's answers to its statements. -/
structure UserInput where
  op : UserOp
  answers : List (Option String)

/-- The accounts, one operation at a time. -/
def accountsMachine :
    Machine Accounts UserInput (Except UserError Unit) where
  step accounts input :=
    let ended := input.op.perform ⟨accounts, input.answers⟩
    (ended.1, ended.2.data)

/-- An executed operation. -/
abbrev UserStep := Visit Accounts UserInput (Except UserError Unit)

/-- What a cookie needs of `base64`: reading inverts writing. -/
structure TextCodec where
  encode : String → String
  decode : String → Option String
  decode_encode : ∀ text, decode (encode text) = some text

/-- What the server signs sessions with. -/
structure SessionConfig where
  base64 : TextCodec
  uiSessionMAC : String → String

/-- Nanoseconds from the start of year 0 to the start of year 1970. -/
def unixEpoch : Instant := 62167219200000000000

/-- `Time.Unix`: whole seconds since 1970. -/
def unixSeconds (instant : Instant) : Int :=
  (instant - unixEpoch) / 1000000000

/-- `uiSessionTTL`, twelve hours. -/
def uiSessionTTL : Int := 43200000000000

/-- One minute. -/
def oneMinute : Int := 60000000000

/-- The signed part of a cookie: the account, its epoch and the second. -/
def sessionPayload (user : UserRow) (instant : Instant) : String :=
  decimal user.id ++ "." ++ decimal user.sessionEpoch ++ "." ++
    decimal (unixSeconds instant)

/-- `signUISession`. -/
def signUISession
    (config : SessionConfig)
    (user : UserRow)
    (instant : Instant) : String :=
  let payload := sessionPayload user instant
  config.base64.encode
    (payload ++ "|" ++ config.base64.encode (config.uiSessionMAC payload))

/-- `strconv.ParseInt(text, 10, 64)`. -/
def parseInt64 (text : List Char) : Option Int :=
  (atoi (String.ofList text)).filter
    (fun number =>
      decide (-9223372036854775808 ≤ number) &&
        decide (number ≤ 9223372036854775807))

/-- The three numbers of a payload. -/
def readPayload (payload : List Char) : Option (Int × Int × Int) :=
  match payload.splitOn '.' with
  | [first, second, third] => do
      let userID ← parseInt64 first
      let epoch ← parseInt64 second
      let issued ← parseInt64 third
      pure (userID, epoch, issued)
  | _ => none

/-- The account and epoch of a cookie that is signed and within its time. -/
def readSession
    (config : SessionConfig)
    (cookie : String)
    (now : Instant) : Option (Int × Int) := do
  let raw ← config.base64.decode cookie
  match raw.toList.span (· != '|') with
  | (_, []) => none
  | (payload, _ :: macRaw) => do
      let (userID, epoch, issued) ← readPayload payload
      let got ← config.base64.decode (String.ofList macRaw)
      let issuedAt := unixEpoch + 1000000000 * issued
      if got ≠ config.uiSessionMAC (String.ofList payload) then
        none
      else if issuedAt > now + oneMinute ∨ now - issuedAt > uiSessionTTL then
        none
      else
        some (userID, epoch)

/-- `sessionUser`, for a request with a cookie. -/
def sessionUser
    (config : SessionConfig)
    (cookie : String)
    (now : Instant) : UserM (Option UserRow) :=
  match readSession config cookie now with
  | none => pure none
  | some (userID, epoch) => do
      let outcome ← attempt (userByID userID)
      match outcome with
      | .error _ => pure none
      | .ok user =>
          pure (if user.sessionEpoch ≠ epoch then none else some user)

/-- What one operation can do to the accounts. -/
inductive UserEffect (before after : Accounts) :
    UserOp → Except UserError Unit → Prop where
  | unchanged
      {op : UserOp} {error : UserError}
      (same : after.rows = before.rows) :
      UserEffect before after op (.error error)
  | created
      {username password name hash : String} {draw : Draw}
      {output : Except UserError Unit}
      (stored :
        after.rows =
          before.rows ++
            [newUser name hash (nextID UserRow.id before.rows)]) :
      UserEffect before after (.createLocalUser username password draw) output
  | rekeyed
      {userID : Int} {newPassword hash : String} {draw : Draw}
      (stored :
        after.rows =
          updateWhere (isLocalUser userID) (rekeyed hash) before.rows)
      (affected : before.rows.countP (isLocalUser userID) ≠ 0) :
      UserEffect before after (.setPassword userID newPassword draw) (.ok ())
  | deleted
      {userID : Int}
      (stored : after.rows = before.rows.filter (·.id != userID)) :
      UserEffect before after (.deleteUser userID) (.ok ())

section Effects

variable {before after : Accounts} {output : Except UserError Unit}

/-- The checks of a name change nothing. -/
theorem readOnly_validateUsername
    (username : String) :
    ReadOnly (validateUsername username) := by
  unfold validateUsername
  dsimp only
  split
  · exact readOnly_raise _
  · split
    · exact readOnly_raise _
    · split
      · exact readOnly_pure _
      · exact readOnly_raise _

theorem readOnly_validatePassword
    (password : String) :
    ReadOnly (validatePassword password) := by
  unfold validatePassword
  split
  · exact readOnly_raise _
  · split
    · exact readOnly_raise _
    · exact readOnly_pure _

theorem readOnly_hashPassword
    (draw : Draw) :
    ReadOnly (hashPassword draw) := by
  unfold hashPassword
  split
  · exact readOnly_pure _
  · exact readOnly_raise _

theorem readOnly_userByID
    (id : Int) :
    ReadOnly (userByID id) := by
  refine ReadOnly.bind (readOnly_query _ _) ?_
  intro found
  split
  · exact readOnly_raise _
  · exact readOnly_pure _

theorem userByID_ok
    {id : Int}
    {user : UserRow}
    (run : Runs (userByID id) before (.ok user) after) :
    user ∈ before.rows ∧ user.id = id := by
  obtain ⟨found, middle, looked, rest⟩ := run.bind_ok
  obtain ⟨-, isFound⟩ := looked.query_ok
  split at rest
  · exact rest.raise_ok.elim
  · cases rest.pure_inv.1
    exact mem_of_rowWith? isFound.symm

theorem insertUser_ok
    {username hash : String}
    {id : Int}
    (stored : insertUser username hash before = .ok (id, after)) :
    after.rows =
      before.rows ++ [newUser username hash (nextID UserRow.id before.rows)] := by
  unfold insertUser at stored
  split at stored
  · cases stored
  · injection stored with pair
    rw [← (Prod.mk.inj pair).2]

/-- What a creation does. -/
theorem createLocalUser_effect
    {username password : String}
    {draw : Draw}
    {result : Except UserError UserRow}
    (run : Runs (createLocalUser username password draw) before result after) :
    (after.rows = before.rows ∧ ∃ error, result = .error error) ∨
      ∃ name hash,
        after.rows =
          before.rows ++
            [newUser name hash (nextID UserRow.id before.rows)] := by
  rcases run.bind_inv with
    ⟨error, checked, shape⟩ | ⟨name, named, nameRun, rest⟩
  · exact Or.inl ⟨by rw [readOnly_validateUsername _ _ _ _ checked], error,
      shape⟩
  have sameName := readOnly_validateUsername _ _ _ _ nameRun
  subst named
  rcases rest.bind_inv with
    ⟨error, checked, shape⟩ | ⟨_, valid, validRun, rest⟩
  · exact Or.inl ⟨by rw [readOnly_validatePassword _ _ _ _ checked], error,
      shape⟩
  have sameValid := readOnly_validatePassword _ _ _ _ validRun
  subst valid
  rcases rest.bind_inv with
    ⟨error, drawn, shape⟩ | ⟨hash, hashed, hashRun, rest⟩
  · exact Or.inl ⟨by rw [readOnly_hashPassword _ _ _ _ drawn], error, shape⟩
  have sameHash := readOnly_hashPassword _ _ _ _ hashRun
  subst hashed
  rcases rest.bind_inv with
    ⟨error, refused, shape⟩ | ⟨id, inserted, insertRun, rest⟩
  · rcases refused.exec_inv with ⟨_, _, impossible⟩ | ⟨same, -⟩
    · cases impossible
    · exact Or.inl ⟨by rw [same], error, shape⟩
  · have stored := insertUser_ok insertRun.exec_ok
    rw [← readOnly_userByID _ _ _ _ rest] at stored
    exact Or.inr ⟨name, hash, stored⟩

/-- What a password change does. -/
theorem setPassword_effect
    {userID : Int}
    {newPassword : String}
    {draw : Draw}
    (run :
      Runs (setPassword userID newPassword draw) before output after) :
    UserEffect before after (.setPassword userID newPassword draw) output := by
  rcases run.bind_inv with
    ⟨error, checked, shape⟩ | ⟨_, valid, validRun, rest⟩
  · rw [shape]
    exact .unchanged (by rw [readOnly_validatePassword _ _ _ _ checked])
  have sameValid := readOnly_validatePassword _ _ _ _ validRun
  subst valid
  rcases rest.bind_inv with
    ⟨error, drawn, shape⟩ | ⟨hash, hashed, hashRun, rest⟩
  · rw [shape]
    exact .unchanged (by rw [readOnly_hashPassword _ _ _ _ drawn])
  have sameHash := readOnly_hashPassword _ _ _ _ hashRun
  subst hashed
  rcases rest.bind_inv with
    ⟨error, refused, shape⟩ | ⟨affected, updated, updateRun, rest⟩
  · rcases refused.exec_inv with ⟨_, _, impossible⟩ | ⟨same, -⟩
    · cases impossible
    · rw [shape]
      exact .unchanged (by rw [same])
  · have stored := updateRun.exec_ok
    injection stored with pair
    obtain ⟨count, rows⟩ := Prod.mk.inj pair
    have updatedRows :
        updated.rows =
          updateWhere (isLocalUser userID) (rekeyed hash) before.rows := by
      rw [← rows]
    split at rest
    · rename_i nobody
      obtain ⟨shape, same⟩ := rest.raise_inv
      rw [shape]
      refine .unchanged ?_
      rw [same, updatedRows]
      exact updateWhere_of_countP_eq_zero (count.trans nobody)
    · rename_i somebody
      obtain ⟨shape, same⟩ := rest.pure_inv
      rw [shape]
      refine .rekeyed (by rw [same, updatedRows]) ?_
      rw [count]
      exact somebody

/-- What a deletion does. -/
theorem deleteUser_effect
    {userID : Int}
    (run : Runs (deleteUser userID) before output after) :
    UserEffect before after (.deleteUser userID) output := by
  cases output with
  | error error => exact .unchanged (by rw [run.transaction_error])
  | ok done =>
      obtain ⟨count, counted, countRun, rest⟩ := run.transaction_ok.bind_ok
      have sameCount := readOnly_query _ _ _ _ _ countRun
      subst counted
      split at rest
      · exact rest.raise_ok.elim
      · obtain ⟨affected, deleted, deleteRun, rest⟩ := rest.bind_ok
        have stored := deleteRun.exec_ok
        injection stored with pair
        split at rest
        · exact rest.raise_ok.elim
        · refine .deleted ?_
          rw [rest.pure_inv.2, ← (Prod.mk.inj pair).2]

/-- What one step does. -/
theorem step_effect
    (accounts : Accounts)
    (input : UserInput) :
    UserEffect accounts (accountsMachine.step accounts input).2 input.op
      (accountsMachine.step accounts input).1 := by
  have run := Runs.of_session input.op.perform ⟨accounts, input.answers⟩
  simp only [accountsMachine]
  obtain ⟨op, answers⟩ := input
  cases op with
  | createLocalUser username password draw =>
      rcases run.bind_inv with
        ⟨error, failed, shape⟩ | ⟨row, middle, created, rest⟩
      · rw [shape]
        rcases createLocalUser_effect failed with
          ⟨same, -⟩ | ⟨name, hash, stored⟩
        · exact .unchanged same
        · exact .created stored
      · have same := rest.pure_inv.2
        rw [same]
        rcases createLocalUser_effect created with
          ⟨-, error, impossible⟩ | ⟨name, hash, stored⟩
        · cases impossible
        · exact .created stored
  | setPassword userID newPassword draw => exact setPassword_effect run
  | deleteUser userID => exact deleteUser_effect run

end Effects

section Cookies

theorem not_mem_decimal
    {char : Char}
    (noDigit : digitValue? char = none)
    (noSign : char ≠ '-')
    (number : Int) :
    char ∉ (decimal number).toList := by
  have absent : ∀ value, char ∉ Nat.toDigits 10 value :=
    fun _ => not_mem_toDigits (by decide) (by decide) noDigit
  rw [decimal, String.toList_ofList]
  split
  · simp [noSign, absent]
  · exact absent _

theorem parseInt64_decimal
    {number parsed : Int}
    (reads : parseInt64 (decimal number).toList = some parsed) :
    parsed = number := by
  rw [parseInt64, String.ofList_toList, atoi_decimal] at reads
  have same := (Option.filter_eq_some_iff.mp reads).1
  exact (Option.some.inj same).symm

theorem sessionPayload_toList
    (user : UserRow)
    (instant : Instant) :
    (sessionPayload user instant).toList =
      ['.'].intercalate
        [(decimal user.id).toList, (decimal user.sessionEpoch).toList,
          (decimal (unixSeconds instant)).toList] := by
  simp [sessionPayload, List.intercalate]

/-- What is read of a payload is what was printed into it. -/
theorem readPayload_sessionPayload
    {user : UserRow}
    {instant : Instant}
    {userID epoch issued : Int}
    (reads :
      readPayload (sessionPayload user instant).toList =
        some (userID, epoch, issued)) :
    userID = user.id ∧ epoch = user.sessionEpoch := by
  have fields :
      (sessionPayload user instant).toList.splitOn '.' =
        [(decimal user.id).toList, (decimal user.sessionEpoch).toList,
          (decimal (unixSeconds instant)).toList] := by
    rw [sessionPayload_toList]
    apply List.splitOn_intercalate
    · intro field member
      have printed : ∃ number, field = (decimal number).toList := by
        simp only [List.mem_cons, List.not_mem_nil, or_false] at member
        rcases member with rfl | rfl | rfl
        · exact ⟨_, rfl⟩
        · exact ⟨_, rfl⟩
        · exact ⟨_, rfl⟩
      obtain ⟨number, rfl⟩ := printed
      exact not_mem_decimal (by decide) (by decide) number
    · simp
  rw [readPayload, fields] at reads
  simp only [Option.bind_eq_bind, Option.bind_eq_some_iff] at reads
  obtain ⟨first, readFirst, second, readSecond, third, readThird, shape⟩ :=
    reads
  cases shape
  exact ⟨parseInt64_decimal readFirst, parseInt64_decimal readSecond⟩

/-- A signed cookie is read as the account and the epoch it was signed for. -/
theorem readSession_signUISession
    {config : SessionConfig}
    {user : UserRow}
    {instant now : Instant}
    {userID epoch : Int}
    (reads :
      readSession config (signUISession config user instant) now =
        some (userID, epoch)) :
    userID = user.id ∧ epoch = user.sessionEpoch := by
  have noBar : '|' ∉ (sessionPayload user instant).toList := by
    simp only [sessionPayload, String.toList_append, List.mem_append]
    have absent :=
      @not_mem_decimal '|' (by decide) (by decide)
    simp [absent]
  unfold readSession signUISession at reads
  dsimp only at reads
  rw [config.base64.decode_encode] at reads
  simp only [Option.bind_eq_bind, Option.bind_some] at reads
  have cut :
      (sessionPayload user instant ++ "|" ++
          config.base64.encode
            (config.uiSessionMAC (sessionPayload user instant))).toList.span
            (· != '|') =
        ((sessionPayload user instant).toList,
          '|' :: (config.base64.encode
            (config.uiSessionMAC
              (sessionPayload user instant))).toList) := by
    rw [String.toList_append, String.toList_append, List.append_assoc]
    exact span_ne_append noBar _
  rw [cut] at reads
  simp only [Option.bind_eq_some_iff] at reads
  obtain ⟨⟨first, second, third⟩, read, got, -, rest⟩ := reads
  obtain ⟨isID, isEpoch⟩ := readPayload_sessionPayload read
  split at rest
  · cases rest
  · split at rest
    · cases rest
    · cases rest
      exact ⟨isID, isEpoch⟩

/-- An accepted cookie names a row of its account's id and epoch. -/
theorem sessionUser_ok
    {config : SessionConfig}
    {user account : UserRow}
    {instant now : Instant}
    {before after : Accounts}
    (run :
      Runs (sessionUser config (signUISession config user instant) now)
        before (.ok (some account)) after) :
    account ∈ before.rows ∧ account.id = user.id ∧
      account.sessionEpoch = user.sessionEpoch := by
  unfold sessionUser at run
  split at run
  · cases run.pure_inv.1
  · rename_i userID epoch reads
    obtain ⟨isID, isEpoch⟩ := readSession_signUISession reads
    obtain ⟨outcome, middle, tried, rest⟩ := run.bind_ok
    obtain ⟨result, shape, looked⟩ := tried.attempt_inv
    cases shape
    cases outcome with
    | error error => cases rest.pure_inv.1
    | ok row =>
        obtain ⟨isAccount, -⟩ := rest.pure_inv
        obtain ⟨member, rowID⟩ := userByID_ok looked
        split at isAccount
        · cases isAccount
        · rename_i sameEpoch
          cases isAccount
          exact ⟨member, rowID.trans isID,
            (not_not.mp sameEpoch).trans isEpoch⟩

end Cookies

/-- The operation is a creation. -/
def UserOp.isCreation : UserOp → Bool
  | .createLocalUser _ _ _ => true
  | _ => false

/-- A step removes the account with an id. -/
def UserStep.Deletes (step : UserStep) (id : Int) : Prop :=
  (∃ row ∈ step.before.rows, row.id = id) ∧
    ∀ row ∈ step.after.rows, row.id ≠ id

/-- A step changes the password of the account with an id. -/
def UserStep.ChangesPassword (step : UserStep) (id : Int) : Prop :=
  step.output = .ok () ∧
    ∃ newPassword draw, step.input.op = .setPassword id newPassword draw

/-- A step creates an account under an id. -/
def UserStep.TakesID (step : UserStep) (id : Int) : Prop :=
  step.input.op.isCreation = true ∧
    nextID UserRow.id step.before.rows = id

/-- What the row under an id says of a history that never takes the id. -/
def Untouched
    (user : UserRow)
    (past : List UserStep)
    (accounts : Accounts) : Prop :=
  (∀ step ∈ past, ¬ step.TakesID user.id) →
    ∀ row ∈ accounts.rows, row.id = user.id →
      user.sessionEpoch ≤ row.sessionEpoch ∧
        ∀ step, step ∈ past →
          ¬ step.Deletes user.id ∧
            (row.sessionEpoch = user.sessionEpoch →
              ¬ step.ChangesPassword user.id)

/--
Where a row comes from: an account of the same id, whose epoch is lower if its
password was changed; only a creation takes an id.
-/
theorem UserEffect.origin
    {before after : Accounts}
    {op : UserOp}
    {output : Except UserError Unit}
    (effect : UserEffect before after op output)
    {row : UserRow}
    (member : row ∈ after.rows)
    (spared :
      op.isCreation = true → nextID UserRow.id before.rows ≠ row.id) :
    ∃ old ∈ before.rows, old.id = row.id ∧
      old.sessionEpoch ≤ row.sessionEpoch ∧
      (row.sessionEpoch = old.sessionEpoch →
        ¬ (output = .ok () ∧
          ∃ newPassword draw, op = .setPassword row.id newPassword draw)) := by
  cases effect with
  | unchanged same =>
      rw [same] at member
      refine ⟨row, member, rfl, le_rfl, fun _ changed => ?_⟩
      cases changed.1
  | created stored =>
      rw [stored] at member
      rcases List.mem_append.mp member with old | new
      · refine ⟨row, old, rfl, le_rfl, ?_⟩
        rintro - ⟨-, newPassword, draw, impossible⟩
        cases impossible
      · rw [List.mem_singleton.mp new] at spared
        exact (spared rfl rfl).elim
  | @rekeyed userID newPassword hash draw stored affected =>
      rw [stored] at member
      obtain ⟨old, oldMember, shape⟩ := mem_updateWhere.mp member
      by_cases chosen : isLocalUser userID old = true
      · rw [if_pos chosen] at shape
        subst shape
        refine ⟨old, oldMember, rfl, ?_, ?_⟩
        · simp only [Users.rekeyed]
          omega
        · intro sameEpoch
          simp only [Users.rekeyed] at sameEpoch
          omega
      · rw [if_neg chosen] at shape
        subst shape
        refine ⟨row, oldMember, rfl, le_rfl, ?_⟩
        rintro - ⟨-, password, otherDraw, isOp⟩
        injection isOp with isID
        -- The changed row would be this one, the only row of its id.
        obtain ⟨other, otherMember, local'⟩ :=
          List.countP_pos_iff.mp (Nat.pos_of_ne_zero affected)
        have otherID : other.id = row.id := by
          simp only [isLocalUser, Bool.and_eq_true, beq_iff_eq] at local'
          exact local'.1.trans isID
        rw [before.order.eq_of_id otherMember oldMember otherID] at local'
        exact chosen local'
  | deleted stored =>
      rw [stored] at member
      refine ⟨row, (List.mem_filter.mp member).1, rfl, le_rfl, ?_⟩
      rintro - ⟨-, newPassword, draw, impossible⟩
      cases impossible

/-- One step keeps what the row under an id says. -/
theorem Untouched.step
    {user : UserRow}
    {past : List UserStep}
    {accounts : Accounts}
    (untouched : Untouched user past accounts)
    (input : UserInput) :
    Untouched user (past ++ [accountsMachine.visit accounts input])
      (accountsMachine.step accounts input).2 := by
  intro neverTaken row member isUser
  have now :=
    neverTaken (accountsMachine.visit accounts input) (by simp)
  obtain ⟨old, oldMember, sameID, grown, unchanged⟩ :=
    (step_effect accounts input).origin member
      (fun creation taken => now ⟨creation, taken.trans isUser⟩)
  obtain ⟨atLeast, earlier⟩ :=
    untouched (fun step inPast => neverTaken step (by simp [inPast])) old
      oldMember (sameID.trans isUser)
  refine ⟨atLeast.trans grown, ?_⟩
  intro step inHistory
  rcases List.mem_append.mp inHistory with inPast | isLast
  · refine ⟨(earlier step inPast).1, fun sameEpoch => ?_⟩
    exact (earlier step inPast).2 (by omega)
  · rw [List.mem_singleton.mp isLast]
    refine ⟨fun deletes => deletes.2 row member isUser, ?_⟩
    intro sameEpoch changes
    rw [← isUser] at changes
    exact unchanged (by omega) changes

/--
A cookie is accepted only while the account it was signed for exists and has
its password unchanged, in every run that never creates an account under the
id of that account.
-/
theorem session_dies_with_account
    (config : SessionConfig)
    (signed : Accounts)
    (user : UserRow)
    (isUser : user ∈ signed.rows)
    (instant : Instant)
    (inputs : List UserInput)
    (neverTaken :
      ∀ step : UserStep, step ∈ accountsMachine.visits signed inputs →
        ¬ step.TakesID user.id)
    (now : Instant)
    (account : UserRow)
    (after : Accounts)
    (accepted :
      Runs (sessionUser config (signUISession config user instant) now)
        (accountsMachine.run signed inputs) (.ok (some account)) after) :
    account ∈ (accountsMachine.run signed inputs).rows ∧
      account.id = user.id ∧
      ∀ step : UserStep, step ∈ accountsMachine.visits signed inputs →
        ¬ step.Deletes user.id ∧ ¬ step.ChangesPassword user.id := by
  obtain ⟨member, sameID, sameEpoch⟩ := sessionUser_ok accepted
  have untouched :
      Untouched user (accountsMachine.visits signed inputs)
        (accountsMachine.run signed inputs) := by
    refine accountsMachine.history_invariant ?_ ?_ inputs
    · intro _ row rowMember isRow
      refine ⟨?_, by simp⟩
      rw [signed.order.eq_of_id rowMember isUser isRow]
    · intro past current input holds
      exact holds.step input
  obtain ⟨-, history⟩ := untouched neverTaken account member sameID
  exact ⟨member, sameID, fun step visited =>
    ⟨(history step visited).1, (history step visited).2 sameEpoch⟩⟩

/-- A way to sign sessions for concrete runs. -/
def SessionConfig.sample : SessionConfig where
  base64 := ⟨id, some, fun _ => rfl⟩
  uiSessionMAC := fun payload => "mac of " ++ payload

/-- The second of two accounts. -/
def bob : UserRow := newUser "bob" "hash of bob" 2

/-- Two accounts. -/
def twoUsers : Accounts where
  rows := [newUser "alice" "hash of alice" 1, bob]
  order := by decide
  names := by decide

/-- A cookie of the second account. -/
def bobsCookie : String :=
  signUISession .sample bob unixEpoch

/-- An operation whose statements the driver accepts. -/
def UserOp.accepted (op : UserOp) : UserInput := ⟨op, []⟩

/-- The second account is deleted, and a third one created. -/
def replaceBob : List UserInput :=
  [(UserOp.deleteUser 2).accepted,
    (UserOp.createLocalUser "carol" "password" (.ok "hash of carol")).accepted]

/-- One second later, the cookie of the deleted account opens the new one. -/
theorem deleted_session_opens_successor :
    (∃ account after,
        Runs (sessionUser .sample bobsCookie (unixEpoch + 1000000000))
            (accountsMachine.run twoUsers replaceBob)
            (.ok (some account)) after ∧
          account.username = "carol") ∧
      ∃ step : UserStep, step ∈ accountsMachine.visits twoUsers replaceBob ∧
        step.Deletes bob.id := by
  have opened :
      (sessionUser .sample bobsCookie (unixEpoch + 1000000000)
          ⟨accountsMachine.run twoUsers replaceBob, []⟩).1 =
        .ok (some (newUser "carol" "hash of carol" 2)) := by
    decide +kernel
  have run :=
    Runs.of_session
      (sessionUser .sample bobsCookie (unixEpoch + 1000000000))
      ⟨accountsMachine.run twoUsers replaceBob, []⟩
  rw [opened] at run
  refine ⟨⟨_, _, run, rfl⟩, _, List.mem_cons_self, ?_⟩
  exact ⟨⟨bob, by decide, rfl⟩, by decide +kernel⟩

/-- A third account is created and deleted. -/
def carolComesAndGoes : List UserInput :=
  [(UserOp.createLocalUser "carol" "password" (.ok "hash of carol")).accepted,
    (UserOp.deleteUser 3).accepted]

/-- While others come and go, the cookie opens its own account. -/
theorem session_dies_with_account_bob :
    ∃ account after,
      Runs (sessionUser .sample bobsCookie (unixEpoch + 1000000000))
          (accountsMachine.run twoUsers carolComesAndGoes)
          (.ok (some account)) after ∧
        account.id = bob.id ∧
        ∀ step : UserStep,
          step ∈ accountsMachine.visits twoUsers carolComesAndGoes →
            ¬ step.Deletes bob.id ∧ ¬ step.ChangesPassword bob.id := by
  have opened :
      (sessionUser .sample bobsCookie (unixEpoch + 1000000000)
          ⟨accountsMachine.run twoUsers carolComesAndGoes, []⟩).1 =
        .ok (some bob) := by
    decide +kernel
  have run :=
    Runs.of_session
      (sessionUser .sample bobsCookie (unixEpoch + 1000000000))
      ⟨accountsMachine.run twoUsers carolComesAndGoes, []⟩
  rw [opened] at run
  have neverTaken :
      ∀ step : UserStep,
        step ∈ accountsMachine.visits twoUsers carolComesAndGoes →
          ¬ step.TakesID bob.id := by
    intro step visited
    simp only [carolComesAndGoes, Machine.visits, List.mem_cons,
      List.not_mem_nil, or_false] at visited
    rcases visited with rfl | rfl
    · rintro ⟨-, taken⟩
      revert taken
      decide
    · rintro ⟨creation, -⟩
      cases creation
  obtain ⟨-, sameID, history⟩ :=
    session_dies_with_account .sample twoUsers bob (by decide) unixEpoch
      carolComesAndGoes neverTaken (unixEpoch + 1000000000) bob _ run
  exact ⟨bob, _, run, sameID, history⟩

/--
`EnsureSeedUser`.  When the bootstrap password breaks a rule the account is
inserted without checks, under the name as it is given.
-/
def ensureSeedUser (username bootstrapPassword : String)
    (draw secondDraw : Draw) : UserM Bool := do
  let count ← query (refusedIn "count users")
    (fun accounts => accounts.rows.length)
  if 0 < count then
    pure false
  else
    let outcome ← attempt (createLocalUser username bootstrapPassword draw)
    match outcome with
    | .ok _ => pure true
    | .error _ =>
        let hash ← hashPassword secondDraw
        let _ ← exec (refusedIn "seed user") (insertUser username hash)
        pure true

/-- A deletion leaves an account. -/
theorem deleteUser_leaves
    {userID : Int}
    {before after : Accounts}
    (run : Runs (deleteUser userID) before (.ok ()) after) :
    after.rows ≠ [] := by
  obtain ⟨count, counted, countRun, rest⟩ := run.transaction_ok.bind_ok
  obtain ⟨same, isCount⟩ := countRun.query_ok
  subst counted
  split at rest
  · exact rest.raise_ok.elim
  rename_i several
  obtain ⟨affected, _, deleteRun, rest⟩ := rest.bind_ok
  have stored := deleteRun.exec_ok
  injection stored with pair
  split at rest
  · exact rest.raise_ok.elim
  rw [rest.pure_inv.2, ← (Prod.mk.inj pair).2]
  -- Ids are distinct, so that of two rows one has another id.
  intro emptied
  have all := List.filter_eq_nil_iff.mp emptied
  obtain ⟨rows, order, names⟩ := before
  match rows with
  | [] | [_] => simp [isCount] at several
  | first :: second :: _ =>
      have apart := (List.pairwise_cons.mp order).1 second (by simp)
      have isFirst := all first (by simp)
      have isSecond := all second (by simp)
      simp only [bne_iff_ne, ne_eq, not_not] at isFirst isSecond
      omega

/-- No operation takes the last account away. -/
theorem accounts_remain
    {accounts : Accounts}
    (present : accounts.rows ≠ [])
    (input : UserInput) :
    (accountsMachine.step accounts input).2.rows ≠ [] := by
  have run := Runs.of_session input.op.perform ⟨accounts, input.answers⟩
  have effect := step_effect accounts input
  simp only [accountsMachine] at effect ⊢
  generalize input.op.perform ⟨accounts, input.answers⟩ = ended at *
  generalize input.op = op at *
  obtain ⟨output, after⟩ := ended
  dsimp only at effect run ⊢
  cases effect with
  | unchanged same => rwa [same]
  | created stored => simp [stored]
  | rekeyed stored _ => simpa [stored, updateWhere] using present
  | deleted stored => exact deleteUser_leaves run

/--
Once `EnsureSeedUser` has succeeded there is an account, and no sequence of
operations and driver failures ever leaves the UI without one.
-/
theorem seeded_never_locked_out
    {username bootstrapPassword : String}
    {draw secondDraw : Draw}
    {seeded : Bool}
    {before after : Accounts}
    (run :
      Runs (ensureSeedUser username bootstrapPassword draw secondDraw)
        before (.ok seeded) after)
    (inputs : List UserInput) :
    (seeded = true ↔ before.rows = []) ∧
      (accountsMachine.run after inputs).rows ≠ [] := by
  obtain ⟨count, counted, countRun, rest⟩ := run.bind_ok
  obtain ⟨same, isCount⟩ := countRun.query_ok
  subst counted
  have started :
      (seeded = true ↔ before.rows = []) ∧ after.rows ≠ [] := by
    split at rest
    · rename_i several
      obtain ⟨shape, rfl⟩ := rest.pure_inv
      cases shape
      rw [isCount, List.length_pos_iff] at several
      exact ⟨by simp [several], several⟩
    rename_i empty
    have wasEmpty : before.rows = [] := by
      simpa [isCount] using empty
    obtain ⟨outcome, _, tried, rest⟩ := rest.bind_ok
    obtain ⟨_, shape, created⟩ := tried.attempt_inv
    cases shape
    split at rest
    · obtain ⟨isSeeded, rfl⟩ := rest.pure_inv
      rcases createLocalUser_effect created with
        ⟨-, _, impossible⟩ | ⟨name, hash, stored⟩
      · cases impossible
      · cases isSeeded
        exact ⟨by simp [wasEmpty], by simp [stored]⟩
    · obtain ⟨hash, _, hashRun, rest⟩ := rest.bind_ok
      obtain ⟨id, _, insertRun, rest⟩ := rest.bind_ok
      obtain ⟨isSeeded, rfl⟩ := rest.pure_inv
      cases isSeeded
      exact ⟨by simp [wasEmpty],
        by simp [insertUser_ok insertRun.exec_ok]⟩
  refine ⟨started.1, ?_⟩
  exact @Machine.run_invariant _ _ _ accountsMachine
    (fun accounts => accounts.rows ≠ [])
    (fun _ input present => accounts_remain present input) _ started.2 inputs

/-- A short token still seeds, and the account cannot be deleted. -/
theorem seeded_never_locked_out_admin :
    ∃ after,
      Runs (ensureSeedUser "admin" "short" (.ok "h") (.ok "h"))
          ⟨[], .nil, .nil⟩ (.ok true) after ∧
        (accountsMachine.run after [⟨.deleteUser 1, []⟩]).rows ≠ [] := by
  have run :=
    Runs.of_session (ensureSeedUser "admin" "short" (.ok "h") (.ok "h"))
      ⟨⟨[], .nil, .nil⟩, []⟩
  exact ⟨_, run, (seeded_never_locked_out run _).2⟩

end WgMesh.Users
