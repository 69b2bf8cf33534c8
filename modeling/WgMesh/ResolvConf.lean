import WgMesh.CommandCrashes
import WgMesh.FiniteRuns
import WgMesh.NetAddressText
import WgMesh.StoreDNS

namespace WgMesh.Agent

open CommandScripts FiniteRuns NetAddress Store TextScan

/-!
# The takeover of resolv.conf

Without systemd-resolved the agent writes the pushed name servers into
`/etc/resolv.conf` and keeps the original beside it.  Whether the file is the
agent's own is told from its first line only, so the original is lost when the
agent is interrupted between the removal of the file and the write: the file is
then missing or empty, is taken for somebody else's, and the backup is removed.

The scripts below issue one command for each file operation.  Any of them may
be refused and the agent may stop before any of them.  As long as that never
happens to the file while it is without content, the original survives every
sequence of calls.
-/

/-- The file of the resolver and the original beside it. -/
inductive ResolvFile where
  | conf
  | backup
deriving DecidableEq

/-- `resolvConfPath` and `resolvConfBackupPath`. -/
def ResolvFile.path : ResolvFile → String
  | .conf => "/etc/resolv.conf"
  | .backup => "/etc/resolv.conf.wgmesh-orig"

/-- The contents of the two files, as far as they exist. -/
structure Files where
  conf : Option String
  backup : Option String
deriving DecidableEq

/-- The content of a file. -/
def Files.get (files : Files) : ResolvFile → Option String
  | .conf => files.conf
  | .backup => files.backup

/-- Files after one of them has changed. -/
def Files.set (files : Files) (content : Option String) :
    ResolvFile → Files
  | .conf => { files with conf := content }
  | .backup => { files with backup := content }

/-- A single operation on a file. -/
inductive FileOp where
  | read (file : ResolvFile)
  | remove (file : ResolvFile)
  /-- Open for writing, creating the file or dropping its content. -/
  | truncate (file : ResolvFile)
  | write (file : ResolvFile) (content : String)
  | close (file : ResolvFile)

/-- What the operations do; only a read has an answer, which is empty for a
file that does not exist. -/
def disk : Interpreter FileOp (Option String) Files where
  exec operation files :=
    match operation with
    | .read file => some (files.get file, files)
    | .remove file =>
        if (files.get file).isSome then some (none, files.set none file)
        else none
    | .truncate file => some (none, files.set (some "") file)
    | .write file content =>
        some
          (none, files.set ((files.get file).map (· ++ content)) file)
    | .close _ => some (none, files)

/-- A program that works on the files. -/
abbrev FileScript := Script FileOp (Option String)

/-- Open a file, write its content and close it. -/
def overwrite (file : ResolvFile) (content : String) :
    FileScript (Except String Unit) := do
  if ← issue (.truncate file) then
    if ← issue (.write file content) then
      if ← issue (.close file) then
        pure (.ok ())
      else
        pure (.error ("close " ++ file.path))
    else
      let _ ← issue (.close file)
      pure (.error ("write " ++ file.path))
  else
    pure (.error ("open " ++ file.path))

/-- `writeResolvConf`. -/
def writeResolvConf (content : String) :
    FileScript (Except String Unit) := do
  let _ ← issue (.remove .conf)
  overwrite .conf content

/-- `resolvConfMarker`. -/
def resolvConfMarker : String :=
  "# Generated by wgmesh"

/-- The content is the agent's own. -/
def hasMarker (content : String) : Bool :=
  resolvConfMarker.toList.isPrefixOf content.toList

/-- `dnsMode`. -/
inductive DNSMode where
  | auto
  | resolved
  | resolvConf
  | off
deriving DecidableEq

/-- The part of `restoreResolvConf` that puts the original back. -/
def putBack (backup : String) : FileScript (Except String Unit) := do
  match ← writeResolvConf backup with
  | .error text => pure (.error text)
  | .ok _ =>
      if ← issue (.remove .backup) then
        pure (.ok ())
      else
        pure (.error ("remove " ++ ResolvFile.backup.path))

/-- `restoreResolvConf` under `dnsApplyMode`. -/
def restoreResolvConf (mode : DNSMode) : FileScript (Except String Unit) :=
  if mode = .resolved ∨ mode = .off then
    pure (.ok ())
  else do
    match ← ask (.read .conf) with
    | none => pure (.error ("read " ++ ResolvFile.conf.path))
    | some current =>
        if hasMarker (current.getD "") then
          match ← ask (.read .backup) with
          | none => pure (.error ("read " ++ ResolvFile.backup.path))
          | some none =>
              pure
                (.error
                  (ResolvFile.conf.path ++ " is wgmesh-managed but backup " ++
                    ResolvFile.backup.path ++
                    " is missing; restore it manually"))
          | some (some backup) => putBack backup
        else
          -- Something else owns the file now; a leftover backup is stale.
          let _ ← issue (.remove .backup)
          pure (.ok ())

/-- `strings.Fields` of a line. -/
def fields (line : List Char) : List (List Char) :=
  (line.splitOnP isSpace).filter (fun field => !field.isEmpty)

/-- The loop of `fallbackNameservers` over the lines; `resolvConfMaxNS` is
three. -/
def fallbackLoop (pushed : List String) :
    List (List Char) → List String → List String
  | [], out => out
  | line :: rest, out =>
      match fields line with
      | directive :: address :: _ =>
          if directive = "nameserver".toList then
            match parseAddr (String.ofList address) with
            | none => fallbackLoop pushed rest out
            | some addr =>
                if addr.text ∈ pushed ∨ addr.text ∈ out then
                  fallbackLoop pushed rest out
                else if 3 ≤ pushed.length + (out.length + 1) then
                  out ++ [addr.text]
                else
                  fallbackLoop pushed rest (out ++ [addr.text])
          else
            fallbackLoop pushed rest out
      | _ => fallbackLoop pushed rest out

/-- `fallbackNameservers` under `dnsKeepFallback`. -/
def fallbackNameservers (keepFallback : Bool) (original : String)
    (pushed : List String) : List String :=
  if keepFallback then
    fallbackLoop pushed (original.toList.splitOn '\n') []
  else
    []

/-- `dnsPlainSearchDomains`. -/
def dnsPlainSearchDomains (cfg : DNSConfig) : List String :=
  ((cfg.searchDomains ++ if cfg.magicDNS then [cfg.domain] else []).filter
    (fun domain => domain != "")).eraseDups

/-- Lines that name a server each. -/
def nameserverLines (servers : List String) : String :=
  String.join (servers.map fun server => "nameserver " ++ server ++ "\n")

/-- The content that `applyResolvConfDNS` writes. -/
def takeoverContent (keepFallback : Bool) (cfg : DNSConfig)
    (original : String) : String :=
  let fallbacks := fallbackNameservers keepFallback original cfg.nameservers
  let domains := dnsPlainSearchDomains cfg
  resolvConfMarker ++
    (" (dns push); do not edit.\n" ++
      "# Original saved at " ++ ResolvFile.backup.path ++
      "; restored when dns push is disabled or the agent exits.\n" ++
      nameserverLines cfg.nameservers ++
      (if fallbacks = [] then
        ""
      else
        "# Fallback: the host's original nameservers, so name resolution\n" ++
          "# (including the control plane's own name) survives mesh DNS " ++
          "loss.\n" ++ nameserverLines fallbacks ++
          "options timeout:2 attempts:2\n") ++
      if domains = [] then
        ""
      else
        "search " ++ String.intercalate " " domains ++ "\n")

/-- The part of `applyResolvConfDNS` after the live file is read. -/
def takeOver (keepFallback : Bool) (cfg : DNSConfig) (current : String) :
    FileScript (Except String Unit) :=
  if hasMarker current then do
    match ← ask (.read .backup) with
    | some (some backup) =>
        writeResolvConf (takeoverContent keepFallback cfg backup)
    | _ => writeResolvConf (takeoverContent keepFallback cfg current)
  else do
    match ← overwrite .backup current with
    | .error text =>
        pure (.error ("back up " ++ ResolvFile.conf.path ++ ": " ++ text))
    | .ok _ => writeResolvConf (takeoverContent keepFallback cfg current)

/-- `applyResolvConfDNS`. -/
def applyResolvConfDNS (mode : DNSMode) (keepFallback : Bool)
    (cfg : DNSConfig) : FileScript (Except String Unit) :=
  if !cfg.enabled then
    restoreResolvConf mode
  else if cfg.nameservers = [] then
    pure (.ok ())
  else
    match cfg.nameservers.find? fun ns => (parseAddr ns).isNone with
    | some ns => pure (.error ("parse dns nameserver \"" ++ ns ++ "\""))
    | none =>
        match
          (dnsPlainSearchDomains cfg).find? fun domain =>
            domain.toList.any fun char => " \t\n\r".toList.contains char
        with
        | some domain =>
            pure (.error ("invalid dns search domain \"" ++ domain ++ "\""))
        | none => do
            match ← ask (.read .conf) with
            | none => pure (.error ("read " ++ ResolvFile.conf.path))
            | some current => takeOver keepFallback cfg (current.getD "")

/-- The open of the resolver's file fails or is interrupted only while the file
is there, and its write does not at all. -/
def Intact : FileOp → Fate → Files → Prop
  | .truncate .conf, fate, files =>
      fate = .granted ∨ files.conf.isSome = true
  | .write .conf _, fate, _ => fate = .granted
  | _, _, _ => True

instance (operation : FileOp) (fate : Fate) (files : Files) :
    Decidable (Intact operation fate files) :=
  match operation with
  | .truncate .conf =>
      inferInstanceAs (Decidable (fate = .granted ∨ _))
  | .write .conf _ => inferInstanceAs (Decidable (fate = .granted))
  | .read _ => inferInstanceAs (Decidable True)
  | .remove _ => inferInstanceAs (Decidable True)
  | .truncate .backup => inferInstanceAs (Decidable True)
  | .write .backup _ => inferInstanceAs (Decidable True)
  | .close _ => inferInstanceAs (Decidable True)

/-- The resolver's file is the original, or the agent's own with the original
beside it. -/
def Survives (original : String) (files : Files) : Prop :=
  files.conf = some original ∨
    (∃ current, files.conf = some current ∧ hasMarker current = true) ∧
      files.backup = some original

section Survives

variable {original content : String} {files : Files}

/-- The backup is written without touching the resolver's file. -/
theorem safe_overwrite_backup
    (files : Files)
    (content : String) :
    disk.Safe Intact (overwrite .backup content)
      (fun value after =>
        after.conf = files.conf ∧
          (value = some (.ok ()) → after.backup = some content))
      files := by
  refine Interpreter.safe_issue (by simp) ?_ ?_
  · intro _
    simp [Interpreter.Safe, pure]
  rintro _ _ - executed
  cases executed
  refine Interpreter.safe_issue (by simp [Files.set]) ?_ ?_
  · intro _
    refine Interpreter.safe_issue (by simp [Files.set]) ?_ ?_
    · intro _
      simp [Interpreter.Safe, pure, Files.set]
    · rintro _ _ - executed
      cases executed
      simp [Interpreter.Safe, pure, Files.set]
  rintro _ _ - executed
  cases executed
  refine Interpreter.safe_issue (by simp [Files.set]) ?_ ?_
  · intro _
    simp [Interpreter.Safe, pure, Files.set]
  · rintro _ _ - executed
    cases executed
    simp [Interpreter.Safe, pure, Files.set, Files.get]

/-- A file that is there is left as it is or gets its new content; one that is
not gets it. -/
theorem safe_overwrite_conf
    (files : Files)
    (content : String) :
    disk.Safe Intact (overwrite .conf content)
      (fun value after =>
        (files.conf.isSome = true ∧ after = files ∨
            after = { files with conf := some content }) ∧
          (value = some (.ok ()) →
            after = { files with conf := some content }))
      files := by
  refine Interpreter.safe_issue ?_ ?_ ?_
  · rintro (isGranted | present)
    · cases isGranted
    · simp [present]
  · rintro ((isGranted | present) | failed)
    · cases isGranted
    · simp [Interpreter.Safe, pure, present]
    · cases failed
  rintro _ _ - executed
  cases executed
  refine Interpreter.safe_issue (by simp [Intact]) ?_ ?_
  · rintro (isGranted | failed)
    · cases isGranted
    · cases failed
  rintro _ _ - executed
  cases executed
  refine Interpreter.safe_issue (by simp [Files.set, Files.get]) ?_ ?_
  · intro _
    simp [Interpreter.Safe, pure, Files.set, Files.get]
  · rintro _ _ - executed
    cases executed
    simp [Interpreter.Safe, pure, Files.set, Files.get]

/-- The resolver's file is left as it is or gets its new content. -/
theorem safe_writeResolvConf
    {files : Files}
    (present : files.conf.isSome = true)
    (content : String) :
    disk.Safe Intact (writeResolvConf content)
      (fun value after =>
        (after = files ∨ after = { files with conf := some content }) ∧
          (value = some (.ok ()) →
            after = { files with conf := some content }))
      files := by
  refine Interpreter.safe_issue (by simp) ?_ ?_
  · intro _
    refine (safe_overwrite_conf files content).mono ?_
    rintro value after ⟨shape, finished⟩
    exact ⟨shape.imp And.right id, finished⟩
  · rintro _ after - executed
    rw [show disk.exec (.remove .conf) files =
        some (none, { files with conf := none }) by
      simp [disk, Files.get, Files.set, present]] at executed
    cases executed
    refine (safe_overwrite_conf _ content).mono ?_
    rintro value after ⟨shape, finished⟩
    refine ⟨Or.inr (shape.resolve_left ?_), finished⟩
    simp

theorem hasMarker_takeoverContent
    (keepFallback : Bool)
    (cfg : DNSConfig)
    (original : String) :
    hasMarker (takeoverContent keepFallback cfg original) = true := by
  unfold hasMarker takeoverContent
  rw [String.toList_append, List.isPrefixOf_iff_prefix]
  exact List.prefix_append ..

theorem safe_takeover
    (present : files.conf.isSome = true)
    (survives : Survives original files)
    (isBackup : files.backup = some original)
    (isOwn : hasMarker content = true) :
    disk.Safe Intact (writeResolvConf content)
      (fun _ after => Survives original after) files := by
  refine (safe_writeResolvConf present content).mono ?_
  rintro _ after ⟨rfl | rfl, -⟩
  · exact survives
  · exact Or.inr ⟨⟨content, rfl, isOwn⟩, isBackup⟩

/-- The original is put back, or stays beside the file. -/
theorem safe_putBack
    (present : files.conf.isSome = true)
    (survives : Survives original files) :
    disk.Safe Intact (putBack original)
      (fun _ after => Survives original after) files := by
  refine Interpreter.Safe.bind
    ((safe_writeResolvConf present original).mono ?_)
  rintro value after ⟨shape, finished⟩
  have stillSurvives : Survives original after := by
    rcases shape with rfl | rfl
    · exact survives
    · exact Or.inl rfl
  match value with
  | none => exact stillSurvives
  | some (.error _) => exact stillSurvives
  | some (.ok _) =>
      obtain rfl := finished rfl
      refine Interpreter.safe_issue (fun _ => stillSurvives) ?_ ?_
      · intro _
        exact stillSurvives
      · rintro _ _ - executed
        simp only [disk] at executed
        split at executed
        · cases executed
          exact Or.inl rfl
        · cases executed

/-- `restoreResolvConf` keeps the original. -/
theorem safe_restoreResolvConf
    (foreign : hasMarker original = false)
    (mode : DNSMode)
    (survives : Survives original files) :
    disk.Safe Intact (restoreResolvConf mode)
      (fun _ after => Survives original after) files := by
  unfold restoreResolvConf
  split
  · exact survives
  refine Interpreter.safe_ask (fun _ => survives) (fun _ => survives) ?_
  rintro _ _ - executed
  cases executed
  rcases survives with isOriginal | ⟨⟨current, isCurrent, isOwn⟩, isBackup⟩
  · simp only [Files.get, isOriginal, Option.getD_some, foreign]
    refine Interpreter.safe_issue (fun _ => Or.inl isOriginal)
      (fun _ => Or.inl isOriginal) ?_
    rintro _ _ - executed
    simp only [disk] at executed
    split at executed
    · cases executed
      exact Or.inl isOriginal
    · cases executed
  · have survives : Survives original files :=
      Or.inr ⟨⟨current, isCurrent, isOwn⟩, isBackup⟩
    simp only [Files.get, isCurrent, Option.getD_some, isOwn]
    refine Interpreter.safe_ask (fun _ => survives) (fun _ => survives) ?_
    rintro _ _ - executed
    cases executed
    simp only [Files.get, isBackup]
    exact safe_putBack (by rw [isCurrent]; rfl) survives

/-- `applyResolvConfDNS` keeps the original. -/
theorem safe_applyResolvConfDNS
    (foreign : hasMarker original = false)
    (mode : DNSMode)
    (keepFallback : Bool)
    (cfg : DNSConfig)
    (survives : Survives original files) :
    disk.Safe Intact (applyResolvConfDNS mode keepFallback cfg)
      (fun _ after => Survives original after) files := by
  unfold applyResolvConfDNS
  split
  · exact safe_restoreResolvConf foreign mode survives
  split
  · exact survives
  split
  · exact survives
  split
  · exact survives
  refine Interpreter.safe_ask (fun _ => survives) (fun _ => survives) ?_
  rintro _ _ - executed
  cases executed
  unfold takeOver
  rcases survives with isOriginal | ⟨⟨current, isCurrent, isOwn⟩, isBackup⟩
  · simp only [Files.get, isOriginal, Option.getD_some, foreign]
    refine Interpreter.Safe.bind
      ((safe_overwrite_backup files original).mono ?_)
    rintro value after ⟨sameConf, finished⟩
    have stillOriginal : Survives original after :=
      Or.inl (sameConf.trans isOriginal)
    match value with
    | none => exact stillOriginal
    | some (.error _) => exact stillOriginal
    | some (.ok _) =>
        exact safe_takeover (by rw [sameConf, isOriginal]; rfl)
          stillOriginal (finished rfl) (hasMarker_takeoverContent _ _ _)
  · have survives : Survives original files :=
      Or.inr ⟨⟨current, isCurrent, isOwn⟩, isBackup⟩
    have present : files.conf.isSome = true := by
      rw [isCurrent]
      rfl
    simp only [Files.get, isCurrent, Option.getD_some, isOwn]
    refine Interpreter.safe_ask (fun _ => survives) ?_ ?_
    · intro _
      exact safe_takeover present survives isBackup
        (hasMarker_takeoverContent _ _ _)
    · rintro _ _ - executed
      cases executed
      simp only [Files.get, isBackup]
      exact safe_takeover present survives isBackup
        (hasMarker_takeoverContent _ _ _)

/-- A restore without failures puts a surviving original back. -/
theorem run_restoreResolvConf
    (foreign : hasMarker original = false)
    {mode : DNSMode}
    (managed : mode = .auto ∨ mode = .resolvConf)
    (survives : Survives original files) :
    (disk.run (restoreResolvConf mode) files).2.conf = some original := by
  have isManaged : ¬ (mode = .resolved ∨ mode = .off) := by
    rcases managed with rfl | rfl
    · decide
    · decide
  obtain ⟨conf, backup⟩ := files
  rw [restoreResolvConf, if_neg isManaged]
  rcases survives with isOriginal | ⟨⟨current, isCurrent, isOwn⟩, isBackup⟩
  · obtain rfl : conf = some original := isOriginal
    cases backup with
    | none =>
        simp [bind, Script.bind, Interpreter.run, ask, issue, disk,
          Files.get, foreign, pure]
    | some stale =>
        simp [bind, Script.bind, Interpreter.run, ask, issue, disk,
          Files.get, Files.set, foreign, pure]
  · obtain rfl : conf = some current := isCurrent
    obtain rfl : backup = some original := isBackup
    simp [bind, Script.bind, Interpreter.run, ask, issue, disk, Files.get,
      Files.set, isOwn, pure, putBack, writeResolvConf, overwrite]

end Survives

/-- A call of one of the two functions. -/
inductive ResolvCall where
  | apply (keepFallback : Bool) (cfg : DNSConfig)
  | restore

/-- A call, the mode of the process that makes it, and what happens to its file
operations. -/
structure ResolvInput where
  mode : DNSMode
  call : ResolvCall
  fates : List Fate

/-- The operations of a call. -/
def ResolvInput.script (input : ResolvInput) :
    FileScript (Except String Unit) :=
  match input.call with
  | .apply keepFallback cfg =>
      applyResolvConfDNS input.mode keepFallback cfg
  | .restore => restoreResolvConf input.mode

/-- The calls of any number of processes, one after the other; a call without
an outcome has stopped its process. -/
def resolving :
    Machine Files ResolvInput (Option (Except String Unit)) where
  step files input :=
    let outcome := disk.interrupted input.script input.fates files
    (outcome.1, outcome.2.1)

/--
After every sequence of calls in which nothing happens to the resolver's file
while it is without content, a restore without failures leaves the original.
-/
theorem original_survives
    {original : String}
    (foreign : hasMarker original = false)
    (backup : Option String)
    {inputs : List ResolvInput}
    (intact :
      ∀ visit,
        visit ∈ resolving.visits ⟨some original, backup⟩ inputs →
        disk.Along Intact visit.input.script visit.input.fates visit.before)
    {mode : DNSMode}
    (managed : mode = .auto ∨ mode = .resolvConf) :
    (disk.run (restoreResolvConf mode)
        (resolving.run ⟨some original, backup⟩ inputs)).2.conf =
      some original := by
  refine run_restoreResolvConf foreign managed ?_
  refine
    (@Machine.visits_invariant _ _ _ resolving (Survives original)
      (fun files input =>
        disk.Along Intact input.script input.fates files)
      ?_ _ (Or.inl rfl) inputs intact).1
  intro files input survives along
  have safe :
      disk.Safe Intact input.script
        (fun _ after => Survives original after) files := by
    unfold ResolvInput.script
    cases input.call with
    | apply keepFallback cfg =>
        exact safe_applyResolvConfDNS foreign _ keepFallback cfg survives
    | restore => exact safe_restoreResolvConf foreign _ survives
  exact safe.sound along

/-- Settings with one name server. -/
def sampleDNS : DNSConfig where
  enabled := true
  magicDNS := false
  domain := ""
  nameservers := ["100.64.0.53"]
  searchDomains := []

/-- A host with a name server of its own. -/
def sampleOriginal : String :=
  "nameserver 192.0.2.1\n"

/-- A takeover under fates. -/
def sampleTakeover (fates : List Fate) : ResolvInput where
  mode := .resolvConf
  call := .apply true sampleDNS
  fates := fates

/-- A takeover whose file can neither be removed nor opened, and one that is
stopped when the file is written, are undone. -/
theorem original_survives_refusedOpen :
    (disk.run (restoreResolvConf .resolvConf)
        (resolving.run ⟨some sampleOriginal, none⟩
          [sampleTakeover
            [.granted, .granted, .granted, .granted, .refused, .refused],
            sampleTakeover
              [.granted, .granted, .granted, .granted, .granted, .granted,
                .granted, .stopped]])).2.conf =
      some sampleOriginal := by
  have foreign : hasMarker sampleOriginal = false := by
    decide +kernel
  refine original_survives foreign none ?_ (Or.inr rfl)
  intro visit member
  simp only [Machine.visits, List.mem_cons, List.not_mem_nil, or_false]
    at member
  rcases member with rfl | rfl
  · decide +kernel
  · decide +kernel

/--
A takeover that is stopped after the removal of the file, or whose write fails,
loses the original at the next restore, which removes the backup.
-/
theorem interrupted_takeover_loses_original :
    hasMarker sampleOriginal = false ∧
      (disk.run (restoreResolvConf .resolvConf)
          (resolving.run ⟨some sampleOriginal, none⟩
            [sampleTakeover
              [.granted, .granted, .granted, .granted, .granted,
                .stopped]])).2 = ⟨none, none⟩ ∧
      (disk.run (restoreResolvConf .resolvConf)
          (resolving.run ⟨some sampleOriginal, none⟩
            [sampleTakeover
              [.granted, .granted, .granted, .granted, .granted, .granted,
                .refused]])).2 = ⟨some "", none⟩ := by
  decide +kernel

end WgMesh.Agent
