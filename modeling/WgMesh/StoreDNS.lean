import WgMesh.NetAddressText
import WgMesh.StoreSchema

namespace WgMesh.Store

/-!
# DNS settings

`dns.go`: the settings are normalised before they are stored and again when
they are read.
-/

open NetAddress TextScan Transactions

/-- `DNSConfig`. -/
structure DNSConfig where
  enabled : Bool
  magicDNS : Bool
  domain : String
  nameservers : List String
  searchDomains : List String
deriving DecidableEq

/-- `normalizeDomain`. -/
def normalizeDomain (s : String) : String :=
  let s := trimSpace (toLower s)
  if s.toList.getLast? = some '.' then String.ofList s.toList.dropLast else s

/-- The characters of a DNS label. -/
def isLabelChar (char : Char) : Bool :=
  ('a'.toNat ≤ char.toNat && char.toNat ≤ 'z'.toNat) ||
    ('0'.toNat ≤ char.toNat && char.toNat ≤ '9'.toNat) || char == '-'

/-- The checks of one label. -/
def validateLabel (field domain : String) (label : List Char) :
    Except StoreError Unit :=
  let named := field ++ " \"" ++ domain ++ "\""
  if label = [] ∨ 63 < (String.ofList label).utf8ByteSize then
    .error (failure (named ++ " is not a valid DNS name"))
  else if label.head? = some '-' ∨ label.getLast? = some '-' then
    .error (failure (named ++ " labels cannot start or end with '-'"))
  else
    match label.find? (fun char => !isLabelChar char) with
    | some char =>
        .error
          (failure
            (named ++ " contains invalid character '" ++
              String.singleton char ++ "'"))
    | none => .ok ()

/-- `validateDomain`. -/
@[irreducible]
def validateDomain (field domain : String) : Except StoreError Unit :=
  if 253 < domain.utf8ByteSize then
    .error (failure (field ++ " \"" ++ domain ++ "\" is too long"))
  else
    (domain.toList.splitOn '.').forM (validateLabel field domain)

/-- Append a text unless it is there already. -/
def addUnique (texts : List String) (text : String) : List String :=
  if text ∈ texts then texts else texts ++ [text]

/-- The loop over the nameservers; the parser's text is left out. -/
def normalizeNameservers : List String → List String →
    Except StoreError (List String)
  | kept, [] => .ok kept
  | kept, raw :: rest =>
      let ns := trimSpace raw
      if ns = "" then
        normalizeNameservers kept rest
      else
        match parseAddr ns with
        | none =>
            .error
              (failure ("nameserver \"" ++ ns ++ "\" must be an IP address"))
        | some addr =>
            normalizeNameservers (addUnique kept addr.text) rest

/-- The loop over the search domains. -/
def normalizeSearchDomains : List String → List String →
    Except StoreError (List String)
  | kept, [] => .ok kept
  | kept, raw :: rest =>
      let domain := normalizeDomain raw
      if domain = "" then
        normalizeSearchDomains kept rest
      else
        match validateDomain "search domain" domain with
        | .error error => .error error
        | .ok () => normalizeSearchDomains (addUnique kept domain) rest

/-- `NormalizeDNSConfig`. -/
def normalizeDNSConfig (config : DNSConfig) :
    Except StoreError DNSConfig := do
  let domain :=
    if normalizeDomain config.domain = "" then "vpn"
    else normalizeDomain config.domain
  validateDomain "domain" domain
  let nameservers ← normalizeNameservers [] config.nameservers
  let search ← normalizeSearchDomains [] config.searchDomains
  let search :=
    if config.enabled && config.magicDNS && domain ∉ search then
      domain :: search
    else
      search
  if config.enabled && nameservers.isEmpty then
    .error
      (failure "at least one nameserver is required when DNS is enabled")
  else
    .ok
      { config with
        domain
        nameservers
        searchDomains := search }

/-- The stored settings over the defaults of `loadDNSConfig`. -/
def Settings.dns (settings : Settings) : DNSConfig where
  enabled := settings.dnsEnabled.getD false
  magicDNS := settings.dnsMagic.getD true
  domain := settings.dnsDomain.getD "vpn"
  nameservers := settings.dnsNameservers.getD []
  searchDomains := settings.dnsSearchDomains.getD []

/-- `loadDNSConfig`, which is all `CurrentDNSConfig` does. -/
def currentDNSConfig : StoreM DNSConfig := do
  let config ← select "load dns config" (fun tables => tables.settings.dns)
  match normalizeDNSConfig config with
  | .error error => raise error
  | .ok normalized => pure normalized

/-- The settings after `saveDNSConfig`. -/
def Settings.withDNS (config : DNSConfig) (settings : Settings) : Settings :=
  { settings with
    dnsEnabled := some config.enabled
    dnsMagic := some config.magicDNS
    dnsDomain := some config.domain
    dnsNameservers := some config.nameservers
    dnsSearchDomains := some config.searchDomains }

/-- `upsertSetting` of one DNS setting. -/
def saveSetting (key : String) (update : Settings → Settings) :
    StoreM Unit :=
  modify ("save setting " ++ key) fun tables =>
    ((), { tables with settings := update tables.settings })

/-- `saveDNSConfig`; the source saves the five settings in map order. -/
def saveDNSConfig (config : DNSConfig) : StoreM Unit := do
  saveSetting "dns_enabled"
    (fun settings => { settings with dnsEnabled := some config.enabled })
  saveSetting "dns_magic"
    (fun settings => { settings with dnsMagic := some config.magicDNS })
  saveSetting "dns_domain"
    (fun settings => { settings with dnsDomain := some config.domain })
  saveSetting "dns_nameservers"
    (fun settings =>
      { settings with dnsNameservers := some config.nameservers })
  saveSetting "dns_search_domains"
    (fun settings =>
      { settings with dnsSearchDomains := some config.searchDomains })

/-- `UpdateDNSConfig`. -/
def updateDNSConfig (config : DNSConfig) : StoreM DNSConfig :=
  match normalizeDNSConfig config with
  | .error error => raise error
  | .ok normalized =>
      inTransaction "begin dns config update" "commit dns config update" do
        saveDNSConfig normalized
        pure normalized

/-- `settingExists`: a query that fails counts as no setting. -/
def settingExists (isSet : Settings → Bool) : StoreM Bool := do
  let counted ←
    attempt (select "count settings" fun tables => isSet tables.settings)
  pure (counted.toOption.getD false)

/-- The settings `LoadOrInitDNSConfig` takes from the defaults: the texts and
lists that are empty, and the flags that are not stored. -/
def DNSConfig.filledFrom (config defaults : DNSConfig)
    (enabledStored magicStored : Bool) : DNSConfig where
  enabled := if enabledStored then config.enabled else defaults.enabled
  magicDNS := if magicStored then config.magicDNS else defaults.magicDNS
  domain := if config.domain = "" then defaults.domain else config.domain
  nameservers :=
    if config.nameservers = [] then defaults.nameservers
    else config.nameservers
  searchDomains :=
    if config.searchDomains = [] then defaults.searchDomains
    else config.searchDomains

/-- `LoadOrInitDNSConfig`. -/
def loadOrInitDNSConfig (defaults : DNSConfig) : StoreM DNSConfig :=
  inTransaction "begin dns config" "commit dns config" do
    let config ← currentDNSConfig
    let enabledStored ← settingExists (·.dnsEnabled.isSome)
    let magicStored ← settingExists (·.dnsMagic.isSome)
    match
      normalizeDNSConfig
        (config.filledFrom defaults enabledStored magicStored)
    with
    | .error error => raise error
    | .ok normalized => do
        saveDNSConfig normalized
        pure normalized

variable {before after : DB} {config : DNSConfig}

/-- What `CurrentDNSConfig` returns is computed from the settings. -/
theorem currentDNSConfig_ok
    (run : Runs currentDNSConfig before (.ok config) after) :
    after = before ∧
      normalizeDNSConfig before.tables.settings.dns = .ok config := by
  obtain ⟨stored, middle, readRun, rest⟩ := run.bind_ok
  obtain ⟨same, shape⟩ := select_ok readRun
  subst middle stored
  split at rest
  · exact rest.raise_ok.elim
  · rename_i normalized normalizes
    obtain ⟨valueShape, sameEnd⟩ := rest.pure_inv
    cases valueShape
    exact ⟨sameEnd, normalizes⟩

theorem readOnly_currentDNSConfig : ReadOnly currentDNSConfig := by
  apply ReadOnly.bind (readOnly_select _ _)
  intro config
  split
  · exact readOnly_raise _
  · exact readOnly_pure _

/-- Saving stores exactly the five settings. -/
theorem saveDNSConfig_ok
    (run : Runs (saveDNSConfig config) before (.ok ()) after) :
    after.tables =
      { before.tables with
        settings := before.tables.settings.withDNS config } := by
  obtain ⟨_, first, enabledRun, rest⟩ := run.bind_ok
  obtain ⟨_, second, magicRun, rest⟩ := rest.bind_ok
  obtain ⟨_, third, domainRun, rest⟩ := rest.bind_ok
  obtain ⟨_, fourth, serversRun, searchRun⟩ := rest.bind_ok
  rw [(modify_ok searchRun).2, (modify_ok serversRun).2,
    (modify_ok domainRun).2, (modify_ok magicRun).2,
    (modify_ok enabledRun).2]
  rfl

/-- An accepted update stores the normalised settings. -/
theorem updateDNSConfig_ok
    {normalized : DNSConfig}
    (run : Runs (updateDNSConfig config) before (.ok normalized) after) :
    normalizeDNSConfig config = .ok normalized ∧
      after.tables =
        { before.tables with
          settings := before.tables.settings.withDNS normalized } := by
  unfold updateDNSConfig at run
  split at run
  · exact run.raise_ok.elim
  · rename_i accepted normalizes
    obtain ⟨_, saved, saveRun, rest⟩ := (inTransaction_ok run).bind_ok
    obtain ⟨valueShape, sameEnd⟩ := rest.pure_inv
    cases valueShape
    rw [sameEnd]
    exact ⟨normalizes, saveDNSConfig_ok saveRun⟩

theorem completes_currentDNSConfig
    (db : DB) :
    Completes currentDNSConfig db
      (normalizeDNSConfig db.tables.settings.dns) db := by
  refine (completes_query _ _ _).bind ?_
  cases normalizeDNSConfig db.tables.settings.dns with
  | error error => exact completes_raise _ _
  | ok dns => exact completes_pure _ _

theorem completes_saveSetting
    (key : String)
    (update : Settings → Settings)
    (db : DB) :
    Completes (saveSetting key update) db (.ok ())
      (db.withSettings (update db.tables.settings)) :=
  completes_exec (write_eq (db.legal.withSettings _))

theorem completes_saveDNSConfig
    (config : DNSConfig)
    (db : DB) :
    Completes (saveDNSConfig config) db (.ok ())
      (db.withSettings (db.tables.settings.withDNS config)) := by
  refine (completes_saveSetting _ _ _).bind ?_
  refine (completes_saveSetting _ _ _).bind ?_
  refine (completes_saveSetting _ _ _).bind ?_
  refine (completes_saveSetting _ _ _).bind ?_
  exact completes_saveSetting _ _ _

theorem completes_updateDNSConfig
    {normalized : DNSConfig}
    (accepted : normalizeDNSConfig config = .ok normalized)
    (db : DB) :
    Completes (updateDNSConfig config) db (.ok normalized)
      (db.withSettings (db.tables.settings.withDNS normalized)) := by
  unfold updateDNSConfig
  rw [accepted]
  exact Completes.transaction
    ((completes_saveDNSConfig normalized db).bind (completes_pure _ _))

theorem completes_settingExists
    (isSet : Settings → Bool)
    (db : DB) :
    Completes (settingExists isSet) db (.ok (isSet db.tables.settings)) db :=
  rfl

section LoadOrInit

variable
  {db : DB}
  {defaults stored : DNSConfig}
  (current : normalizeDNSConfig db.tables.settings.dns = .ok stored)

include current

theorem completes_loadOrInitDNSConfig
    {normalized : DNSConfig}
    (accepted :
      normalizeDNSConfig
          (stored.filledFrom defaults db.tables.settings.dnsEnabled.isSome
            db.tables.settings.dnsMagic.isSome) =
        .ok normalized) :
    Completes (loadOrInitDNSConfig defaults) db (.ok normalized)
      (db.withSettings (db.tables.settings.withDNS normalized)) := by
  refine Completes.transaction ?_
  refine Completes.bind (current ▸ completes_currentDNSConfig db) ?_
  refine (completes_settingExists _ _).bind ?_
  refine (completes_settingExists _ _).bind ?_
  rw [accepted]
  exact (completes_saveDNSConfig normalized db).bind (completes_pure _ _)

theorem completes_loadOrInitDNSConfig_error
    {error : StoreError}
    (refused :
      normalizeDNSConfig
          (stored.filledFrom defaults db.tables.settings.dnsEnabled.isSome
            db.tables.settings.dnsMagic.isSome) =
        .error error) :
    Completes (loadOrInitDNSConfig defaults) db (.error error) db := by
  refine @Completes.transaction_rollback _ _ _ _ _ _ db db _ ?_
  refine Completes.bind (current ▸ completes_currentDNSConfig db) ?_
  refine (completes_settingExists _ _).bind ?_
  refine (completes_settingExists _ _).bind ?_
  rw [refused]
  exact completes_raise _ _

end LoadOrInit

theorem atomic_updateDNSConfig
    (config : DNSConfig) :
    Atomic (updateDNSConfig config) := by
  unfold updateDNSConfig
  split
  · exact (readOnly_raise _).atomic
  · exact atomic_inTransaction _ _ _

end WgMesh.Store
