import WgMesh.DNSNormalisation

namespace WgMesh.Store

/-!
# Where the DNS settings come from at a start

`LoadOrInitDNSConfig` runs at every start of the server with the settings of
the command line as defaults.  What it loads has been normalised already, so
a domain is never missing, and a list that was stored empty looks like one
that was never stored.
-/

open NetAddress TextScan Transactions

/-! ## What collecting refuses and drops -/

section Collect

variable {clean : String → Except StoreError (Option String)}

variable {kept raws : List String}

/-- Collecting fails exactly at a text that is refused. -/
theorem collect_ok_iff :
    (∃ texts, collect clean kept raws = .ok texts) ↔
      ∀ raw ∈ raws, ∃ cleaned, clean raw = .ok cleaned := by
  induction raws generalizing kept with
  | nil => simp [collect]
  | cons raw rest inductionHypothesis =>
      rw [List.forall_mem_cons, collect]
      cases clean raw with
      | error error => simp
      | ok cleaned =>
          cases cleaned with
          | none => simpa using inductionHypothesis
          | some text => simpa using inductionHypothesis

/-- What has been kept stays. -/
theorem subset_of_collect
    {texts : List String}
    (run : collect clean kept raws = .ok texts) :
    kept ⊆ texts := by
  induction raws generalizing kept with
  | nil =>
      cases run
      exact List.Subset.refl _
  | cons raw rest inductionHypothesis =>
      unfold collect at run
      split at run
      · cases run
      · exact inductionHypothesis run
      · rename_i text cleaned
        refine List.Subset.trans ?_ (inductionHypothesis run)
        unfold addUnique
        split
        · exact List.Subset.refl _
        · exact List.subset_append_left _ _

/-- Nothing is collected exactly from blank texts. -/
theorem collect_nil_iff :
    collect clean [] raws = .ok [] ↔
      ∀ raw ∈ raws, clean raw = .ok none := by
  induction raws with
  | nil => simp [collect]
  | cons raw rest inductionHypothesis =>
      rw [List.forall_mem_cons, ← inductionHypothesis, collect]
      cases cleaned : clean raw with
      | error error => simp
      | ok outcome =>
          cases outcome with
          | none => simp
          | some text =>
              dsimp only
              constructor
              · intro run
                have known := subset_of_collect run
                have member : text ∈ addUnique [] text := by
                  simp [addUnique]
                exact absurd (known member) List.not_mem_nil
              · rintro ⟨blank, -⟩
                cases blank

/-- A stored list is loaded again unless it is empty and the defaults are
not. -/
theorem collect_filled_iff
    (collected : Collected clean kept)
    (raws : List String) :
    collect clean [] (if kept = [] then raws else kept) = .ok kept ↔
      kept ≠ [] ∨ ∀ raw ∈ raws, clean raw = .ok none := by
  by_cases empty : kept = []
  · rw [if_pos empty, empty, collect_nil_iff]
    simp
  · rw [if_neg empty]
    simp [collected.collect, empty]

end Collect

/-- Only a blank nameserver is skipped. -/
theorem cleanNameserver_none_iff
    (raw : String) :
    cleanNameserver raw = .ok none ↔ trimSpace raw = "" := by
  unfold cleanNameserver
  dsimp only
  by_cases blank : trimSpace raw = ""
  · simp [blank]
  · rw [if_neg blank]
    cases parseAddr (trimSpace raw) with
    | none => simp [blank]
    | some addr => simp [blank]

/-- A nameserver is refused when it is no address. -/
theorem cleanNameserver_ok_iff
    (raw : String) :
    (∃ cleaned, cleanNameserver raw = .ok cleaned) ↔
      trimSpace raw = "" ∨ parseAddr (trimSpace raw) ≠ none := by
  unfold cleanNameserver
  dsimp only
  by_cases blank : trimSpace raw = ""
  · simp [blank]
  · rw [if_neg blank]
    cases parseAddr (trimSpace raw) with
    | none => simp [blank]
    | some addr => simp

/-- Only a search domain that normalises to nothing is skipped. -/
theorem cleanSearchDomain_none_iff
    (raw : String) :
    cleanSearchDomain raw = .ok none ↔ normalizeDomain raw = "" := by
  unfold cleanSearchDomain
  dsimp only
  by_cases blank : normalizeDomain raw = ""
  · rw [if_pos blank]
    simp [blank]
  · rw [if_neg blank]
    cases validateDomain "search domain" (normalizeDomain raw) with
    | error error => simp [blank]
    | ok done => simp [blank]

/-- A search domain is refused when it is no domain. -/
theorem cleanSearchDomain_ok_iff
    (raw : String) :
    (∃ cleaned, cleanSearchDomain raw = .ok cleaned) ↔
      normalizeDomain raw = "" ∨ ValidDomain (normalizeDomain raw) := by
  unfold cleanSearchDomain
  dsimp only
  by_cases blank : normalizeDomain raw = ""
  · rw [if_pos blank]
    simp [blank]
  · rw [if_neg blank, ← @validateDomain_ok "search domain"]
    cases validateDomain "search domain" (normalizeDomain raw) with
    | error error => simp [blank]
    | ok done => simp

/-- The lists of a configuration are refused, whatever its domain is. -/
def DNSConfig.ListsRefused (config : DNSConfig) : Prop :=
  (∃ raw ∈ config.nameservers,
      trimSpace raw ≠ "" ∧ parseAddr (trimSpace raw) = none) ∨
    (∃ raw ∈ config.searchDomains,
      normalizeDomain raw ≠ "" ∧ ¬ValidDomain (normalizeDomain raw)) ∨
    (config.enabled = true ∧
      ∀ raw ∈ config.nameservers, trimSpace raw = "")

/-- When a configuration is accepted. -/
theorem accepted_iff
    (config : DNSConfig) :
    (∃ normalized, normalizeDNSConfig config = .ok normalized) ↔
      ValidDomain config.effectiveDomain ∧ ¬config.ListsRefused := by
  have servers :
      (∃ texts, collect cleanNameserver [] config.nameservers = .ok texts) ↔
        ¬∃ raw ∈ config.nameservers,
          trimSpace raw ≠ "" ∧ parseAddr (trimSpace raw) = none := by
    simp only [collect_ok_iff, cleanNameserver_ok_iff, not_exists, not_and,
      or_iff_not_imp_left, ne_eq]
  have searched :
      (∃ texts,
          collect cleanSearchDomain [] config.searchDomains = .ok texts) ↔
        ¬∃ raw ∈ config.searchDomains,
          normalizeDomain raw ≠ "" ∧ ¬ValidDomain (normalizeDomain raw) := by
    simp only [collect_ok_iff, cleanSearchDomain_ok_iff, not_exists, not_and,
      or_iff_not_imp_left, ne_eq, not_not]
  have blank :
      collect cleanNameserver [] config.nameservers = .ok [] ↔
        ∀ raw ∈ config.nameservers, trimSpace raw = "" := by
    simp only [collect_nil_iff, cleanNameserver_none_iff]
  unfold DNSConfig.ListsRefused
  rw [not_or, not_or, ← servers, ← searched, not_and, ← blank]
  constructor
  · rintro ⟨normalized, accepted⟩
    obtain ⟨nameservers, search, valid, serversRun, searchRun, served, -⟩ :=
      normalizeDNSConfig_ok_iff.mp accepted
    refine ⟨valid, ⟨nameservers, serversRun⟩, ⟨search, searchRun⟩, ?_⟩
    intro enabled empty
    rw [serversRun] at empty
    exact served enabled (Except.ok.inj empty)
  · rintro ⟨valid, ⟨nameservers, serversRun⟩, ⟨search, searchRun⟩, served⟩
    refine ⟨_, normalizeDNSConfig_ok_iff.mpr
      ⟨nameservers, search, valid, serversRun, searchRun, ?_, rfl⟩⟩
    rintro enabled rfl
    exact served enabled serversRun

/-! ## Histories of updates -/

/-- No DNS setting is stored. -/
structure Settings.NoDNS (settings : Settings) : Prop where
  enabled : settings.dnsEnabled = none
  magicDNS : settings.dnsMagic = none
  domain : settings.dnsDomain = none
  nameservers : settings.dnsNameservers = none
  searchDomains : settings.dnsSearchDomains = none

/-- Calls of `UpdateDNSConfig`, with the configurations they stored; a call
that fails stores nothing. -/
inductive Updates (start : DB) : List DNSConfig → DB → Prop
  | none : Updates start [] start
  | stored
      {history : List DNSConfig}
      {before after : DB}
      {config normalized : DNSConfig}
      (earlier : Updates start history before)
      (run : Runs (updateDNSConfig config) before (.ok normalized) after) :
      Updates start (history ++ [normalized]) after
  | failed
      {history : List DNSConfig}
      {before after : DB}
      {config : DNSConfig}
      {error : StoreError}
      (earlier : Updates start history before)
      (run : Runs (updateDNSConfig config) before (.error error) after) :
      Updates start history after

/-- The settings hold a configuration, or none. -/
def Settings.Hold (settings : Settings) : Option DNSConfig → Prop
  | none => settings.NoDNS
  | some stored =>
      Normalized stored ∧ settings.withDNS stored = settings

variable {db : DB}

/-- The settings hold the last configuration that was stored. -/
theorem hold_of_updates
    {start : DB}
    {history : List DNSConfig}
    (unset : start.tables.settings.NoDNS)
    (updates : Updates start history db) :
    db.tables.settings.Hold history.getLast? := by
  induction updates with
  | none => exact unset
  | stored earlier run inductionHypothesis =>
      obtain ⟨accepted, tables⟩ := updateDNSConfig_ok run
      rw [List.getLast?_concat, tables]
      exact ⟨normalized_of_normalize accepted, rfl⟩
  | failed earlier run inductionHypothesis =>
      rw [atomic_updateDNSConfig _ _ _ _ run]
      exact inductionHypothesis

/-! ## Loading at a start -/

/-- The configuration a start should end with: the stored one, or else the
normalised defaults. -/
def precedence (defaults : DNSConfig) :
    Option DNSConfig → Except StoreError DNSConfig
  | none => normalizeDNSConfig defaults
  | some stored => .ok stored

/-- `LoadOrInitDNSConfig` returns and stores that configuration when the
driver refuses nothing, and fails without a trace when the defaults that
should be taken are refused. -/
def LoadsInOrder (defaults : DNSConfig) (stored : Option DNSConfig)
    (db : DB) : Prop :=
  ∃ result after,
    Completes (loadOrInitDNSConfig defaults) db result after ∧
      match precedence defaults stored with
      | .ok config =>
          result = .ok config ∧
            after = db.withSettings (db.tables.settings.withDNS config)
      | .error _ => (∃ error, result = .error error) ∧ after = db

/-- What is loaded is the filled configuration, normalised. -/
theorem loadsInOrder_iff
    {current defaults : DNSConfig}
    (read : normalizeDNSConfig db.tables.settings.dns = .ok current)
    (stored : Option DNSConfig) :
    LoadsInOrder defaults stored db ↔
      match precedence defaults stored with
      | .ok config =>
          normalizeDNSConfig
              (current.filledFrom defaults
                db.tables.settings.dnsEnabled.isSome
                db.tables.settings.dnsMagic.isSome) =
            .ok config
      | .error _ =>
          ∃ error,
            normalizeDNSConfig
                (current.filledFrom defaults
                  db.tables.settings.dnsEnabled.isSome
                  db.tables.settings.dnsMagic.isSome) =
              .error error := by
  unfold LoadsInOrder
  cases filled :
      normalizeDNSConfig
        (current.filledFrom defaults db.tables.settings.dnsEnabled.isSome
          db.tables.settings.dnsMagic.isSome) with
  | error error =>
      have run := completes_loadOrInitDNSConfig_error read filled
      cases precedence defaults stored with
      | error expected =>
          exact iff_of_true ⟨_, _, run, ⟨error, rfl⟩, rfl⟩ ⟨error, rfl⟩
      | ok config =>
          refine iff_of_false ?_ (fun failed => by cases failed)
          rintro ⟨result, after, other, rfl, -⟩
          cases (run.unique other).1
  | ok normalized =>
      have run := completes_loadOrInitDNSConfig read filled
      cases precedence defaults stored with
      | error expected =>
          refine iff_of_false ?_ (fun ⟨error, failed⟩ => by cases failed)
          rintro ⟨result, after, other, ⟨error, rfl⟩, -⟩
          cases (run.unique other).1
      | ok config =>
          constructor
          · rintro ⟨result, after, other, rfl, -⟩
            exact (run.unique other).1
          · intro same
            cases Except.ok.inj same
            exact ⟨_, _, run, rfl, rfl⟩

/-- When the defaults leave the order of the sources alone. -/
def DefaultsYield (defaults : DNSConfig) : Option DNSConfig → Prop
  | none =>
      normalizeDomain defaults.domain = "" ∨
        normalizeDomain defaults.domain = "vpn" ∨ defaults.ListsRefused
  | some stored =>
      (stored.nameservers ≠ [] ∨
          ∀ raw ∈ defaults.nameservers, trimSpace raw = "") ∧
        (stored.searchDomains ≠ [] ∨
          ∀ raw ∈ defaults.searchDomains, normalizeDomain raw = "")

private theorem validDomain_vpn : ValidDomain "vpn" :=
  (@validateDomain_ok "domain" "vpn").mp (by decide +kernel)

/-- Without settings the domain is `vpn` and the rest is taken from the
defaults. -/
theorem filledFrom_of_noDNS
    (unset : db.tables.settings.NoDNS)
    (defaults : DNSConfig) :
    normalizeDNSConfig db.tables.settings.dns =
        .ok db.tables.settings.dns ∧
      db.tables.settings.dns.filledFrom defaults
          db.tables.settings.dnsEnabled.isSome
          db.tables.settings.dnsMagic.isSome =
        { defaults with domain := "vpn" } := by
  have shape :
      db.tables.settings.dns =
        { enabled := false
          magicDNS := true
          domain := "vpn"
          nameservers := []
          searchDomains := [] } := by
    simp [Settings.dns, unset.enabled, unset.magicDNS, unset.domain,
      unset.nameservers, unset.searchDomains]
  rw [shape, unset.enabled, unset.magicDNS]
  refine ⟨Normalized.normalize ?_, ?_⟩
  · exact
      { domain := validDomain_vpn
        nameservers := Collected.nil
        searchDomains := Collected.nil
        served := fun enabled => by cases enabled
        magic := fun enabled => by cases enabled }
  · simp [DNSConfig.filledFrom]

theorem effectiveDomain_eq_vpn_iff
    (config : DNSConfig) :
    config.effectiveDomain = "vpn" ↔
      normalizeDomain config.domain = "" ∨
        normalizeDomain config.domain = "vpn" := by
  unfold DNSConfig.effectiveDomain
  by_cases empty : normalizeDomain config.domain = ""
  · simp [empty]
  · simp [empty]

/-- With the domain `vpn` the defaults are normalised as they are exactly when
`vpn` is their domain. -/
theorem normalize_vpn_iff
    {defaults normalized : DNSConfig}
    (isVPN : defaults.effectiveDomain = "vpn") :
    normalizeDNSConfig { defaults with domain := "vpn" } = .ok normalized ↔
      normalizeDNSConfig defaults = .ok normalized := by
  have same :
      ({ defaults with domain := "vpn" } : DNSConfig).effectiveDomain =
        defaults.effectiveDomain := by
    rw [isVPN, effectiveDomain_eq_vpn_iff]
    exact Or.inr validDomain_vpn.normalizeDomain
  rw [normalizeDNSConfig_ok_iff, normalizeDNSConfig_ok_iff, same]
  rfl

/-- A start without settings keeps the order exactly when the defaults say
`vpn`, or are refused for their lists anyway. -/
theorem loadsInOrder_none_iff
    (unset : db.tables.settings.NoDNS)
    (defaults : DNSConfig) :
    LoadsInOrder defaults none db ↔ DefaultsYield defaults none := by
  obtain ⟨read, filled⟩ := filledFrom_of_noDNS unset defaults
  have sameLists :
      ({ defaults with domain := "vpn" } : DNSConfig).ListsRefused ↔
        defaults.ListsRefused := Iff.rfl
  have isVPN :
      ({ defaults with domain := "vpn" } : DNSConfig).effectiveDomain =
        "vpn" := by
    rw [effectiveDomain_eq_vpn_iff]
    exact Or.inr validDomain_vpn.normalizeDomain
  rw [loadsInOrder_iff read, filled]
  unfold DefaultsYield precedence
  rw [← or_assoc, ← effectiveDomain_eq_vpn_iff]
  by_cases refused : defaults.ListsRefused
  · -- Both configurations are refused.
    have fails :
        ∀ config : DNSConfig, config.ListsRefused →
          ∃ error, normalizeDNSConfig config = .error error := by
      intro config listsRefused
      cases outcome : normalizeDNSConfig config with
      | error error => exact ⟨error, rfl⟩
      | ok normalized =>
          exact absurd listsRefused
            ((accepted_iff config).mp ⟨normalized, outcome⟩).2
    obtain ⟨error, failed⟩ := fails defaults refused
    rw [failed]
    exact iff_of_true (fails _ (sameLists.mpr refused)) (Or.inr refused)
  · obtain ⟨normalized, accepted⟩ :=
      (accepted_iff { defaults with domain := "vpn" }).mpr
        ⟨by rw [isVPN]; exact validDomain_vpn,
          fun lists => refused (sameLists.mp lists)⟩
    rw [accepted, or_iff_left refused]
    by_cases sameDomain : defaults.effectiveDomain = "vpn"
    · rw [(normalize_vpn_iff sameDomain).mp accepted]
      exact iff_of_true rfl sameDomain
    · refine iff_of_false ?_ sameDomain
      cases outcome : normalizeDNSConfig defaults with
      | error error =>
          rintro ⟨other, failed⟩
          cases failed
      | ok config =>
          intro same
          cases Except.ok.inj same
          obtain ⟨_, _, -, -, -, -, shape⟩ :=
            normalizeDNSConfig_ok_iff.mp outcome
          obtain ⟨_, _, -, -, -, -, otherShape⟩ :=
            normalizeDNSConfig_ok_iff.mp accepted
          have domains := congrArg DNSConfig.domain (shape.symm.trans otherShape)
          dsimp only at domains
          exact sameDomain (domains.trans isVPN)

private theorem eq_nil_of_withMagicDomain
    {config : DNSConfig}
    {domain : String}
    {search : List String}
    (empty : config.withMagicDomain domain search = []) :
    search = [] := by
  unfold DNSConfig.withMagicDomain at empty
  split at empty
  · cases empty
  · exact empty

/-- A normal configuration with other lists is normalised to itself when the
lists are. -/
theorem Normalized.normalize_filled_iff
    {stored : DNSConfig}
    (normal : Normalized stored)
    {nameservers search : List String} :
    normalizeDNSConfig
          { stored with
            nameservers
            searchDomains :=
              if stored.searchDomains = [] then search
              else stored.searchDomains } =
        .ok stored ↔
      collect cleanNameserver [] nameservers = .ok stored.nameservers ∧
        collect cleanSearchDomain []
            (if stored.searchDomains = [] then search
              else stored.searchDomains) =
          .ok stored.searchDomains := by
  have sameDomain := normal.effectiveDomain
  unfold DNSConfig.effectiveDomain at sameDomain
  rw [normalizeDNSConfig_ok_iff]
  unfold DNSConfig.effectiveDomain
  dsimp only
  rw [sameDomain]
  constructor
  · rintro ⟨servers, searched, -, serversRun, searchRun, -, shape⟩
    have sameServers := congrArg DNSConfig.nameservers shape
    have sameSearch := congrArg DNSConfig.searchDomains shape
    dsimp only at sameServers sameSearch
    refine ⟨sameServers ▸ serversRun, ?_⟩
    by_cases empty : stored.searchDomains = []
    · have nothing := eq_nil_of_withMagicDomain (sameSearch.symm.trans empty)
      rw [nothing] at searchRun
      rw [empty] at searchRun ⊢
      exact searchRun
    · rw [if_neg empty]
      exact normal.searchDomains.collect
  · rintro ⟨serversRun, searchRun⟩
    refine ⟨stored.nameservers, stored.searchDomains, normal.domain,
      serversRun, searchRun, normal.served, ?_⟩
    have search := normal.withMagicDomain
    unfold DNSConfig.withMagicDomain at search ⊢
    dsimp only
    rw [search]

/-- A start with settings keeps them exactly when no empty list meets a
default for it. -/
theorem loadsInOrder_some_iff
    {stored : DNSConfig}
    (normal : Normalized stored)
    (held : db.tables.settings.withDNS stored = db.tables.settings)
    (defaults : DNSConfig) :
    LoadsInOrder defaults (some stored) db ↔
      DefaultsYield defaults (some stored) := by
  have isStored : db.tables.settings.dns = stored := by
    rw [← held, dns_withDNS]
  have enabledStored : db.tables.settings.dnsEnabled.isSome = true := by
    rw [← held]
    rfl
  have magicStored : db.tables.settings.dnsMagic.isSome = true := by
    rw [← held]
    rfl
  have filled :
      stored.filledFrom defaults true true =
        { stored with
          nameservers :=
            if stored.nameservers = [] then defaults.nameservers
            else stored.nameservers
          searchDomains :=
            if stored.searchDomains = [] then defaults.searchDomains
            else stored.searchDomains } := by
    simp [DNSConfig.filledFrom, normal.domain.ne_empty]
  have read : normalizeDNSConfig db.tables.settings.dns = .ok stored := by
    rw [isStored]
    exact normal.normalize
  rw [loadsInOrder_iff read, enabledStored, magicStored, filled]
  change normalizeDNSConfig _ = .ok stored ↔ _
  rw [normal.normalize_filled_iff, collect_filled_iff normal.nameservers,
    collect_filled_iff normal.searchDomains]
  simp only [cleanNameserver_none_iff, cleanSearchDomain_none_iff]
  rfl

/-- The DNS settings are loaded with the right precedence exactly when the
defaults yield. -/
theorem dns_precedence_iff
    {start db : DB}
    {history : List DNSConfig}
    (unset : start.tables.settings.NoDNS)
    (updates : Updates start history db)
    (defaults : DNSConfig) :
    LoadsInOrder defaults history.getLast? db ↔
      DefaultsYield defaults history.getLast? := by
  have held := hold_of_updates unset updates
  cases last : history.getLast? with
  | none =>
      rw [last] at held
      exact loadsInOrder_none_iff held defaults
  | some stored =>
      rw [last] at held
      exact loadsInOrder_some_iff held.1 held.2 defaults

/-- Settings of a command line. -/
def corpDefaults : DNSConfig where
  enabled := true
  magicDNS := true
  domain := "corp"
  nameservers := ["10.0.0.53"]
  searchDomains := ["corp"]

/-- Settings stored with empty lists. -/
def quietDNS : DNSConfig where
  enabled := false
  magicDNS := false
  domain := "home"
  nameservers := []
  searchDomains := []

/-- The database after the first update stored them. -/
def quietDB : DB :=
  DB.empty.withSettings (DB.empty.tables.settings.withDNS quietDNS)

private theorem updates_quiet : Updates DB.empty [quietDNS] quietDB := by
  have accepted : normalizeDNSConfig quietDNS = .ok quietDNS := by
    decide +kernel
  exact Updates.stored Updates.none
    (completes_updateDNSConfig accepted DB.empty).runs

private theorem noDNS_empty : DB.empty.tables.settings.NoDNS :=
  ⟨rfl, rfl, rfl, rfl, rfl⟩

/-- At the first start a default domain is dropped for `vpn`, and at a later
one the defaults replace lists that were stored empty. -/
theorem dns_defaults_out_of_order :
    (normalizeDNSConfig corpDefaults = .ok corpDefaults ∧
        Completes (loadOrInitDNSConfig corpDefaults) DB.empty
          (.ok
            { corpDefaults with
              domain := "vpn"
              searchDomains := ["vpn", "corp"] })
          (DB.empty.withSettings
            (DB.empty.tables.settings.withDNS
              { corpDefaults with
                domain := "vpn"
                searchDomains := ["vpn", "corp"] }))) ∧
      Updates DB.empty [quietDNS] quietDB ∧
      Completes (loadOrInitDNSConfig corpDefaults) quietDB
        (.ok
          { quietDNS with
            nameservers := ["10.0.0.53"]
            searchDomains := ["corp"] })
        (quietDB.withSettings
          (quietDB.tables.settings.withDNS
            { quietDNS with
              nameservers := ["10.0.0.53"]
              searchDomains := ["corp"] })) := by
  have readEmpty :
      normalizeDNSConfig DB.empty.tables.settings.dns =
        .ok DB.empty.tables.settings.dns :=
    (filledFrom_of_noDNS noDNS_empty corpDefaults).1
  have readQuiet :
      normalizeDNSConfig quietDB.tables.settings.dns = .ok quietDNS := by
    decide +kernel
  refine ⟨⟨by decide +kernel, ?_⟩, updates_quiet, ?_⟩
  · exact completes_loadOrInitDNSConfig readEmpty (by decide +kernel)
  · exact completes_loadOrInitDNSConfig readQuiet (by decide +kernel)

/-- Defaults without lists of their own leave the stored settings alone. -/
theorem dns_precedence_quiet :
    LoadsInOrder { corpDefaults with nameservers := [""], searchDomains := [] }
      (some quietDNS) quietDB := by
  refine (dns_precedence_iff noDNS_empty updates_quiet _).mpr ⟨?_, ?_⟩
  · exact Or.inr (by decide +kernel)
  · exact Or.inr (by simp)

end WgMesh.Store
