import WgMesh.JSONStrings
import WgMesh.StoreDNS

namespace WgMesh.Store

/-!
# Normal DNS settings

`NormalizeDNSConfig` runs before settings are stored and again when they are
read.  Its results are the configurations it leaves alone, and the texts under
which they are stored read back as they were.
-/

open JSONStrings NetAddress TextScan Transactions

/-! ## Collecting cleaned texts -/

section Collect

variable {clean : String → Except StoreError (Option String)}

/-- Clean each text, skip the blank ones and keep the first of each. -/
def collect (clean : String → Except StoreError (Option String)) :
    List String → List String → Except StoreError (List String)
  | kept, [] => .ok kept
  | kept, raw :: rest =>
      match clean raw with
      | .error error => .error error
      | .ok none => collect clean kept rest
      | .ok (some text) => collect clean (addUnique kept text) rest

/-- Distinct texts that cleaning leaves alone. -/
structure Collected (clean : String → Except StoreError (Option String))
    (texts : List String) : Prop where
  nodup : texts.Nodup
  fixed : ∀ text ∈ texts, clean text = .ok (some text)

theorem Collected.nil : Collected clean [] where
  nodup := List.nodup_nil
  fixed := by simp

variable {texts : List String}

/-- A cleaned text is added once. -/
theorem Collected.addUnique
    (collected : Collected clean texts)
    {text : String}
    (fixed : clean text = .ok (some text)) :
    Collected clean (addUnique texts text) := by
  unfold Store.addUnique
  split
  · exact collected
  · rename_i absent
    constructor
    · refine collected.nodup.append (List.nodup_singleton text) ?_
      simpa using absent
    · intro other member
      rcases List.mem_append.mp member with known | added
      · exact collected.fixed other known
      · rw [List.mem_singleton.mp added]
        exact fixed

/-- Collecting keeps the texts distinct and clean. -/
theorem collected_of_collect
    (stable :
      ∀ raw text, clean raw = .ok (some text) →
        clean text = .ok (some text))
    {raws kept : List String}
    (start : Collected clean kept)
    (run : collect clean kept raws = .ok texts) :
    Collected clean texts := by
  induction raws generalizing kept with
  | nil =>
      cases run
      exact start
  | cons raw rest inductionHypothesis =>
      unfold collect at run
      split at run
      · cases run
      · exact inductionHypothesis start run
      · rename_i text cleaned
        exact inductionHypothesis (start.addUnique (stable raw text cleaned)) run

/-- Clean distinct texts are appended as they are. -/
theorem collect_of_fixed
    {kept texts : List String}
    (distinct : (kept ++ texts).Nodup)
    (fixed : ∀ text ∈ texts, clean text = .ok (some text)) :
    collect clean kept texts = .ok (kept ++ texts) := by
  induction texts generalizing kept with
  | nil => simp [collect]
  | cons text rest inductionHypothesis =>
      have absent : text ∉ kept := by
        intro known
        exact List.disjoint_of_nodup_append distinct known
          List.mem_cons_self
      have shape : kept ++ text :: rest = kept ++ [text] ++ rest := by simp
      rw [collect, fixed text List.mem_cons_self]
      simp only [Store.addUnique, if_neg absent]
      rw [shape] at distinct ⊢
      exact inductionHypothesis distinct fun other member =>
        fixed other (List.mem_cons_of_mem _ member)

theorem Collected.collect
    (collected : Collected clean texts) :
    Store.collect clean [] texts = .ok texts := by
  have appended :=
    @collect_of_fixed clean [] texts collected.nodup collected.fixed
  simpa using appended

theorem Collected.cons
    {texts : List String}
    (collected : Collected clean texts)
    {text : String}
    (absent : text ∉ texts)
    (fixed : clean text = .ok (some text)) :
    Collected clean (text :: texts) where
  nodup := List.nodup_cons.mpr ⟨absent, collected.nodup⟩
  fixed := by
    intro other member
    rcases List.mem_cons.mp member with rfl | known
    · exact fixed
    · exact collected.fixed other known

end Collect

/-! ## Domains -/

/-- A label that passes its checks. -/
structure ValidLabel (label : List Char) : Prop where
  nonempty : label ≠ []
  short : (String.ofList label).utf8ByteSize ≤ 63
  first : label.head? ≠ some '-'
  last : label.getLast? ≠ some '-'
  chars : ∀ char ∈ label, isLabelChar char = true

/-- A domain that passes its checks, whatever field it stands in. -/
structure ValidDomain (domain : String) : Prop where
  short : domain.utf8ByteSize ≤ 253
  labels : ∀ label ∈ domain.toList.splitOn '.', ValidLabel label

variable {domain : String} {char : Char} {config : DNSConfig}

/-- The checks of a label. -/
theorem validateLabel_ok
    {field : String}
    {label : List Char} :
    validateLabel field domain label = .ok () ↔ ValidLabel label := by
  unfold validateLabel
  constructor
  · intro passed
    split at passed
    · cases passed
    · rename_i sized
      split at passed
      · cases passed
      · rename_i dashes
        split at passed
        · cases passed
        · rename_i none
          rw [not_or] at sized dashes
          refine ⟨sized.1, Nat.le_of_not_lt sized.2, dashes.1, dashes.2, ?_⟩
          simpa using none
  · intro valid
    have sized :
        ¬(label = [] ∨ 63 < (String.ofList label).utf8ByteSize) :=
      not_or.mpr ⟨valid.nonempty, Nat.not_lt.mpr valid.short⟩
    have none : label.find? (fun char => !isLabelChar char) = none := by
      simpa using valid.chars
    simp only [if_neg sized, if_neg (not_or.mpr ⟨valid.first, valid.last⟩),
      none]

/-- A loop of checks passes when each check does. -/
private theorem forM_ok
    {check : α → Except StoreError Unit}
    {items : List α} :
    items.forM check = .ok () ↔ ∀ item ∈ items, check item = .ok () := by
  induction items with
  | nil => simp [pure, Except.pure]
  | cons item rest inductionHypothesis =>
      rw [List.forall_mem_cons, ← inductionHypothesis]
      change (check item >>= fun _ => rest.forM check) = _ ↔ _
      cases check item with
      | error error => simp [bind, Except.bind]
      | ok done => simp [bind, Except.bind]

/-- The checks of a domain. -/
theorem validateDomain_ok
    {field domain : String} :
    validateDomain field domain = .ok () ↔ ValidDomain domain := by
  unfold validateDomain
  constructor
  · intro passed
    split at passed
    · cases passed
    · rename_i sized
      refine ⟨Nat.le_of_not_lt sized, fun label member => ?_⟩
      exact validateLabel_ok.mp (forM_ok.mp passed label member)
  · intro valid
    rw [if_neg (Nat.not_lt.mpr valid.short), forM_ok]
    intro label member
    exact validateLabel_ok.mpr (valid.labels label member)

/-- Every character is a separator or in one of the parts. -/
private theorem mem_part_of_mem
    {mark : Char}
    {chars : List Char}
    (member : char ∈ chars) :
    char = mark ∨ ∃ part ∈ chars.splitOn mark, char ∈ part := by
  induction chars with
  | nil => cases member
  | cons head rest inductionHypothesis =>
      rw [List.splitOn_cons_eq_if_modifyHead]
      obtain ⟨first, others, parts⟩ :=
        List.exists_cons_of_ne_nil (List.splitOn_ne_nil mark rest)
      by_cases isMark : head = mark
      · rw [if_pos (beq_iff_eq.mpr isMark)]
        rcases List.mem_cons.mp member with rfl | inRest
        · exact Or.inl isMark
        · rcases inductionHypothesis inRest with same | ⟨part, among, inside⟩
          · exact Or.inl same
          · exact Or.inr ⟨part, List.mem_cons_of_mem _ among, inside⟩
      · rw [if_neg (by simpa using isMark), parts, List.modifyHead_cons]
        rw [parts] at inductionHypothesis
        rcases List.mem_cons.mp member with rfl | inRest
        · exact Or.inr ⟨_, List.mem_cons_self, List.mem_cons_self⟩
        · rcases inductionHypothesis inRest with same | ⟨part, among, inside⟩
          · exact Or.inl same
          · rcases List.mem_cons.mp among with rfl | later
            · exact Or.inr
                ⟨_, List.mem_cons_self, List.mem_cons_of_mem _ inside⟩
            · exact Or.inr ⟨part, List.mem_cons_of_mem _ later, inside⟩

theorem ValidDomain.chars
    (valid : ValidDomain domain)
    (member : char ∈ domain.toList) :
    char = '.' ∨ isLabelChar char = true := by
  rcases mem_part_of_mem member with isDot | ⟨label, among, inside⟩
  · exact Or.inl isDot
  · exact Or.inr ((valid.labels label among).chars char inside)

/-- The characters of a valid domain are small ASCII ones. -/
private theorem code_of_domainChar
    (allowed : char = '.' ∨ isLabelChar char = true) :
    45 ≤ char.toNat ∧ char.toNat ≤ 122 ∧
      ¬(65 ≤ char.toNat ∧ char.toNat ≤ 90) := by
  rcases allowed with rfl | label
  · decide
  · simp only [isLabelChar, Bool.or_eq_true, Bool.and_eq_true,
      decide_eq_true_eq, beq_iff_eq] at label
    have smallA : 'a'.toNat = 97 := rfl
    have smallZ : 'z'.toNat = 122 := rfl
    have zero : '0'.toNat = 48 := rfl
    have nine : '9'.toNat = 57 := rfl
    rcases label with (letter | digit) | rfl
    · omega
    · omega
    · decide

private theorem lowerRune_eq_self
    (ascii : char.toNat ≤ 122)
    (notCapital : ¬(65 ≤ char.toNat ∧ char.toNat ≤ 90)) :
    lowerRune char = char := by
  unfold lowerRune
  rw [if_neg (fun capital => notCapital ⟨capital.1, capital.2⟩),
    if_neg (by omega), if_neg (by omega)]

/-- Normalising leaves a valid domain alone. -/
theorem ValidDomain.normalizeDomain
    (valid : ValidDomain domain) :
    Store.normalizeDomain domain = domain := by
  have lower : toLower domain = domain := by
    have same : domain.toList.map lowerRune = domain.toList := by
      refine (List.map_congr_left fun char member => ?_).trans
        (List.map_id _)
      obtain ⟨-, ascii, notCapital⟩ :=
        code_of_domainChar (valid.chars member)
      exact lowerRune_eq_self ascii notCapital
    rw [toLower, same, String.ofList_toList]
  have trimmed : trimSpace domain = domain := by
    apply trimSpace_eq_self
    intro char member
    obtain ⟨low, high, -⟩ := code_of_domainChar (valid.chars member)
    exact not_isSpace_of_printable (by omega) (by omega)
  -- A dot at the end would leave an empty label behind it.
  have noDot : domain.toList.getLast? ≠ some '.' := by
    intro isDot
    obtain ⟨leading, shape⟩ := List.getLast?_eq_some_iff.mp isDot
    refine (valid.labels [] ?_).nonempty rfl
    rw [shape, List.splitOn_append_cons_self]
    simp
  unfold Store.normalizeDomain
  rw [lower, trimmed]
  exact if_neg noDot

theorem ValidDomain.ne_empty
    (valid : ValidDomain domain) :
    domain ≠ "" := by
  rintro rfl
  exact (valid.labels [] (by decide)).nonempty rfl

/-! ## The two lists -/

/-- What the loop over the nameservers makes of one text. -/
def cleanNameserver (raw : String) : Except StoreError (Option String) :=
  let ns := trimSpace raw
  if ns = "" then
    .ok none
  else
    match parseAddr ns with
    | none =>
        .error (failure ("nameserver \"" ++ ns ++ "\" must be an IP address"))
    | some addr => .ok (some addr.text)

/-- What the loop over the search domains makes of one text. -/
def cleanSearchDomain (raw : String) : Except StoreError (Option String) :=
  let domain := normalizeDomain raw
  if domain = "" then
    .ok none
  else
    match validateDomain "search domain" domain with
    | .error error => .error error
    | .ok () => .ok (some domain)

/-- The loop over the nameservers collects cleaned texts. -/
theorem normalizeNameservers_eq
    (kept raws : List String) :
    normalizeNameservers kept raws = collect cleanNameserver kept raws := by
  induction raws generalizing kept with
  | nil => rfl
  | cons raw rest inductionHypothesis =>
      by_cases blank : trimSpace raw = ""
      · simp only [normalizeNameservers, collect, cleanNameserver, if_pos blank]
        exact inductionHypothesis kept
      · simp only [normalizeNameservers, collect, cleanNameserver, if_neg blank]
        cases parseAddr (trimSpace raw) with
        | none => rfl
        | some addr => exact inductionHypothesis _

/-- The loop over the search domains collects cleaned texts. -/
theorem normalizeSearchDomains_eq
    (kept raws : List String) :
    normalizeSearchDomains kept raws =
      collect cleanSearchDomain kept raws := by
  induction raws generalizing kept with
  | nil => rfl
  | cons raw rest inductionHypothesis =>
      by_cases blank : normalizeDomain raw = ""
      · simp only [normalizeSearchDomains, collect, cleanSearchDomain,
          if_pos blank]
        exact inductionHypothesis kept
      · simp only [normalizeSearchDomains, collect, cleanSearchDomain,
          if_neg blank]
        cases validateDomain "search domain" (normalizeDomain raw) with
        | error error => rfl
        | ok done => exact inductionHypothesis _

/-- A printed nameserver is left alone. -/
theorem cleanNameserver_stable
    (raw text : String)
    (cleaned : cleanNameserver raw = .ok (some text)) :
    cleanNameserver text = .ok (some text) := by
  unfold cleanNameserver at cleaned
  dsimp only at cleaned
  split at cleaned
  · cases cleaned
  · split at cleaned
    · cases cleaned
    · rename_i addr parsed
      cases cleaned
      have readAgain := parseAddr_text_of_parsed parsed
      have nonempty : addr.text ≠ "" := by
        intro empty
        rw [empty] at readAgain
        cases readAgain
      unfold cleanNameserver
      simp only [trimSpace_text_of_parsed parsed, if_neg nonempty, readAgain]

theorem ValidDomain.cleanSearchDomain
    (valid : ValidDomain domain) :
    Store.cleanSearchDomain domain = .ok (some domain) := by
  unfold Store.cleanSearchDomain
  simp only [valid.normalizeDomain, if_neg valid.ne_empty,
    validateDomain_ok.mpr valid]

/-- A cleaned search domain is left alone. -/
theorem cleanSearchDomain_stable
    (raw text : String)
    (cleaned : cleanSearchDomain raw = .ok (some text)) :
    cleanSearchDomain text = .ok (some text) := by
  unfold cleanSearchDomain at cleaned
  dsimp only at cleaned
  split at cleaned
  · cases cleaned
  · split at cleaned
    · cases cleaned
    · rename_i passed
      have same : normalizeDomain raw = text :=
        Option.some.inj (Except.ok.inj cleaned)
      rw [same] at passed
      exact (validateDomain_ok.mp passed).cleanSearchDomain

/-! ## Normal configurations -/

/-- The domain a configuration stands for. -/
def DNSConfig.effectiveDomain (config : DNSConfig) : String :=
  if normalizeDomain config.domain = "" then "vpn"
  else normalizeDomain config.domain

/-- The search list with the domain that MagicDNS needs. -/
def DNSConfig.withMagicDomain (config : DNSConfig) (domain : String)
    (search : List String) : List String :=
  if config.enabled && config.magicDNS && domain ∉ search then
    domain :: search
  else
    search

/-- When a configuration is accepted, and with which result. -/
theorem normalizeDNSConfig_ok_iff
    {normalized : DNSConfig} :
    normalizeDNSConfig config = .ok normalized ↔
      ∃ nameservers search,
        ValidDomain config.effectiveDomain ∧
          collect cleanNameserver [] config.nameservers = .ok nameservers ∧
          collect cleanSearchDomain [] config.searchDomains = .ok search ∧
          (config.enabled = true → nameservers ≠ []) ∧
          normalized =
            { config with
              domain := config.effectiveDomain
              nameservers
              searchDomains :=
                config.withMagicDomain config.effectiveDomain search } := by
  unfold normalizeDNSConfig
  simp only [normalizeNameservers_eq, normalizeSearchDomains_eq]
  change
    (validateDomain "domain" config.effectiveDomain >>= fun _ => _) = _ ↔ _
  rw [← @validateDomain_ok "domain"]
  cases validateDomain "domain" config.effectiveDomain with
  | error error => simp [bind, Except.bind]
  | ok done =>
      cases collect cleanNameserver [] config.nameservers with
      | error error => simp [bind, Except.bind]
      | ok nameservers =>
          cases collect cleanSearchDomain [] config.searchDomains with
          | error error => simp [bind, Except.bind]
          | ok search =>
              change
                (if config.enabled && nameservers.isEmpty then _
                  else Except.ok
                    { config with
                      domain := config.effectiveDomain
                      nameservers
                      searchDomains :=
                        config.withMagicDomain config.effectiveDomain
                          search }) = _ ↔ _
              constructor
              · intro accepted
                split at accepted
                · cases accepted
                · rename_i served
                  refine ⟨nameservers, search, rfl, rfl, rfl, ?_,
                    (Except.ok.inj accepted).symm⟩
                  rintro enabled rfl
                  exact served (by simp [enabled])
              · rintro ⟨servers, searched, -, same, sameSearch, served, rfl⟩
                cases same
                cases sameSearch
                refine if_neg ?_
                intro unserved
                rw [Bool.and_eq_true, List.isEmpty_iff] at unserved
                exact served unserved.1 unserved.2

/-- A configuration as `NormalizeDNSConfig` returns it. -/
structure Normalized (config : DNSConfig) : Prop where
  domain : ValidDomain config.domain
  nameservers : Collected cleanNameserver config.nameservers
  searchDomains : Collected cleanSearchDomain config.searchDomains
  served : config.enabled = true → config.nameservers ≠ []
  magic :
    config.enabled = true → config.magicDNS = true →
      config.domain ∈ config.searchDomains

/-- Every result is normal. -/
theorem normalized_of_normalize
    {normalized : DNSConfig}
    (accepted : normalizeDNSConfig config = .ok normalized) :
    Normalized normalized := by
  obtain ⟨nameservers, search, valid, servers, searched, served, rfl⟩ :=
    normalizeDNSConfig_ok_iff.mp accepted
  have collected :=
    collected_of_collect cleanSearchDomain_stable Collected.nil searched
  constructor
  case domain =>
    dsimp only
    exact valid
  case nameservers =>
    exact collected_of_collect cleanNameserver_stable Collected.nil servers
  case searchDomains =>
    dsimp only [DNSConfig.withMagicDomain]
    split
    · rename_i added
      simp only [Bool.and_eq_true, decide_eq_true_eq] at added
      exact collected.cons added.2 valid.cleanSearchDomain
    · exact collected
  case served => exact served
  case magic =>
    intro enabled magic
    dsimp only [DNSConfig.withMagicDomain] at enabled magic ⊢
    by_cases known : config.effectiveDomain ∈ search
    · simp [known]
    · simp [enabled, magic, known]

theorem Normalized.effectiveDomain
    (normal : Normalized config) :
    config.effectiveDomain = config.domain := by
  unfold DNSConfig.effectiveDomain
  rw [normal.domain.normalizeDomain, if_neg normal.domain.ne_empty]

theorem Normalized.withMagicDomain
    (normal : Normalized config) :
    config.withMagicDomain config.domain config.searchDomains =
      config.searchDomains := by
  refine if_neg ?_
  intro added
  simp only [Bool.and_eq_true, decide_eq_true_eq] at added
  exact added.2 (normal.magic added.1.1 added.1.2)

/-- Normalising leaves a normal configuration alone. -/
theorem Normalized.normalize
    (normal : Normalized config) :
    normalizeDNSConfig config = .ok config := by
  refine normalizeDNSConfig_ok_iff.mpr
    ⟨config.nameservers, config.searchDomains, ?_,
      normal.nameservers.collect, normal.searchDomains.collect,
      normal.served, ?_⟩
  · rw [normal.effectiveDomain]
    exact normal.domain
  · rw [normal.effectiveDomain, normal.withMagicDomain]

/-! ## The stored texts -/

/-- The rows of `settings` that `loadDNSConfig` selects, as texts. -/
structure DNSRows where
  enabled : Option String
  magicDNS : Option String
  domain : Option String
  nameservers : Option String
  searchDomains : Option String
deriving DecidableEq

/-- `fmt.Sprintf("%t", value)`. -/
def boolText (value : Bool) : String :=
  if value then "true" else "false"

/-- The values `saveDNSConfig` writes. -/
def DNSConfig.rows (config : DNSConfig) : DNSRows where
  enabled := some (boolText config.enabled)
  magicDNS := some (boolText config.magicDNS)
  domain := some config.domain
  nameservers := some (marshal config.nameservers)
  searchDomains := some (marshal config.searchDomains)

/-- The list of a row; the decoder's text is left out of its error. -/
def parseRow (context : String) : Option String →
    Except StoreError (List String)
  | none => .ok []
  | some value =>
      match unmarshal? value with
      | none => .error (failure context)
      | some texts => .ok texts

/-- `loadDNSConfig` over the texts of the rows. -/
def DNSRows.load (rows : DNSRows) : Except StoreError DNSConfig := do
  let nameservers ← parseRow "parse dns nameservers" rows.nameservers
  let searchDomains ←
    parseRow "parse dns search domains" rows.searchDomains
  normalizeDNSConfig
    { enabled := rows.enabled.elim false (· == "true")
      magicDNS := rows.magicDNS.elim true (· != "false")
      domain := rows.domain.getD "vpn"
      nameservers
      searchDomains }

/-- The texts under which the settings are stored. -/
def Settings.dnsRows (settings : Settings) : DNSRows where
  enabled := settings.dnsEnabled.map boolText
  magicDNS := settings.dnsMagic.map boolText
  domain := settings.dnsDomain
  nameservers := settings.dnsNameservers.map marshal
  searchDomains := settings.dnsSearchDomains.map marshal

theorem dnsRows_withDNS
    (settings : Settings)
    (config : DNSConfig) :
    (settings.withDNS config).dnsRows = config.rows :=
  rfl

theorem parseRow_marshal
    (context : String)
    (texts : Option (List String)) :
    parseRow context (texts.map marshal) = .ok (texts.getD []) := by
  cases texts with
  | none => rfl
  | some texts => simp [parseRow, unmarshal?_marshal]

/-- Reading the texts gives what reading the settings gives. -/
theorem load_dnsRows
    (settings : Settings) :
    settings.dnsRows.load = normalizeDNSConfig settings.dns := by
  have enabled :
      (settings.dnsEnabled.map boolText).elim false (· == "true") =
        settings.dnsEnabled.getD false := by
    rcases settings.dnsEnabled with _ | _ | _ <;> rfl
  have magic :
      (settings.dnsMagic.map boolText).elim true (· != "false") =
        settings.dnsMagic.getD true := by
    rcases settings.dnsMagic with _ | _ | _ <;> rfl
  unfold DNSRows.load Settings.dnsRows
  simp only [parseRow_marshal, enabled, magic]
  rfl

theorem dns_withDNS
    (settings : Settings)
    (config : DNSConfig) :
    (settings.withDNS config).dns = config :=
  rfl

/-- Normal settings are stable, and come back from the store as they are:
from the run without refusals, from every run of an update and a reading that
both succeed, and from the texts of the rows. -/
theorem dns_normal_and_kept
    {config normalized : DNSConfig}
    (accepted : normalizeDNSConfig config = .ok normalized) :
    normalizeDNSConfig normalized = .ok normalized ∧
      normalized.nameservers.Nodup ∧
      normalized.searchDomains.Nodup ∧
      (normalized.enabled = true → normalized.magicDNS = true →
        normalized.domain ∈ normalized.searchDomains) ∧
      (∀ db : DB,
        ∃ after,
          Completes (updateDNSConfig config) db (.ok normalized) after ∧
            after.tables.settings.dnsRows = normalized.rows ∧
            Completes currentDNSConfig after (.ok normalized) after) ∧
      (∀ (before after last : DB) (updated current : DNSConfig),
        Runs (updateDNSConfig config) before (.ok updated) after →
        Runs currentDNSConfig after (.ok current) last →
          updated = normalized ∧ current = normalized) ∧
      normalized.rows.load = .ok normalized := by
  have normal := normalized_of_normalize accepted
  have stable := normal.normalize
  refine ⟨stable, normal.nameservers.nodup, normal.searchDomains.nodup,
    normal.magic, ?_, ?_, ?_⟩
  · intro db
    refine ⟨_, completes_updateDNSConfig accepted db, rfl, ?_⟩
    have read :=
      completes_currentDNSConfig
        (db.withSettings (db.tables.settings.withDNS normalized))
    rwa [DB.withSettings, dns_withDNS, stable] at read
  · intro before after last updated current updateRun readRun
    obtain ⟨updates, stored⟩ := updateDNSConfig_ok updateRun
    have same : updated = normalized :=
      (Except.ok.inj (accepted.symm.trans updates)).symm
    obtain ⟨-, reads⟩ := currentDNSConfig_ok readRun
    rw [stored, same] at reads
    exact ⟨same, (Except.ok.inj (stable.symm.trans reads)).symm⟩
  · have read := load_dnsRows (Settings.withDNS normalized {})
    rwa [dnsRows_withDNS, dns_withDNS, stable] at read

/-- Settings in mixed spelling. -/
def mixedDNS : DNSConfig where
  enabled := true
  magicDNS := true
  domain := " Corp.VPN. "
  nameservers := ["FE80:0::1%eth0", " 100.78.0.1 ", "", "100.78.0.1"]
  searchDomains := ["svc.vpn", "SVC.vpn.", "."]

/-- The settings they are normalised to. -/
def plainDNS : DNSConfig where
  enabled := true
  magicDNS := true
  domain := "corp.vpn"
  nameservers := ["fe80::1%eth0", "100.78.0.1"]
  searchDomains := ["corp.vpn", "svc.vpn"]

/-- Settings in mixed spelling are stored in their normal form. -/
theorem dns_normal_and_kept_mixed :
    normalizeDNSConfig mixedDNS = .ok plainDNS ∧
      normalizeDNSConfig plainDNS = .ok plainDNS ∧
      plainDNS.domain ∈ plainDNS.searchDomains ∧
      plainDNS.rows.load = .ok plainDNS := by
  have accepted : normalizeDNSConfig mixedDNS = .ok plainDNS := by
    decide +kernel
  obtain ⟨stable, -, -, magic, -, -, loaded⟩ := dns_normal_and_kept accepted
  exact ⟨accepted, stable, magic rfl rfl, loaded⟩

end WgMesh.Store
