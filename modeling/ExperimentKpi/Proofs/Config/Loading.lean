/-
# Where settings come from

A configuration is loaded from four sources: the command line goes before variables of the environment,
these before the file, and the file before the usual values. Every setting is taken from the first
source that has it (`Config.IsMerged`). What the sources say together is loaded exactly if it passes the
checks (`Config.load_loaded_iff`), and otherwise the first fault is told (`Config.load_refused_iff`). So
the service runs only with a configuration that is valid (`Config.isValid_of_load`).

The tables of the warehouse cannot be set on the command line, and the log file only in the file. A
variable that is no port counts as none, and still hides one of the `.env` file. In the file a setting
has one value at most, as no key stands twice in a section (`Config.inFile?_of_table`).

Key definitions: `TextSetting`, `Config.HasValues`, `Config.IsDocument`, `Config.IsMerged`,
`Config.IsValid`, `Config.IsGathered`.
Key theorems: `Surroundings.lookup_allVariables_of_set`, `Surroundings.keyed_of_document?`,
`Config.ofToml?_eq_some_iff`, `Config.validate_ok_iff`, `Config.load_loaded_iff`,
`Config.load_refused_iff`, `Config.isValid_of_load`.
-/
import ExperimentKpi.Config.Load
import ExperimentKpi.Proofs.Config.Document
import ExperimentKpi.Proofs.Config.Variables
import ExperimentKpi.Proofs.Token.Lifetime

namespace ExperimentKpi

namespace Surroundings

/-- The variables of the environment, with those of a `.env` file. -/
def allVariables (s : Surroundings) : DotEnv.Variables :=
  match s.files.lookup ".env" with
  | some text => DotEnv.load s.environment text
  | none => s.environment

/-- The environment goes before the file of variables. -/
theorem lookup_allVariables_of_set {s : Surroundings} {key value : String}
    (h : s.environment.lookup key = some value) : s.allVariables.lookup key = some value := by
  unfold allVariables
  split
  · exact DotEnv.lookup_load_of_set h _
  · exact h

/-- The document that a configuration is read from: of the file that the command line names or of a
usual one, and empty if there is none of these. -/
def document? (s : Surroundings) (a : Arguments) : Option Toml.Entries :=
  match Config.source s a with
  | none => some []
  | some text => text.bind Toml.parse?

/-- In the document no table has a key twice. -/
theorem keyed_of_document? {s : Surroundings} {a : Arguments} {entries : Toml.Entries}
    (h : s.document? a = some entries) : entries.Keyed := by
  unfold document? at h
  split at h
  · obtain rfl := Option.some.inj h
    exact Toml.Entries.keyed_nil
  · obtain ⟨_, _, hparse⟩ := Option.bind_eq_some_iff.mp h
    exact Toml.keyed_of_parse? hparse

end Surroundings

/-! ### Settings -/

/-- A setting that is a text in all sources that have it. -/
inductive TextSetting where
  | host
  | databaseUrl
  | tokenSecret
  | tokenLifetime
  | logLevel
  | database
  | secondaryDatabase
  | reactionTable
  | reportTable

namespace TextSetting

/-- The value of a setting. -/
def value (c : Config) : TextSetting → String
  | host => c.host
  | databaseUrl => c.databaseUrl
  | tokenSecret => c.tokenSecret
  | tokenLifetime => c.tokenLifetime
  | logLevel => c.logLevel
  | database => c.warehouse.database
  | secondaryDatabase => c.warehouse.secondaryDatabase
  | reactionTable => c.warehouse.reactionTable
  | reportTable => c.warehouse.reportTable

/-- The value of a setting on the command line. -/
def option? (a : Arguments) : TextSetting → Option String
  | host => a.serverHost
  | databaseUrl => a.databaseUrl
  | tokenSecret => a.tokenSecret
  | tokenLifetime => a.tokenLifetime
  | logLevel => a.logLevel
  | database => a.database
  | secondaryDatabase => a.secondaryDatabase
  | reactionTable => none
  | reportTable => none

/-- The variable for a setting. -/
def variableName : TextSetting → String
  | host => "APP_SERVER_HOST"
  | databaseUrl => "APP_DATABASE_URL"
  | tokenSecret => "APP_JWT_SECRET"
  | tokenLifetime => "APP_JWT_EXPIRES_IN"
  | logLevel => "APP_LOG_LEVEL"
  | database => "APP_HIVE_DB_NAME"
  | secondaryDatabase => "APP_HIVE_SECONDARY_DB_NAME"
  | reactionTable => "APP_HIVE_REACTION_TABLE"
  | reportTable => "APP_HIVE_REPORT_TABLE"

/-- The section of the file and the key in it for a setting. -/
def place : TextSetting → String × String
  | host => ("server", "host")
  | databaseUrl => ("database", "url")
  | tokenSecret => ("auth", "jwt_secret")
  | tokenLifetime => ("auth", "jwt_expires_in")
  | logLevel => ("logging", "level")
  | database => ("hive", "db_name")
  | secondaryDatabase => ("hive", "secondary_db_name")
  | reactionTable => ("hive", "reaction_table")
  | reportTable => ("hive", "report_table")

end TextSetting

namespace Config

/-- Every setting has the value that is given for it, or its usual value. -/
structure HasValues (c : Config) (text : TextSetting → Option String) (port : Option ℕ)
    (logFile : Option String) : Prop where
  texts : ∀ x, x.value c = (text x).getD (x.value {})
  port : c.port = port.getD 8080
  logFile : c.logFile = some (logFile.getD "logs/phoenix_kpi.log")

/-- Values for all settings make one configuration. -/
theorem HasValues.unique {c c' : Config} {text : TextSetting → Option String} {port : Option ℕ}
    {logFile : Option String} (h : c.HasValues text port logFile)
    (h' : c'.HasValues text port logFile) : c = c' := by
  have hport : c.port = c'.port := h.port.trans h'.port.symm
  have hlogFile : c.logFile = c'.logFile := h.logFile.trans h'.logFile.symm
  have htexts (x : TextSetting) : x.value c = x.value c' := (h.texts x).trans (h'.texts x).symm
  have hhost := htexts .host
  have hurl := htexts .databaseUrl
  have hsecret := htexts .tokenSecret
  have hlifetime := htexts .tokenLifetime
  have hlevel := htexts .logLevel
  have hdatabase := htexts .database
  have hsecondary := htexts .secondaryDatabase
  have hreaction := htexts .reactionTable
  have hreport := htexts .reportTable
  obtain ⟨_, _, _, _, _, _, _, _, _, _, _⟩ := c
  obtain ⟨_, _, _, _, _, _, _, _, _, _, _⟩ := c'
  simp_all [TextSetting.value]

theorem exists_hasValues (text : TextSetting → Option String) (port : Option ℕ)
    (logFile : Option String) : ∃ c : Config, c.HasValues text port logFile := by
  let usual : Config := {}
  let c : Config :=
    { host := (text .host).getD usual.host
      port := port.getD usual.port
      databaseUrl := (text .databaseUrl).getD usual.databaseUrl
      tokenSecret := (text .tokenSecret).getD usual.tokenSecret
      tokenLifetime := (text .tokenLifetime).getD usual.tokenLifetime
      logLevel := (text .logLevel).getD usual.logLevel
      logFile := some (logFile.getD "logs/phoenix_kpi.log")
      warehouse :=
        { database := (text .database).getD usual.warehouse.database
          secondaryDatabase := (text .secondaryDatabase).getD usual.warehouse.secondaryDatabase
          reactionTable := (text .reactionTable).getD usual.warehouse.reactionTable
          reportTable := (text .reportTable).getD usual.warehouse.reportTable } }
  exact ⟨c, fun x => by cases x <;> rfl, rfl, rfl⟩

/-! ### The file -/

/-- The keys of a section, in order. -/
def sectionKeys : String → List String
  | "server" => ["host", "port"]
  | "database" => ["url"]
  | "auth" => ["jwt_secret", "jwt_expires_in"]
  | "logging" => ["level", "file"]
  | "hive" => ["db_name", "secondary_db_name", "reaction_table", "report_table"]
  | _ => []

/-- The value at a place of the file. -/
def inFile? (entries : Toml.Entries) (place : String × String) : Option Toml :=
  (section? (sectionKeys place.1) entries place.1).bind fun es => es.lookup place.2

/-- A value as a text. -/
def text? : Toml → Option String
  | .text s => some s
  | _ => none

/-- A value as a port. -/
def port? : Toml → Option ℕ
  | .integer z => if 0 ≤ z ∧ z < 65536 then some z.toNat else none
  | _ => none

/-- The text of a setting in the file. -/
def fileText? (entries : Toml.Entries) (x : TextSetting) : Option String :=
  (inFile? entries x.place).bind text?

/-- The port in the file. -/
def filePort? (entries : Toml.Entries) : Option ℕ :=
  (inFile? entries ("server", "port")).bind port?

/-- The log file in the file. -/
def fileLog? (entries : Toml.Entries) : Option String :=
  (inFile? entries ("logging", "file")).bind text?

/-- A value is one of its kind, as far as there is one. -/
def Fits {α : Type} (read : Toml → Option α) (v : Option Toml) : Prop :=
  ∀ w, v = some w → (read w).isSome = true

/-- A document of a configuration: its sections are sections, and the settings in them have values of
their kinds. -/
structure IsDocument (entries : Toml.Entries) : Prop where
  sections : ∀ name ∈ ["server", "database", "auth", "logging", "hive"],
    (section? (sectionKeys name) entries name).isSome = true
  texts : ∀ x : TextSetting, Fits text? (inFile? entries x.place)
  port : Fits port? (inFile? entries ("server", "port"))
  logFile : Fits text? (inFile? entries ("logging", "file"))

theorem elim_bind_iff {α β : Type} {read : Toml → Option α} {v : Option Toml} {usual : α}
    {f : α → Option β} {b : β} : (v.elim (some usual) read).bind f = some b ↔
      Fits read v ∧ f ((v.bind read).getD usual) = some b := by
  cases v with
  | none => simp [Fits]
  | some w => cases hread : read w <;> simp [Fits, hread]

variable {entries es : Toml.Entries} {key usual : String} {α : Type} {a : α}

/-- A text of a section is read before the rest. -/
theorem textOr?_bind_iff {f : String → Option α} : (textOr? es key usual).bind f = some a ↔
    Fits text? (es.lookup key) ∧ f (((es.lookup key).bind text?).getD usual) = some a := by
  have hread : textOr? es key usual = (es.lookup key).elim (some usual) text? := by
    unfold textOr?
    cases es.lookup key with
    | none => rfl
    | some v => cases v <;> rfl
  rw [hread, elim_bind_iff]

/-- A port of a section is read before the rest. -/
theorem portOr?_bind_iff {n : ℕ} {f : ℕ → Option α} : (portOr? es key n).bind f = some a ↔
    Fits port? (es.lookup key) ∧ f (((es.lookup key).bind port?).getD n) = some a := by
  have hread : portOr? es key n = (es.lookup key).elim (some n) port? := by
    unfold portOr?
    cases es.lookup key with
    | none => rfl
    | some v => cases v <;> rfl
  rw [hread, elim_bind_iff]

/-- In a section that is read, a place is a key. -/
theorem inFile?_of_section {name : String}
    (h : section? (sectionKeys name) entries name = some es) (key : String) :
    es.lookup key = inFile? entries (name, key) := by
  rw [inFile?, h, Option.bind_some]

/-- In a document without a key twice, what stands in a section under a key is the value at this
place. -/
theorem inFile?_of_table {name : String} {origin : TableOrigin} {v : Toml} (h : entries.Keyed)
    (hsection : (name, .table origin es) ∈ entries) :
    inFile? entries (name, key) = some v ↔ (key, v) ∈ es := by
  have hlookup := h.lookup_iff.mpr hsection
  have hes : es.Keyed := Toml.Entries.keyed_of_table (h.value hlookup)
  rw [← inFile?_of_section (by rw [section?, hlookup]), hes.lookup_iff]

/-- What the settings of a document give whose sections are read. -/
theorem ofToml?_of_sections {server database auth logging hive : Toml.Entries} {c : Config}
    (hserver : section? (sectionKeys "server") entries "server" = some server)
    (hdatabase : section? (sectionKeys "database") entries "database" = some database)
    (hauth : section? (sectionKeys "auth") entries "auth" = some auth)
    (hlogging : section? (sectionKeys "logging") entries "logging" = some logging)
    (hhive : section? (sectionKeys "hive") entries "hive" = some hive) :
    ofToml? entries = some c ↔ (∀ x : TextSetting, Fits text? (inFile? entries x.place)) ∧
      Fits port? (inFile? entries ("server", "port")) ∧
      Fits text? (inFile? entries ("logging", "file")) ∧
      c.HasValues (fileText? entries) (filePort? entries) (fileLog? entries) := by
  have hservers := inFile?_of_section hserver
  have hdatabases := inFile?_of_section hdatabase
  have hauths := inFile?_of_section hauth
  have hloggings := inFile?_of_section hlogging
  have hhives := inFile?_of_section hhive
  simp only [sectionKeys] at hserver hdatabase hauth hlogging hhive
  rw [ofToml?, hserver, hdatabase, hauth, hlogging, hhive]
  dsimp only [Option.bind_eq_bind, Option.bind_some]
  rw [textOr?_bind_iff, portOr?_bind_iff, textOr?_bind_iff, textOr?_bind_iff, textOr?_bind_iff,
    textOr?_bind_iff, Option.bind_map, textOr?_bind_iff, Function.comp, textOr?_bind_iff,
    textOr?_bind_iff, textOr?_bind_iff, textOr?_bind_iff]
  simp only [hservers, hdatabases, hauths, hloggings, hhives]
  constructor
  · rintro ⟨hhost, hport, hurl, hsecret, hlifetime, hlevel, hfile, hfirst, hsecond, hreaction,
      hreport, hc⟩
    obtain rfl := Option.some.inj hc
    exact ⟨fun x => by cases x <;> assumption, hport, hfile, fun x => by cases x <;> rfl, rfl, rfl⟩
  · rintro ⟨htexts, hport, hfile, hvalues⟩
    refine ⟨htexts .host, hport, htexts .databaseUrl, htexts .tokenSecret, htexts .tokenLifetime,
      htexts .logLevel, hfile, htexts .database, htexts .secondaryDatabase, htexts .reactionTable,
      htexts .reportTable, congrArg some (HasValues.unique ⟨?_, rfl, rfl⟩ hvalues)⟩
    intro x
    cases x <;> rfl

/-- **What a document of a configuration gives**: the settings that are in it, and usual ones. -/
theorem ofToml?_eq_some_iff {c : Config} :
    ofToml? entries = some c ↔ IsDocument entries ∧
      c.HasValues (fileText? entries) (filePort? entries) (fileLog? entries) := by
  constructor
  · intro h
    obtain ⟨server, hserver, hrest⟩ := Option.bind_eq_some_iff.mp h
    obtain ⟨database, hdatabase, hrest⟩ := Option.bind_eq_some_iff.mp hrest
    obtain ⟨auth, hauth, hrest⟩ := Option.bind_eq_some_iff.mp hrest
    obtain ⟨logging, hlogging, hrest⟩ := Option.bind_eq_some_iff.mp hrest
    obtain ⟨hive, hhive, -⟩ := Option.bind_eq_some_iff.mp hrest
    obtain ⟨htexts, hport, hfile, hvalues⟩ :=
      (ofToml?_of_sections hserver hdatabase hauth hlogging hhive).mp h
    have hsections : ∀ name ∈ ["server", "database", "auth", "logging", "hive"],
        (section? (sectionKeys name) entries name).isSome = true := by
      simp [sectionKeys, hserver, hdatabase, hauth, hlogging, hhive]
    exact ⟨⟨hsections, htexts, hport, hfile⟩, hvalues⟩
  · rintro ⟨hdocument, hvalues⟩
    have hsections := hdocument.sections
    simp only [List.forall_mem_cons, Option.isSome_iff_exists] at hsections
    obtain ⟨⟨server, hserver⟩, ⟨database, hdatabase⟩, ⟨auth, hauth⟩, ⟨logging, hlogging⟩,
      ⟨hive, hhive⟩, -⟩ := hsections
    exact (ofToml?_of_sections hserver hdatabase hauth hlogging hhive).mpr
      ⟨hdocument.texts, hdocument.port, hdocument.logFile, hvalues⟩

/-! ### Checks -/

/-- A configuration that the service may run with. -/
structure IsValid (c : Config) : Prop where
  port : c.port ≠ 0
  databaseUrl : c.databaseUrl ≠ ""
  lifetime : ∃ n k, DenotesDuration c.tokenLifetime n k ∧ n < wordSize
  names : ∀ p ∈ warehouseNames c.warehouse, ∃ ch ∈ p.2.toList, Text.isBlank ch = false

theorem isSome_durationSeconds?_iff {s : String} :
    (durationSeconds? s).isSome = true ↔ ∃ n k, DenotesDuration s n k ∧ n < wordSize := by
  constructor
  · intro h
    obtain ⟨m, hm⟩ := Option.isSome_iff_exists.mp h
    obtain ⟨n, k, -, hd⟩ := exists_denotes hm
    refine ⟨n, k, hd, ?_⟩
    by_contra hn
    rw [durationSeconds?_of_denotes hd, if_neg hn] at h
    cases h
  · rintro ⟨n, k, hd, hn⟩
    rw [durationSeconds?_of_denotes hd, if_pos hn, Option.isSome_some]

theorem isVacantName_eq_false_iff {s : String} :
    isVacantName s = false ↔ ∃ ch ∈ s.toList, Text.isBlank ch = false := by
  simp [isVacantName]

/-- The checks are passed exactly by what the service may run with. -/
theorem validate_ok_iff {c : Config} : c.validate = .ok () ↔ c.IsValid := by
  have hnames : (warehouseNames c.warehouse).find? (fun p => isVacantName p.2) = none ↔
      ∀ p ∈ warehouseNames c.warehouse, ∃ ch ∈ p.2.toList, Text.isBlank ch = false := by
    simp only [List.find?_eq_none, Bool.not_eq_true, isVacantName_eq_false_iff]
  unfold validate
  constructor
  · intro h
    split_ifs at h with hport hurl hlifetime
    split at h
    · cases h
    next hfind =>
      rw [Option.isNone_iff_eq_none, ← ne_eq, Option.ne_none_iff_isSome] at hlifetime
      rw [String.isEmpty_iff] at hurl
      exact ⟨hport, hurl, isSome_durationSeconds?_iff.mp hlifetime, hnames.mp hfind⟩
  · intro h
    have hurl : ¬ c.databaseUrl.isEmpty = true := mt String.isEmpty_iff.mp h.databaseUrl
    have hlifetime : ¬ (durationSeconds? c.tokenLifetime).isNone = true := by
      rw [Option.isNone_iff_eq_none, ← ne_eq, Option.ne_none_iff_isSome]
      exact isSome_durationSeconds?_iff.mpr h.lifetime
    rw [if_neg h.port, if_neg hurl, if_neg hlifetime, hnames.mpr h.names]

/-! ### All sources -/

/-- Every setting is taken from the first source that has it: from the command line `a`, the variables,
the file or, failing these, the usual values. -/
def IsMerged (a : Arguments) (vars : DotEnv.Variables) (entries : Toml.Entries) (c : Config) : Prop :=
  c.HasValues
    (fun x => (x.option? a).or ((vars.lookup x.variableName).or (fileText? entries x)))
    (a.serverPort.or (((vars.lookup "APP_SERVER_PORT").bind fun s =>
      Text.unsigned? 65536 s.toList).or (filePort? entries)))
    (fileLog? entries)

/-- Changing a configuration by variables and then by the command line merges them with the file. -/
theorem isMerged_of_hasValues {c : Config} {entries : Toml.Entries} (a : Arguments)
    (vars : DotEnv.Variables)
    (h : c.HasValues (fileText? entries) (filePort? entries) (fileLog? entries)) :
    IsMerged a vars entries ((c.withVariables vars).withArguments a) := by
  refine ⟨fun x => ?_, ?_, h.logFile⟩
  · rw [Option.getD_or, Option.getD_or, ← h.texts x]
    cases x <;> rfl
  · rw [Option.getD_or, Option.getD_or, ← h.port]
    rfl

/-- What is read before variables and the command line is what the document gives. -/
theorem ofSource_ok_iff {s : Surroundings} {a : Arguments} {c : Config} :
    ofSource (source s a) = .ok c ↔ ∃ entries, s.document? a = some entries ∧ IsDocument entries ∧
      c.HasValues (fileText? entries) (filePort? entries) (fileLog? entries) := by
  have hnil : ofToml? [] = some {} := rfl
  simp only [← ofToml?_eq_some_iff, ← Option.bind_eq_some_iff]
  unfold ofSource Surroundings.document?
  cases source s a with
  | none => simp [hnil]
  | some text? =>
    cases text? with
    | none => simp
    | some text =>
      simp only [Option.bind_some]
      cases (Toml.parse? text).bind ofToml? <;> simp

variable {s : Surroundings} {c : Config}

/-- The sources of a configuration can be read, and say what it is. -/
def IsGathered (s : Surroundings) (c : Config) : Prop :=
  ∃ a entries, Arguments.read s.arguments = .options a ∧ s.document? a = some entries ∧
    IsDocument entries ∧ IsMerged a s.allVariables entries c

/-- Loading checks what the sources say. -/
theorem load_of_isGathered (h : IsGathered s c) :
    load s = match c.validate with
      | .ok () => .loaded c
      | .error fault => .refused fault := by
  obtain ⟨a, entries, harguments, hentries, hdocument, hmerged⟩ := h
  obtain ⟨base, hbase⟩ :=
    exists_hasValues (fileText? entries) (filePort? entries) (fileLog? entries)
  have hsource : ofSource (source s a) = .ok base :=
    ofSource_ok_iff.mpr ⟨entries, hentries, hdocument, hbase⟩
  obtain rfl := hmerged.unique (isMerged_of_hasValues a s.allVariables hbase)
  unfold load
  simp only [harguments, hsource]
  rfl

/-- A source that gives nothing cannot be read, or is no document of a configuration. -/
theorem eq_of_ofSource_error {text? : Option (Option String)} {outcome : LoadOutcome}
    (h : ofSource text? = .error outcome) : outcome = .noFile ∨ outcome = .badFile := by
  unfold ofSource at h
  split at h
  · cases h
  · exact .inl (Except.error.inj h).symm
  · split at h
    · cases h
    · exact .inr (Except.error.inj h).symm

/-- What comes to the checks is what the sources say. -/
theorem exists_isGathered (h : load s ∉ [.badArguments, .shown, .noFile, .badFile]) :
    ∃ c, IsGathered s c := by
  cases hread : Arguments.read s.arguments with
  | shown => exact absurd (by simp [load, hread]) h
  | refused => exact absurd (by simp [load, hread]) h
  | options a =>
    cases hbase : ofSource (source s a) with
    | error outcome =>
      have hload : load s = outcome := by simp only [load, hread, hbase]
      rcases eq_of_ofSource_error hbase with rfl | rfl <;> exact absurd (by simp [hload]) h
    | ok base =>
      obtain ⟨entries, hentries, hdocument, hvalues⟩ := ofSource_ok_iff.mp hbase
      exact ⟨_, a, entries, hread, hentries, hdocument,
        isMerged_of_hasValues a s.allVariables hvalues⟩

/-- **What is loaded** is what the sources say, if it passes the checks. -/
theorem load_loaded_iff : load s = .loaded c ↔ IsGathered s c ∧ c.IsValid := by
  rw [← validate_ok_iff]
  constructor
  · intro h
    obtain ⟨c', hc'⟩ := exists_isGathered (show load s ∉ _ by simp [h])
    have hload := load_of_isGathered hc'
    rw [h] at hload
    split at hload
    next hvalid =>
      obtain rfl := LoadOutcome.loaded.inj hload
      exact ⟨hc', hvalid⟩
    · cases hload
  · rintro ⟨hgathered, hvalid⟩
    rw [load_of_isGathered hgathered, hvalid]

/-- **What is refused** fails a check, and the first fault is told. -/
theorem load_refused_iff {fault : ConfigFault} :
    load s = .refused fault ↔ ∃ c, IsGathered s c ∧ c.validate = .error fault := by
  constructor
  · intro h
    obtain ⟨c, hc⟩ := exists_isGathered (show load s ∉ _ by simp [h])
    have hload := load_of_isGathered hc
    rw [h] at hload
    split at hload
    · cases hload
    next fault' hfault =>
      obtain rfl := LoadOutcome.refused.inj hload
      exact ⟨c, hc, hfault⟩
  · rintro ⟨c, hgathered, hfault⟩
    rw [load_of_isGathered hgathered, hfault]

/-- **The service runs only with a configuration that passes the checks.** -/
theorem isValid_of_load (h : load s = .loaded c) : c.IsValid :=
  (load_loaded_iff.mp h).2

end Config

end ExperimentKpi
