/-
# What a command line asks for

The words of a command line spell options, each with its value (`Arguments.Spells`). They are accepted
exactly if every option is known, none of them stands twice, and the port is one
(`Arguments.IsProper`), and then every option has the value that was given for it
(`Arguments.read_options_iff`). So the order of the options plays no part (`Arguments.read_of_perm`).

Key definitions: `Arguments.Spells`, `Arguments.IsProper`, `Arguments.ofGiven`.
Key theorems: `Arguments.readFrom_options_iff`, `Arguments.setAll_iff`, `Arguments.read_options_iff`,
`Arguments.read_of_perm`.
-/
import ExperimentKpi.Config.Arguments
import Mathlib.Data.List.Induction
import Mathlib.Data.List.Nodup

namespace ExperimentKpi

/-! ### Lists of keys and values -/

section

variable {β : Type} {l l' : List (String × β)} {key : String} {value : β}

/-- Where no key stands twice, a lookup finds the entry that has the key. -/
theorem lookup_eq_some_iff_mem (h : (l.map Prod.fst).Nodup) :
    l.lookup key = some value ↔ (key, value) ∈ l := by
  induction l with
  | nil => simp
  | cons p l ih =>
    obtain ⟨k, v⟩ := p
    rw [List.map_cons, List.nodup_cons] at h
    by_cases hk : key = k
    · subst hk
      have hnot : (key, value) ∉ l := fun hmem => h.1 (List.mem_map.mpr ⟨_, hmem, rfl⟩)
      rw [List.lookup_cons_self, List.mem_cons, or_iff_left hnot, Prod.mk.injEq]
      exact ⟨fun hv => ⟨rfl, (Option.some.inj hv).symm⟩, fun hv => congrArg some hv.2.symm⟩
    · rw [List.lookup_cons, beq_false_of_ne hk, ih h.2, List.mem_cons, Prod.mk.injEq]
      exact ⟨.inr, fun hmem => hmem.resolve_left fun heq => hk heq.1⟩

theorem lookup_eq_none_iff_not_mem : l.lookup key = none ↔ key ∉ l.map Prod.fst := by
  rw [List.lookup_eq_none_iff, List.mem_map]
  constructor
  · rintro h ⟨p, hp, rfl⟩
    simpa using h p hp
  · intro h p hp
    rw [bne_iff_ne]
    exact fun heq => h ⟨p, hp, heq.symm⟩

theorem lookup_perm (hperm : l.Perm l') (h : (l.map Prod.fst).Nodup) (key : String) :
    l.lookup key = l'.lookup key := by
  have h' : (l'.map Prod.fst).Nodup := (hperm.map Prod.fst).nodup_iff.mp h
  apply Option.ext
  intro value
  rw [lookup_eq_some_iff_mem h, lookup_eq_some_iff_mem h', hperm.mem_iff]

end

namespace Arguments

/-! ### Words -/

/-- The words of a command line spell options with these values, in this order. Two dashes may end
it. -/
inductive Spells : List String → List (String × String) → Prop
  | nil : Spells [] []
  | ending {word : String} (hword : Word.of word.toList = .ending) : Spells [word] []
  /-- The value stands behind an equals sign. -/
  | joined {word name value : String} {words : List String} {given : List (String × String)}
      (hword : Word.of word.toList = .long name (some value)) (rest : Spells words given) :
      Spells (word :: words) ((name, value) :: given)
  /-- The value is the next word. -/
  | apart {word name value : String} {words : List String} {given : List (String × String)}
      (hword : Word.of word.toList = .long name none) (hname : ¬ (name = "help" ∨ name = "version"))
      (hvalue : Word.of value.toList = .plain) (rest : Spells words given) :
      Spells (word :: value :: words) ((name, value) :: given)

/-- The options with more values, one after another. -/
def setAll (a : Arguments) (given : List (String × String)) : Option Arguments :=
  given.foldlM (fun a p => a.set? p.1 p.2) a

theorem setAll_cons (a : Arguments) (p : String × String) (given : List (String × String)) :
    a.setAll (p :: given) = (a.set? p.1 p.2).bind fun b => b.setAll given := rfl

theorem setAll_cons_iff {a b : Arguments} {p : String × String} {given : List (String × String)} :
    a.setAll (p :: given) = some b ↔ ∃ c, a.set? p.1 p.2 = some c ∧ c.setAll given = some b := by
  rw [setAll_cons, Option.bind_eq_some_iff]

/-- Reading words is giving the options that they spell their values. -/
theorem readFrom_options_iff {a b : Arguments} {words : List String} :
    readFrom a words = .options b ↔ ∃ given, Spells words given ∧ a.setAll given = some b := by
  constructor
  · intro h
    fun_induction readFrom a words with
    | case1 a => exact ⟨[], .nil, congrArg some (Outcome.options.inj h)⟩
    | case2 a word r hword hlast =>
      obtain rfl := List.isEmpty_iff.mp hlast
      exact ⟨[], .ending hword, congrArg some (Outcome.options.inj h)⟩
    | case9 a word name hword hname value r c hset hvalue ih =>
      obtain ⟨given, hspells, hrest⟩ := ih h
      exact ⟨_, .apart hword hname hvalue hspells, setAll_cons_iff.mpr ⟨c, hset, hrest⟩⟩
    | case11 a word r name value hword c hset ih =>
      obtain ⟨given, hspells, hrest⟩ := ih h
      exact ⟨_, .joined hword hspells, setAll_cons_iff.mpr ⟨c, hset, hrest⟩⟩
    | _ => cases h
  · rintro ⟨given, hspells, hset⟩
    induction hspells generalizing a with
    | nil => rw [readFrom, Option.some.inj hset]
    | ending hword =>
      rw [readFrom, hword]
      exact congrArg Outcome.options (Option.some.inj hset)
    | joined hword _ ih =>
      obtain ⟨c, hc, hrest⟩ := setAll_cons_iff.mp hset
      rw [readFrom, hword]
      simp only [hc]
      exact ih hrest
    | apart hword hname hvalue _ ih =>
      obtain ⟨c, hc, hrest⟩ := setAll_cons_iff.mp hset
      rw [readFrom, hword]
      simp only [if_neg hname, hvalue, hc]
      exact ih hrest

/-- Words spell options in one way at most. -/
theorem Spells.unique {words : List String} {given given' : List (String × String)}
    (h : Spells words given) (h' : Spells words given') : given = given' := by
  induction h generalizing given' with
  | nil =>
    cases h'
    rfl
  | ending hword =>
    cases h' with
    | ending => rfl
    | joined hword' => cases hword.symm.trans hword'
  | joined hword _ ih =>
    cases h' with
    | ending hword' => cases hword.symm.trans hword'
    | joined hword' rest =>
      cases hword.symm.trans hword'
      rw [ih rest]
    | apart hword' => cases hword.symm.trans hword'
  | apart hword _ _ _ ih =>
    cases h' with
    | joined hword' => cases hword.symm.trans hword'
    | apart hword' _ _ rest =>
      cases hword.symm.trans hword'
      rw [ih rest]

/-! ### Values -/

/-- The names of the options. -/
def optionNames : List String :=
  ["config", "server-host", "server-port", "database-url", "jwt-secret", "jwt-expires-in",
    "log-level", "hive-db-name", "hive-secondary-db-name"]

/-- Options that may be given together: they are known, none stands twice, and the port is one. -/
structure IsProper (given : List (String × String)) : Prop where
  known : ∀ p ∈ given, p.1 ∈ optionNames
  once : (given.map Prod.fst).Nodup
  port : ∀ p ∈ given, p.1 = "server-port" → (port? p.2).isSome = true

/-- Every option has the value that is given for it. -/
def ofGiven (given : List (String × String)) : Arguments where
  config := given.lookup "config"
  serverHost := given.lookup "server-host"
  serverPort := (given.lookup "server-port").bind port?
  databaseUrl := given.lookup "database-url"
  tokenSecret := given.lookup "jwt-secret"
  tokenLifetime := given.lookup "jwt-expires-in"
  logLevel := given.lookup "log-level"
  database := given.lookup "hive-db-name"
  secondaryDatabase := given.lookup "hive-secondary-db-name"

theorem isProper_concat_iff {given : List (String × String)} {p : String × String} :
    IsProper (given ++ [p]) ↔ IsProper given ∧ p.1 ∈ optionNames ∧ given.lookup p.1 = none ∧
      (p.1 = "server-port" → (port? p.2).isSome = true) := by
  rw [lookup_eq_none_iff_not_mem]
  constructor
  · rintro ⟨hknown, honce, hport⟩
    rw [List.forall_mem_append, List.forall_mem_singleton] at hknown hport
    rw [List.map_append, List.map_singleton, ← List.concat_eq_append, List.nodup_concat] at honce
    exact ⟨⟨hknown.1, honce.2, hport.1⟩, hknown.2, honce.1, hport.2⟩
  · rintro ⟨⟨hknown, honce, hport⟩, hname, hnew, hvalue⟩
    refine ⟨?_, ?_, ?_⟩
    · rw [List.forall_mem_append, List.forall_mem_singleton]
      exact ⟨hknown, hname⟩
    · rw [List.map_append, List.map_singleton, ← List.concat_eq_append, List.nodup_concat]
      exact ⟨hnew, honce⟩
    · rw [List.forall_mem_append, List.forall_mem_singleton]
      exact ⟨hport, hvalue⟩

theorem fill_none {α : Type} (value : α) : fill none value = some (some value) := rfl

theorem fill_of_ne_none {α : Type} {old : Option α} (h : old ≠ none) (value : α) :
    fill old value = none := by
  cases old with
  | none => exact absurd rfl h
  | some v => rfl

/-- The port is missing only if none was given. -/
theorem IsProper.serverPort_ne_none {given : List (String × String)} (h : IsProper given)
    (hgiven : given.lookup "server-port" ≠ none) : (ofGiven given).serverPort ≠ none := by
  obtain ⟨value, hvalue⟩ := Option.ne_none_iff_exists'.mp hgiven
  have hport := h.port _ ((lookup_eq_some_iff_mem h.once).mp hvalue) rfl
  rw [ofGiven, hvalue, Option.bind_some]
  exact Option.ne_none_iff_isSome.mpr hport

theorem set?_of_not_mem {a : Arguments} {name value : String} (h : name ∉ optionNames) :
    a.set? name value = none := by
  unfold set?
  split <;> simp [optionNames] at h ⊢

/-- One option more is accepted exactly if it may be given with the others. -/
theorem set?_ofGiven_iff {given : List (String × String)} {name value : String} {b : Arguments}
    (h : IsProper given) : (ofGiven given).set? name value = some b ↔
      IsProper (given ++ [(name, value)]) ∧ b = ofGiven (given ++ [(name, value)]) := by
  rw [isProper_concat_iff, and_iff_right h, @eq_comm _ b]
  by_cases hknown : name ∈ optionNames
  · by_cases hnew : given.lookup name = none
    · unfold set?
      split
      case h_3 =>
        cases hport : port? value <;>
          simp [fill_none, optionNames, ofGiven, List.lookup_append, List.lookup_cons, hnew, hport]
      case h_10 => simp_all [optionNames]
      all_goals
        simp [fill_none, optionNames, ofGiven, List.lookup_append, List.lookup_cons, hnew]
    · unfold set?
      split
      case h_3 => simp [fill_of_ne_none (h.serverPort_ne_none hnew), hnew]
      case h_10 => simp [hnew]
      all_goals simp [fill_of_ne_none, ofGiven, hnew]
  · simp [set?_of_not_mem, hknown]

/-- **Options are accepted exactly if they may be given together**, and then have the values that were
given for them. -/
theorem setAll_iff {given : List (String × String)} {b : Arguments} :
    ({} : Arguments).setAll given = some b ↔ IsProper given ∧ b = ofGiven given := by
  induction given using List.reverseRecOn generalizing b with
  | nil =>
    have hnil : IsProper [] := ⟨nofun, List.nodup_nil, nofun⟩
    rw [and_iff_right hnil]
    exact ⟨fun h => (Option.some.inj h).symm, fun h => congrArg some h.symm⟩
  | append_singleton given p ih =>
    have hlast : ({} : Arguments).setAll (given ++ [p]) =
        (({} : Arguments).setAll given).bind fun a => a.set? p.1 p.2 := by
      simp [setAll, List.foldlM_append]
    rw [hlast, Option.bind_eq_some_iff]
    constructor
    · rintro ⟨a, ha, hset⟩
      obtain ⟨hproper, rfl⟩ := ih.mp ha
      exact (set?_ofGiven_iff hproper).mp hset
    · intro h
      have hproper : IsProper given := (isProper_concat_iff.mp h.1).1
      exact ⟨_, ih.mpr ⟨hproper, rfl⟩, (set?_ofGiven_iff hproper).mpr h⟩

/-- **What a command line asks for**: it is accepted exactly if it spells options that may be given
together, and every option has the value that is given for it. -/
theorem read_options_iff {words : List String} {b : Arguments} :
    read words = .options b ↔ ∃ given, Spells words given ∧ IsProper given ∧ b = ofGiven given := by
  rw [read, readFrom_options_iff]
  simp only [setAll_iff]

theorem ofGiven_perm {given given' : List (String × String)} (hperm : given.Perm given')
    (h : IsProper given) : IsProper given' ∧ ofGiven given' = ofGiven given := by
  refine ⟨⟨fun p hp => h.known p (hperm.mem_iff.mpr hp), (hperm.map Prod.fst).nodup_iff.mp h.once,
    fun p hp => h.port p (hperm.mem_iff.mpr hp)⟩, ?_⟩
  simp only [ofGiven, lookup_perm hperm h.once]

/-- The order of the options plays no part, nor the way in which their values are written. -/
theorem read_of_perm {words words' : List String} {given given' : List (String × String)}
    {b : Arguments} (h : Spells words given) (h' : Spells words' given') (hperm : given.Perm given')
    (hread : read words = .options b) : read words' = .options b := by
  obtain ⟨_, hspells, hproper, rfl⟩ := read_options_iff.mp hread
  obtain rfl := h.unique hspells
  obtain ⟨hproper', hsame⟩ := ofGiven_perm hperm hproper
  exact read_options_iff.mpr ⟨given', h', hproper', hsame.symm⟩

end Arguments

end ExperimentKpi
