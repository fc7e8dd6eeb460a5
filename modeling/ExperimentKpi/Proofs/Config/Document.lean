/-
# Keys of configuration files

In a document that is read no table has a key twice, at any depth (`Toml.keyed_of_parse?`): keys that a
line defines are new in their table, and headers open tables that no line has defined. So a lookup of a
key finds the one value that the document has for it (`Toml.Entries.Keyed.lookup_iff`).

Key definitions: `Toml.Keyed`, `Toml.Entries.Keyed`.
Key theorems: `Toml.Entries.Keyed.define?`, `Toml.Entries.Keyed.within?`, `Toml.keyed_of_parse?`.
-/
import ExperimentKpi.Config.Toml
import ExperimentKpi.Proofs.Config.Options

namespace ExperimentKpi.Toml

/-- No table in a value has a key twice. -/
inductive Keyed : Toml → Prop
  | text (s : String) : Keyed (.text s)
  | integer (z : Int) : Keyed (.integer z)
  | boolean (b : Bool) : Keyed (.boolean b)
  | float : Keyed .float
  | dateTime : Keyed .dateTime
  | array {items : List Toml} (inner : ∀ v ∈ items, Keyed v) : Keyed (.array items)
  | tables {items : List Entries} (once : ∀ es ∈ items, (es.map Prod.fst).Nodup)
      (inner : ∀ es ∈ items, ∀ p ∈ es, Keyed p.2) : Keyed (.tables items)
  | table {origin : TableOrigin} {es : Entries} (once : (es.map Prod.fst).Nodup)
      (inner : ∀ p ∈ es, Keyed p.2) : Keyed (.table origin es)

namespace Entries

/-- No key stands twice in the entries, nor in a table in them. -/
structure Keyed (es : Entries) : Prop where
  once : (es.map Prod.fst).Nodup
  inner : ∀ p ∈ es, p.2.Keyed

variable {es es' inner : Entries} {key : String} {v : Toml} {path : List String}

theorem keyed_nil : Keyed [] := ⟨List.nodup_nil, nofun⟩

/-- The one value at a key. -/
theorem Keyed.lookup_iff (h : es.Keyed) : es.lookup key = some v ↔ (key, v) ∈ es :=
  lookup_eq_some_iff_mem h.once

theorem Keyed.value (h : es.Keyed) (hv : es.lookup key = some v) : v.Keyed :=
  h.inner _ (h.lookup_iff.mp hv)

theorem Keyed.table (h : es.Keyed) (origin : TableOrigin) : Toml.Keyed (.table origin es) :=
  .table h.once h.inner

theorem keyed_of_table {origin : TableOrigin} (h : Toml.Keyed (.table origin es)) : es.Keyed := by
  cases h with
  | table once inner => exact ⟨once, inner⟩

theorem keyed_tables_iff {items : List Entries} :
    Toml.Keyed (.tables items) ↔ ∀ es ∈ items, es.Keyed := by
  constructor
  · intro h
    cases h with
    | tables once inner => exact fun es hes => ⟨once es hes, inner es hes⟩
  · exact fun h => .tables (fun es hes => (h es hes).once) fun es hes => (h es hes).inner

/-- A new key at the end. -/
theorem Keyed.concat (h : es.Keyed) (hnew : es.lookup key = none) (hv : v.Keyed) :
    Keyed (es ++ [(key, v)]) := by
  refine ⟨?_, ?_⟩
  · rw [List.map_append, List.map_singleton, ← List.concat_eq_append, List.nodup_concat]
    exact ⟨lookup_eq_none_iff_not_mem.mp hnew, h.once⟩
  · rw [List.forall_mem_append, List.forall_mem_singleton]
    exact ⟨h.inner, hv⟩

theorem keys_put {key : String} {v : Toml} : ∀ {es : Entries}, key ∈ es.map Prod.fst →
    (es.put key v).map Prod.fst = es.map Prod.fst
  | (k, w) :: es, h => by
    unfold put
    by_cases hk : k = key
    · rw [if_pos hk]
      rfl
    · rw [if_neg hk, List.map_cons, List.map_cons, keys_put]
      exact (List.mem_cons.mp h).resolve_left fun heq => hk heq.symm

theorem mem_of_mem_put {key : String} {v : Toml} {p : String × Toml} :
    ∀ {es : Entries}, p ∈ es.put key v → p ∈ es ∨ p.2 = v
  | [], h => .inr (by rw [List.mem_singleton.mp h])
  | (k, w) :: es, h => by
    unfold put at h
    by_cases hk : k = key
    · rw [if_pos hk, List.mem_cons] at h
      exact h.elim (fun heq => .inr (by rw [heq])) fun hmem => .inl (List.mem_cons_of_mem _ hmem)
    · rw [if_neg hk, List.mem_cons] at h
      refine h.elim (fun heq => .inl (by rw [heq]; exact List.mem_cons_self)) fun hmem => ?_
      exact (mem_of_mem_put hmem).imp_left (List.mem_cons_of_mem _)

/-- Another value at a key that is there. -/
theorem Keyed.put (h : es.Keyed) {w : Toml} (hold : es.lookup key = some w) (hv : v.Keyed) :
    Keyed (es.put key v) := by
  refine ⟨?_, fun p hp => ?_⟩
  · rw [keys_put]
    · exact h.once
    · exact List.mem_map.mpr ⟨_, h.lookup_iff.mp hold, rfl⟩
  · obtain hp | hp := mem_of_mem_put hp
    · exact h.inner p hp
    · exact hp ▸ hv

/-- Another last row at a key. -/
theorem Keyed.putLast (h : es.Keyed) {items before : List Entries} {last last' : Entries}
    (hrows : es.lookup key = some (.tables items)) (hitems : items.reverse = last :: before)
    (hlast : last'.Keyed) : Keyed (es.put key (.tables (last' :: before).reverse)) := by
  refine h.put hrows (keyed_tables_iff.mpr fun row hrow => ?_)
  rw [List.mem_reverse] at hrow
  obtain rfl | hrow := List.mem_cons.mp hrow
  · exact hlast
  · apply keyed_tables_iff.mp (h.value hrows)
    rw [← List.mem_reverse, hitems]
    exact List.mem_cons_of_mem _ hrow

theorem Keyed.last (h : es.Keyed) {items before : List Entries} {last : Entries}
    (hrows : es.lookup key = some (.tables items)) (hitems : items.reverse = last :: before) :
    last.Keyed := by
  apply keyed_tables_iff.mp (h.value hrows)
  rw [← List.mem_reverse, hitems]
  exact List.mem_cons_self

/-- **A dotted key that is defined is new in its table.** -/
theorem Keyed.define? (h : es.Keyed) (hv : v.Keyed) (hdefine : es.define? path v = some es') :
    es'.Keyed := by
  fun_induction Entries.define? es path v generalizing es' with
  | case3 es key v hnew =>
    obtain rfl := Option.some.inj hdefine
    exact h.concat (Option.not_isSome_iff_eq_none.mp hnew) hv
  | case4 es key next rest v hnew ih =>
    obtain ⟨inner, hinner, rfl⟩ := Option.map_eq_some_iff.mp hdefine
    exact h.concat hnew ((ih keyed_nil hv hinner).table .dotted)
  | case5 es key next rest v inner hold ih =>
    obtain ⟨inner', hinner, rfl⟩ := Option.map_eq_some_iff.mp hdefine
    exact h.put hold ((ih (keyed_of_table (h.value hold)) hv hinner).table .dotted)
  | case7 es key next rest v inner hold _ ih =>
    obtain ⟨inner', hinner, rfl⟩ := Option.map_eq_some_iff.mp hdefine
    exact h.put hold ((ih (keyed_of_table (h.value hold)) hv hinner).table .implied)
  | case9 es key next rest v items hrows last before hitems _ ih =>
    obtain ⟨last', hlast, rfl⟩ := Option.map_eq_some_iff.mp hdefine
    exact h.putLast hrows hitems (ih (h.last hrows hitems) hv hlast)
  | _ => cases hdefine

/-- What keeps keys apart in one table keeps them apart in the tables around it. -/
theorem Keyed.within? {change : Entries → Option Entries}
    (hchange : ∀ {es es' : Entries}, es.Keyed → change es = some es' → es'.Keyed)
    (h : es.Keyed) (hwithin : Entries.within? change es path = some es') : es'.Keyed := by
  fun_induction Entries.within? change es path generalizing es' with
  | case1 es => exact hchange h hwithin
  | case2 es key rest hnew ih =>
    obtain ⟨inner, hinner, rfl⟩ := Option.map_eq_some_iff.mp hwithin
    exact h.concat hnew ((ih keyed_nil hinner).table .implied)
  | case4 es key rest origin inner _ hold ih =>
    obtain ⟨inner', hinner, rfl⟩ := Option.map_eq_some_iff.mp hwithin
    exact h.put hold ((ih (keyed_of_table (h.value hold)) hinner).table origin)
  | case5 es key rest items hrows last before hitems ih =>
    obtain ⟨last', hlast, rfl⟩ := Option.map_eq_some_iff.mp hwithin
    exact h.putLast hrows hitems (ih (h.last hrows hitems) hlast)
  | _ => cases hwithin

/-- A header opens a table that no line has defined. -/
theorem Keyed.openTable? (h : es.Keyed) (hopen : es.openTable? key = some es') : es'.Keyed := by
  unfold Entries.openTable? at hopen
  split at hopen
  · next hnew => exact Option.some.inj hopen ▸ h.concat hnew (keyed_nil.table .header)
  · next inner hold =>
    exact Option.some.inj hopen ▸ h.put hold ((keyed_of_table (h.value hold)).table .header)
  · cases hopen

/-- A header in double brackets opens a row of its own. -/
theorem Keyed.openRow? (h : es.Keyed) (hopen : es.openRow? key = some es') : es'.Keyed := by
  unfold Entries.openRow? at hopen
  split at hopen
  · next hnew =>
    exact Option.some.inj hopen ▸
      h.concat hnew (keyed_tables_iff.mpr (List.forall_mem_singleton.mpr keyed_nil))
  · next items hold =>
    refine Option.some.inj hopen ▸ h.put hold (keyed_tables_iff.mpr ?_)
    rw [List.forall_mem_append, List.forall_mem_singleton]
    exact ⟨keyed_tables_iff.mp (h.value hold), keyed_nil⟩
  · cases hopen

end Entries

/-! ### Readers -/

theorem keyed_of_plain? {s r : List Char} {v : Toml} (h : plain? s = some (v, r)) : v.Keyed := by
  unfold plain? at h
  extract_lets word rest at h
  -- The first split is on the word, with the second word of a date.
  split at h
  repeat' split at h
  all_goals cases h
  exacts [.boolean true, .boolean false, .integer _, .float, .dateTime]

/-- What is read within a budget has no key twice in a table. -/
structure ReadKeyed (fuel : ℕ) : Prop where
  value : ∀ {s r : List Char} {v : Toml}, value? fuel s = some (v, r) → v.Keyed
  items : ∀ {s r : List Char} {vs : List Toml}, items? fuel s = some (vs, r) → ∀ v ∈ vs, v.Keyed
  pairs : ∀ {es es' : Entries} {s r : List Char}, es.Keyed → pairs? fuel es s = some (es', r) →
    es'.Keyed

namespace ReadKeyed

variable {fuel : ℕ} {s r : List Char}

theorem value_succ (ih : ReadKeyed fuel) {v : Toml} (h : value? (fuel + 1) s = some (v, r)) :
    v.Keyed := by
  unfold value? at h
  split at h
  · simp only [Option.bind_eq_bind, Option.bind_eq_some_iff, Prod.exists] at h
    obtain ⟨_, -, items, _, hitems, h⟩ := h
    cases h
    exact .array (ih.items hitems)
  · split at h
    · cases h
      exact Entries.keyed_nil.table .inline
    · simp only [Option.bind_eq_bind, Option.bind_eq_some_iff, Prod.exists] at h
      obtain ⟨entries, _, hpairs, h⟩ := h
      cases h
      exact (ih.pairs Entries.keyed_nil hpairs).table .inline
  · split at h
    · obtain ⟨p, -, h⟩ := Option.map_eq_some_iff.mp h
      cases h
      exact .text _
    · exact keyed_of_plain? h
  · cases h

theorem items_succ (ih : ReadKeyed fuel) {vs : List Toml} (h : items? (fuel + 1) s = some (vs, r)) :
    ∀ v ∈ vs, v.Keyed := by
  unfold items? at h
  split at h
  · cases h
  · cases h
    exact nofun
  · next hfuel _ =>
    cases hfuel
    simp only [Option.bind_eq_bind, Option.bind_eq_some_iff, Prod.exists] at h
    obtain ⟨v, _, hv, _, -, h⟩ := h
    split at h
    · simp only [Option.bind_eq_some_iff, Prod.exists] at h
      obtain ⟨_, -, vs', _, hvs, h⟩ := h
      cases h
      exact List.forall_mem_cons.mpr ⟨ih.value hv, ih.items hvs⟩
    · cases h
      exact List.forall_mem_singleton.mpr (ih.value hv)
    · cases h

theorem pairs_succ (ih : ReadKeyed fuel) {es es' : Entries} (hes : es.Keyed)
    (h : pairs? (fuel + 1) es s = some (es', r)) : es'.Keyed := by
  unfold pairs? at h
  simp only [Option.bind_eq_bind, Option.bind_eq_some_iff, Prod.exists] at h
  obtain ⟨key, _, -, h⟩ := h
  split at h
  · simp only [Option.bind_eq_some_iff, Prod.exists] at h
    obtain ⟨v, _, hv, es'', hdefine, h⟩ := h
    have hkeyed := hes.define? (ih.value hv) hdefine
    split at h
    · exact ih.pairs hkeyed h
    · cases h
      exact hkeyed
    · cases h
  · cases h

end ReadKeyed

theorem readKeyed : ∀ fuel : ℕ, ReadKeyed fuel
  | 0 => by constructor <;> simp [value?, items?, pairs?]
  | fuel + 1 =>
    have ih := readKeyed fuel
    ⟨ih.value_succ, ih.items_succ, ih.pairs_succ⟩

/-- Statements keep the keys of the document apart. -/
theorem keyed_of_statements? {fuel : ℕ} {es es' : Entries} {path : List String} {s : List Char}
    (hes : es.Keyed) (h : statements? fuel es path s = some es') : es'.Keyed := by
  induction fuel generalizing es path s with
  | zero => cases h
  | succ fuel ih =>
    unfold statements? at h
    simp only [Option.bind_eq_bind, Option.bind_eq_some_iff] at h
    obtain ⟨s', -, h⟩ := h
    split at h
    · cases h
      exact hes
    · simp only [Option.bind_eq_some_iff, Prod.exists] at h
      obtain ⟨key, _, -, h⟩ := h
      split at h
      · simp only [Option.bind_eq_some_iff] at h
        obtain ⟨_, hwithin, _, -, h⟩ := h
        exact ih (hes.within? Entries.Keyed.openRow? hwithin) h
      · cases h
    · simp only [Option.bind_eq_some_iff, Prod.exists] at h
      obtain ⟨key, _, -, h⟩ := h
      split at h
      · simp only [Option.bind_eq_some_iff] at h
        obtain ⟨_, hwithin, _, -, h⟩ := h
        exact ih (hes.within? Entries.Keyed.openTable? hwithin) h
      · cases h
    · simp only [Option.bind_eq_some_iff, Prod.exists] at h
      obtain ⟨key, _, -, h⟩ := h
      split at h
      · simp only [Option.bind_eq_some_iff, Prod.exists] at h
        obtain ⟨v, _, hv, _, hwithin, _, -, h⟩ := h
        have hkeyed := (readKeyed fuel).value hv
        exact ih (hes.within? (fun hinner => hinner.define? hkeyed) hwithin) h
      · cases h

/-- **No table of a document has a key twice.** -/
theorem keyed_of_parse? {s : String} {es : Entries} (h : parse? s = some es) : es.Keyed :=
  keyed_of_statements? Entries.keyed_nil h

end ExperimentKpi.Toml
