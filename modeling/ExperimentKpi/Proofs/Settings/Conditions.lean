/-
# Groups of conditions are kept

A group of conditions is read into its type, its conditions and its other members, and written again
from these: the type and the conditions stand first then, the other members keep their order, and
missing conditions are an empty list. So in an accepted body every group is written as it was sent, but
for the order of its own members and that list (`Definition.SpelledBy.forall₂_isCompletedTo`).

Key definitions: `Members.completed`, `Json.IsCompletedTo`.
Key theorems: `Members.perm_cons_without`, `ConditionGroup.SpelledBy.perm_completed`,
`Definition.SpelledBy.forall₂_isCompletedTo`.
-/
import ExperimentKpi.Proofs.Settings.Verdict

namespace ExperimentKpi

open Draft4
open scoped List

/-! ### Members -/

namespace Members

variable {ms : Members} {key : String} {v : Json} {keys : List String}

theorem without_cons_of_mem {m : String × Json} (h : m.1 ∈ keys) :
    without (m :: ms) keys = ms.without keys :=
  List.filter_cons_of_neg (by simpa using h)

theorem without_cons_of_not_mem {m : String × Json} (h : m.1 ∉ keys) :
    without (m :: ms) keys = m :: ms.without keys :=
  List.filter_cons_of_pos (by simpa using h)

theorem without_eq_self (h : key ∉ ms.keys) : ms.without [key] = ms := by
  refine List.filter_eq_self.mpr fun m hm => ?_
  have hne : m.1 ≠ key := fun heq => h (List.mem_map.mpr ⟨m, hm, heq⟩)
  simpa using hne

theorem without_without (ms : Members) (key key' : String) :
    (ms.without [key]).without [key'] = ms.without [key, key'] := by
  unfold without
  rw [List.filter_filter]
  refine List.filter_congr fun m _ => ?_
  by_cases h : m.1 = key <;> by_cases h' : m.1 = key' <;> simp [h, h']

/-- What is put at one of some keys does not matter without them. -/
theorem without_put (h : key ∈ keys) : (put key v ms).without keys = ms.without keys := by
  induction ms with
  | nil => exact without_cons_of_mem h
  | cons m r ih =>
    obtain ⟨k, w⟩ := m
    by_cases hk : k = key
    · have hmem : k ∈ keys := hk ▸ h
      rw [put, if_pos hk, without_cons_of_mem hmem, without_cons_of_mem hmem]
    · rw [put, if_neg hk]
      by_cases hmem : k ∈ keys
      · rw [without_cons_of_mem hmem, without_cons_of_mem hmem, ih]
      · rw [without_cons_of_not_mem hmem, without_cons_of_not_mem hmem, ih]

/-- Putting a value where it is changes nothing. -/
theorem put_of_get? (h : ms.get? key = some v) : put key v ms = ms := by
  induction ms with
  | nil => cases h
  | cons m r ih =>
    obtain ⟨k, w⟩ := m
    by_cases hk : k = key
    · subst hk
      rw [get?_cons_self] at h
      rw [put, if_pos rfl, Option.some.inj h]
    · rw [get?_cons_of_ne hk] at h
      rw [put, if_neg hk, ih h]

/-- Taking out other keys leaves a value where it is. -/
theorem get?_without (h : key ∉ keys) : (ms.without keys).get? key = ms.get? key := by
  induction ms with
  | nil => rfl
  | cons m r ih =>
    obtain ⟨k, w⟩ := m
    by_cases hmem : k ∈ keys
    · have hk : k ≠ key := fun hk => h (hk ▸ hmem)
      rw [without_cons_of_mem hmem, ih, get?_cons_of_ne hk]
    · rw [without_cons_of_not_mem hmem]
      by_cases hk : k = key
      · subst hk
        rw [get?_cons_self, get?_cons_self]
      · rw [get?_cons_of_ne hk, get?_cons_of_ne hk, ih]

/-- A member can be taken to the front. -/
theorem perm_cons_without (hkeys : ms.keys.Nodup) (hget : ms.get? key = some v) :
    ms ~ (key, v) :: ms.without [key] := by
  induction ms with
  | nil => cases hget
  | cons m r ih =>
    obtain ⟨k, w⟩ := m
    obtain ⟨hk, hr⟩ := List.nodup_cons.mp hkeys
    by_cases hkey : k = key
    · subst hkey
      rw [get?_cons_self] at hget
      rw [without_cons_of_mem List.mem_cons_self, without_eq_self hk, Option.some.inj hget]
    · rw [get?_cons_of_ne hkey] at hget
      rw [without_cons_of_not_mem (by simpa using hkey)]
      calc (k, w) :: r
        _ ~ (k, w) :: (key, v) :: without r [key] := (ih hr hget).cons _
        _ ~ (key, v) :: (k, w) :: without r [key] := .swap _ _ _

/-- Two members can be taken to the front. -/
theorem perm_cons_cons_without {key' : String} {v' : Json} (hkeys : ms.keys.Nodup)
    (hget : ms.get? key = some v) (hget' : ms.get? key' = some v') (hne : key' ≠ key) :
    ms ~ (key, v) :: (key', v') :: ms.without [key, key'] := by
  have hrest : (ms.without [key]).get? key' = some v' := by
    rw [get?_without (by simpa using hne), hget']
  have hkeys' : (ms.without [key]).keys.Nodup := hkeys.sublist (List.filter_sublist.map _)
  calc ms
    _ ~ (key, v) :: ms.without [key] := perm_cons_without hkeys hget
    _ ~ (key, v) :: (key', v') :: (ms.without [key]).without [key'] :=
      (perm_cons_without hkeys' hrest).cons _
    _ = (key, v) :: (key', v') :: ms.without [key, key'] := by rw [without_without]

/-- The members of a group with an empty list of conditions if they have none. -/
def completed (ms : Members) : Members :=
  match ms.get? "conditions" with
  | some _ => ms
  | none => ms ++ [("conditions", .arr [])]

theorem completed_eq_put (ms : Members) :
    ms.completed = put "conditions" ((ms.get? "conditions").getD (.arr [])) ms := by
  unfold completed
  cases h : ms.get? "conditions" with
  | some v => exact (put_of_get? h).symm
  | none =>
    have hkey : "conditions" ∉ ms.keys := by
      intro hmem
      obtain ⟨before, old, after, hfirst, rfl⟩ := exists_append_cons hmem
      rw [get?_append_cons hfirst] at h
      cases h
    exact (put_of_not_mem hkey).symm

end Members

/-! ### Groups -/

/-- The second value is the first one, an object, with an empty list of conditions if it has none and
with its members in some order. -/
def Json.IsCompletedTo (sent written : Json) : Prop :=
  ∃ ms ns : Members, sent = .obj ms ∧ written = .obj ns ∧ ns ~ ms.completed

namespace ConditionGroup

variable {g : ConditionGroup} {ms : Members}

/-- The type of a group that conforms to its schema is written as a text. -/
theorem SpelledBy.get?_type (hg : g.SpelledBy ms)
    (h : Conforms conditionGroupShape.toSchema (.obj ms)) :
    ms.get? "condition_type" = some (.str g.type.name) := by
  obtain ⟨_, ⟨⟩, hrequired, hproperties⟩ := (conforms_record_iff (by decide)).mp h
  obtain ⟨type, htype⟩ := hrequired "condition_type" (.head _)
  obtain ⟨name, -, rfl⟩ := conforms_oneOf_iff.mp (hproperties _ _ _ (.head _) htype)
  obtain ⟨v, hv, rfl | rfl⟩ := hg.type
  · exact hv
  · cases htype.symm.trans hv

/-- **A group is written with the members that it is read from**, completed and in another order. -/
theorem SpelledBy.perm_completed (hg : g.SpelledBy ms) (hkeys : ms.keys.Nodup)
    (htype : ms.get? "condition_type" = some (.str g.type.name)) :
    ("condition_type", .str g.type.name) :: ("conditions", .arr g.conditions) :: g.extra ~
      ms.completed := by
  rw [Members.completed_eq_put, hg.conditions]
  have htype' : Members.get? (Members.put "conditions" (.arr g.conditions) ms) "condition_type" =
      some (.str g.type.name) := by
    rw [Members.get?_put_of_ne _ _ (by decide), htype]
  have hrest : (Members.put "conditions" (.arr g.conditions) ms).without knownKeys = g.extra := by
    rw [Members.without_put (by decide), hg.extra]
  rw [← hrest]
  exact (Members.perm_cons_cons_without (Members.nodup_keys_put hkeys) htype'
    (Members.get?_put_self _ _ _) (by decide)).symm

theorem SpelledBy.isCompletedTo (hg : g.SpelledBy ms) (hkeys : ms.keys.Nodup)
    (h : Conforms conditionGroupShape.toSchema (.obj ms)) : (Json.obj ms).IsCompletedTo g.toJson :=
  ⟨ms, _, rfl, rfl, hg.perm_completed hkeys (hg.get?_type h)⟩

end ConditionGroup

/-! ### Definitions -/

/-- **The groups of a definition are written as they were sent.** -/
theorem Definition.SpelledBy.forall₂_isCompletedTo {d : Definition} {ms : Members}
    (hd : d.SpelledBy ms) (hw : (Json.obj ms).WellFormed)
    (h : Conforms definitionShape.toSchema (.obj ms)) :
    ∃ vs, (ms.get? "kpi_conditions").getD (.arr []) = .arr vs ∧
      List.Forall₂ Json.IsCompletedTo vs (d.conditions.map ConditionGroup.toJson) := by
  obtain ⟨_, ⟨⟩, -, hproperties⟩ := (conforms_record_iff (by decide)).mp h
  obtain ⟨vs, hvs, hconform⟩ := Settings.exists_getD_arr fun x =>
    hproperties _ _ x (.tail _ (.tail _ (.tail _ (.tail _ (.head _)))))
  obtain ⟨vs', hvs', hgroups⟩ := hd.conditions
  obtain rfl : vs = vs' := Json.arr.inj (hvs.symm.trans hvs')
  have hwell : ∀ v ∈ vs, v.WellFormed := by
    rcases getD_arr_eq_iff.mp hvs with ⟨-, rfl⟩ | hget
    · exact nofun
    · exact Json.itemsWellFormed_iff.mp (wellFormed_of_get? hw hget)
  refine ⟨vs, hvs, List.forall₂_map_right_iff.mpr (List.Forall₂.flip ?_)⟩
  refine forall₂_imp_of_mem ?_ hgroups
  rintro _ hmem g ⟨ns, rfl, hg⟩
  exact hg.isCompletedTo (hwell _ hmem).1 (hconform _ hmem)

end ExperimentKpi
