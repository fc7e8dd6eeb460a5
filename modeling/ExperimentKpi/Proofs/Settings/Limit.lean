/-
# Reading settings with room to spare

A reader that succeeds within a limit reads the same with a larger one, from values of trees
(`RawJson.toJson?_mono`) up to whole settings (`Settings.ofRaw?_mono`). So two readings of one tree
agree whatever their limits are (`Settings.ofRaw?_unique`).

Key theorems: `RawJson.toJson?_mono`, `Settings.ofRaw?_mono`, `Settings.ofRaw?_unique`.
-/
import ExperimentKpi.Settings.Reader

namespace ExperimentKpi

/-- A traversal that succeeds also succeeds with a function that succeeds more often. -/
theorem mapM_mono {α β : Type} {f g : α → Option β} (h : ∀ a b, f a = some b → g a = some b) :
    ∀ {xs : List α} {ys : List β}, xs.mapM f = some ys → xs.mapM g = some ys
  | [], _, hxs => hxs
  | x :: xs, ys, hxs => by
    simp only [List.mapM_cons, Option.bind_eq_bind, Option.bind_eq_some_iff] at hxs ⊢
    obtain ⟨y, hy, zs, hzs, hys⟩ := hxs
    exact ⟨y, h x y hy, zs, mapM_mono h hzs, hys⟩

namespace RawJson

mutual

theorem toJson?_mono : ∀ {limit limit' : Nat} (x : RawJson) {v : Json}, limit ≤ limit' →
    toJson? limit x = some v → toJson? limit' x = some v
  | _, _, null, _, _, h => by simpa [toJson?] using h
  | _, _, bool _, _, _, h => by simpa [toJson?] using h
  | _, _, num _, _, _, h => by simpa [toJson?] using h
  | _, _, str _, _, _, h => by simpa [toJson?] using h
  | 0, _, arr _, _, _, h => nomatch h
  | 0, _, obj _, _, _, h => nomatch h
  | limit + 1, 0, arr _, _, hl, _ => absurd hl (Nat.not_succ_le_zero _)
  | limit + 1, 0, obj _, _, hl, _ => absurd hl (Nat.not_succ_le_zero _)
  | limit + 1, limit' + 1, arr xs, v, hl, h => by
    obtain ⟨vs, hvs, rfl⟩ : ∃ vs, itemsToJson? limit xs = some vs ∧ Json.arr vs = v := by
      simpa [toJson?] using h
    simp [toJson?, itemsToJson?_mono xs (Nat.le_of_succ_le_succ hl) hvs]
  | limit + 1, limit' + 1, obj ms, v, hl, h => by
    obtain ⟨es, hes, rfl⟩ : ∃ es, membersToJson? limit ms = some es ∧
        Json.obj (Members.ofEntries es) = v := by
      simpa [toJson?] using h
    simp [toJson?, membersToJson?_mono ms (Nat.le_of_succ_le_succ hl) hes]

theorem itemsToJson?_mono : ∀ {limit limit' : Nat} (xs : List RawJson) {vs : List Json},
    limit ≤ limit' → itemsToJson? limit xs = some vs → itemsToJson? limit' xs = some vs
  | _, _, [], _, _, h => by simpa [itemsToJson?] using h
  | limit, limit', x :: xs, vs, hl, h => by
    simp only [itemsToJson?, Option.bind_eq_bind, Option.bind_eq_some_iff] at h ⊢
    obtain ⟨v, hv, ws, hws, h⟩ := h
    exact ⟨v, toJson?_mono x hl hv, ws, itemsToJson?_mono xs hl hws, h⟩

theorem membersToJson?_mono : ∀ {limit limit' : Nat} (ms : List (Option String × RawJson))
    {es : List (String × Json)}, limit ≤ limit' → membersToJson? limit ms = some es →
      membersToJson? limit' ms = some es
  | _, _, [], _, _, h => by simpa [membersToJson?] using h
  | limit, limit', (k, x) :: r, es, hl, h => by
    simp only [membersToJson?, Option.bind_eq_bind, Option.bind_eq_some_iff] at h ⊢
    obtain ⟨key, hk, v, hv, ws, hws, h⟩ := h
    exact ⟨key, hk, v, toJson?_mono x hl hv, ws, membersToJson?_mono r hl hws, h⟩

end

end RawJson

namespace RawMembers

variable {ms : RawMembers} {key : String} {limit limit' : Nat}

theorem withDefault?_mono {α : Type} {absent : α} {read read' : RawJson → Option α}
    (h : ∀ v a, read v = some a → read' v = some a) {a : α}
    (ha : ms.withDefault? key absent read = some a) : ms.withDefault? key absent read' = some a := by
  unfold withDefault? at ha ⊢
  split at ha
  · exact ha
  · exact h _ _ ha
  · cases ha

theorem others?_mono {known : List String} {es : Members} (hl : limit ≤ limit')
    (h : ms.others? known limit = some es) : ms.others? known limit' = some es := by
  simp only [others?, Option.map_eq_some_iff] at h ⊢
  obtain ⟨entries, he, rfl⟩ := h
  exact ⟨entries, RawJson.membersToJson?_mono _ hl he, rfl⟩

end RawMembers

theorem ConditionGroup.ofRaw?_mono {limit limit' : Nat} (hl : limit ≤ limit') (v : RawJson)
    (g : ConditionGroup) (h : ofRaw? limit v = some g) : ofRaw? limit' v = some g := by
  simp only [ofRaw?, Option.bind_eq_bind, Option.bind_eq_some_iff] at h ⊢
  obtain ⟨ms, hms, type, ht, conditions, hc, extra, he, h⟩ := h
  refine ⟨ms, hms, type, ht, conditions, ?_, extra, RawMembers.others?_mono hl he, h⟩
  refine RawMembers.withDefault?_mono (fun c cs hcs => ?_) hc
  obtain ⟨items, hi, hcs⟩ := Option.bind_eq_some_iff.mp hcs
  exact Option.bind_eq_some_iff.mpr
    ⟨items, hi, RawJson.itemsToJson?_mono _ (Nat.sub_le_sub_right hl 1) hcs⟩

theorem Definition.ofRaw?_mono {limit limit' : Nat} (hl : limit ≤ limit') (v : RawJson)
    (d : Definition) (h : ofRaw? limit v = some d) : ofRaw? limit' v = some d := by
  simp only [ofRaw?, Option.bind_eq_bind, Option.bind_eq_some_iff] at h ⊢
  obtain ⟨ms, hms, name, hn, isMain, hm, type, ht, patternName, hp, patternId, hi, conditions, hc,
    extra, he, h⟩ := h
  refine ⟨ms, hms, name, hn, isMain, hm, type, ht, patternName, hp, patternId, hi, conditions, ?_,
    extra, RawMembers.others?_mono hl he, h⟩
  refine RawMembers.withDefault?_mono (fun c cs hcs => ?_) hc
  obtain ⟨items, hi, hcs⟩ := Option.bind_eq_some_iff.mp hcs
  exact Option.bind_eq_some_iff.mpr
    ⟨items, hi, mapM_mono (ConditionGroup.ofRaw?_mono (Nat.sub_le_sub_right hl 2)) hcs⟩

namespace Settings

variable {limit limit' : Nat}

theorem ofParts?_mono (hl : limit ≤ limit') {basedOn definitions : RawJson} {s : Settings}
    (h : ofParts? limit basedOn definitions = some s) :
    ofParts? limit' basedOn definitions = some s := by
  simp only [ofParts?, Option.bind_eq_bind, Option.bind_eq_some_iff] at h ⊢
  obtain ⟨b, hb, ds, ⟨items, hi, hds⟩, h⟩ := h
  exact ⟨b, hb, ds, ⟨items, hi, mapM_mono (Definition.ofRaw?_mono (Nat.sub_le_sub_right hl 3)) hds⟩,
    h⟩

/-- **Settings that are read within a limit are read within a larger one.** -/
theorem ofRaw?_mono (hl : limit ≤ limit') {v : RawJson} {s : Settings}
    (h : ofRaw? limit v = some s) : ofRaw? limit' v = some s := by
  unfold ofRaw? at h ⊢
  split at h
  · obtain ⟨⟨⟩, hguard, h⟩ := Option.bind_eq_some_iff.mp h
    obtain ⟨basedOn, hb, h⟩ := Option.bind_eq_some_iff.mp h
    obtain ⟨definitions, hd, h⟩ := Option.bind_eq_some_iff.mp h
    refine Option.bind_eq_some_iff.mpr ⟨(), hguard, ?_⟩
    refine Option.bind_eq_some_iff.mpr ⟨basedOn, hb, ?_⟩
    exact Option.bind_eq_some_iff.mpr ⟨definitions, hd, ofParts?_mono hl h⟩
  · exact ofParts?_mono hl h
  · cases h

/-- Two readings of one tree agree. -/
theorem ofRaw?_unique {v : RawJson} {s s' : Settings} (h : ofRaw? limit v = some s)
    (h' : ofRaw? limit' v = some s') : s = s' := by
  have hs := ofRaw?_mono (Nat.le_max_left limit limit') h
  have hs' := ofRaw?_mono (Nat.le_max_right limit limit') h'
  exact Option.some.inj (hs.symm.trans hs')

end Settings

end ExperimentKpi
