/-
# The leaves of a design

The patterns of a design are those of the leaf conditions of variations that a visitor can get into:
roots, and variations that conditions of such variations nest (`IsEntered`). A pattern's printed form
is the pattern's alone: the ids stand behind the last underscores, and no id has one
(`identifier_injective`). So where ids are keys, the printed patterns of a design tell its leaves apart
(`identifiers_unambiguous`).

Key definitions: `Design.IsEntered`, `Design.IsLeaf`.
Key theorems: `Pattern.identifier_injective`, `Design.exists_of_mem_patterns`,
`Design.mem_patterns_of_leaf`, `Design.identifiers_unambiguous`.
-/
import ExperimentKpi.Proofs.Design.Nesting
import ExperimentKpi.Proofs.Text.Decimal

namespace ExperimentKpi

/-! ### Printed patterns -/

namespace Pattern

/-- A text is cut at its last underscore in one way. -/
theorem eq_of_append_underscore {a b x y : List Char} (hx : '_' ∉ x) (hy : '_' ∉ y)
    (h : a ++ '_' :: x = b ++ '_' :: y) : a = b ∧ x = y := by
  have hlast {m x y : List Char} (hx : '_' ∉ x) (h : '_' :: x = m ++ '_' :: y) :
      m = [] ∧ x = y := by
    cases m with
    | nil => exact ⟨rfl, (List.cons.inj h).2⟩
    | cons c m =>
      obtain ⟨-, rfl⟩ := List.cons.inj h
      exact absurd (List.mem_append_right m List.mem_cons_self) hx
  rcases List.append_eq_append_iff.mp h with ⟨m, rfl, hm⟩ | ⟨m, rfl, hm⟩
  · obtain ⟨rfl, hxy⟩ := hlast hx hm
    exact ⟨(List.append_nil a).symm, hxy⟩
  · obtain ⟨rfl, hyx⟩ := hlast hy hm
    exact ⟨List.append_nil b, hyx.symm⟩

theorem toList_identifier (p : Pattern) :
    p.identifier.toList = ((p.kind.toList ++ ['_']) ++ '_' :: (toString p.variation).toList ++ ['_']) ++
      '_' :: (toString p.condition).toList := by
  have hunderscores : "__".toList = ['_', '_'] := by decide
  have htext : p.identifier =
      p.kind ++ "__" ++ toString p.variation ++ "__" ++ toString p.condition := rfl
  rw [htext]
  simp only [String.toList_append, hunderscores, List.append_assoc, List.cons_append,
    List.nil_append]

/-- No two patterns are printed alike. -/
theorem identifier_injective : Function.Injective identifier := by
  intro p q h
  have hsigned (z : Int) : '_' ∉ (toString z).toList := fun hmem =>
    Text.ne_of_mem_toString hmem (by decide) (by decide) rfl
  have htext := congrArg String.toList h
  rw [toList_identifier, toList_identifier] at htext
  obtain ⟨hfront, hcondition⟩ := eq_of_append_underscore (hsigned _) (hsigned _) htext
  obtain ⟨hkind, hvariation⟩ := eq_of_append_underscore (hsigned _) (hsigned _)
    (List.append_cancel_right hfront)
  have hk : p.kind = q.kind := String.toList_injective (List.append_cancel_right hkind)
  have hv : p.variation = q.variation :=
    Text.toString_int_injective (String.toList_injective hvariation)
  have hc : p.condition = q.condition :=
    Text.toString_int_injective (String.toList_injective hcondition)
  cases p
  cases q
  simp_all

end Pattern

namespace Design

/-- A visitor can get into the variation: it is a root, or a condition of such a variation nests it. -/
inductive IsEntered (d : Design) : Variation → Prop where
  | root {v : Variation} (listed : v ∈ d.variations) (isRoot : v.isRoot = true) : d.IsEntered v
  | nested {v w : Variation} (outer : d.IsEntered v) (nests : d.Nests v w) : d.IsEntered w

variable {d : Design} {v w : Variation} {c : Condition} {cs : List Condition} {p : Pattern}
  {ps : List Pattern}

theorem IsEntered.mem (h : d.IsEntered v) : v ∈ d.variations := by
  cases h with
  | root listed => exact listed
  | nested _ nests => exact nests.1

/-! ### What the leaves below a variation are -/

namespace Leaves

theorem mem_of_leaf (h : d.Leaves v cs ps) (hc : c ∈ cs) (hleaf : c.nested = none) :
    Pattern.ofCondition v c.id ∈ ps := by
  induction h with
  | done v => exact absurd hc List.not_mem_nil
  | leaf own _ ih =>
    rcases List.mem_cons.mp hc with rfl | hc
    · exact List.mem_cons_self
    · exact List.mem_cons_of_mem _ (ih hc)
  | nested named _ _ _ _ ih =>
    rcases List.mem_cons.mp hc with rfl | hc
    · rw [hleaf] at named
      cases named
    · exact List.mem_append_right _ (ih hc)

/-- What a condition nests exists, and the leaves below it are among those of the condition. -/
theorem exists_below (h : d.Leaves v cs ps) (hc : c ∈ cs) {id : Int} (hnested : c.nested = some id) :
    ∃ w ∈ d.variations, w.id = id ∧ ∃ qs, d.Leaves w (d.conditionsOf id) qs ∧ qs ⊆ ps := by
  induction h with
  | done v => exact absurd hc List.not_mem_nil
  | leaf own _ ih =>
    rcases List.mem_cons.mp hc with rfl | hc
    · rw [hnested] at own
      cases own
    · obtain ⟨w, hw, hid, qs, hqs, hsub⟩ := ih hc
      exact ⟨w, hw, hid, qs, hqs, fun q hq => List.mem_cons_of_mem _ (hsub hq)⟩
  | @nested _ w _ _ qs _ named existing below _ _ ih =>
    rcases List.mem_cons.mp hc with rfl | hc
    · obtain rfl := Option.some.inj (named.symm.trans hnested)
      exact ⟨w, existing, rfl, qs, below, List.subset_append_left _ _⟩
    · obtain ⟨w, hw, hid, qs, hqs, hsub⟩ := ih hc
      exact ⟨w, hw, hid, qs, hqs, fun q hq => List.mem_append_right _ (hsub hq)⟩

theorem exists_of_mem (h : d.Leaves v cs ps) (hv : d.IsEntered v) (hcs : cs ⊆ d.conditionsOf v.id)
    (hp : p ∈ ps) :
    ∃ u, d.IsEntered u ∧ ∃ c ∈ d.conditionsOf u.id, c.nested = none ∧
      p = Pattern.ofCondition u c.id := by
  induction h with
  | done v => exact absurd hp List.not_mem_nil
  | @leaf v c cs ps own _ ih =>
    obtain ⟨hc, hrest⟩ := List.cons_subset.mp hcs
    rcases List.mem_cons.mp hp with rfl | hp
    · exact ⟨v, hv, c, hc, own, rfl⟩
    · exact ih hv hrest hp
  | @nested v w c cs qs ps named existing _ _ ihBelow ihRest =>
    obtain ⟨hc, hrest⟩ := List.cons_subset.mp hcs
    rcases List.mem_append.mp hp with hp | hp
    · obtain ⟨hlisted, hown⟩ := mem_conditionsOf.mp hc
      have hw : d.IsEntered w := .nested hv ⟨existing, c, hlisted, hown, named⟩
      exact ihBelow hw (List.Subset.refl _) hp
    · exact ihRest hv hrest hp

end Leaves

/-! ### What the patterns of a design are -/

theorem mem_patterns_iff (h : d.patterns = .ok ps) :
    p ∈ ps ↔ ∃ v ∈ d.variations, v.isRoot = true ∧ ∃ part, d.walk maxDepth [] v = .ok part ∧
      p ∈ part := by
  rw [mem_collect_iff h]
  simp only [List.mem_filter, and_assoc]

theorem identifiers_ok_iff {ids : List String} :
    d.identifiers = .ok ids ↔ ∃ ps, d.patterns = .ok ps ∧ ids = ps.map Pattern.identifier := by
  unfold identifiers
  cases d.patterns with
  | error e =>
    constructor
    · intro h
      cases h
    · rintro ⟨ps, h, -⟩
      cases h
  | ok ps =>
    constructor
    · intro h
      exact ⟨ps, rfl, (Except.ok.inj h).symm⟩
    · rintro ⟨qs, h, rfl⟩
      cases h
      rfl

/-- Every pattern is that of a leaf of a variation that is entered. -/
theorem exists_of_mem_patterns (h : d.patterns = .ok ps) (hp : p ∈ ps) :
    ∃ v, d.IsEntered v ∧ ∃ c ∈ d.conditionsOf v.id, c.nested = none ∧
      p = Pattern.ofCondition v c.id := by
  obtain ⟨r, hr, hroot, part, hpart, hp⟩ := (mem_patterns_iff h).mp hp
  exact (leaves_of_walk hpart).exists_of_mem (.root hr hroot) (List.Subset.refl _) hp

/-- The leaves below a variation that is entered are patterns; it is found by its id. -/
theorem IsEntered.exists_leaves (hv : d.IsEntered v) (h : d.patterns = .ok ps) :
    ∃ w ∈ d.variations, w.id = v.id ∧ ∃ qs, d.Leaves w (d.conditionsOf v.id) qs ∧ qs ⊆ ps := by
  induction hv with
  | @root v listed isRoot =>
    have hwalks := exists_collect_ok_iff.mp ⟨ps, h⟩
    obtain ⟨part, hpart⟩ := hwalks v (List.mem_filter.mpr ⟨listed, isRoot⟩)
    refine ⟨v, listed, rfl, part, leaves_of_walk hpart, fun q hq => ?_⟩
    exact (mem_patterns_iff h).mpr ⟨v, listed, isRoot, part, hpart, hq⟩
  | @nested v w _ nests ih =>
    obtain ⟨u, -, -, qs, hqs, hsub⟩ := ih
    obtain ⟨-, c, hc, hown, hnested⟩ := nests
    obtain ⟨w', hw', hid, rs, hrs, hbelow⟩ :=
      hqs.exists_below (mem_conditionsOf.mpr ⟨hc, hown⟩) hnested
    exact ⟨w', hw', hid, rs, hrs, fun q hq => hsub (hbelow hq)⟩

/-- A leaf of a variation that is entered is a pattern, if no other variation has its id. -/
theorem mem_patterns_of_leaf (h : d.patterns = .ok ps) (hv : d.IsEntered v)
    (honly : ∀ w ∈ d.variations, w.id = v.id → w = v) (hc : c ∈ d.conditionsOf v.id)
    (hleaf : c.nested = none) : Pattern.ofCondition v c.id ∈ ps := by
  obtain ⟨w, hw, hid, qs, hqs, hsub⟩ := hv.exists_leaves h
  obtain rfl := honly w hw hid
  exact hsub (hqs.mem_of_leaf hc hleaf)

/-! ### Printed patterns of a design -/

/-- The condition is a leaf of the variation, and both are among the rows. -/
structure IsLeaf (variations : List Variation) (conditions : List Condition) (v : Variation)
    (c : Condition) : Prop where
  variation : v ∈ variations
  condition : c ∈ conditions
  own : c.variation = v.id
  leaf : c.nested = none

variable {variations : List Variation} {conditions : List Condition}

/-- Where ids are keys, the pattern of a leaf tells the variation and the condition. -/
theorem IsLeaf.eq_of_ofCondition_eq {e : Condition} (h : IsLeaf variations conditions v c)
    (h' : IsLeaf variations conditions w e) (hids : (variations.map (·.id)).Nodup)
    (hconditions : (conditions.map (·.id)).Nodup)
    (hsame : Pattern.ofCondition v c.id = Pattern.ofCondition w e.id) : v = w ∧ c = e := by
  obtain ⟨-, hv, hc⟩ := Pattern.mk.inj hsame
  constructor
  · exact List.inj_on_of_nodup_map hids h.variation h'.variation hv
  · exact List.inj_on_of_nodup_map hconditions h.condition h'.condition hc

/-- The patterns of a design are those of leaves, in the order in which the leaves are met. -/
theorem exists_leaves_of_patterns (h : (ofRows variations conditions).patterns = .ok ps) :
    ∃ leaves : List (Variation × Condition),
      ps = leaves.map (fun l => Pattern.ofCondition l.1 l.2.id) ∧
        ∀ l ∈ leaves, IsLeaf variations conditions l.1 l.2 := by
  have horders := orders_ofRows variations conditions
  have hleaf : ∀ p ∈ ps, ∃ l : Variation × Condition,
      p = Pattern.ofCondition l.1 l.2.id ∧ IsLeaf variations conditions l.1 l.2 := by
    intro p hp
    obtain ⟨v, hv, c, hc, hnone, hpattern⟩ := exists_of_mem_patterns h hp
    obtain ⟨hlisted, hown⟩ := mem_conditionsOf.mp hc
    exact ⟨(v, c), hpattern, horders.variations.mem_iff.mp hv.mem,
      horders.conditions.mem_iff.mp hlisted, hown, hnone⟩
  clear h
  induction ps with
  | nil => exact ⟨[], rfl, nofun⟩
  | cons p ps ih =>
    rw [List.forall_mem_cons] at hleaf
    obtain ⟨⟨l, hl, hleaf⟩, hrest⟩ := hleaf
    obtain ⟨leaves, hleaves, hall⟩ := ih hrest
    refine ⟨l :: leaves, ?_, List.forall_mem_cons.mpr ⟨hleaf, hall⟩⟩
    rw [List.map_cons, ← hl, ← hleaves]

/-- A list and its image have equal entries at the same places, if the map tells its entries apart. -/
theorem getElem?_map_eq_iff {α β : Type} {f : α → β} {xs : List α}
    (hinj : ∀ a ∈ xs, ∀ b ∈ xs, f a = f b → a = b) (i j : Nat) :
    (xs.map f)[i]? = (xs.map f)[j]? ↔ xs[i]? = xs[j]? := by
  rw [List.getElem?_map, List.getElem?_map]
  constructor
  · intro h
    cases hi : xs[i]? with
    | none =>
      rw [hi] at h
      exact (Option.map_eq_none_iff.mp h.symm).symm
    | some a =>
      rw [hi] at h
      obtain ⟨b, hj, hab⟩ := Option.map_eq_some_iff.mp h.symm
      rw [hj, hinj a (List.mem_of_getElem? hi) b (List.mem_of_getElem? hj) hab.symm]
  · intro h
    rw [h]

/-- **Printed patterns are unambiguous.** Two patterns are printed alike exactly if they are the same,
whatever their kinds contain. So where ids are keys, a printed pattern of a design stands at two places
of the list exactly if the same leaf of the same variation is met at both. -/
theorem identifiers_unambiguous :
    (∀ p q : Pattern, p.identifier = q.identifier ↔ p = q) ∧
      ∀ (variations : List Variation) (conditions : List Condition),
        (variations.map (·.id)).Nodup → (conditions.map (·.id)).Nodup → ∀ ids,
        (ofRows variations conditions).identifiers = .ok ids →
          ∃ leaves : List (Variation × Condition),
            (ofRows variations conditions).patterns =
              .ok (leaves.map fun l => Pattern.ofCondition l.1 l.2.id) ∧
            ids = leaves.map (fun l => (Pattern.ofCondition l.1 l.2.id).identifier) ∧
            (∀ l ∈ leaves, IsLeaf variations conditions l.1 l.2) ∧
            ∀ i j : Nat, ids[i]? = ids[j]? ↔ leaves[i]? = leaves[j]? := by
  refine ⟨fun p q => Pattern.identifier_injective.eq_iff, ?_⟩
  intro variations conditions hids hconditions ids h
  obtain ⟨ps, hps, hprinted⟩ := identifiers_ok_iff.mp h
  obtain ⟨leaves, rfl, hleaf⟩ := exists_leaves_of_patterns hps
  rw [List.map_map] at hprinted
  refine ⟨leaves, hps, hprinted, hleaf, fun i j => ?_⟩
  rw [hprinted]
  apply getElem?_map_eq_iff
  intro l hl m hm hsame
  obtain ⟨hv, hc⟩ := (hleaf l hl).eq_of_ofCondition_eq (hleaf m hm) hids hconditions
    (Pattern.identifier_injective hsame)
  exact Prod.ext hv hc

/-- Kinds with underscores and digits, and a negative id. -/
def underscoredVariations : List Variation :=
  [⟨2, 1, "A", true⟩, ⟨1, 1, "A__2", true⟩, ⟨-3, 1, "_", false⟩]

/-- The conditions of `underscoredVariations`: one of each root nests the third variation. -/
def underscoredConditions : List Condition :=
  [⟨5, 2, "nest", some (-3)⟩, ⟨4, 1, "nest", some (-3)⟩, ⟨7, 1, "own", none⟩, ⟨1, 2, "own", none⟩,
    ⟨6, -3, "shared", none⟩]

theorem ofRows_underscored : ofRows underscoredVariations underscoredConditions =
    ⟨[⟨-3, 1, "_", false⟩, ⟨1, 1, "A__2", true⟩, ⟨2, 1, "A", true⟩],
      [⟨1, 2, "own", none⟩, ⟨4, 1, "nest", some (-3)⟩, ⟨5, 2, "nest", some (-3)⟩,
        ⟨6, -3, "shared", none⟩, ⟨7, 1, "own", none⟩]⟩ := by
  simp [ofRows, underscoredVariations, underscoredConditions, List.mergeSort]

/-- Only the leaf that both roots nest is printed twice. -/
theorem identifiers_unambiguous_underscored :
    (underscoredVariations.map (·.id)).Nodup ∧ (underscoredConditions.map (·.id)).Nodup ∧
      (ofRows underscoredVariations underscoredConditions).identifiers =
        .ok ["___-3__6", "a__2__1__7", "a__2__1", "___-3__6"] ∧
      ∃ leaves : List (Variation × Condition), leaves[0]? = leaves[3]? ∧ leaves[1]? ≠ leaves[2]? ∧
        ∀ l ∈ leaves, IsLeaf underscoredVariations underscoredConditions l.1 l.2 := by
  have hids : (underscoredVariations.map (·.id)).Nodup := by decide
  have hconditions : (underscoredConditions.map (·.id)).Nodup := by decide
  have hidentifiers : (ofRows underscoredVariations underscoredConditions).identifiers =
      .ok ["___-3__6", "a__2__1__7", "a__2__1", "___-3__6"] := by
    rw [ofRows_underscored]
    decide +kernel
  obtain ⟨leaves, -, -, hleaf, hplaces⟩ :=
    identifiers_unambiguous.2 _ _ hids hconditions _ hidentifiers
  refine ⟨hids, hconditions, hidentifiers, leaves, (hplaces 0 3).mp rfl, ?_, hleaf⟩
  intro hsame
  exact absurd ((hplaces 1 2).mpr hsame) (by decide)

end Design

end ExperimentKpi
