/-
# Which designs have patterns

A nesting walk starts at a root variation and goes on, again and again, to a variation that a condition
of the last one nests. A design has patterns exactly if all of its nesting walks are sound: they visit
at most 64 variations, none of them twice, and meet no nested id that no variation has. The patterns
are then the leaves below the roots.

The search keeps the ids of the variations on its way and how many more it may enter. `Fits` says of
a chain of variations that it would pass these checks, and by induction on the second number the
search succeeds at a variation exactly if every chain from there fits
(`exists_walk_ok_iff`). At a root, where nothing has been entered yet, a chain fits if it is sound.

Key definitions: `Design.Orders`, `Design.Nests`, `Design.IsNestingWalk`, `Design.IsSound`,
`Design.Leaves`, `Design.ListsLeaves`.
Key theorems: `exists_walk_ok_iff`, `leaves_of_walk`, `Leaves.unique`, `patterns_ofRows`.
-/
import ExperimentKpi.Design.Pattern
import ExperimentKpi.Proofs.Collect
import Mathlib.Data.List.Chain
import Mathlib.Data.List.Nodup

namespace ExperimentKpi.Design

/-! ### The order of rows -/

/-- The design has the given rows, in the order of their ids. -/
structure Orders (d : Design) (variations : List Variation) (conditions : List Condition) :
    Prop where
  variations : d.variations.Perm variations
  conditions : d.conditions.Perm conditions
  variationIds : d.variations.Pairwise fun v w => v.id ≤ w.id
  conditionIds : d.conditions.Pairwise fun c e => c.id ≤ e.id

theorem pairwise_mergeSort_le {α : Type} (key : α → Int) (xs : List α) :
    (xs.mergeSort fun a b => decide (key a ≤ key b)).Pairwise fun a b => key a ≤ key b := by
  have htrans : ∀ a b c : α, decide (key a ≤ key b) = true → decide (key b ≤ key c) = true →
      decide (key a ≤ key c) = true := by
    intro a b c hab hbc
    simp only [decide_eq_true_eq] at hab hbc ⊢
    exact Int.le_trans hab hbc
  have htotal : ∀ a b : α, (decide (key a ≤ key b) || decide (key b ≤ key a)) = true := by
    intro a b
    simpa using Int.le_total (key a) (key b)
  have h := List.pairwise_mergeSort htrans htotal xs
  exact h.imp fun hab => by simpa using hab

theorem orders_ofRows (variations : List Variation) (conditions : List Condition) :
    (ofRows variations conditions).Orders variations conditions where
  variations := List.mergeSort_perm ..
  conditions := List.mergeSort_perm ..
  variationIds := pairwise_mergeSort_le Variation.id variations
  conditionIds := pairwise_mergeSort_le Condition.id conditions

/-! ### Nesting -/

section

variable (d : Design)

/-- A condition of the first variation nests the second one. -/
def Nests (v w : Variation) : Prop :=
  w ∈ d.variations ∧ ∃ c ∈ d.conditions, c.variation = v.id ∧ c.nested = some w.id

/-- Every id that a condition of a variation nests is that of a variation. -/
def NestsExisting (v : Variation) : Prop :=
  ∀ c ∈ d.conditions, c.variation = v.id → ∀ id, c.nested = some id → ∃ w ∈ d.variations, w.id = id

/-- A chain of variations from a root, each nested in the one before. -/
structure IsNestingWalk (walk : List Variation) : Prop where
  root : ∃ v ∈ d.variations, v.isRoot = true ∧ walk.head? = some v
  chain : walk.IsChain d.Nests

/-- A walk visits at most 64 variations, none of them twice, and meets no nested id that no variation
has. -/
structure IsSoundWalk (walk : List Variation) : Prop where
  length : walk.length ≤ 64
  nodup : (walk.map (·.id)).Nodup
  existing : ∀ v ∈ walk, d.NestsExisting v

/-- Every nesting walk is sound. -/
def IsSound : Prop :=
  ∀ walk, d.IsNestingWalk walk → d.IsSoundWalk walk

/-- The patterns that conditions of a variation stand for, one after the other: a leaf's own one, and
those of all conditions of a variation that is nested. -/
inductive Leaves : Variation → List Condition → List Pattern → Prop where
  | done (v : Variation) : Leaves v [] []
  | leaf {v : Variation} {c : Condition} {cs : List Condition} {ps : List Pattern}
      (own : c.nested = none) (rest : Leaves v cs ps) :
      Leaves v (c :: cs) (⟨Text.lower v.kind, v.id, c.id⟩ :: ps)
  | nested {v w : Variation} {c : Condition} {cs : List Condition} {qs ps : List Pattern}
      (named : c.nested = some w.id) (existing : w ∈ d.variations)
      (below : Leaves w (d.conditionsOf w.id) qs) (rest : Leaves v cs ps) :
      Leaves v (c :: cs) (qs ++ ps)

/-- The patterns are the leaves below the roots, root by root. -/
def ListsLeaves (ps : List Pattern) : Prop :=
  ∃ parts, List.Forall₂ (fun v part => d.Leaves v (d.conditionsOf v.id) part)
    (d.variations.filter (·.isRoot)) parts ∧ ps = parts.flatten

/-- What the search asks of a chain when `budget` more variations may be entered and those of `path`
must not be met again. -/
structure Fits (budget : Nat) (path : List Int) (chain : List Variation) : Prop where
  length : chain.length ≤ budget
  nodup : (chain.map (·.id)).Nodup
  fresh : ∀ v ∈ chain, v.id ∉ path
  existing : ∀ v ∈ chain, d.NestsExisting v

/-- Every chain from a variation fits. -/
def AllFit (budget : Nat) (path : List Int) (v : Variation) : Prop :=
  ∀ rest, (v :: rest).IsChain d.Nests → d.Fits budget path (v :: rest)

end

variable {d : Design} {v w : Variation} {c : Condition} {budget : Nat} {path : List Int}
  {ps : List Pattern}

theorem mem_conditionsOf : c ∈ d.conditionsOf v.id ↔ c ∈ d.conditions ∧ c.variation = v.id := by
  simp [conditionsOf]

theorem mem_of_variation? {id : Int} (h : d.variation? id = some w) : w ∈ d.variations ∧ w.id = id :=
  ⟨List.mem_of_find?_eq_some h, by simpa using List.find?_some h⟩

/-- Where ids are a key, a variation is the one with its id. -/
theorem eq_of_id_eq (hd : (d.variations.map (·.id)).Nodup) (hv : v ∈ d.variations)
    (hw : w ∈ d.variations) (h : v.id = w.id) : v = w :=
  List.inj_on_of_nodup_map hd hv hw h

theorem variation?_id (hd : (d.variations.map (·.id)).Nodup) (hw : w ∈ d.variations) :
    d.variation? w.id = some w := by
  cases hf : d.variation? w.id with
  | none =>
    have hnone := List.find?_eq_none.mp hf w hw
    simp at hnone
  | some u =>
    obtain ⟨hu, hid⟩ := mem_of_variation? hf
    rw [eq_of_id_eq hd hu hw hid]

/-! ### Chains that fit -/

theorem AllFit.head (h : d.AllFit (budget + 1) path v) : v.id ∉ path ∧ d.NestsExisting v := by
  have hv := h [] (List.isChain_singleton v)
  exact ⟨hv.fresh v List.mem_cons_self, hv.existing v List.mem_cons_self⟩

theorem AllFit.tail (h : d.AllFit (budget + 1) path v) (hw : d.Nests v w) :
    d.AllFit budget (v.id :: path) w := by
  intro rest hchain
  have hlonger := h (w :: rest) (List.isChain_cons_cons.mpr ⟨hw, hchain⟩)
  have hnodup := hlonger.nodup
  rw [List.map_cons, List.nodup_cons] at hnodup
  refine ⟨?_, hnodup.2, ?_, fun u hu => hlonger.existing u (List.mem_cons_of_mem v hu)⟩
  · exact Nat.le_of_succ_le_succ hlonger.length
  · intro u hu hmem
    rcases List.mem_cons.mp hmem with heq | hmem
    · exact hnodup.1 (heq ▸ List.mem_map_of_mem hu)
    · exact hlonger.fresh u (List.mem_cons_of_mem v hu) hmem

theorem AllFit.cons (hfresh : v.id ∉ path) (hexisting : d.NestsExisting v)
    (h : ∀ w, d.Nests v w → d.AllFit budget (v.id :: path) w) : d.AllFit (budget + 1) path v := by
  intro rest hchain
  cases rest with
  | nil =>
    refine ⟨by simp, List.nodup_singleton _, ?_, ?_⟩
    · intro u hu
      rwa [List.mem_singleton.mp hu]
    · intro u hu
      rwa [List.mem_singleton.mp hu]
  | cons w rest =>
    obtain ⟨hw, hrest⟩ := List.isChain_cons_cons.mp hchain
    have hshorter := h w hw rest hrest
    refine ⟨Nat.succ_le_succ hshorter.length, ?_, ?_, ?_⟩
    · rw [List.map_cons, List.nodup_cons]
      refine ⟨fun hmem => ?_, hshorter.nodup⟩
      obtain ⟨u, hu, hid⟩ := List.mem_map.mp hmem
      exact hshorter.fresh u hu (hid ▸ List.mem_cons_self)
    · intro u hu hmem
      rcases List.mem_cons.mp hu with rfl | hu
      · exact hfresh hmem
      · exact hshorter.fresh u hu (List.mem_cons_of_mem _ hmem)
    · intro u hu
      rcases List.mem_cons.mp hu with rfl | hu
      · exact hexisting
      · exact hshorter.existing u hu

/-- One more variation may be entered: the checks on the first one, and those on the chains from the
variations that it nests. -/
theorem allFit_succ_iff : d.AllFit (budget + 1) path v ↔
    v.id ∉ path ∧ d.NestsExisting v ∧ ∀ w, d.Nests v w → d.AllFit budget (v.id :: path) w :=
  ⟨fun h => ⟨h.head.1, h.head.2, fun _ hw => h.tail hw⟩, fun h => .cons h.1 h.2.1 h.2.2⟩

theorem not_allFit_zero : ¬ d.AllFit 0 path v := by
  intro h
  have := (h [] (List.isChain_singleton v)).length
  simp at this

/-! ### The search -/

/-- What the search does with one condition. -/
def visit (d : Design) (budget : Nat) (path : List Int) (v : Variation) (c : Condition) :
    Except Failure (List Pattern) :=
  match c.nested with
  | none => .ok [Pattern.ofCondition v c.id]
  | some id =>
    match d.variation? id with
    | none => .error (.missingNested c.id id)
    | some w => d.walk budget (v.id :: path) w

theorem walk_succ (d : Design) (budget : Nat) (path : List Int) (v : Variation) :
    d.walk (budget + 1) path v =
      if v.id ∈ path then .error (.nestedInItself v.id v.experiment)
      else collect (d.visit budget path v) (d.conditionsOf v.id) := rfl

theorem visit_of_leaf (h : c.nested = none) :
    d.visit budget path v c = .ok [Pattern.ofCondition v c.id] := by
  simp only [visit, h]

theorem visit_of_nested (hd : (d.variations.map (·.id)).Nodup) (hw : w ∈ d.variations)
    (h : c.nested = some w.id) : d.visit budget path v c = d.walk budget (v.id :: path) w := by
  simp only [visit, h, variation?_id hd hw]

/-- The search passes the conditions of a variation if it passes the variations that they nest, and
all of these exist. -/
theorem forall_visit_ok_iff (hd : (d.variations.map (·.id)).Nodup) :
    (∀ c ∈ d.conditionsOf v.id, ∃ part, d.visit budget path v c = .ok part) ↔
      d.NestsExisting v ∧ ∀ w, d.Nests v w → ∃ part, d.walk budget (v.id :: path) w = .ok part := by
  constructor
  · intro h
    constructor
    · intro c hc hown id hnested
      obtain ⟨part, hpart⟩ := h c (mem_conditionsOf.mpr ⟨hc, hown⟩)
      cases hf : d.variation? id with
      | none =>
        simp only [visit, hnested, hf] at hpart
        cases hpart
      | some w => exact ⟨w, mem_of_variation? hf⟩
    · rintro w ⟨hw, c, hc, hown, hnested⟩
      obtain ⟨part, hpart⟩ := h c (mem_conditionsOf.mpr ⟨hc, hown⟩)
      exact ⟨part, by rw [← visit_of_nested hd hw hnested, hpart]⟩
  · rintro ⟨hexisting, hwalks⟩ c hc
    obtain ⟨hc, hown⟩ := mem_conditionsOf.mp hc
    cases hnested : c.nested with
    | none => exact ⟨_, visit_of_leaf hnested⟩
    | some id =>
      obtain ⟨w, hw, rfl⟩ := hexisting c hc hown id hnested
      rw [visit_of_nested hd hw hnested]
      exact hwalks w ⟨hw, c, hc, hown, hnested⟩

/-- **The search succeeds at a variation exactly if every chain from it fits.** -/
theorem exists_walk_ok_iff (hd : (d.variations.map (·.id)).Nodup) :
    (∃ ps, d.walk budget path v = .ok ps) ↔ d.AllFit budget path v := by
  induction budget generalizing path v with
  | zero =>
    constructor
    · rintro ⟨ps, h⟩
      cases h
    · exact fun h => absurd h not_allFit_zero
  | succ budget ih =>
    rw [walk_succ, allFit_succ_iff]
    by_cases hpath : v.id ∈ path
    · rw [if_pos hpath]
      constructor
      · rintro ⟨ps, h⟩
        cases h
      · exact fun h => absurd hpath h.1
    · rw [if_neg hpath, exists_collect_ok_iff, forall_visit_ok_iff hd]
      simp only [ih]
      exact ⟨fun h => ⟨hpath, h⟩, fun h => h.2⟩

/-- Every failure of the search is one of invalid data. -/
theorem kind_of_walk_error {e : Failure} (h : d.walk budget path v = .error e) :
    e.kind = .invalidData := by
  induction budget generalizing path v with
  | zero =>
    cases h
    rfl
  | succ budget ih =>
    rw [walk_succ] at h
    split at h
    · cases h
      rfl
    · obtain ⟨c, -, hc⟩ := exists_of_collect_error h
      unfold visit at hc
      split at hc
      · cases hc
      · split at hc
        · cases hc
          rfl
        · exact ih hc

theorem leaves_of_forall₂ {cs : List Condition} {parts : List (List Pattern)}
    (ih : ∀ {path w qs}, d.walk budget path w = .ok qs → d.Leaves w (d.conditionsOf w.id) qs)
    (h : List.Forall₂ (fun c part => d.visit budget path v c = .ok part) cs parts) :
    d.Leaves v cs parts.flatten := by
  induction h with
  | nil => exact .done v
  | @cons c part cs parts hc _ hrest =>
    rw [List.flatten_cons]
    unfold visit at hc
    split at hc
    · rename_i hnested
      cases hc
      exact .leaf hnested hrest
    · rename_i id hnested
      split at hc
      · cases hc
      · rename_i w hf
        obtain ⟨hw, rfl⟩ := mem_of_variation? hf
        exact .nested hnested hw (ih hc) hrest

/-- What the search finds are the leaves below the variation. -/
theorem leaves_of_walk (h : d.walk budget path v = .ok ps) :
    d.Leaves v (d.conditionsOf v.id) ps := by
  induction budget generalizing path v ps with
  | zero => cases h
  | succ budget ih =>
    rw [walk_succ] at h
    split at h
    · cases h
    · obtain ⟨parts, hparts, rfl⟩ := collect_ok_iff.mp h
      exact leaves_of_forall₂ ih hparts

/-- The leaves below a variation are one list. -/
theorem Leaves.unique (hd : (d.variations.map (·.id)).Nodup) {cs : List Condition}
    {qs : List Pattern} (h : d.Leaves v cs ps) (h' : d.Leaves v cs qs) : ps = qs := by
  induction h generalizing qs with
  | done v =>
    cases h'
    rfl
  | leaf own _ ih =>
    cases h' with
    | leaf _ rest => rw [ih rest]
    | nested named => simp [own] at named
  | nested named existing _ _ ihBelow ihRest =>
    cases h' with
    | leaf own => simp [own] at named
    | nested named' existing' below' rest' =>
      have hid := Option.some.inj (named.symm.trans named')
      obtain rfl := eq_of_id_eq hd existing existing' hid
      rw [ihBelow below', ihRest rest']

/-! ### The patterns of a design -/

/-- Every nesting walk is sound if every chain from every root fits at the start of the search. -/
theorem isSound_iff :
    d.IsSound ↔ ∀ v ∈ d.variations.filter (·.isRoot), d.AllFit maxDepth [] v := by
  constructor
  · intro h v hv rest hchain
    obtain ⟨hv, hroot⟩ := List.mem_filter.mp hv
    have hsound := h (v :: rest) ⟨⟨v, hv, hroot, rfl⟩, hchain⟩
    exact ⟨hsound.length, hsound.nodup, fun _ _ => List.not_mem_nil, hsound.existing⟩
  · rintro h walk ⟨⟨v, hv, hroot, hhead⟩, hchain⟩
    obtain ⟨rest, rfl⟩ := List.head?_eq_some_iff.mp hhead
    have hfits := h v (List.mem_filter.mpr ⟨hv, hroot⟩) rest hchain
    exact ⟨hfits.length, hfits.nodup, hfits.existing⟩

theorem exists_patterns_ok_iff (hd : (d.variations.map (·.id)).Nodup) :
    (∃ ps, d.patterns = .ok ps) ↔ d.IsSound := by
  rw [isSound_iff, patterns, exists_collect_ok_iff]
  simp only [exists_walk_ok_iff hd]

theorem listsLeaves_of_patterns (h : d.patterns = .ok ps) : d.ListsLeaves ps := by
  obtain ⟨parts, hparts, rfl⟩ := collect_ok_iff.mp h
  exact ⟨parts, hparts.imp fun _ _ => leaves_of_walk, rfl⟩

theorem ListsLeaves.unique (hd : (d.variations.map (·.id)).Nodup) {qs : List Pattern}
    (h : d.ListsLeaves ps) (h' : d.ListsLeaves qs) : ps = qs := by
  obtain ⟨parts, hparts, rfl⟩ := h
  obtain ⟨parts', hparts', rfl⟩ := h'
  suffices hsame : parts = parts' by rw [hsame]
  generalize d.variations.filter (·.isRoot) = roots at hparts hparts'
  induction hparts generalizing parts' with
  | nil =>
    cases hparts'
    rfl
  | cons hv _ ih =>
    cases hparts' with
    | cons hv' hrest' => rw [hv.unique hd hv', ih _ hrest']

theorem exists_patterns_error {e : Failure} (h : d.patterns = .error e) : e.kind = .invalidData := by
  obtain ⟨v, -, hv⟩ := exists_of_collect_error h
  exact kind_of_walk_error hv

/-- **A design has patterns exactly if all of its nesting walks are sound**, and else the data are
invalid. Its patterns are the leaves below its roots: roots and conditions come in the order of their
ids, and a variation that several walks reach appears once for each. -/
theorem patterns_ofRows (variations : List Variation) (conditions : List Condition)
    (hids : (variations.map (·.id)).Nodup) :
    (ofRows variations conditions).Orders variations conditions ∧
      ((∃ ps, (ofRows variations conditions).patterns = .ok ps) ↔
        (ofRows variations conditions).IsSound) ∧
      (¬ (ofRows variations conditions).IsSound →
        ∃ e, (ofRows variations conditions).patterns = .error e ∧ e.kind = .invalidData) ∧
      ∀ ps, (ofRows variations conditions).patterns = .ok ps ↔
        (ofRows variations conditions).IsSound ∧
          (ofRows variations conditions).ListsLeaves ps := by
  have horders := orders_ofRows variations conditions
  generalize ofRows variations conditions = d at horders ⊢
  have hd : (d.variations.map (·.id)).Nodup :=
    ((horders.variations.map _).nodup_iff).mpr hids
  refine ⟨horders, exists_patterns_ok_iff hd, fun hnot => ?_, fun ps => ⟨fun h => ?_, fun h => ?_⟩⟩
  · cases hp : d.patterns with
    | error e => exact ⟨e, rfl, exists_patterns_error hp⟩
    | ok ps => exact absurd ((exists_patterns_ok_iff hd).mp ⟨ps, hp⟩) hnot
  · exact ⟨(exists_patterns_ok_iff hd).mp ⟨ps, h⟩, listsLeaves_of_patterns h⟩
  · obtain ⟨qs, hqs⟩ := (exists_patterns_ok_iff hd).mpr h.1
    rw [hqs, h.2.unique hd (listsLeaves_of_patterns hqs)]

/-- Two roots, of which the second comes first, and a variation that both nest. -/
def sharedVariations : List Variation :=
  [⟨2, 1, "B", true⟩, ⟨1, 1, "A", true⟩, ⟨3, 1, "C", false⟩]

/-- The conditions of `sharedVariations`: one of each root nests the third variation. -/
def sharedConditions : List Condition :=
  [⟨4, 2, "nest", some 3⟩, ⟨2, 2, "own", none⟩, ⟨1, 1, "nest", some 3⟩, ⟨3, 3, "shared", none⟩]

theorem ofRows_shared : ofRows sharedVariations sharedConditions =
    ⟨[⟨1, 1, "A", true⟩, ⟨2, 1, "B", true⟩, ⟨3, 1, "C", false⟩],
      [⟨1, 1, "nest", some 3⟩, ⟨2, 2, "own", none⟩, ⟨3, 3, "shared", none⟩,
        ⟨4, 2, "nest", some 3⟩]⟩ := by
  simp [ofRows, sharedVariations, sharedConditions, List.mergeSort]

/-- The shared variation's leaf appears once for each root. -/
theorem patterns_ofRows_shared :
    (sharedVariations.map (·.id)).Nodup ∧
      (ofRows sharedVariations sharedConditions).IsSound ∧
      (ofRows sharedVariations sharedConditions).ListsLeaves
        [⟨"c", 3, 3⟩, ⟨"b", 2, 2⟩, ⟨"c", 3, 3⟩] := by
  have hids : (sharedVariations.map (·.id)).Nodup := by decide
  have hpatterns : (ofRows sharedVariations sharedConditions).patterns =
      .ok [⟨"c", 3, 3⟩, ⟨"b", 2, 2⟩, ⟨"c", 3, 3⟩] := by
    rw [ofRows_shared]
    decide +kernel
  obtain ⟨-, -, -, hiff⟩ := patterns_ofRows sharedVariations sharedConditions hids
  exact ⟨hids, (hiff _).mp hpatterns⟩

end ExperimentKpi.Design
