/-
# Documents read again

The compact text of a document is read as a document again, even where its floats do not read back: only
its numbers may differ (`Json.exists_parse?_compact`). What a tree has as its value does not depend on its
numbers either, but for these numbers (`RawJson.toJson?_mapNumbers`).

Key definition: `RawJson.mapNumbers`.
Key theorems: `RawJson.toJson?_mapNumbers`, `Json.parse?_compact_of_fits`, `Json.exists_parse?_compact`.
-/
import ExperimentKpi.Proofs.Json.FloatText
import ExperimentKpi.Proofs.Json.RoundTrip

namespace ExperimentKpi

variable {f : Number → Number}

/-! ### Members -/

namespace Json

theorem membersMapNumbers_put (key : String) (value : Json) (ms : Members) :
    membersMapNumbers f (Members.put key value ms) =
      Members.put key (value.mapNumbers f) (membersMapNumbers f ms) := by
  induction ms with
  | nil => rfl
  | cons m r ih =>
    obtain ⟨k, v⟩ := m
    rw [membersMapNumbers, Members.put, Members.put]
    split_ifs with hk
    · rfl
    · rw [membersMapNumbers, ih]

theorem membersMapNumbers_ofEntries (es : Members) :
    membersMapNumbers f (Members.ofEntries es) = Members.ofEntries (membersMapNumbers f es) := by
  have hfold : ∀ (es done : Members),
      membersMapNumbers f (es.foldl (fun ms e => Members.put e.1 e.2 ms) done) =
        (membersMapNumbers f es).foldl (fun ms e => Members.put e.1 e.2 ms)
          (membersMapNumbers f done) := by
    intro es
    induction es with
    | nil => exact fun _ => rfl
    | cons e es ih =>
      intro done
      rw [List.foldl_cons, ih, membersMapNumbers_put]
      rfl
  exact hfold es []

end Json

/-! ### Trees -/

namespace RawJson

mutual

/-- A tree with other numbers. -/
def mapNumbers (f : Number → Number) : RawJson → RawJson
  | num n => num (n.map f)
  | arr xs => arr (itemsMapNumbers f xs)
  | obj ms => obj (membersMapNumbers f ms)
  | v => v

/-- Items with other numbers. -/
def itemsMapNumbers (f : Number → Number) : List RawJson → List RawJson
  | [] => []
  | x :: xs => mapNumbers f x :: itemsMapNumbers f xs

/-- Members with other numbers in their values. -/
def membersMapNumbers (f : Number → Number) :
    List (Option String × RawJson) → List (Option String × RawJson)
  | [] => []
  | (k, v) :: r => (k, mapNumbers f v) :: membersMapNumbers f r

end

mutual

/-- The tree of a value with other numbers is its tree with these numbers. -/
theorem toRaw_mapNumbers : ∀ v : Json, (v.mapNumbers f).toRaw = v.toRaw.mapNumbers f
  | .null => rfl
  | .bool _ => rfl
  | .num _ => rfl
  | .str _ => rfl
  | .arr xs => congrArg RawJson.arr (itemsToRaw_itemsMapNumbers xs)
  | .obj ms => congrArg RawJson.obj (membersToRaw_membersMapNumbers ms)

theorem itemsToRaw_itemsMapNumbers : ∀ xs : List Json,
    Json.itemsToRaw (Json.itemsMapNumbers f xs) = itemsMapNumbers f (Json.itemsToRaw xs)
  | [] => rfl
  | x :: xs => congrArg₂ List.cons (toRaw_mapNumbers x) (itemsToRaw_itemsMapNumbers xs)

theorem membersToRaw_membersMapNumbers : ∀ ms : Members,
    Json.membersToRaw (Json.membersMapNumbers f ms) = membersMapNumbers f (Json.membersToRaw ms)
  | [] => rfl
  | (k, v) :: r =>
    congrArg₂ List.cons (congrArg (Prod.mk (some k)) (toRaw_mapNumbers v))
      (membersToRaw_membersMapNumbers r)

end

mutual

/-- **The value of a tree with other numbers is its value with these numbers.** -/
theorem toJson?_mapNumbers : ∀ (limit : Nat) (x : RawJson),
    toJson? limit (x.mapNumbers f) = (toJson? limit x).map (Json.mapNumbers f)
  | _, null => rfl
  | _, bool _ => rfl
  | _, num n => by cases n <;> rfl
  | _, str s => by cases s <;> rfl
  | 0, arr _ => rfl
  | 0, obj _ => rfl
  | limit + 1, arr xs => by
    rw [mapNumbers, toJson?, toJson?, itemsToJson?_mapNumbers limit xs]
    cases itemsToJson? limit xs <;> rfl
  | limit + 1, obj ms => by
    rw [mapNumbers, toJson?, toJson?, membersToJson?_mapNumbers limit ms]
    cases membersToJson? limit ms with
    | none => rfl
    | some es =>
      simp only [Option.map_some, Json.mapNumbers, Json.membersMapNumbers_ofEntries]

theorem itemsToJson?_mapNumbers : ∀ (limit : Nat) (xs : List RawJson),
    itemsToJson? limit (itemsMapNumbers f xs) =
      (itemsToJson? limit xs).map (Json.itemsMapNumbers f)
  | _, [] => rfl
  | limit, x :: xs => by
    rw [itemsMapNumbers, itemsToJson?, itemsToJson?, toJson?_mapNumbers limit x,
      itemsToJson?_mapNumbers limit xs]
    cases toJson? limit x with
    | none => rfl
    | some v => cases itemsToJson? limit xs <;> rfl

theorem membersToJson?_mapNumbers : ∀ (limit : Nat) (ms : List (Option String × RawJson)),
    membersToJson? limit (membersMapNumbers f ms) =
      (membersToJson? limit ms).map (Json.membersMapNumbers f)
  | _, [] => rfl
  | limit, (k, x) :: r => by
    rw [membersMapNumbers, membersToJson?, membersToJson?, toJson?_mapNumbers limit x,
      membersToJson?_mapNumbers limit r]
    cases k with
    | none => rfl
    | some key =>
      cases toJson? limit x with
      | none => rfl
      | some v => cases membersToJson? limit r <;> rfl

end

mutual

/-- The tree of a value that nests within the limit has a value. -/
theorem exists_toJson?_toRaw : ∀ {limit : Nat} {v : Json}, v.nesting ≤ limit →
    ∃ w, toJson? limit v.toRaw = some w
  | _, .null, _ => ⟨_, rfl⟩
  | _, .bool _, _ => ⟨_, rfl⟩
  | _, .num _, _ => ⟨_, rfl⟩
  | _, .str _, _ => ⟨_, rfl⟩
  | 0, .arr _, hn => absurd hn (Nat.not_succ_le_zero _)
  | 0, .obj _, hn => absurd hn (Nat.not_succ_le_zero _)
  | limit + 1, .arr xs, hn => by
    obtain ⟨ws, hws⟩ := exists_itemsToJson?_itemsToRaw (Nat.le_of_succ_le_succ hn)
    exact ⟨_, by rw [Json.toRaw, toJson?, hws, Option.map_some]⟩
  | limit + 1, .obj ms, hn => by
    obtain ⟨es, hes⟩ := exists_membersToJson?_membersToRaw (Nat.le_of_succ_le_succ hn)
    exact ⟨_, by rw [Json.toRaw, toJson?, hes, Option.map_some]⟩

theorem exists_itemsToJson?_itemsToRaw : ∀ {limit : Nat} {xs : List Json},
    Json.itemsNesting xs ≤ limit → ∃ ws, itemsToJson? limit (Json.itemsToRaw xs) = some ws
  | _, [], _ => ⟨_, rfl⟩
  | _, x :: xs, hn => by
    obtain ⟨hx, hxs⟩ := Nat.max_le.mp hn
    obtain ⟨w, hw⟩ := exists_toJson?_toRaw hx
    obtain ⟨ws, hws⟩ := exists_itemsToJson?_itemsToRaw hxs
    exact ⟨w :: ws, by rw [Json.itemsToRaw, itemsToJson?, hw, hws]; rfl⟩

theorem exists_membersToJson?_membersToRaw : ∀ {limit : Nat} {ms : Members},
    Json.membersNesting ms ≤ limit → ∃ es, membersToJson? limit (Json.membersToRaw ms) = some es
  | _, [], _ => ⟨_, rfl⟩
  | _, (k, v) :: r, hn => by
    obtain ⟨hv, hr⟩ := Nat.max_le.mp hn
    obtain ⟨w, hw⟩ := exists_toJson?_toRaw hv
    obtain ⟨es, hes⟩ := exists_membersToJson?_membersToRaw hr
    exact ⟨(k, w) :: es, by rw [Json.membersToRaw, membersToJson?, hw, hes]; rfl⟩

end

/-- The text of a document is the tree of the document with the numbers that are read. -/
theorem parse?_compact_of_fits {v : Json} (h : ∀ n ∈ v.numbers, n.Fits) :
    parse? v.compact = some (v.toRaw.mapNumbers Number.reread) := by
  rw [← toRaw_mapNumbers]
  exact parse?_compact_of_readsAs fun n hn => Number.readsAs_reread (h n hn)

end RawJson

/-- The text of a well-formed document is read as the document with the numbers that are read. -/
theorem Json.parse?_compact_of_fits {v : Json} (hw : v.WellFormed) (hn : v.nesting ≤ nestingLimit)
    (h : ∀ n ∈ v.numbers, n.Fits) : parse? v.compact = some (v.mapNumbers Number.reread) := by
  rw [parse?, parseWithin?, RawJson.parse?_compact_of_fits h, Option.bind_some,
    RawJson.toJson?_mapNumbers, RawJson.toJson?_toRaw hw hn, Option.map_some]

/-- **The text of a document is read as a document.** -/
theorem Json.exists_parse?_compact {v : Json} (hn : v.nesting ≤ nestingLimit)
    (h : ∀ n ∈ v.numbers, n.Fits) : ∃ w, parse? v.compact = some w := by
  obtain ⟨w, hw⟩ := RawJson.exists_toJson?_toRaw hn
  refine ⟨w.mapNumbers Number.reread, ?_⟩
  rw [parse?, parseWithin?, RawJson.parse?_compact_of_fits h, Option.bind_some,
    RawJson.toJson?_mapNumbers, hw, Option.map_some]

end ExperimentKpi
