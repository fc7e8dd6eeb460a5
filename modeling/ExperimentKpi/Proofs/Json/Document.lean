/-
# What documents are made of

A value that a text is read as nests no deeper than the limit allows (`nesting_of_parse?`), no key
occurs twice in its objects (`wellFormed_of_parse?`), and its integers are of 64 bits
(`fits_of_parse?`): the numbers of a value stand in its tree, those of the tree among the tokens, and a
token's number fits.

A value that is put at a key of an object stands in the place of the first one there, or behind all
other members (`Members.put_append_cons`, `Members.put_of_not_mem`).

Key definitions: `RawJson.numbers`, `RawJson.Build.numbers`.
Key theorems: `Json.nesting_of_parse?`, `Json.wellFormed_of_parse?`, `Json.fits_of_parse?`.
-/
import ExperimentKpi.Proofs.Json.RoundTrip

namespace ExperimentKpi

/-! ### Members -/

namespace Members

variable {key : String} {value : Json} {ms es : Members} {m : String × Json}

theorem eq_or_mem_of_mem_put (h : m ∈ put key value ms) : m = (key, value) ∨ m ∈ ms := by
  induction ms with
  | nil => simpa [put] using h
  | cons p r ih =>
    obtain ⟨k, v⟩ := p
    by_cases hk : k = key
    · rw [put, if_pos hk, List.mem_cons] at h
      rcases h with rfl | h
      · exact .inl (by rw [hk])
      · exact .inr (List.mem_cons_of_mem _ h)
    · rw [put, if_neg hk, List.mem_cons] at h
      rcases h with rfl | h
      · exact .inr List.mem_cons_self
      · exact (ih h).imp id (List.mem_cons_of_mem _)

/-- Every member that entries leave is one of the entries. -/
theorem mem_of_mem_ofEntries (h : m ∈ ofEntries es) : m ∈ es := by
  have hfold : ∀ (es ms : Members), m ∈ es.foldl (fun ms e => put e.1 e.2 ms) ms →
      m ∈ ms ∨ m ∈ es := by
    intro es
    induction es with
    | nil => exact fun ms h => .inl h
    | cons e es ih =>
      intro ms h
      rcases ih _ h with h | h
      · rcases eq_or_mem_of_mem_put h with rfl | h
        · exact .inr List.mem_cons_self
        · exact .inl h
      · exact .inr (List.mem_cons_of_mem _ h)
  exact (hfold es [] h).resolve_left List.not_mem_nil

theorem nodup_keys_put (h : (ms.map Prod.fst).Nodup) : ((put key value ms).map Prod.fst).Nodup := by
  induction ms with
  | nil => simp [put]
  | cons p r ih =>
    obtain ⟨k, v⟩ := p
    rw [List.map_cons, List.nodup_cons] at h
    by_cases hk : k = key
    · rw [put, if_pos hk]
      exact List.nodup_cons.mpr h
    · rw [put, if_neg hk, List.map_cons, List.nodup_cons]
      refine ⟨fun hmem => ?_, ih h.2⟩
      obtain ⟨m, hm, hkey⟩ := List.mem_map.mp hmem
      rcases eq_or_mem_of_mem_put hm with rfl | hm
      · exact hk hkey.symm
      · exact h.1 (List.mem_map.mpr ⟨m, hm, hkey⟩)

/-- Entries leave no key twice. -/
theorem nodup_keys_ofEntries (es : Members) : ((ofEntries es).map Prod.fst).Nodup := by
  have hfold : ∀ (es ms : Members), (ms.map Prod.fst).Nodup →
      ((es.foldl (fun ms e => put e.1 e.2 ms) ms).map Prod.fst).Nodup := by
    intro es
    induction es with
    | nil => exact fun ms h => h
    | cons e es ih => exact fun ms h => ih _ (nodup_keys_put h)
  exact hfold es [] List.nodup_nil

theorem get?_cons_self : get? ((key, value) :: ms) key = some value := by
  rw [get?, List.lookup_cons_self]

theorem get?_cons_of_ne {k : String} (h : k ≠ key) : get? ((k, value) :: ms) key = ms.get? key := by
  have hne : (key == k) = false := beq_false_of_ne h.symm
  rw [get?, List.lookup_cons, hne, get?]

theorem get?_nil (key : String) : get? [] key = none := rfl

theorem get?_cons (k : String) (v : Json) (ms : Members) (key : String) :
    get? ((k, v) :: ms) key = if k = key then some v else ms.get? key := by
  split_ifs with hkey
  · rw [hkey, get?_cons_self]
  · exact get?_cons_of_ne hkey

theorem get?_append (ms ns : Members) (key : String) :
    get? (ms ++ ns) key = (ms.get? key).or (ns.get? key) :=
  List.lookup_append

theorem get?_eq_none_of_not_mem (h : key ∉ keys ms) : ms.get? key = none := by
  refine List.lookup_eq_none_iff.mpr fun m hm => ?_
  have hne : key ≠ m.1 := fun heq => h (List.mem_map.mpr ⟨m, hm, heq.symm⟩)
  simpa using hne

theorem mem_of_get? (h : ms.get? key = some value) : (key, value) ∈ ms := by
  induction ms with
  | nil => simp [get?] at h
  | cons p r ih =>
    obtain ⟨k, v⟩ := p
    by_cases hk : k = key
    · subst hk
      rw [get?_cons_self] at h
      cases h
      exact List.mem_cons_self
    · rw [get?_cons_of_ne hk] at h
      exact List.mem_cons_of_mem _ (ih h)

/-! A value is put at a key in the place of the first one there, or behind all members. -/

theorem put_of_not_mem (h : key ∉ keys ms) : put key value ms = ms ++ [(key, value)] := by
  induction ms with
  | nil => rfl
  | cons m r ih =>
    obtain ⟨k, v⟩ := m
    have hk : k ≠ key := fun hk => h (hk ▸ List.mem_cons_self)
    rw [put, if_neg hk, ih fun hmem => h (List.mem_cons_of_mem k hmem), List.cons_append]

theorem put_append_cons {before after : Members} {old : Json} (h : key ∉ keys before) :
    put key value (before ++ (key, old) :: after) = before ++ (key, value) :: after := by
  induction before with
  | nil => rw [List.nil_append, List.nil_append, put, if_pos rfl]
  | cons m r ih =>
    obtain ⟨k, v⟩ := m
    have hk : k ≠ key := fun hk => h (hk ▸ List.mem_cons_self)
    rw [List.cons_append, put, if_neg hk, ih fun hmem => h (List.mem_cons_of_mem k hmem),
      List.cons_append]

theorem get?_append_cons {before after : Members} (h : key ∉ keys before) :
    get? (before ++ (key, value) :: after) key = some value := by
  have hput : put key value (before ++ (key, value) :: after) = before ++ (key, value) :: after :=
    put_append_cons h
  rw [← hput]
  exact get?_put_self ..

/-- Members with a key have a first one with it. -/
theorem exists_append_cons (h : key ∈ keys ms) :
    ∃ before old after, key ∉ keys before ∧ ms = before ++ (key, old) :: after := by
  induction ms with
  | nil => exact absurd h List.not_mem_nil
  | cons m r ih =>
    obtain ⟨k, v⟩ := m
    by_cases hk : k = key
    · subst hk
      exact ⟨[], v, r, List.not_mem_nil, rfl⟩
    · have hr : key ∈ keys r := (List.mem_cons.mp h).resolve_left fun he => hk he.symm
      obtain ⟨before, old, after, hfirst, rfl⟩ := ih hr
      refine ⟨(k, v) :: before, old, after, ?_, rfl⟩
      intro hmem
      exact (List.mem_cons.mp hmem).elim (fun he => hk he.symm) hfirst

/-- The second of two values at a key counts. -/
theorem put_put (key : String) (old value : Json) (ms : Members) :
    put key value (put key old ms) = put key value ms := by
  induction ms with
  | nil =>
    show put key value [(key, old)] = [(key, value)]
    rw [put, if_pos rfl]
  | cons m r ih =>
    obtain ⟨k, v⟩ := m
    by_cases hk : k = key
    · rw [put, if_pos hk, put, if_pos hk, put, if_pos hk]
    · rw [put, if_neg hk, put, if_neg hk, put, if_neg hk, ih]

end Members

namespace Json

theorem membersNesting_le_iff {ms : Members} {limit : Nat} :
    membersNesting ms ≤ limit ↔ ∀ m ∈ ms, m.2.nesting ≤ limit := by
  induction ms with
  | nil => simp [membersNesting]
  | cons m r ih => simp only [membersNesting, ih, Nat.max_le, List.forall_mem_cons]

theorem itemsNesting_le_iff {xs : List Json} {limit : Nat} :
    itemsNesting xs ≤ limit ↔ ∀ x ∈ xs, x.nesting ≤ limit := by
  induction xs with
  | nil => simp [itemsNesting]
  | cons x r ih => simp only [itemsNesting, ih, Nat.max_le, List.forall_mem_cons]

theorem itemsWellFormed_iff {xs : List Json} : ItemsWellFormed xs ↔ ∀ x ∈ xs, x.WellFormed := by
  induction xs with
  | nil => simp [ItemsWellFormed]
  | cons x r ih => simp [ItemsWellFormed, ih]

theorem membersWellFormed_iff {ms : Members} :
    MembersWellFormed ms ↔ ∀ m ∈ ms, m.2.WellFormed := by
  induction ms with
  | nil => simp [MembersWellFormed]
  | cons m r ih => simp only [MembersWellFormed, ih, List.forall_mem_cons]

theorem membersWellFormed_append {ms ns : Members} :
    MembersWellFormed (ms ++ ns) ↔ MembersWellFormed ms ∧ MembersWellFormed ns := by
  simp only [membersWellFormed_iff, List.forall_mem_append]

theorem mem_itemsNumbers {xs : List Json} {n : Number} :
    n ∈ itemsNumbers xs ↔ ∃ x ∈ xs, n ∈ x.numbers := by
  induction xs with
  | nil => simp [itemsNumbers]
  | cons x xs ih => simp [itemsNumbers, ih]

theorem mem_membersNumbers {ms : Members} {n : Number} :
    n ∈ membersNumbers ms ↔ ∃ m ∈ ms, n ∈ m.2.numbers := by
  induction ms with
  | nil => simp [membersNumbers]
  | cons m r ih => simp [membersNumbers, ih]

end Json

/-! ### Values of trees -/

namespace RawJson

mutual

/-- The numbers in a tree. -/
def numbers : RawJson → List Number
  | num n => n.toList
  | arr xs => itemsNumbers xs
  | obj ms => membersNumbers ms
  | _ => []

/-- The numbers in items. -/
def itemsNumbers : List RawJson → List Number
  | [] => []
  | x :: xs => numbers x ++ itemsNumbers xs

/-- The numbers in the values of members. -/
def membersNumbers : List (Option String × RawJson) → List Number
  | [] => []
  | (_, v) :: r => numbers v ++ membersNumbers r

end

mutual

/-- The value of a tree nests within the limit, and its numbers stand in the tree. -/
theorem nesting_and_numbers_of_toJson? : ∀ (limit : Nat) (x : RawJson) (v : Json),
    toJson? limit x = some v → v.nesting ≤ limit ∧ ∀ n ∈ v.numbers, n ∈ x.numbers
  | _, null, v, h => by
    cases h
    exact ⟨Nat.zero_le _, nofun⟩
  | _, bool b, v, h => by
    cases h
    exact ⟨Nat.zero_le _, nofun⟩
  | _, num n, v, h => by
    obtain ⟨n, rfl, rfl⟩ : ∃ m, n = some m ∧ Json.num m = v := by simpa [toJson?] using h
    exact ⟨Nat.zero_le _, by simp [Json.numbers, numbers]⟩
  | _, str s, v, h => by
    obtain ⟨s, rfl, rfl⟩ : ∃ t, s = some t ∧ Json.str t = v := by simpa [toJson?] using h
    exact ⟨Nat.zero_le _, nofun⟩
  | 0, arr _, v, h => nomatch h
  | 0, obj _, v, h => nomatch h
  | limit + 1, arr xs, v, h => by
    obtain ⟨vs, hvs, rfl⟩ : ∃ vs, itemsToJson? limit xs = some vs ∧ Json.arr vs = v := by
      simpa [toJson?] using h
    obtain ⟨hnest, hnum⟩ := nesting_and_numbers_of_itemsToJson? limit xs vs hvs
    exact ⟨Nat.succ_le_succ hnest, hnum⟩
  | limit + 1, obj ms, v, h => by
    obtain ⟨es, hes, rfl⟩ : ∃ es, membersToJson? limit ms = some es ∧
        Json.obj (Members.ofEntries es) = v := by
      simpa [toJson?] using h
    obtain ⟨hnest, hnum⟩ := nesting_and_numbers_of_membersToJson? limit ms es hes
    constructor
    · refine Nat.succ_le_succ (Json.membersNesting_le_iff.mpr fun m hm => ?_)
      exact Json.membersNesting_le_iff.mp hnest m (Members.mem_of_mem_ofEntries hm)
    · intro n hn
      obtain ⟨m, hm, hn⟩ := Json.mem_membersNumbers.mp hn
      exact hnum n (Json.mem_membersNumbers.mpr ⟨m, Members.mem_of_mem_ofEntries hm, hn⟩)

theorem nesting_and_numbers_of_itemsToJson? : ∀ (limit : Nat) (xs : List RawJson)
    (vs : List Json), itemsToJson? limit xs = some vs →
      Json.itemsNesting vs ≤ limit ∧ ∀ n ∈ Json.itemsNumbers vs, n ∈ itemsNumbers xs
  | _, [], vs, h => by
    cases h
    exact ⟨Nat.zero_le _, nofun⟩
  | limit, x :: xs, vs, h => by
    simp only [itemsToJson?, Option.bind_eq_bind, Option.bind_eq_some_iff] at h
    obtain ⟨v, hv, ws, hws, h⟩ := h
    cases h
    obtain ⟨hnest, hnum⟩ := nesting_and_numbers_of_toJson? limit x v hv
    obtain ⟨hnests, hnums⟩ := nesting_and_numbers_of_itemsToJson? limit xs ws hws
    refine ⟨Nat.max_le.mpr ⟨hnest, hnests⟩, fun n hn => ?_⟩
    rw [Json.itemsNumbers, List.mem_append] at hn
    rw [itemsNumbers, List.mem_append]
    exact hn.imp (hnum n) (hnums n)

theorem nesting_and_numbers_of_membersToJson? : ∀ (limit : Nat)
    (ms : List (Option String × RawJson)) (es : Members), membersToJson? limit ms = some es →
      Json.membersNesting es ≤ limit ∧ ∀ n ∈ Json.membersNumbers es, n ∈ membersNumbers ms
  | _, [], es, h => by
    cases h
    exact ⟨Nat.zero_le _, nofun⟩
  | limit, (k, x) :: r, es, h => by
    simp only [membersToJson?, Option.bind_eq_bind, Option.bind_eq_some_iff] at h
    obtain ⟨key, hk, v, hv, ws, hws, h⟩ := h
    cases h
    obtain ⟨hnest, hnum⟩ := nesting_and_numbers_of_toJson? limit x v hv
    obtain ⟨hnests, hnums⟩ := nesting_and_numbers_of_membersToJson? limit r ws hws
    refine ⟨Nat.max_le.mpr ⟨hnest, hnests⟩, fun n hn => ?_⟩
    rw [Json.membersNumbers, List.mem_append] at hn
    rw [membersNumbers, List.mem_append]
    exact hn.imp (hnum n) (hnums n)

end

mutual

/-- The value of a tree is well-formed, whatever keys the tree repeats. -/
theorem wellFormed_of_toJson? : ∀ (limit : Nat) (x : RawJson) (v : Json),
    toJson? limit x = some v → v.WellFormed
  | _, null, v, h => by
    cases h
    trivial
  | _, bool b, v, h => by
    cases h
    trivial
  | _, num n, v, h => by
    obtain ⟨n, -, rfl⟩ : ∃ m, n = some m ∧ Json.num m = v := by simpa [toJson?] using h
    trivial
  | _, str s, v, h => by
    obtain ⟨s, -, rfl⟩ : ∃ t, s = some t ∧ Json.str t = v := by simpa [toJson?] using h
    trivial
  | 0, arr _, v, h => nomatch h
  | 0, obj _, v, h => nomatch h
  | limit + 1, arr xs, v, h => by
    obtain ⟨vs, hvs, rfl⟩ : ∃ vs, itemsToJson? limit xs = some vs ∧ Json.arr vs = v := by
      simpa [toJson?] using h
    exact itemsWellFormed_of_itemsToJson? limit xs vs hvs
  | limit + 1, obj ms, v, h => by
    obtain ⟨es, hes, rfl⟩ : ∃ es, membersToJson? limit ms = some es ∧
        Json.obj (Members.ofEntries es) = v := by
      simpa [toJson?] using h
    have hvalues := membersWellFormed_of_membersToJson? limit ms es hes
    refine ⟨Members.nodup_keys_ofEntries es, Json.membersWellFormed_iff.mpr fun m hm => ?_⟩
    exact Json.membersWellFormed_iff.mp hvalues m (Members.mem_of_mem_ofEntries hm)

theorem itemsWellFormed_of_itemsToJson? : ∀ (limit : Nat) (xs : List RawJson) (vs : List Json),
    itemsToJson? limit xs = some vs → Json.ItemsWellFormed vs
  | _, [], vs, h => by
    cases h
    trivial
  | limit, x :: xs, vs, h => by
    simp only [itemsToJson?, Option.bind_eq_bind, Option.bind_eq_some_iff] at h
    obtain ⟨v, hv, ws, hws, h⟩ := h
    cases h
    exact ⟨wellFormed_of_toJson? limit x v hv, itemsWellFormed_of_itemsToJson? limit xs ws hws⟩

theorem membersWellFormed_of_membersToJson? : ∀ (limit : Nat)
    (ms : List (Option String × RawJson)) (es : Members), membersToJson? limit ms = some es →
      Json.MembersWellFormed es
  | _, [], es, h => by
    cases h
    trivial
  | limit, (k, x) :: r, es, h => by
    simp only [membersToJson?, Option.bind_eq_bind, Option.bind_eq_some_iff] at h
    obtain ⟨key, -, v, hv, ws, hws, h⟩ := h
    cases h
    exact ⟨wellFormed_of_toJson? limit x v hv, membersWellFormed_of_membersToJson? limit r ws hws⟩

end

/-! ### Trees of tokens -/

theorem mem_itemsNumbers {xs : List RawJson} {n : Number} :
    n ∈ itemsNumbers xs ↔ ∃ x ∈ xs, n ∈ x.numbers := by
  induction xs with
  | nil => simp [itemsNumbers]
  | cons x xs ih => simp [itemsNumbers, ih]

theorem mem_membersNumbers {ms : List (Option String × RawJson)} {n : Number} :
    n ∈ membersNumbers ms ↔ ∃ m ∈ ms, n ∈ m.2.numbers := by
  induction ms with
  | nil => simp [membersNumbers]
  | cons m r ih => simp [membersNumbers, ih]

/-- The numbers in an array or object that is not closed yet. -/
def Frame.numbers : Frame → List Number
  | items done => itemsNumbers done
  | members done _ => membersNumbers done

/-- The numbers in a tree under construction. -/
def Build.numbers : Build → List Number
  | value stack => stack.flatMap Frame.numbers
  | item stack => stack.flatMap Frame.numbers
  | key _ done stack => membersNumbers done ++ stack.flatMap Frame.numbers
  | colon done _ stack => membersNumbers done ++ stack.flatMap Frame.numbers
  | complete v stack => v.numbers ++ stack.flatMap Frame.numbers

theorem Build.mem_numbers_of_begin {stack : List Frame} {t : Json.Token} {b : Build} {n : Number}
    (h : begin stack t = some b) (hn : n ∈ b.numbers) :
    n ∈ stack.flatMap Frame.numbers ∨ t = .num (some n) := by
  cases t <;> simp only [begin, Option.some.injEq, reduceCtorEq] at h <;> subst h
  case num m =>
    cases m with
    | none => exact .inl (by simpa [numbers, RawJson.numbers] using hn)
    | some m =>
      have : n = m ∨ ∃ f ∈ stack, n ∈ f.numbers := by simpa [numbers, RawJson.numbers] using hn
      rcases this with rfl | h
      · exact .inr rfl
      · exact .inl (List.mem_flatMap.mpr h)
  all_goals exact .inl (by simpa [numbers, RawJson.numbers, RawJson.membersNumbers] using hn)

/-- A token adds no number but its own. -/
theorem Build.mem_numbers_of_step {b b' : Build} {t : Json.Token} {n : Number}
    (h : b.step t = some b') (hn : n ∈ b'.numbers) : n ∈ b.numbers ∨ t = .num (some n) := by
  unfold step at h
  split at h
  case h_1 stack t => exact mem_numbers_of_begin h hn
  case h_3 stack t _ =>
    rcases mem_numbers_of_begin h hn with h | h
    · exact .inl (by simpa [numbers, Frame.numbers, itemsNumbers] using h)
    · exact .inr h
  all_goals
    cases h
  case h_5 done stack =>
    have hstack : n ∈ stack.flatMap Frame.numbers := hn
    exact .inl (List.mem_append_right _ hstack)
  all_goals
    exact .inl (by simpa [numbers, RawJson.numbers, Frame.numbers, mem_itemsNumbers,
      mem_membersNumbers, or_assoc, or_left_comm] using hn)

theorem Build.mem_numbers_of_foldlM {ts : List Json.Token} {b b' : Build} {n : Number}
    (h : ts.foldlM step b = some b') (hn : n ∈ b'.numbers) :
    n ∈ b.numbers ∨ .num (some n) ∈ ts := by
  induction ts generalizing b with
  | nil =>
    cases h
    exact .inl hn
  | cons t ts ih =>
    rw [List.foldlM_cons] at h
    obtain ⟨b₁, hb, h⟩ := Option.bind_eq_some_iff.mp h
    rcases ih h with h | h
    · rcases mem_numbers_of_step hb h with h | rfl
      · exact .inl h
      · exact .inr List.mem_cons_self
    · exact .inr (List.mem_cons_of_mem _ h)

/-- The numbers of a tree stand among its tokens. -/
theorem mem_of_ofTokens? {ts : List Json.Token} {x : RawJson} {n : Number}
    (h : ofTokens? ts = some x) (hn : n ∈ x.numbers) : .num (some n) ∈ ts := by
  unfold ofTokens? at h
  split at h
  · rename_i hv
    cases h
    have hn' : n ∈ (Build.complete x []).numbers := by simpa [Build.numbers] using hn
    exact (Build.mem_numbers_of_foldlM hv hn').resolve_left (by simp [Build.numbers])
  · cases h

end RawJson

/-! ### Tokens of texts -/

theorem Number.Literal.fits_of_value? {l : Literal} {n : Number} (h : l.value? = some n) :
    n.Fits := by
  have hfloat : ∀ {l : Literal}, l.float? = some n → n.Fits := by
    intro l h
    simp only [float?, Option.map_eq_some_iff] at h
    obtain ⟨x, -, rfl⟩ := h
    trivial
  have hbound : (int64Bound : Int) ≤ maxWord := by decide
  unfold value? at h
  split at h
  · simp only at h
    split at h
    · split at h
      · cases h
        simp only [Fits]
        omega
      · exact hfloat h
    · split at h
      · cases h
        simp only [Fits]
        omega
      · exact hfloat h
  · exact hfloat h

namespace Json

theorem Token.fits_of_next? {s rest : List Char} {n : Number}
    (h : Token.next? s = some (.num (some n), rest)) : n.Fits := by
  rcases Token.exists_of_next?_num h with ⟨_, l, -, -, hv⟩ | ⟨l, -, hv⟩
  · exact Number.Literal.fits_of_value? hv
  · exact Number.Literal.fits_of_value? hv

theorem fits_of_tokens? {s : List Char} {ts : List Token} (h : tokens? s = some ts) :
    ∀ n, .num (some n) ∈ ts → n.Fits := by
  fun_induction tokens? s generalizing ts with
  | case1 =>
    cases h
    exact fun n hn => nomatch hn
  | case2 c r _ ih => exact ih h
  | case3 => cases h
  | case4 c r _ t rest hnext ih =>
    simp only [Option.map_eq_some_iff] at h
    obtain ⟨us, hus, rfl⟩ := h
    intro n hn
    rcases List.mem_cons.mp hn with rfl | hn
    · exact Token.fits_of_next? hnext
    · exact ih hus n hn

variable {s : String} {v : Json}

/-- A document nests no deeper than the limit. -/
theorem nesting_of_parse? (h : parse? s = some v) : v.nesting ≤ nestingLimit := by
  obtain ⟨x, -, hx⟩ := Option.bind_eq_some_iff.mp h
  exact (RawJson.nesting_and_numbers_of_toJson? _ x v hx).1

/-- No key occurs twice in a document's objects. -/
theorem wellFormed_of_parse? (h : parse? s = some v) : v.WellFormed := by
  obtain ⟨x, -, hx⟩ := Option.bind_eq_some_iff.mp h
  exact RawJson.wellFormed_of_toJson? _ x v hx

/-- The numbers of a document fit. -/
theorem fits_of_parse? (h : parse? s = some v) : ∀ n ∈ v.numbers, n.Fits := by
  obtain ⟨x, hparse, hx⟩ := Option.bind_eq_some_iff.mp h
  obtain ⟨ts, hts, hx'⟩ := Option.bind_eq_some_iff.mp hparse
  intro n hn
  have hmem := (RawJson.nesting_and_numbers_of_toJson? _ x v hx).2 n hn
  exact fits_of_tokens? hts n (RawJson.mem_of_ofTokens? hx' hmem)

/-- A document whose floats read back is read back from its compact text. -/
theorem readsBack_of_parse? (h : parse? s = some v)
    (hfloats : ∀ x, .float x ∈ v.numbers → (Number.float x).ReadsBack) :
    ∀ n ∈ v.numbers, n.ReadsBack := by
  intro n hn
  cases n with
  | int z => exact Number.int_readsBack (fits_of_parse? h _ hn)
  | float x => exact hfloats x hn

end Json

end ExperimentKpi
