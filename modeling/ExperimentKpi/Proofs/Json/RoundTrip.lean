/-
# Values read back from their compact text

The compact text of a value falls into the tokens of the value, but that each number is the one that its
text is read as (`tokens?_print`). From the tokens of a value the machine builds the value's tree on top
of whatever it has open (`foldlM_step_tokens`), and the tree of a well-formed value has that value
(`RawJson.toJson?_toRaw`). So the text of a value is read as the value with other numbers
(`RawJson.parse?_compact_of_readsAs`), and as the value itself if its numbers read back
(`RawJson.parse?_compact`, `Json.parse?_compact`).

Key definitions: `Json.numbers`, `Json.mapNumbers`, `Json.tokens`.
Key theorems: `Json.tokens?_print`, `Json.foldlM_step_tokens`, `RawJson.parse?_compact_of_readsAs`,
`RawJson.parse?_compact`, `RawJson.toJson?_toRaw`, `Json.parse?_compact`.
-/
import ExperimentKpi.Json.Raw
import ExperimentKpi.Proofs.Json.NumberText
import ExperimentKpi.Proofs.Json.StringText

namespace ExperimentKpi

namespace Json

mutual

/-- The numbers in a value. -/
def numbers : Json → List Number
  | num n => [n]
  | arr xs => itemsNumbers xs
  | obj ms => membersNumbers ms
  | _ => []

/-- The numbers in items. -/
def itemsNumbers : List Json → List Number
  | [] => []
  | x :: xs => numbers x ++ itemsNumbers xs

/-- The numbers in the values of members. -/
def membersNumbers : List (String × Json) → List Number
  | [] => []
  | (_, v) :: r => numbers v ++ membersNumbers r

end

mutual

/-- A value with other numbers. -/
def mapNumbers (f : Number → Number) : Json → Json
  | num n => num (f n)
  | arr xs => arr (itemsMapNumbers f xs)
  | obj ms => obj (membersMapNumbers f ms)
  | v => v

/-- Items with other numbers. -/
def itemsMapNumbers (f : Number → Number) : List Json → List Json
  | [] => []
  | x :: xs => mapNumbers f x :: itemsMapNumbers f xs

/-- Members with other numbers in their values. -/
def membersMapNumbers (f : Number → Number) : List (String × Json) → List (String × Json)
  | [] => []
  | (k, v) :: r => (k, mapNumbers f v) :: membersMapNumbers f r

end

mutual

theorem mapNumbers_id : ∀ v : Json, v.mapNumbers id = v
  | null => rfl
  | bool _ => rfl
  | num _ => rfl
  | str _ => rfl
  | arr xs => congrArg arr (itemsMapNumbers_id xs)
  | obj ms => congrArg obj (membersMapNumbers_id ms)

theorem itemsMapNumbers_id : ∀ xs : List Json, itemsMapNumbers id xs = xs
  | [] => rfl
  | x :: xs => congrArg₂ List.cons (mapNumbers_id x) (itemsMapNumbers_id xs)

theorem membersMapNumbers_id : ∀ ms : Members, membersMapNumbers id ms = ms
  | [] => rfl
  | (k, v) :: r =>
    congrArg₂ List.cons (congrArg (Prod.mk k) (mapNumbers_id v)) (membersMapNumbers_id r)

end

mutual

/-- The tokens of a value. -/
def tokens : Json → List Token
  | null => [.null]
  | bool b => [.bool b]
  | num n => [.num (some n)]
  | str s => [.str (some s)]
  | arr [] => [.openArray, .closeArray]
  | arr (x :: xs) => .openArray :: tokens x ++ itemsTokens xs ++ [.closeArray]
  | obj [] => [.openObject, .closeObject]
  | obj ((k, v) :: r) =>
    .openObject :: .str (some k) :: .colon :: tokens v ++ membersTokens r ++ [.closeObject]

/-- The tokens of the items after the first one. -/
def itemsTokens : List Json → List Token
  | [] => []
  | x :: xs => .comma :: tokens x ++ itemsTokens xs

/-- The tokens of the members after the first one. -/
def membersTokens : List (String × Json) → List Token
  | [] => []
  | (k, v) :: r => .comma :: .str (some k) :: .colon :: tokens v ++ membersTokens r

end

/-! ### From text to tokens -/

theorem not_isSpace_of_next? {c : Char} {r rest : List Char} {t : Token}
    (h : Token.next? (c :: r) = some (t, rest)) : isSpace c = false := by
  cases hc : isSpace c with
  | false => rfl
  | true =>
    simp only [isSpace, Bool.or_eq_true, decide_eq_true_eq] at hc
    rcases hc with ((rfl | rfl) | rfl) | rfl
    all_goals
      cases (h : none = some (t, rest))

/-- A text whose head is a token falls into that token and those of the rest. -/
theorem tokens?_of_next? {s rest : List Char} {t : Token} (h : Token.next? s = some (t, rest)) :
    tokens? s = (tokens? rest).map (t :: ·) := by
  cases s with
  | nil => cases (h : none = some (t, rest))
  | cons c r =>
    rw [tokens?.eq_def]
    simp only [not_isSpace_of_next? h, Bool.false_eq_true, if_false]
    split
    · rename_i hn
      simp [hn] at h
    · rename_i t' rest' hs
      rw [h] at hs
      cases hs
      rfl

theorem tokens?_literal (k : String) (rest : List Char) :
    tokens? (literal k ++ rest) = (tokens? rest).map (.str (some k) :: ·) :=
  tokens?_of_next? (Token.next?_literal k rest)

theorem ends_printItems (xs : List Json) (rest : List Char) :
    Ends (printItems xs ++ ']' :: rest) := by
  cases xs <;> simp only [printItems, List.nil_append, List.cons_append] <;>
    exact ends_cons (by decide)

theorem ends_printMembers (ms : Members) (rest : List Char) :
    Ends (printMembers ms ++ '}' :: rest) := by
  cases ms <;> simp only [printMembers, List.nil_append, List.cons_append] <;>
    exact ends_cons (by decide)

section

variable {f : Number → Number}

mutual

/-- The text of a value falls into the tokens of the value with the numbers that are read, whatever
follows it. -/
theorem tokens?_print : ∀ (v : Json) (rest : List Char), (∀ n ∈ v.numbers, n.ReadsAs (f n)) →
    Ends rest → tokens? (v.print ++ rest) = (tokens? rest).map ((v.mapNumbers f).tokens ++ ·)
  | null, rest, _, _ => tokens?_of_next? rfl
  | bool true, rest, _, _ => tokens?_of_next? rfl
  | bool false, rest, _, _ => tokens?_of_next? rfl
  | num n, rest, hn, hr => tokens?_of_next? ((hn n (by simp [numbers])).next?_append hr)
  | str s, rest, _, _ => tokens?_literal s rest
  | arr [], rest, _, _ => by
    rw [print, mapNumbers, itemsMapNumbers, tokens, List.cons_append, List.cons_append,
      List.nil_append, tokens?_of_next? (t := .openArray) rfl,
      tokens?_of_next? (t := .closeArray) rfl]
    simp [Function.comp_def]
  | arr (x :: xs), rest, hn, hr => by
    simp only [numbers, itemsNumbers, List.mem_append] at hn
    have hx := tokens?_print x (printItems xs ++ ']' :: rest)
      (fun n h => hn n (.inl h)) (ends_printItems xs rest)
    have hxs := tokens?_printItems xs (']' :: rest) (fun n h => hn n (.inr h))
      (ends_cons (by decide))
    have hclose : tokens? (']' :: rest) = (tokens? rest).map (.closeArray :: ·) :=
      tokens?_of_next? rfl
    simp only [print, mapNumbers, itemsMapNumbers, tokens, List.cons_append, List.append_assoc,
      List.nil_append]
    rw [tokens?_of_next? (t := .openArray) rfl, hx, hxs, hclose]
    simp [Function.comp_def]
  | obj [], rest, _, _ => by
    rw [print, mapNumbers, membersMapNumbers, tokens, List.cons_append, List.cons_append,
      List.nil_append, tokens?_of_next? (t := .openObject) rfl,
      tokens?_of_next? (t := .closeObject) rfl]
    simp [Function.comp_def]
  | obj ((k, v) :: r), rest, hn, hr => by
    simp only [numbers, membersNumbers, List.mem_append] at hn
    have hv := tokens?_print v (printMembers r ++ '}' :: rest)
      (fun n h => hn n (.inl h)) (ends_printMembers r rest)
    have hms := tokens?_printMembers r ('}' :: rest) (fun n h => hn n (.inr h))
      (ends_cons (by decide))
    have hclose : tokens? ('}' :: rest) = (tokens? rest).map (.closeObject :: ·) :=
      tokens?_of_next? rfl
    simp only [print, mapNumbers, membersMapNumbers, tokens, List.cons_append, List.append_assoc,
      List.nil_append]
    rw [tokens?_of_next? (t := .openObject) rfl, tokens?_literal,
      tokens?_of_next? (t := .colon) rfl, hv, hms, hclose]
    simp [Function.comp_def]

theorem tokens?_printItems : ∀ (xs : List Json) (rest : List Char),
    (∀ n ∈ itemsNumbers xs, n.ReadsAs (f n)) → Ends rest →
      tokens? (printItems xs ++ rest) = (tokens? rest).map (itemsTokens (itemsMapNumbers f xs) ++ ·)
  | [], rest, _, _ => by simp [printItems, itemsMapNumbers, itemsTokens]
  | x :: xs, rest, hn, hr => by
    simp only [itemsNumbers, List.mem_append] at hn
    have hends : Ends (printItems xs ++ rest) := by
      cases xs with
      | nil => simpa [printItems] using hr
      | cons => simpa [printItems] using ends_cons (by decide)
    have hx := tokens?_print x (printItems xs ++ rest) (fun n h => hn n (.inl h)) hends
    have hxs := tokens?_printItems xs rest (fun n h => hn n (.inr h)) hr
    simp only [printItems, itemsMapNumbers, itemsTokens, List.cons_append, List.append_assoc]
    rw [tokens?_of_next? (t := .comma) rfl, hx, hxs]
    simp [Function.comp_def]

theorem tokens?_printMembers : ∀ (ms : Members) (rest : List Char),
    (∀ n ∈ membersNumbers ms, n.ReadsAs (f n)) → Ends rest →
      tokens? (printMembers ms ++ rest) =
        (tokens? rest).map (membersTokens (membersMapNumbers f ms) ++ ·)
  | [], rest, _, _ => by simp [printMembers, membersMapNumbers, membersTokens]
  | (k, v) :: r, rest, hn, hr => by
    simp only [membersNumbers, List.mem_append] at hn
    have hends : Ends (printMembers r ++ rest) := by
      cases r with
      | nil => simpa [printMembers] using hr
      | cons => simpa [printMembers] using ends_cons (by decide)
    have hv := tokens?_print v (printMembers r ++ rest) (fun n h => hn n (.inl h)) hends
    have hms := tokens?_printMembers r rest (fun n h => hn n (.inr h)) hr
    simp only [printMembers, membersMapNumbers, membersTokens, List.cons_append, List.append_assoc]
    rw [tokens?_of_next? (t := .comma) rfl, tokens?_literal, tokens?_of_next? (t := .colon) rfl,
      hv, hms]
    simp [Function.comp_def]

end

end

/-! ### From tokens to trees -/

/-- No value starts with the end of an array. -/
theorem tokens_eq_cons (v : Json) : ∃ t ts, v.tokens = t :: ts ∧ t ≠ .closeArray := by
  fun_cases tokens v <;> exact ⟨_, _, rfl, nofun⟩

/-- The first item of an array is read like the later ones. -/
theorem foldlM_step_item (v : Json) (stack : List RawJson.Frame) :
    v.tokens.foldlM RawJson.Build.step (.item stack) =
      v.tokens.foldlM RawJson.Build.step (.value (.items [] :: stack)) := by
  obtain ⟨t, ts, hts, ht⟩ := tokens_eq_cons v
  rw [hts, List.foldlM_cons, List.foldlM_cons]
  cases t <;> first | rfl | exact absurd rfl ht

mutual

/-- The tokens of a value complete the value on top of what is open. -/
theorem foldlM_step_tokens : ∀ (v : Json) (stack : List RawJson.Frame),
    v.tokens.foldlM RawJson.Build.step (.value stack) = some (.complete v.toRaw stack)
  | null, _ => rfl
  | bool _, _ => rfl
  | num _, _ => rfl
  | str _, _ => rfl
  | arr [], _ => rfl
  | arr (x :: xs), stack => by
    have hx := foldlM_step_tokens x (.items [] :: stack)
    have hxs := foldlM_step_itemsTokens xs x.toRaw [] stack
    rw [← foldlM_step_item] at hx
    rw [tokens, List.cons_append, List.cons_append, List.foldlM_cons, List.append_assoc]
    simp only [RawJson.Build.step, RawJson.Build.begin, Option.bind_eq_bind, Option.bind_some]
    rw [List.foldlM_append, hx]
    exact hxs
  | obj [], _ => rfl
  | obj ((k, v) :: r), stack => by
    have hv := foldlM_step_tokens v (.members [] (some k) :: stack)
    have hms := foldlM_step_membersTokens r (some k) v.toRaw [] stack
    rw [tokens]
    simp only [List.cons_append, List.append_assoc, List.foldlM_cons, RawJson.Build.step,
      RawJson.Build.begin, Option.bind_eq_bind, Option.bind_some]
    rw [List.foldlM_append, hv]
    exact hms

theorem foldlM_step_itemsTokens : ∀ (xs : List Json) (x : RawJson) (done : List RawJson)
    (stack : List RawJson.Frame),
    (itemsTokens xs ++ [Token.closeArray]).foldlM RawJson.Build.step
        (.complete x (.items done :: stack)) =
      some (.complete (.arr ((x :: done).reverse ++ itemsToRaw xs)) stack)
  | [], x, done, stack => by simp [itemsTokens, itemsToRaw, RawJson.Build.step]
  | y :: ys, x, done, stack => by
    have hy := foldlM_step_tokens y (.items (x :: done) :: stack)
    have hys := foldlM_step_itemsTokens ys y.toRaw (x :: done) stack
    rw [itemsTokens, itemsToRaw]
    simp only [List.cons_append, List.append_assoc, List.foldlM_cons, RawJson.Build.step,
      Option.bind_eq_bind, Option.bind_some]
    rw [List.foldlM_append, hy]
    simpa using hys

theorem foldlM_step_membersTokens : ∀ (ms : Members) (k : Option String) (x : RawJson)
    (done : List (Option String × RawJson)) (stack : List RawJson.Frame),
    (membersTokens ms ++ [Token.closeObject]).foldlM RawJson.Build.step
        (.complete x (.members done k :: stack)) =
      some (.complete (.obj (((k, x) :: done).reverse ++ membersToRaw ms)) stack)
  | [], k, x, done, stack => by simp [membersTokens, membersToRaw, RawJson.Build.step]
  | (l, y) :: r, k, x, done, stack => by
    have hy := foldlM_step_tokens y (.members ((k, x) :: done) (some l) :: stack)
    have hr := foldlM_step_membersTokens r (some l) y.toRaw ((k, x) :: done) stack
    rw [membersTokens, membersToRaw]
    simp only [List.cons_append, List.append_assoc, List.foldlM_cons, RawJson.Build.step,
      Option.bind_eq_bind, Option.bind_some]
    rw [List.foldlM_append, hy]
    simpa using hr

end

end Json

/-- **The compact text of a value is read as the value with the numbers that are read.** -/
theorem RawJson.parse?_compact_of_readsAs {f : Number → Number} {v : Json}
    (h : ∀ n ∈ v.numbers, n.ReadsAs (f n)) :
    RawJson.parse? v.compact = some (v.mapNumbers f).toRaw := by
  have ht := Json.tokens?_print v [] h Json.ends_nil
  rw [List.append_nil] at ht
  simp [parse?, Json.compact, ht, Json.tokens?, ofTokens?, Json.foldlM_step_tokens]

/-- **The compact text of a value is read as the value**, if its numbers are. -/
theorem RawJson.parse?_compact {v : Json} (h : ∀ n ∈ v.numbers, n.ReadsBack) :
    RawJson.parse? v.compact = some v.toRaw := by
  have hid := RawJson.parse?_compact_of_readsAs (f := id) h
  rwa [Json.mapNumbers_id] at hid

/-! ### From trees to values -/

/-- Members with different keys are what they leave as entries. -/
theorem Members.ofEntries_of_nodup {ms : Members} (h : (ms.map Prod.fst).Nodup) :
    ofEntries ms = ms := by
  have hput : ∀ (k : String) (v : Json) (done : Members), k ∉ done.map Prod.fst →
      put k v done = done ++ [(k, v)] := by
    intro k v done
    induction done with
    | nil => exact fun _ => rfl
    | cons m r ih =>
      intro hk
      rw [List.map_cons, List.mem_cons, not_or] at hk
      rw [put, if_neg (Ne.symm hk.1), ih hk.2, List.cons_append]
  have hfold : ∀ (ms done : Members), ((done ++ ms).map Prod.fst).Nodup →
      ms.foldl (fun ms m => put m.1 m.2 ms) done = done ++ ms := by
    intro ms
    induction ms with
    | nil => simp
    | cons m r ih =>
      obtain ⟨k, v⟩ := m
      intro done hnodup
      have hm : k ∉ done.map Prod.fst := by
        rw [List.map_append, List.map_cons, List.nodup_append] at hnodup
        exact fun hmem => hnodup.2.2 _ hmem _ List.mem_cons_self rfl
      rw [List.foldl_cons, hput _ _ _ hm, ih _ (by simpa using hnodup), List.append_assoc, List.singleton_append]
  exact hfold ms [] h

namespace RawJson

mutual

/-- The tree of a well-formed value has that value. -/
theorem toJson?_toRaw : ∀ {limit : Nat} {v : Json}, v.WellFormed → v.nesting ≤ limit →
    toJson? limit v.toRaw = some v
  | _, .null, _, _ => by simp [Json.toRaw, toJson?]
  | _, .bool _, _, _ => by simp [Json.toRaw, toJson?]
  | _, .num _, _, _ => by simp [Json.toRaw, toJson?]
  | _, .str _, _, _ => by simp [Json.toRaw, toJson?]
  | 0, .arr _, _, hn => absurd hn (Nat.not_succ_le_zero _)
  | 0, .obj _, _, hn => absurd hn (Nat.not_succ_le_zero _)
  | limit + 1, .arr xs, hw, hn => by
    have hxs := itemsToJson?_itemsToRaw hw (Nat.le_of_succ_le_succ hn)
    simp [Json.toRaw, toJson?, hxs]
  | limit + 1, .obj ms, hw, hn => by
    have hms := membersToJson?_membersToRaw hw.2 (Nat.le_of_succ_le_succ hn)
    simp [Json.toRaw, toJson?, hms, Members.ofEntries_of_nodup hw.1]

theorem itemsToJson?_itemsToRaw : ∀ {limit : Nat} {xs : List Json}, Json.ItemsWellFormed xs →
    Json.itemsNesting xs ≤ limit → itemsToJson? limit (Json.itemsToRaw xs) = some xs
  | _, [], _, _ => by simp [Json.itemsToRaw, itemsToJson?]
  | _, x :: xs, hw, hn => by
    obtain ⟨hx, hxs⟩ := Nat.max_le.mp hn
    simp [Json.itemsToRaw, itemsToJson?, toJson?_toRaw hw.1 hx,
      itemsToJson?_itemsToRaw hw.2 hxs]

theorem membersToJson?_membersToRaw : ∀ {limit : Nat} {ms : Members}, Json.MembersWellFormed ms →
    Json.membersNesting ms ≤ limit → membersToJson? limit (Json.membersToRaw ms) = some ms
  | _, [], _, _ => by simp [Json.membersToRaw, membersToJson?]
  | _, (k, v) :: r, hw, hn => by
    obtain ⟨hv, hr⟩ := Nat.max_le.mp hn
    simp [Json.membersToRaw, membersToJson?, toJson?_toRaw hw.1 hv,
      membersToJson?_membersToRaw hw.2 hr]

end

end RawJson

/-- **A document is read back from its compact text**, if its numbers are. -/
theorem Json.parse?_compact {v : Json} (hw : v.WellFormed) (hn : v.nesting ≤ nestingLimit)
    (hnum : ∀ n ∈ v.numbers, n.ReadsBack) : parse? v.compact = some v := by
  rw [parse?, parseWithin?, RawJson.parse?_compact hnum, Option.bind_some]
  exact RawJson.toJson?_toRaw hw hn

end ExperimentKpi
