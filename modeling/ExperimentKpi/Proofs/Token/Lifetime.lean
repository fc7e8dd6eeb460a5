/-
# The lifetime of tokens

A lifetime is written as a number of seconds, or as a number with a unit (`DenotesDuration`). A
configuration is accepted only if its lifetime denotes a number of units
(`Config.exists_denotes_of_validate`) and that number fits 64 bits, but nothing checks the product of
number and unit, its conversion to a signed integer, or its sum with the clock. All three wrap, so
together they wrap once (`SigningKey.expires_of_denotes`), and a token lives as long as was written
exactly if its expiry fits a signed integer of 64 bits (`SigningKey.lifetime_of_validate`).

Key definition: `DenotesDuration`.
Key theorems: `durationSeconds?_of_denotes`, `exists_denotes`, `Config.exists_denotes_of_validate`,
`SigningKey.expires_of_denotes`, `SigningKey.lifetime_of_validate`.
-/
import ExperimentKpi.Config.Basic
import ExperimentKpi.Proofs.Token.Issued

namespace ExperimentKpi

/-- The text denotes `n` units of `k` seconds: it is a number of seconds, perhaps with a plus sign in
front, or, in lower case and without blanks around it, a number and the name of the unit. -/
inductive DenotesDuration (s : String) : ℕ → ℕ → Prop
  | bare {sign digits : List Char} {n : ℕ} (optional : sign = [] ∨ sign = ['+'])
      (text : s.toList = sign ++ digits) (number : Text.natural? digits = some n) :
      DenotesDuration s n 1
  | named {digits name : List Char} {n k : ℕ}
      (text : (Text.lower (String.ofList (Text.trim s.toList))).toList = digits ++ name)
      (number : Text.natural? digits = some n)
      (unit : unitSeconds? (String.ofList name) = some k) : DenotesDuration s n k

/-! ### Numbers without units -/

namespace Text

/-- A decimal digit or a plus sign. -/
def isBare (c : Char) : Bool :=
  isDigit c || c == '+'

variable {sign digits s : List Char} {n : ℕ}

/-- Digits and plus signs have no upper case and are no blanks. -/
theorem lowerChar_of_isBare {c : Char} (h : isBare c = true) :
    lowerChar c = [c] ∧ isBlank c = false ∧ c ≠ 'Σ' := by
  have hrange : 43 ≤ c.toNat ∧ c.toNat ≤ 57 := by
    rcases Bool.or_eq_true_iff.mp h with hd | hp
    · simp only [isDigit, Bool.and_eq_true, decide_eq_true_eq] at hd
      have hlow : 48 ≤ c.toNat := hd.1
      have hhigh : c.toNat ≤ 57 := hd.2
      omega
    · rw [beq_iff_eq.mp hp]
      decide
  have hall : ∀ d < 15, lowerChar (Char.ofNat (43 + d)) = [Char.ofNat (43 + d)] ∧
      isBlank (Char.ofNat (43 + d)) = false ∧ Char.ofNat (43 + d) ≠ 'Σ' := by decide
  obtain ⟨d, hd⟩ : ∃ d, c.toNat = 43 + d := ⟨c.toNat - 43, by omega⟩
  rw [← Char.ofNat_toNat c, hd]
  exact hall d (by omega)

/-- A text of digits and plus signs is trimmed and in lower case. -/
theorem lower_trim_of_isBare (h : ∀ c ∈ s, isBare c = true) :
    (lower (String.ofList (trim s))).toList = s := by
  have htight : IsTight s :=
    ⟨fun c hc => (lowerChar_of_isBare (h c (List.mem_of_mem_head? hc))).2.1,
      fun c hc => (lowerChar_of_isBare (h c (List.mem_of_mem_getLast? hc))).2.1⟩
  have hlower : ∀ before, lowerAfter before s = s := by
    clear htight
    induction s with
    | nil => exact fun _ => rfl
    | cons c s ih =>
      intro before
      obtain ⟨hc, hs⟩ := List.forall_mem_cons.mp h
      obtain ⟨hkept, -, hsigma⟩ := lowerChar_of_isBare hc
      rw [lowerAfter, if_neg hsigma, hkept, ih hs]
      rfl
  rw [trim_of_isTight htight, lower, String.toList_ofList, String.toList_ofList, hlower]

theorem isBare_of_natural? (hsign : sign = [] ∨ sign = ['+']) (h : natural? digits = some n) :
    ∀ c ∈ sign ++ digits, isBare c = true := by
  intro c hc
  rcases List.mem_append.mp hc with hc | hc
  · rcases hsign with rfl | rfl
    · cases hc
    · rw [List.mem_singleton.mp hc]
      decide
  · rw [isBare, (natural?_eq_some_iff.mp h).2.1 c hc, Bool.true_or]

end Text

/-! ### What a text denotes -/

/-- A unit is one of four, and its name begins with a letter. -/
theorem unitSeconds?_cases {name : String} {k : ℕ} (h : unitSeconds? name = some k) :
    k ∈ [1, 60, 3600, 86400] ∧ ∃ c r, name.toList = c :: r ∧ Text.isBare c = false := by
  have hletter : ∀ name ∈ ["s", "sec", "secs", "second", "seconds"] ++
      (["m", "min", "mins", "minute", "minutes"] ++ (["h", "hr", "hour", "hours"] ++ ["d", "day", "days"])),
      name.toList.head?.map Text.isBare = some false := by decide
  have hname : k ∈ [1, 60, 3600, 86400] ∧ name.toList.head?.map Text.isBare = some false := by
    unfold unitSeconds? at h
    split_ifs at h with hs hm hh hd <;> cases h
    · exact ⟨by decide, hletter name (List.mem_append_left _ hs)⟩
    · exact ⟨by decide, hletter name (List.mem_append_right _ (List.mem_append_left _ hm))⟩
    · exact ⟨by decide, hletter name
        (List.mem_append_right _ (List.mem_append_right _ (List.mem_append_left _ hh)))⟩
    · exact ⟨by decide, hletter name
        (List.mem_append_right _ (List.mem_append_right _ (List.mem_append_right _ hd)))⟩
  obtain ⟨c, hc, hbare⟩ := Option.map_eq_some_iff.mp hname.2
  obtain ⟨r, hr⟩ := List.head?_eq_some_iff.mp hc
  exact ⟨hname.1, c, r, hr, hbare⟩

variable {s : String} {n k m : ℕ}

/-- A text that is no number alone is read as a number and the name of a unit. -/
theorem durationSeconds?_of_split {digits name : List Char} (hword : Text.word? s.toList = none)
    (text : (Text.lower (String.ofList (Text.trim s.toList))).toList = digits ++ name)
    (hdigits : ∀ c ∈ digits, Text.isDigit c = true)
    (hname : ∀ c ∈ name.head?, Text.isDigit c = false) :
    durationSeconds? s = (Text.word? digits).bind fun n =>
      (unitSeconds? (String.ofList name)).map fun k => n * k % wordSize := by
  obtain ⟨htake, hdrop⟩ := Text.takeWhile_append_of_head hdigits hname
  unfold durationSeconds?
  rw [hword, text]
  simp only [htake, hdrop]
  cases Text.word? digits with
  | none => rfl
  | some n => cases unitSeconds? (String.ofList name) <;> rfl

/-- A number alone is counted in seconds, if it fits 64 bits. -/
theorem durationSeconds?_bare {sign digits : List Char} (hsign : sign = [] ∨ sign = ['+'])
    (text : s.toList = sign ++ digits) (number : Text.natural? digits = some n) :
    durationSeconds? s = if n < wordSize then some (n * 1 % wordSize) else none := by
  have hbare : ∀ c ∈ s.toList, Text.isBare c = true := by
    rw [text]
    exact Text.isBare_of_natural? hsign number
  have hword : Text.word? s.toList = if n < wordSize then some n else none := by
    rw [text]
    exact Text.word?_append hsign number
  by_cases hn : n < wordSize
  · rw [if_pos hn] at hword ⊢
    rw [durationSeconds?, hword, Nat.mul_one, Nat.mod_eq_of_lt hn]
  · -- Read as a number with a unit, the text has no unit or, behind a plus sign, no number.
    rw [if_neg hn] at hword ⊢
    have hlower : (Text.lower (String.ofList (Text.trim s.toList))).toList = sign ++ digits := by
      rw [Text.lower_trim_of_isBare hbare, text]
    rcases hsign with rfl | rfl
    · have hdigits := (Text.natural?_eq_some_iff.mp number).2.1
      have hsplit : (Text.lower (String.ofList (Text.trim s.toList))).toList = digits ++ [] := by
        rw [hlower, List.nil_append, List.append_nil]
      rw [durationSeconds?_of_split hword hsplit hdigits (by simp)]
      cases Text.word? digits <;> rfl
    · have hplus : ∀ c ∈ (['+'] ++ digits).head?, Text.isDigit c = false := by
        intro c hc
        obtain rfl : '+' = c := Option.some.inj hc
        decide
      have hsplit : (Text.lower (String.ofList (Text.trim s.toList))).toList =
          [] ++ (['+'] ++ digits) := hlower
      rw [durationSeconds?_of_split hword hsplit (by simp) hplus]
      rfl

/-- What a text denotes is counted in seconds modulo `2^64`, if its number fits 64 bits. -/
theorem durationSeconds?_of_denotes (h : DenotesDuration s n k) :
    durationSeconds? s = if n < wordSize then some (n * k % wordSize) else none := by
  cases h with
  | bare hsign text number => exact durationSeconds?_bare hsign text number
  | @named digits name n k text number unit =>
    obtain ⟨-, c, r, hname, hletter⟩ := unitSeconds?_cases unit
    rw [String.toList_ofList] at hname
    subst hname
    have hdigits : ∀ d ∈ digits, Text.isDigit d = true := (Text.natural?_eq_some_iff.mp number).2.1
    have hword : Text.word? s.toList = none := by
      -- A number without a unit would be in lower case and would have no letter.
      by_contra hsome
      obtain ⟨m, hm⟩ := Option.ne_none_iff_exists'.mp hsome
      obtain ⟨sign, bare, hsign, hs, hbare, -⟩ := Text.exists_of_word? hm
      have hall := Text.isBare_of_natural? hsign hbare
      rw [← hs] at hall
      rw [Text.lower_trim_of_isBare hall] at text
      have hmem : c ∈ s.toList := by
        rw [text]
        exact List.mem_append_right _ List.mem_cons_self
      rw [hall c hmem] at hletter
      cases hletter
    have hc : ∀ d ∈ (c :: r).head?, Text.isDigit d = false := by
      rintro d hd
      obtain rfl : c = d := Option.some.inj hd
      exact (Bool.or_eq_false_iff.mp hletter).1
    have hdigitsWord : Text.word? digits = if n < wordSize then some n else none :=
      Text.word?_append (.inl rfl) number
    rw [durationSeconds?_of_split hword text hdigits hc, hdigitsWord, unit]
    split_ifs <;> rfl

/-- A text that is counted in seconds denotes a number of units. -/
theorem exists_denotes (h : durationSeconds? s = some m) :
    ∃ n, ∃ k ∈ [1, 60, 3600, 86400], DenotesDuration s n k := by
  unfold durationSeconds? at h
  split at h
  next n hword =>
    obtain ⟨sign, digits, hsign, hs, hnumber, -⟩ := Text.exists_of_word? hword
    exact ⟨n, 1, by decide, .bare hsign hs hnumber⟩
  next =>
    simp only [Option.bind_eq_bind, Option.bind_eq_some_iff] at h
    obtain ⟨n, hword, k, hunit, -⟩ := h
    obtain ⟨sign, digits, hsign, htake, hnumber, -⟩ := Text.exists_of_word? hword
    have hsign : sign = [] := by
      rcases hsign with rfl | rfl
      · rfl
      · have hplus : Text.isDigit '+' = true := by
          apply List.mem_takeWhile_imp (l := _)
          rw [htake]
          exact List.mem_cons_self
        exact absurd hplus (by decide)
    rw [hsign, List.nil_append] at htake
    rw [← htake] at hnumber
    exact ⟨n, k, (unitSeconds?_cases hunit).1,
      .named List.takeWhile_append_dropWhile.symm hnumber hunit⟩

/-- A product that does not fit 64 bits wraps: as many days are counted as 17 hours. -/
example : durationSeconds? "213503982334602d" = some 61184 := by decide +kernel

/-! ### Accepted lifetimes -/

/-- The lifetime of an accepted configuration is counted in seconds. -/
theorem Config.isSome_of_validate {c : Config} (h : c.validate = .ok ()) :
    (durationSeconds? c.tokenLifetime).isSome = true := by
  unfold Config.validate at h
  split_ifs at h with _ _ hnone
  rwa [Bool.not_eq_true, Option.isNone_eq_false_iff] at hnone

/-- The lifetime of an accepted configuration denotes a number of units. -/
theorem Config.exists_denotes_of_validate {c : Config} (h : c.validate = .ok ()) :
    ∃ n, ∃ k ∈ [1, 60, 3600, 86400], DenotesDuration c.tokenLifetime n k := by
  obtain ⟨m, hm⟩ := Option.isSome_iff_exists.mp (Config.isSome_of_validate h)
  exact exists_denotes hm

namespace SigningKey

variable {secret username : String} {now user : ℤ}

/-- The product of number and unit, its conversion to a signed integer and its sum with the clock wrap
as one. -/
theorem expires_of_denotes (hd : DenotesDuration s n k) (hn : n < wordSize) :
    ((SigningKey.of secret s).claims now user username).expires =
      (now + n * k : ℤ).bmod wordSize := by
  have hseconds : durationSeconds? s = some (n * k % wordSize) := by
    rw [durationSeconds?_of_denotes hd, if_pos hn]
  have hlifetime : (SigningKey.of secret s).lifetime = (n * k : ℤ).bmod wordSize := by
    rw [SigningKey.of, hseconds, Option.getD_some]
    push_cast
    exact Int.emod_bmod _ _
  calc ((SigningKey.of secret s).claims now user username).expires
      = (now + (SigningKey.of secret s).lifetime).bmod wordSize := rfl
    _ = (now + n * k : ℤ).bmod wordSize := by rw [hlifetime, Int.add_bmod_bmod]

/-- A sum of natural numbers stays what it is exactly if it fits a signed integer of 64 bits. -/
theorem bmod_wordSize_eq_self_iff {z : ℤ} (h : 0 ≤ z) :
    z.bmod wordSize = z ↔ z < int64Bound := by
  have hbounds : (wordSize : ℤ) / 2 = int64Bound ∧ ((wordSize : ℤ) + 1) / 2 = int64Bound := by decide
  constructor
  · intro heq
    have hlt := Int.bmod_lt (x := z) (m := wordSize) (by decide)
    rwa [heq, hbounds.2] at hlt
  · intro hlt
    apply Int.bmod_eq_of_le
    · rw [hbounds.1]
      have : (0 : ℤ) ≤ int64Bound := Int.natCast_nonneg _
      omega
    · rwa [hbounds.2]

/-- **A token of an accepted configuration lives as long as was written exactly if its expiry fits a
signed integer of 64 bits**, and then it verifies when it is issued. A larger lifetime wraps. -/
theorem lifetime_of_validate {c : Config} (hc : c.validate = .ok ()) (hnow : 0 ≤ now)
    (hclock : now < int64Bound) (secret : String) (user : ℤ) (username : String) :
    let key := SigningKey.of secret c.tokenLifetime
    let claims := key.claims now user username
    (∃ n, ∃ k ∈ [1, 60, 3600, 86400], DenotesDuration c.tokenLifetime n k) ∧
      ∀ n k, DenotesDuration c.tokenLifetime n k →
        (claims.expires - claims.issued = n * k ↔ now + n * k < int64Bound) ∧
        (now + n * k < int64Bound →
          key.verify? now (key.issue now user username) = some claims) := by
  intro key claims
  refine ⟨Config.exists_denotes_of_validate hc, fun n k hd => ?_⟩
  have hn : n < wordSize := by
    by_contra hnot
    have hsome := Config.isSome_of_validate hc
    rw [durationSeconds?_of_denotes hd, if_neg hnot] at hsome
    cases hsome
  have hexpires : claims.expires = (now + n * k : ℤ).bmod wordSize := expires_of_denotes hd hn
  have hissued : claims.issued = now := rfl
  have hproduct : (0 : ℤ) ≤ n * k := Int.mul_nonneg (Int.natCast_nonneg n) (Int.natCast_nonneg k)
  have hnonneg : 0 ≤ now + n * k := Int.add_nonneg hnow hproduct
  have hexact := bmod_wordSize_eq_self_iff hnonneg
  constructor
  · rw [hexpires, hissued, ← hexact]
    constructor
    · intro h
      omega
    · intro h
      omega
  · intro hfits
    rw [hexact.mpr hfits] at hexpires
    have hword : IsInt64 now := ⟨by have := Int.natCast_nonneg int64Bound; omega, hclock⟩
    have hpositive : 0 ≤ claims.expires := by rwa [hexpires]
    have hfresh : now - leeway ≤ claims.expires := by
      rw [hexpires, leeway]
      omega
    exact verify?_issue hword hpositive hfresh

/-- A week. -/
theorem lifetime_of_validate_week :
    ({ tokenLifetime := "7d" } : Config).validate = .ok () ∧ DenotesDuration "7d" 7 86400 ∧
      ((SigningKey.of "secret" "7d").claims 1720000000 7 "alice").expires - 1720000000 = 604800 ∧
      (SigningKey.of "secret" "7d").verify? 1720000000
          ((SigningKey.of "secret" "7d").issue 1720000000 7 "alice") =
        some ((SigningKey.of "secret" "7d").claims 1720000000 7 "alice") := by
  have hvalid : ({ tokenLifetime := "7d" } : Config).validate = .ok () := by decide +kernel
  have htext : (Text.lower (String.ofList (Text.trim "7d".toList))).toList = ['7'] ++ ['d'] := by decide
  have hweek : DenotesDuration "7d" 7 86400 := .named htext (by decide) (by decide)
  have hclock : (1720000000 : ℤ) < int64Bound := by decide
  have hfits : (1720000000 : ℤ) + (7 : ℕ) * (86400 : ℕ) < int64Bound := by decide
  obtain ⟨hlifetime, hverify⟩ :=
    (lifetime_of_validate hvalid (by decide) hclock "secret" 7 "alice").2 7 86400 hweek
  exact ⟨hvalid, hweek, hlifetime.mpr hfits, hverify hfits⟩

/-- A number of seconds that fits 64 bits, but no signed integer: a token expires ten minutes before it
is issued. -/
theorem lifetime_wraps :
    ({ tokenLifetime := "18446744073709551000" } : Config).validate = .ok () ∧
      DenotesDuration "18446744073709551000" 18446744073709551000 1 ∧
      ((SigningKey.of "secret" "18446744073709551000").claims 1720000000 7 "alice").expires -
          ((SigningKey.of "secret" "18446744073709551000").claims 1720000000 7 "alice").issued =
        -616 := by
  have hvalid : ({ tokenLifetime := "18446744073709551000" } : Config).validate = .ok () := by
    decide +kernel
  have hdenotes : DenotesDuration "18446744073709551000" 18446744073709551000 1 :=
    .bare (.inl rfl) rfl (by decide +kernel)
  refine ⟨hvalid, hdenotes, ?_⟩
  rw [expires_of_denotes hdenotes (by decide)]
  decide

end SigningKey

end ExperimentKpi
