/-
# Issued tokens are accepted

The parts of a token are bytes in Base64, which decoding recovers (`Base64Url.decode?_encode`) and in
which no dot stands, so a token falls into the parts that it was made of (`SigningKey.parts?_signToken`).
The claims that were issued are read back from their text, and the signature is the one that they are
checked against: until its expiry, an issued token names the user that it was issued to
(`tokenUser_issue`).

Key theorems: `Base64Url.decode?_encode`, `SigningKey.verify?_issue`, `tokenUser_issue`.
-/
import ExperimentKpi.Api.App
import ExperimentKpi.Proofs.Json.RoundTrip
import ExperimentKpi.Proofs.Text.Cutting
import ExperimentKpi.Proofs.Text.Decimal
import Mathlib.Data.Option.Basic

namespace ExperimentKpi

/-- The bytes of a text are read as the text. -/
@[simp] theorem Text.ofUtf8?_utf8 (s : String) : ofUtf8? (utf8 s) = some s := by
  have hbytes : (⟨(utf8 s).toArray⟩ : ByteArray) = s.toByteArray := by
    simp [utf8]
  rw [ofUtf8?, String.fromUTF8?, dif_pos (by rw [hbytes]; exact s.isValidUTF8)]
  simp only [hbytes]
  rfl

theorem Text.utf8_ofList_cons (c : Char) (s : List Char) :
    utf8 (String.ofList (c :: s)) = String.utf8EncodeChar c ++ utf8 (String.ofList s) := by
  simp [utf8, List.utf8Encode]

/-- No character takes more than four bytes. -/
theorem Text.length_utf8_le (s : List Char) : (utf8 (String.ofList s)).length ≤ 4 * s.length := by
  induction s with
  | nil => simp [utf8]
  | cons c s ih =>
    have := c.utf8Size_le_four
    rw [utf8_ofList_cons, List.length_append, String.length_utf8EncodeChar, List.length_cons]
    omega

namespace Base64Url

theorem value?_letter : ∀ {n : Nat}, n < 64 → value? (letter n) = some n := by
  decide

/-- Decoding recovers the bytes. -/
theorem decode?_encode (bytes : List UInt8) : decode? (encode bytes) = some bytes := by
  fun_induction encode bytes with
  | case1 a b c r n ih =>
    have ha := a.toNat_lt
    have hb := b.toNat_lt
    have hc := c.toNat_lt
    have hn : n / 262144 * 262144 + n / 4096 % 64 * 4096 + n / 64 % 64 * 64 + n % 64 = n := by omega
    have h1 : UInt8.ofNat (n / 65536) = a := by
      rw [show n / 65536 = a.toNat by omega, UInt8.ofNat_toNat]
    have h2 : UInt8.ofNat (n / 256 % 256) = b := by
      rw [show n / 256 % 256 = b.toNat by omega, UInt8.ofNat_toNat]
    have h3 : UInt8.ofNat (n % 256) = c := by
      rw [show n % 256 = c.toNat by omega, UInt8.ofNat_toNat]
    have hl1 : value? (letter (n / 262144)) = some (n / 262144) := value?_letter (by omega)
    have hl2 : value? (letter (n / 4096 % 64)) = some (n / 4096 % 64) := value?_letter (by omega)
    have hl3 : value? (letter (n / 64 % 64)) = some (n / 64 % 64) := value?_letter (by omega)
    have hl4 : value? (letter (n % 64)) = some (n % 64) := value?_letter (by omega)
    simp [decode?, hl1, hl2, hl3, hl4, ih, hn, h1, h2, h3]
  | case2 a b n =>
    have ha := a.toNat_lt
    have hb := b.toNat_lt
    have hn : n / 1024 * 4096 + n / 16 % 64 * 64 + n % 16 * 4 = n * 4 := by omega
    have h0 : n * 4 % 4 = 0 := by omega
    have h1 : UInt8.ofNat (n * 4 / 1024) = a := by
      rw [show n * 4 / 1024 = a.toNat by omega, UInt8.ofNat_toNat]
    have h2 : UInt8.ofNat (n * 4 / 4 % 256) = b := by
      rw [show n * 4 / 4 % 256 = b.toNat by omega, UInt8.ofNat_toNat]
    have hl1 : value? (letter (n / 1024)) = some (n / 1024) := value?_letter (by omega)
    have hl2 : value? (letter (n / 16 % 64)) = some (n / 16 % 64) := value?_letter (by omega)
    have hl3 : value? (letter (n % 16 * 4)) = some (n % 16 * 4) := value?_letter (by omega)
    simp only [decode?, hl1, hl2, hl3, Option.bind_eq_bind, Option.bind_some, hn, h0, if_true, h1, h2]
    rfl
  | case3 a =>
    have ha := a.toNat_lt
    have hn : a.toNat / 4 * 64 + a.toNat % 4 * 16 = a.toNat * 16 := by omega
    have h0 : a.toNat * 16 % 16 = 0 := by omega
    have h1 : UInt8.ofNat (a.toNat * 16 / 16) = a := by
      rw [Nat.mul_div_cancel _ (by decide), UInt8.ofNat_toNat]
    have hl1 : value? (letter (a.toNat / 4)) = some (a.toNat / 4) := value?_letter (by omega)
    have hl2 : value? (letter (a.toNat % 4 * 16)) = some (a.toNat % 4 * 16) :=
      value?_letter (by omega)
    simp only [decode?, hl1, hl2, Option.bind_eq_bind, Option.bind_some, hn, h0, if_true, h1]
    rfl
  | case4 => rfl

/-- What holds of every letter holds of all that encoding writes. -/
theorem forall_mem_encode {P : Char → Prop} (h : ∀ {n : Nat}, n < 64 → P (letter n))
    (bytes : List UInt8) : ∀ c ∈ encode bytes, P c := by
  fun_induction encode bytes with
  | case1 a b c r n ih =>
    have ha := a.toNat_lt
    have hb := b.toNat_lt
    have hc := c.toNat_lt
    simp only [List.forall_mem_cons]
    exact ⟨h (by omega), h (by omega), h (by omega), h (by omega), ih⟩
  | case2 a b n =>
    have ha := a.toNat_lt
    have hb := b.toNat_lt
    simp only [List.forall_mem_cons]
    exact ⟨h (by omega), h (by omega), h (by omega), nofun⟩
  | case3 a =>
    have ha := a.toNat_lt
    simp only [List.forall_mem_cons]
    exact ⟨h (by omega), h (by omega), nofun⟩
  | case4 => nofun

end Base64Url

/-! ### Parts of tokens -/

namespace SigningKey

/-- A signed token falls into the parts that it was made of. -/
theorem parts?_signToken (secret : String) (claims : Json) :
    parts? (signToken secret claims).toList =
      some (Base64Url.encode (Text.utf8 tokenHeader), Base64Url.encode (Text.utf8 claims.compact),
        tokenSignature secret (Base64Url.encode (Text.utf8 tokenHeader) ++
          '.' :: Base64Url.encode (Text.utf8 claims.compact))) := by
  have hdot : ∀ bytes, ∀ c ∈ Base64Url.encode bytes, (c == '.') = false :=
    Base64Url.forall_mem_encode (by decide)
  simp only [parts?, signToken, String.toList_ofList, List.append_assoc, List.cons_append]
  rw [Text.splitAt_append_cons (hdot _) (beq_self_eq_true _),
    Text.splitAt_append_cons (hdot _) (beq_self_eq_true _), tokenSignature,
    Text.splitAt_of_forall (hdot _)]

/-- A value whose numbers read back is read from its text in Base64. -/
theorem decodePart?_encode {v : Json} (h : ∀ n ∈ v.numbers, n.ReadsBack) :
    decodePart? (Base64Url.encode (Text.utf8 v.compact)) = some v.toRaw := by
  simp [decodePart?, Base64Url.decode?_encode, RawJson.parse?_compact h]

theorem isInt64_bmod_wordSize (z : Int) : IsInt64 (z.bmod wordSize) := by
  have hlow := Int.le_bmod (x := z) (m := wordSize) (by decide)
  have hhigh := Int.bmod_lt (x := z) (m := wordSize) (by decide)
  simp only [IsInt64, int64Bound, wordSize] at *
  omega

theorem guard_of {p : Prop} [Decidable p] (h : p) : (guard p : Option Unit) = some () :=
  if_pos h

theorem Claims.ofRaw?_toJson {c : Claims} (he : IsInt64 c.expires) (hi : IsInt64 c.issued) :
    Claims.ofRaw? c.toJson.toRaw = some c := by
  simp only [Claims.ofRaw?, Claims.toJson, Json.toRaw, Json.membersToRaw, Option.bind_eq_bind,
    Option.bind_eq_some_iff]
  refine ⟨(), guard_of rfl, c.subject, rfl, c.username, rfl, c.expires, ?_, c.issued, ?_,
    (), guard_of rfl, rfl⟩
  · simp [RawMembers.required?, RawMembers.valuesAt, Claims.int64?, Json.int, Json.toRaw, he]
  · simp [RawMembers.required?, RawMembers.valuesAt, Claims.int64?, Json.int, Json.toRaw, hi]

/-- A token with a fitting signature verifies as its claims, until it expires. -/
theorem verify?_of_parts? {key : SigningKey} {token : String} {header claims signature : List Char}
    {now : Int} {h r : RawJson} {c : Claims}
    (hparts : parts? token.toList = some (header, claims, signature))
    (hsignature : signature = tokenSignature key.secret (header ++ '.' :: claims))
    (hheader : decodePart? header = some h) (haccepted : isAcceptedHeader h = true)
    (hclaims : decodePart? claims = some r) (hc : Claims.ofRaw? r = some c)
    (hfresh : 0 ≤ c.expires ∧ now - leeway ≤ c.expires) : key.verify? now token = some c := by
  simp only [verify?, hparts, Option.bind_eq_bind, Option.bind_some, Option.bind_eq_some_iff]
  exact ⟨h, hheader, (), guard_of haccepted, (), guard_of hsignature, r, hclaims, c, hc, (),
    guard_of hfresh, rfl⟩

/-- **An issued token verifies as what it was issued for**, until it expires. -/
theorem verify?_issue {key : SigningKey} {issued now user : Int} {username : String}
    (hi : IsInt64 issued) (hpositive : 0 ≤ (key.claims issued user username).expires)
    (hfresh : now - leeway ≤ (key.claims issued user username).expires) :
    key.verify? now (key.issue issued user username) = some (key.claims issued user username) := by
  have he : IsInt64 (key.claims issued user username).expires := isInt64_bmod_wordSize _
  have hfits : ∀ {z : Int}, IsInt64 z → (Number.int z).Fits := by
    intro z hz
    simp only [IsInt64, Number.Fits, int64Bound, Number.maxWord, wordSize] at *
    omega
  have hheader : decodePart? (Base64Url.encode (Text.utf8 tokenHeader)) = some _ :=
    decodePart?_encode (by simp [Json.numbers, Json.membersNumbers])
  have hclaims : decodePart? (Base64Url.encode
      (Text.utf8 (key.claims issued user username).toJson.compact)) =
        some (key.claims issued user username).toJson.toRaw := by
    refine decodePart?_encode fun n hn => ?_
    have hn' : n = .int (key.claims issued user username).expires ∨ n = .int issued := by
      simpa [Claims.toJson, Json.numbers, Json.membersNumbers, Json.int, claims] using hn
    rcases hn' with rfl | rfl
    · exact Number.int_readsBack (hfits he)
    · exact Number.int_readsBack (hfits hi)
  have haccepted : isAcceptedHeader
      (Json.obj [("typ", .str "JWT"), ("alg", .str "HS256")]).toRaw = true := by decide
  exact verify?_of_parts? (parts?_signToken _ _) rfl hheader haccepted hclaims
    (Claims.ofRaw?_toJson he hi) ⟨hpositive, hfresh⟩

end SigningKey

/-- What may stand in a header includes all that a token is made of. -/
theorem SigningKey.forall_isHeaderChar_issue (key : SigningKey) (issued user : Int)
    (username : String) : ∀ c ∈ (key.issue issued user username).toList, isHeaderChar c = true := by
  have hletter : ∀ bytes, ∀ c ∈ Base64Url.encode bytes, isHeaderChar c = true :=
    Base64Url.forall_mem_encode (by decide)
  have hdot : isHeaderChar '.' = true := by decide
  intro c hc
  simp only [issue, signToken, tokenSignature, String.toList_ofList, List.append_assoc,
    List.cons_append, List.mem_append, List.mem_cons] at hc
  rcases hc with hc | rfl | hc | rfl | hc
  · exact hletter _ c hc
  · exact hdot
  · exact hletter _ c hc
  · exact hdot
  · exact hletter _ c hc

/-- **A header that presents an issued token names the user that it was issued to**, until the token
expires. -/
theorem tokenUser_issue {key : SigningKey} {issued now user : Int} {username : String}
    (hi : IsInt64 issued) (hu : IsInt64 user)
    (hpositive : 0 ≤ (key.claims issued user username).expires)
    (hfresh : now - SigningKey.leeway ≤ (key.claims issued user username).expires) :
    tokenUser key now (some ("Bearer " ++ key.issue issued user username)) = .ok user := by
  have hheader : ("Bearer " ++ key.issue issued user username).toList.all isHeaderChar = true := by
    rw [String.toList_append, List.all_append, Bool.and_eq_true]
    exact ⟨by decide, List.all_eq_true.mpr (key.forall_isHeaderChar_issue issued user username)⟩
  have hbearer : bearer? (some ("Bearer " ++ key.issue issued user username)) =
      .ok (key.issue issued user username) := by
    simp only [bearer?, Option.filter, hheader, if_true]
    simp [String.toList_append, List.isPrefixOf]
  have hverify := SigningKey.verify?_issue hi hpositive hfresh
  have hsubject : Text.int64? (key.claims issued user username).subject.toList = some user :=
    Text.int64?_toString hu
  simp only [tokenUser, hbearer, SigningKey.verify, bind, Except.bind, hverify, hsubject]

end ExperimentKpi
