/-
# Requests without credentials

A header lets a request through if it presents a token that verifies and whose subject is the id of a live
user (`IsAuthentic`, `App.exists_authenticate_iff`). A request to an operation that has no such header is
answered with 401 before anything else of it is looked at, and what the answer says depends on the
header, the key and the table of users alone (`App.handle_unauthenticated`).

Key definitions: `IsAuthentic`.
Key theorems: `tokenUser_ok_iff`, `App.exists_authenticate_iff`, `App.handle_unauthenticated`.
-/
import ExperimentKpi.Proofs.Api.Frame
import ExperimentKpi.Proofs.Api.Interleaving

namespace ExperimentKpi

/-! ### Headers that present a token -/

namespace Base64Url

/-- Letters may stand in a header. -/
theorem isHeaderChar_of_value? {c : Char} {n : Nat} (h : value? c = some n) :
    isHeaderChar c = true := by
  have hrange : ∀ {low high : Char}, low ≤ c ∧ c ≤ high → ' ' ≤ low → high ≤ '~' →
      isHeaderChar c = true := by
    intro low high hc hlow hhigh
    simp only [isHeaderChar, Bool.or_eq_true, Bool.and_eq_true, decide_eq_true_eq]
    exact .inr ⟨Char.le_trans hlow hc.1, Char.le_trans hc.2 hhigh⟩
  unfold value? at h
  split at h
  · exact hrange ‹_› (by decide) (by decide)
  · split at h
    · exact hrange ‹_› (by decide) (by decide)
    · split at h
      · exact hrange ‹_› (by decide) (by decide)
      · split at h
        · rename_i hc
          rw [hc]
          decide
        · split at h
          · rename_i hc
            rw [hc]
            decide
          · cases h

/-- What can be decoded may stand in a header. -/
theorem forall_isHeaderChar_of_decode? {s : List Char} {bytes : List UInt8}
    (h : decode? s = some bytes) : ∀ c ∈ s, isHeaderChar c = true := by
  fun_induction decode? s generalizing bytes with
  | case1 a b c d r ih =>
    simp only [Option.bind_eq_bind, Option.bind_eq_some_iff] at h
    obtain ⟨_, ha, _, hb, _, hc, _, hd, rest, hr, -⟩ := h
    simp only [List.forall_mem_cons]
    exact ⟨isHeaderChar_of_value? ha, isHeaderChar_of_value? hb, isHeaderChar_of_value? hc,
      isHeaderChar_of_value? hd, ih hr⟩
  | case2 a b c =>
    simp only [Option.bind_eq_bind, Option.bind_eq_some_iff] at h
    obtain ⟨_, ha, _, hb, _, hc, -⟩ := h
    simp only [List.forall_mem_cons]
    exact ⟨isHeaderChar_of_value? ha, isHeaderChar_of_value? hb, isHeaderChar_of_value? hc,
      List.forall_mem_nil _⟩
  | case3 a b =>
    simp only [Option.bind_eq_bind, Option.bind_eq_some_iff] at h
    obtain ⟨_, ha, _, hb, -⟩ := h
    simp only [List.forall_mem_cons]
    exact ⟨isHeaderChar_of_value? ha, isHeaderChar_of_value? hb, List.forall_mem_nil _⟩
  | case4 => cases h
  | case5 => exact List.forall_mem_nil _

end Base64Url

namespace SigningKey

theorem eq_of_parts? {token header claims signature : List Char}
    (h : parts? token = some (header, claims, signature)) :
    token = header ++ '.' :: (claims ++ '.' :: signature) := by
  have hjoin := Text.intercalate_splitAt '.' token
  unfold parts? at h
  split at h
  · rename_i hparts
    cases h
    rw [hparts] at hjoin
    simpa [List.intercalate] using hjoin.symm
  · cases h

theorem forall_isHeaderChar_of_decodePart? {s : List Char} {raw : RawJson}
    (h : decodePart? s = some raw) : ∀ c ∈ s, isHeaderChar c = true := by
  obtain ⟨bytes, hbytes, -⟩ := Option.bind_eq_some_iff.mp h
  exact Base64Url.forall_isHeaderChar_of_decode? hbytes

/-- A token that verifies may stand in a header. -/
theorem forall_isHeaderChar_of_verify? {key : SigningKey} {now : Int} {token : String}
    {claims : Claims} (h : key.verify? now token = some claims) :
    ∀ c ∈ token.toList, isHeaderChar c = true := by
  simp only [verify?, Option.bind_eq_bind, Option.bind_eq_some_iff] at h
  obtain ⟨⟨header, body, signature⟩, hparts, _, hheader, _, -, _, hsignature, _, hbody, -⟩ := h
  have hsigned : signature = tokenSignature key.secret (header ++ '.' :: body) := by
    by_contra hne
    simp [guard, hne] at hsignature
  have hdot : isHeaderChar '.' = true := by decide
  have hletter : ∀ bytes, ∀ c ∈ Base64Url.encode bytes, isHeaderChar c = true :=
    Base64Url.forall_mem_encode (by decide)
  rw [eq_of_parts? hparts, hsigned]
  intro c hc
  simp only [List.mem_append, List.mem_cons] at hc
  rcases hc with hc | rfl | hc | rfl | hc
  · exact forall_isHeaderChar_of_decodePart? hheader c hc
  · exact hdot
  · exact forall_isHeaderChar_of_decodePart? hbody c hc
  · exact hdot
  · exact hletter _ c hc

theorem verify_ok_iff {key : SigningKey} {now : Int} {token : String} {claims : Claims} :
    key.verify now token = .ok claims ↔ key.verify? now token = some claims := by
  unfold verify
  cases key.verify? now token with
  | none => exact ⟨nofun, nofun⟩
  | some c => exact ⟨fun h => congrArg some (Except.ok.inj h), fun h => congrArg Except.ok (Option.some.inj h)⟩

end SigningKey

theorem bearer?_ok_iff {authorization : Option String} {token : String} :
    bearer? authorization = .ok token ↔
      authorization = some ("Bearer " ++ token) ∧ ∀ c ∈ token.toList, isHeaderChar c = true := by
  unfold bearer?
  constructor
  · intro h
    split at h
    · cases h
    · rename_i header hheader
      obtain ⟨rfl, hchars⟩ := Option.filter_eq_some_iff.mp hheader
      dsimp only at h
      split at h
      · rename_i hscheme
        obtain ⟨rest, hrest⟩ := List.isPrefixOf_iff_prefix.mp hscheme
        rw [← hrest, List.drop_left] at h
        obtain rfl := Except.ok.inj h
        have heq : header = "Bearer " ++ String.ofList rest := by
          rw [← String.toList_inj, String.toList_append, ← hrest]
          exact congrArg ("Bearer ".toList ++ ·) String.toList_ofList.symm
        refine ⟨congrArg some heq, fun c hc => ?_⟩
        rw [String.toList_ofList] at hc
        exact List.all_eq_true.mp hchars c (hrest ▸ List.mem_append_right _ hc)
      · cases h
  · rintro ⟨rfl, hchars⟩
    have hall : ("Bearer " ++ token).toList.all isHeaderChar = true := by
      rw [String.toList_append, List.all_append, Bool.and_eq_true]
      exact ⟨by decide, List.all_eq_true.mpr hchars⟩
    simp only [Option.filter, hall, if_true]
    simp [String.toList_append, List.isPrefixOf]

/-- A header names a user exactly if it presents a token that verifies and whose subject is the user's
id. -/
theorem tokenUser_ok_iff {key : SigningKey} {now id : Int} {authorization : Option String} :
    tokenUser key now authorization = .ok id ↔
      ∃ token claims, authorization = some ("Bearer " ++ token) ∧
        key.verify now token = .ok claims ∧ Text.int64? claims.subject.toList = some id := by
  unfold tokenUser
  rw [bind_ok_iff]
  constructor
  · rintro ⟨token, htoken, h⟩
    obtain ⟨claims, hclaims, h⟩ := bind_ok_iff.mp h
    refine ⟨token, claims, (bearer?_ok_iff.mp htoken).1, hclaims, ?_⟩
    split at h
    · rename_i hid
      rwa [← Except.ok.inj h]
    · cases h
  · rintro ⟨token, claims, hheader, hclaims, hid⟩
    have hchars := SigningKey.forall_isHeaderChar_of_verify? (SigningKey.verify_ok_iff.mp hclaims)
    refine ⟨token, bearer?_ok_iff.mpr ⟨hheader, hchars⟩, bind_ok_iff.mpr ⟨claims, hclaims, ?_⟩⟩
    rw [hid]

theorem status_of_bearer?_error {authorization : Option String} {failure : Failure}
    (h : bearer? authorization = .error failure) : failure.response.status = 401 := by
  unfold bearer? at h
  split at h
  · cases h
    rfl
  · dsimp only at h
    split at h
    · cases h
    · cases h
      rfl

theorem SigningKey.status_of_verify_error {key : SigningKey} {now : Int} {token : String}
    {failure : Failure} (h : key.verify now token = .error failure) :
    failure.response.status = 401 := by
  unfold verify at h
  split at h
  · cases h
  · cases h
    rfl

/-- A header that names no user is refused as unauthorized. -/
theorem status_of_tokenUser_error {key : SigningKey} {now : Int} {authorization : Option String}
    {failure : Failure} (h : tokenUser key now authorization = .error failure) :
    failure.response.status = 401 := by
  unfold tokenUser at h
  cases hbearer : bearer? authorization with
  | error e =>
    rw [bind_of_error hbearer] at h
    cases h
    exact status_of_bearer?_error hbearer
  | ok token =>
    rw [bind_of_ok hbearer] at h
    cases hverify : key.verify now token with
    | error e =>
      rw [bind_of_error hverify] at h
      cases h
      exact SigningKey.status_of_verify_error hverify
    | ok claims =>
      rw [bind_of_ok hverify] at h
      split at h
      · cases h
      · cases h
        rfl

/-! ### Users -/

/-- The header presents a token that verifies, and its subject is the id of a user who is live. -/
def IsAuthentic (key : SigningKey) (users : List UserRow) (now : Int)
    (authorization : Option String) : Prop :=
  ∃ token claims, authorization = some ("Bearer " ++ token) ∧ key.verify now token = .ok claims ∧
    ∃ u ∈ users, Text.int64? claims.subject.toList = some u.id ∧ u.deleted = false

namespace Store

variable {s : Store} {id : Int}

theorem exists_user_iff :
    (∃ user, s.user id = .ok user) ↔ ∃ u ∈ s.users, u.id = id ∧ u.deleted = false := by
  unfold Store.user
  split
  · rename_i u hu
    refine ⟨fun _ => ⟨u, List.mem_of_find?_eq_some hu, ?_⟩, fun _ => ⟨_, rfl⟩⟩
    simpa using List.find?_some hu
  · rename_i hnone
    refine ⟨nofun, fun ⟨u, hu, hid, hd⟩ => ?_⟩
    simpa [hid, hd] using List.find?_eq_none.mp hnone u hu

theorem eq_unknownUser_of_user_error {failure : Failure} (h : s.user id = .error failure) :
    failure = .unknownUser := by
  unfold Store.user at h
  split at h <;> cases h
  rfl

end Store

namespace App

variable {app app' : App} {now : Int} {r : Request} {authorization : Option String}

theorem database_of_isOpen (h : app.isOpen = true) : app.database = .ok app.store :=
  if_pos h

/-- **A user is found exactly for an authentic header.** -/
theorem exists_authenticate_iff (h : app.isOpen = true) :
    (∃ user, app.authenticate now authorization = .ok user) ↔
      IsAuthentic app.key app.store.users now authorization := by
  constructor
  · rintro ⟨user, huser⟩
    obtain ⟨id, hid, huser⟩ := bind_ok_iff.mp huser
    rw [bind_of_ok (database_of_isOpen h)] at huser
    obtain ⟨u, hu, rfl, hd⟩ := Store.exists_user_iff.mp ⟨user, huser⟩
    obtain ⟨token, claims, hheader, hclaims, hsubject⟩ := tokenUser_ok_iff.mp hid
    exact ⟨token, claims, hheader, hclaims, u, hu, hsubject, hd⟩
  · rintro ⟨token, claims, hheader, hclaims, u, hu, hsubject, hd⟩
    obtain ⟨user, huser⟩ := Store.exists_user_iff.mpr ⟨u, hu, rfl, hd⟩
    have hid : tokenUser app.key now authorization = .ok u.id :=
      tokenUser_ok_iff.mpr ⟨token, claims, hheader, hclaims, hsubject⟩
    refine ⟨user, ?_⟩
    rw [authenticate, bind_of_ok hid, bind_of_ok (database_of_isOpen h), huser]

theorem status_of_authenticate_error (h : app.isOpen = true) {failure : Failure}
    (hauth : app.authenticate now authorization = .error failure) :
    failure.response.status = 401 := by
  unfold authenticate at hauth
  cases hid : tokenUser app.key now authorization with
  | error e =>
    rw [bind_of_error hid] at hauth
    cases hauth
    exact status_of_tokenUser_error hid
  | ok id =>
    rw [bind_of_ok hid, bind_of_ok (database_of_isOpen h)] at hauth
    rw [Store.eq_unknownUser_of_user_error hauth]
    rfl

/-- Who a header names depends on the key and on the table of users alone. -/
theorem authenticate_eq (h : app.isOpen = true) (h' : app'.isOpen = true) (hkey : app'.key = app.key)
    (husers : app'.store.users = app.store.users) :
    app'.authenticate now authorization = app.authenticate now authorization := by
  have huser : app'.store.user = app.store.user := by
    funext id
    rw [Store.user, husers, Store.user]
  unfold authenticate
  rw [hkey, database_of_isOpen h, database_of_isOpen h']
  show (tokenUser app.key now authorization >>= app'.store.user) = _ >>= app.store.user
  rw [huser]

/-! ### Requests -/

theorem status_delivered (r : Request) (response : Response) :
    (r.delivered response).status = response.status := by
  unfold Request.delivered
  split <;> rfl

/-- A request to an operation whose user is not found is answered with why. -/
theorem handle_of_authenticate_error {route : Route} {endpoint : Endpoint} {failure : Failure}
    (hroute : Route.ofSegments? r.segments = some route)
    (hendpoint : route.endpoint? r.method = some endpoint)
    (hauth : app.authenticate now r.authorization = .error failure) :
    app.handle now r = (app, r.delivered failure.response) := by
  have hmethod : r.method ≠ .options := by
    intro hm
    rw [hm] at hendpoint
    cases route <;> cases hendpoint
  have hop : app.operationOf now r = .error failure.response := by
    rw [operationOf_eq_serviceOperation hmethod hroute hendpoint, serviceOperation, hauth]
  rw [handle_eq_operationOf, hop]

/-- **Without credentials nothing is told and nothing is done.** A request to an operation, whatever its
path, query string and body say, whose header is not authentic is answered with 401; the answer is
the same for every two stores that have the same users; and neither changes. -/
theorem handle_unauthenticated (app app' : App) (now : Int) (r : Request) (route : Route)
    (endpoint : Endpoint) (hopen : app.isOpen = true) (hopen' : app'.isOpen = true)
    (hkey : app'.key = app.key) (husers : app'.store.users = app.store.users)
    (hroute : Route.ofSegments? r.segments = some route)
    (hendpoint : route.endpoint? r.method = some endpoint)
    (hforged : ¬ IsAuthentic app.key app.store.users now r.authorization) :
    (app.handle now r).2.status = 401 ∧ (app'.handle now r).2 = (app.handle now r).2 ∧
      (app.handle now r).1 = app ∧ (app'.handle now r).1 = app' := by
  cases hauth : app.authenticate now r.authorization with
  | ok user => exact absurd ((exists_authenticate_iff hopen).mp ⟨user, hauth⟩) hforged
  | error failure =>
    have hauth' := (authenticate_eq hopen hopen' hkey husers).trans hauth
    rw [handle_of_authenticate_error hroute hendpoint hauth,
      handle_of_authenticate_error hroute hendpoint hauth', status_delivered]
    exact ⟨status_of_authenticate_error hopen hauth, rfl, rfl, rfl⟩

/-! ### A token of nobody -/

/-- The request to delete the KPI of no experiment, with a token that was issued to nobody. -/
def forgery : Request :=
  ⟨.delete, "/api/v2/experiments/first/kpis", some ("Bearer " ++ withTwoKpis.key.issue 0 2 "eve"), []⟩

theorem not_isAuthentic_forgery :
    ¬ IsAuthentic withTwoKpis.key withTwoKpis.store.users 0 forgery.authorization := by
  have htoken : tokenUser withTwoKpis.key 0 forgery.authorization = .ok 2 :=
    tokenUser_issue (by decide) (by decide) (by decide) (by decide)
  rintro ⟨token, claims, hheader, hclaims, u, hu, hsubject, -⟩
  have hid : tokenUser withTwoKpis.key 0 forgery.authorization = .ok u.id :=
    tokenUser_ok_iff.mpr ⟨token, claims, hheader, hclaims, hsubject⟩
  have hnobody : ∀ u ∈ withTwoKpis.store.users, u.id ≠ 2 := by decide
  rw [htoken] at hid
  exact hnobody u hu (Except.ok.inj hid).symm

theorem handle_unauthenticated_forgery :
    ¬ IsAuthentic withTwoKpis.key withTwoKpis.store.users 0 forgery.authorization ∧
      (withTwoKpis.handle 0 forgery).2.status = 401 ∧
      ∃ app : App, app.store.users = withTwoKpis.store.users ∧ app.store.kpis = [] ∧
        (app.handle 0 forgery).2 = (withTwoKpis.handle 0 forgery).2 := by
  let app : App :=
    { withTwoKpis with store := { Store.initial with users := withTwoKpis.store.users } }
  have h := handle_unauthenticated withTwoKpis app 0 forgery (.experimentKpi "first".toList)
    (.remove "first".toList) rfl rfl rfl rfl (by decide) rfl not_isAuthentic_forgery
  exact ⟨not_isAuthentic_forgery, h.1, app, rfl, rfl, h.2.1⟩

end App

end ExperimentKpi
