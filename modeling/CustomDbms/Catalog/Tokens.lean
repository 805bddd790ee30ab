/-
  CustomDbms.Catalog.Tokens
  ─────────────────────────
  **WHOSE TOKEN IT IS.**

  `IssueToken` writes the user id between quotes without escaping it, and
  `ValidateTokenAndGetUser` reads it back up to the first quote.

    • `validateTokenAndGetUser_issueToken` — of a token only the reading of its
      claims is left, signature and encoding always pass.
    • `extractStringClaim_payloadJson` — the account read is the user id up to
      its first quote.
    • `token_identity_iff` — so the token names its owner exactly when the user
      id holds no quote.
-/
import CustomDbms.Catalog.Rbac
import Mathlib.Data.List.TakeWhile

namespace CustomDbms.Catalog

open CustomDbms.Common CustomDbms.Lib CustomDbms.Parser

/-! ## §1. Runs of a controller. -/

/-- A call that can change an `AccessController`. -/
inductive Operation where
  | registerAccount (userId password group salt : Str)
  | createGroup (groupName : Str)
  | addUserToGroup (userId groupName : Str)
  | grantDefault (databaseName : Str) (permission : Permission)
  | revokeDefault (databaseName : Str) (permission : Permission)
  | grantGroup (databaseName groupName : Str) (permission : Permission)
  | revokeGroup (databaseName groupName : Str) (permission : Permission)
  | grantUser (databaseName userId : Str) (permission : Permission)
  | revokeUser (databaseName userId : Str) (permission : Permission)

/-- One call. -/
def Operation.run (hmac : Hmac) (ac : AccessController) (io : PersistOutcome) :
    Operation → AccessController × Outcome
  | .registerAccount userId password group salt =>
      Catalog.registerAccount hmac ac userId password group salt io
  | .createGroup groupName => Catalog.createGroup ac groupName io
  | .addUserToGroup userId groupName => Catalog.addUserToGroup ac userId groupName io
  | .grantDefault databaseName permission => Catalog.grantDefault ac databaseName permission io
  | .revokeDefault databaseName permission => Catalog.revokeDefault ac databaseName permission io
  | .grantGroup databaseName groupName permission =>
      Catalog.grantGroup ac databaseName groupName permission io
  | .revokeGroup databaseName groupName permission =>
      Catalog.revokeGroup ac databaseName groupName permission io
  | .grantUser databaseName userId permission =>
      Catalog.grantUser ac databaseName userId permission io
  | .revokeUser databaseName userId permission =>
      Catalog.revokeUser ac databaseName userId permission io

/-- A sequence of calls, each with the way its `Persist` ends. -/
def runOperations (hmac : Hmac) (ac : AccessController) : List (Operation × PersistOutcome) →
    AccessController
  | [] => ac
  | (op, io) :: rest => runOperations hmac (op.run hmac ac io).1 rest

/-- The later controller has the secret and at least the accounts of the
earlier one. -/
structure Extends (ac ac' : AccessController) : Prop where
  secret : ac'.jwtSecret = ac.jwtSecret
  accounts : ∀ userId, ac.accounts.contains userId = true → ac'.accounts.contains userId = true

theorem Extends.refl (ac : AccessController) : Extends ac ac := ⟨rfl, fun _ h => h⟩

theorem Extends.trans {a b c : AccessController} (h : Extends a b) (h' : Extends b c) :
    Extends a c :=
  ⟨h'.secret.trans h.secret, fun userId hu => h'.accounts userId (h.accounts userId hu)⟩

theorem Extends.updateGrant (ac : AccessController) (databaseName : Str) (target : GrantTarget)
    (f : BitVec 32 → BitVec 32) : Extends ac (ac.updateGrant databaseName target f) :=
  ⟨rfl, fun _ h => h⟩

theorem extends_registerAccount (hmac : Hmac) (ac : AccessController)
    (userId password group salt : Str) (io : PersistOutcome) :
    Extends ac (registerAccount hmac ac userId password group salt io).1 := by
  unfold registerAccount
  split
  · exact Extends.refl ac
  · split
    · exact Extends.refl ac
    · rename_i hnew
      have hfree : ac.accounts.find? userId = none := by simpa [Dict.contains] using hnew
      refine ⟨rfl, fun u hu => ?_⟩
      show (ac.accounts.emplace userId _).contains u = true
      rw [Dict.contains, Dict.find?_emplace hfree]
      split
      · rfl
      · exact hu

theorem extends_addUserToGroup (ac : AccessController) (userId groupName : Str)
    (io : PersistOutcome) : Extends ac (addUserToGroup ac userId groupName io).1 := by
  unfold addUserToGroup
  split
  · exact Extends.refl ac
  · split
    · exact Extends.refl ac
    · refine ⟨rfl, fun u hu => ?_⟩
      show (ac.accounts.modify userId _).contains u = true
      rw [Dict.contains, Dict.find?_modify]
      rw [Dict.contains] at hu
      split
      · rename_i heq
        rw [heq] at hu
        simpa using hu
      · exact hu

theorem extends_revokeGrant (ac : AccessController) (databaseName : Str) (target : GrantTarget)
    (permission : Permission) (io : PersistOutcome) :
    Extends ac (revokeGrant ac databaseName target permission io).1 := by
  unfold revokeGrant
  split
  · exact Extends.refl ac
  · exact Extends.updateGrant ac databaseName target _

/-- **No call forgets the secret or an account.** -/
theorem Operation.run_extends (hmac : Hmac) (ac : AccessController) (io : PersistOutcome)
    (op : Operation) : Extends ac (op.run hmac ac io).1 := by
  cases op with
  | registerAccount userId password group salt =>
      exact extends_registerAccount hmac ac userId password group salt io
  | addUserToGroup userId groupName => exact extends_addUserToGroup ac userId groupName io
  | createGroup groupName =>
      show Extends ac (Catalog.createGroup ac groupName io).1
      unfold Catalog.createGroup
      split
      · exact Extends.refl ac
      · exact ⟨rfl, fun _ h => h⟩
  | grantDefault databaseName permission =>
      show Extends ac (Catalog.grantDefault ac databaseName permission io).1
      unfold Catalog.grantDefault
      split
      · exact Extends.refl ac
      · exact Extends.updateGrant ac databaseName _ _
  | grantGroup databaseName groupName permission =>
      show Extends ac (Catalog.grantGroup ac databaseName groupName permission io).1
      unfold Catalog.grantGroup
      split
      · exact Extends.refl ac
      · exact Extends.updateGrant ac databaseName _ _
  | grantUser databaseName userId permission =>
      show Extends ac (Catalog.grantUser ac databaseName userId permission io).1
      unfold Catalog.grantUser
      split
      · exact Extends.refl ac
      · exact Extends.updateGrant ac databaseName _ _
  | revokeDefault databaseName permission => exact extends_revokeGrant ac databaseName _ _ io
  | revokeGroup databaseName groupName permission => exact extends_revokeGrant ac databaseName _ _ io
  | revokeUser databaseName userId permission => exact extends_revokeGrant ac databaseName _ _ io

/-- **Nor does a sequence of calls.** -/
theorem runOperations_extends (hmac : Hmac) (ac : AccessController)
    (ops : List (Operation × PersistOutcome)) : Extends ac (runOperations hmac ac ops) := by
  induction ops generalizing ac with
  | nil => exact Extends.refl ac
  | cons p ops ih =>
      obtain ⟨op, io⟩ := p
      exact (op.run_extends hmac ac io).trans (ih _)

/-! ## §2. Finding bytes. -/

theorem cut_append {c : Byte} {l : Str} (h : c ∉ l) (r : Str) :
    cut c (l ++ c :: r) = some (l, r) := by
  induction l with
  | nil => simp [cut]
  | cons d l ih =>
      have hd : d ≠ c := by rintro rfl; exact h (by simp)
      rw [List.cons_append, cut, if_neg hd, ih fun hl => h (by simp [hl])]
      rfl

theorem cut_takeWhile (c : Byte) (s r : Str) :
    ∃ r', cut c (s ++ c :: r) = some (s.takeWhile (· ≠ c), r') := by
  induction s with
  | nil => exact ⟨r, by simp [cut]⟩
  | cons d s ih =>
      rw [List.cons_append, cut]
      by_cases hd : d = c
      · exact ⟨s ++ c :: r, by simp [hd]⟩
      · obtain ⟨r', hr⟩ := ih
        refine ⟨r', ?_⟩
        rw [if_neg hd, hr]
        simp [hd]

/-- A marker is not found where its first byte does not stand. -/
theorem findAfter_skip {c : Byte} {marker l : Str} (h : c ∉ l) (r : Str) :
    findAfter (c :: marker) (l ++ r) = findAfter (c :: marker) r := by
  induction l with
  | nil => rfl
  | cons d l ih =>
      have hd : c ≠ d := by rintro rfl; exact h (by simp)
      rw [List.cons_append, findAfter, stripStart, if_neg hd]
      exact ih fun hl => h (by simp [hl])

theorem findAfter_here (marker r : Str) : findAfter marker (marker ++ r) = some r := by
  cases hs : marker ++ r with
  | nil =>
      rw [findAfter, ← hs]
      exact stripStart_append marker r
  | cons c s =>
      rw [findAfter, ← hs, stripStart_append]

theorem findAfter_cons {marker s : Str} {c : Byte} (h : stripStart marker (c :: s) = none) :
    findAfter marker (c :: s) = findAfter marker s := by
  rw [findAfter, h]

/-- A marker inside a text is found. -/
theorem findAfter_append (l marker r : Str) : (findAfter marker (l ++ (marker ++ r))).isSome := by
  induction l with
  | nil => rw [List.nil_append, findAfter_here, Option.isSome_some]
  | cons c l ih =>
      rw [List.cons_append, findAfter]
      cases stripStart marker (c :: (l ++ (marker ++ r))) with
      | some tail => rfl
      | none => exact ih

/-! ## §3. Reading claims. -/

/-- The byte around a string of a claim. -/
def quote : Byte := byte '"'

/-- **The account a payload names is the user id up to its first quote.** -/
theorem extractStringClaim_payloadJson (userId : Str) (expiresUnix : Int64) :
    extractStringClaim (payloadJson userId expiresUnix) (str "sub")
      = some (userId.takeWhile (· ≠ quote)) := by
  have hfind : findAfter (str "\"" ++ str "sub" ++ str "\":\"") (payloadJson userId expiresUnix)
      = some (userId ++ quote :: (str ",\"exp\":" ++ intToString expiresUnix.toInt
          ++ str "\x7d")) := by
    have hjson : payloadJson userId expiresUnix
        = str "\x7b" ++ (str "\"" ++ str "sub" ++ str "\":\"" ++ (userId ++ quote
            :: (str ",\"exp\":" ++ intToString expiresUnix.toInt ++ str "\x7d"))) := by
      simp [payloadJson, str, quote]
    rw [hjson]
    show findAfter (quote :: _) _ = _
    rw [findAfter_skip (by decide)]
    exact findAfter_here _ _
  obtain ⟨r, hr⟩ := cut_takeWhile quote userId
    (str ",\"exp\":" ++ intToString expiresUnix.toInt ++ str "\x7d")
  rw [extractStringClaim, hfind]
  show (cut quote _).map Prod.fst = _
  rw [hr]
  rfl

/-- The opening quote of a user id without quotes does not start `"exp":`. -/
theorem stripStart_exp_userId {userId : Str} (h : quote ∉ userId) (r : Str) :
    stripStart (str "\"exp\":") (quote :: (userId ++ quote :: (str "," ++ r))) = none := by
  rw [stripStart_eq_none]
  rintro ⟨t, ht⟩
  have htail : userId ++ quote :: (str "," ++ r) = str "exp" ++ quote :: (str ":" ++ t) :=
    (List.cons.inj ht).2.symm
  have hcut := cut_append h (str "," ++ r)
  rw [htail, cut_append (by decide)] at hcut
  have hr : str ":" ++ t = str "," ++ r := (Prod.mk.inj (Option.some.inj hcut)).2
  exact absurd (List.cons.inj hr).1 (by decide)

/-- Where the user id holds no quote, the first `"exp":` is that of the claim. -/
theorem findAfter_exp_payloadJson {userId : Str} (h : quote ∉ userId) (expiresUnix : Int64) :
    findAfter (str "\"exp\":") (payloadJson userId expiresUnix)
      = some (intToString expiresUnix.toInt ++ str "\x7d") := by
  have hjson : payloadJson userId expiresUnix
      = str "\x7b\"sub\":" ++ quote :: (userId ++ quote :: (str ","
          ++ (str "\"exp\":" ++ (intToString expiresUnix.toInt ++ str "\x7d")))) := by
    simp [payloadJson, str, quote]
  have hskip : ∀ r, findAfter (str "\"exp\":") (str "\x7b\"sub\":" ++ r)
      = findAfter (str "\"exp\":") r := by
    intro r
    rfl
  rw [hjson, hskip, findAfter_cons (stripStart_exp_userId h _)]
  show findAfter (quote :: _) _ = _
  rw [findAfter_skip h]
  show findAfter (str "\"exp\":") _ = _
  have hcomma : ∀ r, findAfter (str "\"exp\":") (quote :: (str "," ++ r))
      = findAfter (str "\"exp\":") r := by
    intro r
    rfl
  rw [hcomma, findAfter_here]

/-- The bytes of a printed number are those `ExtractNumericClaim` takes. -/
theorem isNumberByte_intToString (i : Int) : ∀ c ∈ intToString i, isNumberByte c = true := by
  have hdigit : ∀ c ∈ natToString i.natAbs, isNumberByte c = true := by
    intro c hc
    rw [isNumberByte, (natToString_digits i.natAbs).2.1 c hc]
    rfl
  unfold intToString
  split
  · intro c hc
    rcases List.mem_cons.mp hc with rfl | hc
    · decide
    · exact hdigit c hc
  · exact hdigit

theorem intToString_ne_nil (i : Int) : intToString i ≠ [] := by
  unfold intToString
  split
  · simp
  · exact (natToString_digits i.natAbs).1

/-- **Where the user id holds no quote, the expiry read is the one written.** -/
theorem extractNumericClaim_payloadJson {userId : Str} (h : quote ∉ userId)
    (expiresUnix : Int64) :
    extractNumericClaim (payloadJson userId expiresUnix) (str "exp") = some expiresUnix := by
  have hnumber := isNumberByte_intToString expiresUnix.toInt
  have hne := intToString_ne_nil expiresUnix.toInt
  have hdrop : (intToString expiresUnix.toInt ++ str "\x7d").dropWhile isSpace
      = intToString expiresUnix.toInt ++ str "\x7d" := by
    obtain ⟨c, cs, hc⟩ := List.exists_cons_of_ne_nil hne
    have hall : ∀ b : Byte, isNumberByte b = true → isSpace b = false := by decide +kernel
    have hspace : isSpace c = false := hall c (hnumber c (by simp [hc]))
    rw [hc, List.cons_append, List.dropWhile_cons, hspace]
    rfl
  have htake : (intToString expiresUnix.toInt ++ str "\x7d").takeWhile isNumberByte
      = intToString expiresUnix.toInt := by
    have hend : (str "\x7d").takeWhile isNumberByte = [] := by decide
    rw [List.takeWhile_append_of_pos hnumber, hend, List.append_nil]
  have hfind := findAfter_exp_payloadJson h expiresUnix
  have hmarker : str "\"" ++ str "exp" ++ str "\":" = str "\"exp\":" := by decide
  rw [extractNumericClaim, hmarker, hfind]
  dsimp only
  rw [hdrop, htake, if_neg hne, stoll_intToString]
  rfl

/-! ## §4. Tokens. -/

/-- An accepted registration has added its account. -/
theorem contains_of_registerAccount {hmac : Hmac} {ac ac' : AccessController}
    {userId password group salt : Str} {io : PersistOutcome}
    (h : registerAccount hmac ac userId password group salt io = (ac', .done)) :
    ac'.accounts.contains userId = true := by
  unfold registerAccount at h
  split at h
  · cases (Prod.mk.inj h).2
  · split at h
    · cases (Prod.mk.inj h).2
    · rename_i hnew
      have hfree : ac.accounts.find? userId = none := by simpa [Dict.contains] using hnew
      rw [← (Prod.mk.inj h).1]
      show (ac.accounts.emplace userId _).contains userId = true
      rw [Dict.contains, Dict.find?_emplace hfree, if_pos rfl]
      rfl

theorem signTokenPayload_ne_nil {hmac : Hmac} (hm : hmac.NeverFails) (ac : AccessController)
    (payload : Str) : signTokenPayload hmac ac payload ≠ [] := by
  obtain ⟨digest, hd, hlen⟩ := hm ac.jwtSecret payload
  rw [signTokenPayload, hd]
  apply base64UrlEncode_ne_nil
  rintro rfl
  cases hlen

theorem dot_not_mem_signTokenPayload (hmac : Hmac) (ac : AccessController) (payload : Str) :
    byte '.' ∉ signTokenPayload hmac ac payload := by
  unfold signTokenPayload
  split
  · simp
  · exact dot_not_mem_base64UrlEncode _

/-- **Of a token a controller with the same secret issued, only the claims are
left to read.** -/
theorem validateTokenAndGetUser_issueToken {hmac : Hmac} (hm : hmac.NeverFails)
    {ac ac' : AccessController} (hsecret : ac'.jwtSecret = ac.jwtSecret) (now : Int64)
    (userId : Str) (expiresUnix : Int64) :
    validateTokenAndGetUser hmac ac' now (issueToken hmac ac userId expiresUnix)
      = acceptClaims ac' now (payloadJson userId expiresUnix) := by
  have hsign : ∀ p, signTokenPayload hmac ac' p = signTokenPayload hmac ac p := by
    intro p
    rw [signTokenPayload, signTokenPayload, hsecret]
  have hheader := dot_not_mem_base64UrlEncode kJwtHeaderJson
  have hpayload := dot_not_mem_base64UrlEncode (payloadJson userId expiresUnix)
  have hheaderNe : base64UrlEncode kJwtHeaderJson ≠ [] :=
    base64UrlEncode_ne_nil (by decide)
  have hpayloadNe : base64UrlEncode (payloadJson userId expiresUnix) ≠ [] :=
    base64UrlEncode_ne_nil (by simp [payloadJson, str])
  have hdecode : ∀ b, base64UrlDecode (base64UrlEncode b) = some b := decodeFrom_base64UrlEncode 0
  unfold issueToken
  dsimp only
  generalize hinput : base64UrlEncode kJwtHeaderJson ++ str "."
    ++ base64UrlEncode (payloadJson userId expiresUnix) = input
  have htoken : input ++ str "." ++ signTokenPayload hmac ac input
      = base64UrlEncode kJwtHeaderJson ++ byte '.'
        :: (base64UrlEncode (payloadJson userId expiresUnix) ++ byte '.'
          :: signTokenPayload hmac ac input) := by
    rw [← hinput]
    simp [str]
  rw [htoken, validateTokenAndGetUser, cut_append hheader]
  dsimp only
  rw [cut_append hpayload]
  dsimp only
  rw [if_neg (dot_not_mem_signTokenPayload hmac ac input),
    if_neg (by simp [hheaderNe, hpayloadNe, signTokenPayload_ne_nil hm]), hdecode, hdecode]
  dsimp only
  rw [hinput, if_neg (by simp), hsign, if_pos rfl]

theorem takeWhile_ne_quote_eq_self {userId : Str} :
    userId.takeWhile (· ≠ quote) = userId ↔ quote ∉ userId := by
  rw [List.takeWhile_eq_self_iff]
  constructor
  · intro h hm
    simpa using h quote hm
  · intro h c hc
    have hne : c ≠ quote := by rintro rfl; exact h hc
    simpa using hne

/-- A token is good at exactly the times up to its expiry, and names its user. -/
def TokenIdentifies (hmac : Hmac) (issuer verifier : AccessController) (userId : Str)
    (expiresUnix : Int64) : Prop :=
  ∀ now : Int64, validateTokenAndGetUser hmac verifier now
    (issueToken hmac issuer userId expiresUnix) = if now ≤ expiresUnix then some userId else none

/-- **A registered user's token identifies him exactly when his id holds no
quote**, at whatever later time it is issued and validated. -/
theorem token_identity_iff {hmac : Hmac} (hm : hmac.NeverFails) {ac registered : AccessController}
    {userId password group salt : Str} {io : PersistOutcome}
    (haccepted : registerAccount hmac ac userId password group salt io = (registered, .done))
    (before later : List (Operation × PersistOutcome)) (expiresUnix : Int64) :
    TokenIdentifies hmac (runOperations hmac registered before)
      (runOperations hmac (runOperations hmac registered before) later) userId expiresUnix
      ↔ quote ∉ userId := by
  have hthere := contains_of_registerAccount haccepted
  have hlater := runOperations_extends hmac (runOperations hmac registered before) later
  have hstill := hlater.accounts userId
    ((runOperations_extends hmac registered before).accounts userId hthere)
  constructor
  · intro hid
    have hnow := hid expiresUnix
    rw [validateTokenAndGetUser_issueToken hm hlater.secret, acceptClaims,
      extractStringClaim_payloadJson, if_pos (Int64.le_refl _)] at hnow
    apply takeWhile_ne_quote_eq_self.mp
    split at hnow
    · rename_i u e hu he
      cases hu
      split at hnow
      · cases hnow
      · split at hnow
        · exact Option.some.inj hnow
        · cases hnow
    · cases hnow
  · intro hq now
    rw [validateTokenAndGetUser_issueToken hm hlater.secret, acceptClaims,
      extractStringClaim_payloadJson, extractNumericClaim_payloadJson hq,
      takeWhile_ne_quote_eq_self.mpr hq]
    dsimp only
    rw [hstill, if_pos rfl]
    by_cases hle : now ≤ expiresUnix
    · rw [if_pos hle, if_neg (Int64.not_lt.mpr hle)]
    · rw [if_neg hle, if_pos (Int64.not_le.mp hle)]

/-- The 32 bytes of a number, highest first. -/
def digestOfNat (n : Nat) : Str := (List.range 32).map fun i => Fin.ofNat 256 (n / 256 ^ (31 - i))

/-- HMAC-SHA256 where the key `s` salts one password and the key `k` signs one
token. -/
def sampleHmac (passwordDigest tokenDigest : Nat) : Hmac := fun key _ =>
  some (digestOfNat (if key = str "s" then passwordDigest else tokenDigest))

theorem sampleHmac_neverFails (passwordDigest tokenDigest : Nat) :
    (sampleHmac passwordDigest tokenDigest).NeverFails := by
  intro key message
  exact ⟨_, rfl, by simp [digestOfNat]⟩

/-- A controller without accounts. -/
def emptyController : AccessController := ⟨str "k", Dict.empty, [], Dict.empty⟩

/-- `HMAC(s, s:pw)`. -/
def passwordDigest : Nat := 0xd3cf245aa783bfb221b97e5549ef3991ab6a7beb51c2da98805fa9547b9b1ff7

/-- The signature of the token of `ann` that expires at 10. -/
def annDigest : Nat := 0x56de89ec84453ee96ba2c33adb003363e7d1eda0c6b918423b072186ddaee1da

/-- The signature of the token of `root"` that expires at 10. -/
def rootQuoteDigest : Nat := 0xb07a4fca0a800b64ed7c823ba947b349cc2af84035bb4b51c50fbd7d6421335c

/-- The controller after one registration. -/
def withAccount (tokenDigest : Nat) (ac : AccessController) (userId : Str) : AccessController :=
  (registerAccount (sampleHmac passwordDigest tokenDigest) ac userId (str "pw") [] (str "s")
    .written).1

theorem token_identity_ann :
    TokenIdentifies (sampleHmac passwordDigest annDigest)
      (withAccount annDigest emptyController (str "ann"))
      (withAccount annDigest emptyController (str "ann")) (str "ann") 10 :=
  (token_identity_iff (sampleHmac_neverFails passwordDigest annDigest)
    (show registerAccount _ emptyController (str "ann") (str "pw") [] (str "s") .written
      = (withAccount annDigest emptyController (str "ann"), .done) from rfl) [] [] 10).mpr
    (by decide)

/-- **The token of `root"` is a token of `root`.** -/
theorem quoted_user_id_names_another :
    let rooted := withAccount rootQuoteDigest emptyController (str "root")
    let registered := withAccount rootQuoteDigest rooted (str "root\"")
    (registerAccount (sampleHmac passwordDigest rootQuoteDigest) rooted (str "root\"") (str "pw")
      [] (str "s") .written).2 = .done ∧
    validateTokenAndGetUser (sampleHmac passwordDigest rootQuoteDigest) registered 0
      (issueToken (sampleHmac passwordDigest rootQuoteDigest) registered (str "root\"") 10)
        = some (str "root") ∧
    ¬ TokenIdentifies (sampleHmac passwordDigest rootQuoteDigest) registered registered
        (str "root\"") 10 := by
  have hread : validateTokenAndGetUser (sampleHmac passwordDigest rootQuoteDigest)
      (withAccount rootQuoteDigest
        (withAccount rootQuoteDigest emptyController (str "root")) (str "root\"")) 0
      (issueToken (sampleHmac passwordDigest rootQuoteDigest)
        (withAccount rootQuoteDigest
          (withAccount rootQuoteDigest emptyController (str "root")) (str "root\""))
        (str "root\"") 10) = some (str "root") := by
    decide +kernel
  refine ⟨by decide +kernel, hread, ?_⟩
  intro hid
  have hnow := hid 0
  rw [hread] at hnow
  revert hnow
  decide

end CustomDbms.Catalog
