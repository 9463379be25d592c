import Kron.Lib.Search
import Kron.Server.Tamper

/-
  Authentication by bearer token.

  `authenticate` reads the bearer from the header, parses and
  validates `kron.tokens.json` on each request, and takes the
  first entry that matches. A secret is a plaintext or the
  SHA-256 of one in hexadecimal.

  Key definitions include:
    * `Kron.TokenEntry`
    * `Kron.TokenFile.validate`
    * `Kron.tokenEntryMatches`
    * `Kron.authenticate`
    * `Kron.TokenEntry.Accepts`
    * `Kron.ExactAuthentication`

  Key theorems include:
    * `Kron.secureEq_iff`
    * `Kron.tokenEntryMatches_iff`
    * `Kron.authenticate_exact_iff`
-/

------------------------------------------------------------
-- Token Files
------------------------------------------------------------

namespace Kron

structure TokenEntry where
  name : String
  token : String
  tokenSha256 : Option String
  role : AuthRole
  tenantId : Option String
  notBefore : Option DateTime
  expiresAt : Option DateTime

structure TokenFile where
  tokens : List TokenEntry

/- The context of a request that an entry authenticates. -/
def TokenEntry.context
    (entry : TokenEntry) : AuthContext where
  actor := entry.name
  role := entry.role
  tenantId := entry.tenantId

open Audit
open Digits
open Search
open Text

/- `u8::is_ascii_hexdigit`. -/
def isAsciiHexdigit
    (byte : UInt8) : Bool :=
  (48 ≤ byte && byte ≤ 57) || (65 ≤ byte && byte ≤ 70) ||
    (97 ≤ byte && byte ≤ 102)

def isSha256Hex
    (value : String) : Bool :=
  (utf8 value).length == 64 &&
    (utf8 value).all isAsciiHexdigit

/- The checks of `validate` on one entry. -/
def TokenEntry.validate
    (entry : TokenEntry) : Except String Unit :=
  let hasPlaintext := entry.token != ""
  let hasHash := entry.tokenSha256.any (· != "")
  if hasPlaintext == hasHash then
    .error
      ("token entry '" ++ entry.name ++
        "' must set exactly one of token or token_sha256")
  else
    match entry.tokenSha256 with
    | none => .ok ()
    | some hash =>
        if isSha256Hex hash then
          .ok ()
        else
          .error
            ("token entry '" ++ entry.name ++
              "' has invalid token_sha256; " ++
              "expected 64 hex characters")

/- `TokenFile::validate`: the first error of an entry. -/
def TokenFile.validate
    (file : TokenFile) : Except String Unit :=
  file.tokens.forM TokenEntry.validate

end Kron

------------------------------------------------------------
-- Matching A Bearer
------------------------------------------------------------

namespace Kron

open Audit
open Digits
open Search
open Text

/- Compare all bytes, whatever the first ones are. -/
def secureEq
    (left right : Bytes) : Bool :=
  if left.length != right.length then
    false
  else
    (left.zip right).foldl
        (fun diff pair => diff ||| (pair.1 ^^^ pair.2)) 0 ==
      0

/- A digest in lower-case hexadecimal. -/
def sha256Hex
    (sha256 : Bytes → Sha256Digest)
    (bytes : Bytes) : String :=
  hexBytes (sha256 bytes).1

def tokenEntryMatches
    (sha256 : Bytes → Sha256Digest)
    (entry : TokenEntry)
    (bearer : String)
    (now : DateTime) : Bool :=
  if entry.notBefore.any (now < ·) then
    false
  else if entry.expiresAt.any (· ≤ now) then
    false
  else if entry.token != "" &&
      secureEq (utf8 entry.token) (utf8 bearer) then
    true
  else
    match entry.tokenSha256 with
    | none => false
    | some expectedHash =>
        secureEq (utf8 expectedHash)
          (utf8 (sha256Hex sha256 (utf8 bearer)))

/- `HeaderValue::to_str`: visible ASCII and tabs. -/
def headerToStr
    (value : Bytes) : Option String :=
  if value.all fun b =>
      (32 ≤ b && b < 127) || b == 9 then
    fromUtf8 value
  else
    none

/- The bearer of an `authorization` header. -/
def bearerOf
    (authorization : Option Bytes) : Option String :=
  match authorization with
  | none => none
  | some value =>
      match headerToStr value with
      | none => none
      | some text =>
          (text.dropPrefix? "Bearer ").map (·.toString)

/-
  What `authenticate` uses of the cluster: the admin token,
  and what reading `kron.tokens.json` gives where it exists.
-/
structure TokenStore where
  token : String
  tokensFile : Option (Except String String)

def legacyAdmin : AuthContext where
  actor := "legacy-admin-token"
  role := .admin
  tenantId := none

/-
  `authenticate`. Here `parse` stands for the JSON parser,
  and the clock is read once for each entry.
-/
def authenticate
    (sha256 : Bytes → Sha256Digest)
    (parse : String → Except String TokenFile)
    (store : TokenStore)
    (authorization : Option Bytes)
    (now : Nat → DateTime) : Except String AuthContext :=
  match bearerOf authorization with
  | none => .error "missing bearer token"
  | some bearer =>
      match store.tokensFile with
      | some (.error err) =>
          .error ("unable to read token file: " ++ err)
      | some (.ok content) =>
          match parse content with
          | .error err =>
              .error ("invalid token file: " ++ err)
          | .ok file =>
              match file.validate with
              | .error err => .error err
              | .ok () =>
                  match
                    file.tokens.zipIdx.find? fun item =>
                      tokenEntryMatches sha256 item.1 bearer
                        (now item.2) with
                  | some item => .ok item.1.context
                  | none => .error "unknown token"
      | none =>
          if secureEq (utf8 store.token)
              (utf8 bearer) then
            .ok legacyAdmin
          else
            .error "unknown token"

variable {sha256 : Bytes → Sha256Digest}

/- The accumulated difference is zero on equal pairs. -/
theorem foldl_diff_eq_zero
    {pairs : List (UInt8 × UInt8)}
    {diff : UInt8} :
    pairs.foldl
          (fun diff pair => diff ||| (pair.1 ^^^ pair.2))
          diff = 0 ↔
      diff = 0 ∧ ∀ pair ∈ pairs, pair.1 = pair.2 := by
  induction pairs generalizing diff with
  | nil => simp
  | cons pair pairs ih =>
      rw [List.foldl_cons, ih, UInt8.or_eq_zero_iff,
        UInt8.xor_eq_zero_iff, List.forall_mem_cons,
        and_assoc]

/- Lists of one length are equal when their pairs are. -/
theorem zip_eq_iff
    {xs ys : Bytes}
    (hLength : xs.length = ys.length) :
    (∀ pair ∈ xs.zip ys, pair.1 = pair.2) ↔ xs = ys := by
  induction xs generalizing ys with
  | nil =>
      have hNil := List.eq_nil_of_length_eq_zero hLength.symm
      simp [hNil]
  | cons x xs ih =>
      cases ys with
      | nil => cases hLength
      | cons y ys =>
          rw [List.zip_cons_cons, List.forall_mem_cons,
            ih (Nat.succ.inj hLength), List.cons.injEq]

/- The comparison decides equality. -/
theorem secureEq_iff
    {left right : Bytes} :
    secureEq left right = true ↔ left = right := by
  unfold secureEq
  constructor
  · intro hEq
    split at hEq
    · cases hEq
    · rename_i hLength
      simp only [bne_iff_ne, ne_eq, not_not] at hLength
      have hFold := eq_of_beq hEq
      exact
        (zip_eq_iff hLength).mp
          (foldl_diff_eq_zero.mp hFold).2
  · rintro rfl
    simp only [bne_self_eq_false, Bool.false_eq_true,
      if_false, beq_iff_eq]
    rw [foldl_diff_eq_zero]
    exact ⟨rfl, (zip_eq_iff rfl).mpr rfl⟩

/- The time is in the window of the entry. -/
def TokenEntry.ActiveAt
    (entry : TokenEntry)
    (now : DateTime) : Prop :=
  (∀ notBefore ∈ entry.notBefore, notBefore ≤ now) ∧
    ∀ expiresAt ∈ entry.expiresAt, now < expiresAt

/- The hash denotes the SHA-256 digest of the bearer. -/
def Denotes
    (sha256 : Bytes → Sha256Digest)
    (hash bearer : String) : Prop :=
  readHex hash.toList = some (sha256 (utf8 bearer)).1

/- The entry has the bearer as plaintext or as digest. -/
def TokenEntry.Accepts
    (sha256 : Bytes → Sha256Digest)
    (bearer : String)
    (now : Nat → DateTime)
    (entry : TokenEntry)
    (i : Nat) : Prop :=
  entry.ActiveAt (now i) ∧
    ((entry.token ≠ "" ∧ entry.token = bearer) ∨
      ∃ hash,
        entry.tokenSha256 = some hash ∧
          Denotes sha256 hash bearer)

/- No letter of the hash is in upper case. -/
def IsLowerHex
    (hash : String) : Prop :=
  hash.toList.map Char.toLower = hash.toList

/-
  The entry has the bearer as plaintext, or as a digest in
  lower case.
-/
def TokenEntry.AcceptsLower
    (sha256 : Bytes → Sha256Digest)
    (bearer : String)
    (now : Nat → DateTime)
    (entry : TokenEntry)
    (i : Nat) : Prop :=
  entry.ActiveAt (now i) ∧
    ((entry.token ≠ "" ∧ entry.token = bearer) ∨
      ∃ hash,
        entry.tokenSha256 = some hash ∧
          IsLowerHex hash ∧ Denotes sha256 hash bearer)

theorem TokenEntry.AcceptsLower.accepts
    {bearer : String}
    {now : Nat → DateTime}
    {entry : TokenEntry}
    {i : Nat}
    (hLower : entry.AcceptsLower sha256 bearer now i) :
    entry.Accepts sha256 bearer now i := by
  refine ⟨hLower.1, hLower.2.imp id ?_⟩
  rintro ⟨hash, hHash, _, hDenotes⟩
  exact ⟨hash, hHash, hDenotes⟩

/- The digits of the code are in lower case. -/
theorem toLower_of_mem_hex
    {width n : Nat}
    {c : Char}
    (hMem : c ∈ hex width n) :
    c.toLower = c := by
  have hDigits :
      ∀ d < 16, d.digitChar.toLower = d.digitChar := by
    decide
  rcases exists_of_mem_hex hMem with ⟨d, hLt, rfl⟩
  exact hDigits d hLt

/-
  The text of a digest is the one hash in lower case that
  denotes it.
-/
theorem eq_sha256Hex_iff
    {hash bearer : String} :
    hash = sha256Hex sha256 (utf8 bearer) ↔
      IsLowerHex hash ∧ Denotes sha256 hash bearer := by
  have hLower :
      ((sha256 (utf8 bearer)).1.flatMap fun b =>
          hex 2 b.toNat).map Char.toLower =
        (sha256 (utf8 bearer)).1.flatMap fun b =>
          hex 2 b.toNat := by
    conv_rhs => rw [← List.map_id (List.flatMap _ _)]
    apply List.map_congr_left
    intro c hMem
    rcases List.mem_flatMap.mp hMem with ⟨b, _, hDigit⟩
    exact toLower_of_mem_hex hDigit
  unfold IsLowerHex Denotes
  rw [readHex_eq_some_iff]
  constructor
  · rintro rfl
    unfold sha256Hex hexBytes
    rw [String.toList_ofList]
    exact ⟨hLower, hLower⟩
  · rintro ⟨hSame, hDigits⟩
    rw [hSame] at hDigits
    apply String.toList_injective
    unfold sha256Hex hexBytes
    rw [String.toList_ofList, hDigits]

/- An entry matches what it accepts in lower case. -/
theorem tokenEntryMatches_iff
    {entry : TokenEntry}
    {bearer : String}
    {now : Nat → DateTime}
    {i : Nat} :
    tokenEntryMatches sha256 entry bearer (now i) = true ↔
      entry.AcceptsLower sha256 bearer now i := by
  have hStarted :
      entry.notBefore.any (now i < ·) = true ↔
        ¬ ∀ t ∈ entry.notBefore, t ≤ now i := by
    cases entry.notBefore <;> simp
  have hExpired :
      entry.expiresAt.any (· ≤ now i) = true ↔
        ¬ ∀ t ∈ entry.expiresAt, now i < t := by
    cases entry.expiresAt <;> simp
  have hPlain :
      (entry.token != "" &&
          secureEq (utf8 entry.token) (utf8 bearer)) =
            true ↔
        entry.token ≠ "" ∧ entry.token = bearer := by
    rw [Bool.and_eq_true, bne_iff_ne, secureEq_iff,
      utf8_injective.eq_iff]
  unfold tokenEntryMatches TokenEntry.AcceptsLower
    TokenEntry.ActiveAt
  split
  · rename_i hEarly
    have hNot := hStarted.mp hEarly
    simp only [Bool.false_eq_true, false_iff]
    exact fun h => hNot h.1.1
  · rename_i hBegun
    rw [hStarted, not_not] at hBegun
    split
    · rename_i hLate
      have hNot := hExpired.mp hLate
      simp only [Bool.false_eq_true, false_iff]
      exact fun h => hNot h.1.2
    · rename_i hValid
      rw [hExpired, not_not] at hValid
      rw [and_iff_right ⟨hBegun, hValid⟩]
      split
      · rename_i hEq
        exact
          iff_of_true rfl (Or.inl (hPlain.mp hEq))
      · rename_i hNot
        rw [hPlain] at hNot
        rw [or_iff_right hNot]
        cases entry.tokenSha256 with
        | none => simp
        | some hash =>
            simp only [Option.some.injEq, exists_eq_left']
            rw [secureEq_iff, utf8_injective.eq_iff,
              eq_sha256Hex_iff]

end Kron

------------------------------------------------------------
-- Exactness
------------------------------------------------------------

namespace Kron

open Audit
open Digits
open Search
open Text

/-
  What a request with this bearer is to get: the context of
  the first entry that accepts it, where there is one.
-/
structure ExactAuthentication
    (sha256 : Bytes → Sha256Digest)
    (bearer : String)
    (now : Nat → DateTime)
    (file : TokenFile)
    (result : Except String AuthContext) : Prop where
  succeeds :
    (∃ auth, result = .ok auth) ↔
      ∃ i, ∃ entry : TokenEntry,
        file.tokens[i]? = some entry ∧
          entry.Accepts sha256 bearer now i
  first :
    ∀ auth, result = .ok auth →
      ∃ i entry,
        IsFirst (TokenEntry.Accepts sha256 bearer now)
            file.tokens i entry ∧
          auth = entry.context

/-
  Where an entry accepts the bearer, the first to accept it
  in lower case has the context of the first to accept it.
-/
def FirstInLowerCase
    (sha256 : Bytes → Sha256Digest)
    (bearer : String)
    (now : Nat → DateTime)
    (file : TokenFile) : Prop :=
  ∀ i entry,
    IsFirst (TokenEntry.Accepts sha256 bearer now)
        file.tokens i entry →
      ∃ j entry',
        IsFirst (TokenEntry.AcceptsLower sha256 bearer now)
            file.tokens j entry' ∧
          entry'.context = entry.context

variable {sha256 : Bytes → Sha256Digest}
variable {parse : String → Except String TokenFile}
variable {store : TokenStore}
variable {authorization : Option Bytes}
variable {bearer content : String}
variable {file : TokenFile}
variable {now : Nat → DateTime}

/- The first entry to accept in lower case is taken. -/
theorem authenticate_eq_ok_iff
    (hBearer : bearerOf authorization = some bearer)
    (hFile : store.tokensFile = some (.ok content))
    (hParse : parse content = .ok file)
    (hValid : file.validate = .ok ())
    {auth : AuthContext} :
    authenticate sha256 parse store authorization now =
        .ok auth ↔
      ∃ i entry,
        IsFirst (TokenEntry.AcceptsLower sha256 bearer now)
            file.tokens i entry ∧
          auth = entry.context := by
  have hMatches :
      ∀ i entry,
        file.tokens.zipIdx.find? (fun item =>
              tokenEntryMatches sha256 item.1 bearer
                (now item.2)) =
            some (entry, i) ↔
          IsFirst
            (TokenEntry.AcceptsLower sha256 bearer now)
            file.tokens i entry := by
    intro i entry
    rw [find?_zipIdx_eq_some_iff]
    simp only [tokenEntryMatches_iff]
  unfold authenticate
  simp only [hBearer, hFile, hParse, hValid]
  constructor
  · intro hEq
    split at hEq
    · rename_i item hFind
      refine
        ⟨item.2, item.1, (hMatches _ _).mp hFind, ?_⟩
      exact (Except.ok.inj hEq).symm
    · cases hEq
  · rintro ⟨i, entry, hFirst, rfl⟩
    rw [(hMatches i entry).mpr hFirst]

/- Without a token file only the admin token is accepted. -/
theorem authenticate_legacy_eq_ok_iff
    (hBearer : bearerOf authorization = some bearer)
    (hFile : store.tokensFile = none)
    {auth : AuthContext} :
    authenticate sha256 parse store authorization now =
        .ok auth ↔
      store.token = bearer ∧ auth = legacyAdmin := by
  unfold authenticate
  simp only [hBearer, hFile]
  split
  · rename_i hEq
    have hSame : store.token = bearer :=
      utf8_injective (secureEq_iff.mp hEq)
    rw [and_iff_right hSame, Except.ok.injEq, eq_comm]
  · rename_i hNot
    rw [secureEq_iff, utf8_injective.eq_iff] at hNot
    exact iff_of_false nofun fun h => hNot h.1

/-
  Authentication is exact if and only if the spelling of the
  digests makes no difference for the bearer.
-/
theorem authenticate_exact_iff
    (sha256 : Bytes → Sha256Digest)
    (parse : String → Except String TokenFile)
    (store : TokenStore)
    (authorization : Option Bytes)
    (bearer content : String)
    (file : TokenFile)
    (now : Nat → DateTime)
    (hBearer : bearerOf authorization = some bearer)
    (hFile : store.tokensFile = some (.ok content))
    (hParse : parse content = .ok file)
    (hValid : file.validate = .ok ()) :
    ExactAuthentication sha256 bearer now file
        (authenticate sha256 parse store authorization
          now) ↔
      FirstInLowerCase sha256 bearer now file := by
  have hResult :=
    @authenticate_eq_ok_iff sha256 parse store authorization
      bearer content file now hBearer hFile hParse hValid
  constructor
  · intro hExact i entry hFirst
    rcases hExact.succeeds.mpr
        ⟨i, entry, hFirst.get, hFirst.sat⟩ with
      ⟨auth, hOk⟩
    rcases hResult.mp hOk with ⟨j, entry', hLower, hAuth⟩
    rcases hExact.first auth hOk with
      ⟨i', entry'', hFirst', hAuth'⟩
    have hSame : entry'' = entry :=
      (hFirst'.unique hFirst).2
    refine ⟨j, entry', hLower, ?_⟩
    rw [← hAuth, hAuth', hSame]
  · intro hCond
    refine ⟨⟨?_, ?_⟩, ?_⟩
    · rintro ⟨auth, hOk⟩
      rcases hResult.mp hOk with ⟨i, entry, hLower, _⟩
      exact ⟨i, entry, hLower.get, hLower.sat.accepts⟩
    · rintro ⟨i, entry, hGet, hAccepts⟩
      rcases exists_isFirst hGet hAccepts with
        ⟨j, entry', hFirst⟩
      rcases hCond j entry' hFirst with
        ⟨k, entry'', hLower, _⟩
      exact
        ⟨entry''.context,
          hResult.mpr ⟨k, entry'', hLower, rfl⟩⟩
    · intro auth hOk
      rcases hResult.mp hOk with ⟨i, entry, hLower, hAuth⟩
      rcases exists_isFirst hLower.get
          hLower.sat.accepts with
        ⟨j, entry', hFirst⟩
      rcases hCond j entry' hFirst with
        ⟨k, entry'', hLower', hContext⟩
      have hSame : entry'' = entry :=
        (hLower'.unique hLower).2
      refine ⟨j, entry', hFirst, ?_⟩
      rw [hAuth, ← hSame, hContext]

/- SHA-256 on the bytes of the bearer `secret`. -/
def secretSha256
    (_ : Bytes) : Sha256Digest :=
  ⟨[0x2b, 0xb8, 0x0d, 0x53, 0x7b, 0x1d, 0xa3, 0xe3, 0x8b,
      0xd3, 0x03, 0x61, 0xaa, 0x85, 0x56, 0x86, 0xbd, 0xe0,
      0xea, 0xcd, 0x71, 0x62, 0xfe, 0xf6, 0xa2, 0x5f, 0xe9,
      0x7b, 0xf5, 0x27, 0xa2, 0x5b], rfl⟩

/- One worker whose token is given by its hash. -/
def workerFile
    (hash : String) : TokenFile where
  tokens :=
    [{ name := "worker"
       token := ""
       tokenSha256 := some hash
       role := .worker
       tenantId := some "tenant-a"
       notBefore := none
       expiresAt := none }]

def secretHash : String :=
  "2bb80d537b1da3e38bd30361aa855686" ++
    "bde0eacd7162fef6a25fe97bf527a25b"

/- A cluster that has the token file. -/
def workerStore : TokenStore where
  token := "kron-admin"
  tokensFile := some (.ok "tokens")

/- The header of a request with the bearer. -/
def secretHeader : Option Bytes :=
  some (utf8 "Bearer secret")

theorem bearerOf_secretHeader :
    bearerOf secretHeader = some "secret" := by
  decide +kernel

theorem denotes_secretHash :
    Denotes secretSha256 secretHash "secret" := by
  unfold Denotes
  decide +kernel

/- The hash in lower case authenticates its worker. -/
theorem authenticate_exact_iff_secretHash :
    (workerFile secretHash).validate = .ok () ∧
      ExactAuthentication secretSha256 "secret"
        (fun _ => second 0) (workerFile secretHash)
        (authenticate secretSha256
          (fun _ => .ok (workerFile secretHash)) workerStore
          secretHeader fun _ => second 0) := by
  have hValid :
      (workerFile secretHash).validate = .ok () := by
    decide +kernel
  refine ⟨hValid, ?_⟩
  rw [authenticate_exact_iff secretSha256
    (fun _ => .ok (workerFile secretHash)) workerStore
    secretHeader "secret" "tokens" (workerFile secretHash)
    (fun _ => second 0) bearerOf_secretHeader rfl rfl hValid]
  intro i entry hFirst
  refine ⟨i, entry, ⟨hFirst.get, ?_, ?_⟩, rfl⟩
  · have hMem := List.mem_of_getElem? hFirst.get
    have hEntry := List.mem_singleton.mp hMem
    subst hEntry
    refine ⟨⟨nofun, nofun⟩, Or.inr ⟨_, rfl, ?_, ?_⟩⟩
    · unfold IsLowerHex
      decide +kernel
    · exact denotes_secretHash
  · intro j hLt entry' hGet hLower
    exact hFirst.before j hLt entry' hGet hLower.accepts

/-
  The same hash in upper case is valid, and denotes the same
  digest, and the worker is refused.
-/
theorem authenticate_not_exact_upperCase :
    (workerFile secretHash.toUpper).validate = .ok () ∧
      Denotes secretSha256 secretHash.toUpper "secret" ∧
      ¬ ExactAuthentication secretSha256 "secret"
        (fun _ => second 0) (workerFile secretHash.toUpper)
        (authenticate secretSha256
          (fun _ => .ok (workerFile secretHash.toUpper))
          workerStore secretHeader fun _ => second 0) := by
  have hValid :
      (workerFile secretHash.toUpper).validate =
        .ok () := by
    decide +kernel
  have hDenotes :
      Denotes secretSha256 secretHash.toUpper "secret" := by
    unfold Denotes
    decide +kernel
  have hRefused :
      authenticate secretSha256
          (fun _ => .ok (workerFile secretHash.toUpper))
          workerStore secretHeader (fun _ => second 0) =
        .error "unknown token" := by
    decide +kernel
  refine ⟨hValid, hDenotes, ?_⟩
  intro hExact
  rcases hExact.succeeds.mpr
      ⟨0, _, rfl, ⟨nofun, nofun⟩,
        Or.inr ⟨_, rfl, hDenotes⟩⟩ with
    ⟨auth, hOk⟩
  rw [hRefused] at hOk
  cases hOk

end Kron
