import BlsHsm.External
import BlsHsm.Keystore

/-! The EIP-2335 import path of `httpRemote.h`: the parameter readers, the batch
loop `import_from_keystore`, and `httpImportFromKeystore`, which admits the batch
into two local ten-slot arrays and runs the loop. A C function returning `0` or an
error code is a function into `Except Int`. -/

namespace BlsHsm.Import
open BlsHsm.CLib BlsHsm.External BlsHsm.Keystore

/-- `SCRYPTTYPE` and `PBKDF2TYPE`. -/
def SCRYPTTYPE : Int := 1
def PBKDF2TYPE : Int := 2

section Readers
variable (L : Libs)

/-- `keystore == NULL || keystore->type != cJSON_Object`. -/
def isObject : CJson → Except Int Unit
  | .object _ => .ok ()
  | _ => .error L.badJsonFormat

/-- `cJSON_GetObjectItemCaseSensitive` checked against `NULL`. -/
def field (j : CJson) (name : String) : Except Int CJson :=
  match getObjectItem j name with
  | some v => .ok v
  | none => .error L.badJsonFormat

/-- A member checked to be `cJSON_String`; its `valuestring`. -/
def stringField (j : CJson) (name : String) : Except Int String :=
  match getObjectItem j name with
  | some (.string v) => .ok v
  | _ => .error L.badJsonFormat

/-- A member checked to be `cJSON_Number`; its `valueint`. -/
def numberField (j : CJson) (name : String) : Except Int Int :=
  match getObjectItem j name with
  | some (.number v) => .ok v
  | _ => .error L.badJsonFormat

/-! The readers on an object, one member at a time. -/

theorem field_cons (k : String) (v : CJson) (cs : List (String × CJson)) (name : String) :
    field L (.object ((k, v) :: cs)) name = if k = name then .ok v else field L (.object cs) name := by
  by_cases h : k = name <;> simp [field, h]

theorem stringField_cons (k : String) (v : CJson) (cs : List (String × CJson)) (name : String) :
    stringField L (.object ((k, v) :: cs)) name =
      if k = name then (match v with | .string s => .ok s | _ => .error L.badJsonFormat)
      else stringField L (.object cs) name := by
  by_cases h : k = name
  · cases v <;> simp [stringField, h]
  · simp [stringField, h]

theorem numberField_cons (k : String) (v : CJson) (cs : List (String × CJson)) (name : String) :
    numberField L (.object ((k, v) :: cs)) name =
      if k = name then (match v with | .number n => .ok n | _ => .error L.badJsonFormat)
      else numberField L (.object cs) name := by
  by_cases h : k = name
  · cases v <;> simp [numberField, h]
  · simp [numberField, h]

/-- `get_decryption_key_encryption_type`. -/
def getDecryptionKeyEncryptionType (keystore : CJson) : Except Int Int := do
  isObject L keystore
  let crypto ← field L keystore "crypto"
  let kdf ← field L crypto "kdf"
  let function ← stringField L kdf "function"
  if function = "pbkdf2" then .ok PBKDF2TYPE
  else if function = "scrypt" then .ok SCRYPTTYPE
  else .error (-1)

/-- `get_decryption_key_pbkdf2_params`: it reads and checks the parameters, but its
call of `get_decryption_key_pbkdf2` is commented out, so the key buffer comes back
as it went in. -/
def getDecryptionKeyPbkdf2Params (keystore : CJson) (_password : String)
    (decryptionKey : Bytes32) : Except Int Bytes32 := do
  isObject L keystore
  let crypto ← field L keystore "crypto"
  let kdf ← field L crypto "kdf"
  let params ← field L kdf "params"
  let _dklen ← numberField L params "dklen"
  let _c ← numberField L params "c"
  let _prf ← stringField L params "prf"
  let _salt ← stringField L params "salt"
  .ok decryptionKey

/-- `get_decryption_key_scrypt_params`. -/
def getDecryptionKeyScryptParams (keystore : CJson) (password : String)
    (decryptionKey : Bytes32) : Except Int Bytes32 := do
  isObject L keystore
  let crypto ← field L keystore "crypto"
  let kdf ← field L crypto "kdf"
  let params ← field L kdf "params"
  let dklen ← numberField L params "dklen"
  let n ← numberField L params "n"
  let r ← numberField L params "r"
  let p ← numberField L params "p"
  let salt ← stringField L params "salt"
  let (ret, dk) := L.getDecryptionKeyScrypt password dklen n r p salt decryptionKey
  if ret ≠ 0 then .error ret else .ok dk

/-- `verificate_password_params`. -/
def verificatePasswordParams (keystore : CJson) (decryptionKey : Bytes32) :
    Except Int Unit := do
  isObject L keystore
  let crypto ← field L keystore "crypto"
  let checksum ← field L crypto "checksum"
  let cipher ← field L crypto "cipher"
  let checksumMessageHex ← stringField L checksum "message"
  let cipherMessageHex ← stringField L cipher "message"
  let ret := L.verificatePassword checksumMessageHex cipherMessageHex decryptionKey
  if ret ≠ 0 then .error ret else .ok ()

/-- `get_private_key_params`. -/
def getPrivateKeyParams (keystore : CJson) (decryptionKey privateKey : Bytes32) :
    Except Int Bytes32 := do
  isObject L keystore
  let crypto ← field L keystore "crypto"
  let cipher ← field L crypto "cipher"
  let params ← field L cipher "params"
  let iv ← stringField L params "iv"
  let cipherMessage ← stringField L cipher "message"
  let (ret, pk) := L.getPrivateKey cipherMessage iv decryptionKey privateKey
  if ret ≠ 0 then .error ret else .ok pk

/-- One iteration of `import_from_keystore`, from the buffers `decryption_key` and
`private_key` as the previous iteration left them. -/
def importEntry (keystore : CJson) (password : String) (decryptionKey privateKey : Bytes32) :
    Except Int (Bytes32 × Bytes32) := do
  let type ← getDecryptionKeyEncryptionType L keystore
  let dk ← if type = PBKDF2TYPE then getDecryptionKeyPbkdf2Params L keystore password decryptionKey
    else if type = SCRYPTTYPE then getDecryptionKeyScryptParams L keystore password decryptionKey
    else .error (-1)
  verificatePasswordParams L keystore dk
  let pk ← getPrivateKeyParams L keystore dk privateKey
  .ok (dk, pk)

/-- The loop of `import_from_keystore` over `keystores[i]`, `passwords[i]`. -/
def importFromKeystoreLoop : List CJson → List String → Bytes32 → Bytes32 →
    Except Int (Bytes32 × Bytes32)
  | k :: ks, p :: ps, dk, pk => do
    let (dk', pk') ← importEntry L k p dk pk
    importFromKeystoreLoop ks ps dk' pk'
  | _, _, dk, pk => .ok (dk, pk)

/-- `import_from_keystore`; `decryptionKey` and `privateKey` are the indeterminate
contents of its two local buffers. -/
def importFromKeystore (keystores : List CJson) (passwords : List String)
    (decryptionKey privateKey : Bytes32) : Int :=
  match importFromKeystoreLoop L keystores passwords decryptionKey privateKey with
  | .ok _ => 0
  | .error e => e

end Readers

/-! ## `httpImportFromKeystore` -/

/-- An admission loop of `httpImportFromKeystore`: while `n < limit`, take the child
(`conv` failing is `return -1`) and store it at `n` in a ten-slot local array. -/
def admission {α : Type} (region : Region) (conv : CJson → Option α) (limit : Int) :
    Nat → List CJson → Except Fault (Option (List α))
  | _, [] => .ok (some [])
  | n, c :: cs =>
    if (n : Int) < limit then
      match conv c with
      | some a =>
        if n < 10 then (admission region conv limit (n + 1) cs).map (·.map (a :: ·))
        else .error (.outOfBounds region n)
      | none => .ok none
    else .ok none

/-- The loop filling `cJSON* keystores[MAXKeys]`. -/
def admitKeystores (limit : Int) : Nat → List CJson → Except Fault (Option (List CJson)) :=
  admission .keystores some limit

/-- The loop filling `char* passwords[MAXKeys]`, which requires `cJSON_String`. -/
def admitPasswords (limit : Int) : Nat → List CJson → Except Fault (Option (List String)) :=
  admission .passwords (fun | .string p => some p | _ => none) limit

/-- `httpImportFromKeystore` after `cJSON_Parse`: `s` is the secure state
`get_keystore_size` reads. -/
def httpImportFromKeystoreJson (L : Libs) (s : SecureState) (json : CJson)
    (decryptionKey privateKey : Bytes32) : Except Fault Int :=
  match getObjectItem json "keystores", getObjectItem json "passwords" with
  | some ks, some ps =>
    if ks.children.isEmpty || ps.children.isEmpty then .ok (-1) else do
      let nKeysAlreadyStored := getKeystoreSize s
      let some keystores ← admitKeystores (10 + nKeysAlreadyStored) 0 ks.children | .ok (-1)
      let some passwords ← admitPasswords (10 + nKeysAlreadyStored) 0 ps.children | .ok (-1)
      if keystores.length ≠ passwords.length then .ok (-1)
      else if importFromKeystore L keystores passwords decryptionKey privateKey ≠ 0 then .ok (-1)
      else .ok 0
  | _, _ => .ok (-1)

/-- `httpImportFromKeystore(body)`; a `NULL` body parses to `NULL`. -/
def httpImportFromKeystore (L : Libs) (s : SecureState) (body : Option (List Char))
    (decryptionKey privateKey : Bytes32) : Except Fault Int :=
  match body.bind L.cJSONParse with
  | some json => httpImportFromKeystoreJson L s json decryptionKey privateKey
  | none => .ok (-1)

/-! ## Admission -/

/-- An admission loop from slot `n ≤ 10` over children it accepts: past the ten slots
it writes slot 10 when the limit lets it, and otherwise it admits the batch iff the
batch fits under the limit. -/
theorem admission_eq {α : Type} (region : Region) (conv : CJson → Option α) (emb : α → CJson)
    (hc : ∀ a, conv (emb a) = some a) (limit : Int) (n : Nat) (xs : List α) (hn : n ≤ 10)
    (hl : (n : Int) ≤ limit) :
    admission region conv limit n (xs.map emb) =
      if 10 < n + xs.length ∧ 10 < limit then .error (.outOfBounds region 10)
      else if n + xs.length ≤ limit then .ok (some xs) else .ok none := by
  induction xs generalizing n with
  | nil =>
    simp only [admission, List.map_nil, List.length_nil, Nat.add_zero]
    rw [if_neg (by omega), if_pos (by omega)]
  | cons x xs ih =>
    simp only [admission, List.map_cons, List.length_cons, hc]
    by_cases h1 : (n : Int) < limit
    · by_cases h2 : n < 10
      · rw [if_pos h1, if_pos h2, ih (n + 1) (by omega) (by omega),
          show n + 1 + xs.length = n + (xs.length + 1) by omega,
          show ((n + 1 : Nat) : Int) + xs.length = n + ((xs.length + 1 : Nat) : Int) by omega,
          apply_ite (Except.map _), apply_ite (Except.map _)]
        rfl
      · obtain rfl : n = 10 := by omega
        rw [if_pos h1, if_neg h2, if_pos (by omega)]
        rfl
    · rw [if_neg h1, if_neg (by omega), if_neg (by omega)]

/-- Whatever the store holds, a batch of at most ten keystores with as many passwords
is admitted and decided by `import_from_keystore`; a longer batch writes
`keystores[10]` as soon as one key is stored. -/
theorem httpImportFromKeystoreJson_batch (L : Libs) (s : SecureState) (ks : List CJson)
    (pws : List String) (dk pk : Bytes32) (h0 : 0 ≤ s.keystoreSize) (hne : ks ≠ [])
    (hlen : ks.length = pws.length) :
    httpImportFromKeystoreJson L s
        (.object [("keystores", .array ks), ("passwords", .array (pws.map .string))]) dk pk =
      if ks.length ≤ 10 then .ok (if importFromKeystore L ks pws dk pk ≠ 0 then -1 else 0)
      else if 0 < s.keystoreSize then .error (.outOfBounds .keystores 10) else .ok (-1) := by
  have hpne : pws ≠ [] := by rintro rfl; exact hne (List.length_eq_zero.mp hlen)
  have hk := admission_eq .keystores some id (fun _ => rfl) (10 + s.keystoreSize) 0 ks
    (by omega) (by omega)
  have hp := admission_eq .passwords (fun | .string p => some p | _ => none) CJson.string
    (fun _ => rfl) (10 + s.keystoreSize) 0 pws (by omega) (by omega)
  simp only [List.map_id, Nat.zero_add] at hk hp
  simp only [httpImportFromKeystoreJson, getObjectItem_cons, children_array, if_true,
    if_false, show ("passwords" = "keystores") = False by simp,
    show ("keystores" = "passwords") = False by simp]
  rw [if_neg (by simp [List.isEmpty_iff, hne, hpne])]
  simp only [admitKeystores, admitPasswords, getKeystoreSize, hk, hp, ← hlen, Nat.cast_zero,
    zero_add]
  by_cases h10 : ks.length ≤ 10
  · rw [if_pos h10, if_neg (by omega), if_pos (by omega), if_neg (by omega), if_pos (by omega)]
    simp only [bind_ok, ne_eq, hlen, not_true_eq_false, if_false]
    split <;> rfl
  · by_cases hs : 0 < s.keystoreSize
    · rw [if_pos ⟨by omega, by omega⟩, bind_error, if_neg h10, if_pos hs]
    · rw [if_neg (by omega), if_neg (by omega), bind_ok, if_neg h10, if_neg hs]

theorem httpImportFromKeystoreJson_batch_one_stored :
    (0 ≤ (1 : Int) ∧ [CJson.null] ≠ [] ∧ [CJson.null].length = [""].length) ∧
    httpImportFromKeystoreJson Libs.stub { SecureState.init with keystoreSize := 1 }
        (.object [("keystores", .array [.null]), ("passwords", .array [.string ""])])
        (fun _ => 0) (fun _ => 0) =
      .ok (if importFromKeystore Libs.stub [.null] [""] (fun _ => 0) (fun _ => 0) ≠ 0 then -1
        else 0) :=
  ⟨⟨by decide, by simp, rfl⟩, httpImportFromKeystoreJson_batch Libs.stub
    { SecureState.init with keystoreSize := 1 } [.null] [""] (fun _ => 0) (fun _ => 0)
    (by decide) (by simp) rfl⟩

/-! ## The pbkdf2 branch -/

/-- A pbkdf2 entry does not read its password. -/
theorem importEntry_pbkdf2 (L : Libs) {k : CJson} (p p' : String) (dk pk : Bytes32)
    (h : getDecryptionKeyEncryptionType L k = .ok PBKDF2TYPE) :
    importEntry L k p dk pk = importEntry L k p' dk pk := by
  simp only [importEntry, h, bind_ok, if_true]
  rfl

/-- On a batch of pbkdf2 keystores the verdict of `import_from_keystore` is the same
for every list of passwords: no entry derives a key from its password, and each
checksum test runs on the key buffer as it came in. -/
theorem importFromKeystore_pbkdf2_ignores_passwords (L : Libs) (ks : List CJson)
    (pws pws' : List String) (dk pk : Bytes32)
    (hk : ∀ k ∈ ks, getDecryptionKeyEncryptionType L k = .ok PBKDF2TYPE)
    (hl : pws.length = pws'.length) :
    importFromKeystore L ks pws dk pk = importFromKeystore L ks pws' dk pk := by
  suffices importFromKeystoreLoop L ks pws dk pk = importFromKeystoreLoop L ks pws' dk pk by
    simp only [importFromKeystore, this]
  induction ks generalizing pws pws' dk pk with
  | nil => simp [importFromKeystoreLoop]
  | cons k ks ih =>
    match pws, pws', hl with
    | [], [], _ => rfl
    | p :: ps, p' :: ps', hl =>
      simp only [importFromKeystoreLoop]
      rw [importEntry_pbkdf2 L p p' dk pk (hk k (List.mem_cons_self k ks))]
      cases importEntry L k p' dk pk with
      | error e => rfl
      | ok q =>
        exact ih ps ps' q.1 q.2 (fun k hm => hk k (List.mem_cons_of_mem _ hm))
          (by simpa using hl)

/-- A complete pbkdf2 keystore, imported once with one password and once with another:
both runs reach `verificate_password` and get the same verdict. -/
theorem importFromKeystore_pbkdf2_ignores_passwords_example :
    let k := CJson.object [("crypto", .object [
      ("kdf", .object [("function", .string "pbkdf2"), ("params", .object [
        ("dklen", .number 32), ("c", .number 262144), ("prf", .string "hmac-sha256"),
        ("salt", .string "d4e5")])]),
      ("checksum", .object [("message", .string "8a9f")]),
      ("cipher", .object [("message", .string "cee0"), ("params", .object [("iv", .string "264d")])])])]
    (∀ k' ∈ [k], getDecryptionKeyEncryptionType Libs.stub k' = .ok PBKDF2TYPE) ∧
    importFromKeystore Libs.stub [k] ["right password"] (fun _ => 0) (fun _ => 0) =
      importFromKeystore Libs.stub [k] ["wrong password"] (fun _ => 0) (fun _ => 0) := by
  intro k
  have hk : ∀ k' ∈ [k], getDecryptionKeyEncryptionType Libs.stub k' = .ok PBKDF2TYPE := by
    simp [k, getDecryptionKeyEncryptionType, isObject, field, stringField, PBKDF2TYPE]
  exact ⟨hk, importFromKeystore_pbkdf2_ignores_passwords Libs.stub _ _ _ _ _ hk rfl⟩

/-! ## The KDF parameters -/

/-- Whatever `dklen` a scrypt keystore carries, `import_from_keystore` runs
`get_decryption_key_scrypt` with it, into its 32-byte `decryption_key`, and decides the
entry by that call, the checksum test and the decryption; whatever `dklen` and `prf` a
pbkdf2 keystore carries, the entry is decided by the checksum test and the decryption
on the key buffer as it came in. Neither reader checks either parameter. -/
theorem importFromKeystore_kdf_params_unchecked (L : Libs)
    (password salt checksum cipher iv prf : String) (dklen n r p c : Int) (dk pk : Bytes32) :
    let tail := [("checksum", CJson.object [("message", .string checksum)]),
      ("cipher", .object [("message", .string cipher), ("params", .object [("iv", .string iv)])])]
    let scrypt := CJson.object [("crypto", .object (("kdf", .object [("function", .string "scrypt"),
      ("params", .object [("dklen", .number dklen), ("n", .number n), ("r", .number r),
        ("p", .number p), ("salt", .string salt)])]) :: tail))]
    let pbkdf2 := CJson.object [("crypto", .object (("kdf", .object [("function", .string "pbkdf2"),
      ("params", .object [("dklen", .number dklen), ("c", .number c), ("prf", .string prf),
        ("salt", .string salt)])]) :: tail))]
    let kdf := L.getDecryptionKeyScrypt password dklen n r p salt dk
    let finish (dk' : Bytes32) : Int :=
      if L.verificatePassword checksum cipher dk' ≠ 0 then L.verificatePassword checksum cipher dk'
      else (L.getPrivateKey cipher iv dk' pk).1
    importFromKeystore L [scrypt] [password] dk pk = (if kdf.1 ≠ 0 then kdf.1 else finish kdf.2) ∧
    importFromKeystore L [pbkdf2] [password] dk pk = finish dk := by
  rcases L with ⟨_, _, _, scryptKdf, verify, privateKey, _, _⟩
  intro tail scrypt pbkdf2 kdf finish
  simp only [scrypt, pbkdf2, tail, importFromKeystore, importFromKeystoreLoop, importEntry,
    getDecryptionKeyEncryptionType, getDecryptionKeyScryptParams, getDecryptionKeyPbkdf2Params,
    verificatePasswordParams, getPrivateKeyParams, isObject, field_cons, stringField_cons,
    numberField_cons, String.reduceEq, if_true, if_false, bind_ok, bind_error, SCRYPTTYPE,
    PBKDF2TYPE, Int.reduceEq, kdf, finish]
  constructor
  · -- the code checks the KDF's return, then the checksum, then the decryption
    generalize scryptKdf password dklen n r p salt dk = q
    obtain ⟨kr, kdk⟩ := q
    by_cases h1 : kr = 0
    · by_cases h2 : verify checksum cipher kdk = 0
      · by_cases h3 : (privateKey cipher iv kdk pk).1 = 0 <;> simp [h1, h2, h3]
      · simp [h1, h2]
    · simp [h1]
  · by_cases h2 : verify checksum cipher dk = 0
    · by_cases h3 : (privateKey cipher iv dk pk).1 = 0 <;> simp [h2, h3]
    · simp [h2]

/-! ## Error codes

Each reader returns `0` or an error code that its caller tests with `!= 0` and passes
up, so none of them may fail with `0`. -/

/-- Every error `x` fails with is a nonzero code. -/
def ErrorsNonzero {α : Type} (x : Except Int α) : Prop := ∀ e, x = .error e → e ≠ 0

theorem errorsNonzero_ok {α : Type} (a : α) : ErrorsNonzero (.ok a : Except Int α) :=
  fun _ h => by cases h

theorem errorsNonzero_error {α : Type} {e : Int} (h : e ≠ 0) :
    ErrorsNonzero (.error e : Except Int α) :=
  fun _ he => by cases he; exact h

theorem errorsNonzero_bind {α β : Type} {x : Except Int α} {f : α → Except Int β}
    (hx : ErrorsNonzero x) (hf : ∀ a, ErrorsNonzero (f a)) : ErrorsNonzero (x >>= f) := by
  cases x with
  | error e => exact errorsNonzero_error (hx e rfl)
  | ok a => exact hf a

/-- `if (ret != 0) return ret;`, the test after each external call. -/
theorem errorsNonzero_check {α : Type} (ret : Int) (v : α) :
    ErrorsNonzero (if ret ≠ 0 then .error ret else .ok v) := by
  split_ifs with h
  · exact errorsNonzero_error h
  · exact errorsNonzero_ok v

section ErrorCodes
variable (L : Libs)

theorem isObject_nz (j : CJson) : ErrorsNonzero (isObject L j) := by
  unfold isObject
  split
  exacts [errorsNonzero_ok _, errorsNonzero_error L.badJsonFormat_ne_zero]

theorem field_nz (j : CJson) (name : String) : ErrorsNonzero (field L j name) := by
  unfold field
  split
  exacts [errorsNonzero_ok _, errorsNonzero_error L.badJsonFormat_ne_zero]

theorem stringField_nz (j : CJson) (name : String) : ErrorsNonzero (stringField L j name) := by
  unfold stringField
  split
  exacts [errorsNonzero_ok _, errorsNonzero_error L.badJsonFormat_ne_zero]

theorem numberField_nz (j : CJson) (name : String) : ErrorsNonzero (numberField L j name) := by
  unfold numberField
  split
  exacts [errorsNonzero_ok _, errorsNonzero_error L.badJsonFormat_ne_zero]

theorem getDecryptionKeyEncryptionType_nz (k : CJson) :
    ErrorsNonzero (getDecryptionKeyEncryptionType L k) := by
  unfold getDecryptionKeyEncryptionType
  refine errorsNonzero_bind (isObject_nz L k) fun _ => errorsNonzero_bind (field_nz L _ _)
    fun crypto => errorsNonzero_bind (field_nz L _ _) fun kdf =>
      errorsNonzero_bind (stringField_nz L _ _) fun function => ?_
  split_ifs
  exacts [errorsNonzero_ok _, errorsNonzero_ok _, errorsNonzero_error (by decide)]

theorem getDecryptionKeyPbkdf2Params_nz (k : CJson) (p : String) (dk : Bytes32) :
    ErrorsNonzero (getDecryptionKeyPbkdf2Params L k p dk) :=
  errorsNonzero_bind (isObject_nz L k) fun _ => errorsNonzero_bind (field_nz L _ _)
    fun _ => errorsNonzero_bind (field_nz L _ _) fun _ => errorsNonzero_bind (field_nz L _ _)
    fun _ => errorsNonzero_bind (numberField_nz L _ _) fun _ =>
    errorsNonzero_bind (numberField_nz L _ _) fun _ =>
    errorsNonzero_bind (stringField_nz L _ _) fun _ =>
    errorsNonzero_bind (stringField_nz L _ _) fun _ => errorsNonzero_ok dk

theorem getDecryptionKeyScryptParams_nz (k : CJson) (p : String) (dk : Bytes32) :
    ErrorsNonzero (getDecryptionKeyScryptParams L k p dk) :=
  errorsNonzero_bind (isObject_nz L k) fun _ => errorsNonzero_bind (field_nz L _ _)
    fun _ => errorsNonzero_bind (field_nz L _ _) fun _ => errorsNonzero_bind (field_nz L _ _)
    fun _ => errorsNonzero_bind (numberField_nz L _ _) fun _ =>
    errorsNonzero_bind (numberField_nz L _ _) fun _ =>
    errorsNonzero_bind (numberField_nz L _ _) fun _ =>
    errorsNonzero_bind (numberField_nz L _ _) fun _ =>
    errorsNonzero_bind (stringField_nz L _ _) fun _ => errorsNonzero_check _ _

theorem verificatePasswordParams_nz (k : CJson) (dk : Bytes32) :
    ErrorsNonzero (verificatePasswordParams L k dk) :=
  errorsNonzero_bind (isObject_nz L k) fun _ => errorsNonzero_bind (field_nz L _ _)
    fun _ => errorsNonzero_bind (field_nz L _ _) fun _ => errorsNonzero_bind (field_nz L _ _)
    fun _ => errorsNonzero_bind (stringField_nz L _ _) fun _ =>
    errorsNonzero_bind (stringField_nz L _ _) fun _ => errorsNonzero_check _ _

theorem getPrivateKeyParams_nz (k : CJson) (dk pk : Bytes32) :
    ErrorsNonzero (getPrivateKeyParams L k dk pk) :=
  errorsNonzero_bind (isObject_nz L k) fun _ => errorsNonzero_bind (field_nz L _ _)
    fun _ => errorsNonzero_bind (field_nz L _ _) fun _ => errorsNonzero_bind (field_nz L _ _)
    fun _ => errorsNonzero_bind (stringField_nz L _ _) fun _ =>
    errorsNonzero_bind (stringField_nz L _ _) fun _ => errorsNonzero_check _ _

theorem importEntry_nz (k : CJson) (p : String) (dk pk : Bytes32) :
    ErrorsNonzero (importEntry L k p dk pk) := by
  refine errorsNonzero_bind (getDecryptionKeyEncryptionType_nz L k) fun type => ?_
  simp only []
  split_ifs
  all_goals refine errorsNonzero_bind ?_ fun dk' =>
    errorsNonzero_bind (verificatePasswordParams_nz L k dk') fun _ =>
      errorsNonzero_bind (getPrivateKeyParams_nz L k dk' pk) fun _ => errorsNonzero_ok _
  exacts [getDecryptionKeyPbkdf2Params_nz L k p dk, getDecryptionKeyScryptParams_nz L k p dk,
    errorsNonzero_error (by decide)]

theorem importFromKeystoreLoop_nz (ks : List CJson) (ps : List String) (dk pk : Bytes32) :
    ErrorsNonzero (importFromKeystoreLoop L ks ps dk pk) := by
  induction ks generalizing ps dk pk with
  | nil => exact errorsNonzero_ok _
  | cons k ks ih =>
    cases ps with
    | nil => exact errorsNonzero_ok _
    | cons p ps => exact errorsNonzero_bind (importEntry_nz L k p dk pk) fun q => ih ps q.1 q.2

end ErrorCodes

/-- `import_from_keystore` reports success exactly when every entry of the batch gets
through the whole pipeline: no reader or external call fails with the code `0`. -/
theorem importFromKeystore_eq_zero_iff (L : Libs) (ks : List CJson) (ps : List String)
    (dk pk : Bytes32) :
    importFromKeystore L ks ps dk pk = 0 ↔ ∃ r, importFromKeystoreLoop L ks ps dk pk = .ok r := by
  unfold importFromKeystore
  split
  · next r h => exact ⟨fun _ => ⟨r, h⟩, fun _ => rfl⟩
  · next e h =>
    simp only [h, reduceCtorEq, exists_false, iff_false]
    exact importFromKeystoreLoop_nz L ks ps dk pk e h

end BlsHsm.Import
