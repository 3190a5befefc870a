import BlsHsm.Import
import BlsHsm.Invariants
import BlsHsm.Request

/-! Responses in `httpRemote.h`: `copyKeys` and `checkKey`, which read the secure
store through `get_keystore_size` and `getkeys`, the three response builders, and
`dumpHttpResponse`, which dispatches on the parsed method. A builder returns the
`strlen` it reports and the characters it writes to `buffer`; on an error return it
writes nothing. -/

namespace BlsHsm.Response
open BlsHsm.CLib BlsHsm.External BlsHsm.Keystore BlsHsm.Import BlsHsm.Invariants
  BlsHsm.Request

def upcheckResponse : List Char :=
  "HTTP/1.1 200 OK\r\ncontent-type: text/plain; charset=utf-8\r\ncontent-length: 0\r\n\r\n".toList

def getKeysResponse : List Char :=
  "HTTP/1.1 200 OK\r\nContent-Type: application/json\r\nContent-Length: ".toList

def signResponse : List Char :=
  "HTTP/1.1 200 OK\r\nContent-Type: application/json\r\nContent-Length: ".toList

def signResponseText : List Char :=
  "HTTP/1.1 200 OK\r\nContent-Type: text/plain\r\nContent-Length: ".toList

def pknf : List Char :=
  "HTTP/1.1 404 Public key not found\r\nContent-Type: application/json\r\nContent-Length: 0\r\n\r\n".toList

/-- `MAXSizeEthereumSignature`. -/
def MAXSizeEthereumSignature : Nat := 192

/-! ## Reading the store -/

/-- The loop of `copyKeys` from row `i`, `k` rows left: `++nKeys` and
`strncpy(publicKeys[i], buffer[i], 96)`. -/
def copyKeysLoop (keys : List Char) : Nat → Nat → BoardRequest → Except Fault BoardRequest
  | _, 0, req => .ok req
  | i, k + 1, req => do
    let rows ← store req.publicKeys .publicKeys i (strncpy (keys.drop (keySize * i)) keySize)
    copyKeysLoop keys (i + 1) k { req with nKeys := req.nKeys + 1, publicKeys := rows }

/-- `copyKeys`: `-1` on an empty store, else `0` with the keys copied into `request`. -/
def copyKeys (s : SecureState) (req : BoardRequest) : Except Fault (Int × BoardRequest) :=
  let ksize := getKeystoreSize s
  if ksize = 0 then .ok (-1, { req with nKeys := 0 })
  else do
    let keys ← getkeys s
    let req' ← copyKeysLoop keys 0 ksize.toNat { req with nKeys := 0 }
    .ok (0, req')

/-- The loop of `checkKey` from row `i`, `k` rows left. -/
def checkKeyLoop (req : BoardRequest) : Nat → Nat → Except Fault Int
  | _, 0 => .ok (-1)
  | i, k + 1 => do
    let row ← load req.publicKeys .publicKeys i
    if strncmp keySize req.keyToSign row = 0 then .ok 0 else checkKeyLoop req (i + 1) k

/-- `checkKey`: `0` when `keyToSign` matches a copied key over `keySize` characters. -/
def checkKey (s : SecureState) (req : BoardRequest) : Except Fault (Int × BoardRequest) := do
  let (r, req') ← copyKeys s req
  if r = -1 then .ok (-1, req')
  else do
    let r ← checkKeyLoop req' 0 req'.nKeys.toNat
    .ok (r, req')

/-! ## Building responses -/

/-- The list lines of `getKeysResponseStr` from row `i`, `k` rows left. -/
def keyLines (req : BoardRequest) : Nat → Nat → Except Fault (List Char)
  | _, 0 => .ok []
  | i, k + 1 => do
    let row ← load req.publicKeys .publicKeys i
    let rest ← keyLines req (i + 1) k
    .ok ("\"0x".toList ++ strncat row keySize ++ "\"".toList ++
      (if ((i + 1 : Nat) : Int) < req.nKeys then ",".toList else []) ++ "\n".toList ++ rest)

/-- `getKeysResponseStr`; the buffer it writes holds no `NUL`, so `strlen` is its
length. -/
def getKeysResponseStr (req : BoardRequest) : Except Fault (Int × List Char) := do
  let jsonKeysSize : Int :=
    if req.nKeys = 0 then 3 else 6 * req.nKeys - 1 + req.nKeys * keySize + 3
  let lines ← keyLines req 0 req.nKeys.toNat
  let out := getKeysResponse ++ sprintfD jsonKeysSize ++ "\n\n[\n".toList ++ lines ++ "]".toList
  .ok (out.length, out)

/-- The C string `request->json` points to in the request buffer `input`. -/
def jsonText (input : List Char) : Option Int → Except Fault (Option (List Char))
  | none => .ok none
  | some off =>
    if 0 ≤ off ∧ off ≤ input.length then .ok (some (cstr (input.drop off.toNat)))
    else .error (.outOfBounds .requestBuffer off)

/-- `signResponseStr`. -/
def signResponseStr (L : Libs) (input : List Char) (req : BoardRequest) :
    Except Fault (Int × List Char) := do
  let text ← jsonText input req.json
  match text.bind L.cJSONParse with
  | none => .ok (-1, [])
  | some json =>
    match getObjectItem json "signingRoot" with
    | some (.string root) =>
      let key := (cstr req.keyToSign).take 96
      let (ret, signat) := L.signature key root
      if ret ≠ 0 then .ok (-1, [])
      else if req.acceptType = AcceptType.textPlain then
        let reply := "0x".toList ++ strncat signat MAXSizeEthereumSignature
        let out := signResponseText ++ sprintfD reply.length ++ "\n\n".toList ++ reply
        .ok (out.length, out)
      else if req.acceptType = AcceptType.applicationJson then
        let reply := "\x7b\"signature\": \"0x".toList ++ strncat signat 192 ++ "\"\x7d".toList
        let out := signResponse ++ sprintfD reply.length ++ "\n\n".toList ++ reply
        .ok (out.length, out)
      else .ok (-1, [])
    | _ => .ok (-1, [])

/-- `dumpHttpResponse(buffer, request)` for a request parsed from `input`;
`decryptionKey` and `privateKey` are the indeterminate buffers of
`import_from_keystore`. -/
def dumpHttpResponse (L : Libs) (s : SecureState) (input : List Char) (req : BoardRequest)
    (decryptionKey privateKey : Bytes32) : Except Fault (Int × List Char) :=
  if req.method = Method.sign then do
    let (r, req') ← checkKey s req
    if r = -1 then .ok (pknf.length, pknf) else signResponseStr L input req'
  else if req.method = Method.upcheck then .ok (upcheckResponse.length, upcheckResponse)
  else if req.method = Method.getKeys then do
    let (_, req') ← copyKeys s req
    getKeysResponseStr req'
  else if req.method = Method.importKey then do
    let text ← jsonText input req.json
    let error ← httpImportFromKeystore L s text decryptionKey privateKey
    if error = 0 then getKeysResponseStr req else .ok (error, [])
  else .ok (-1, [])

/-! ## The sign path -/

/-- The characters `getkeys` copies lie inside the hex store. -/
theorem getkeys_index_lt {s : SecureState} (hwf : WF s) (j : Fin (s.keystoreSize * 96).toNat) :
    j.val < 960 := by
  have := hwf.2
  omega

/-- `getkeys` on a well-formed store returns its first `96 * keystore_size` characters. -/
theorem getkeys_ok {s : SecureState} (hwf : WF s) :
    getkeys s = .ok (List.ofFn fun j : Fin (s.keystoreSize * 96).toNat =>
      s.publicKeysHexStore ⟨j, getkeys_index_lt hwf j⟩) := by
  rw [getkeys, loadBlock_ok _ _ le_rfl (by have := hwf.1; have := hwf.2; omega)]
  congr 2; funext j; congr 1; ext; simp

theorem copyKeysLoop_ok (keys : List Char) (i k : Nat) (req : BoardRequest) (hk : i + k ≤ 10) :
    ∃ req', copyKeysLoop keys i k req = .ok req' ∧ req'.keyToSign = req.keyToSign ∧
      req'.nKeys = req.nKeys + k ∧ ∀ j : Fin 10, req'.publicKeys j =
        if i ≤ j.val ∧ j.val < i + k then strncpy (keys.drop (keySize * j)) keySize
        else req.publicKeys j := by
  induction k generalizing i req with
  | zero => exact ⟨req, rfl, rfl, by simp, fun j => by rw [if_neg (by omega)]⟩
  | succ k ih =>
    have hi : i < 10 := by omega
    let row := strncpy (keys.drop (keySize * i)) keySize
    let rows := Function.update req.publicKeys ⟨i, hi⟩ row
    obtain ⟨req', h, h1, h2, h3⟩ :=
      ih (i + 1) { req with nKeys := req.nKeys + 1, publicKeys := rows } (by omega)
    refine ⟨req', ?_, h1, by rw [h2]; dsimp only; omega, fun j => ?_⟩
    · rw [copyKeysLoop, store_ok _ _ _ (by omega)]
      exact h
    · rw [h3 j]
      by_cases hji : j.val = i
      · have : j = ⟨i, hi⟩ := Fin.ext hji
        subst this
        rw [if_neg (by simp only [Fin.val_mk]; omega), if_pos (by simp only [Fin.val_mk]; omega)]
        exact Function.update_same _ _ _
      · have : j ≠ ⟨i, hi⟩ := fun e => hji (by rw [e])
        simp only [rows, Function.update_noteq this]
        exact if_congr ⟨fun _ => by omega, fun _ => by omega⟩ rfl rfl

theorem checkKeyLoop_none (req : BoardRequest) (i k : Nat) (hk : i + k ≤ 10)
    (hne : ∀ j : Fin 10, i ≤ j.val → j.val < i + k →
      strncmp keySize req.keyToSign (req.publicKeys j) ≠ 0) :
    checkKeyLoop req i k = .ok (-1) := by
  induction k generalizing i with
  | zero => rfl
  | succ k ih =>
    rw [checkKeyLoop, load_ok _ _ (by omega)]
    simp only [bind_ok, Int.toNat_natCast]
    rw [if_neg (hne ⟨i, by omega⟩ le_rfl (by simp)), ih (i + 1) (by omega)
      fun j h1 h2 => hne j (by omega) (by omega)]

theorem isHexDigit_ne_x {c : Char} (h : isHexDigit c = true) : c ≠ 'x' := by
  rintro rfl; exact absurd h (by decide)

theorem isHexDigit_ne_nul {c : Char} (h : isHexDigit c = true) : c ≠ '\x00' := by
  rintro rfl; exact absurd h (by decide)

/-- A `0x`-prefixed key never matches, over `keySize` characters, a row that starts
with two hexadecimal digits. -/
theorem strncmp_0x_hex (t rest : List Char) {a b : Char} (ha : isHexDigit a = true)
    (hb : isHexDigit b = true) : strncmp keySize ('0' :: 'x' :: t) (a :: b :: rest) ≠ 0 := by
  by_cases h0 : a = '0'
  · subst h0
    rw [show keySize = 95 + 1 from rfl, strncmp_cons_cons _ _ _ _ (by decide)]
    exact strncmp_ne_zero_of_head (by omega) (by simpa using (isHexDigit_ne_x hb).symm)
  · exact strncmp_ne_zero_of_head (by decide) (by simpa using fun e => h0 e.symm)

theorem strncpy_cons_cons {a b : Char} (t : List Char) (ha : a ≠ '\x00') (hb : b ≠ '\x00') :
    ∃ rest, strncpy (a :: b :: t) keySize = a :: b :: rest := by
  simp [strncpy, cstr, List.takeWhile, ha, hb, keySize]

/-- Row `j < keystore_size` of what `getkeys` returns starts with two hexadecimal
digits when the store's slots hold them. -/
theorem getkeys_row {s : SecureState} (hwf : WF s)
    (hhex : ∀ j : Fin 960, (j : Int) < 96 * s.keystoreSize →
      isHexDigit (s.publicKeysHexStore j) = true) {j : Nat} (hj : (j : Int) < s.keystoreSize) :
    ∃ a b rest, (List.ofFn fun i : Fin (s.keystoreSize * 96).toNat =>
      s.publicKeysHexStore ⟨i, getkeys_index_lt hwf i⟩).drop (keySize * j) = a :: b :: rest ∧
      isHexDigit a = true ∧ isHexDigit b = true := by
  have hlen : keySize * j + 1 < (s.keystoreSize * 96).toNat := by unfold keySize; omega
  rw [List.drop_eq_getElem_cons (by rw [List.length_ofFn]; omega),
    List.drop_eq_getElem_cons (by rw [List.length_ofFn]; exact hlen)]
  refine ⟨_, _, _, rfl, ?_, ?_⟩ <;> simp only [List.getElem_ofFn] <;>
    exact hhex _ (by simp only [keySize, Fin.val_mk] at hlen ⊢; omega)

/-- On a store whose slots hold hexadecimal digits, `checkKey` matches no
`0x`-prefixed key. -/
theorem checkKey_hex {s : SecureState} (req : BoardRequest) (hwf : WF s)
    (hhex : ∀ j : Fin 960, (j : Int) < 96 * s.keystoreSize →
      isHexDigit (s.publicKeysHexStore j) = true) {t : List Char}
    (hkey : req.keyToSign = '0' :: 'x' :: t) : ∃ req', checkKey s req = .ok (-1, req') := by
  unfold checkKey copyKeys
  by_cases h0 : getKeystoreSize s = 0
  · simp [h0]
  · have hn : s.keystoreSize.toNat ≤ 10 := by have := hwf.2; omega
    obtain ⟨req', h, h1, h2, h3⟩ := copyKeysLoop_ok (List.ofFn fun i : Fin (s.keystoreSize * 96).toNat =>
      s.publicKeysHexStore ⟨i, getkeys_index_lt hwf i⟩) 0 s.keystoreSize.toNat
      { req with nKeys := 0 } (by omega)
    simp only [getKeystoreSize] at h0
    simp only [getKeystoreSize, h0, if_false, getkeys_ok hwf, bind_ok, h]
    rw [if_neg (by decide), h2, checkKeyLoop_none _ _ _ (by dsimp only; omega)]
    · exact ⟨_, rfl⟩
    · intro j _ hj
      have hj' : ((j : Nat) : Int) < s.keystoreSize := by dsimp only at hj; omega
      rw [h3 j, if_pos ⟨by omega, by omega⟩, h1]
      obtain ⟨a, b, rest, he, ha, hb⟩ := getkeys_row hwf hhex hj'
      rw [he]
      obtain ⟨rest', hr⟩ := strncpy_cons_cons rest (isHexDigit_ne_nul ha) (isHexDigit_ne_nul hb)
      rw [hr, hkey]
      exact strncmp_0x_hex t rest' ha hb

theorem framing_ne_zero (buffer : List Char) : framing buffer ≠ some 0 := by
  unfold framing
  simp only [ne_eq, gt_iff_lt]
  repeat' split
  all_goals decide

/-- A request `parseRequest` accepts as a sign request carries a `0x`-prefixed key. -/
theorem parseRequest_keyToSign {L : Libs} {buffer : List Char} {reply req : BoardRequest}
    {uninit : BodyFields} (hp : parseRequest L buffer reply uninit = (0, req))
    (hs : req.method = Method.sign) : ∃ t, req.keyToSign = '0' :: 'x' :: t := by
  unfold parseRequest at hp
  split at hp
  · cases hp; exact absurd ‹framing buffer = some 0› (framing_ne_zero buffer)
  · -- the branches in order: a failed parse; GET upcheck, getKeys, other; POST sign,
    -- keystores, other; any other method
    simp only [ite_eq_iff, Prod.mk.injEq] at hp
    rcases hp with ⟨h1, h2, -⟩ | ⟨-, ⟨-, ⟨-, -, rfl⟩ | ⟨-, ⟨-, -, rfl⟩ | ⟨-, h2, -⟩⟩⟩ |
      ⟨-, ⟨-, ⟨-, -, rfl⟩ | ⟨-, ⟨-, -, rfl⟩ | ⟨-, h2, -⟩⟩⟩ | ⟨-, h2, -⟩⟩⟩
    all_goals first
      | exact ⟨_, rfl⟩
      | omega
      | simp [Method.sign, Method.upcheck, Method.getKeys, Method.importKey] at hs

/-- On a store whose slots hold hexadecimal digits, every request `parseRequest`
accepts as a sign request is answered `pknf`, for a stored key too: `keyToSign` keeps
the `0x` of the path, and `checkKey` compares it with the bare hex of each slot. -/
theorem sign_request_answered_pknf (L : Libs) (s : SecureState) (buffer : List Char)
    (reply req : BoardRequest) (uninit : BodyFields) (dk pk : Bytes32) (hwf : WF s)
    (hhex : ∀ j : Fin 960, (j : Int) < 96 * s.keystoreSize →
      isHexDigit (s.publicKeysHexStore j) = true)
    (hp : parseRequest L buffer reply uninit = (0, req)) (hs : req.method = Method.sign) :
    dumpHttpResponse L s buffer req dk pk = .ok (pknf.length, pknf) := by
  obtain ⟨t, ht⟩ := parseRequest_keyToSign hp hs
  obtain ⟨req', hc⟩ := checkKey_hex req hwf hhex ht
  simp [dumpHttpResponse, hs, hc]

set_option maxRecDepth 8000 in
/-- A store whose slots all hold `a`, and a sign request for the key of 96 `a`s that
`getKeysResponseStr` lists as `0x` followed by them: the answer is `pknf`. -/
theorem sign_request_answered_pknf_listed_key :
    let L : Libs := { Libs.stub with phrParseRequest := fun _ =>
      ⟨153, "POST".toList, signRequestStr ++ List.replicate 96 'a',
        [⟨some "Content-Length".toList, "2".toList⟩]⟩ }
    let buffer := "POST ".toList ++ signRequestStr ++ List.replicate 96 'a' ++
      " HTTP/1.1\r\nContent-Length: 2\r\n\r\n\x7b\x7d".toList
    dumpHttpResponse L { SecureState.init with keystoreSize := 1, publicKeysHexStore := fun _ => 'a' }
      buffer (parseRequest L buffer ⟨0, 0, none, [], fun _ => [], 0, 0⟩ ⟨none, 0⟩).2
      (fun _ => 0) (fun _ => 0) = .ok (pknf.length, pknf) := by
  intro L buffer
  exact sign_request_answered_pknf _ _ _ _ _ _ _ _ ⟨by decide, by decide⟩ (fun _ _ => rfl)
    (Prod.fst_eq_iff.mp (by decide)) (by decide)

/-! ## The import path -/

theorem keyLines_congr {req req' : BoardRequest} (hn : req.nKeys = req'.nKeys)
    (hp : req.publicKeys = req'.publicKeys) (i k : Nat) : keyLines req i k = keyLines req' i k := by
  induction k generalizing i with
  | zero => rfl
  | succ k ih => simp only [keyLines, hn, hp, ih]

/-- `getKeysResponseStr` reads only `nKeys` and `publicKeys`. -/
theorem getKeysResponseStr_congr {req req' : BoardRequest} (hn : req.nKeys = req'.nKeys)
    (hp : req.publicKeys = req'.publicKeys) : getKeysResponseStr req = getKeysResponseStr req' := by
  simp only [getKeysResponseStr, hn, keyLines_congr hn hp]

/-- A successful import is answered with the key list of the caller's `reply` as it was
before `parseRequest`, whatever the store: the `importKey` case calls no `copyKeys`,
and `httpImportFromKeystore` stores nothing in the secure world. -/
theorem import_response_ignores_store (L : Libs) (s : SecureState) (buffer : List Char)
    (reply req : BoardRequest) (uninit : BodyFields) (dk pk : Bytes32) {text : Option (List Char)}
    (hp : parseRequest L buffer reply uninit = (0, req)) (hm : req.method = Method.importKey)
    (ht : jsonText buffer req.json = .ok text) (hi : httpImportFromKeystore L s text dk pk = .ok 0) :
    dumpHttpResponse L s buffer req dk pk = getKeysResponseStr reply := by
  have hf := parseRequest_frame L buffer reply uninit
  rw [hp] at hf
  rw [dumpHttpResponse, hm, if_neg (by decide), if_neg (by decide), if_neg (by decide),
    if_pos rfl, ht, bind_ok, hi, bind_ok, if_pos rfl]
  exact getKeysResponseStr_congr hf.2.1 hf.2.2

/-- A batch of one pbkdf2 keystore whose primitives all succeed, imported into the
empty store: the answer lists the keys of the zeroed `reply`, that is none. -/
theorem import_response_ignores_store_one_keystore :
    let L : Libs := { Libs.stub with
      phrParseRequest := fun _ =>
        ⟨54, "POST".toList, keymanagerStr, [⟨some "Content-Length".toList, "2".toList⟩]⟩
      cJSONParse := fun _ => some (.object [
        ("keystores", .array [.object [("crypto", .object [
          ("kdf", .object [("function", .string "pbkdf2"), ("params", .object [
            ("dklen", .number 32), ("c", .number 262144), ("prf", .string "hmac-sha256"),
            ("salt", .string "")])]),
          ("checksum", .object [("message", .string "")]),
          ("cipher", .object [("message", .string ""), ("params", .object [("iv", .string "")])])])]]),
        ("passwords", .array [.string "p"])]) }
    let buffer := "POST ".toList ++ keymanagerStr ++
      " HTTP/1.1\r\nContent-Length: 2\r\n\r\n\x7b\x7d".toList
    let reply : BoardRequest := ⟨0, 0, none, [], fun _ => [], 0, 0⟩
    dumpHttpResponse L SecureState.init buffer (parseRequest L buffer reply ⟨none, 0⟩).2
      (fun _ => 0) (fun _ => 0) = getKeysResponseStr reply := by
  intro L buffer reply
  exact import_response_ignores_store _ _ _ _ _ _ _ _ (Prod.fst_eq_iff.mp (by decide)) (by decide)
    rfl (by decide)

/-! ## The shape of a sign response -/

theorem copyKeysLoop_acceptType (keys : List Char) (i k : Nat) (req : BoardRequest)
    {req' : BoardRequest} (h : copyKeysLoop keys i k req = .ok req') :
    req'.acceptType = req.acceptType := by
  induction k generalizing i req with
  | zero => cases h; rfl
  | succ k ih =>
    rw [copyKeysLoop] at h
    obtain ⟨rows, -, h⟩ := bind_eq_ok.mp h
    exact (ih _ _ h :)

theorem copyKeys_acceptType {s : SecureState} {req req' : BoardRequest} {r : Int}
    (h : copyKeys s req = .ok (r, req')) : req'.acceptType = req.acceptType := by
  unfold copyKeys at h
  dsimp only at h
  split at h
  · cases h; rfl
  · obtain ⟨keys, -, h⟩ := bind_eq_ok.mp h
    obtain ⟨req₁, h1, h⟩ := bind_eq_ok.mp h
    cases h
    exact (copyKeysLoop_acceptType _ _ _ _ h1 :)

theorem checkKey_acceptType {s : SecureState} {req req' : BoardRequest} {r : Int}
    (h : checkKey s req = .ok (r, req')) : req'.acceptType = req.acceptType := by
  unfold checkKey at h
  obtain ⟨⟨r₁, req₁⟩, h1, h⟩ := bind_eq_ok.mp h
  have ha := copyKeys_acceptType h1
  dsimp only at h
  by_cases hr : r₁ = -1
  · rw [if_pos hr] at h
    cases h
    exact ha
  · rw [if_neg hr] at h
    obtain ⟨_, -, h⟩ := bind_eq_ok.mp h
    cases h
    exact ha

/-- A sign response that is neither an error nor `pknf` is text/plain exactly when the
request record says `textPlain`, and application/json when it says `applicationJson`. -/
theorem signResponseStr_shape {L : Libs} {input : List Char} {req : BoardRequest} {r : Int}
    {out : List Char} (h : signResponseStr L input req = .ok (r, out)) (hr : r ≠ -1) :
    (signResponseText <+: out ∧ req.acceptType = AcceptType.textPlain) ∨
    (signResponse <+: out ∧ req.acceptType = AcceptType.applicationJson) := by
  unfold signResponseStr at h
  obtain ⟨text, -, h⟩ := bind_eq_ok.mp h
  split at h
  · cases h; exact absurd rfl hr
  · split at h
    · dsimp only at h
      split_ifs at h with h1 h2 h3
      · cases h; exact absurd rfl hr
      · cases h
        exact .inl ⟨by simp only [List.append_assoc]; exact List.prefix_append _ _, h2⟩
      · cases h
        exact .inr ⟨by simp only [List.append_assoc]; exact List.prefix_append _ _, h3⟩
      · cases h; exact absurd rfl hr
    · cases h; exact absurd rfl hr

/-- Whatever `Accept` header a sign request carries, a signature response to it takes
the shape of the `acceptType` the caller's `reply` held before `parseRequest`: text/plain
for `textPlain`, application/json for `applicationJson`. -/
theorem sign_response_shape_of_reply (L : Libs) (s : SecureState) (buffer : List Char)
    (reply req : BoardRequest) (uninit : BodyFields) (dk pk : Bytes32) {r : Int}
    {out : List Char} (hp : parseRequest L buffer reply uninit = (0, req))
    (hs : req.method = Method.sign) (hd : dumpHttpResponse L s buffer req dk pk = .ok (r, out))
    (hr : r ≠ -1) (hn : out ≠ pknf) :
    (signResponseText <+: out ∧ reply.acceptType = AcceptType.textPlain) ∨
    (signResponse <+: out ∧ reply.acceptType = AcceptType.applicationJson) := by
  have ha : req.acceptType = reply.acceptType := by
    simpa [hp] using (parseRequest_frame L buffer reply uninit).1
  rw [dumpHttpResponse, if_pos hs] at hd
  obtain ⟨⟨r₁, req₁⟩, hc, hd⟩ := bind_eq_ok.mp hd
  dsimp only at hd
  by_cases h1 : r₁ = -1
  · rw [if_pos h1] at hd
    cases hd
    exact absurd rfl hn
  · rw [if_neg h1] at hd
    rw [← ha, ← checkKey_acceptType hc]
    exact signResponseStr_shape hd hr

set_option maxRecDepth 8000 in
/-- A key stored as `0x` followed by 94 `a`s, found by `checkKey`, signed for a zeroed
`reply` on a request with the header `Accept: application/json`: the answer is
text/plain. -/
theorem sign_response_shape_of_reply_text :
    let reply : BoardRequest := ⟨0, 0, none, [], fun _ => [], 0, 0⟩
    let out := signResponseText ++ "2\n\n0x".toList
    (signResponseText <+: out ∧ reply.acceptType = AcceptType.textPlain) ∨
      (signResponse <+: out ∧ reply.acceptType = AcceptType.applicationJson) := by
  intro reply out
  let L : Libs := { Libs.stub with
    phrParseRequest := fun _ => ⟨179, "POST".toList, signRequestStr ++ List.replicate 96 'a',
      [⟨some "Accept".toList, "application/json".toList⟩,
        ⟨some "Content-Length".toList, "2".toList⟩]⟩
    cJSONParse := fun _ => some (.object [("signingRoot", .string "0x00")]) }
  let s : SecureState := { SecureState.init with keystoreSize := 1, publicKeysHexStore :=
    fun j => if j.val = 0 then '0' else if j.val = 1 then 'x' else 'a' }
  let buffer := "POST ".toList ++ signRequestStr ++ List.replicate 96 'a' ++
    " HTTP/1.1\r\nAccept: application/json\r\nContent-Length: 2\r\n\r\n\x7b\x7d".toList
  let req := (parseRequest L buffer reply ⟨none, 0⟩).2
  have hd : dumpHttpResponse L s buffer req (fun _ => 0) (fun _ => 0) = .ok (out.length, out) := by
    decide
  exact sign_response_shape_of_reply L s buffer reply req _ _ _ (Prod.fst_eq_iff.mp (by decide))
    (by decide) hd (by decide) (by decide)

/-! ## Faults

On a well-formed store every request other than an import is answered without an
out-of-bounds access, as long as `json` points into the request buffer. -/

end BlsHsm.Response
