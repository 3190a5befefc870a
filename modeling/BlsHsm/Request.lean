import BlsHsm.External

/-! Request parsing in `httpRemote.h`: the header scans `getAcceptOptions` and
`getBody`, the framing checks `parseRequest` makes on the raw buffer, and
`parseRequest` itself, which classifies the method and path `phr_parse_request`
returns and fills the `boardRequest` reply. -/

namespace BlsHsm.Request
open BlsHsm.CLib BlsHsm.External

/-- `keySize`. -/
def keySize : Nat := 96

-- The method codes `sign`, `upcheck`, `getKeys` and `importKey`.
def Method.sign : Int := 0
def Method.upcheck : Int := 1
def Method.getKeys : Int := 2
def Method.importKey : Int := 4

-- The accept codes `textPlain` and `applicationJson`.
def AcceptType.textPlain : Int := 0
def AcceptType.applicationJson : Int := 1

def upcheckStr : List Char := "/upcheck".toList
def getKeysStr : List Char := "/api/v1/eth2/publicKeys".toList
def signRequestStr : List Char := "/api/v1/eth2/sign/0x".toList
def contentLengthStr : List Char := "content-length".toList
def keymanagerStr : List Char := "/eth/v1/keystores".toList
def acceptStr : List Char := "Accept".toList
def applicationJsonStr : List Char := "application/json".toList

/-- `struct boardRequest`. `json` is `NULL` or an offset into the request buffer;
`keyToSign`, a `char*` in the code, is an allocated string, never `NULL`; each row of
`publicKeys` holds `keySize` characters. -/
structure BoardRequest where
  method : Int
  acceptType : Int
  json : Option Int
  keyToSign : List Char
  publicKeys : Fin 10 → List Char
  nKeys : Int
  jsonLen : Int

/-- The fields of the local `struct httpRequest` that `getBody` writes: `body` as
`NULL` or an offset into the buffer, and `bodyLen` as the `(int)` casts read it. -/
structure BodyFields where
  body : Option Int
  bodyLen : Int
  deriving DecidableEq, Repr

/-! ## Header scans -/

/-- The stop test of the scan in `getAcceptOptions`: a `NULL` name, or the name `Accept`. -/
def acceptScanStops (h : PhrHeader) : Bool :=
  match h.name with
  | none => true
  | some n => n.length = acceptStr.length && strncmp acceptStr.length acceptStr n = 0

/-- `getAcceptOptions`: the accept type it would store in `request->acceptType`. -/
def getAcceptOptions (headers : List PhrHeader) : Int :=
  match headers.get? (headers.findIdx acceptScanStops) with
  | some h =>
    if (h.value.length = 16 ∧ strncmp 16 applicationJsonStr h.value = 0) ∨
        (h.value.length = 3 ∧ strncmp 3 "*/*".toList h.value = 0) then
      AcceptType.applicationJson
    else AcceptType.textPlain
  | none => AcceptType.textPlain

/-- The stop test of the scan in `getBody`: a `NULL` name, or a name of
`strlen(contentLengthStr)` characters on which `strncmp` is nonzero. -/
def bodyScanStops (h : PhrHeader) : Bool :=
  match h.name with
  | none => true
  | some n => n.length = contentLengthStr.length &&
      strncmp contentLengthStr.length contentLengthStr n ≠ 0

/-- `getBody(buffer, bufferSize, request)`: from the header where the scan stops,
`bodyLen = atoi(value)` and `body = buffer + bufferSize - bodyLen`, `NULL` unless
`bodyLen > 0`; with no such header both fields stay as they were. -/
def getBody (bufferSize : Nat) (headers : List PhrHeader) (r : BodyFields) : BodyFields :=
  match headers.get? (headers.findIdx bodyScanStops) with
  | some h =>
    let bodyLen := atoi (cstr h.value)
    { body := if 0 < bodyLen then some (bufferSize - bodyLen) else none, bodyLen := bodyLen }
  | none => r

/-- An exact `content-length` header does not stop the `getBody` scan, so a request
whose only length header is spelled so has its body fields left unset; and a
fourteen-character header such as `Accept-Charset` before `Content-Length` stops the
scan, which then reads the wrong value. -/
theorem getBody_misreads_length (n : Nat) (r : BodyFields) :
    getBody n [⟨some "content-length".toList, "5".toList⟩] r = r ∧
    getBody n [⟨some "Accept-Charset".toList, "utf-8".toList⟩,
      ⟨some "Content-Length".toList, "5".toList⟩] r = ⟨none, 0⟩ := by
  constructor <;> rfl

/-! ## Framing -/

/-- The conversion of an `int` to the 32-bit `size_t` of the target in a comparison
with `bufferSize`. -/
def toSizeT (x : Int) : Nat := (x % 2 ^ 32).toNat

theorem toSizeT_of_lt {x : Int} (h0 : 0 ≤ x) (h : x < 2 ^ 32) : toSizeT x = x.toNat := by
  rw [toSizeT, Int.emod_eq_of_lt h0 h]

/-- The checks `parseRequest` makes before `phr_parse_request`, on a buffer whose
bytes after `bufferSize` read as `NUL`: `some r` is `return r`, `none` goes on. -/
def framing (buffer : List Char) : Option Int :=
  if strncmp 4 buffer "POST".toList ≠ 0 ∧ strncmp 3 buffer "GET".toList ≠ 0 then some (-1)
  else if strncmp 4 buffer "POST".toList = 0 then
    match strstr (cstr buffer) "Content-Length: ".toList with
    | some p =>
      match strchr ((cstr buffer).drop p) '\r' with
      | some q =>
        let clen := atoi ((cstr buffer).drop (p + 16))
        let headlen : Int := p + q
        let explen := clen + 4 + headlen
        if buffer.length > toSizeT explen then some (-1)
        else if buffer.length < toSizeT explen then some (-2) else none
      | none => if buffer.length < 300 then some (-2) else some (-1)
    | none => if buffer.length < 300 then some (-2) else none
  else
    match strstr (cstr buffer) "\r\n\r\n".toList with
    | none => if buffer.length < 300 then some (-2) else some (-1)
    | some _ => none

/-! ## `parseRequest` -/

/-- `parseRequest(buffer, bufferSize, reply)`: its return value and `reply`
afterwards. `uninit` is what the local `struct httpRequest` holds before `getBody`
writes it. -/
def parseRequest (L : Libs) (buffer : List Char) (reply : BoardRequest)
    (uninit : BodyFields) : Int × BoardRequest :=
  match framing buffer with
  | some r => (r, reply)
  | none =>
    let req := L.phrParseRequest buffer
    if req.ret < 0 then (req.ret, reply)
    else if req.method.length = 3 ∧ strncmp 3 req.method "GET".toList = 0 then
      if req.path.length = upcheckStr.length ∧
          strncmp upcheckStr.length req.path upcheckStr = 0 then
        (0, { reply with method := Method.upcheck })
      else if req.path.length = getKeysStr.length ∧
          strncmp getKeysStr.length req.path getKeysStr = 0 then
        (0, { reply with method := Method.getKeys })
      else (-3, reply)
    else if req.method.length = 4 ∧ strncmp 4 req.method "POST".toList = 0 then
      let b := getBody buffer.length req.headers uninit
      if req.path.length = signRequestStr.length + keySize ∧
          strncmp signRequestStr.length req.path signRequestStr = 0 then
        (0, { reply with
          keyToSign := '0' :: 'x' :: strncpy (req.path.drop signRequestStr.length) keySize,
          json := b.body, jsonLen := b.bodyLen, method := Method.sign })
      else if req.path.length = keymanagerStr.length ∧
          strncmp keymanagerStr.length req.path keymanagerStr = 0 then
        (0, { reply with json := b.body, jsonLen := b.bodyLen, method := Method.importKey })
      else (-3, reply)
    else (-3, reply)

/-- `parseRequest` leaves `acceptType`, `nKeys` and `publicKeys` of `reply` as they were:
it calls neither `getAcceptOptions` nor `copyKeys`. -/
theorem parseRequest_frame (L : Libs) (buffer : List Char) (reply : BoardRequest)
    (uninit : BodyFields) :
    (parseRequest L buffer reply uninit).2.acceptType = reply.acceptType ∧
    (parseRequest L buffer reply uninit).2.nKeys = reply.nKeys ∧
    (parseRequest L buffer reply uninit).2.publicKeys = reply.publicKeys := by
  unfold parseRequest
  split
  · exact ⟨rfl, rfl, rfl⟩
  · simp only [apply_ite Prod.snd, apply_ite BoardRequest.acceptType, apply_ite BoardRequest.nKeys,
      apply_ite BoardRequest.publicKeys, ite_self, and_self]

/-- Once the framing checks pass and `phr_parse_request` succeeds, `parseRequest` accepts
exactly `GET /upcheck`, `GET /api/v1/eth2/publicKeys`, `POST` of the sign path followed
by 96 characters, whichever they are, and `POST /eth/v1/keystores`, setting the method
and, for a sign request, the key; anything else is `-3` with `reply` as it was. -/
theorem parseRequest_endpoints (L : Libs) (buffer : List Char) (reply : BoardRequest)
    (uninit : BodyFields) (hf : framing buffer = none)
    (hr : 0 ≤ (L.phrParseRequest buffer).ret) :
    let req := L.phrParseRequest buffer
    let b := getBody buffer.length req.headers uninit
    parseRequest L buffer reply uninit =
      if req.method = "GET".toList ∧ req.path = upcheckStr then
        (0, { reply with method := Method.upcheck })
      else if req.method = "GET".toList ∧ req.path = getKeysStr then
        (0, { reply with method := Method.getKeys })
      else if req.method = "POST".toList ∧ signRequestStr <+: req.path ∧
          req.path.length = signRequestStr.length + keySize then
        (0, { reply with
          keyToSign := '0' :: 'x' :: strncpy (req.path.drop signRequestStr.length) keySize,
          json := b.body, jsonLen := b.bodyLen, method := Method.sign })
      else if req.method = "POST".toList ∧ req.path = keymanagerStr then
        (0, { reply with json := b.body, jsonLen := b.bodyLen, method := Method.importKey })
      else (-3, reply) := by
  intro req b
  have hget : (req.method.length = 3 ∧ strncmp 3 req.method "GET".toList = 0) ↔
      req.method = "GET".toList := @strncmp_eq_zero_iff_eq _ "GET".toList (by decide)
  have hpost : (req.method.length = 4 ∧ strncmp 4 req.method "POST".toList = 0) ↔
      req.method = "POST".toList := @strncmp_eq_zero_iff_eq _ "POST".toList (by decide)
  have hsign : (req.path.length = signRequestStr.length + keySize ∧
      strncmp signRequestStr.length req.path signRequestStr = 0) ↔
      signRequestStr <+: req.path ∧ req.path.length = signRequestStr.length + keySize := by
    rw [strncmp_eq_zero_iff (show ∀ c ∈ signRequestStr, c ≠ '\x00' by decide), and_comm]
  have hgp : ("GET".toList = "POST".toList) ↔ False := by decide
  have hpg : ("POST".toList = "GET".toList) ↔ False := by decide
  unfold parseRequest
  rw [hf]
  simp only [if_neg (not_lt.mpr hr), hget, hpost, hsign,
    strncmp_eq_zero_iff_eq (show ∀ c ∈ upcheckStr, c ≠ '\x00' by decide),
    strncmp_eq_zero_iff_eq (show ∀ c ∈ getKeysStr, c ≠ '\x00' by decide),
    strncmp_eq_zero_iff_eq (show ∀ c ∈ keymanagerStr, c ≠ '\x00' by decide)]
  by_cases hg : req.method = "GET".toList
  · simp only [hg, if_true, true_and, hgp, false_and, if_false]
  · by_cases hp : req.method = "POST".toList
    · simp only [hp, if_true, true_and, hpg, false_and, if_false]
    · simp only [hg, hp, if_false, false_and]

set_option maxRecDepth 8000 in
/-- A sign request for a key of 96 `a`s with the two-byte body `{}`, split by
`phr_parse_request` into its method, path and `Content-Length` header: `parseRequest`
accepts it as a sign request for `0x` and the `a`s, with the body as `json`. -/
theorem parseRequest_endpoints_sign_request :
    let buffer := "POST ".toList ++ signRequestStr ++ List.replicate 96 'a' ++
      " HTTP/1.1\r\nContent-Length: 2\r\n\r\n\x7b\x7d".toList
    let L : Libs := { Libs.stub with phrParseRequest := fun _ =>
      ⟨153, "POST".toList, signRequestStr ++ List.replicate 96 'a',
        [⟨some "Content-Length".toList, "2".toList⟩]⟩ }
    let reply : BoardRequest := ⟨0, 0, none, [], fun _ => [], 0, 0⟩
    (framing buffer = none ∧ 0 ≤ (L.phrParseRequest buffer).ret) ∧
    parseRequest L buffer reply ⟨none, 0⟩ = (0, { reply with
      keyToSign := "0x".toList ++ List.replicate 96 'a', json := some 153, jsonLen := 2,
      method := Method.sign }) := by
  intro buffer L reply
  have hf : framing buffer = none := by decide
  refine ⟨⟨hf, by decide⟩, (parseRequest_endpoints L buffer reply _ hf (by decide)).trans ?_⟩
  rw [if_neg (by decide), if_neg (by decide), if_pos ⟨rfl, by decide, rfl⟩]
  rfl

set_option maxRecDepth 8000 in
/-- The same request with 96 `g`s, none of them a hexadecimal digit, in place of the key:
`parseRequest` still returns `0` and sets the method to sign and the key to `0x` and the
`g`s. -/
theorem parseRequest_accepts_non_hex_key :
    let buffer := "POST ".toList ++ signRequestStr ++ List.replicate 96 'g' ++
      " HTTP/1.1\r\nContent-Length: 2\r\n\r\n\x7b\x7d".toList
    let L : Libs := { Libs.stub with phrParseRequest := fun _ =>
      ⟨153, "POST".toList, signRequestStr ++ List.replicate 96 'g',
        [⟨some "Content-Length".toList, "2".toList⟩]⟩ }
    let r := parseRequest L buffer ⟨0, 0, none, [], fun _ => [], 0, 0⟩ ⟨none, 0⟩
    (∀ c ∈ List.replicate 96 'g', isHexDigit c = false) ∧ r.1 = 0 ∧
      r.2.method = Method.sign ∧ r.2.keyToSign = "0x".toList ++ List.replicate 96 'g' := by
  intro buffer L r
  exact ⟨by decide, by decide, by decide, by decide⟩

end BlsHsm.Request
