import BlsHsm.CLib

/-! The libraries `httpRemote.h` calls and the repository does not ship: cJSON's
node and lookup, picohttpparser's result, and the signing and EIP-2335 helpers of
`common.h` and `bls_hsm_ns.h`. The lookup `cJSON_GetObjectItemCaseSensitive` is
modelled; every other function is a field of `Libs`, so each result below holds for
every implementation of them. -/

namespace BlsHsm.External
open BlsHsm.CLib

/-- A `cJSON` node; `valueint` is what cJSON stores for a number, and the children
of an object carry their keys. -/
inductive CJson
  | null
  | bool (b : Bool)
  | number (valueint : Int)
  | string (valuestring : String)
  | array (child : List CJson)
  | object (child : List (String × CJson))

/-- The `child` list of a node. -/
def CJson.children : CJson → List CJson
  | .array cs => cs
  | .object cs => cs.map Prod.snd
  | _ => []

/-- `cJSON_GetObjectItemCaseSensitive`: the first member of an object with that key. -/
def getObjectItem : CJson → String → Option CJson
  | .object cs, name => (cs.find? (·.1 = name)).map Prod.snd
  | _, _ => none

@[simp] theorem children_array (cs : List CJson) : (CJson.array cs).children = cs := rfl

@[simp] theorem getObjectItem_nil (name : String) : getObjectItem (.object []) name = none := rfl

@[simp] theorem getObjectItem_cons (k : String) (v : CJson) (cs : List (String × CJson))
    (name : String) : getObjectItem (.object ((k, v) :: cs)) name =
      if k = name then some v else getObjectItem (.object cs) name := by
  by_cases h : k = name <;> simp [getObjectItem, h]

/-- One `struct phr_header`; a continuation line has a `NULL` name. -/
structure PhrHeader where
  name : Option (List Char)
  value : List Char

/-- What `phr_parse_request` hands back: its return value (the request length, or
`-1`/`-2`), the method and path tokens, and the header array. -/
structure PhrRequest where
  ret : Int
  method : List Char
  path : List Char
  headers : List PhrHeader

/-- `unsigned char[32]`: the decryption key and private key buffers. -/
def Bytes32 := Fin 32 → UInt8

/-- The external functions, with the value of `BADJSONFORMAT`, an error code and so
not `0`. -/
structure Libs where
  /-- `cJSON_Parse`; `none` is a `NULL` result. -/
  cJSONParse : List Char → Option CJson
  /-- `phr_parse_request` on the request buffer. -/
  phrParseRequest : List Char → PhrRequest
  /-- `signature(key, signingRoot, signat)`: its return code and what it writes to
  `signat`. -/
  signature : List Char → String → Int × List Char
  /-- `get_decryption_key_scrypt(password, dklen, n, r, p, salt, decryption_key)`:
  its return code and the key buffer afterwards. -/
  getDecryptionKeyScrypt : String → Int → Int → Int → Int → String → Bytes32 → Int × Bytes32
  /-- `verificate_password(checksum_message_hex, cipher_message_hex, decryption_key)`. -/
  verificatePassword : String → String → Bytes32 → Int
  /-- `get_private_key(cipher_message, iv, decryption_key, private_key)`: its return
  code and the private key buffer afterwards. -/
  getPrivateKey : String → String → Bytes32 → Bytes32 → Int × Bytes32
  badJsonFormat : Int
  badJsonFormat_ne_zero : badJsonFormat ≠ 0

/-- A `Libs` whose functions succeed and leave the buffers as they are. -/
def Libs.stub : Libs :=
  ⟨fun _ => none, fun _ => ⟨0, [], [], []⟩, fun _ _ => (0, []), fun _ _ _ _ _ _ dk => (0, dk),
    fun _ _ _ => 0, fun _ _ _ pk => (0, pk), 1, by decide⟩

end BlsHsm.External
