import BlsHsm.CLib

/-! The secure partition: the key store held in the secure world's globals and the
nine functions it exports to the non-secure world (`__TZ_NONSECURE_ENTRY_FUNC`).
Each entry function is a function of the state; `step` runs one call, and a call
that indexes a global array out of bounds ends in a `Fault`. The BLS primitives
are not modelled: a call that uses one reports which scalar it used. -/

namespace BlsHsm.Keystore
open BlsHsm.CLib

/-- `blst_scalar`: the 32 bytes `b[32]`. -/
def Scalar := Fin 32 → UInt8

instance : DecidableEq Scalar := inferInstanceAs (DecidableEq (Fin 32 → UInt8))

/-- The all-zero scalar, what `memset` leaves. -/
def Scalar.zero : Scalar := fun _ => 0

/-- The secure globals `sk`, `secret_keys_store[10]`, `sk_sign`,
`public_keys_hex_store[960]` and `keystore_size`. -/
structure SecureState where
  sk : Scalar
  secretKeysStore : Fin 10 → Scalar
  skSign : Scalar
  publicKeysHexStore : Fin 960 → Char
  keystoreSize : Int

/-- Character `x` of slot `i` of the hex store lies inside its 960 characters. -/
theorem slot_lt (i : Fin 10) (x : Fin 96) : 96 * (i : Nat) + x < 960 := by omega

/-- The globals at boot: zero-initialised. -/
def SecureState.init : SecureState :=
  ⟨Scalar.zero, fun _ => Scalar.zero, Scalar.zero, fun _ => '\x00', 0⟩

/-! ## Entry functions -/

/-- `get_keystore_size`. -/
def getKeystoreSize (s : SecureState) : Int := s.keystoreSize

/-- `store_pk`: copy 96 characters into slot `keystore_size - 1` of the hex store. -/
def storePk (s : SecureState) (publicKeyHex : Fin 96 → Char) : Except Fault SecureState := do
  let cont := s.keystoreSize - 1
  let hex ← storeBlock s.publicKeysHexStore .publicKeysHexStore (96 * cont)
    (List.ofFn publicKeyHex)
  .ok { s with publicKeysHexStore := hex }

/-- `getkeys`: the first `96 * keystore_size` characters of the hex store. -/
def getkeys (s : SecureState) : Except Fault (List Char) :=
  loadBlock s.publicKeysHexStore .publicKeysHexStore 0 (s.keystoreSize * 96).toNat

/-- The inner loop of `pk_in_keystore`: compare `public_key_hex[x + offset]` with
`public_keys_hex_store[x + cont]` from `x`, `k` characters left, stopping at the
first difference (`c = 1`). -/
def slotMatches (s : SecureState) (publicKeyHex : Int → Char) (offset cont : Int) :
    Nat → Nat → Except Fault Bool
  | _, 0 => .ok true
  | x, k + 1 => do
    let ch ← load s.publicKeysHexStore .publicKeysHexStore (x + cont)
    if publicKeyHex (x + offset) ≠ ch then .ok false
    else slotMatches s publicKeyHex offset cont (x + 1) k

/-- The slot loop of `pk_in_keystore` at slot `i`, whose hex starts at `cont`, with
`k` slots after it (so `(i+1) < keystore_size` is `k ≠ 0`). -/
def pkInKeystoreLoop (s : SecureState) (publicKeyHex : Int → Char) (offset : Int) :
    Nat → Int → Nat → Except Fault (SecureState × Int)
  | i, cont, k => do
    let c ← slotMatches s publicKeyHex offset cont 0 96
    if c then
      let sec ← load s.secretKeysStore .secretKeysStore i
      .ok ({ s with skSign := sec }, 0)
    else match k with
      | 0 => .ok (s, -1)
      | k + 1 => pkInKeystoreLoop s publicKeyHex offset (i + 1) (cont + 96) k

/-- `pk_in_keystore`: arm `sk_sign` with the first stored key whose hex matches. -/
def pkInKeystore (s : SecureState) (publicKeyHex : Int → Char) (offset : Int) :
    Except Fault (SecureState × Int) :=
  if s.keystoreSize = 0 then .ok (s, -1)
  else if 0 < s.keystoreSize then
    pkInKeystoreLoop s publicKeyHex offset 0 0 (s.keystoreSize.toNat - 1)
  else .ok (s, 0)

/-- `secret_keys_store[keystore_size] = v; keystore_size++; sk = v;`, the append
`ikm_sk` and both appending branches of `import_sk` share. -/
def appendSecret (s : SecureState) (v : Scalar) : Except Fault SecureState := do
  let store ← store s.secretKeysStore .secretKeysStore s.keystoreSize v
  .ok { s with secretKeysStore := store, keystoreSize := s.keystoreSize + 1, sk := v }

/-- `ikm_sk`, for the scalar `blst_keygen` derived from the RNG output. -/
def ikmSk (s : SecureState) (generated : Scalar) : Except Fault SecureState :=
  appendSecret s generated

/-- The slot loop of `import_sk` at slot `i` with `k` slots after it; the byte loop
sets `c = 1` exactly when some byte differs. -/
def importSkLoop (s : SecureState) (skImp : Scalar) :
    Nat → Nat → Except Fault (SecureState × Int)
  | i, k => do
    let slot ← load s.secretKeysStore .secretKeysStore i
    if ¬∃ x, slot x ≠ skImp x then .ok (s, -1)
    else match k with
      | k + 1 => importSkLoop s skImp (i + 1) k
      | 0 => do
        let s' ← appendSecret s skImp
        .ok (s', 0)

/-- `import_sk`: append `sk_imp` unless a stored scalar equals it bytewise. -/
def importSk (s : SecureState) (skImp : Scalar) : Except Fault (SecureState × Int) :=
  if s.keystoreSize = 0 then do
    let s' ← appendSecret s skImp
    .ok (s', 0)
  else if 0 < s.keystoreSize then importSkLoop s skImp 0 (s.keystoreSize.toNat - 1)
  else .ok (s, 0)

/-- `reset`: zero both stores and the counter. -/
def reset (s : SecureState) : SecureState :=
  { s with secretKeysStore := fun _ => Scalar.zero, publicKeysHexStore := fun _ => '\x00',
           keystoreSize := 0 }

/-! ## Calls -/

/-- A call from the non-secure world, with its arguments. The buffers the code passes by
pointer are passed by value: every pointer is taken to point to non-secure memory large
enough for what the call reads or writes there and to alias no secure global, which the
code does not check. `ikmSk` carries the scalar `blst_keygen` draws as any scalar, where
the primitive draws one below the group order. -/
inductive Call
  | getKeystoreSize
  | storePk (publicKeyHex : Fin 96 → Char)
  | getkeys
  | pkInKeystore (publicKeyHex : Int → Char) (offset : Int)
  | ikmSk (generated : Scalar)
  | skToPk
  | signPk
  | reset
  | importSk (skImp : Scalar)

/-- What a call hands back. `sk_to_pk` and `sign_pk` return a point the primitive
computes from a secret scalar; the model returns that scalar. -/
inductive Ret
  | unit
  | int (v : Int)
  | chars (cs : List Char)
  | publicKeyOf (sk : Scalar)
  | signatureBy (sk : Scalar)

/-- One entry call. -/
def step (s : SecureState) : Call → Except Fault (SecureState × Ret)
  | .getKeystoreSize => .ok (s, .int (getKeystoreSize s))
  | .storePk h => (storePk s h).map (·, .unit)
  | .getkeys => (getkeys s).map (s, .chars ·)
  | .pkInKeystore h o => (pkInKeystore s h o).map fun p => (p.1, .int p.2)
  | .ikmSk g => (ikmSk s g).map (·, .unit)
  | .skToPk => .ok (s, .publicKeyOf s.sk)
  | .signPk => .ok (s, .signatureBy s.skSign)
  | .reset => .ok (reset s, .unit)
  | .importSk v => (importSk s v).map fun p => (p.1, .int p.2)

/-- A sequence of calls; the first fault ends it. -/
def run : SecureState → List Call → Except Fault SecureState
  | s, [] => .ok s
  | s, c :: cs => do
    let (s', _) ← step s c
    run s' cs

/-- The states some sequence of calls from boot reaches without a fault. -/
inductive Reachable : SecureState → Prop
  | init : Reachable .init
  | step {s s' : SecureState} {c : Call} {r : Ret} :
      Reachable s → step s c = .ok (s', r) → Reachable s'

theorem run_reachable {s s' : SecureState} {cs : List Call} (hs : Reachable s)
    (h : run s cs = .ok s') : Reachable s' := by
  induction cs generalizing s with
  | nil => cases h; exact hs
  | cons c cs ih =>
    obtain ⟨⟨s₁, r⟩, hc, h⟩ := bind_eq_ok.mp h
    exact ih (hs.step hc) h

end BlsHsm.Keystore
