import BlsHsm.Response

/-! The getKeys response. `copyKeys` copies the store's public-key slots into the reply
record; `getKeysResponseStr` writes a `Content-Length` computed in closed form, then
renders the key list from the copies. On every store whose slots below `keystore_size`
hold no `NUL`:

* `keyLines_eq`: the render loop emits the entries `"0x<key>"` separated by `,\n`;
* `copyKeys_lines`: after `copyKeys` those keys are the stored ones in slot order;
* `keyListBody_length`: the closed form is the length of the body;
* `getKeys_response_lists_store`: `dumpHttpResponse` answers a getKeys request with the
  header, the body's length in decimal, a blank line and the body. -/

namespace BlsHsm.KeyList
open BlsHsm.CLib BlsHsm.External BlsHsm.Keystore BlsHsm.Invariants BlsHsm.Request
  BlsHsm.Response

/-! ## The key list -/

/-- Slot `i` of the hex store, `public_keys_hex_store[96i .. 96i+96)`. -/
def slotHex (s : SecureState) (i : Nat) : List Char :=
  ((List.ofFn s.publicKeysHexStore).drop (96 * i)).take 96

/-- The stored public keys in slot order. -/
def storedKeys (s : SecureState) : List (List Char) :=
  (List.range s.keystoreSize.toNat).map (slotHex s)

/-- The line of one key, `"0x<key>"`. -/
def keyEntry (key : List Char) : List Char := "\"0x".toList ++ key ++ "\"".toList

/-- The entries of `keys` separated by `,\n`, and a last `\n` when there is one. -/
def keyEntries (keys : List (List Char)) : List Char :=
  ",\n".toList.intercalate (keys.map keyEntry) ++ if keys.isEmpty then [] else "\n".toList

/-- The body a getKeys response carries for `keys`. -/
def keyListBody (keys : List (List Char)) : List Char :=
  "[\n".toList ++ keyEntries keys ++ "]".toList

theorem keyEntries_cons (k : List Char) (ks : List (List Char)) :
    keyEntries (k :: ks) =
      keyEntry k ++ (if ks.isEmpty then [] else ",".toList) ++ "\n".toList ++ keyEntries ks := by
  cases ks <;> simp [keyEntries, List.intercalate]

theorem keyEntries_length {keys : List (List Char)} (h : ∀ k ∈ keys, k.length = 96) :
    (keyEntries keys).length = if keys = [] then 0 else 102 * keys.length - 1 := by
  induction keys with
  | nil => rfl
  | cons k ks ih =>
    rw [keyEntries_cons, List.length_append, ih fun k' hk => h k' (by simp [hk])]
    have hk := h k (by simp)
    cases ks <;> simp [keyEntry, hk]
    omega

/-- The closed form `getKeysResponseStr` writes for `n` keys is the body's length. -/
theorem keyListBody_length {keys : List (List Char)} (h : ∀ k ∈ keys, k.length = 96) :
    ((keyListBody keys).length : Int) = if keys.length = 0 then 3
      else 6 * (keys.length : Int) - 1 + keys.length * keySize + 3 := by
  rw [keyListBody, List.length_append, List.length_append, keyEntries_length h]
  rcases keys with _ | ⟨k, ks⟩
  · rfl
  · simp [keySize]
    omega

/-! ## The render loop -/

/-- The render loop from row `i`, with `k` rows left and `nKeys = i + k`, emits the
entries of the keys the rows hold. -/
theorem keyLines_eq (req : BoardRequest) (f : Nat → List Char) {i k : Nat} (hk : i + k ≤ 10)
    (hn : req.nKeys = ((i + k : Nat) : Int))
    (hf : ∀ j (hj : j < 10), i ≤ j → j < i + k → strncat (req.publicKeys ⟨j, hj⟩) keySize = f j) :
    keyLines req i k = .ok (keyEntries ((List.range' i k).map f)) := by
  induction k generalizing i with
  | zero => rfl
  | succ k ih =>
    have hrow : strncat (req.publicKeys ⟨((i : Int)).toNat, by omega⟩) keySize = f i := by
      simpa using hf i (by omega) le_rfl (by omega)
    have hc : (((i + 1 : Nat) : Int) < req.nKeys) ↔ ¬ ((List.range' (i + 1) k).map f).isEmpty := by
      cases k <;> simp [hn]
    simp only [keyLines, load_ok _ _ (show 0 ≤ (i : Int) ∧ (i : Int) < 10 by omega), bind_ok, hrow,
      @ih (i + 1) (by omega) (by omega) fun j hj h1 h2 => hf j hj (by omega) (by omega),
      List.range'_succ, List.map_cons, keyEntries_cons, hc, ite_not, keyEntry, List.append_assoc]

theorem getkeys_slot {s : SecureState} (hwf : WF s) {j : Nat} (hj : (j : Int) < s.keystoreSize) :
    ((List.ofFn fun i : Fin (s.keystoreSize * 96).toNat =>
      s.publicKeysHexStore ⟨i, getkeys_index_lt hwf i⟩).drop (keySize * j)).take keySize =
      slotHex s j := by
  apply List.ext_getElem
  · simp only [slotHex, keySize, List.length_take, List.length_drop, List.length_ofFn]
    have := hwf.2
    omega
  · intro m _ _
    simp only [slotHex, keySize, List.getElem_take, List.getElem_drop, List.getElem_ofFn]

theorem slotHex_length (s : SecureState) {j : Nat} (hj : j < 10) : (slotHex s j).length = 96 := by
  simp only [slotHex, List.length_take, List.length_drop, List.length_ofFn]
  omega

theorem slotHex_ne_nul {s : SecureState}
    (hnul : ∀ j : Fin 960, (j : Int) < 96 * s.keystoreSize → s.publicKeysHexStore j ≠ '\x00')
    {j : Nat} (hj : (j : Int) < s.keystoreSize) : ∀ c ∈ slotHex s j, c ≠ '\x00' := by
  intro c hc
  obtain ⟨m, hm, rfl⟩ := List.getElem_of_mem hc
  simp only [slotHex, List.length_take, List.length_drop, List.length_ofFn] at hm
  simp only [slotHex, List.getElem_take, List.getElem_drop, List.getElem_ofFn]
  exact hnul ⟨96 * j + m, by omega⟩ (by simp only [Fin.val_mk]; omega)

/-- On a well-formed store whose slots hold no `NUL`, `copyKeys` leaves a reply record
whose render loop lists the stored keys. -/
theorem copyKeys_lines {s : SecureState} (req : BoardRequest) (hwf : WF s)
    (hnul : ∀ j : Fin 960, (j : Int) < 96 * s.keystoreSize → s.publicKeysHexStore j ≠ '\x00') :
    ∃ r req', copyKeys s req = .ok (r, req') ∧ req'.nKeys = s.keystoreSize ∧
      keyLines req' 0 s.keystoreSize.toNat = .ok (keyEntries (storedKeys s)) := by
  unfold copyKeys
  by_cases h0 : s.keystoreSize = 0
  · refine ⟨-1, { req with nKeys := 0 }, by simp [getKeystoreSize, h0], h0.symm, ?_⟩
    simp [h0, storedKeys, keyEntries, keyLines, List.intercalate]
  · have hn : s.keystoreSize.toNat ≤ 10 := by have := hwf.2; omega
    obtain ⟨req', h, -, h2, h3⟩ := copyKeysLoop_ok (List.ofFn fun i : Fin (s.keystoreSize * 96).toNat =>
      s.publicKeysHexStore ⟨i, getkeys_index_lt hwf i⟩) 0 s.keystoreSize.toNat
      { req with nKeys := 0 } (by omega)
    refine ⟨0, req', ?_, by rw [h2]; have := hwf.1; simp [this], ?_⟩
    · simp only [getKeystoreSize, h0, if_false, getkeys_ok hwf, bind_ok, h]
    · rw [storedKeys, List.range_eq_range']
      refine keyLines_eq req' (slotHex s) (by omega) (by rw [h2]; have := hwf.1; simp [this])
        fun j hj _ hjn => ?_
      have hjs : (j : Int) < s.keystoreSize := by omega
      rw [h3 ⟨j, hj⟩, if_pos ⟨Nat.zero_le _, by simpa using hjn⟩, strncat_strncpy,
        cstr_take (by rw [getkeys_slot hwf hjs]; exact slotHex_ne_nul hnul hjs), getkeys_slot hwf hjs]

/-! ## The response -/

/-- On a store of at most ten keys whose slots hold no `NUL`, a getKeys request is
answered with the getKeys header, the length of the body in decimal, a blank line and
the body, which lists the stored keys in slot order; the closed form the code writes as
`Content-Length` is that length. -/
theorem getKeys_response_lists_store (L : Libs) (s : SecureState) (input : List Char)
    (req : BoardRequest) (dk pk : Bytes32) (hwf : WF s)
    (hnul : ∀ j : Fin 960, (j : Int) < 96 * s.keystoreSize → s.publicKeysHexStore j ≠ '\x00')
    (hm : req.method = Method.getKeys) :
    let B := keyListBody (storedKeys s)
    let out := getKeysResponse ++ sprintfD B.length ++ "\n\n".toList ++ B
    dumpHttpResponse L s input req dk pk = .ok (out.length, out) ∧
      (B.length : Int) = if s.keystoreSize = 0 then 3
        else 6 * s.keystoreSize - 1 + s.keystoreSize * keySize + 3 := by
  obtain ⟨r, req', hc, hn, hl⟩ := copyKeys_lines req hwf hnul
  have hlen : ((keyListBody (storedKeys s)).length : Int) = if s.keystoreSize = 0 then 3
      else 6 * s.keystoreSize - 1 + s.keystoreSize * keySize + 3 := by
    have hks : ((storedKeys s).length : Int) = s.keystoreSize := by
      simp [storedKeys, hwf.1]
    have hall : ∀ k ∈ storedKeys s, k.length = 96 := fun k hk => by
      obtain ⟨j, hj, rfl⟩ := List.mem_map.mp hk
      exact slotHex_length s (by have := List.mem_range.mp hj; have := hwf.2; omega)
    rw [keyListBody_length hall, ← hks]
    simp
  refine ⟨?_, hlen⟩
  rw [dumpHttpResponse, hm, if_neg (by decide), if_neg (by decide), if_pos rfl, hc, bind_ok]
  simp only [getKeysResponseStr, hn, hl, bind_ok, ← hlen]
  simp only [keyListBody, List.append_assoc]
  rfl

/-- A store of one key of 96 `a`s, listed for a getKeys request. -/
theorem getKeys_response_lists_store_one_key :
    let s : SecureState :=
      { SecureState.init with keystoreSize := 1, publicKeysHexStore := fun _ => 'a' }
    let req : BoardRequest := ⟨Method.getKeys, 0, none, [], fun _ => [], 0, 0⟩
    let B := keyListBody (storedKeys s)
    let out := getKeysResponse ++ sprintfD B.length ++ "\n\n".toList ++ B
    (WF s ∧ (∀ j : Fin 960, (j : Int) < 96 * s.keystoreSize → s.publicKeysHexStore j ≠ '\x00') ∧
      req.method = Method.getKeys) ∧
    dumpHttpResponse Libs.stub s [] req (fun _ => 0) (fun _ => 0) = .ok (out.length, out) ∧
      (B.length : Int) = if s.keystoreSize = 0 then 3
        else 6 * s.keystoreSize - 1 + s.keystoreSize * keySize + 3 :=
  have hnul : ∀ j : Fin 960, (j : Int) < 96 * 1 → 'a' ≠ '\x00' := fun _ _ => by decide
  ⟨⟨⟨by decide, by decide⟩, hnul, rfl⟩,
    getKeys_response_lists_store _ _ _ _ _ _ ⟨by decide, by decide⟩ hnul rfl⟩

end BlsHsm.KeyList
