import BlsHsm.Invariants

/-! The two search loops of the secure partition, specified exactly on every store
whose counter counts its keys:

* `slotMatches_slot`: the inner loop of `pk_in_keystore` decides `SlotMatches`;
* `pkInKeystoreLoop_spec`, `pkInKeystore_least_match`: `pk_in_keystore` arms `sk_sign`
  with the least slot whose hex is the 96 characters of the key at `offset`, and
  otherwise returns `-1` and changes nothing;
* `importSkLoop_dup`, `distinct_append`, `importSk_dedup`: `import_sk` rejects a scalar
  already stored, appends any other, and so keeps the stored secrets pairwise
  distinct. -/

namespace BlsHsm.Search
open BlsHsm.CLib BlsHsm.Keystore BlsHsm.Invariants

/-! ## `pk_in_keystore` -/

/-- Slot `i` of the hex store holds the 96 characters of `publicKeyHex` at `offset`. -/
def SlotMatches (s : SecureState) (publicKeyHex : Int → Char) (offset : Int) (i : Fin 10) :
    Prop :=
  ∀ x : Fin 96, s.publicKeysHexStore ⟨96 * i + x, slot_lt i x⟩ = publicKeyHex (x + offset)

instance decidableSlotMatches (s : SecureState) (key : Int → Char) (o : Int) (i : Fin 10) :
    Decidable (SlotMatches s key o i) :=
  inferInstanceAs (Decidable (∀ x : Fin 96, s.publicKeysHexStore ⟨96 * i + x, slot_lt i x⟩ = key (x + o)))

/-- The inner loop at character `x` of slot `i`, with the `96 - x` after it left, finds
no difference iff there is none from `x` on. -/
theorem slotMatches_eq (s : SecureState) (key : Int → Char) (o : Int) {i : Nat} (hi : i < 10)
    {x k : Nat} (hk : x + k = 96) :
    ∃ b, slotMatches s key o (96 * i) x k = .ok b ∧ (b = true ↔ ∀ y : Fin 96, x ≤ y.val →
      s.publicKeysHexStore ⟨96 * i + y, slot_lt ⟨i, hi⟩ y⟩ = key (y + o)) := by
  induction k generalizing x with
  | zero => exact ⟨true, rfl, iff_of_true rfl fun y hy => absurd y.2 (by omega)⟩
  | succ k ih =>
    have hb : 0 ≤ (x : Int) + 96 * i ∧ (x : Int) + 96 * i < 960 := by omega
    have e : s.publicKeysHexStore ⟨((x : Int) + 96 * i).toNat, toNat_lt hb⟩ =
        s.publicKeysHexStore ⟨96 * i + x, by omega⟩ :=
      congrArg _ (Fin.ext (by simp only [Fin.val_mk]; omega))
    simp only [slotMatches, load_ok _ _ hb, bind_ok, e]
    by_cases hx : s.publicKeysHexStore ⟨96 * i + x, by omega⟩ = key (x + o)
    · rw [if_neg (fun h => h hx.symm)]
      obtain ⟨b, h, hb⟩ := @ih (x + 1) (by omega)
      refine ⟨b, h, hb.trans ⟨fun h y hy => ?_, fun h y hy => h y (by omega)⟩⟩
      rcases Nat.eq_or_lt_of_le hy with e | lt
      · subst e
        exact hx
      · exact h y lt
    · rw [if_pos (Ne.symm hx)]
      exact ⟨false, rfl, iff_of_false (by simp) fun h => hx (h ⟨x, by omega⟩ le_rfl)⟩

/-- The inner loop over slot `i` decides whether the slot matches. -/
theorem slotMatches_slot (s : SecureState) (key : Int → Char) (o : Int) {i : Nat}
    (hi : i < 10) :
    slotMatches s key o (96 * i) 0 96 = .ok (decide (SlotMatches s key o ⟨i, hi⟩)) := by
  obtain ⟨b, h, hb⟩ := @slotMatches_eq s key o i hi 0 96 rfl
  rw [h]
  exact congrArg _ (Bool.eq_iff_iff.mpr (hb.trans (by simp [SlotMatches])))

theorem pkInKeystoreLoop_hit {s : SecureState} {key : Int → Char} {o : Int} {i : Nat}
    (k : Nat) (hi : i < 10) (hm : SlotMatches s key o ⟨i, hi⟩) :
    pkInKeystoreLoop s key o i (96 * i) k =
      .ok ({ s with skSign := s.secretKeysStore ⟨i, hi⟩ }, 0) := by
  cases k <;> simp [pkInKeystoreLoop, slotMatches_slot s key o hi, hm,
    load_ok _ _ (show 0 ≤ (i : Int) ∧ (i : Int) < 10 by omega)]

theorem pkInKeystoreLoop_last {s : SecureState} {key : Int → Char} {o : Int} {i : Nat}
    (hi : i < 10) (hm : ¬ SlotMatches s key o ⟨i, hi⟩) :
    pkInKeystoreLoop s key o i (96 * i) 0 = .ok (s, -1) := by
  simp [pkInKeystoreLoop, slotMatches_slot s key o hi, hm]

theorem pkInKeystoreLoop_miss {s : SecureState} {key : Int → Char} {o : Int} {i : Nat}
    (k : Nat) (hi : i < 10) (hm : ¬ SlotMatches s key o ⟨i, hi⟩) :
    pkInKeystoreLoop s key o i (96 * i) (k + 1) =
      pkInKeystoreLoop s key o (i + 1) (96 * (i + 1 : Nat)) k := by
  simp only [pkInKeystoreLoop, slotMatches_slot s key o hi, decide_eq_false hm, bind_ok]
  rw [show 96 * (i : Int) + 96 = 96 * ((i + 1 : Nat) : Int) by omega]
  rfl

/-- The slot loop from slot `i`, `k` slots after it, arms the least matching slot of
`i..i+k`, or returns `-1` when none matches. -/
theorem pkInKeystoreLoop_spec (s : SecureState) (key : Int → Char) (o : Int) {i k : Nat}
    (hk : i + k < 10) :
    (∃ j : Fin 10, i ≤ j.val ∧ j.val ≤ i + k ∧ SlotMatches s key o j ∧
      (∀ l : Fin 10, i ≤ l.val → l < j → ¬ SlotMatches s key o l) ∧
      pkInKeystoreLoop s key o i (96 * i) k = .ok ({ s with skSign := s.secretKeysStore j }, 0)) ∨
    ((∀ l : Fin 10, i ≤ l.val → l.val ≤ i + k → ¬ SlotMatches s key o l) ∧
      pkInKeystoreLoop s key o i (96 * i) k = .ok (s, -1)) := by
  induction k using Nat.strong_induction_on generalizing i with
  | _ k ih =>
  have hi : i < 10 := by omega
  by_cases hm : SlotMatches s key o ⟨i, hi⟩
  · exact .inl ⟨⟨i, hi⟩, le_rfl, Nat.le_add_right i k, hm,
      fun l h1 h2 => absurd h2 (by simp [Fin.lt_def]; omega), pkInKeystoreLoop_hit k hi hm⟩
  have hno : ∀ l : Fin 10, i = l.val → ¬ SlotMatches s key o l := fun l e => by
    obtain rfl : l = ⟨i, hi⟩ := Fin.ext e.symm
    exact hm
  cases k with
  | zero => exact .inr ⟨fun l h1 h2 => hno l (by omega), pkInKeystoreLoop_last hi hm⟩
  | succ k =>
    rw [pkInKeystoreLoop_miss k hi hm]
    rcases @ih k (by omega) (i + 1) (by omega) with ⟨j, h1, h2, hj, hl, h⟩ | ⟨hl, h⟩
    · refine .inl ⟨j, by omega, by omega, hj, fun l l1 l2 => ?_, h⟩
      rcases Nat.eq_or_lt_of_le l1 with e | lt
      · exact hno l e
      · exact hl l lt l2
    · refine .inr ⟨fun l l1 l2 => ?_, h⟩
      rcases Nat.eq_or_lt_of_le l1 with e | lt
      · exact hno l e
      · exact hl l lt (by omega)

/-- On a store whose counter is within `[0, 10]`, `pk_in_keystore` either arms `sk_sign`
with the secret of the least slot below `keystore_size` whose hex is the key's 96
characters at `offset` and returns `0`, or finds no such slot, returns `-1` and changes
nothing. -/
theorem pkInKeystore_least_match (s : SecureState) (key : Int → Char) (o : Int) (hwf : WF s) :
    (∃ j : Fin 10, (j : Int) < s.keystoreSize ∧ SlotMatches s key o j ∧
      (∀ i : Fin 10, i < j → ¬ SlotMatches s key o i) ∧
      pkInKeystore s key o = .ok ({ s with skSign := s.secretKeysStore j }, 0)) ∨
    ((∀ i : Fin 10, (i : Int) < s.keystoreSize → ¬ SlotMatches s key o i) ∧
      pkInKeystore s key o = .ok (s, -1)) := by
  obtain ⟨h0, h10⟩ := hwf
  unfold pkInKeystore
  by_cases hz : s.keystoreSize = 0
  · exact .inr ⟨fun i hi => absurd hi (by omega), if_pos hz⟩
  · rw [if_neg hz, if_pos (by omega)]
    rcases @pkInKeystoreLoop_spec s key o 0 (s.keystoreSize.toNat - 1) (by omega) with
      ⟨j, -, hj, hm, hl, h⟩ | ⟨hl, h⟩
    · exact .inl ⟨j, by omega, hm, fun i hi => hl i (Nat.zero_le _) hi, by simpa using h⟩
    · exact .inr ⟨fun i hi => hl i (Nat.zero_le _) (by omega), by simpa using h⟩

/-- A store of one key whose slot holds 96 `NUL`s, looked up with a key of `NUL`s. -/
theorem pkInKeystore_least_match_one_key :
    let s : SecureState := { SecureState.init with keystoreSize := 1 }
    let key : Int → Char := fun _ => '\x00'
    WF s ∧
    ((∃ j : Fin 10, (j : Int) < s.keystoreSize ∧ SlotMatches s key 0 j ∧
      (∀ i : Fin 10, i < j → ¬ SlotMatches s key 0 i) ∧
      pkInKeystore s key 0 = .ok ({ s with skSign := s.secretKeysStore j }, 0)) ∨
    ((∀ i : Fin 10, (i : Int) < s.keystoreSize → ¬ SlotMatches s key 0 i) ∧
      pkInKeystore s key 0 = .ok (s, -1))) :=
  ⟨⟨by decide, by decide⟩, pkInKeystore_least_match _ _ _ ⟨by decide, by decide⟩⟩

/-! ## `import_sk` -/

/-- The first `keystore_size` stored secrets are pairwise distinct. -/
def Distinct (s : SecureState) : Prop :=
  ∀ i j : Fin 10, (i : Int) < s.keystoreSize → (j : Int) < s.keystoreSize →
    s.secretKeysStore i = s.secretKeysStore j → i = j

/-- A slot of `i..i+k` that holds `v` makes the loop reject `v`. -/
theorem importSkLoop_dup {s : SecureState} {v : Scalar} {i k : Nat} (hk : i + k < 10)
    {j : Fin 10} (h1 : i ≤ j.val) (h2 : j.val ≤ i + k) (hj : s.secretKeysStore j = v) :
    importSkLoop s v i k = .ok (s, -1) := by
  induction k generalizing i with
  | zero =>
    exact importSkLoop_hit 0 (by omega)
      ((congrArg s.secretKeysStore (Fin.ext (show i = j.val by omega))).trans hj)
  | succ k ih =>
    rcases Nat.eq_or_lt_of_le h1 with e | lt
    · exact importSkLoop_hit _ (by omega) ((congrArg s.secretKeysStore (Fin.ext e)).trans hj)
    · by_cases hi : s.secretKeysStore ⟨i, by omega⟩ = v
      · exact importSkLoop_hit _ _ hi
      · rw [importSkLoop_miss k _ hi]
        exact ih (by omega) lt (by omega)

/-- Appending a scalar stored in no slot keeps the stored secrets distinct. -/
theorem distinct_append {s : SecureState} {v : Scalar} (hd : Distinct s)
    (hv : ∀ i : Fin 10, (i : Int) < s.keystoreSize → s.secretKeysStore i ≠ v) :
    Distinct { s with
      secretKeysStore := fun j => if (j : Int) = s.keystoreSize then v else s.secretKeysStore j,
      keystoreSize := s.keystoreSize + 1, sk := v } := by
  intro i j hi hj e
  dsimp only at hi hj e
  split_ifs at e with h1 h2 h2
  · exact Fin.ext (by omega)
  · exact absurd e.symm (hv j (by omega))
  · exact absurd e (hv i (by omega))
  · exact hd i j (by omega) (by omega) e

/-- `appendSecret` below capacity, with the written slot as a case split. -/
theorem appendSecret_eq {s : SecureState} (v : Scalar) (h0 : 0 ≤ s.keystoreSize)
    (h10 : s.keystoreSize < 10) :
    appendSecret s v = .ok { s with
      secretKeysStore := fun j => if (j : Int) = s.keystoreSize then v else s.secretKeysStore j,
      keystoreSize := s.keystoreSize + 1, sk := v } := by
  rw [appendSecret_ok v ⟨h0, h10⟩]
  congr 2
  funext j
  simp only [Function.update_apply, Fin.ext_iff]
  by_cases hj : (j : Int) = s.keystoreSize
  · rw [if_pos (by omega), if_pos hj]
  · rw [if_neg (by omega), if_neg hj]

/-- On a store of fewer than ten keys whose secrets are pairwise distinct, `import_sk(v)`
returns `-1` and changes nothing when a stored secret equals `v`, and otherwise returns
`0` after writing `v` at index `keystore_size`, incrementing the counter and setting `sk`;
either way the stored secrets stay distinct. -/
theorem importSk_dedup (s : SecureState) (v : Scalar) (h0 : 0 ≤ s.keystoreSize)
    (h10 : s.keystoreSize < 10) (hd : Distinct s) :
    ∃ s' r, importSk s v = .ok (s', r) ∧ Distinct s' ∧
      ((∃ i : Fin 10, (i : Int) < s.keystoreSize ∧ s.secretKeysStore i = v) ∧ r = -1 ∧ s' = s ∨
       (∀ i : Fin 10, (i : Int) < s.keystoreSize → s.secretKeysStore i ≠ v) ∧ r = 0 ∧
        s' = { s with
          secretKeysStore := fun j => if (j : Int) = s.keystoreSize then v else s.secretKeysStore j,
          keystoreSize := s.keystoreSize + 1, sk := v }) := by
  by_cases hdup : ∃ i : Fin 10, (i : Int) < s.keystoreSize ∧ s.secretKeysStore i = v
  · obtain ⟨i, hi, hiv⟩ := hdup
    refine ⟨s, -1, ?_, hd, .inl ⟨⟨i, hi, hiv⟩, rfl, rfl⟩⟩
    rw [importSk, if_neg (by omega), if_pos (by omega)]
    exact importSkLoop_dup (by omega) (Nat.zero_le _) (by omega) hiv
  · push_neg at hdup
    refine ⟨_, 0, ?_, distinct_append hd hdup, .inr ⟨hdup, rfl, rfl⟩⟩
    unfold importSk
    split
    · rw [appendSecret_eq v h0 h10]
      rfl
    · rw [if_pos (by omega), importSkLoop_fresh (by omega) fun j _ hj => hdup j (by omega),
        appendSecret_eq v h0 h10]
      rfl

/-- A store of one key, into which a scalar other than the stored one is imported. -/
theorem importSk_dedup_one_key :
    let s : SecureState := { SecureState.init with keystoreSize := 1 }
    let v : Scalar := fun _ => 1
    (0 ≤ s.keystoreSize ∧ s.keystoreSize < 10 ∧ Distinct s) ∧
    ∃ s' r, importSk s v = .ok (s', r) ∧ Distinct s' ∧
      ((∃ i : Fin 10, (i : Int) < s.keystoreSize ∧ s.secretKeysStore i = v) ∧ r = -1 ∧ s' = s ∨
       (∀ i : Fin 10, (i : Int) < s.keystoreSize → s.secretKeysStore i ≠ v) ∧ r = 0 ∧
        s' = { s with
          secretKeysStore := fun j => if (j : Int) = s.keystoreSize then v else s.secretKeysStore j,
          keystoreSize := s.keystoreSize + 1, sk := v }) :=
  have hd : Distinct { SecureState.init with keystoreSize := 1 } := fun i j hi hj _ =>
    Fin.ext (by dsimp only at hi hj; omega)
  ⟨⟨by decide, by decide, hd⟩, importSk_dedup _ _ (by decide) (by decide) hd⟩

end BlsHsm.Search
