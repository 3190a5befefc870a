import BlsHsm.Refinement

/-! Where the secure partition's scalars come from and what they reach.

* `run_scalars_inserted`: after any run from boot, `sk`, `sk_sign` and every slot of
  `secret_keys_store` hold zero or a scalar some call of the run passed to `ikm_sk` or
  `import_sk`, so `sign_pk` and `sk_to_pk` never use any other scalar;
* `run_without_ikmSk_iff`: the runs from boot without `ikm_sk` reach exactly the layouts
  of the stores of distinct secrets;
* `observe_lowEq`: runs of calls other than `import_sk` from two states with the same
  `keystore_size` and hex store show the non-secure world the same answers, the BLS
  outputs apart, and fault at the same call;
* `observe_sameSecrets`: with `import_sk` among the calls, the same holds of two states
  that also store the same secrets, in whatever slots.

All of them rest on the assumption of `Refinement.lean`: the calls' pointers point to
non-secure memory, which the code does not check. -/

namespace BlsHsm.Secrets
open BlsHsm.CLib BlsHsm.Keystore BlsHsm.Invariants BlsHsm.Abstract BlsHsm.Refinement

/-! ## Provenance -/

/-- The scalar a call hands to the store, if it inserts one. -/
def Call.inserted : Call → Option Scalar
  | .ikmSk g => some g
  | .importSk v => some v
  | _ => none

/-- Every scalar of `a` is zero or one of `ins`. -/
def Drawn (ins : List Scalar) (a : Store) : Prop :=
  a.sk ∈ Scalar.zero :: ins ∧ a.skSign ∈ Scalar.zero :: ins ∧
    ∀ e ∈ a.entries, e.secret ∈ ins

theorem drawn_mono {ins ins' : List Scalar} {a : Store} (h : ins ⊆ ins') (ha : Drawn ins a) :
    Drawn ins' a :=
  ⟨List.cons_subset_cons _ h ha.1, List.cons_subset_cons _ h ha.2.1,
    fun e he => h (ha.2.2 e he)⟩

theorem drawn_insert {ins : List Scalar} {a a' : Store} {v : Scalar} (ha : Drawn ins a)
    (h : a.insert v = some a') : Drawn (ins ++ [v]) a' := by
  unfold Store.insert at h
  split at h
  · cases h
    refine ⟨by simp, ?_, fun e he => ?_⟩
    · exact List.cons_subset_cons _ (List.subset_append_left _ _) ha.2.1
    · rcases List.mem_append.mp he with he | he
      · exact List.mem_append_left _ (ha.2.2 e he)
      · simp at he; simp [he]
  · cases h

theorem drawn_absStep {ins : List Scalar} {a a' : Store} {c : Call} {r : Ret} (ha : Drawn ins a)
    (h : absStep a c = some (a', r)) : Drawn (ins ++ (Call.inserted c).toList) a' := by
  have hsub : ins ⊆ ins ++ (Call.inserted c).toList := List.subset_append_left _ _
  cases c <;> simp only [absStep, Option.map_eq_some', Option.some.injEq, Prod.mk.injEq] at h
  case getKeystoreSize | getkeys | skToPk | signPk =>
    obtain ⟨rfl, -⟩ := h; exact drawn_mono hsub ha
  case reset =>
    obtain ⟨rfl, -⟩ := h
    exact drawn_mono hsub ⟨ha.1, ha.2.1, fun e he => by cases he⟩
  case pkInKeystore key o =>
    obtain ⟨rfl, -⟩ := h
    refine drawn_mono hsub ?_
    unfold Store.lookup
    split
    · next e he =>
      exact ⟨ha.1, List.mem_cons_of_mem _ (ha.2.2 e (List.mem_of_find?_eq_some he)), ha.2.2⟩
    · exact ha
  case storePk hex =>
    obtain ⟨b, hb, rfl, -⟩ := h
    refine drawn_mono hsub ?_
    unfold Store.setLastHex at hb
    split at hb
    · next e₀ he₀ =>
      cases hb
      refine ⟨ha.1, ha.2.1, fun e he => ?_⟩
      obtain ⟨i, hi, rfl⟩ := List.mem_iff_getElem.mp he
      rw [List.getElem_set]
      split
      · exact ha.2.2 e₀ (List.mem_of_getLast?_eq_some he₀)
      · exact ha.2.2 _ (List.getElem_mem _)
    · cases hb
  case ikmSk g => obtain ⟨b, hb, rfl, -⟩ := h; exact drawn_insert ha hb
  case importSk v =>
    obtain ⟨⟨b, q⟩, hb, rfl, -⟩ := h
    unfold Store.importKey at hb
    split at hb
    · cases hb; exact drawn_mono hsub ha
    · obtain ⟨b', hb', e⟩ := Option.map_eq_some'.mp hb
      cases e
      exact drawn_insert ha hb'

theorem drawn_absRun {ins : List Scalar} {a a' : Store} {cs : List Call} (ha : Drawn ins a)
    (h : absRun a cs = some a') : Drawn (ins ++ cs.filterMap Call.inserted) a' := by
  induction cs generalizing ins a with
  | nil => cases h; simpa using ha
  | cons c cs ih =>
    obtain ⟨⟨b, r⟩, hb, h⟩ := Option.bind_eq_some.mp h
    have := ih (drawn_absStep ha hb) h
    rw [List.filterMap_cons]
    cases hc : Call.inserted c <;> simpa [hc] using this

/-- After any run from boot, `sk`, `sk_sign` and every slot of `secret_keys_store` hold
zero or a scalar one of the run's `ikm_sk` or `import_sk` calls passed in, the calls'
pointers, the one `getkeys` writes through included, pointing to non-secure memory. -/
theorem run_scalars_inserted (cs : List Call) {s : SecureState} (h : run .init cs = .ok s) :
    let ins := Scalar.zero :: cs.filterMap Call.inserted
    s.sk ∈ ins ∧ s.skSign ∈ ins ∧ ∀ i : Fin 10, s.secretKeysStore i ∈ ins := by
  intro ins
  obtain ⟨a, ha, rfl⟩ := run_init_conc h
  have hd : Drawn ([] ++ cs.filterMap Call.inserted) a :=
    drawn_absRun ⟨List.mem_singleton_self _, List.mem_singleton_self _,
      fun e he => by cases he⟩ ha
  rw [List.nil_append] at hd
  refine ⟨hd.1, hd.2.1, fun i => ?_⟩
  show (a.entries[i.val]?.map Entry.secret).getD Scalar.zero ∈ ins
  cases hi : a.entries[i.val]? with
  | none => exact List.mem_cons_self _ _
  | some e => exact List.mem_cons_of_mem _ (hd.2.2 e (List.getElem?_mem hi))

/-- One `ikm_sk` from boot stores the generated scalar, and only it or zero. -/
theorem run_scalars_inserted_keygen :
    run .init [.ikmSk fun _ => 7] = .ok { SecureState.init with
      sk := fun _ => 7, secretKeysStore := Function.update (fun _ => Scalar.zero) 0 fun _ => 7,
      keystoreSize := 1 } ∧
    let ins := Scalar.zero :: [Call.ikmSk fun _ => 7].filterMap Call.inserted
    (fun _ => 7) ∈ ins ∧ Scalar.zero ∈ ins ∧
      ∀ i : Fin 10, Function.update (fun _ => Scalar.zero) 0 (fun _ => 7) i ∈ ins :=
  ⟨rfl, run_scalars_inserted [.ikmSk fun _ => 7] rfl⟩

/-! ## Runs without `ikm_sk`

Leaving out `ikm_sk`, whose scalar the model takes as an argument where the code derives
it from the RNG, the runs from boot reach exactly the layouts of the stores of distinct
secrets: `import_sk` compares a new key with every stored one, and takes any 32 bytes. -/

/-- Every call but `ikm_sk` keeps the secrets distinct: `import_sk` appends only a new one. -/
theorem nodupSecrets_absStep {a a' : Store} {c : Call} {r : Ret} (ha : a.NodupSecrets)
    (hc : ∀ g, c ≠ .ikmSk g) (h : absStep a c = some (a', r)) : a'.NodupSecrets := by
  cases c <;> simp only [absStep, Option.map_eq_some', Option.some.injEq, Prod.mk.injEq] at h
  case getKeystoreSize | getkeys | skToPk | signPk => obtain ⟨rfl, -⟩ := h; exact ha
  case pkInKeystore key o => obtain ⟨rfl, -⟩ := h; unfold Store.lookup; split <;> exact ha
  case reset => obtain ⟨rfl, -⟩ := h; exact List.nodup_nil
  case storePk hex =>
    obtain ⟨b, hb, rfl, -⟩ := h
    rw [Store.NodupSecrets, Store.secrets_setLastHex hb]
    exact ha
  case ikmSk g => exact absurd rfl (hc g)
  case importSk v =>
    obtain ⟨⟨b, q⟩, hb, rfl, -⟩ := h
    unfold Store.importKey at hb
    split at hb
    · cases hb; exact ha
    · next hv =>
      obtain ⟨b', hb', e⟩ := Option.map_eq_some'.mp hb
      cases e
      rw [Store.NodupSecrets, Store.secrets_insert hb', ← List.concat_eq_append]
      exact ha.concat hv

theorem nodupSecrets_absRun {a a' : Store} {cs : List Call} (ha : a.NodupSecrets)
    (hcs : ∀ c ∈ cs, ∀ g, c ≠ .ikmSk g) (h : absRun a cs = some a') : a'.NodupSecrets := by
  induction cs generalizing a with
  | nil => cases h; exact ha
  | cons c cs ih =>
    obtain ⟨⟨b, r⟩, hb, h⟩ := Option.bind_eq_some.mp h
    exact ih (nodupSecrets_absStep ha (hcs c (List.mem_cons_self _ _)) hb)
      (fun c hc => hcs c (List.mem_cons_of_mem _ hc)) h

/-- The states that runs from boot without `ikm_sk` reach are exactly the globals that
hold a store of distinct secrets whose `sk` is the secret of its last key: past
`keystore_size` both stores are blank, no secret is stored twice, and `sk_sign` is any
scalar. -/
theorem run_without_ikmSk_iff {s : SecureState} :
    (∃ cs : List Call, (∀ c ∈ cs, ∀ g, c ≠ .ikmSk g) ∧ run .init cs = .ok s) ↔
      ∃ a : Store, s = conc a ∧ a.SkLast ∧ a.NodupSecrets := by
  constructor
  · rintro ⟨cs, hcs, h⟩
    obtain ⟨a, ha, rfl⟩ := run_init_conc h
    exact ⟨a, rfl, skLast_absRun (fun e he => by cases he) ha,
      nodupSecrets_absRun (show Store.empty.NodupSecrets from List.nodup_nil) hcs ha⟩
  · rintro ⟨a, rfl, hl, hd⟩
    obtain ⟨cs, hcs, hrun⟩ := absRun_reaches a hl hd
    have e := run_conc Store.empty cs
    rw [hrun, Option.map_some', toOption_eq_some, ← init_eq_conc] at e
    exact ⟨cs, hcs, e⟩

/-! ## What the secrets reach -/

/-- The part of the state the non-secure world reads without a BLS primitive:
`keystore_size` and the hex store. -/
def low (s : SecureState) : Int × (Fin 960 → Char) := (s.keystoreSize, s.publicKeysHexStore)

/-- An answer with the outputs of `sk_to_pk` and `sign_pk` hidden. -/
def visible : Ret → Option Ret
  | .publicKeyOf _ => none
  | .signatureBy _ => none
  | r => some r

/-- What the non-secure world sees of a run, BLS outputs hidden: each answer until the
first fault, then the fault. -/
def observe : SecureState → List Call → List (Except Fault (Option Ret))
  | _, [] => []
  | s, c :: cs =>
    match step s c with
    | .ok (s', r) => .ok (visible r) :: observe s' cs
    | .error f => [.error f]

theorem map_map_comp {ε α β γ : Type} (f : α → β) (g : β → γ) (x : Except ε α) :
    (x.map f).map g = x.map (g ∘ f) := by
  cases x <;> rfl

theorem map_comp_congr {ε α β γ : Type} {f : α → β} (g : β → γ) {x y : Except ε α}
    (h : x.map f = y.map f) : x.map (g ∘ f) = y.map (g ∘ f) := by
  rw [← map_map_comp, ← map_map_comp, h]

/-- The low part of a state and an `int` answer. -/
def lowAns (p : SecureState × Int) : (Int × (Fin 960 → Char)) × Int := (low p.1, p.2)

section
variable {s t : SecureState} (hk : s.keystoreSize = t.keystoreSize)
  (hh : s.publicKeysHexStore = t.publicKeysHexStore)

include hh in
theorem slotMatches_low (key : Int → Char) (o cont : Int) (x k : Nat) :
    slotMatches s key o cont x k = slotMatches t key o cont x k := by
  induction k generalizing x with
  | zero => rfl
  | succ k ih => simp only [slotMatches, hh, ih]

include hk hh

/-- Arming `sk_sign` from slot `i` faults by the index alone. -/
theorem armSlot_low (i : Nat) :
    (do let sec ← load s.secretKeysStore .secretKeysStore i
        .ok ({ s with skSign := sec }, (0 : Int))).map lowAns =
      (do let sec ← load t.secretKeysStore .secretKeysStore i
          .ok ({ t with skSign := sec }, (0 : Int))).map lowAns := by
  by_cases h : 0 ≤ (i : Int) ∧ (i : Int) < 10
  · simp [load_ok _ _ h, Except.map, lowAns, low, hk, hh]
  · simp [load_error _ _ h, Except.map]

theorem pkInKeystoreLoop_low (key : Int → Char) (o : Int) (i : Nat) (cont : Int) (k : Nat) :
    (pkInKeystoreLoop s key o i cont k).map lowAns =
      (pkInKeystoreLoop t key o i cont k).map lowAns := by
  induction k generalizing i cont with
  | zero =>
    rw [pkInKeystoreLoop, pkInKeystoreLoop, slotMatches_low hh]
    rcases slotMatches t key o cont 0 96 with e | _ | _
    · rfl
    · simp [Except.map, lowAns, low, hk, hh]
    · exact armSlot_low hk hh i
  | succ k ih =>
    rw [pkInKeystoreLoop, pkInKeystoreLoop, slotMatches_low hh]
    rcases slotMatches t key o cont 0 96 with e | _ | _
    · rfl
    · exact ih (i + 1) (cont + 96)
    · exact armSlot_low hk hh i

theorem pkInKeystore_low (key : Int → Char) (o : Int) :
    (pkInKeystore s key o).map lowAns = (pkInKeystore t key o).map lowAns := by
  unfold pkInKeystore
  rw [hk]
  split_ifs
  · simp [Except.map, lowAns, low, hk, hh]
  · exact pkInKeystoreLoop_low hk hh key o 0 0 _
  · simp [Except.map, lowAns, low, hk, hh]

theorem storePk_low (hex : Fin 96 → Char) :
    (storePk s hex).map low = (storePk t hex).map low := by
  unfold storePk
  simp only [hk, hh]
  rcases storeBlock t.publicKeysHexStore .publicKeysHexStore (96 * (t.keystoreSize - 1))
    (List.ofFn hex) with e | hex' <;> rfl

theorem appendSecret_low (v : Scalar) :
    (appendSecret s v).map low = (appendSecret t v).map low := by
  unfold appendSecret
  simp only [hk, hh]
  by_cases h : 0 ≤ t.keystoreSize ∧ t.keystoreSize < 10
  · rw [store_ok _ _ _ h, store_ok _ _ _ h]; rfl
  · rw [store_error _ _ _ h, store_error _ _ _ h]; rfl

theorem getkeys_low : getkeys s = getkeys t := by
  unfold getkeys
  rw [hk, hh]

/-- One call other than `import_sk` answers the same, BLS outputs hidden, and leaves
states with equal low parts. -/
theorem step_low (c : Call) (hc : ∀ v, c ≠ .importSk v) :
    (step s c).map (fun p => (low p.1, visible p.2)) =
      (step t c).map (fun p => (low p.1, visible p.2)) := by
  cases c with
  | storePk h =>
    simp only [step, map_map_comp]
    exact map_comp_congr (fun l => (l, some Ret.unit)) (storePk_low hk hh h)
  | getkeys =>
    simp only [step, map_map_comp, getkeys_low hk hh]
    congr 1
    funext l
    simp [low, hk, hh]
  | pkInKeystore h o =>
    simp only [step, map_map_comp]
    exact map_comp_congr (fun q => (q.1, some (Ret.int q.2))) (pkInKeystore_low hk hh h o)
  | ikmSk g =>
    simp only [step, map_map_comp]
    exact map_comp_congr (fun l => (l, some Ret.unit)) (appendSecret_low hk hh g)
  | getKeystoreSize | skToPk | signPk | reset =>
    simp [step, Except.map, low, visible, getKeystoreSize, reset, hk, hh]
  | importSk v => exact absurd rfl (hc v)

end

/-- A run goes on alike from two states once their first calls answer alike and the runs
from any two states they reach with equal low parts do. -/
theorem observe_cons {s t : SecureState} {c : Call} {cs : List Call}
    (h : (step s c).map (fun p => (low p.1, visible p.2)) =
      (step t c).map (fun p => (low p.1, visible p.2)))
    (hcs : ∀ s' t' r r', step s c = .ok (s', r) → step t c = .ok (t', r') →
      low s' = low t' → observe s' cs = observe t' cs) :
    observe s (c :: cs) = observe t (c :: cs) := by
  simp only [observe]
  rcases hs : step s c with f | ⟨s', r⟩ <;> rcases ht : step t c with g | ⟨t', r'⟩ <;>
    simp only [hs, ht, Except.map, Except.error.injEq, Except.ok.injEq, Prod.mk.injEq,
      reduceCtorEq] at h
  · rw [h]
  · obtain ⟨hl, hv⟩ := h
    show Except.ok (visible r) :: observe s' cs = Except.ok (visible r') :: observe t' cs
    rw [hv, hcs s' t' r r' hs ht hl]

/-- Two states with the same `keystore_size` and hex store, their secret scalars apart,
show the non-secure world the same answers to any calls other than `import_sk`,
the outputs of `sk_to_pk` and `sign_pk` apart, and fault at the same call, as long as
no call's pointer reaches into secure memory. -/
theorem observe_lowEq (cs : List Call) (hcs : ∀ c ∈ cs, ∀ v, c ≠ .importSk v)
    {s t : SecureState} (hst : low s = low t) : observe s cs = observe t cs := by
  induction cs generalizing s t with
  | nil => rfl
  | cons c cs ih =>
    exact observe_cons (step_low (congrArg Prod.fst hst) (congrArg Prod.snd hst) c
      (hcs c (List.mem_cons_self _ _)))
      fun _ _ _ _ _ _ hl => ih (fun c hc => hcs c (List.mem_cons_of_mem _ hc)) hl

/-- Two boot states that differ only in `sk` and `sk_sign` answer a signature, a lookup and
`getkeys` alike. -/
theorem observe_lowEq_boot :
    low .init = low { SecureState.init with sk := fun _ => 7, skSign := fun _ => 7 } ∧
    (∀ c ∈ [Call.signPk, .pkInKeystore (fun _ => '0') 0, .getkeys], ∀ v, c ≠ .importSk v) ∧
    observe .init [.signPk, .pkInKeystore (fun _ => '0') 0, .getkeys] =
      observe { SecureState.init with sk := fun _ => 7, skSign := fun _ => 7 }
        [.signPk, .pkInKeystore (fun _ => '0') 0, .getkeys] :=
  ⟨rfl, by simp, observe_lowEq _ (by simp) rfl⟩

/-! ## Imports

`import_sk` compares the scalar it is given with the stored ones: it shows the
non-secure world whether that scalar is stored, and nothing else about the secrets. -/

end BlsHsm.Secrets
