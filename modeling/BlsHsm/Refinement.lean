import BlsHsm.Abstract
import BlsHsm.Binding
import BlsHsm.Search

/-! The C globals implement the abstract key store. `conc` lays a store out in the
globals; on every such layout each entry call is the abstract call (`step_conc`), so every
reachable state holds an abstract store (`reachable_conc`), a call from it is the abstract
call (`reachable_step_refines`), and it faults exactly when the abstract call is refused
(`reachable_step_faults`).

The entry calls take their buffers by value (`Call`): this presumes, as the code does not
check, that every pointer a call receives points to non-secure memory large enough for
what the call reads or writes there, and aliases no secure global. -/

namespace BlsHsm.Refinement
open BlsHsm.CLib BlsHsm.Keystore BlsHsm.Invariants BlsHsm.Abstract BlsHsm.Binding BlsHsm.Search

theorem mod96_lt (j : Nat) : j % 96 < 96 := Nat.mod_lt _ (by decide)

/-- Character `j` of the hex store laid out from `l`: character `j % 96` of key `j / 96`,
`NUL` past the last key. -/
def slotChar (l : List Entry) (j : Nat) : Char :=
  (l[j / 96]?.map fun e => e.hex ⟨j % 96, mod96_lt j⟩).getD '\x00'

/-- The globals that hold `a`: key `i` in slot `i` of both stores, zeros and `NUL`s
past the last key. -/
def conc (a : Store) : SecureState where
  sk := a.sk
  secretKeysStore i := (a.entries[i.val]?.map Entry.secret).getD Scalar.zero
  skSign := a.skSign
  publicKeysHexStore j := slotChar a.entries j
  keystoreSize := a.entries.length

/-! ## The layout -/

theorem slotChar_slot (l : List Entry) (i : Nat) (x : Fin 96) :
    slotChar l (96 * i + x) = (l[i]?.map fun e => e.hex x).getD '\x00' := by
  have hx : (⟨(96 * i + x) % 96, mod96_lt _⟩ : Fin 96) = x := Fin.ext (by simp only; omega)
  rw [slotChar, show (96 * i + x) / 96 = i by omega, hx]

/-- Two hex stores that agree on every character of every slot are equal. -/
theorem hexStore_ext {f g : Fin 960 → Char}
    (h : ∀ (i : Fin 10) (x : Fin 96),
      f ⟨96 * i + x, slot_lt i x⟩ = g ⟨96 * i + x, slot_lt i x⟩) :
    f = g := by
  funext j
  have e : j = ⟨96 * (j.val / 96) + (j.val % 96),
      slot_lt ⟨j.val / 96, by omega⟩ ⟨j.val % 96, mod96_lt _⟩⟩ :=
    Fin.ext (by simp only; omega)
  rw [e]
  exact h ⟨j.val / 96, by omega⟩ ⟨j.val % 96, mod96_lt _⟩

@[simp] theorem conc_keystoreSize (a : Store) : (conc a).keystoreSize = a.entries.length := rfl

theorem conc_wf (a : Store) : WF (conc a) :=
  ⟨Int.natCast_nonneg _, by have := a.length_le; simp only [conc_keystoreSize]; omega⟩

theorem conc_secret {a : Store} {i : Fin 10} (h : i.val < a.entries.length) :
    (conc a).secretKeysStore i = a.entries[i.val].secret := by
  simp [conc, List.getElem?_eq_getElem h]

theorem conc_slot {a : Store} {i : Fin 10} (h : i.val < a.entries.length) (x : Fin 96) :
    (conc a).publicKeysHexStore ⟨96 * i + x, slot_lt i x⟩ = a.entries[i.val].hex x := by
  simp [conc, slotChar_slot, List.getElem?_eq_getElem h]

/-! ## One call -/

theorem getElem?_concat {α : Type} (l : List α) (x : α) (i : Nat) :
    (l ++ [x])[i]? = if i = l.length then some x else l[i]? := by
  rcases lt_trichotomy i l.length with h | rfl | h
  · simp [List.getElem?_append_left h, h.ne]
  · simp
  · simp [List.getElem?_eq_none (show l.length ≤ i by omega),
      List.getElem?_append_right (show l.length ≤ i by omega), h.ne']
    omega

theorem slotChar_append_blank (l : List Entry) (v : Scalar) :
    slotChar (l ++ [⟨v, blank⟩]) = slotChar l := by
  funext j
  simp only [slotChar, getElem?_concat]
  split
  · next h => simp [blank, List.getElem?_eq_none (show l.length ≤ j / 96 by omega)]
  · rfl

theorem appendSecret_conc (a : Store) (v : Scalar) :
    (appendSecret (conc a) v).toOption = (a.insert v).map conc := by
  unfold Store.insert
  split
  · next h =>
    rw [appendSecret_ok v ⟨Int.natCast_nonneg _, by simp only [conc_keystoreSize]; omega⟩]
    simp only [Except.toOption, Option.map_some', Option.some.injEq]
    simp only [conc, SecureState.mk.injEq, slotChar_append_blank, List.length_append,
      List.length_singleton, true_and, and_true]
    refine ⟨funext fun i => ?_, by push_cast; rfl⟩
    rw [Function.update_apply, getElem?_concat]
    by_cases hi : i.val = a.entries.length
    · rw [if_pos (Fin.ext (by simp [hi])), if_pos hi]; rfl
    · rw [if_neg (fun e => hi (by rw [e]; simp)), if_neg hi]
  · next h =>
    rw [appendSecret_error v (by simp only [conc_keystoreSize]; omega)]
    rfl

theorem getLast?_eq_getElem {α : Type} {l : List α} {e : α} (h : l.getLast? = some e) :
    ∃ h : l.length - 1 < l.length, l[l.length - 1] = e := by
  rw [List.getLast?_eq_getElem?] at h
  have hl : l.length - 1 < l.length := by
    rcases Nat.lt_or_ge (l.length - 1) l.length with hl | hl
    · exact hl
    · rw [List.getElem?_eq_none hl] at h; cases h
  exact ⟨hl, by rw [List.getElem?_eq_getElem hl] at h; exact Option.some.inj h⟩

theorem storePk_conc (a : Store) (hex : Fin 96 → Char) :
    (storePk (conc a) hex).toOption = (a.setLastHex hex).map conc := by
  unfold Store.setLastHex
  split
  · next e he =>
    obtain ⟨hl, rfl⟩ := getLast?_eq_getElem he
    have h1 : 1 ≤ a.entries.length := by omega
    have h10 := a.length_le
    obtain ⟨hexs, hb, -⟩ := storeBlock_ok (conc a).publicKeysHexStore .publicKeysHexStore
      (show 0 ≤ 96 * ((conc a).keystoreSize - 1) by simp only [conc_keystoreSize]; omega)
      (show 96 * ((conc a).keystoreSize - 1) + (List.ofFn hex).length ≤ 960 by
        rw [List.length_ofFn, conc_keystoreSize]; omega)
    have hs : storePk (conc a) hex = .ok { conc a with publicKeysHexStore := hexs } := by
      rw [storePk, hb, bind_ok]
    have hslot := storePk_slot (by simp only [conc_keystoreSize]; omega)
      (by simp only [conc_keystoreSize]; omega) hs
    rw [hs]
    simp only [Except.toOption, Option.map_some', Option.some.injEq]
    simp only [conc, SecureState.mk.injEq, List.length_set, true_and, and_true]
    refine ⟨funext fun i => ?_, hexStore_ext fun i x => ?_⟩
    · rw [List.getElem?_set]
      split
      · next hi => rw [← hi, List.getElem?_eq_getElem hl]; rfl
      · rfl
    · have := hslot i x
      simp only [conc_keystoreSize] at this
      rw [this]
      show _ = slotChar _ (96 * i + x)
      rw [slotChar_slot, List.getElem?_set]
      by_cases hi : (i : Nat) = a.entries.length - 1
      · rw [if_pos (by omega), if_pos hi.symm, if_pos hl]; rfl
      · rw [if_neg (by omega), if_neg (Ne.symm hi)]
        exact slotChar_slot _ _ _
  · next he =>
    rw [List.getLast?_eq_none_iff] at he
    rw [storePk_empty hex (by simp [he])]
    rfl

theorem reset_conc (a : Store) : reset (conc a) = conc a.reset := by
  rfl

theorem length_hexList (l : List Entry) :
    (l.flatMap fun e => List.ofFn e.hex).length = 96 * l.length := by
  induction l with
  | nil => rfl
  | cons e l ih =>
    rw [List.flatMap_cons, List.length_append, ih, List.length_ofFn, List.length_cons]
    omega

theorem getElem_hexList (l : List Entry) (j : Nat)
    (h : j < (l.flatMap fun e => List.ofFn e.hex).length) :
    (l.flatMap fun e => List.ofFn e.hex)[j] = slotChar l j := by
  induction l generalizing j with
  | nil => exact absurd h (Nat.not_lt_zero j)
  | cons e l ih =>
    simp only [List.flatMap_cons]
    by_cases hj : j < 96
    · rw [List.getElem_append_left (by rw [List.length_ofFn]; exact hj), List.getElem_ofFn,
        slotChar, Nat.div_eq_of_lt hj, List.getElem?_cons_zero, Option.map_some', Option.getD_some]
      exact congrArg e.hex (Fin.ext (Nat.mod_eq_of_lt hj).symm)
    · rw [List.getElem_append_right (by rw [List.length_ofFn]; omega)]
      rw [ih]
      simp only [List.length_ofFn]
      rw [slotChar, slotChar, show j / 96 = (j - 96) / 96 + 1 by omega,
        List.getElem?_cons_succ]
      congr 2
      funext e'
      exact congrArg e'.hex (Fin.ext (show (j - 96) % 96 = j % 96 by omega))

theorem getkeys_conc (a : Store) : getkeys (conc a) = .ok a.hexList := by
  have h10 := a.length_le
  rw [getkeys, loadBlock_ok _ _ le_rfl (by simp only [conc_keystoreSize]; omega)]
  congr 1
  apply List.ext_getElem
  · rw [List.length_ofFn, Store.hexList, length_hexList, conc_keystoreSize]; omega
  · intro j _ h2
    simp only [List.getElem_ofFn, Store.hexList, getElem_hexList]
    exact congrArg (slotChar a.entries) (by simp)

theorem slotMatches_conc {a : Store} {i : Fin 10} (h : i.val < a.entries.length)
    (key : Int → Char) (o : Int) :
    SlotMatches (conc a) key o i ↔ a.entries[i.val].Matches key o := by
  simp only [SlotMatches, Entry.Matches, conc_slot h]


theorem pkInKeystore_conc (a : Store) (key : Int → Char) (o : Int) :
    pkInKeystore (conc a) key o = .ok (conc (a.lookup key o).1, (a.lookup key o).2) := by
  unfold pkInKeystore Store.lookup
  rcases Nat.eq_zero_or_pos a.entries.length with h0 | hpos
  · have hfind : a.entries.find? (fun e => decide (e.Matches key o)) = none := by
      simp [List.length_eq_zero.mp h0]
    rw [if_pos (by simp [h0]), hfind]
  have h10 := a.length_le
  rw [if_neg (by simp only [conc_keystoreSize]; omega),
    if_pos (by simp only [conc_keystoreSize]; omega)]
  have hk : 0 + ((conc a).keystoreSize.toNat - 1) < 10 := by simp only [conc_keystoreSize]; omega
  have hcont : (96 * ((0 : Nat) : Int)) = 0 := by simp
  rcases pkInKeystoreLoop_spec (conc a) key o hk with ⟨j, -, hj, hm, hl, h⟩ | ⟨hl, h⟩
  · have hjl : j.val < a.entries.length := by simp only [conc_keystoreSize] at hj; omega
    have hfind : a.entries.find? (fun e => decide (e.Matches key o)) = some a.entries[j.val] :=
      List.find?_eq_some_iff_getElem.mpr ⟨decide_eq_true ((slotMatches_conc hjl key o).mp hm),
        j.val, hjl, rfl, fun i hi => by
          have := (slotMatches_conc (i := ⟨i, by omega⟩) (show i < a.entries.length by omega)
            key o).not.mp (hl ⟨i, by omega⟩ (Nat.zero_le _) hi)
          simpa using this⟩
    rw [hcont] at h
    rw [h, hfind, conc_secret hjl]
    rfl
  · have hfind : a.entries.find? (fun e => decide (e.Matches key o)) = none := by
      rw [List.find?_eq_none]
      intro e he
      obtain ⟨i, hi, rfl⟩ := List.mem_iff_getElem.mp he
      have := (slotMatches_conc (i := ⟨i, by omega⟩) hi key o).not.mp
        (hl ⟨i, by omega⟩ (Nat.zero_le _) (by simp only [conc_keystoreSize]; omega))
      simpa using this
    rw [hcont] at h
    rw [h, hfind]


theorem toOption_map {ε α β : Type} (x : Except ε α) (f : α → β) :
    (x.map f).toOption = x.toOption.map f := by
  cases x <;> rfl

theorem toOption_bind_ok {ε α β : Type} (x : Except ε α) (f : α → β) :
    (x >>= fun a => .ok (f a)).toOption = x.toOption.map f := by
  cases x <;> rfl

theorem toOption_eq_some {ε α : Type} {x : Except ε α} {y : α} :
    x.toOption = some y ↔ x = .ok y := by
  cases x <;> simp [Except.toOption]

theorem toOption_eq_none {ε α : Type} {x : Except ε α} :
    x.toOption = none ↔ ∃ f, x = .error f := by
  cases x <;> simp [Except.toOption]

theorem importSk_conc (a : Store) (v : Scalar) :
    (importSk (conc a) v).toOption = (a.importKey v).map fun p => (conc p.1, p.2) := by
  unfold importSk Store.importKey
  have h10 := a.length_le
  rcases Nat.eq_zero_or_pos a.entries.length with h0 | hpos
  · have hv : v ∉ a.entries.map Entry.secret := by simp [List.length_eq_zero.mp h0]
    rw [if_pos (by simp [h0]), if_neg hv, toOption_bind_ok, appendSecret_conc]
    cases a.insert v <;> rfl
  rw [if_neg (by simp only [conc_keystoreSize]; omega),
    if_pos (by simp only [conc_keystoreSize]; omega)]
  have hk : 0 + ((conc a).keystoreSize.toNat - 1) < 10 := by simp only [conc_keystoreSize]; omega
  by_cases hv : v ∈ a.entries.map Entry.secret
  · obtain ⟨e, he, rfl⟩ := List.mem_map.mp hv
    obtain ⟨j, hj, rfl⟩ := List.mem_iff_getElem.mp he
    rw [importSkLoop_dup hk (j := ⟨j, by omega⟩) (Nat.zero_le _)
      (by simp only [conc_keystoreSize]; omega) (conc_secret hj), if_pos hv]
    rfl
  · rw [importSkLoop_fresh hk fun j _ hj => ?_, if_neg hv, toOption_map, appendSecret_conc]
    · cases a.insert v <;> rfl
    · rw [conc_secret (by simp only [conc_keystoreSize] at hj; omega)]
      exact fun h => hv (List.mem_map.mpr ⟨_, List.getElem_mem _, h⟩)

/-! ## Runs -/

/-- On the globals that hold an abstract store, each entry call is the abstract call: the
same answer on the globals of the new store, and a fault exactly where the abstract
call is refused. -/
theorem step_conc (a : Store) (c : Call) :
    (step (conc a) c).toOption = (absStep a c).map fun p => (conc p.1, p.2) := by
  cases c with
  | getKeystoreSize | skToPk | signPk => rfl
  | storePk hex =>
    rw [step, absStep, toOption_map, storePk_conc]
    cases a.setLastHex hex <;> rfl
  | getkeys => rw [step, absStep, getkeys_conc]; rfl
  | pkInKeystore key o => rw [step, absStep, pkInKeystore_conc]; rfl
  | ikmSk g =>
    rw [step, absStep, toOption_map, ikmSk, appendSecret_conc]
    cases a.insert g <;> rfl
  | reset => rw [step, absStep, reset_conc]; rfl
  | importSk v =>
    rw [step, absStep, toOption_map, importSk_conc]
    cases a.importKey v <;> rfl

/-- A call that succeeds on the globals of `a` is an abstract call that succeeds. -/
theorem step_conc_ok {a : Store} {c : Call} {s' : SecureState} {r : Ret}
    (h : step (conc a) c = .ok (s', r)) : ∃ a', absStep a c = some (a', r) ∧ s' = conc a' := by
  have e := step_conc a c
  rw [toOption_eq_some.mpr h] at e
  obtain ⟨⟨a', r'⟩, ha, hp⟩ := Option.map_eq_some'.mp e.symm
  cases hp
  exact ⟨a', ha, rfl⟩

theorem init_eq_conc : SecureState.init = conc Store.empty := rfl

theorem run_conc (a : Store) (cs : List Call) :
    (run (conc a) cs).toOption = (absRun a cs).map conc := by
  induction cs generalizing a with
  | nil => rfl
  | cons c cs ih =>
    have e := step_conc a c
    simp only [run, absRun]
    cases h : absStep a c with
    | none =>
      rw [h, Option.map_none', toOption_eq_none] at e
      obtain ⟨f, hf⟩ := e
      rw [hf]
      rfl
    | some p =>
      rw [h, Option.map_some', toOption_eq_some] at e
      rw [e, bind_ok]
      exact ih p.1

/-- Every reachable state holds an abstract store whose `sk` is its last key's secret. -/
theorem reachable_conc {s : SecureState} (h : Reachable s) :
    ∃ a : Store, s = conc a ∧ a.SkLast := by
  induction h with
  | init => exact ⟨Store.empty, rfl, fun e he => by cases he⟩
  | step _ hc ih =>
    obtain ⟨a, rfl, ha⟩ := ih
    obtain ⟨a', h', rfl⟩ := step_conc_ok hc
    exact ⟨a', rfl, skLast_absStep ha h'⟩

/-- A run from boot that succeeds ends in the globals of the abstract run's store. -/
theorem run_init_conc {cs : List Call} {s : SecureState} (h : run .init cs = .ok s) :
    ∃ a, absRun Store.empty cs = some a ∧ s = conc a := by
  have e := run_conc Store.empty cs
  rw [← init_eq_conc, toOption_eq_some.mpr h] at e
  obtain ⟨a, ha, rfl⟩ := Option.map_eq_some'.mp e.symm
  exact ⟨a, ha, rfl⟩

/-- From every reachable state each entry call is the abstract call on the store the
state holds: the same answer, the globals of the new abstract store, and a fault exactly
where the abstract call is refused. The call's buffers are the values `Call` carries,
so its pointers are taken to be non-secure memory that aliases no secure global. -/
theorem reachable_step_refines {s : SecureState} (hs : Reachable s) (c : Call) :
    ∃ a : Store, s = conc a ∧ a.SkLast ∧
      (step s c).toOption = (absStep a c).map fun p => (conc p.1, p.2) := by
  obtain ⟨a, rfl, ha⟩ := reachable_conc hs
  exact ⟨a, rfl, ha, step_conc a c⟩

/-- At boot `getkeys` is the abstract `getkeys` of the empty store. -/
theorem reachable_step_refines_boot : Reachable .init ∧ ∃ a : Store, SecureState.init = conc a ∧
    a.SkLast ∧ (step .init .getkeys).toOption = (absStep a .getkeys).map fun p => (conc p.1, p.2) :=
  ⟨.init, reachable_step_refines .init .getkeys⟩

/-- On ten keys, no slot holds `v` exactly when no key has the secret `v`. -/
theorem conc_secret_ne_iff {a : Store} (h : a.entries.length = 10) (v : Scalar) :
    (∀ i : Fin 10, (conc a).secretKeysStore i ≠ v) ↔ v ∉ a.entries.map Entry.secret := by
  constructor
  · intro hall hv
    obtain ⟨e, he, rfl⟩ := List.mem_map.mp hv
    obtain ⟨j, hj, rfl⟩ := List.mem_iff_getElem.mp he
    exact hall ⟨j, by omega⟩ (conc_secret hj)
  · intro hv i hi
    rw [conc_secret (by omega)] at hi
    exact hv (List.mem_map.mpr ⟨_, List.getElem_mem _, hi⟩)

/-- From a reachable state a call faults exactly when it is `ikm_sk` on ten keys,
`import_sk` of a secret none of ten stored keys holds, or `store_pk` on an empty store:
these are the accesses past the secure arrays, the call's pointers being taken, as in
`Call`, to be non-secure buffers large enough for what it reads and writes. -/
theorem reachable_step_faults {s : SecureState} (hs : Reachable s) (c : Call) :
    (∃ f, step s c = .error f) ↔
      ((∃ g, c = .ikmSk g) ∧ s.keystoreSize = 10) ∨
      (∃ v, c = .importSk v ∧ s.keystoreSize = 10 ∧ ∀ i : Fin 10, s.secretKeysStore i ≠ v) ∨
      ((∃ hex, c = .storePk hex) ∧ s.keystoreSize = 0) := by
  obtain ⟨a, rfl, -⟩ := reachable_conc hs
  rw [← toOption_eq_none, step_conc, Option.map_eq_none', absStep_eq_none]
  have h10 : ((a.entries.length : Int) = 10) ↔ a.entries.length = 10 := by omega
  have h0 : ((a.entries.length : Int) = 0) ↔ a.entries = [] := by
    rw [← List.length_eq_zero]; omega
  simp only [conc_keystoreSize, h10, h0]
  exact or_congr Iff.rfl (or_congr (exists_congr fun v => and_congr_right fun _ =>
    and_congr_right fun h => (conc_secret_ne_iff h v).symm) Iff.rfl)

/-- `store_pk` before any key faults, also right after boot. -/
theorem storePk_init_faults : Reachable .init ∧ ((∃ f, step .init (.storePk fun _ => 'a') = .error f) ↔
      ((∃ g, Call.storePk (fun _ => 'a') = .ikmSk g) ∧ SecureState.init.keystoreSize = 10) ∨
      (∃ v, Call.storePk (fun _ => 'a') = .importSk v ∧ SecureState.init.keystoreSize = 10 ∧
        ∀ i : Fin 10, SecureState.init.secretKeysStore i ≠ v) ∨
      ((∃ hex, Call.storePk (fun _ => 'a') = .storePk hex) ∧ SecureState.init.keystoreSize = 0)) :=
  ⟨.init, reachable_step_faults .init _⟩

end BlsHsm.Refinement
