import BlsHsm.Request

/-! The framing checks of `parseRequest` on `POST` requests. The expected length is
taken from the first `Content-Length: ` in the buffer, exact case, and counted from the
`CR` that ends that line, so it is the request's length when that header is the last
one. Results: `framing_content_length_line`, `framing_take_before_cr`,
`framing_content_length_last`. -/

namespace BlsHsm.Framing
open BlsHsm.CLib BlsHsm.Request

theorem strncmp_post (t : List Char) : strncmp 4 ("POST".toList ++ t) "POST".toList = 0 := rfl

@[simp] theorem length_post : "POST".toList.length = 4 := rfl

@[simp] theorem length_contentLength : "Content-Length: ".toList.length = 16 := rfl

/-- The first `Content-Length: ` after a line break that follows `POST` and a `head`
that does not contain it. -/
theorem strstr_content_length {head : List Char}
    (hcl : ¬ "Content-Length: ".toList <:+: "POST".toList ++ head) (y : List Char) :
    strstr ("POST".toList ++ head ++ '\r' :: '\n' :: y) "Content-Length: ".toList =
      (strstr y "Content-Length: ".toList).map (· + (head.length + 6)) := by
  rw [strstr_append_cons (by decide) hcl, strstr, if_neg (by simp), strstr, if_neg (by simp)]
  simp only [Option.map_map]
  congr 1; funext p; simp; omega

/-- The text up to the `CR` ending the `Content-Length` line holds no `NUL`. -/
theorem line_ne_nul (head ds : List Char) (hnul : '\x00' ∉ head) (hd : ∀ c ∈ ds, c.isDigit) :
    ∀ c ∈ "POST".toList ++ head ++ '\r' :: '\n' :: ("Content-Length: ".toList ++ ds),
      c ≠ '\x00' := by
  simp only [List.mem_append, List.mem_cons]
  rintro c ((hc | hc) | rfl | rfl | hc | hc)
  · rintro rfl; exact absurd hc (by decide)
  · rintro rfl; exact hnul hc
  · decide
  · decide
  · rintro rfl; exact absurd hc (by decide)
  · rintro rfl; exact absurd (hd _ hc) (by decide)

/-- A buffer that starts with `POST`, `head` and a `Content-Length` line whose `CR` it
already holds: framing compares its length with the one the line announces. -/
theorem framing_content_length_line (head ds rest : List Char) (hnul : '\x00' ∉ head)
    (hcl : ¬ "Content-Length: ".toList <:+: "POST".toList ++ head) (hds : ds ≠ [])
    (hd : ∀ c ∈ ds, c.isDigit) (hsz : head.length + ds.length + decimalValue ds + 26 < 2 ^ 32) :
    framing ("POST".toList ++ head ++ '\r' :: '\n' ::
        ("Content-Length: ".toList ++ ds ++ '\r' :: rest)) =
      let n := head.length + ds.length + decimalValue ds + 26
      let len := head.length + ds.length + rest.length + 23
      if len > n then some (-1) else if len < n then some (-2) else none := by
  set X := "POST".toList ++ head ++ '\r' :: '\n' ::
    ("Content-Length: ".toList ++ ds ++ '\r' :: rest) with hX
  have hcs : cstr X = "POST".toList ++ head ++ '\r' :: '\n' ::
      ("Content-Length: ".toList ++ ds ++ '\r' :: cstr rest) := by
    have := cstr_append _ ('\r' :: rest) (line_ne_nul head ds hnul hd)
    simp only [cstr_cons rest (by decide : '\r' ≠ '\x00'), List.append_assoc, List.cons_append] at this ⊢
    exact this
  have hdrop (k : Nat) : (cstr X).drop (head.length + 6 + k) =
      ("Content-Length: ".toList ++ ds ++ '\r' :: cstr rest).drop k := by
    rw [hcs, show head.length + 6 + k = ("POST".toList ++ head).length + (k + 2) by simp; omega,
      List.drop_append]
    rfl
  have hp : strstr (cstr X) "Content-Length: ".toList = some (head.length + 6) := by
    rw [hcs, strstr_content_length hcl,
      strstr_of_prefix ((List.prefix_append _ _).trans (List.prefix_append _ _))]
    simp
  have hq : strchr ((cstr X).drop (head.length + 6)) '\r' = some (ds.length + 16) := by
    rw [← Nat.add_zero (head.length + 6), hdrop, List.drop_zero, strchr_append_of_not_mem]
    · simp [strchr_cons_self]
    · simp only [List.mem_append, not_or]
      exact ⟨by decide, fun h => absurd (hd _ h) (by decide)⟩
  have ha : atoi ((cstr X).drop (head.length + 6 + 16)) = decimalValue ds := by
    rw [hdrop, List.append_assoc, List.drop_left' length_contentLength,
      atoi_digits hds hd (show Char.isDigit '\r' = false by decide)]
  have hpost : strncmp 4 X "POST".toList = 0 := by rw [hX, List.append_assoc]; exact strncmp_post _
  have hlen : X.length = head.length + ds.length + rest.length + 23 := by
    simp only [hX, List.length_append, List.length_cons, length_post, length_contentLength]; omega
  rw [framing, if_neg (fun h' => h'.1 hpost), if_pos hpost]
  simp only [hp, hq, ha]
  rw [hlen, toSizeT_of_lt (by omega) (by push_cast; omega)]
  have : ((decimalValue ds : Int) + 4 + (((head.length + 6 : Nat) : Int) +
      ((ds.length + 16 : Nat) : Int))).toNat = head.length + ds.length + decimalValue ds + 26 := by
    omega
  rw [this]

/-- A prefix of at least four characters that stops before the `CR` ending the
`Content-Length` line is incomplete while it is shorter than 300 characters. -/
theorem framing_take_before_cr (head ds rest : List Char) (hnul : '\x00' ∉ head)
    (hcl : ¬ "Content-Length: ".toList <:+: "POST".toList ++ head) (hd : ∀ c ∈ ds, c.isDigit)
    {m : Nat} (h4 : 4 ≤ m) (hm : m ≤ head.length + ds.length + 22) (h300 : m < 300) :
    framing (("POST".toList ++ head ++ '\r' :: '\n' ::
      ("Content-Length: ".toList ++ ds ++ '\r' :: rest)).take m) = some (-2) := by
  set Y := "POST".toList ++ head ++ '\r' :: '\n' :: ("Content-Length: ".toList ++ ds) with hY
  have hYl : Y.length = head.length + ds.length + 22 := by
    simp only [hY, List.length_append, List.length_cons, length_post, length_contentLength, List.length_nil]; omega
  have htake : ("POST".toList ++ head ++ '\r' :: '\n' ::
      ("Content-Length: ".toList ++ ds ++ '\r' :: rest)).take m = Y.take m := by
    rw [show "POST".toList ++ head ++ '\r' :: '\n' ::
      ("Content-Length: ".toList ++ ds ++ '\r' :: rest) = Y ++ '\r' :: rest by simp [hY],
      List.take_append_of_le_length (by omega)]
  have hpost : strncmp 4 (Y.take m) "POST".toList = 0 := by
    rw [hY, List.append_assoc, List.take_append_eq_append_take,
      List.take_of_length_le (by simp; omega)]
    exact strncmp_post _
  have hs : strstr (Y.take m) "Content-Length: ".toList =
      if head.length + 22 ≤ m then some (head.length + 6) else none := by
    rw [strstr_take _ _ (by simp) m, hY, strstr_content_length hcl,
      strstr_of_prefix (List.prefix_append _ _)]
    simp only [Option.map_some', zero_add, Option.filter_some, length_contentLength, decide_eq_true_eq]
  have hlen : (Y.take m).length = m := by simp only [List.length_take, hYl]; omega
  rw [htake, framing, if_neg (fun h' => h'.1 hpost), if_pos hpost,
    cstr_of_forall (fun c hc => line_ne_nul head ds hnul hd c (List.mem_of_mem_take hc)), hs, hlen]
  by_cases hle : head.length + 22 ≤ m
  · have hcr : '\r' ∉ (Y.take m).drop (head.length + 6) := by
      rw [List.drop_take, show Y = ("POST".toList ++ head ++ ['\r', '\n']) ++
        ("Content-Length: ".toList ++ ds) by simp [hY], List.drop_left' (by simp)]
      intro h
      rcases List.mem_append.mp (List.mem_of_mem_take h) with h | h
      · exact absurd h (by decide)
      · exact absurd (hd _ h) (by decide)
    simp only [if_pos hle, strchr_eq_none hcr, if_pos h300]
  · simp only [if_neg hle, if_pos h300]

/-- A `POST` request whose length header is spelled `content-length`, one whose
`Content-Length` header is not the last, and a three-byte prefix of a request: framing
answers incomplete, bad request and bad request. -/
theorem framing_misjudges_requests :
    framing "POST / HTTP/1.1\r\ncontent-length: 0\r\n\r\n".toList = some (-2) ∧
    framing "POST / HTTP/1.1\r\nContent-Length: 0\r\nHost: h\r\n\r\n".toList = some (-1) ∧
    framing "POS".toList = some (-1) :=
  ⟨rfl, rfl, rfl⟩

/-- Framing of a `POST` request whose `Content-Length: ` header, spelled so, is its last
header and the first occurrence of that text: the request passes, anything longer is a
bad request, and each prefix of at least four characters that holds the blank line or is
shorter than 300 characters is incomplete. -/
theorem framing_content_length_last (head ds body R : List Char)
    (hR : R = "POST".toList ++ head ++ "\r\nContent-Length: ".toList ++ ds ++ "\r\n\r\n".toList ++
      body)
    (hnul : '\x00' ∉ head) (hcl : ¬ "Content-Length: ".toList <:+: "POST".toList ++ head)
    (hds : ds ≠ []) (hd : ∀ c ∈ ds, c.isDigit) (hN : decimalValue ds = body.length)
    (hsz : R.length ≤ 32768) :
    framing R = none ∧ (∀ extra, extra ≠ [] → framing (R ++ extra) = some (-1)) ∧
    ∀ m, 4 ≤ m → m < R.length → (R.length - body.length ≤ m ∨ m < 300) →
      framing (R.take m) = some (-2) := by
  have hR' : R = "POST".toList ++ head ++ '\r' :: '\n' :: ("Content-Length: ".toList ++ ds ++
      '\r' :: ('\n' :: '\r' :: '\n' :: body)) := by
    rw [hR]; simp only [List.append_assoc]; rfl
  have hlen : R.length = head.length + ds.length + body.length + 26 := by
    simp only [hR', List.length_append, List.length_cons, length_post, length_contentLength]; omega
  have hsz' : head.length + ds.length + decimalValue ds + 26 < 2 ^ 32 := by omega
  refine ⟨?_, fun extra hne => ?_, fun m h4 hm hpre => ?_⟩
  · rw [hR', framing_content_length_line head ds _ hnul hcl hds hd hsz']
    simp only [List.length_cons]
    rw [if_neg (by omega), if_neg (by omega)]
  · have hx : R ++ extra = "POST".toList ++ head ++ '\r' :: '\n' :: ("Content-Length: ".toList ++
        ds ++ '\r' :: ('\n' :: '\r' :: '\n' :: (body ++ extra))) := by
      rw [hR']; simp only [List.append_assoc, List.cons_append]
    have := List.length_pos.mpr hne
    rw [hx, framing_content_length_line head ds _ hnul hcl hds hd hsz']
    simp only [List.length_cons, List.length_append]
    rw [if_pos (by omega)]
  · by_cases hshort : m ≤ head.length + ds.length + 22
    · rw [hR']
      exact framing_take_before_cr head ds _ hnul hcl hd h4 hshort (by omega)
    · have hK : ("POST".toList ++ head ++ '\r' :: '\n' ::
          ("Content-Length: ".toList ++ ds ++ ['\r'])).length = head.length + ds.length + 23 := by
        simp only [List.length_append, List.length_cons, length_post, length_contentLength, List.length_nil]; omega
      have ht : R.take m = "POST".toList ++ head ++ '\r' :: '\n' :: ("Content-Length: ".toList ++
          ds ++ '\r' :: ('\n' :: '\r' :: '\n' :: body).take (m - (head.length + ds.length + 23))) := by
        rw [show R = ("POST".toList ++ head ++ '\r' :: '\n' ::
          ("Content-Length: ".toList ++ ds ++ ['\r'])) ++ ('\n' :: '\r' :: '\n' :: body) by
            rw [hR']; simp,
          List.take_append_eq_append_take, List.take_of_length_le (by rw [hK]; omega), hK]
        simp only [List.append_assoc, List.cons_append, List.nil_append]
      rw [ht, framing_content_length_line head ds _ hnul hcl hds hd hsz']
      simp only [List.length_take, List.length_cons]
      rw [if_neg (by omega), if_pos (by omega)]

theorem framing_content_length_last_hello :
    let R := "POST / HTTP/1.1\r\nHost: h\r\nContent-Length: 5\r\n\r\nhello".toList
    framing R = none ∧ (∀ extra, extra ≠ [] → framing (R ++ extra) = some (-1)) ∧
      ∀ m, 4 ≤ m → m < R.length → (R.length - 5 ≤ m ∨ m < 300) →
        framing (R.take m) = some (-2) :=
  framing_content_length_last " / HTTP/1.1\r\nHost: h".toList "5".toList "hello".toList _ rfl
    (by decide) (by decide) (by decide) (by decide) rfl (by decide)

end BlsHsm.Framing
