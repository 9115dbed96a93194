/-
# JSON tokens that were written

What the printer writes for a text, a whole number or a word is cut off the front of a longer
text as the one token it was written for.  A text ends at its own quote, because the quotes
inside it are escaped; a number ends where no digit, point or exponent follows, so for numbers
alone it matters what stands behind (`Ends`).
-/
import ImageTrust.Json.Token
import ImageTrust.Json.Writer
import ImageTrust.Proofs.Digits

namespace ImageTrust

namespace CodePoint

theorem ne_of_isDigit {c : CodePoint} (hc : c.isDigit = true) {x : Char}
    (hx : x.isDigit = false) : c ≠ ofChar x := by
  rintro rfl
  rw [ofChar_isDigit, hx] at hc
  cases hc

end CodePoint

namespace Json

/-! ## Texts -/

/-- No low surrogate completes a number below the high ones. -/
theorem ofPair?_of_low {n : Nat} (hn : n < 0xD800) (low : Nat) :
    CodePoint.ofPair? n low = none := if_neg (by omega)

theorem takeNumbered?_of_low {a b c d : CodePoint} {n : Nat} (hex : hex4? a b c d = some n)
    (hn : n < 0xD800) (e : CodePoint) (rest : Text) :
    takeNumbered? (a :: b :: c :: d :: e :: rest) =
      (CodePoint.ofNat? n).map fun x => (x, e :: rest) := by
  unfold takeNumbered?
  simp only [hex, ofPair?_of_low hn]
  split
  · split
    · split <;> rfl
    · rfl
  · rfl

/-- A hexadecimal digit. -/
def hexDigit (n : Nat) : CodePoint := CodePoint.ofChar n.digitChar

/-- The numbered escape of a control character has four digits that write it. -/
theorem hexadecimal_control :
    ∀ n < 0x20,
      Text.hexadecimal 4 n = [hexDigit 0, hexDigit 0, hexDigit (n / 16), hexDigit (n % 16)] ∧
        hex4? (hexDigit 0) (hexDigit 0) (hexDigit (n / 16)) (hexDigit (n % 16)) = some n := by
  decide

section Texts

variable {start rest : Text} {fuel : Nat}

/-- One escaped code point, with something behind it. -/
theorem takeText_escaped (c e : CodePoint) :
    takeText start (fuel + 1) (escaped c ++ e :: rest) =
      (takeText start fuel (e :: rest)).map fun (t, r) => (c :: t, r) := by
  unfold escaped
  -- The seven signs with an escape of their own.
  iterate 7
    split
    · subst c
      rfl
  split
  · rename_i hcontrol
    obtain ⟨hshown, hvalue⟩ := hexadecimal_control c.val hcontrol
    have hnumbered := takeNumbered?_of_low hvalue (by omega) e rest
    rw [CodePoint.ofNat?, dif_pos c.lt] at hnumbered
    show takeText start (fuel + 1) (CodePoint.ofChar '\\' :: CodePoint.ofChar 'u' ::
      (Text.hexadecimal 4 c.val ++ e :: rest)) = _
    rw [hshown, takeText, if_neg (by decide), if_pos rfl]
    dsimp only [List.cons_append, List.nil_append]
    rw [if_pos rfl, hnumbered]
    rfl
  · rename_i hquote hslash _ _ _ _ _ hcontrol
    show takeText start (fuel + 1) (c :: e :: rest) = _
    rw [takeText, if_neg hquote, if_neg hslash, if_neg hcontrol]

theorem length_le_length_flatMap_escaped (t : Text) : t.length ≤ (t.flatMap escaped).length := by
  have hone : ∀ c, 1 ≤ (escaped c).length := by
    intro c
    unfold escaped
    repeat' split
    all_goals simp [Text.ofString]
  induction t with
  | nil => exact Nat.le_refl _
  | cons c t ih =>
      have hc := hone c
      rw [List.flatMap_cons, List.length_append, List.length_cons]
      omega

theorem takeText_flatMap_escaped {t : Text} (hfuel : t.length < fuel) :
    takeText start fuel (t.flatMap escaped ++ CodePoint.ofChar '"' :: rest) = .ok (t, rest) := by
  induction t generalizing fuel with
  | nil =>
      obtain ⟨fuel, rfl⟩ := Nat.exists_eq_add_one_of_ne_zero (Nat.ne_of_gt hfuel)
      rfl
  | cons c t ih =>
      obtain ⟨fuel, rfl⟩ :=
        Nat.exists_eq_add_one_of_ne_zero (Nat.ne_of_gt (Nat.zero_lt_of_lt hfuel))
      have hne : t.flatMap escaped ++ CodePoint.ofChar '"' :: rest ≠ [] := by simp
      obtain ⟨e, more, hmore⟩ := List.exists_cons_of_ne_nil hne
      rw [List.flatMap_cons, List.append_assoc, hmore, takeText_escaped, ← hmore,
        ih (Nat.lt_of_succ_lt_succ hfuel)]
      rfl

/-- A written text is one token, whatever follows. -/
theorem takeToken_text (t rest : Text) :
    takeToken '"' (t.flatMap escaped ++ CodePoint.ofChar '"' :: rest) = (.text t, rest) := by
  have hlength := length_le_length_flatMap_escaped t
  have hfuel : t.length < (t.flatMap escaped ++ CodePoint.ofChar '"' :: rest).length := by
    rw [List.length_append, List.length_cons]
    omega
  have hsign : sign? (CodePoint.ofChar '"') = none := rfl
  unfold takeToken
  simp only [hsign, if_true, takeText_flatMap_escaped hfuel]

end Texts

/-! ## Numbers -/

/-- The text does not go on with a number: no digit, point or exponent comes first. -/
def Ends (t : Text) : Prop :=
  ∀ c, t.head? = some c → c.isDigit = false ∧ c ≠ CodePoint.ofChar '.' ∧
    c ≠ CodePoint.ofChar 'e' ∧ c ≠ CodePoint.ofChar 'E'

theorem ends_nil : Ends [] := fun _ h => nomatch h

theorem ends_cons {c : CodePoint} (hc : c.isDigit = false ∧ c ≠ CodePoint.ofChar '.' ∧
    c ≠ CodePoint.ofChar 'e' ∧ c ≠ CodePoint.ofChar 'E') (t : Text) : Ends (c :: t) := by
  intro d hd
  cases hd
  exact hc

section Numbers

variable {rest : Text}

theorem span_digits {digits : Text} (hdigits : ∀ c ∈ digits, c.isDigit = true) (hrest : Ends rest) :
    (digits ++ rest).takeWhile CodePoint.isDigit = digits ∧
      (digits ++ rest).dropWhile CodePoint.isDigit = rest := by
  induction digits with
  | nil =>
      cases rest with
      | nil => exact ⟨rfl, rfl⟩
      | cons c rest =>
          have hc := (hrest c rfl).1
          rw [List.nil_append, List.takeWhile_cons, List.dropWhile_cons, hc]
          exact ⟨rfl, rfl⟩
  | cons d digits ih =>
      have hd := hdigits d List.mem_cons_self
      obtain ⟨htake, hdrop⟩ := ih fun c hc => hdigits c (List.mem_cons_of_mem _ hc)
      rw [List.cons_append, List.takeWhile_cons, List.dropWhile_cons, hd]
      exact ⟨congrArg (d :: ·) htake, hdrop⟩

theorem takeWhole?_decimal (n : Nat) (hrest : Ends rest) :
    takeWhole? (Text.decimal n ++ rest) = some (Text.decimal n, rest) := by
  have hdigits : ∀ c ∈ Text.decimal n, c.isDigit = true := fun c hc =>
    Text.isDigit_of_mem_decimal hc
  rcases Nat.eq_zero_or_pos n with rfl | hn
  · rfl
  · obtain ⟨c, ds, hcons⟩ := List.exists_cons_of_ne_nil (Text.decimal_ne_nil n)
    have hnonzero := Text.head_decimal_ne_zero hn hcons
    rw [hcons] at hdigits ⊢
    obtain ⟨htake, hdrop⟩ := span_digits (fun d hd => hdigits d (List.mem_cons_of_mem _ hd)) hrest
    rw [List.cons_append, takeWhole?, if_neg hnonzero, if_pos (hdigits c List.mem_cons_self),
      htake, hdrop]

theorem takePlaces_of_ends (hrest : Ends rest) : takePlaces rest = ([], rest) := by
  cases rest with
  | nil => rfl
  | cons c rest => exact if_neg fun h => (hrest c rfl).2.1 h.1

theorem takeExponent_of_ends (hrest : Ends rest) : takeExponent rest = (none, rest) := by
  cases rest with
  | nil => rfl
  | cons c rest =>
      obtain ⟨-, -, hlower, hupper⟩ := hrest c rfl
      exact if_neg fun h => h.elim hlower hupper

theorem takeNumber?_decimal (negative : Bool) {n : Nat}
    (hshort : (Text.decimal n).length ≤ Number.maxDigits) (hrest : Ends rest) :
    takeNumber? negative (Text.decimal n ++ rest) =
      some (.scalar (.int (if negative then -(n : Int) else n)), rest) := by
  unfold takeNumber?
  rw [takeWhole?_decimal n hrest]
  dsimp only [Option.bind_eq_bind, Option.bind_some]
  rw [takePlaces_of_ends hrest, takeExponent_of_ends hrest]
  dsimp only
  rw [if_pos ⟨rfl, rfl⟩, integerToken, if_neg (Nat.not_lt.mpr hshort), Text.decimalValue_decimal]
  rfl

theorem sign?_of_isDigit {c : CodePoint} (hc : c.isDigit = true) : sign? c = none := by
  unfold sign?
  rw [if_neg (CodePoint.ne_of_isDigit hc rfl), if_neg (CodePoint.ne_of_isDigit hc rfl),
    if_neg (CodePoint.ne_of_isDigit hc rfl), if_neg (CodePoint.ne_of_isDigit hc rfl),
    if_neg (CodePoint.ne_of_isDigit hc rfl), if_neg (CodePoint.ne_of_isDigit hc rfl)]

theorem isBlank_of_isDigit {c : CodePoint} (hc : c.isDigit = true) : isBlank c = false := by
  unfold CodePoint.isDigit CodePoint.within at hc
  unfold isBlank
  simp only [Bool.and_eq_true, decide_eq_true_eq] at hc
  simp only [Bool.or_eq_false_iff, beq_eq_false_iff_ne]
  omega

/-- No word begins with a digit. -/
theorem takeWord?_of_isDigit {c : CodePoint} (hc : c.isDigit = true) (t : Text) :
    takeWord? (c :: t) = none := by
  have hne : ∀ {x : Char}, x.isDigit = false → CodePoint.ofChar x ≠ c := fun hx =>
    (CodePoint.ne_of_isDigit hc hx).symm
  unfold takeWord? words
  simp (disch := decide) [Text.ofString, hne]

/-- The word with a sign does not go on with a digit. -/
theorem takeWord?_of_minus {c : CodePoint} (hc : c.isDigit = true) (t : Text) :
    takeWord? (CodePoint.ofChar '-' :: c :: t) = none := by
  have hne : ∀ {x : Char}, x.isDigit = false → CodePoint.ofChar x ≠ c := fun hx =>
    (CodePoint.ne_of_isDigit hc hx).symm
  have hminus : ∀ {x : Char}, x ≠ '-' → CodePoint.ofChar x ≠ CodePoint.ofChar '-' := by
    intro x hx h
    exact hx (Char.ext (UInt32.toNat_inj.mp (congrArg CodePoint.val h)))
  unfold takeWord? words
  simp (disch := decide) [Text.ofString, hne, hminus]

/-- A written whole number is one token if the text ends there. -/
theorem takeToken_integer {i : Int} (hshort : (Text.decimal i.natAbs).length ≤ Number.maxDigits) :
    ∃ c w, Text.integer i = c :: w ∧ isBlank c = false ∧
      ∀ rest, Ends rest → takeToken c (w ++ rest) = (.scalar (.int i), rest) := by
  obtain ⟨c, ds, hcons⟩ := List.exists_cons_of_ne_nil (Text.decimal_ne_nil i.natAbs)
  have hc : c.isDigit = true := Text.isDigit_of_mem_decimal (hcons ▸ List.mem_cons_self)
  rcases Int.lt_or_le i 0 with hi | hi
  · refine ⟨_, _, Text.integer_of_neg hi, rfl, fun rest hrest => ?_⟩
    have hnumber := takeNumber?_decimal true hshort hrest
    have hword := takeWord?_of_minus hc (ds ++ rest)
    rw [← List.cons_append, ← hcons] at hword
    have hsign : sign? (CodePoint.ofChar '-') = none := rfl
    have hvalue : -(i.natAbs : Int) = i := by omega
    unfold takeToken
    simp only [hsign, hword, if_true]
    rw [if_neg (by decide), hnumber, if_pos rfl, hvalue]
    rfl
  · refine ⟨c, ds, (Text.integer_of_nonneg hi).trans hcons, isBlank_of_isDigit hc,
      fun rest hrest => ?_⟩
    have hnumber := takeNumber?_decimal false hshort hrest
    rw [hcons, List.cons_append] at hnumber
    have hvalue : (i.natAbs : Int) = i := by omega
    unfold takeToken
    simp only [sign?_of_isDigit hc, takeWord?_of_isDigit hc]
    rw [if_neg (CodePoint.ne_of_isDigit hc rfl), if_neg (CodePoint.ne_of_isDigit hc rfl), hnumber,
      if_neg Bool.false_ne_true, hvalue]
    rfl

end Numbers

end Json

end ImageTrust
