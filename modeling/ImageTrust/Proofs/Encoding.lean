/-
# Encoding — texts as bytes, bytes as digits, and back

Two codes lie between claims and what is stored: UTF-8 makes bytes of a text, base64 makes a
text of bytes.  Reading undoes writing in both, whatever the text and whatever the bytes; of a
text that is to be read strictly no code point may be a surrogate.
-/
import ImageTrust.Base64
import ImageTrust.Text.Utf8

namespace ImageTrust

/-! ## UTF-8 -/

namespace CodePoint

/-- The code point may stand in a text that is read so: any, or any but a surrogate. -/
def Passes (lone : Bool) (c : CodePoint) : Prop := (lone || !c.isSurrogate) = true

theorem toNat_byte {n : Nat} (hn : n < 0x100) : (byte n).toNat = n :=
  UInt8.toNat_ofNat_of_lt' hn

theorem ofNat?_val (c : CodePoint) : ofNat? c.val = some c := dif_pos c.lt

theorem decoded_val {lone : Bool} {least n : Nat} {c : CodePoint} (hc : c.Passes lone)
    (hn : n = c.val) (hleast : least ≤ n) : decoded? lone least n = some c := by
  subst hn
  unfold decoded?
  rw [ofNat?_val]
  refine Option.filter_some_pos ?_
  rw [decide_eq_true hleast, Bool.true_and]
  exact hc

end CodePoint

namespace Text

theorem between_eq_true {low n high : Nat} (hlow : low ≤ n) (hhigh : n < high) :
    (decide (low ≤ n) && decide (n < high)) = true := by
  rw [decide_eq_true hlow, decide_eq_true hhigh]
  rfl

theorem between_eq_false {low n high : Nat} (hhigh : high ≤ n) :
    (decide (low ≤ n) && decide (n < high)) = false := by
  rw [decide_eq_false (Nat.not_lt.mpr hhigh), Bool.and_false]

/-- A continuation adds the six bits it was made of. -/
theorem continuation_byte {n : Nat} (hn : n < 0x40) :
    isContinuation (CodePoint.byte (0x80 + n)) = true ∧
      tailBits (CodePoint.byte (0x80 + n)) = n := by
  have hbyte : (CodePoint.byte (0x80 + n)).toNat = 0x80 + n := CodePoint.toNat_byte (by omega)
  unfold isContinuation tailBits
  rw [hbyte]
  exact ⟨between_eq_true (by omega) (by omega), by omega⟩

section Reading

variable {lone : Bool} {c : CodePoint} {rest : Bytes}

/-! One lemma for each number of bytes. -/

theorem ofUtf8?_one (hc : c.Passes lone) (h : c.val < 0x80) :
    ofUtf8? lone (CodePoint.byte c.val :: rest) = (ofUtf8? lone rest).map (c :: ·) := by
  have hfirst : (CodePoint.byte c.val).toNat = c.val := CodePoint.toNat_byte (by omega)
  rw [ofUtf8?.eq_def]
  simp only [hfirst]
  rw [if_pos h, CodePoint.decoded_val hc rfl (Nat.zero_le _)]
  cases ofUtf8? lone rest <;> rfl

theorem ofUtf8?_two (hc : c.Passes lone) (hlow : 0x80 ≤ c.val) (h : c.val < 0x800) :
    ofUtf8? lone (CodePoint.byte (0xC0 + c.val / 0x40) ::
        CodePoint.byte (0x80 + c.val % 0x40) :: rest) =
      (ofUtf8? lone rest).map (c :: ·) := by
  have hfirst : (CodePoint.byte (0xC0 + c.val / 0x40)).toNat = 0xC0 + c.val / 0x40 :=
    CodePoint.toNat_byte (by omega)
  obtain ⟨hcont, hbits⟩ := continuation_byte (n := c.val % 0x40) (by omega)
  have hlead : (0xC0 ≤ 0xC0 + c.val / 0x40 && 0xC0 + c.val / 0x40 < 0xE0) = true :=
    between_eq_true (by omega) (by omega)
  rw [ofUtf8?.eq_def]
  simp only [hfirst]
  rw [if_neg (by omega)]
  simp only [hcont, Bool.not_true, Bool.false_eq_true, if_false, hlead, if_true, hbits]
  rw [CodePoint.decoded_val hc (by omega) (by omega)]
  cases ofUtf8? lone rest <;> rfl

theorem ofUtf8?_three (hc : c.Passes lone) (hlow : 0x800 ≤ c.val) (h : c.val < 0x10000) :
    ofUtf8? lone (CodePoint.byte (0xE0 + c.val / 0x1000) ::
        CodePoint.byte (0x80 + c.val / 0x40 % 0x40) ::
        CodePoint.byte (0x80 + c.val % 0x40) :: rest) =
      (ofUtf8? lone rest).map (c :: ·) := by
  have hfirst : (CodePoint.byte (0xE0 + c.val / 0x1000)).toNat = 0xE0 + c.val / 0x1000 :=
    CodePoint.toNat_byte (by omega)
  obtain ⟨hcont₁, hbits₁⟩ := continuation_byte (n := c.val / 0x40 % 0x40) (by omega)
  obtain ⟨hcont₂, hbits₂⟩ := continuation_byte (n := c.val % 0x40) (by omega)
  have hshort : (0xC0 ≤ 0xE0 + c.val / 0x1000 && 0xE0 + c.val / 0x1000 < 0xE0) = false :=
    between_eq_false (by omega)
  have hlead : (0xE0 ≤ 0xE0 + c.val / 0x1000 && 0xE0 + c.val / 0x1000 < 0xF0) = true :=
    between_eq_true (by omega) (by omega)
  rw [ofUtf8?.eq_def]
  simp only [hfirst]
  rw [if_neg (by omega)]
  simp only [hcont₁, hcont₂, Bool.not_true, Bool.false_eq_true, if_false, hshort, hlead, if_true,
    hbits₁, hbits₂]
  rw [CodePoint.decoded_val hc (by omega) (by omega)]
  cases ofUtf8? lone rest <;> rfl

theorem ofUtf8?_four (hc : c.Passes lone) (hlow : 0x10000 ≤ c.val) :
    ofUtf8? lone (CodePoint.byte (0xF0 + c.val / 0x40000) ::
        CodePoint.byte (0x80 + c.val / 0x1000 % 0x40) ::
        CodePoint.byte (0x80 + c.val / 0x40 % 0x40) ::
        CodePoint.byte (0x80 + c.val % 0x40) :: rest) =
      (ofUtf8? lone rest).map (c :: ·) := by
  have hlt := c.lt
  have hfirst : (CodePoint.byte (0xF0 + c.val / 0x40000)).toNat = 0xF0 + c.val / 0x40000 :=
    CodePoint.toNat_byte (by omega)
  obtain ⟨hcont₁, hbits₁⟩ := continuation_byte (n := c.val / 0x1000 % 0x40) (by omega)
  obtain ⟨hcont₂, hbits₂⟩ := continuation_byte (n := c.val / 0x40 % 0x40) (by omega)
  obtain ⟨hcont₃, hbits₃⟩ := continuation_byte (n := c.val % 0x40) (by omega)
  have hshort : (0xC0 ≤ 0xF0 + c.val / 0x40000 && 0xF0 + c.val / 0x40000 < 0xE0) = false :=
    between_eq_false (by omega)
  have hmiddle : (0xE0 ≤ 0xF0 + c.val / 0x40000 && 0xF0 + c.val / 0x40000 < 0xF0) = false :=
    between_eq_false (by omega)
  have hlead : (0xF0 ≤ 0xF0 + c.val / 0x40000 && 0xF0 + c.val / 0x40000 < 0xF8) = true :=
    between_eq_true (by omega) (by omega)
  rw [ofUtf8?.eq_def]
  simp only [hfirst]
  rw [if_neg (by omega)]
  simp only [hcont₁, hcont₂, hcont₃, Bool.not_true, Bool.false_eq_true, if_false, hshort, hmiddle,
    Bool.true_and, hlead, if_true, hbits₁, hbits₂, hbits₃]
  rw [CodePoint.decoded_val hc (by omega) (by omega)]
  cases ofUtf8? lone rest <;> rfl

theorem ofUtf8?_append (hc : c.Passes lone) :
    ofUtf8? lone (c.utf8 ++ rest) = (ofUtf8? lone rest).map (c :: ·) := by
  unfold CodePoint.utf8
  split
  · exact ofUtf8?_one hc ‹_›
  · split
    · exact ofUtf8?_two hc (by omega) ‹_›
    · split
      · exact ofUtf8?_three hc (by omega) ‹_›
      · exact ofUtf8?_four hc (by omega)

theorem ofUtf8?_utf8Bytes {t : Text} (ht : ∀ c ∈ t, c.Passes lone) :
    ofUtf8? lone t.utf8Bytes = some t := by
  induction t with
  | nil => rfl
  | cons c t ih =>
      have hrest := ih fun d hd => ht d (List.mem_cons_of_mem _ hd)
      show ofUtf8? lone (c.utf8 ++ utf8Bytes t) = some (c :: t)
      rw [ofUtf8?_append (ht c List.mem_cons_self), hrest]
      rfl

end Reading

/-- Lone surrogates pass if they are let through. -/
theorem ofUtf8?_utf8Bytes_lone (t : Text) : ofUtf8? true t.utf8Bytes = some t :=
  ofUtf8?_utf8Bytes fun _ _ => rfl

theorem ofUtf8?_utf8Bytes_strict {t : Text} (ht : t.isScalar = true) :
    ofUtf8? false t.utf8Bytes = some t :=
  ofUtf8?_utf8Bytes fun c hc => List.all_eq_true.mp ht c hc

end Text

/-! ## Base64 -/

namespace Base64

/-- A digit is read as its value, is no padding, and is ASCII. -/
theorem digit_spec :
    ∀ n < 64, value? (digit n) = some n ∧ digit n ≠ pad ∧ (digit n).val < 0x80 := by
  decide

/-- One more digit of a group that it does not fill. -/
theorem decodeFrom_digit {group : List Nat} {pads n : Nat} {rest : Text} (hn : n < 64)
    (hgroup : group.length ≠ 3) :
    decodeFrom ⟨group, pads, false⟩ (digit n :: rest) =
      decodeFrom ⟨group ++ [n], 0, false⟩ rest := by
  obtain ⟨hvalue, hpad, -⟩ := digit_spec n hn
  rw [decodeFrom, if_neg hpad, hvalue]
  dsimp only
  rw [if_neg Bool.false_ne_true, if_neg hgroup]

/-- A whole group. -/
theorem decodeFrom_group {i j k l : Nat} {rest : Text} (hi : i < 64) (hj : j < 64) (hk : k < 64)
    (hl : l < 64) :
    decodeFrom ⟨[], 0, false⟩ (digit i :: digit j :: digit k :: digit l :: rest) =
      (decodeFrom ⟨[], 0, false⟩ rest).map (partialBytes [i, j, k, l] ++ ·) := by
  obtain ⟨hvalue, hpad, -⟩ := digit_spec l hl
  rw [decodeFrom_digit hi (by simp), decodeFrom_digit hj (by simp),
    decodeFrom_digit hk (by simp), decodeFrom, if_neg hpad, hvalue]
  rfl

theorem decodeFrom_encode (bytes : Bytes) :
    decodeFrom ⟨[], 0, false⟩ (encode bytes) = some bytes := by
  -- The groups of three bytes are those of `encode`; what is left of the last one is padded.
  induction bytes using encode.induct with
  | case1 => rfl
  | case2 a =>
      have ha := a.toNat_lt
      unfold encode
      rw [decodeFrom_digit (by omega) (by simp), decodeFrom_digit (by omega) (by simp)]
      have hfirst : UInt8.ofNat (a.toNat / 4 * 4 + a.toNat % 4 * 16 / 16) = a := by
        rw [Nat.mul_div_cancel _ (by decide), Nat.div_add_mod' a.toNat 4]
        exact UInt8.ofNat_toNat
      exact congrArg (fun x => some [x]) hfirst
  | case3 a b =>
      have ha := a.toNat_lt
      have hb := b.toNat_lt
      unfold encode
      rw [decodeFrom_digit (by omega) (by simp), decodeFrom_digit (by omega) (by simp),
        decodeFrom_digit (by omega) (by simp)]
      have hfirst : a.toNat / 4 * 4 + (a.toNat % 4 * 16 + b.toNat / 16) / 16 = a.toNat := by omega
      have hsecond : (a.toNat % 4 * 16 + b.toNat / 16) % 16 * 16 + b.toNat % 16 * 4 / 4 =
          b.toNat := by
        omega
      show some (partialBytes [_, _, _]) = some [a, b]
      simp only [partialBytes, hfirst, hsecond, UInt8.ofNat_toNat]
  | case4 a b c rest ih =>
      have ha := a.toNat_lt
      have hb := b.toNat_lt
      have hc := c.toNat_lt
      unfold encode
      rw [decodeFrom_group (by omega) (by omega) (by omega) (by omega), ih]
      have hfirst : a.toNat / 4 * 4 + (a.toNat % 4 * 16 + b.toNat / 16) / 16 = a.toNat := by omega
      have hsecond : (a.toNat % 4 * 16 + b.toNat / 16) % 16 * 16 +
          (b.toNat % 16 * 4 + c.toNat / 64) / 4 = b.toNat := by
        omega
      have hthird : (b.toNat % 16 * 4 + c.toNat / 64) % 4 * 64 + c.toNat % 64 = c.toNat := by omega
      simp only [partialBytes, hfirst, hsecond, hthird, UInt8.ofNat_toNat]
      rfl

theorem val_lt_of_mem_encode {bytes : Bytes} {c : CodePoint} (hc : c ∈ encode bytes) :
    c.val < 0x80 := by
  have hpad : pad.val < 0x80 := by decide
  induction bytes using encode.induct with
  | case1 => cases hc
  | case2 a =>
      have ha := a.toNat_lt
      unfold encode at hc
      simp only [List.mem_cons, List.not_mem_nil, or_false] at hc
      rcases hc with rfl | rfl | rfl | rfl
      · exact (digit_spec _ (by omega)).2.2
      · exact (digit_spec _ (by omega)).2.2
      · exact hpad
      · exact hpad
  | case3 a b =>
      have ha := a.toNat_lt
      have hb := b.toNat_lt
      unfold encode at hc
      simp only [List.mem_cons, List.not_mem_nil, or_false] at hc
      rcases hc with rfl | rfl | rfl | rfl
      · exact (digit_spec _ (by omega)).2.2
      · exact (digit_spec _ (by omega)).2.2
      · exact (digit_spec _ (by omega)).2.2
      · exact hpad
  | case4 a b c' rest ih =>
      have ha := a.toNat_lt
      have hb := b.toNat_lt
      have hc' := c'.toNat_lt
      unfold encode at hc
      simp only [List.mem_cons] at hc
      rcases hc with rfl | rfl | rfl | rfl | hc
      · exact (digit_spec _ (by omega)).2.2
      · exact (digit_spec _ (by omega)).2.2
      · exact (digit_spec _ (by omega)).2.2
      · exact (digit_spec _ (by omega)).2.2
      · exact ih hc

theorem head?_encode_ne_pad (bytes : Bytes) : (encode bytes).head? ≠ some pad := by
  have hdigit : ∀ a : UInt8, digit (a.toNat / 4) ≠ pad := fun a =>
    (digit_spec _ (by have := a.toNat_lt; omega)).2.1
  match bytes with
  | [] => exact nofun
  | [a] => exact fun h => hdigit a (Option.some.inj h)
  | [a, _] => exact fun h => hdigit a (Option.some.inj h)
  | a :: _ :: _ :: _ => exact fun h => hdigit a (Option.some.inj h)

/-- Every byte sequence is read back, at every length. -/
theorem decode?_encode (bytes : Bytes) : decode? (encode bytes) = some bytes := by
  unfold decode?
  rw [if_neg (head?_encode_ne_pad bytes)]
  exact decodeFrom_encode bytes

end Base64

end ImageTrust
