/-
# JSON documents that were written

A document that the printer has written is read as that document, in every layout whose
separators are a comma and a colon with blanks (`read_toText`).  Not all documents come
back: one number may have too many digits, containers may be too deep, an object cannot have
two members of one name; and documents with fractional numbers are left out here (`Plain`).

The reader is a machine on tokens, so the proof says of each piece of text in which states the
machine is before and after it (`Leads`), and puts pieces together.  What stands behind a
piece matters for numbers only; the fuel of the tokens is never short, because every token
takes at least one code point.
-/
import ImageTrust.Json.Reader
import ImageTrust.Proofs.Action
import ImageTrust.Proofs.Encoding
import ImageTrust.Proofs.JsonTokens

namespace ImageTrust

namespace Json

/-! ## Documents that come back -/

/-- At most `n` containers deep, with whole numbers that are not too long, objects with distinct
names, and no fractional numbers. -/
inductive Plain : Nat → Json → Prop
  | null {n : Nat} : Plain n .null
  | bool {n : Nat} (b : Bool) : Plain n (.bool b)
  | int {n : Nat} {i : Int} (short : (Text.decimal i.natAbs).length ≤ Number.maxDigits) :
      Plain n (.int i)
  | text {n : Nat} (t : Text) : Plain n (.text t)
  | array {n : Nat} {items : List Json} (inner : ∀ v ∈ items, Plain n v) :
      Plain (n + 1) (.array items)
  | object {n : Nat} {members : List (Text × Json)} (distinct : (members.map Prod.fst).Nodup)
      (inner : ∀ e ∈ members, Plain n e.2) : Plain (n + 1) (.object members)

theorem Plain.object_one {n : Nat} {name : Text} {v : Json} (hv : Plain n v) :
    Plain (n + 1) (.object [(name, v)]) := by
  refine .object (show [name].Nodup by simp) fun e he => ?_
  rw [List.mem_singleton.mp he]
  exact hv

theorem Plain.object_two {n : Nat} {name other : Text} {v w : Json} (hne : name ≠ other)
    (hv : Plain n v) (hw : Plain n w) : Plain (n + 1) (.object [(name, v), (other, w)]) := by
  refine .object (show [name, other].Nodup by simpa using hne) fun e he => ?_
  rcases List.mem_cons.mp he with rfl | he
  · exact hv
  · rw [List.mem_singleton.mp he]
    exact hw

/-- The separators are a comma and a colon, each with blanks behind it. -/
structure Layout.Plain (l : Layout) : Prop where
  items : ∃ blanks, l.itemSeparator = CodePoint.ofChar ',' :: blanks ∧
    ∀ c ∈ blanks, isBlank c = true
  names : ∃ blanks, l.nameSeparator = CodePoint.ofChar ':' :: blanks ∧
    ∀ c ∈ blanks, isBlank c = true

theorem Layout.compact_plain : Layout.compact.Plain :=
  ⟨⟨[], rfl, by decide⟩, ⟨[], rfl, by decide⟩⟩

theorem Layout.spaced_plain : Layout.spaced.Plain :=
  ⟨⟨[CodePoint.ofChar ' '], rfl, by decide⟩, ⟨[CodePoint.ofChar ' '], rfl, by decide⟩⟩

theorem Layout.indented_plain : Layout.indented.Plain :=
  ⟨⟨[], rfl, by decide⟩, ⟨[CodePoint.ofChar ' '], rfl, by decide⟩⟩

theorem Layout.isBlank_of_mem_newline {l : Layout} {d : Nat} {c : CodePoint}
    (hc : c ∈ l.newline d) : isBlank c = true := by
  unfold newline at hc
  cases hl : l.indentation with
  | none =>
      rw [hl] at hc
      cases hc
  | some n =>
      rw [hl] at hc
      rcases List.mem_cons.mp hc with rfl | hc
      · rfl
      · rw [(List.mem_replicate.mp hc).2]
        rfl

/-! ## Texts without surrogates -/

theorem isSurrogate_of_isBlank {c : CodePoint} (hc : isBlank c = true) : c.isSurrogate = false := by
  unfold isBlank at hc
  unfold CodePoint.isSurrogate CodePoint.within
  simp only [Bool.or_eq_true, beq_iff_eq] at hc
  simp only [Bool.and_eq_false_iff, decide_eq_false_iff_not]
  omega

theorem isScalar_of_blanks {blanks : Text} (h : ∀ c ∈ blanks, isBlank c = true) :
    blanks.isScalar = true := by
  refine List.all_eq_true.mpr fun c hc => ?_
  rw [isSurrogate_of_isBlank (h c hc)]
  rfl

theorem isScalar_append (s t : Text) : Text.isScalar (s ++ t) = (s.isScalar && t.isScalar) :=
  List.all_append

theorem isScalar_cons (c : CodePoint) (t : Text) :
    Text.isScalar (c :: t) = (!c.isSurrogate && t.isScalar) := List.all_cons

theorem isScalar_integer (i : Int) : (Text.integer i).isScalar = true := by
  have hdecimal : ∀ n, (Text.decimal n).isScalar = true := by
    intro n
    refine List.all_eq_true.mpr fun c hc => ?_
    have hdigit := Text.isDigit_of_mem_decimal hc
    unfold CodePoint.isDigit CodePoint.within at hdigit
    unfold CodePoint.isSurrogate CodePoint.within
    simp only [Bool.and_eq_true, decide_eq_true_eq] at hdigit
    simp only [Bool.not_eq_true', Bool.and_eq_false_iff, decide_eq_false_iff_not]
    omega
  rcases Int.lt_or_le i 0 with hi | hi
  · rw [Text.integer_of_neg hi, isScalar_cons, hdecimal]
    rfl
  · rw [Text.integer_of_nonneg hi, hdecimal]

theorem isScalar_writeText {t : Text} (ht : t.isScalar = true) : (writeText t).isScalar = true := by
  have hcontrol : ∀ n (h : n < 0x20),
      (escaped ⟨n, Nat.lt_trans h (by decide)⟩).isScalar = true := by
    decide
  have hescaped : ∀ c : CodePoint, c.isSurrogate = false → (escaped c).isScalar = true := by
    intro c hc
    by_cases hlow : c.val < 0x20
    · exact hcontrol c.val hlow
    · unfold escaped
      repeat' split
      all_goals first | rfl | contradiction | simp [Text.isScalar, hc]
  have hinner : Text.isScalar (t.flatMap escaped) = true := by
    refine List.all_eq_true.mpr fun x hx => ?_
    obtain ⟨c, hc, hx⟩ := List.mem_flatMap.mp hx
    have hplain : c.isSurrogate = false := by simpa using List.all_eq_true.mp ht c hc
    exact List.all_eq_true.mp (hescaped c hplain) x hx
  unfold writeText
  rw [isScalar_append, isScalar_cons, hinner]
  rfl

/-- A surrogate stands in a written text as it is. -/
theorem escaped_of_isSurrogate {c : CodePoint} (hc : c.isSurrogate = true) : escaped c = [c] := by
  have hlarge : 0xD800 ≤ c.val := by
    unfold CodePoint.isSurrogate CodePoint.within at hc
    simp only [Bool.and_eq_true, decide_eq_true_eq] at hc
    exact hc.1
  have hne : ∀ x : Char, x.val.toNat < 0xD800 → c ≠ CodePoint.ofChar x := by
    rintro x hx rfl
    exact absurd hlarge (Nat.not_le.mpr hx)
  unfold escaped
  rw [if_neg (hne '"' (by decide)), if_neg (hne '\\' (by decide)), if_neg (hne '\x08' (by decide)),
    if_neg (hne '\x0c' (by decide)), if_neg (hne '\n' (by decide)), if_neg (hne '\r' (by decide)),
    if_neg (hne '\t' (by decide)), if_neg (by omega)]

theorem isScalar_of_writeText {t : Text} (h : (writeText t).isScalar = true) :
    t.isScalar = true := by
  refine List.all_eq_true.mpr fun c hc => ?_
  cases hsurrogate : c.isSurrogate with
  | false => rfl
  | true =>
      have hmem : c ∈ writeText t := by
        refine List.mem_append_left _ (List.mem_cons_of_mem _ (List.mem_flatMap.mpr ⟨c, hc, ?_⟩))
        rw [escaped_of_isSurrogate hsurrogate]
        exact List.mem_singleton_self c
      have hnone := List.all_eq_true.mp h c hmem
      rw [hsurrogate] at hnone
      cases hnone

theorem isScalar_of_sign? {c : CodePoint} {token : Token} (h : sign? c = some token) :
    token.isScalar = true := by
  unfold sign? at h
  repeat' split at h
  all_goals cases h <;> rfl

/-! ## Pieces of a document -/

/-- The text is of no importance. -/
def Anything (_ : Text) : Prop := True

/-- No lexeme holds a surrogate. -/
def AllScalar (ls : List Lexeme) : Prop := ∀ l ∈ ls, l.token.isScalar = true

theorem lexemes_nil (fuel : Nat) : lexemes fuel [] = [] := by cases fuel <;> rfl

/-- In front of any text that fits, this piece leads the machine from one state to another, by
tokens without surrogates if the piece has none. -/
def Leads (depth : Nat) (follow : Text → Prop) (s : State) (w : Text) (s' : State) : Prop :=
  ∀ rest, follow rest → ∀ fuel, (w ++ rest).length ≤ fuel → ∃ fuel', rest.length ≤ fuel' ∧
    s.run depth (lexemes fuel (w ++ rest)) = s'.run depth (lexemes fuel' rest) ∧
    (w.isScalar = true → AllScalar (lexemes fuel' rest) → AllScalar (lexemes fuel (w ++ rest)))

section Pieces

variable {depth : Nat} {follow follow' : Text → Prop} {s s' s'' : State} {w w' : Text}

theorem Leads.trans (h : Leads depth follow s w s') (h' : Leads depth follow' s' w' s'')
    (hfit : ∀ rest, follow' rest → follow (w' ++ rest)) : Leads depth follow' s (w ++ w') s'' := by
  intro rest hrest fuel hfuel
  rw [List.append_assoc] at hfuel ⊢
  obtain ⟨fuel₁, hfuel₁, hrun, hscalar⟩ := h (w' ++ rest) (hfit rest hrest) fuel hfuel
  obtain ⟨fuel₂, hfuel₂, hrun', hscalar'⟩ := h' rest hrest fuel₁ hfuel₁
  refine ⟨fuel₂, hfuel₂, hrun.trans hrun', fun hboth hrest => ?_⟩
  rw [isScalar_append, Bool.and_eq_true] at hboth
  exact hscalar hboth.1 (hscalar' hboth.2 hrest)

theorem Leads.weaken (h : Leads depth Anything s w s') : Leads depth follow s w s' :=
  fun rest _ => h rest trivial

/-- A piece that may stand in front of anything may stand in front of the next one. -/
theorem Leads.before (h : Leads depth Anything s w s') (h' : Leads depth follow s' w' s'') :
    Leads depth follow s (w ++ w') s'' := h.trans h' fun _ _ => trivial

/-- Blanks lead nowhere. -/
theorem Leads.blanks (hw : ∀ c ∈ w, isBlank c = true) : Leads depth Anything s w s := by
  intro rest _ fuel hfuel
  have hlexemes : lexemes fuel (w ++ rest) = lexemes fuel rest := by
    cases fuel with
    | zero => rfl
    | succ fuel =>
        have hdrop : (w ++ rest).dropWhile isBlank = rest.dropWhile isBlank :=
          List.dropWhile_append_of_pos hw
        unfold lexemes
        rw [hdrop]
  rw [hlexemes]
  refine ⟨fuel, ?_, rfl, fun _ hrest => hrest⟩
  rw [List.length_append] at hfuel
  omega

theorem Leads.newline (l : Layout) (d : Nat) : Leads depth Anything s (l.newline d) s :=
  .blanks fun _ hc => Layout.isBlank_of_mem_newline hc

/-- A token leads where the machine steps. -/
theorem Leads.token {c : CodePoint} {token : Token} (hblank : isBlank c = false)
    (htoken : ∀ rest, follow rest → takeToken c (w ++ rest) = (token, rest))
    (hscalar : Text.isScalar (c :: w) = true → token.isScalar = true)
    (hstep : ∀ here, s.step depth ⟨token, here⟩ = .ok s') : Leads depth follow s (c :: w) s' := by
  intro rest hrest fuel hfuel
  rw [List.cons_append, List.length_cons] at hfuel
  obtain ⟨fuel, rfl⟩ := Nat.exists_eq_add_one_of_ne_zero (Nat.ne_of_gt (Nat.zero_lt_of_lt hfuel))
  have hlexemes : lexemes (fuel + 1) (c :: (w ++ rest)) =
      ⟨token, c :: (w ++ rest)⟩ :: lexemes fuel rest := by
    rw [lexemes, List.dropWhile_cons_of_neg (by rw [hblank]; exact Bool.false_ne_true)]
    dsimp only
    rw [htoken rest hrest]
  rw [List.cons_append, hlexemes]
  refine ⟨fuel, ?_, ?_, fun hpiece hrest => List.forall_mem_cons.mpr ⟨hscalar hpiece, hrest⟩⟩
  · rw [List.length_append] at hfuel
    omega
  · rw [State.run, hstep]
    rfl

/-- A sign leads where the machine steps, whatever follows. -/
theorem Leads.sign {c : CodePoint} {token : Token} (hblank : isBlank c = false)
    (hsign : sign? c = some token) (hstep : ∀ here, s.step depth ⟨token, here⟩ = .ok s') :
    Leads depth Anything s [c] s' := by
  refine .token hblank (fun rest _ => ?_) (fun _ => isScalar_of_sign? hsign) hstep
  unfold takeToken
  rw [hsign]
  rfl

/-- A separator is a sign with blanks behind it. -/
theorem Leads.separator {c : CodePoint} {blanks : Text} {token : Token} (hblank : isBlank c = false)
    (hsign : sign? c = some token) (hstep : ∀ here, s.step depth ⟨token, here⟩ = .ok s')
    (hw : ∀ c ∈ blanks, isBlank c = true) : Leads depth Anything s (c :: blanks) s' :=
  (Leads.sign hblank hsign hstep).before (.blanks hw)

/-- Pieces of one kind, each of which adds an item to what is there. -/
theorem Leads.all {α : Type} {piece : α → Text} {reached : List α → State} {xs done : List α}
    (heach : ∀ x ∈ xs, ∀ done, Leads depth Ends (reached done) (piece x) (reached (x :: done)))
    (hends : ∀ x ∈ xs, ∀ rest, Ends (piece x ++ rest)) :
    Leads depth Ends (reached done) (xs.flatMap piece) (reached (xs.reverse ++ done)) := by
  induction xs generalizing done with
  | nil => exact (Leads.blanks (w := []) fun _ h => nomatch h).weaken
  | cons x xs ih =>
      -- Behind a piece stands the next one, or what stands behind them all.
      rw [List.flatMap_cons, List.reverse_cons, List.append_assoc, List.singleton_append]
      refine (heach x List.mem_cons_self done).trans
        (ih (fun y hy => heach y (List.mem_cons_of_mem _ hy))
          (fun y hy => hends y (List.mem_cons_of_mem _ hy))) ?_
      intro rest hrest
      cases xs with
      | nil => exact hrest
      | cons y xs =>
          rw [List.flatMap_cons, List.append_assoc]
          exact hends y (List.mem_cons_of_mem _ List.mem_cons_self) _

end Pieces

/-! ## Where numbers end -/

theorem ends_of_isBlank {c : CodePoint} (hc : isBlank c = true) (rest : Text) :
    Ends (c :: rest) := by
  have hne : ∀ {x : Char}, isBlank (CodePoint.ofChar x) = false → c ≠ CodePoint.ofChar x := by
    rintro x hx rfl
    rw [hx] at hc
    cases hc
  refine ends_cons ⟨?_, hne rfl, hne rfl, hne rfl⟩ rest
  unfold isBlank at hc
  unfold CodePoint.isDigit CodePoint.within
  simp only [Bool.or_eq_true, beq_iff_eq] at hc
  simp only [Bool.and_eq_false_iff, decide_eq_false_iff_not]
  omega

/-- A break and a sign end a number. -/
theorem ends_newline {l : Layout} {d : Nat} {c : CodePoint} {rest : Text} (hc : Ends (c :: rest)) :
    Ends (l.newline d ++ c :: rest) := by
  cases hl : l.newline d with
  | nil => exact hc
  | cons b bs =>
      have hb : isBlank b = true := Layout.isBlank_of_mem_newline (l := l) (d := d) (by simp [hl])
      exact ends_of_isBlank hb _

/-! ## Containers -/

theorem writeItems_eq_map (l : Layout) (d : Nat) (items : List Json) :
    writeItems l d items = items.map (write l d) := by
  induction items with
  | nil => rfl
  | cons v rest ih => exact congrArg (v.write l d :: ·) ih

/-- A member as it is written. -/
def writeMember (l : Layout) (d : Nat) (e : Text × Json) : Text :=
  writeText e.1 ++ l.nameSeparator ++ e.2.write l d

theorem writeMembers_eq_map (l : Layout) (d : Nat) (members : List (Text × Json)) :
    writeMembers l d members = members.map (writeMember l d) := by
  induction members with
  | nil => rfl
  | cons e rest ih => exact congrArg (writeMember l d e :: ·) ih

theorem joined_cons (separator x : Text) (xs : List Text) :
    Text.joined separator (x :: xs) = x ++ xs.flatMap fun y => separator ++ y := by
  induction xs generalizing x with
  | nil => simp [Text.joined, List.intercalate]
  | cons y xs ih =>
      have hstep : Text.joined separator (x :: y :: xs) =
          x ++ (separator ++ Text.joined separator (y :: xs)) := by
        simp [Text.joined, List.intercalate]
      rw [hstep, ih, List.flatMap_cons, List.append_assoc]

theorem bracketed_cons (l : Layout) (d : Nat) (opening closing : CodePoint) (x : Text)
    (xs : List Text) :
    bracketed l d opening closing (x :: xs) =
      [opening] ++ ((l.newline (d + 1) ++ x) ++
        ((xs.flatMap fun y => l.itemSeparator ++ (l.newline (d + 1) ++ y)) ++
          (l.newline d ++ [closing]))) := by
  unfold bracketed
  dsimp only
  rw [List.map_cons, joined_cons, List.flatMap_map]
  simp only [List.append_assoc, List.cons_append, List.nil_append]

section Containers

variable {depth d : Nat} {l : Layout} {s s₀ s' : State} {opening closing : CodePoint}

/-- A container that is not empty is read if its brackets are, its first item, and every other
item behind a separator. -/
theorem leads_bracketed {α : Type} {piece : α → Text} (reached : List α → State) {x : α}
    {xs : List α} (hl : l.Plain) (hopen : Leads depth Anything s [opening] s₀)
    (hfirst : Leads depth Ends s₀ (piece x) (reached [x]))
    (hnext : ∀ y ∈ xs, ∀ done,
      Leads depth Ends (reached done) (l.itemSeparator ++ (l.newline (d + 1) ++ piece y))
        (reached (y :: done)))
    (hclose : Leads depth Anything (reached (x :: xs).reverse) [closing] s')
    (hends : ∀ rest, Ends (closing :: rest)) :
    Leads depth Anything s (bracketed l d opening closing ((x :: xs).map piece)) s' := by
  obtain ⟨blanks, hcomma, -⟩ := hl.items
  have hseparated : ∀ y ∈ xs, ∀ rest,
      Ends (l.itemSeparator ++ (l.newline (d + 1) ++ piece y) ++ rest) := by
    intro y _ rest
    rw [hcomma]
    exact ends_cons (by decide) _
  have hitem : Leads depth Ends s₀ (l.newline (d + 1) ++ piece x) (reached [x]) :=
    (Leads.newline l (d + 1)).before hfirst
  have hmore : Leads depth Ends (reached [x])
      (xs.flatMap fun y => l.itemSeparator ++ (l.newline (d + 1) ++ piece y))
      (reached (xs.reverse ++ [x])) := .all hnext hseparated
  have hend : Leads depth Anything (reached (xs.reverse ++ [x])) (l.newline d ++ [closing]) s' := by
    rw [← List.reverse_cons]
    exact (Leads.newline l d).before hclose
  have hlast : ∀ rest, Ends (l.newline d ++ [closing] ++ rest) := by
    intro rest
    rw [List.append_assoc, List.singleton_append]
    exact ends_newline (hends rest)
  have hafter : ∀ rest,
      Ends ((xs.flatMap fun y => l.itemSeparator ++ (l.newline (d + 1) ++ piece y)) ++
        (l.newline d ++ [closing]) ++ rest) := by
    intro rest
    cases xs with
    | nil => exact hlast rest
    | cons y ys =>
        rw [List.flatMap_cons, List.append_assoc, List.append_assoc]
        exact hseparated y List.mem_cons_self _
  rw [List.map_cons, bracketed_cons, List.flatMap_map]
  refine hopen.before ?_
  exact hitem.trans (hmore.trans hend fun rest _ => hlast rest) fun rest _ => hafter rest

end Containers

/-! ## Values -/

/-- In this state a value begins inside these frames, unless an array ends. -/
def State.AwaitsValue (depth : Nat) (s : State) (outer : List Frame) : Prop :=
  ∀ lexeme : Lexeme, lexeme.token ≠ .closeArray → s.step depth lexeme = begin depth outer lexeme

/-- In this state a name begins after these members, unless an object ends. -/
def State.AwaitsName (depth : Nat) (s : State) (members : List (Text × Json))
    (outer : List Frame) : Prop :=
  ∀ lexeme : Lexeme, lexeme.token ≠ .closeObject →
    s.step depth lexeme = beginMember members outer lexeme

section Values

variable {depth : Nat} {outer : List Frame}

variable (depth outer) in
theorem awaitsValue_value : (State.value outer).AwaitsValue depth outer := fun _ _ => rfl

variable (depth outer) in
theorem awaitsValue_firstItem :
    (State.firstItem outer).AwaitsValue depth (.array [] :: outer) := by
  rintro ⟨token, here⟩ htoken
  cases token with
  | closeArray => exact absurd rfl htoken
  | _ => rfl

variable (depth outer) in
theorem awaitsName_nextName (members : List (Text × Json)) :
    (State.nextName members outer).AwaitsName depth members outer := fun _ _ => rfl

variable (depth outer) in
theorem awaitsName_firstName : (State.firstName outer).AwaitsName depth [] outer := by
  rintro ⟨token, here⟩ htoken
  cases token with
  | closeObject => exact absurd rfl htoken
  | _ => rfl

/-- Reading the value ends after it, in every layout and from every state that awaits a value,
if its containers do not go too deep. -/
def Reads (depth n : Nat) (v : Json) : Prop :=
  ∀ {l : Layout}, l.Plain → ∀ (d : Nat) {outer : List Frame} {s : State},
    s.AwaitsValue depth outer → outer.length + n ≤ depth →
      Leads depth Ends s (v.write l d) (.after v outer)

variable {n : Nat}

theorem leads_writeText {s s' : State} {t : Text}
    (hstep : ∀ here, s.step depth ⟨.text t, here⟩ = .ok s') :
    Leads depth Anything s (writeText t) s' := by
  refine .token (w := t.flatMap escaped ++ [CodePoint.ofChar '"']) rfl (fun rest _ => ?_)
    (show _ → Token.isScalar (.text t) = true from isScalar_of_writeText) hstep
  rw [List.append_assoc]
  exact takeToken_text t rest

/-- A member behind the place where its name is awaited. -/
theorem leads_writeMember {l : Layout} (hl : l.Plain) {d : Nat} {name : Text} {v : Json}
    (hv : Reads depth n v) {members : List (Text × Json)} {s : State}
    (hs : s.AwaitsName depth members outer) (hdeep : outer.length + 1 + n ≤ depth) :
    Leads depth Ends s (writeMember l d (name, v)) (.moreMembers ((name, v) :: members) outer) := by
  obtain ⟨blanks, hcolon, hblanks⟩ := hl.names
  have hname : Leads depth Anything s (writeText name) (.colon members name outer) :=
    leads_writeText fun here => hs ⟨.text name, here⟩ nofun
  have hbetween : Leads depth Anything (.colon members name outer) l.nameSeparator
      (.value (.object members name :: outer)) := by
    rw [hcolon]
    exact .separator rfl rfl (fun _ => rfl) hblanks
  have hvalue := hv hl d (awaitsValue_value depth (.object members name :: outer)) hdeep
  exact (hname.before hbetween).before hvalue

theorem reads_array {items : List Json} (hitems : ∀ v ∈ items, Reads depth n v) :
    Reads depth (n + 1) (.array items) := by
  intro l hl d outer s hs hdeep
  have hopen : Leads depth Anything s [CodePoint.ofChar '['] (.firstItem outer) := by
    refine .sign rfl rfl fun here => ?_
    rw [hs ⟨.openArray, here⟩ nofun]
    exact if_neg (by omega)
  rw [write, writeItems_eq_map]
  cases items with
  | nil =>
      have hclose : Leads depth Anything (.firstItem outer) [CodePoint.ofChar ']']
          (.after (.array []) outer) := .sign rfl rfl fun _ => rfl
      exact (hopen.before hclose).weaken
  | cons v vs =>
      have hdeep' : ∀ done, (Frame.array done :: outer).length + n ≤ depth := by
        intro done
        rw [List.length_cons]
        omega
      refine Leads.weaken
        (leads_bracketed (fun done => .moreItems done outer) hl hopen ?_ ?_ ?_ ?_)
      · exact hitems v List.mem_cons_self hl (d + 1) (awaitsValue_firstItem depth outer)
          (hdeep' [])
      · intro y hy done
        obtain ⟨blanks, hcomma, hblanks⟩ := hl.items
        have hbetween : Leads depth Anything (.moreItems done outer) l.itemSeparator
            (.value (.array done :: outer)) := by
          rw [hcomma]
          exact .separator rfl rfl (fun _ => rfl) hblanks
        have hvalue := hitems y (List.mem_cons_of_mem _ hy) hl (d + 1)
          (awaitsValue_value depth (.array done :: outer)) (hdeep' done)
        exact hbetween.before ((Leads.newline l (d + 1)).before hvalue)
      · refine .sign rfl rfl fun here => ?_
        show Except.ok (State.after (.array (v :: vs).reverse.reverse) outer) = _
        rw [List.reverse_reverse]
      · exact fun rest => ends_cons (by decide) rest

/-- Members with distinct names are collected as they are. -/
theorem insertMember_of_not_mem {α : Type} {name : Text} {members : List (Text × α)}
    (h : name ∉ members.map Prod.fst) (v : α) :
    insertMember name v members = members ++ [(name, v)] := by
  induction members with
  | nil => rfl
  | cons e rest ih =>
      obtain ⟨other, w⟩ := e
      rw [List.map_cons, List.mem_cons, not_or] at h
      rw [insertMember, if_neg (Ne.symm h.1), ih h.2]
      rfl

theorem collect_of_nodup {α : Type} {members : List (Text × α)}
    (h : (members.map Prod.fst).Nodup) : collect members = members := by
  have hgeneral : ∀ done : List (Text × α), ((done ++ members).map Prod.fst).Nodup →
      members.foldl (fun done e => insertMember e.1 e.2 done) done = done ++ members := by
    clear h
    induction members with
    | nil => exact fun done _ => (List.append_nil done).symm
    | cons e rest ih =>
        intro done hdone
        obtain ⟨name, v⟩ := e
        have hfresh : name ∉ done.map Prod.fst := by
          rw [List.map_append, List.map_cons, List.nodup_append] at hdone
          exact fun hmem => hdone.2.2 _ hmem _ List.mem_cons_self rfl
        have hrest : done ++ [(name, v)] ++ rest = done ++ (name, v) :: rest := by
          rw [List.append_assoc, List.singleton_append]
        rw [List.foldl_cons, insertMember_of_not_mem hfresh]
        rw [← hrest] at hdone ⊢
        exact ih (done ++ [(name, v)]) hdone
  exact hgeneral [] h

theorem reads_object {members : List (Text × Json)} (hdistinct : (members.map Prod.fst).Nodup)
    (hmembers : ∀ e ∈ members, Reads depth n e.2) : Reads depth (n + 1) (.object members) := by
  intro l hl d outer s hs hdeep
  have hopen : Leads depth Anything s [CodePoint.ofChar '{'] (.firstName outer) := by
    refine .sign rfl rfl fun here => ?_
    rw [hs ⟨.openObject, here⟩ nofun]
    exact if_neg (by omega)
  rw [write, writeMembers_eq_map]
  cases members with
  | nil =>
      have hclose : Leads depth Anything (.firstName outer) [CodePoint.ofChar '}']
          (.after (.object []) outer) := .sign rfl rfl fun _ => rfl
      exact (hopen.before hclose).weaken
  | cons e es =>
      refine Leads.weaken
        (leads_bracketed (fun done => .moreMembers done outer) hl hopen ?_ ?_ ?_ ?_)
      · exact leads_writeMember hl (hmembers e List.mem_cons_self)
          (awaitsName_firstName depth outer) (by omega)
      · intro e' he' done
        obtain ⟨blanks, hcomma, hblanks⟩ := hl.items
        have hbetween : Leads depth Anything (.moreMembers done outer) l.itemSeparator
            (.nextName done outer) := by
          rw [hcomma]
          exact .separator rfl rfl (fun _ => rfl) hblanks
        have hmember : Leads depth Ends (.nextName done outer) (writeMember l (d + 1) e')
            (.moreMembers (e' :: done) outer) :=
          leads_writeMember hl (hmembers e' (List.mem_cons_of_mem _ he'))
            (awaitsName_nextName depth outer done) (by omega)
        exact hbetween.before ((Leads.newline l (d + 1)).before hmember)
      · refine .sign rfl rfl fun here => ?_
        show Except.ok (State.after (.object (collect (e :: es).reverse.reverse)) outer) = _
        rw [List.reverse_reverse, collect_of_nodup hdistinct]
      · exact fun rest => ends_cons (by decide) rest

/-- Every plain document is read as it was written. -/
theorem Plain.reads {v : Json} (hv : Plain n v) : Reads depth n v := by
  induction hv with
  | null =>
      intro l _ d outer s hs _
      refine .token (w := Text.ofString "ull") rfl (fun rest _ => rfl) (fun _ => rfl) fun here => ?_
      exact hs ⟨.scalar .null, here⟩ nofun
  | bool b =>
      intro l _ d outer s hs _
      cases b with
      | true =>
          refine .token (w := Text.ofString "rue") rfl (fun rest _ => rfl) (fun _ => rfl)
            fun here => ?_
          exact hs ⟨.scalar (.bool true), here⟩ nofun
      | false =>
          refine .token (w := Text.ofString "alse") rfl (fun rest _ => rfl) (fun _ => rfl)
            fun here => ?_
          exact hs ⟨.scalar (.bool false), here⟩ nofun
  | @int _ i short =>
      intro l _ d outer s hs _
      obtain ⟨c, w, hwritten, hblank, htoken⟩ := takeToken_integer short
      rw [write, hwritten]
      exact .token hblank htoken (fun _ => rfl) fun here => hs ⟨.scalar (.int i), here⟩ nofun
  | text t =>
      intro l _ d outer s hs _
      exact (leads_writeText fun here => hs ⟨.text t, here⟩ nofun).weaken
  | array inner ih => exact reads_array ih
  | object distinct inner ih => exact reads_object distinct ih

/-- Reading undoes writing. -/
theorem read_toText {v : Json} (hv : Plain n v) {l : Layout} (hl : l.Plain) (hdeep : n ≤ depth) :
    read depth (v.toText l) = .ok v := by
  have hlead : Leads depth Ends (.value []) (v.write l 0) (.after v []) :=
    hv.reads hl 0 (awaitsValue_value depth []) (by simpa using hdeep)
  obtain ⟨fuel, -, hrun, -⟩ := hlead [] ends_nil (v.toText l).length (by simp [toText])
  rw [List.append_nil, lexemes_nil] at hrun
  unfold read tokens
  rw [show v.toText l = v.write l 0 from rfl] at hrun ⊢
  rw [hrun]
  rfl

end Values

/-! ## Documents without surrogates -/

theorem areScalar_eq_true_iff {items : List Json} :
    areScalar items = true ↔ ∀ v ∈ items, v.isScalar = true := by
  induction items with
  | nil => simp [areScalar]
  | cons v rest ih => simp [areScalar, ih]

theorem areScalarMembers_eq_true_iff {members : List (Text × Json)} :
    areScalarMembers members = true ↔
      ∀ e ∈ members, e.1.isScalar = true ∧ e.2.isScalar = true := by
  induction members with
  | nil => simp [areScalarMembers]
  | cons e rest ih => simp [areScalarMembers, ih]

section Scalars

variable {l : Layout} {d n : Nat}

theorem isScalar_newline : (l.newline d).isScalar = true :=
  isScalar_of_blanks fun _ hc => Layout.isBlank_of_mem_newline hc

/-- What stands in a container as it is written. -/
theorem mem_bracketed {opening closing c : CodePoint} {items : List Text}
    (hc : c ∈ bracketed l d opening closing items) :
    c = opening ∨ c = closing ∨ c ∈ l.itemSeparator ∨ (∃ d, c ∈ l.newline d) ∨
      ∃ x ∈ items, c ∈ x := by
  cases items with
  | nil =>
      rcases List.mem_cons.mp hc with rfl | hc
      · exact .inl rfl
      · exact .inr (.inl (List.mem_singleton.mp hc))
  | cons x xs =>
      rw [bracketed_cons] at hc
      simp only [List.mem_append, List.mem_singleton, List.mem_flatMap] at hc
      rcases hc with hc | (hc | hc) | ⟨y, hy, hc | hc | hc⟩ | hc | hc
      · exact .inl hc
      · exact .inr (.inr (.inr (.inl ⟨_, hc⟩)))
      · exact .inr (.inr (.inr (.inr ⟨x, List.mem_cons_self, hc⟩)))
      · exact .inr (.inr (.inl hc))
      · exact .inr (.inr (.inr (.inl ⟨_, hc⟩)))
      · exact .inr (.inr (.inr (.inr ⟨y, List.mem_cons_of_mem _ hy, hc⟩)))
      · exact .inr (.inr (.inr (.inl ⟨_, hc⟩)))
      · exact .inr (.inl hc)

theorem isScalar_bracketed (hl : l.Plain) {opening closing : CodePoint} {items : List Text}
    (hopening : opening.isSurrogate = false) (hclosing : closing.isSurrogate = false)
    (hitems : ∀ x ∈ items, x.isScalar = true) :
    (bracketed l d opening closing items).isScalar = true := by
  obtain ⟨blanks, hcomma, hblanks⟩ := hl.items
  have hseparator : l.itemSeparator.isScalar = true := by
    rw [hcomma, isScalar_cons, isScalar_of_blanks hblanks]
    rfl
  refine List.all_eq_true.mpr fun c hc => ?_
  rcases mem_bracketed hc with rfl | rfl | hc | ⟨d, hc⟩ | ⟨x, hx, hc⟩
  · rw [hopening]
    rfl
  · rw [hclosing]
    rfl
  · exact List.all_eq_true.mp hseparator c hc
  · exact List.all_eq_true.mp isScalar_newline c hc
  · exact List.all_eq_true.mp (hitems x hx) c hc

/-- A document without surrogates is written without surrogates. -/
theorem Plain.isScalar_write {v : Json} (hv : Plain n v) (hl : l.Plain)
    (hs : v.isScalar = true) : (v.write l d).isScalar = true := by
  induction hv generalizing d with
  | null => rfl
  | bool b => cases b <;> rfl
  | int short => exact isScalar_integer _
  | text t => exact isScalar_writeText hs
  | @array _ items inner ih =>
      have hall := areScalar_eq_true_iff.mp hs
      rw [write, writeItems_eq_map]
      refine isScalar_bracketed hl rfl rfl fun x hx => ?_
      obtain ⟨v, hv, rfl⟩ := List.mem_map.mp hx
      exact ih v hv (hall v hv)
  | @object _ members distinct inner ih =>
      obtain ⟨blanks, hcolon, hblanks⟩ := hl.names
      have hall := areScalarMembers_eq_true_iff.mp hs
      rw [write, writeMembers_eq_map]
      refine isScalar_bracketed hl rfl rfl fun x hx => ?_
      obtain ⟨e, he, rfl⟩ := List.mem_map.mp hx
      obtain ⟨hname, hvalue⟩ := hall e he
      unfold writeMember
      rw [isScalar_append, isScalar_append, isScalar_writeText hname, ih e he hvalue, hcolon,
        isScalar_cons, isScalar_of_blanks hblanks]
      rfl

/-- A document without surrogates is written in tokens without surrogates. -/
theorem Plain.allScalar_tokens {v : Json} (hv : Plain n v) (hl : l.Plain)
    (hs : v.isScalar = true) : AllScalar (tokens (v.toText l)) := by
  have hlead : Leads n Ends (.value []) (v.write l 0) (.after v []) :=
    hv.reads hl 0 (awaitsValue_value n []) (by simp)
  obtain ⟨fuel, -, -, hscalar⟩ := hlead [] ends_nil (v.toText l).length (by simp [toText])
  rw [List.append_nil, lexemes_nil] at hscalar
  exact hscalar (hv.isScalar_write hl hs) fun l hl => absurd hl List.not_mem_nil

/-- A document without surrogates is read by the strict reader as it was written. -/
theorem Plain.ofStrictBytes?_toText {v : Json} (hv : Plain n v) (hl : l.Plain)
    (hdeep : n ≤ maxStrictDepth) (hs : v.isScalar = true) :
    ofStrictBytes? (v.toText l).utf8Bytes = some v := by
  have htext : (v.toText l).isScalar = true := hv.isScalar_write hl hs
  have hall : ((tokens (v.toText l)).all fun l => l.token.isScalar) = true :=
    List.all_eq_true.mpr (hv.allScalar_tokens hl hs)
  unfold ofStrictBytes?
  rw [Text.ofUtf8?_utf8Bytes_strict htext]
  dsimp only [Option.bind_eq_bind, Option.bind_some]
  rw [if_pos hall, read_toText hv hl hdeep]
  rfl

end Scalars

/-! ## Documents on lines -/

/-- The code point is a line feed or none of the control characters. -/
def OnLine (c : CodePoint) : Prop := c = CodePoint.ofChar '\n' ∨ 0x20 ≤ c.val

/-- Of what is not a control character only a quote and a backslash are escaped. -/
theorem escaped_visible {c : CodePoint} (hc : ¬ c.val < 0x20) :
    escaped c = [c] ∨ escaped c = Text.ofString "\\\"" ∨ escaped c = Text.ofString "\\\\" := by
  have hne : ∀ x : Char, x.val.toNat < 0x20 → c ≠ CodePoint.ofChar x := by
    rintro x hx rfl
    exact hc hx
  unfold escaped
  rw [if_neg (hne '\x08' (by decide)), if_neg (hne '\x0c' (by decide)),
    if_neg (hne '\n' (by decide)), if_neg (hne '\r' (by decide)), if_neg (hne '\t' (by decide)),
    if_neg hc]
  by_cases hquote : c = CodePoint.ofChar '"'
  · exact .inr (.inl (if_pos hquote))
  rw [if_neg hquote]
  by_cases hbackslash : c = CodePoint.ofChar '\\'
  · exact .inr (.inr (if_pos hbackslash))
  · exact .inl (if_neg hbackslash)

theorem visible_of_mem_escaped {c x : CodePoint} (hx : x ∈ escaped c) : 0x20 ≤ x.val := by
  have hcontrol : ∀ n (h : n < 0x20),
      ∀ x ∈ escaped ⟨n, Nat.lt_trans h (by decide)⟩, 0x20 ≤ x.val := by
    decide
  by_cases hc : c.val < 0x20
  · exact hcontrol c.val hc x hx
  · rcases escaped_visible hc with h | h | h
    · rw [h] at hx
      rw [List.mem_singleton.mp hx]
      exact Nat.not_lt.mp hc
    · rw [h] at hx
      revert x
      decide
    · rw [h] at hx
      revert x
      decide

theorem visible_of_mem_writeText {t : Text} {c : CodePoint} (hc : c ∈ writeText t) :
    0x20 ≤ c.val := by
  rcases List.mem_append.mp hc with hc | hc
  · rcases List.mem_cons.mp hc with rfl | hc
    · decide
    · obtain ⟨x, -, hx⟩ := List.mem_flatMap.mp hc
      exact visible_of_mem_escaped hx
  · rw [List.mem_singleton.mp hc]
    decide

theorem visible_of_mem_integer {i : Int} {c : CodePoint} (hc : c ∈ Text.integer i) :
    0x20 ≤ c.val := by
  have hdigit : ∀ {n}, c ∈ Text.decimal n → 0x20 ≤ c.val := by
    intro n hmem
    have hd := Text.isDigit_of_mem_decimal hmem
    unfold CodePoint.isDigit CodePoint.within at hd
    simp only [Bool.and_eq_true, decide_eq_true_eq] at hd
    omega
  rcases Int.lt_or_le i 0 with hi | hi
  · rw [Text.integer_of_neg hi] at hc
    rcases List.mem_cons.mp hc with rfl | hc
    · decide
    · exact hdigit hc
  · rw [Text.integer_of_nonneg hi] at hc
    exact hdigit hc

/-- A document on indented lines has no control characters but the breaks between its lines. -/
theorem Plain.onLine_write {n d : Nat} {v : Json} (hv : Plain n v) {c : CodePoint}
    (hc : c ∈ v.write Layout.indented d) : OnLine c := by
  have hcontainer : ∀ {d : Nat} {opening closing : CodePoint} {items : List Text},
      0x20 ≤ opening.val → 0x20 ≤ closing.val → (∀ x ∈ items, ∀ c ∈ x, OnLine c) →
      ∀ c ∈ bracketed Layout.indented d opening closing items, OnLine c := by
    intro d opening closing items hopening hclosing hitems c hc
    rcases mem_bracketed hc with rfl | rfl | hc | ⟨d, hc⟩ | ⟨x, hx, hc⟩
    · exact .inr hopening
    · exact .inr hclosing
    · rw [List.mem_singleton.mp hc]
      exact .inr (by decide)
    · rcases List.mem_cons.mp hc with rfl | hc
      · exact .inl rfl
      · rw [(List.mem_replicate.mp hc).2]
        exact .inr (by decide)
    · exact hitems x hx c hc
  induction hv generalizing d c with
  | null =>
      have hword : ∀ c ∈ Text.ofString "null", 0x20 ≤ c.val := by decide
      exact .inr (hword c hc)
  | bool b =>
      have hwords : ∀ w ∈ [Text.ofString "true", Text.ofString "false"], ∀ c ∈ w, 0x20 ≤ c.val := by
        decide
      cases b with
      | true => exact .inr (hwords _ List.mem_cons_self c hc)
      | false => exact .inr (hwords _ (List.mem_cons_of_mem _ List.mem_cons_self) c hc)
  | int short => exact .inr (visible_of_mem_integer hc)
  | text t => exact .inr (visible_of_mem_writeText hc)
  | @array _ items inner ih =>
      rw [write, writeItems_eq_map] at hc
      refine hcontainer (by decide) (by decide) (fun x hx c hc => ?_) c hc
      obtain ⟨v, hv, rfl⟩ := List.mem_map.mp hx
      exact ih v hv hc
  | @object _ members distinct inner ih =>
      rw [write, writeMembers_eq_map] at hc
      refine hcontainer (by decide) (by decide) (fun x hx c hc => ?_) c hc
      obtain ⟨e, he, rfl⟩ := List.mem_map.mp hx
      unfold writeMember at hc
      rw [List.mem_append, List.mem_append] at hc
      rcases hc with (hc | hc) | hc
      · exact .inr (visible_of_mem_writeText hc)
      · rcases List.mem_cons.mp hc with rfl | hc
        · exact .inr (by decide)
        · rw [List.mem_singleton.mp hc]
          exact .inr (by decide)
      · exact ih e he hc

end Json

end ImageTrust
