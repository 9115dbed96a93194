/-
# Limits — documents that a reader gives up on

A reader of JSON says of a text which document it writes, or what is wrong with it and where.
Two limits end the reading in other ways: only so many containers may be open at once, and an
integer may have only so many digits.  Both are about the text alone.  Every open container
was opened by a sign of its own (`read_tooDeep`), and the digits of an integer stand in the
text one after the other (`read_longInteger`), so that what is wrong with a text within the limits
is wrong at some place (`syntaxError_of_read`).

Neither limit is out of reach: `read_openings` is about texts that open containers and do
nothing else before the limit, and `read_decimal` about texts that are an integer.
-/
import ImageTrust.Json.Reader
import ImageTrust.Proofs.Action
import ImageTrust.Proofs.JsonTokens

namespace ImageTrust

namespace Json

/-! ## What a token leaves of the text

Whatever is cut off the front of a text, what follows is an end of that text. -/

section Rests

variable {t rest start : Text}

theorem takeNumbered?_suffix {c : CodePoint} (h : takeNumbered? t = some (c, rest)) :
    rest <:+ t := by
  unfold takeNumbered? at h
  split at h
  · rename_i a b d e f more
    split at h
    · cases h
    · have halone : ∀ {high : Nat},
          ((CodePoint.ofNat? high).map fun c => (c, f :: more)) = some (c, rest) →
            rest <:+ a :: b :: d :: e :: f :: more := by
        intro high halone
        obtain ⟨x, -, hx⟩ := Option.map_eq_some_iff.mp halone
        cases hx
        exact ⟨[a, b, d, e], rfl⟩
      dsimp only at h
      split at h
      · rename_i s u a' b' d' e' f' more' hmore
        split at h
        · split at h
          · exact halone h
          · split at h
            · cases h
              rw [hmore]
              exact ⟨[a, b, d, e, s, u, a', b', d', e'], rfl⟩
            · exact halone h
        · exact halone h
      · exact halone h
  · cases h

theorem takeText_suffix {fuel : Nat} {s : Text} (h : takeText start fuel t = .ok (s, rest)) :
    rest <:+ t := by
  induction fuel generalizing s t with
  | zero => cases h
  | succ fuel ih =>
      -- Behind one code point, or one escape, the text is read on in the same way.
      have hmore : ∀ {c : CodePoint} {t' : Text}, t' <:+ t →
          (takeText start fuel t').map (fun found => (c :: found.1, found.2)) = .ok (s, rest) →
            rest <:+ t := by
        intro c t' ht' hmap
        obtain ⟨⟨s', r⟩, hread, hpair⟩ := Result.map_eq_ok_iff.mp hmap
        cases hpair
        exact (ih hread).trans ht'
      cases t with
      | nil => cases h
      | cons c t =>
          rw [takeText.eq_def] at h
          dsimp only at h
          split at h
          · cases h
            exact List.suffix_cons _ _
          · split at h
            · cases t with
              | nil => cases h
              | cons e t =>
                  dsimp only at h
                  split at h
                  · split at h
                    · cases h
                    · rename_i d t' hnumbered
                      exact hmore ((takeNumbered?_suffix hnumbered).trans ⟨[c, e], rfl⟩) h
                  · split at h
                    · cases h
                    · exact hmore ⟨[c, e], rfl⟩ h
            · split at h
              · cases h
              · exact hmore (List.suffix_cons _ _) h

theorem cutSign_suffix (t : Text) : t.cutSign.2 <:+ t := by
  cases t with
  | nil => exact List.suffix_refl _
  | cons c t =>
      rw [Text.cutSign]
      split
      · exact List.suffix_cons _ _
      · split
        · exact List.suffix_cons _ _
        · exact List.suffix_refl _

/-- The digits before the point are cut off the text as they stand there. -/
theorem takeWhole?_spec {whole : Text} (h : takeWhole? t = some (whole, rest)) :
    rest <:+ t.tail ∧ whole <+: t ∧ ∀ c ∈ whole, c.isDigit = true := by
  cases t with
  | nil => cases h
  | cons c t =>
      rw [takeWhole?] at h
      split at h
      · rename_i hzero
        cases h
        refine ⟨List.suffix_refl _, ⟨rest, rfl⟩, fun d hd => ?_⟩
        rw [List.mem_singleton.mp hd, hzero]
        rfl
      · split at h
        · rename_i hdigit
          cases h
          refine ⟨List.dropWhile_suffix _, ?_, fun d hd => ?_⟩
          · exact (List.prefix_cons_inj c).mpr (List.takeWhile_prefix _)
          · rcases List.mem_cons.mp hd with rfl | hd
            · exact hdigit
            · exact List.all_eq_true.mp List.all_takeWhile d hd
        · cases h

theorem takePlaces_suffix (t : Text) : (takePlaces t).2 <:+ t := by
  cases t with
  | nil => exact List.suffix_refl _
  | cons c t =>
      rw [takePlaces]
      split
      · exact (List.dropWhile_suffix _).trans (List.suffix_cons _ _)
      · exact List.suffix_refl _

theorem takeExponent_suffix (t : Text) : (takeExponent t).2 <:+ t := by
  cases t with
  | nil => exact List.suffix_refl _
  | cons c t =>
      rw [takeExponent]
      split
      · dsimp only
        split
        · exact List.suffix_refl _
        · exact (List.dropWhile_suffix _).trans ((cutSign_suffix t).trans (List.suffix_cons _ _))
      · exact List.suffix_refl _

/-- A number is a value, or an integer with too many digits, and these stand in front. -/
theorem takeNumber?_spec {negative : Bool} {token : Token}
    (h : takeNumber? negative t = some (token, rest)) :
    rest <:+ t.tail ∧ ((∃ v, token = .scalar v) ∨ ∃ digits, token = .longInteger digits.length ∧
      digits <+: t ∧ Number.maxDigits < digits.length ∧ ∀ c ∈ digits, c.isDigit = true) := by
  unfold takeNumber? at h
  obtain ⟨⟨whole, more⟩, hwhole, h⟩ := Option.bind_eq_some_iff.mp h
  obtain ⟨hmore, hprefix, hdigits⟩ := takeWhole?_spec hwhole
  have hend : (takeExponent (takePlaces more).2).2 <:+ t.tail :=
    (takeExponent_suffix _).trans ((takePlaces_suffix more).trans hmore)
  dsimp only at h
  split at h
  · cases h
    refine ⟨hend, ?_⟩
    unfold integerToken
    split
    · rename_i hlong
      exact .inr ⟨whole, rfl, hprefix, hlong, hdigits⟩
    · exact .inl ⟨_, rfl⟩
  · cases h
    exact ⟨hend, .inl ⟨_, rfl⟩⟩

/-- A word is a value. -/
theorem takeWord?_spec {c : CodePoint} {token : Token}
    (h : takeWord? (c :: t) = some (token, rest)) : rest <:+ t ∧ ∃ v, token = .scalar v := by
  obtain ⟨⟨word, v⟩, hword, hfound⟩ := List.exists_of_findSome?_eq_some h
  dsimp only at hfound
  split at hfound
  · cases hfound
    have hwords : ∀ e ∈ words, e.1 ≠ [] := by decide
    obtain ⟨d, word, rfl⟩ := List.exists_cons_of_ne_nil (hwords _ hword)
    refine ⟨?_, v, rfl⟩
    rw [List.length_cons, List.drop_succ_cons]
    exact List.drop_suffix _ _
  · cases hfound

/-- Whether a token opens a container. -/
def Token.opens : Token → Bool
  | .openArray | .openObject => true
  | _ => false

/-- Whether a code point opens a container, outside of texts. -/
def isOpening (c : CodePoint) : Bool := c = '[' || c = '{'

theorem sign?_spec {c : CodePoint} {token : Token} (h : sign? c = some token) :
    (token.opens = true → isOpening c = true) ∧ ∀ n, token ≠ .longInteger n := by
  by_cases harray : c = '['
  · subst harray
    cases h
    exact ⟨fun _ => rfl, nofun⟩
  by_cases hobject : c = '{'
  · subst hobject
    cases h
    exact ⟨fun _ => rfl, nofun⟩
  -- The other signs close something or stand between two things.
  simp only [sign?, if_neg harray, if_neg hobject] at h
  repeat' split at h
  all_goals
    cases h
    try exact ⟨nofun, nofun⟩

/-- The first token of a text: what it leaves, the code point that it starts with if it opens a
container, and the digits that stand there if it is an integer with too many of them. -/
structure Cuts (c : CodePoint) (rest : Text) (token : Token) (after : Text) : Prop where
  suffix : after <:+ rest
  opening : token.opens = true → isOpening c = true
  digits : ∀ n, token = .longInteger n → Number.maxDigits < n ∧
    ∃ digits, digits <:+: c :: rest ∧ digits.length = n ∧ ∀ d ∈ digits, d.isDigit = true

theorem Cuts.of_other {c : CodePoint} {token : Token} {after : Text} (hafter : after <:+ rest)
    (hopens : token.opens = false) (hlong : ∀ n, token ≠ .longInteger n) :
    Cuts c rest token after where
  suffix := hafter
  opening h := by
    rw [hopens] at h
    cases h
  digits n h := absurd h (hlong n)

theorem Cuts.of_number {c : CodePoint} {negative : Bool} {token : Token} {after : Text}
    (h : takeNumber? negative t = some (token, after)) (htail : t.tail <:+ rest)
    (ht : t <:+ c :: rest) : Cuts c rest token after := by
  obtain ⟨hafter, ⟨v, rfl⟩ | ⟨digits, rfl, hprefix, hlong, hdigits⟩⟩ := takeNumber?_spec h
  · exact .of_other (hafter.trans htail) rfl nofun
  · refine ⟨hafter.trans htail, nofun, fun n hn => ?_⟩
    cases hn
    exact ⟨hlong, digits, hprefix.isInfix.trans ht.isInfix, rfl, hdigits⟩

theorem cuts_takeToken (c : CodePoint) (rest : Text) :
    Cuts c rest (takeToken c rest).1 (takeToken c rest).2 := by
  unfold takeToken
  split
  · rename_i token hsign
    obtain ⟨hopens, hlong⟩ := sign?_spec hsign
    exact ⟨List.suffix_refl _, hopens, fun n hn => absurd hn (hlong n)⟩
  · split
    · split
      · rename_i t after htext
        exact .of_other (takeText_suffix htext) rfl nofun
      · exact .of_other List.nil_suffix rfl nofun
    · split
      · rename_i found hword
        obtain ⟨hafter, v, hv⟩ := takeWord?_spec hword
        exact .of_other hafter (hv ▸ rfl) (hv ▸ nofun)
      · dsimp only
        split
        · cases hnumber : takeNumber? true rest with
          | none => exact .of_other List.nil_suffix rfl nofun
          | some found =>
              exact .of_number hnumber (List.tail_suffix _) (List.suffix_cons _ _)
        · cases hnumber : takeNumber? false (c :: rest) with
          | none => exact .of_other List.nil_suffix rfl nofun
          | some found =>
              exact .of_number hnumber (List.suffix_refl _) (List.suffix_refl _)

end Rests

/-! ## The tokens of a text -/

/-- Containers are opened by signs of the text, and each by one of its own. -/
theorem countP_opens_lexemes (fuel : Nat) (t : Text) :
    ((lexemes fuel t).countP fun l => l.token.opens) ≤ t.countP isOpening := by
  induction fuel generalizing t with
  | zero => exact Nat.zero_le _
  | succ fuel ih =>
      have hblanks := (List.dropWhile_suffix (l := t) isBlank).sublist.countP_le (p := isOpening)
      rw [lexemes]
      cases hdrop : t.dropWhile isBlank with
      | nil => exact Nat.zero_le _
      | cons c rest =>
          rw [hdrop] at hblanks
          have hcuts := cuts_takeToken c rest
          have hrest := hcuts.suffix.sublist.countP_le (p := isOpening)
          have hmore := ih (takeToken c rest).2
          simp only [List.countP_cons] at hblanks ⊢
          have hfirst : (if (takeToken c rest).1.opens = true then 1 else 0) ≤
              if isOpening c = true then 1 else 0 := by
            split
            · rename_i hopens
              exact Nat.le_of_eq (if_pos (hcuts.opening hopens)).symm
            · exact Nat.zero_le _
          omega

/-- A token is cut off where some end of the text starts. -/
theorem exists_of_mem_lexemes {fuel : Nat} {t : Text} {l : Lexeme} (h : l ∈ lexemes fuel t) :
    ∃ c rest, c :: rest <:+ t ∧ l.token = (takeToken c rest).1 := by
  induction fuel generalizing t with
  | zero => cases h
  | succ fuel ih =>
      have hblanks := List.dropWhile_suffix (l := t) isBlank
      rw [lexemes] at h
      cases hdrop : t.dropWhile isBlank with
      | nil =>
          rw [hdrop] at h
          cases h
      | cons c rest =>
          rw [hdrop] at h hblanks
          rcases List.mem_cons.mp h with rfl | hmem
          · exact ⟨c, rest, hblanks, rfl⟩
          · obtain ⟨d, more, hmore, htoken⟩ := ih hmem
            have hafter := (cuts_takeToken c rest).suffix.trans (List.suffix_cons c rest)
            exact ⟨d, more, hmore.trans (hafter.trans hblanks), htoken⟩

/-! ## The machine against its limits -/

section Machine

variable {depth : Nat} {outer : List Frame} {s s' : State} {l : Lexeme} {ls : List Lexeme}
  {container : Container} {n : Nat}

/-- How many containers are open. -/
def State.containers : State → Nat
  | .value outer => outer.length
  | .finished _ => 0
  | .firstItem outer | .moreItems _ outer | .firstName outer | .nextName _ outer
  | .colon _ _ outer | .moreMembers _ outer => outer.length + 1

/-- How many containers a token opens. -/
def Token.opened (token : Token) : Nat := if token.opens then 1 else 0

theorem containers_after (v : Json) (outer : List Frame) :
    (State.after v outer).containers = outer.length := by
  cases outer with
  | nil => rfl
  | cons frame outer => cases frame <;> rfl

/-- A value begins with as many containers as its first token opens. -/
theorem containers_begin (h : State.begin depth outer l = .ok s) :
    s.containers ≤ outer.length + l.token.opened := by
  unfold State.begin at h
  cases htoken : l.token <;> simp only [htoken] at h
  case scalar v =>
    cases h
    rw [containers_after]
    exact Nat.le_add_right _ _
  case text t =>
    cases h
    rw [containers_after]
    exact Nat.le_add_right _ _
  case openArray =>
    split at h
    · cases h
    · cases h
      exact Nat.le_refl _
  case openObject =>
    split at h
    · cases h
    · cases h
      exact Nat.le_refl _
  all_goals cases h

theorem containers_beginMember {members : List (Text × Json)}
    (h : State.beginMember members outer l = .ok s) : s.containers = outer.length + 1 := by
  unfold State.beginMember at h
  cases htoken : l.token <;> simp only [htoken] at h <;> cases h
  rfl

/-- One token opens one container at most, and only if it is the sign for that. -/
theorem containers_step (h : s.step depth l = .ok s') :
    s'.containers ≤ s.containers + l.token.opened := by
  have hafter : ∀ (v : Json) (outer : List Frame),
      (State.after v outer).containers ≤ outer.length + 1 + l.token.opened := by
    intro v outer
    rw [containers_after]
    omega
  have hmember : ∀ {members : List (Text × Json)} {outer : List Frame},
      State.beginMember members outer l = .ok s' →
        s'.containers ≤ outer.length + 1 + l.token.opened := by
    intro members outer hbegin
    rw [containers_beginMember hbegin]
    exact Nat.le_add_right _ _
  cases s with
  | value outer => exact containers_begin h
  | finished v => cases h
  | nextName members outer => exact hmember h
  | firstItem outer =>
      rw [State.step] at h
      split at h
      · cases h
        exact hafter _ _
      · exact containers_begin h
  | moreItems items outer =>
      rw [State.step] at h
      split at h
      · cases h
        exact Nat.le_add_right _ _
      · cases h
        exact hafter _ _
      · cases h
  | firstName outer =>
      rw [State.step] at h
      split at h
      · cases h
        exact hafter _ _
      · exact hmember h
  | colon members name outer =>
      rw [State.step] at h
      split at h
      · cases h
        exact Nat.le_add_right _ _
      · cases h
  | moreMembers members outer =>
      rw [State.step] at h
      split at h
      · cases h
        exact Nat.le_add_right _ _
      · cases h
        exact hafter _ _
      · cases h

/-- What stops the machine at a token: a complaint, or a limit that the token goes past. -/
inductive State.Stops (depth : Nat) (s : State) (l : Lexeme) : Stop → Prop
  | complaint (what : Complaint) (here : Text) : Stops depth s l (.complaint what here)
  | longInteger {n : Nat} (token : l.token = .longInteger n) : Stops depth s l (.longInteger n)
  | tooDeep (container : Container) (full : depth ≤ s.containers)
      (opens : l.token.opens = true) : Stops depth s l (.tooDeep container)

theorem stops_of_begin {e : Stop} (hs : outer.length = s.containers)
    (h : State.begin depth outer l = .error e) : s.Stops depth l e := by
  unfold State.begin at h
  cases htoken : l.token <;> simp only [htoken] at h
  case openArray =>
    split at h
    · rename_i hfull
      cases h
      exact .tooDeep _ (hs ▸ hfull) (htoken ▸ rfl)
    · cases h
  case openObject =>
    split at h
    · rename_i hfull
      cases h
      exact .tooDeep _ (hs ▸ hfull) (htoken ▸ rfl)
    · cases h
  case longInteger digits =>
    cases h
    exact .longInteger htoken
  all_goals
    cases h
    try exact .complaint _ _

theorem stops_of_beginMember {members : List (Text × Json)} {e : Stop}
    (h : State.beginMember members outer l = .error e) : s.Stops depth l e := by
  unfold State.beginMember at h
  cases htoken : l.token <;> simp only [htoken] at h <;> cases h
  all_goals exact .complaint _ _

theorem stops_of_step {e : Stop} (h : s.step depth l = .error e) : s.Stops depth l e := by
  cases s with
  | value outer => exact stops_of_begin rfl h
  | finished v =>
      cases h
      exact .complaint _ _
  | nextName members outer => exact stops_of_beginMember h
  | firstItem outer =>
      rw [State.step] at h
      split at h
      · cases h
      · exact stops_of_begin rfl h
  | firstName outer =>
      rw [State.step] at h
      split at h
      · cases h
      · exact stops_of_beginMember h
  | moreItems items outer =>
      rw [State.step] at h
      split at h <;> cases h
      exact .complaint _ _
  | colon members name outer =>
      rw [State.step] at h
      split at h <;> cases h
      exact .complaint _ _
  | moreMembers members outer =>
      rw [State.step] at h
      split at h <;> cases h
      exact .complaint _ _

theorem complaint_of_close {e : Stop} (h : s.close = .error e) :
    ∃ what here, e = .complaint what here := by
  cases s <;> cases h <;> exact ⟨_, _, rfl⟩

/-- If a container is too deep, then more containers were opened than may be open. -/
theorem run_tooDeep (h : s.run depth ls = .error (.tooDeep container)) :
    depth < s.containers + ls.countP fun l => l.token.opens := by
  -- The containers that are open were open before or are opened by tokens on the way.
  induction ls generalizing s with
  | nil =>
      obtain ⟨what, here, hstop⟩ := complaint_of_close h
      cases hstop
  | cons l rest ih =>
      rw [List.countP_cons]
      rcases Result.bind_eq_error_iff.mp h with hstep | ⟨s', hstep, hrest⟩
      · cases stops_of_step hstep with
        | tooDeep _ hfull hopens =>
            rw [if_pos hopens]
            omega
      · have hlater := ih hrest
        have hopened := containers_step hstep
        unfold Token.opened at hopened
        omega

/-- If an integer is too long, then one of the tokens is such an integer. -/
theorem run_longInteger (h : s.run depth ls = .error (.longInteger n)) :
    ∃ l ∈ ls, l.token = .longInteger n := by
  induction ls generalizing s with
  | nil =>
      obtain ⟨what, here, hstop⟩ := complaint_of_close h
      cases hstop
  | cons l rest ih =>
      rcases Result.bind_eq_error_iff.mp h with hstep | ⟨s', hstep, hrest⟩
      · cases stops_of_step hstep with
        | longInteger htoken => exact ⟨l, List.mem_cons_self, htoken⟩
      · obtain ⟨l', hl', htoken⟩ := ih hrest
        exact ⟨l', List.mem_cons_of_mem _ hl', htoken⟩

end Machine

/-! ## Texts and the limits -/

section Texts

variable {depth n : Nat} {t : Text} {s : State} {container : Container} {why : Defect}

theorem read_eq_error_iff :
    read depth t = .error why ↔
      ∃ stop, (State.value []).run depth (tokens t) = .error stop ∧ stop.toDefect t = why :=
  Result.mapError_eq_error_iff

/-- A text with a container that is too deep has more signs that open one than may be open. -/
theorem read_tooDeep (h : read depth t = .error (.tooDeep container)) :
    depth < t.countP isOpening := by
  obtain ⟨stop, hrun, hstop⟩ := read_eq_error_iff.mp h
  cases stop with
  | tooDeep container' =>
      have htokens := countP_opens_lexemes t.length t
      have hopened := run_tooDeep hrun
      simp only [State.containers, List.length_nil, tokens] at hopened
      omega
  | complaint what here => cases hstop
  | longInteger digits => cases hstop

/-- The digits of an integer that is too long stand in the text. -/
theorem read_longInteger (h : read depth t = .error (.longInteger n)) :
    Number.maxDigits < n ∧
      ∃ digits, digits <:+: t ∧ digits.length = n ∧ ∀ c ∈ digits, c.isDigit = true := by
  obtain ⟨stop, hrun, hstop⟩ := read_eq_error_iff.mp h
  cases stop with
  | longInteger digits =>
      cases hstop
      obtain ⟨l, hl, htoken⟩ := run_longInteger hrun
      obtain ⟨c, rest, hsuffix, hcut⟩ := exists_of_mem_lexemes hl
      obtain ⟨hlong, digits, hinfix, hlength, hdigits⟩ :=
        (cuts_takeToken c rest).digits n (hcut.symm.trans htoken)
      exact ⟨hlong, digits, hinfix.trans hsuffix.isInfix, hlength, hdigits⟩
  | complaint what here => cases hstop
  | tooDeep container => cases hstop

/-- A text that opens no more containers than may be open, and in which no more digits than are
converted stand one after the other. -/
structure WithinLimits (depth : Nat) (t : Text) : Prop where
  openings : t.countP isOpening ≤ depth
  digits : ∀ digits, digits <:+: t → (∀ c ∈ digits, c.isDigit = true) →
    digits.length ≤ Number.maxDigits

/-- A text that is short enough reaches no limit. -/
theorem WithinLimits.of_length (hdepth : t.length ≤ depth) (hdigits : t.length ≤ Number.maxDigits) :
    WithinLimits depth t where
  openings := Nat.le_trans List.countP_le_length hdepth
  digits _ hinfix _ := Nat.le_trans hinfix.length_le hdigits

/-- What is wrong with a text within the limits is wrong at some place. -/
theorem syntaxError_of_read (ht : WithinLimits depth t) (h : read depth t = .error why) :
    ∃ what line column offset, why = .syntaxError what line column offset := by
  cases why with
  | syntaxError what line column offset => exact ⟨what, line, column, offset, rfl⟩
  | longInteger n =>
      obtain ⟨hlong, digits, hinfix, rfl, hdigits⟩ := read_longInteger h
      exact absurd (ht.digits digits hinfix hdigits) (Nat.not_le.mpr hlong)
  | tooDeep container => exact absurd ht.openings (Nat.not_le.mpr (read_tooDeep h))

theorem ofText_eq_read {room : Room} (hmark : t.head? ≠ some (CodePoint.ofChar '\ufeff')) :
    ofText room t = read room.json t := by
  cases t with
  | nil => rfl
  | cons c t => exact if_neg fun hc => hmark (congrArg some hc)

/-- The same for a file, where a mark in front is a defect like others. -/
theorem syntaxError_of_ofText {room : Room} (ht : WithinLimits room.json t)
    (h : ofText room t = .error why) :
    ∃ what line column offset, why = .syntaxError what line column offset := by
  by_cases hmark : t.head? = some (CodePoint.ofChar '\ufeff')
  · cases t with
    | nil => cases hmark
    | cons c t =>
        cases hmark
        cases h
        exact ⟨_, _, _, _, rfl⟩
  · rw [ofText_eq_read hmark] at h
    exact syntaxError_of_read ht h

/-- The sign that opens an array. -/
def opening : CodePoint := '['

theorem lexemes_openings (fuel : Nat) (rest : Text) :
    lexemes (fuel + 1) (List.replicate (n + 1) opening ++ rest) =
      ⟨.openArray, List.replicate (n + 1) opening ++ rest⟩ ::
        lexemes fuel (List.replicate n opening ++ rest) :=
  rfl

/-- The machine in front of signs that open more arrays than may be open. -/
theorem run_openings {outer : List Frame} {fuel : Nat} (rest : Text) (hs : s = .value outer ∨
      s = .firstItem outer) (hfuel : n ≤ fuel) (hopen : s.containers ≤ depth)
    (hn : depth < s.containers + n) :
    s.run depth (lexemes fuel (List.replicate n opening ++ rest)) =
      .error (.tooDeep .array) := by
  induction n generalizing s outer fuel with
  | zero => omega
  | succ n ih =>
      obtain ⟨fuel, rfl⟩ := Nat.exists_eq_add_one_of_ne_zero (show fuel ≠ 0 by omega)
      rw [lexemes_openings]
      obtain ⟨outer', hcontainers, hstep⟩ : ∃ outer' : List Frame, outer'.length = s.containers ∧
          s.step depth ⟨.openArray, List.replicate (n + 1) opening ++ rest⟩ =
            if depth ≤ outer'.length then .error (.tooDeep .array)
            else .ok (.firstItem outer') := by
        rcases hs with rfl | rfl
        · exact ⟨outer, rfl, rfl⟩
        · exact ⟨.array [] :: outer, rfl, rfl⟩
      rw [State.run, hstep]
      split
      · rfl
      · refine ih (.inr rfl) (by omega) ?_ ?_
        · simp only [State.containers]
          omega
        · simp only [State.containers]
          omega

/-- Arrays inside of each other are too deep as soon as there is one more than may be open,
whatever comes then. -/
theorem read_openings (rest : Text) (hn : depth < n) :
    read depth (List.replicate n opening ++ rest) = .error (.tooDeep .array) := by
  have hlength : n ≤ (List.replicate n opening ++ rest).length := by
    rw [List.length_append, List.length_replicate]
    exact Nat.le_add_right _ _
  refine read_eq_error_iff.mpr ⟨_, run_openings rest (.inl rfl) hlength ?_ ?_, rfl⟩
  · exact Nat.zero_le _
  · simpa only [State.containers, List.length_nil, Nat.zero_add] using hn

theorem takeToken_decimal (hlong : Number.maxDigits < (Text.decimal n).length) :
    ∃ c digits, Text.decimal n = c :: digits ∧ isBlank c = false ∧
      takeToken c digits = (.longInteger (Text.decimal n).length, []) := by
  obtain ⟨c, digits, hcons⟩ := List.exists_cons_of_ne_nil (Text.decimal_ne_nil n)
  have hc : c.isDigit = true := Text.isDigit_of_mem_decimal (hcons ▸ List.mem_cons_self)
  have hnumber : takeNumber? false (c :: digits) =
      some (.longInteger (Text.decimal n).length, []) := by
    have hwhole := takeWhole?_decimal n ends_nil
    rw [List.append_nil, hcons] at hwhole
    rw [hcons] at hlong ⊢
    unfold takeNumber?
    rw [hwhole]
    show some (integerToken false (c :: digits), []) = _
    rw [integerToken, if_pos hlong]
  refine ⟨c, digits, hcons, isBlank_of_isDigit hc, ?_⟩
  unfold takeToken
  simp only [sign?_of_isDigit hc, takeWord?_of_isDigit hc]
  rw [if_neg (CodePoint.ne_of_isDigit hc rfl), if_neg (CodePoint.ne_of_isDigit hc rfl), hnumber]
  rfl

/-- An integer with too many digits is not read, even if it is all that there is. -/
theorem read_decimal (hlong : Number.maxDigits < (Text.decimal n).length) :
    read depth (Text.decimal n) = .error (.longInteger (Text.decimal n).length) := by
  obtain ⟨c, digits, hcons, hblank, htoken⟩ := takeToken_decimal hlong
  have htokens : tokens (Text.decimal n) = [⟨.longInteger (Text.decimal n).length, c :: digits⟩] := by
    rw [tokens]
    rw [hcons] at htoken ⊢
    rw [List.length_cons, lexemes, List.dropWhile_cons_of_neg (by rw [hblank]; decide)]
    dsimp only
    rw [htoken, List.length_cons]
    cases digits <;> rfl
  refine read_eq_error_iff.mpr ⟨.longInteger (Text.decimal n).length, ?_, rfl⟩
  rw [htokens]
  rfl

end Texts

end Json

end ImageTrust
