/-
# Grammar — what the parts of a reference look like

The grammar of references as it is written down, without a reader: components with separators
between them (`Text.Chain`) make up host names, components of paths, whole paths, and the names
of algorithms; around these stand a port, a tag and the digits of a digest.

    parse t = .ok r    gives    each part of r is in the grammar, or is a line of it

The reader takes each part for a line, and a line may end with a line feed.  So the grammar is
kept exactly by the texts without a line feed (`Reference.parse_within_grammar`), and
`Reference.parse_line_feed` is a text with one.  Nothing else gets through: every other code
point of a part is a visible ASCII character.
-/
import ImageTrust.Proofs.Entries

namespace ImageTrust

/-- Neither blank nor a control character, and ASCII. -/
def CodePoint.IsVisible (c : CodePoint) : Prop := 0x20 < c.val ∧ c.val < 0x7F

namespace CodePoint

variable {c : CodePoint}

theorem isVisible_of_isWord (h : c.isWord) : c.IsVisible := by
  simp only [isWord, isAlphanumeric, isLetter, isLower, isUpper, isDigit, within, Bool.or_eq_true,
    Bool.and_eq_true, decide_eq_true_eq, beq_iff_eq] at h
  unfold IsVisible
  omega

theorem isVisible_of_isAlphanumeric (h : c.isAlphanumeric) : c.IsVisible :=
  isVisible_of_isWord (by simp [isWord, h])

theorem isVisible_of_isDigit (h : c.isDigit) : c.IsVisible :=
  isVisible_of_isAlphanumeric (by simp [isAlphanumeric, h])

theorem isVisible_of_isHex (h : c.isHex) : c.IsVisible := by
  simp only [isHex, isLowerHex, isDigit, within, Bool.or_eq_true, Bool.and_eq_true,
    decide_eq_true_eq] at h
  unfold IsVisible
  omega

end CodePoint

namespace Text

/-! ## Chains -/

/-- A sign of this class and nothing else. -/
def IsSign (p : CodePoint → Bool) (t : Text) : Prop := ∃ x, p x = true ∧ t = [x]

/-- Components with a separator between each two; there is one component at least. -/
inductive Chain (component separator : Text → Prop) : Text → Prop
  | one {t : Text} (only : component t) : Chain component separator t
  | more {t s c : Text} (before : Chain component separator t) (between : separator s)
      (last : component c) : Chain component separator (t ++ s ++ c)

namespace Chain

variable {component component' separator : Text → Prop} {c s t : Text}

theorem cons (first : component c) (between : separator s) (h : Chain component separator t) :
    Chain component separator (c ++ s ++ t) := by
  induction h with
  | one only => exact .more (.one first) between only
  | more before between' last ih =>
      have hmore := Chain.more ih between' last
      simpa only [List.append_assoc] using hmore

/-- Another class of components, if it has those that occur. -/
theorem imp (h : Chain component separator t)
    (himp : ∀ c, c ⊆ t → component c → component' c) : Chain component' separator t := by
  induction h with
  | one only => exact .one (himp _ (List.Subset.refl _) only)
  | more before between last ih =>
      refine .more (ih fun c hc => himp c fun x hx => ?_) between (himp _ (fun x hx => ?_) last)
      · exact List.mem_append_left _ (List.mem_append_left _ (hc hx))
      · exact List.mem_append_right _ hx

theorem forall_mem {p : CodePoint → Prop} (h : Chain component separator t)
    (hcomponent : ∀ c, component c → ∀ x ∈ c, p x) (hseparator : ∀ s, separator s → ∀ x ∈ s, p x) :
    ∀ x ∈ t, p x := by
  induction h with
  | one only => exact hcomponent _ only
  | more before between last ih =>
      intro x hx
      rw [List.mem_append, List.mem_append] at hx
      rcases hx with (hx | hx) | hx
      · exact ih x hx
      · exact hseparator _ between x hx
      · exact hcomponent _ last x hx

end Chain

/-! ## Pieces are the components of a chain -/

section Pieces

variable {p : CodePoint → Bool} {t : Text}

theorem piecesBy_ne_nil (p : CodePoint → Bool) (t : Text) : piecesBy p t ≠ [] := by
  cases t with
  | nil => exact List.cons_ne_nil _ _
  | cons x t =>
      unfold piecesBy
      split
      · exact List.cons_ne_nil _ _
      · split <;> exact List.cons_ne_nil _ _

theorem pieces_eq_piecesBy (c : CodePoint) (t : Text) : t.pieces c = t.piecesBy (· = c) := by
  induction t with
  | nil => rfl
  | cons x t ih =>
      unfold pieces piecesBy
      rw [ih]
      by_cases hx : x = c
      · rw [if_pos hx, if_pos (decide_eq_true hx)]
      · have hne : ¬ decide (x = c) = true := fun h => hx (of_decide_eq_true h)
        exact (if_neg hx).trans (if_neg hne).symm

/-- The first piece is the whole text, or a separator ends it and the others are the pieces of
what follows. -/
theorem piecesBy_eq_cons {first : Text} {rest : List Text} (h : t.piecesBy p = first :: rest) :
    (rest = [] ∧ t = first) ∨
      ∃ y t', p y = true ∧ t = first ++ y :: t' ∧ piecesBy p t' = rest := by
  induction t generalizing first with
  | nil =>
      obtain ⟨rfl, rfl⟩ := List.cons.inj h
      exact .inl ⟨rfl, rfl⟩
  | cons x t ih =>
      unfold piecesBy at h
      by_cases hx : p x = true
      · rw [if_pos hx] at h
        obtain ⟨rfl, rfl⟩ := List.cons.inj h
        exact .inr ⟨x, t, hx, rfl, rfl⟩
      · rw [if_neg hx] at h
        cases hps : piecesBy p t with
        | nil => exact absurd hps (piecesBy_ne_nil p t)
        | cons piece more =>
            rw [hps] at h
            obtain ⟨rfl, rfl⟩ := List.cons.inj h
            rcases ih hps with ⟨rfl, rfl⟩ | ⟨y, t', hy, rfl, hrest⟩
            · exact .inl ⟨rfl, rfl⟩
            · exact .inr ⟨y, t', hy, rfl, hrest⟩

theorem chain_of_piecesBy {component : Text → Prop} (h : ∀ c ∈ t.piecesBy p, component c) :
    Chain component (IsSign p) t := by
  generalize hps : t.piecesBy p = ps at h
  induction ps generalizing t with
  | nil => exact absurd hps (piecesBy_ne_nil p t)
  | cons first rest ih =>
      rw [List.forall_mem_cons] at h
      rcases piecesBy_eq_cons hps with ⟨-, rfl⟩ | ⟨y, t', hy, rfl, hrest⟩
      · exact .one h.1
      · rw [← List.singleton_append, ← List.append_assoc]
        exact .cons h.1 ⟨y, hy, rfl⟩ (ih hrest h.2)

theorem chain_of_pieces {component : Text → Prop} {c : CodePoint}
    (h : ∀ part ∈ t.pieces c, component part) : Chain component (IsSign (· = c)) t := by
  rw [pieces_eq_piecesBy] at h
  exact chain_of_piecesBy h

end Pieces

/-! ## Lines -/

/-- A text of this class, or one with a line feed at its end. -/
def MayBreak (p : Text → Prop) (t : Text) : Prop :=
  p t ∨ ∃ s, p s ∧ t = s ++ [CodePoint.ofChar '\n']

section Lines

variable {p q : Text → Prop} {t : Text}

theorem mayBreak_of_isLineOf {p : Text → Bool} (hq : ∀ s, p s = true → q s)
    (h : t.isLineOf p = true) : MayBreak q t := by
  rcases isLineOf_iff.mp h with hline | ⟨s, hs, rfl⟩
  · exact .inl (hq t hline)
  · exact .inr ⟨s, hq s hs, rfl⟩

theorem MayBreak.unbroken (h : MayBreak p t) (hfeed : CodePoint.ofChar '\n' ∉ t) : p t := by
  rcases h with hp | ⟨s, -, rfl⟩
  · exact hp
  · exact absurd (List.mem_append_right s List.mem_cons_self) hfeed

theorem MayBreak.forall_mem (h : MayBreak p t) (hp : ∀ s, p s → ∀ x ∈ s, x.IsVisible) :
    ∀ x ∈ t, x.IsVisible ∨ x = CodePoint.ofChar '\n' := by
  intro x hx
  rcases h with ht | ⟨s, hs, rfl⟩
  · exact .inl (hp t ht x hx)
  · rcases List.mem_append.mp hx with hx | hx
    · exact .inl (hp s hs x hx)
    · exact .inr (List.mem_singleton.mp hx)

end Lines

end Text

namespace Reference

open Text

/-! ## The grammar -/

/-- A component of a host name: letters, digits and, not at its ends, hyphens. -/
structure HostLabel (t : Text) : Prop where
  nonempty : t ≠ []
  words : ∀ c ∈ t, c.isAlphanumeric ∨ c = CodePoint.ofChar '-'
  starts : t.head? ≠ some (CodePoint.ofChar '-')
  ends : t.getLast? ≠ some (CodePoint.ofChar '-')

/-- The name of a host: its components between dots. -/
def HostName : Text → Prop := Chain HostLabel (IsSign (· = CodePoint.ofChar '.'))

/-- A host: a name, or a name and a port in decimal. -/
inductive Host : Text → Prop
  | bare {name : Text} (named : HostName name) : Host name
  | port {name digits : Text} (named : HostName name) (nonempty : digits ≠ [])
      (decimal : ∀ c ∈ digits, c.isDigit) : Host (name ++ CodePoint.ofChar ':' :: digits)

/-- A run of small letters and digits. -/
structure PathWord (t : Text) : Prop where
  nonempty : t ≠ []
  words : ∀ c ∈ t, c.isLower ∨ c.isDigit

/-- What may stand between two words of a path component. -/
inductive PathSeparator : Text → Prop
  | dot : PathSeparator "."
  | underscore : PathSeparator "_"
  | underscores : PathSeparator "__"
  | hyphens (n : Nat) : PathSeparator (List.replicate (n + 1) (CodePoint.ofChar '-'))

/-- A component of a path: words with separators between them. -/
def PathComponent : Text → Prop := Chain PathWord PathSeparator

/-- A tag: a letter, a digit or an underscore, and at most 127 of these, dots and hyphens. -/
def Tag (t : Text) : Prop :=
  ∃ first rest, t = first :: rest ∧ first.isWord ∧ rest.length ≤ 127 ∧
    ∀ c ∈ rest, c.isWord ∨ c = CodePoint.ofChar '.' ∨ c = CodePoint.ofChar '-'

/-- A component of an algorithm's name: letters and digits after a letter. -/
def AlgorithmWord (t : Text) : Prop :=
  ∃ first rest, t = first :: rest ∧ first.isLetter ∧ ∀ c ∈ rest, c.isAlphanumeric

/-- A digest: the name of an algorithm, a colon, and at least 32 hexadecimal digits. -/
def Digest (t : Text) : Prop :=
  ∃ algorithm hex, t = algorithm ++ CodePoint.ofChar ':' :: hex ∧
    Chain AlgorithmWord (IsSign isAlgorithmSeparator) algorithm ∧ 32 ≤ hex.length ∧
    ∀ c ∈ hex, c.isHex

/-- Host, path components, tag and digest are in the grammar, each of them read in this way. -/
structure Spelled (reading : (Text → Prop) → Text → Prop) (r : Reference) : Prop where
  host : reading Host r.host
  path : Chain (reading PathComponent) (IsSign (· = CodePoint.ofChar '/')) r.path
  tag : ∀ tag ∈ r.tag, reading Tag tag
  digest : ∀ digest ∈ r.digest, reading Digest digest

/-- Every part is in the grammar. -/
def InGrammar (r : Reference) : Prop := r.Spelled fun part => part

/-- The texts that a reference is made of. -/
def parts (r : Reference) : List Text := r.host :: r.path :: (r.tag.toList ++ r.digest.toList)

variable {r : Reference} {t : Text} {x : CodePoint}

/-! ## The readers keep to it -/

theorem hostLabel_of_isHostComponent (h : isHostComponent t = true) : HostLabel t := by
  simp only [isHostComponent, isRunOf, Bool.and_eq_true, List.all_eq_true, Bool.not_eq_true',
    List.isEmpty_eq_false_iff, Option.any_eq_true_iff_get] at h
  obtain ⟨⟨⟨hne, hwords⟩, hfirst, hstarts⟩, hlast, hends⟩ := h
  refine ⟨hne, fun c hc => ?_, fun hhead => ?_, fun hlast => ?_⟩
  · simpa [isHostWord] using hwords c hc
  · simp [hhead] at hstarts
    revert hstarts
    decide
  · simp [hlast] at hends
    revert hends
    decide

theorem hostName_of_isHostName (h : isHostName t = true) : HostName t :=
  chain_of_pieces fun c hc => hostLabel_of_isHostComponent (List.all_eq_true.mp h c hc)

theorem host_of_isHost (h : isHost t = true) : Host t := by
  unfold isHost at h
  cases hcut : t.cutFirst? (CodePoint.ofChar ':') with
  | none =>
      rw [hcut] at h
      exact .bare (hostName_of_isHostName h)
  | some both =>
      obtain ⟨name, port⟩ := both
      obtain ⟨rfl, -⟩ := Text.cutFirst?_eq_some_iff.mp hcut
      rw [hcut] at h
      obtain ⟨hname, hport⟩ := Bool.and_eq_true_iff.mp h
      obtain ⟨hne, hdigits⟩ := Bool.and_eq_true_iff.mp hport
      refine .port (hostName_of_isHostName hname) ?_ (List.all_eq_true.mp hdigits)
      simpa using hne

/-! ### Components of a path -/

/-- What separators a state of the reader stands for. -/
def PathState.Separates : PathState → Text → Prop
  | .dot, s => s = "."
  | .underscore, s => s = "_"
  | .underscores, s => s = "__"
  | .hyphens, s => ∃ n, s = List.replicate (n + 1) (CodePoint.ofChar '-')
  | _, _ => False

theorem PathState.Separates.pathSeparator {state : PathState} (h : state.Separates t) :
    PathSeparator t := by
  cases state with
  | start => cases h
  | word => cases h
  | dot => exact h ▸ .dot
  | underscore => exact h ▸ .underscore
  | underscores => exact h ▸ .underscores
  | hyphens =>
      obtain ⟨n, rfl⟩ := h
      exact .hyphens n

/-- What a reader in this state has read. -/
inductive PathState.Follows : PathState → Text → Prop
  | start : Follows .start []
  | word {t : Text} (component : PathComponent t) : Follows .word t
  | separator {state : PathState} {t s : Text} (component : PathComponent t)
      (separates : state.Separates s) : Follows state (t ++ s)

theorem PathComponent.snoc (h : PathComponent t) (hx : isPathWord x = true) :
    PathComponent (t ++ [x]) := by
  have hlonger : ∀ {w : Text}, PathWord w → PathWord (w ++ [x]) := by
    intro w hw
    refine ⟨by simp, fun c hc => ?_⟩
    rcases List.mem_append.mp hc with hc | hc
    · exact hw.words c hc
    · rw [List.mem_singleton.mp hc]
      simpa [isPathWord] using hx
  cases h with
  | one only => exact .one (hlonger only)
  | more before between last =>
      rw [List.append_assoc]
      exact .more before between (hlonger last)

theorem pathWord_singleton (hx : isPathWord x = true) : PathWord [x] :=
  ⟨List.cons_ne_nil _ _, fun c hc => by simpa [List.mem_singleton.mp hc, isPathWord] using hx⟩

/-- A word is begun or goes on from every state; a separator begins behind a word only, and two
of them go on. -/
theorem PathState.step_cases {state next : PathState} (h : state.step x = some next) :
    (isPathWord x = true ∧ next = .word) ∨
      (state = .word ∧ x = CodePoint.ofChar '.' ∧ next = .dot) ∨
      (state = .word ∧ x = CodePoint.ofChar '_' ∧ next = .underscore) ∨
      (state = .word ∧ x = CodePoint.ofChar '-' ∧ next = .hyphens) ∨
      (state = .underscore ∧ x = CodePoint.ofChar '_' ∧ next = .underscores) ∨
      (state = .hyphens ∧ x = CodePoint.ofChar '-' ∧ next = .hyphens) := by
  unfold PathState.step at h
  by_cases hx : isPathWord x = true
  · rw [if_pos hx] at h
    exact .inl ⟨hx, (Option.some.inj h).symm⟩
  · rw [if_neg hx] at h
    refine .inr ?_
    cases state with
    | start | dot | underscores => cases h
    | word | underscore | hyphens => grind

theorem PathState.Follows.pathComponent (h : PathState.word.Follows t) : PathComponent t := by
  cases h with
  | word component => exact component
  | separator _ separates => cases separates

/-- One more code point is read. -/
theorem PathState.Follows.step {state next : PathState} (h : state.Follows t)
    (hstep : state.step x = some next) : next.Follows (t ++ [x]) := by
  rcases PathState.step_cases hstep with ⟨hx, rfl⟩ | ⟨rfl, rfl, rfl⟩ | ⟨rfl, rfl, rfl⟩ |
    ⟨rfl, rfl, rfl⟩ | ⟨rfl, rfl, rfl⟩ | ⟨rfl, rfl, rfl⟩
  · cases h with
    | start => exact .word (.one (pathWord_singleton hx))
    | word component => exact .word (component.snoc hx)
    | separator component separates =>
        exact .word (.more component separates.pathSeparator (pathWord_singleton hx))
  · exact .separator h.pathComponent rfl
  · exact .separator h.pathComponent rfl
  · exact .separator h.pathComponent ⟨0, rfl⟩
  · cases h with
    | separator component separates =>
        rw [separates, List.append_assoc]
        exact .separator component rfl
  · cases h with
    | separator component separates =>
        obtain ⟨n, rfl⟩ := separates
        rw [List.append_assoc, ← List.replicate_succ']
        exact .separator component ⟨n + 1, rfl⟩

theorem pathComponent_of_accepts {state : PathState} {before : Text} (h : state.Follows before)
    (hacc : state.accepts t = true) : PathComponent (before ++ t) := by
  induction t generalizing state before with
  | nil =>
      obtain rfl : state = .word := by simpa [PathState.accepts] using hacc
      rw [List.append_nil]
      exact h.pathComponent
  | cons x t ih =>
      unfold PathState.accepts at hacc
      cases hstep : state.step x with
      | none => simp [hstep] at hacc
      | some next =>
          rw [hstep] at hacc
          have hall := ih (h.step hstep) hacc
          rwa [List.append_assoc, List.singleton_append] at hall

theorem pathComponent_of_isPathComponent (h : isPathComponent t = true) : PathComponent t :=
  pathComponent_of_accepts .start h

/-! ### Tags and digests -/

theorem tag_of_isTag (h : isTag t = true) : Tag t := by
  cases t with
  | nil => simp [isTag] at h
  | cons first rest =>
      simp only [isTag, Bool.and_eq_true, List.all_eq_true, List.head?_cons, Option.any_some,
        decide_eq_true_eq, List.length_cons] at h
      obtain ⟨⟨hwords, hfirst⟩, hlength⟩ := h
      refine ⟨first, rest, rfl, hfirst, by omega, fun c hc => ?_⟩
      simpa [isTagWord, or_assoc] using hwords c (List.mem_cons_of_mem _ hc)

theorem algorithmWord_of_isAlgorithmComponent (h : isAlgorithmComponent t = true) :
    AlgorithmWord t := by
  cases t with
  | nil => simp [isAlgorithmComponent] at h
  | cons first rest =>
      simp only [isAlgorithmComponent, Bool.and_eq_true, List.all_eq_true, List.head?_cons,
        Option.any_some] at h
      exact ⟨first, rest, rfl, h.2, fun c hc => h.1 c (List.mem_cons_of_mem _ hc)⟩

theorem digest_of_isDigest (h : isDigest t = true) : Digest t := by
  unfold isDigest at h
  cases hcut : t.cutFirst? (CodePoint.ofChar ':') with
  | none => simp [hcut] at h
  | some both =>
      obtain ⟨algorithm, hex⟩ := both
      obtain ⟨rfl, -⟩ := Text.cutFirst?_eq_some_iff.mp hcut
      simp only [hcut, Bool.and_eq_true, decide_eq_true_eq] at h
      obtain ⟨⟨halgorithm, hhex⟩, hlength⟩ := h
      refine ⟨algorithm, hex, rfl, chain_of_piecesBy fun c hc => ?_, hlength, List.all_eq_true.mp hhex⟩
      exact algorithmWord_of_isAlgorithmComponent (List.all_eq_true.mp halgorithm c hc)

theorem Admissible.spelled (h : r.Admissible) : r.Spelled MayBreak where
  host := mayBreak_of_isLineOf (fun _ => host_of_isHost) h.host
  path := chain_of_pieces fun c hc =>
    mayBreak_of_isLineOf (fun _ => pathComponent_of_isPathComponent) (h.path c hc)
  tag tag htag := mayBreak_of_isLineOf (fun _ => tag_of_isTag) (h.tag tag htag)
  digest digest hdigest := mayBreak_of_isLineOf (fun _ => digest_of_isDigest) (h.digest digest hdigest)

/-! ## What the grammar is free of -/

theorem isVisible_of_isSign {p : CodePoint → Bool} (hp : ∀ x, p x = true → x.IsVisible) :
    ∀ s, IsSign p s → ∀ x ∈ s, x.IsVisible := by
  rintro s ⟨y, hy, rfl⟩ x hx
  rw [List.mem_singleton.mp hx]
  exact hp y hy

theorem isVisible_of_eq {c : CodePoint} (hc : c.IsVisible) :
    ∀ x : CodePoint, decide (x = c) = true → x.IsVisible :=
  fun _ hx => of_decide_eq_true hx ▸ hc

theorem Host.isVisible (h : Host t) : ∀ x ∈ t, x.IsVisible := by
  have hname : ∀ name, HostName name → ∀ x ∈ name, x.IsVisible := by
    intro name hname
    refine hname.forall_mem (fun c hc x hx => ?_) (isVisible_of_isSign (isVisible_of_eq ?_))
    · rcases hc.words x hx with hword | rfl
      · exact CodePoint.isVisible_of_isAlphanumeric hword
      · exact ⟨by decide, by decide⟩
    · exact ⟨by decide, by decide⟩
  intro x hx
  cases h with
  | bare named => exact hname _ named x hx
  | port named _ decimal =>
      rcases List.mem_append.mp hx with hx | hx
      · exact hname _ named x hx
      · rcases List.mem_cons.mp hx with rfl | hx
        · exact ⟨by decide, by decide⟩
        · exact CodePoint.isVisible_of_isDigit (decimal x hx)

theorem PathComponent.isVisible (h : PathComponent t) : ∀ x ∈ t, x.IsVisible := by
  refine h.forall_mem (fun c hc x hx => ?_) (fun s hs x hx => ?_)
  · rcases hc.words x hx with hword | hword
    · exact CodePoint.isVisible_of_isAlphanumeric (by simp [CodePoint.isAlphanumeric, CodePoint.isLetter, hword])
    · exact CodePoint.isVisible_of_isDigit hword
  · cases hs with
    | dot => exact List.mem_singleton.mp hx ▸ ⟨by decide, by decide⟩
    | underscore => exact List.mem_singleton.mp hx ▸ ⟨by decide, by decide⟩
    | underscores =>
        have hsame : x = CodePoint.ofChar '_' := by
          rcases List.mem_cons.mp hx with rfl | hx
          · rfl
          · exact List.mem_singleton.mp hx
        exact hsame ▸ ⟨by decide, by decide⟩
    | hyphens n => exact List.eq_of_mem_replicate hx ▸ ⟨by decide, by decide⟩

theorem Tag.isVisible (h : Tag t) : ∀ x ∈ t, x.IsVisible := by
  obtain ⟨first, rest, rfl, hfirst, -, hrest⟩ := h
  intro x hx
  rcases List.mem_cons.mp hx with rfl | hx
  · exact CodePoint.isVisible_of_isWord hfirst
  · rcases hrest x hx with hword | rfl | rfl
    · exact CodePoint.isVisible_of_isWord hword
    · exact ⟨by decide, by decide⟩
    · exact ⟨by decide, by decide⟩

theorem isVisible_of_isAlgorithmSeparator (h : isAlgorithmSeparator x = true) : x.IsVisible := by
  simp only [isAlgorithmSeparator, Bool.or_eq_true, decide_eq_true_eq] at h
  rcases h with ((rfl | rfl) | rfl) | rfl <;> exact ⟨by decide, by decide⟩

/-- What is neither a letter or a digit nor one of the signs between them is not in the name of an
algorithm. -/
theorem not_mem_of_algorithm (hword : x.isAlphanumeric = false)
    (hsign : isAlgorithmSeparator x = false)
    (h : Chain AlgorithmWord (IsSign isAlgorithmSeparator) t) : x ∉ t := by
  have hletter : x.isLetter = false := by
    unfold CodePoint.isAlphanumeric at hword
    exact (Bool.or_eq_false_iff.mp hword).1
  have hother : ∀ y ∈ t, y ≠ x := by
    refine h.forall_mem (fun c hc y hy => ?_) (fun s hs y hy => ?_)
    · obtain ⟨first, rest, rfl, hfirst, hrest⟩ := hc
      rcases List.mem_cons.mp hy with rfl | hy
      · rintro rfl
        rw [hletter] at hfirst
        cases hfirst
      · rintro rfl
        have hmore := hrest _ hy
        rw [hword] at hmore
        cases hmore
    · obtain ⟨z, hz, rfl⟩ := hs
      rw [List.mem_singleton.mp hy]
      rintro rfl
      rw [hsign] at hz
      cases hz
  exact fun hx => hother x hx rfl

theorem nonempty_of_algorithm (h : Chain AlgorithmWord (IsSign isAlgorithmSeparator) t) : t ≠ [] := by
  cases h with
  | one only =>
      obtain ⟨first, rest, rfl, -⟩ := only
      exact List.cons_ne_nil _ _
  | more before between last =>
      obtain ⟨first, rest, rfl, -⟩ := last
      exact List.append_ne_nil_of_right_ne_nil _ (List.cons_ne_nil _ _)

theorem Digest.isVisible (h : Digest t) : ∀ x ∈ t, x.IsVisible := by
  obtain ⟨algorithm, hex, rfl, halgorithm, -, hhex⟩ := h
  intro x hx
  rcases List.mem_append.mp hx with hx | hx
  · refine halgorithm.forall_mem (fun c hc y hy => ?_)
      (isVisible_of_isSign fun _ => isVisible_of_isAlgorithmSeparator) x hx
    obtain ⟨first, rest, rfl, hfirst, hrest⟩ := hc
    rcases List.mem_cons.mp hy with rfl | hy
    · exact CodePoint.isVisible_of_isAlphanumeric (by simp [CodePoint.isAlphanumeric, hfirst])
    · exact CodePoint.isVisible_of_isAlphanumeric (hrest y hy)
  · rcases List.mem_cons.mp hx with rfl | hx
    · exact ⟨by decide, by decide⟩
    · exact CodePoint.isVisible_of_isHex (hhex x hx)

theorem mem_parts : t ∈ r.parts ↔ t = r.host ∨ t = r.path ∨ t ∈ r.tag ∨ t ∈ r.digest := by
  simp [parts]

/-- If what one part of the grammar has to do with a code point every reading of it has, then
so have all parts of a reference. -/
theorem Spelled.forall_mem {reading : (Text → Prop) → Text → Prop} {p : CodePoint → Prop}
    (h : r.Spelled reading)
    (hreading : ∀ {part : Text → Prop} {t : Text}, reading part t →
      (∀ s, part s → ∀ x ∈ s, x.IsVisible) → ∀ x ∈ t, p x)
    (hvisible : ∀ x : CodePoint, x.IsVisible → p x) : ∀ part ∈ r.parts, ∀ x ∈ part, p x := by
  intro part hpart
  rcases mem_parts.mp hpart with rfl | rfl | htag | hdigest
  · exact hreading h.host fun _ => Host.isVisible
  · refine h.path.forall_mem (fun c hc => hreading hc fun _ => PathComponent.isVisible) ?_
    rintro s ⟨y, hy, rfl⟩ x hx
    refine hvisible x (isVisible_of_isSign (isVisible_of_eq ?_) [y] ⟨y, hy, rfl⟩ x hx)
    exact ⟨by decide, by decide⟩
  · exact hreading (h.tag part htag) fun _ => Tag.isVisible
  · exact hreading (h.digest part hdigest) fun _ => Digest.isVisible

theorem Spelled.unbroken (h : r.Spelled MayBreak)
    (hfeed : ∀ part ∈ r.parts, CodePoint.ofChar '\n' ∉ part) : r.InGrammar where
  host := h.host.unbroken (hfeed _ (mem_parts.mpr (.inl rfl)))
  path := h.path.imp fun _ hsub hc =>
    hc.unbroken fun hmem => hfeed _ (mem_parts.mpr (.inr (.inl rfl))) (hsub hmem)
  tag tag htag := (h.tag tag htag).unbroken (hfeed tag (mem_parts.mpr (.inr (.inr (.inl htag)))))
  digest digest hdigest :=
    (h.digest digest hdigest).unbroken (hfeed digest (mem_parts.mpr (.inr (.inr (.inr hdigest)))))

theorem InGrammar.isVisible (h : r.InGrammar) : ∀ part ∈ r.parts, ∀ x ∈ part, x.IsVisible :=
  h.forall_mem (fun hread hpart => hpart _ hread) fun _ => id

/-! ## Nothing is lost on the way -/

section Cutting

variable {whole : Text}

theorem mem_cutDigest (hx : x ≠ CodePoint.ofChar '@') :
    x ∈ whole ↔ x ∈ (cutDigest whole).1 ∨ ∃ digest ∈ (cutDigest whole).2, x ∈ digest := by
  unfold cutDigest
  cases hcut : whole.cutFirst? (CodePoint.ofChar '@') with
  | none => simp
  | some both =>
      obtain ⟨rfl, -⟩ := Text.cutFirst?_eq_some_iff.mp hcut
      simp [hx]

theorem mem_cutTag (hx : x ≠ CodePoint.ofChar ':') :
    x ∈ whole ↔ x ∈ (cutTag whole).1 ∨ ∃ tag ∈ (cutTag whole).2, x ∈ tag := by
  unfold cutTag
  cases hcut : whole.cutLast? (CodePoint.ofChar ':') with
  | none => simp
  | some both =>
      obtain ⟨rfl, -⟩ := Text.cutLast?_eq_some_iff.mp hcut
      dsimp only
      split
      · simp
      · simp [hx]

theorem mem_cutHost (hx : x ≠ CodePoint.ofChar '/') (hdefault : x ∉ defaultHost) :
    x ∈ whole ↔ x ∈ (cutHost whole).1 ∨ x ∈ (cutHost whole).2 := by
  unfold cutHost
  cases hcut : whole.cutFirst? (CodePoint.ofChar '/') with
  | none => simp [hdefault]
  | some both =>
      obtain ⟨rfl, -⟩ := Text.cutFirst?_eq_some_iff.mp hcut
      dsimp only
      split
      · simp [hx]
      · simp [hdefault]

theorem mem_normalized {host path : Text} (hx : x ≠ CodePoint.ofChar '/') (hdefault : x ∉ defaultHost)
    (hformer : x ∉ formerDefaultHost) (hofficial : x ∉ officialPath) :
    x ∈ host ∨ x ∈ path ↔ x ∈ (normalized host path).1 ∨ x ∈ (normalized host path).2 := by
  have hhost : x ∈ (if host = formerDefaultHost then defaultHost else host) ↔ x ∈ host := by
    split
    · rename_i hsame
      simp [hsame, hdefault, hformer]
    · rfl
  unfold normalized
  dsimp only
  generalize (if host = formerDefaultHost then defaultHost else host) = new at hhost ⊢
  by_cases hshort : new = defaultHost ∧ CodePoint.ofChar '/' ∉ path
  · rw [if_pos hshort]
    simp [hhost, hx, hofficial]
  · rw [if_neg hshort, hhost]

/-- A sign that no cut is made at, and that no part has of its own, is in a text if it is in one
of the parts. -/
theorem mem_cut (hx : x ∉ ("@:/" : Text)) (hown : x ∉ defaultHost ++ formerDefaultHost ++ officialPath) :
    x ∈ whole ↔ ∃ part ∈ (cut whole).parts, x ∈ part := by
  have hat : x ≠ CodePoint.ofChar '@' := fun h => hx (h ▸ by decide)
  have hcolon : x ≠ CodePoint.ofChar ':' := fun h => hx (h ▸ by decide)
  have hslash : x ≠ CodePoint.ofChar '/' := fun h => hx (h ▸ by decide)
  simp only [List.mem_append, not_or] at hown
  obtain ⟨⟨hdefault, hformer⟩, hofficial⟩ := hown
  rw [mem_cutDigest hat, mem_cutTag hcolon, mem_cutHost hslash hdefault,
    mem_normalized hslash hdefault hformer hofficial]
  simp only [mem_parts, cut, repositoryIn, or_and_right, exists_or, exists_eq_left, or_assoc]

end Cutting

/-- Every part of a reference that was read is in the grammar, but for a line feed that may end
host, tag, digest and each component of the path.  So it is in the grammar just when the text
has no line feed, and any code point of a part that is not visible is one of those. -/
theorem parse_within_grammar (h : parse t = .ok r) :
    r.Spelled MayBreak ∧ (r.InGrammar ↔ CodePoint.ofChar '\n' ∉ t) ∧
      ∀ part ∈ r.parts, ∀ x ∈ part, x.IsVisible ∨ (x = CodePoint.ofChar '\n' ∧ x ∈ t) := by
  have hspelled := (admissible_of_parse h).spelled
  obtain ⟨-, -, -, rfl, -⟩ := parse_eq_ok_iff.mp h
  have hmem : CodePoint.ofChar '\n' ∈ t ↔ ∃ part ∈ (cut t).parts, CodePoint.ofChar '\n' ∈ part :=
    mem_cut (by decide) (by decide)
  refine ⟨hspelled, ⟨fun hgrammar hfeed => ?_, fun hfeed => ?_⟩, fun part hpart x hx => ?_⟩
  · obtain ⟨part, hpart, hx⟩ := hmem.mp hfeed
    exact absurd (hgrammar.isVisible part hpart _ hx).1 (by decide)
  · exact hspelled.unbroken fun part hpart hx => hfeed (hmem.mpr ⟨part, hpart, hx⟩)
  · rcases hspelled.forall_mem (fun hread => hread.forall_mem) (fun _ => .inl) part hpart x hx with
      hvisible | rfl
    · exact .inl hvisible
    · exact .inr ⟨rfl, hmem.mpr ⟨part, hpart, hx⟩⟩

/-- A port, separators of every kind, a tag and a digest, without a line feed; and two of them
where lines may end. -/
theorem parse_within_grammar_feeds :
    ∃ r r' : Reference,
      parse "localhost:5000/a--b/c__d.e:v.1@sha256:00112233445566778899aabbccddeeff" = .ok r ∧
      r.InGrammar ∧ parse "a.b\n/c\n/d:1" = .ok r' ∧ ¬ r'.InGrammar ∧ r'.Spelled MayBreak := by
  have h : parse "localhost:5000/a--b/c__d.e:v.1@sha256:00112233445566778899aabbccddeeff" =
      .ok ⟨"localhost:5000", "a--b/c__d.e", some "v.1",
        some "sha256:00112233445566778899aabbccddeeff"⟩ := rfl
  have h' : parse "a.b\n/c\n/d:1" = .ok ⟨"a.b\n", "c\n/d", some "1", none⟩ := rfl
  obtain ⟨hspelled', hgrammar', -⟩ := parse_within_grammar h'
  refine ⟨_, _, h, (parse_within_grammar h).2.1.mpr (by decide), h', fun hin => ?_, hspelled'⟩
  exact hgrammar'.mp hin (by decide)

/-- A line feed behind a name is taken for the end of a line, and is part of the path then. -/
theorem parse_line_feed :
    ∃ r, parse "busybox\n" = .ok r ∧ CodePoint.ofChar '\n' ∈ r.path ∧ ¬ r.InGrammar := by
  refine ⟨⟨"docker.io", "library/busybox\n", none, none⟩, rfl, by decide, fun hin => ?_⟩
  have hvisible := hin.isVisible "library/busybox\n" (by decide) (CodePoint.ofChar '\n') (by decide)
  exact absurd hvisible.1 (by decide)

end Reference

end ImageTrust
