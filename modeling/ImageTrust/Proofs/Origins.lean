/-
# Origins — a document is made of what its tokens bring

The machine that reads documents puts them together and adds nothing of its own: each scalar
of the document, each text and each name of a member was brought by one of its tokens
(`made_step`, `made_run`).  So a property that whatever the tokens bring has, all parts of the
document have (`made_of_read`).

The reader of strict documents refuses the tokens with surrogates, those among them that bring
what is replaced later, and so its documents have none (`isScalar_of_strict`).
-/
import ImageTrust.Proofs.Checks
import ImageTrust.Proofs.JsonDocuments
import ImageTrust.Proofs.Limits

namespace ImageTrust

namespace Json

/-- What a token brings into a document: a scalar, or a text, be it a value or a name. -/
def Token.brings : Token → Option Json
  | .scalar v => some v
  | .text t => some (.text t)
  | _ => none

/-- The parts of the document have the property: its scalars, its texts, and the names of its
members. -/
inductive Made (P : Json → Prop) : Json → Prop
  | part {v : Json} (brought : P v) : Made P v
  | array {items : List Json} (inner : ∀ v ∈ items, Made P v) : Made P (.array items)
  | object {members : List (Text × Json)} (names : ∀ e ∈ members, P (.text e.1))
      (inner : ∀ e ∈ members, Made P e.2) : Made P (.object members)

theorem Made.isScalar {v : Json} (hv : v.Made fun w => w.isScalar = true) : v.isScalar = true := by
  induction hv with
  | part brought => exact brought
  | array inner ih => exact areScalar_eq_true_iff.mpr ih
  | object names inner ih =>
      exact areScalarMembers_eq_true_iff.mpr fun e he => ⟨names e he, ih e he⟩

/-! ## The machine -/

section Machine

variable {P : Json → Prop} {depth : Nat} {outer : List Frame} {members : List (Text × Json)}
  {s s' : State} {l : Lexeme} {ls : List Lexeme} {t : Text} {v : Json}

/-- What the token brings has the property. -/
def Token.Brings (P : Json → Prop) (token : Token) : Prop := ∀ v, token.brings = some v → P v

/-- The members are made so. -/
def MembersMade (P : Json → Prop) (members : List (Text × Json)) : Prop :=
  ∀ e ∈ members, P (.text e.1) ∧ e.2.Made P

/-- What an open container holds so far is made so. -/
def Frame.Made (P : Json → Prop) : Frame → Prop
  | .array items => ∀ v ∈ items, v.Made P
  | .object members name => MembersMade P members ∧ P (.text name)

/-- What was read so far is made so. -/
def State.Made (P : Json → Prop) : State → Prop
  | .value outer | .firstItem outer | .firstName outer => ∀ f ∈ outer, f.Made P
  | .moreItems items outer => (∀ v ∈ items, v.Made P) ∧ ∀ f ∈ outer, f.Made P
  | .nextName members outer | .moreMembers members outer =>
      MembersMade P members ∧ ∀ f ∈ outer, f.Made P
  | .colon members name outer => (MembersMade P members ∧ P (.text name)) ∧ ∀ f ∈ outer, f.Made P
  | .finished v => v.Made P

theorem membersMade_nil : MembersMade P [] := fun _ he => absurd he List.not_mem_nil

theorem MembersMade.object (h : MembersMade P members) : (Json.object members).Made P :=
  .object (fun e he => (h e he).1) fun e he => (h e he).2

theorem made_after (hv : v.Made P) (houter : ∀ f ∈ outer, f.Made P) :
    (State.after v outer).Made P := by
  cases outer with
  | nil => exact hv
  | cons frame outer =>
      obtain ⟨hframe, hothers⟩ := List.forall_mem_cons.mp houter
      cases frame with
      | array items => exact ⟨List.forall_mem_cons.mpr ⟨hv, hframe⟩, hothers⟩
      | object members name =>
          exact ⟨List.forall_mem_cons.mpr ⟨⟨hframe.2, hv⟩, hframe.1⟩, hothers⟩

theorem made_begin (hl : l.token.Brings P) (houter : ∀ f ∈ outer, f.Made P)
    (h : State.begin depth outer l = .ok s) : s.Made P := by
  unfold State.begin at h
  cases htoken : l.token <;> simp only [htoken] at h
  case scalar v =>
    cases h
    exact made_after (.part (hl v (by rw [htoken]; rfl))) houter
  case text t =>
    cases h
    exact made_after (.part (hl (.text t) (by rw [htoken]; rfl))) houter
  case openArray =>
    split at h
    · cases h
    · cases h
      exact houter
  case openObject =>
    split at h
    · cases h
    · cases h
      exact houter
  all_goals cases h

theorem made_beginMember (hl : l.token.Brings P) (hmembers : MembersMade P members)
    (houter : ∀ f ∈ outer, f.Made P) (h : State.beginMember members outer l = .ok s) :
    s.Made P := by
  unfold State.beginMember at h
  cases htoken : l.token <;> simp only [htoken] at h <;> cases h
  rename_i name
  exact ⟨⟨hmembers, hl (.text name) (by rw [htoken]; rfl)⟩, houter⟩

/-- One token adds to what was read what it brings. -/
theorem made_step (hs : s.Made P) (hl : l.token.Brings P) (h : s.step depth l = .ok s') :
    s'.Made P := by
  cases s with
  | value outer => exact made_begin hl hs h
  | finished v => cases h
  | nextName members outer => exact made_beginMember hl hs.1 hs.2 h
  | firstItem outer =>
      rw [State.step] at h
      split at h
      · cases h
        exact made_after (.array fun v hv => absurd hv List.not_mem_nil) hs
      · refine made_begin hl ?_ h
        exact List.forall_mem_cons.mpr ⟨fun v hv => absurd hv List.not_mem_nil, hs⟩
  | moreItems items outer =>
      obtain ⟨hitems, houter⟩ := hs
      rw [State.step] at h
      split at h
      · cases h
        exact List.forall_mem_cons.mpr ⟨hitems, houter⟩
      · cases h
        exact made_after (.array fun v hv => hitems v (List.mem_reverse.mp hv)) houter
      · cases h
  | firstName outer =>
      rw [State.step] at h
      split at h
      · cases h
        exact made_after membersMade_nil.object hs
      · exact made_beginMember hl membersMade_nil hs h
  | colon members name outer =>
      obtain ⟨hopen, houter⟩ := hs
      rw [State.step] at h
      split at h
      · cases h
        exact List.forall_mem_cons.mpr ⟨hopen, houter⟩
      · cases h
  | moreMembers members outer =>
      obtain ⟨hmembers, houter⟩ := hs
      rw [State.step] at h
      split at h
      · cases h
        exact ⟨hmembers, houter⟩
      · cases h
        -- Of members with one name all but one are dropped; the others stay as they were.
        have hcollected : MembersMade P (collect members.reverse) := fun e he =>
          hmembers e (List.mem_reverse.mp (mem_of_mem_collect he))
        exact made_after hcollected.object houter
      · cases h

theorem made_run (hs : s.Made P) (hls : ∀ l ∈ ls, l.token.Brings P)
    (h : s.run depth ls = .ok v) : v.Made P := by
  induction ls generalizing s with
  | nil =>
      cases s <;> cases h
      exact hs
  | cons l rest ih =>
      obtain ⟨hl, hrest⟩ := List.forall_mem_cons.mp hls
      obtain ⟨s', hstep, hrun⟩ := Result.bind_eq_ok_iff.mp h
      exact ih (made_step hs hl hstep) hrest hrun

/-- A document that is read is made of what its tokens bring. -/
theorem made_of_read (h : read depth t = .ok v) (hP : ∀ l ∈ tokens t, l.token.Brings P) :
    v.Made P := by
  have hrun := Result.mapError_eq_ok_iff.mp h
  exact made_run (s := .value []) (fun f hf => absurd hf List.not_mem_nil) hP hrun

end Machine

/-! ## Strict documents -/

section Strict

variable {bytes : Bytes} {token : Token} {t : Text} {v : Json}

theorem brings_scalar (h : token.isScalar = true) : token.Brings fun v => v.isScalar = true := by
  intro v hv
  cases token <;> cases hv <;> exact h

theorem exists_read_of_strict (h : ofStrictBytes? bytes = some v) :
    ∃ t, Text.ofUtf8? false bytes = some t ∧ AllScalar (tokens t) ∧
      read maxStrictDepth t = .ok v := by
  obtain ⟨t, ht, h⟩ := Option.bind_eq_some_iff.mp h
  split at h
  · rename_i hscalar
    exact ⟨t, ht, List.all_eq_true.mp hscalar, Result.toOption_eq_some_iff.mp h⟩
  · cases h

/-- A strict document has no surrogates. -/
theorem isScalar_of_strict (h : ofStrictBytes? bytes = some v) : v.isScalar = true := by
  obtain ⟨t, -, hscalar, hread⟩ := exists_read_of_strict h
  exact (made_of_read hread fun l hl => brings_scalar (hscalar l hl)).isScalar

end Strict

end Json

end ImageTrust
