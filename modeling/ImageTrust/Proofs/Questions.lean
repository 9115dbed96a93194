/-
# Questions — what a decision asks, and how often

A decision asks four things of others: the image for the digest of its manifest and for its
stored signatures, the verifier for the claims of a signature, and the check of base layers
for its opinion.  Whether something was asked, and how often, cannot be seen from what the
decision comes to.  So every collaborator gets a notebook here: it does what it did before,
and writes each question down when it is asked (`Image.noting`, `Environment.noting`).

    x.Asks y h qs     from the host `h`, the action `y` of collaborators with a notebook
                      does what `x` does without one, and the notebook has `qs` more

Nothing is assumed of the collaborators.  Key files are no collaborators: that they are left
alone is said by what does not depend on them.
-/
import ImageTrust.Proofs.Judgement

namespace ImageTrust

variable {σ α β : Type}

/-- What can be asked of a collaborator. -/
inductive Question where
  | signatures
  | manifestDigest
  | verify (raw material : Bytes)
  | baseLayer (rule : MatchRule)
deriving DecidableEq

/-! ## Notebooks -/

/-- The host with a notebook in which these questions stand. -/
def Host.noting (h : Host σ) (asked : List Question) : Host (σ × List Question) where
  disk := h.disk
  stages := h.stages
  caches := h.caches
  journal := h.journal
  beyond := (h.beyond, asked)

/-- The host without the notebook. -/
def Host.unnoted (h : Host (σ × List Question)) : Host σ where
  disk := h.disk
  stages := h.stages
  caches := h.caches
  journal := h.journal
  beyond := h.beyond.1

/-- The action after these questions were written down. -/
def Act.noting (qs : List Question) (x : Act σ α) : Act (σ × List Question) α := fun h =>
  ((x h.unnoted).1, (x h.unnoted).2.noting (h.beyond.2 ++ qs))

/-- The image, writing down what it is asked. -/
def Image.noting (image : Image σ) : Image (σ × List Question) where
  reference :=
    { docker := image.reference.docker
      identity := image.reference.identity.noting []
      namespaces := image.reference.namespaces.noting []
      shown := image.reference.shown }
  manifestDigest := image.manifestDigest.noting [.manifestDigest]
  signatures := image.signatures.noting [.signatures]

/-- The collaborators of requirements on this image, writing down what they are asked. -/
def Environment.noting (env : Environment σ) (image : Image σ) :
    Environment (σ × List Question) where
  verifier :=
    { verify := fun raw material => (env.verifier.verify raw material).noting [.verify raw material]
      close := env.verifier.close.noting [] }
  baseLayerCheck := env.baseLayerCheck.map fun check rule _ =>
    (check rule image).noting [.baseLayer rule]

/-- What stands in the notebook after an action that began with an empty one. -/
def Act.questions (y : Act (σ × List Question) α) (h : Host σ) : List Question :=
  (y (h.noting [])).2.beyond.2

namespace Act

/-- From this host the second action does what the first does, and notes these questions. -/
def Asks (x : Act σ α) (y : Act (σ × List Question) α) (h : Host σ) (qs : List Question) : Prop :=
  ∀ asked, y (h.noting asked) = ((x h).1, (x h).2.noting (asked ++ qs))

namespace Asks

variable {x : Act σ α} {y : Act (σ × List Question) α} {f : α → Act σ β}
  {g : α → Act (σ × List Question) β} {h h' : Host σ} {qs qs' : List Question}

theorem questions_eq (hx : x.Asks y h qs) :
    questions y h = qs ∧ (y (h.noting [])).1 = (x h).1 := by
  unfold questions
  rw [hx []]
  exact ⟨rfl, rfl⟩

theorem noted (x : Act σ α) (h : Host σ) (qs : List Question) : x.Asks (x.noting qs) h qs :=
  fun _ => rfl

/-! ### Steps that ask nothing -/

theorem silent (hx : ∀ asked, y (h.noting asked) = ((x h).1, (x h).2.noting asked)) :
    x.Asks y h [] := by
  intro asked
  rw [List.append_nil]
  exact hx asked

theorem pure (a : α) (h : Host σ) : (pure a : Act σ α).Asks (pure a) h [] := silent fun _ => rfl

theorem fail (f : Fault) (h : Host σ) : (fail f : Act σ α).Asks (fail f) h [] :=
  silent fun _ => rfl

theorem ofExcept (r : Except Fault α) (h : Host σ) : (ofExcept r).Asks (ofExcept r) h [] :=
  silent fun _ => rfl

theorem log (level : Level) (channel : Channel) (parts : List Text) (h : Host σ) :
    (log level channel parts : Act σ Unit).Asks (log level channel parts) h [] :=
  silent fun _ => rfl

/-! ### One step after the other -/

theorem ite {p : Prop} [Decidable p] {x' : Act σ α} {y' : Act (σ × List Question) α}
    (hx : x.Asks y h qs) (hx' : x'.Asks y' h qs) :
    (if p then x else x').Asks (if p then y else y') h qs := by
  split
  · exact hx
  · exact hx'

theorem bind_ok {a : α} (hx : x.Asks y h qs) (ha : x h = (.ok a, h'))
    (hf : (f a).Asks (g a) h' qs') : (x >>= f).Asks (y >>= g) h (qs ++ qs') := by
  intro asked
  have hy : y (h.noting asked) = (.ok a, h'.noting (asked ++ qs)) := by rw [hx asked, ha]
  rw [Act.bind_ok hy, hf (asked ++ qs), Act.bind_ok ha, List.append_assoc]

theorem bind_error {e : Fault} (hx : x.Asks y h qs) (he : x h = (.error e, h')) :
    (x >>= f).Asks (y >>= g) h qs := by
  intro asked
  have hy : y (h.noting asked) = (.error e, h'.noting (asked ++ qs)) := by rw [hx asked, he]
  rw [Act.bind_error hy, Act.bind_error he]

/-- What follows asks nothing, whatever comes before. -/
theorem bind_silent (hx : x.Asks y h qs) (hf : ∀ a h, (f a).Asks (g a) h []) :
    (x >>= f).Asks (y >>= g) h qs := by
  cases hresult : x h with
  | mk r h' =>
      cases r with
      | error e => exact hx.bind_error hresult
      | ok a =>
          have hboth := hx.bind_ok hresult (hf a h')
          rwa [List.append_nil] at hboth

theorem outcome (hx : x.Asks y h qs) : (outcome x).Asks (outcome y) h qs := by
  intro asked
  rw [outcome_apply, hx asked]
  rfl

theorem outcome_bind {k : Except Fault α → Act σ β} {l : Except Fault α → Act (σ × List Question) β}
    (hx : x.Asks y h qs) (hk : (k (x h).1).Asks (l (x h).1) (x h).2 qs') :
    (Act.outcome x >>= k).Asks (Act.outcome y >>= l) h (qs ++ qs') :=
  hx.outcome.bind_ok (outcome_apply x h) hk

theorem outcome_silent {k : Except Fault α → Act σ β}
    {l : Except Fault α → Act (σ × List Question) β} (hx : x.Asks y h qs)
    (hk : (k (x h).1).Asks (l (x h).1) (x h).2 []) :
    (Act.outcome x >>= k).Asks (Act.outcome y >>= l) h qs := by
  have hboth := hx.outcome_bind hk
  rwa [List.append_nil] at hboth

end Asks

end Act

/-! ## Judging a signature -/

namespace Image

theorem asks_readSignatures (image : Image σ) (h : Host σ) :
    image.readSignatures.Asks image.noting.readSignatures h [.signatures] := by
  have hasked : image.signatures.Asks image.noting.signatures h [.signatures] := .noted _ _ _
  refine hasked.outcome.bind_silent fun r h' => ?_
  cases r with
  | ok raws => exact .pure _ _
  | error f => exact .ite (.fail _ _) ((Act.Asks.log _ _ _ _).bind_silent fun _ => .fail _)

end Image

/-- What judging a stored signature asks: nothing if the keys cannot be read, otherwise the
verifier, once and for this signature, and then the image for its manifest if there are claims
to compare it with. -/
inductive Judged (raw : Bytes) : List Question → Prop
  | unread : Judged raw []
  | unverified (material : Bytes) : Judged raw [.verify raw material]
  | verified (material : Bytes) : Judged raw [.verify raw material, .manifestDigest]

namespace SignedBy

theorem asks_judge_name (rule : MatchRule) (docker : Option Reference) (signed : Text)
    (h : Host σ) :
    (rule.judge docker signed : Act σ Bool).Asks (rule.judge docker signed) h [] := by
  unfold MatchRule.judge
  dsimp only
  split
  · exact (Act.Asks.log _ _ _ _).bind_silent fun _ => .pure _
  · exact .pure _ _

theorem asks_keyMaterial (s : SignedBy) (h : Host σ) :
    (s.keyMaterial : Act σ Bytes).Asks s.keyMaterial h [] := by
  refine .silent fun asked => ?_
  rw [keyMaterial_apply, keyMaterial_apply]
  rfl

/-- The verifier is asked once the keys are read, and if they are not, that is the fault. -/
theorem asks_claims (s : SignedBy) (image : Image σ) (raw : Bytes) (env : Environment σ)
    (h : Host σ) :
    (∃ f, (do env.verifier.verify raw (← s.keyMaterial) : Act σ Signature) h = (.error f, h) ∧
      (do env.verifier.verify raw (← s.keyMaterial) : Act σ Signature).Asks
        (do (env.noting image).verifier.verify raw (← s.keyMaterial)) h []) ∨
    ∃ material, (do env.verifier.verify raw (← s.keyMaterial) : Act σ Signature).Asks
      (do (env.noting image).verifier.verify raw (← s.keyMaterial)) h [.verify raw material] := by
  have hkeys := s.keyMaterial_apply h
  cases hmaterial : s.materialOn h.disk with
  | error f =>
      rw [hmaterial] at hkeys
      exact .inl ⟨f, Act.bind_error hkeys _, (asks_keyMaterial s h).bind_error hkeys⟩
  | ok material =>
      rw [hmaterial] at hkeys
      exact .inr ⟨material, (asks_keyMaterial s h).bind_ok hkeys (.noted _ _ _)⟩

theorem asks_verified (s : SignedBy) (image : Image σ) (raw : Bytes) (env : Environment σ)
    (h : Host σ) :
    ∃ qs, Judged raw qs ∧
      (s.verified image raw env).Asks (s.verified image.noting raw (env.noting image)) h qs := by
  rcases s.asks_claims image raw env h with ⟨f, hfails, hasks⟩ | ⟨material, hasks⟩
  · refine ⟨[], .unread, ?_⟩
    refine hasks.outcome_silent ?_
    rw [hfails]
    exact .fail _ _
  · cases hclaims : (do env.verifier.verify raw (← s.keyMaterial) : Act σ Signature) h with
    | mk r h₁ =>
        cases r with
        | error f =>
            refine ⟨_, .unverified material, ?_⟩
            refine hasks.outcome_silent ?_
            rw [hclaims]
            exact .fail _ _
        | ok signature =>
            refine ⟨_, .verified material, ?_⟩
            show Act.Asks _ _ h ([.verify raw material] ++ [.manifestDigest])
            refine hasks.outcome_bind ?_
            rw [hclaims]
            dsimp only [Act.pure_bind]
            have hdigest : image.manifestDigest.Asks image.noting.manifestDigest h₁
                [.manifestDigest] := .noted _ _ _
            refine hdigest.outcome.bind_silent fun r h₂ => ?_
            cases r with
            | error f => exact .fail _ _
            | ok digest =>
                dsimp only [Act.pure_bind]
                refine .ite (.fail _ _) ?_
                refine (asks_judge_name _ _ _ _).bind_silent fun accepted h₃ => ?_
                exact .ite (.pure _ _) (.fail _ _)

theorem asks_judge (s : SignedBy) (image : Image σ) (raw : Bytes) (env : Environment σ)
    (h : Host σ) :
    ∃ qs, Judged raw qs ∧
      (s.judge image raw env).Asks (s.judge image.noting raw (env.noting image)) h qs := by
  obtain ⟨qs, hjudged, hasks⟩ := s.asks_verified image raw env h
  refine ⟨qs, hjudged, hasks.outcome.bind_silent fun r h' => ?_⟩
  cases r with
  | ok signature => exact .pure _ _
  | error f => exact .ite ((Act.Asks.log _ _ _ _).bind_silent fun _ => .pure _) (.fail _ _)

end SignedBy

end ImageTrust
