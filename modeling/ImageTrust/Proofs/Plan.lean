/-
# Plans — actions cut into steps

An action leads from one host to another in one go.  Callers that share contexts take
turns in between, so what they can do to each other depends on how their actions fall
apart.  A plan is an action cut into steps: a tree with one step at each node and a branch
for each result of it.  Four kinds of steps concern contexts,

  check-out   a decision begins, unless the context is not ready
  check-in    it ends
  verify      the context's verifier is asked for claims
  destroy     the context goes, unless it is not ready

and every other step leaves stages and verifiers alone.  A plan knows which contexts are
checked out before it and after it; only who has checked a context out can ask its verifier
or check it in.

The plans here are those of the operations of a context, cut as finely as they are written,
and of whatever their callers make of them.
-/
import ImageTrust.Context
import ImageTrust.Proofs.Action

namespace ImageTrust

variable {σ : Type}

/-- The action leaves the stages of contexts and the keys of verifiers alone. -/
def Act.Innocent {α : Type} (x : Act σ α) : Prop :=
  ∀ h, (x h).2.stages = h.stages ∧ (x h).2.caches = h.caches

/-- The context has the library's verifier, and shares it with no other context. -/
def Context.Shipped (c : Context σ) : Prop :=
  ∃ room, c.environment.verifier = Verifier.ed25519 room c.number

/-- The plans of an action that begins with the first list of contexts checked out, the latest
first, and ends with the second. -/
inductive Plan : List Nat → List Nat → {α : Type} → Act σ α → Type 1
  | done {held : List Nat} {α : Type} {x : Act σ α} (r : Except Fault α) (hx : x = Act.ofExcept r) :
      Plan held held x
  | quiet {held last : List Nat} {α β : Type} {x : Act σ α} (y : Act σ β) (hy : y.Innocent)
      (k : Except Fault β → Act σ α) (hx : x = Act.outcome y >>= k)
      (next : ∀ r, Plan held last (k r)) : Plan held last x
  | verify {held last : List Nat} {α : Type} {x : Act σ α} (c : Context σ) (hc : c.Shipped)
      (hheld : c.number ∈ held) (raw material : Bytes) (k : Except Fault Signature → Act σ α)
      (hx : x = Act.outcome (c.environment.verifier.verify raw material) >>= k)
      (next : ∀ r, Plan held last (k r)) : Plan held last x
  | checkOut {held last : List Nat} {α : Type} {x : Act σ α} (c : Context σ)
      (k : Except Fault Unit → Act σ α) (hx : x = Act.outcome (c.changeStage .ready .inUse) >>= k)
      (next : Plan (c.number :: held) last (k (.ok ())))
      (refused : ∀ f, Plan held last (k (.error f))) : Plan held last x
  | checkIn {held last : List Nat} {α : Type} {x : Act σ α} (c : Context σ)
      (k : Except Fault Unit → Act σ α) (hx : x = Act.outcome (c.changeStage .inUse .ready) >>= k)
      (next : ∀ r, Plan held last (k r)) : Plan (c.number :: held) last x
  | destroy {held last : List Nat} {α : Type} {x : Act σ α} (c : Context σ) (hc : c.Shipped)
      (k : Except Fault Unit → Act σ α) (hx : x = Act.outcome c.destroy >>= k)
      (next : ∀ r, Plan held last (k r)) : Plan held last x

/-! ## Putting plans together -/

variable {α β : Type}

namespace Act

/-- What follows an action, for each of its results: after a fault, nothing. -/
def orFail (f : α → Act σ β) : Except Fault α → Act σ β
  | .ok a => f a
  | .error e => fail e

theorem bind_eq_outcome (x : Act σ α) (f : α → Act σ β) : x >>= f = outcome x >>= orFail f := by
  funext h
  rw [bind_apply, bind_ok (outcome_apply x h)]
  cases x h with
  | mk r h' => cases r <;> rfl

end Act

namespace Plan

variable {held mid last : List Nat} {x y : Act σ α}

/-- A plan is one of every action that is the same. -/
def cast (hxy : x = y) (p : Plan held last x) : Plan held last y := hxy ▸ p

/-- One plan and then, whatever comes of it, another. -/
def andThen {k : Except Fault α → Act σ β} :
    {held : List Nat} → {x : Act σ α} → Plan held mid x → (∀ r, Plan mid last (k r)) →
      Plan held last (Act.outcome x >>= k)
  | _, _, .done r rfl, q => q r
  | _, _, .quiet y hy k' rfl next, q =>
    .quiet y hy (fun r => Act.outcome (k' r) >>= k) rfl fun r => (next r).andThen q
  | _, _, .verify c hc hheld raw material k' rfl next, q =>
    .verify c hc hheld raw material (fun r => Act.outcome (k' r) >>= k) rfl fun r =>
      (next r).andThen q
  | _, _, .checkOut c k' rfl next refused, q =>
    .checkOut c (fun r => Act.outcome (k' r) >>= k) rfl (next.andThen q) fun f =>
      (refused f).andThen q
  | _, _, .checkIn c k' rfl next, q =>
    .checkIn c (fun r => Act.outcome (k' r) >>= k) rfl fun r => (next r).andThen q
  | _, _, .destroy c hc k' rfl next, q =>
    .destroy c hc (fun r => Act.outcome (k' r) >>= k) rfl fun r => (next r).andThen q

/-- One plan and then another that goes on with its value. -/
def bind {f : α → Act σ β} (p : Plan held last x) (q : ∀ a, Plan last last (f a)) :
    Plan held last (x >>= f) :=
  (p.andThen (k := Act.orFail f) fun
    | .ok a => q a
    | .error e => .done (.error e) rfl).cast (Act.bind_eq_outcome x f).symm

def outcome (p : Plan held last x) : Plan held last (Act.outcome x) :=
  (p.andThen (k := fun r => Act.ofExcept (.ok r)) fun r => .done (.ok r) rfl).cast rfl

/-- A single step that leaves stages and verifiers alone. -/
def act (hx : x.Innocent) : Plan held held x := .quiet x hx Act.ofExcept rfl fun r => .done r rfl

def pure (a : α) : Plan held held (Pure.pure a : Act σ α) := .done (.ok a) rfl

def fail (f : Fault) : Plan held held (Act.fail f : Act σ α) := .done (.error f) rfl

def ofExcept (r : Except Fault α) : Plan held held (Act.ofExcept r : Act σ α) := .done r rfl

def log (level : Level) (channel : Channel) (parts : List Text) :
    Plan held held (Act.log level channel parts : Act σ Unit) := .act fun _ => ⟨rfl, rfl⟩

def host : Plan held held (Act.host : Act σ (Host σ)) := .act fun _ => ⟨rfl, rfl⟩

def ite {P : Prop} [Decidable P] (p : Plan held last x) (q : Plan held last y) :
    Plan held last (if P then x else y) :=
  if h : P then p.cast (if_pos h).symm else q.cast (if_neg h).symm

/-! ## The life of a context -/

/-- A decision: a check-out, its body, and a check-in. A check-out that fails is the end. -/
def checkedOut (c : Context σ) (body : Plan (c.number :: held) (c.number :: held) x) :
    Plan held held (c.checkedOut x) :=
  .checkOut c
    (Act.orFail fun _ => Act.outcome x >>= fun r =>
      c.changeStage .inUse .ready >>= fun _ => Act.ofExcept r)
    (Act.bind_eq_outcome _ _)
    (body.andThen fun r =>
      .checkIn c (Act.orFail fun _ => Act.ofExcept r) (Act.bind_eq_outcome _ _) fun
        | .ok _ => .done r rfl
        | .error e => .done (.error e) rfl)
    fun f => .done (.error f) rfl

def destroyed (c : Context σ) (hc : c.Shipped) : Plan held held c.destroy :=
  .destroy c hc Act.ofExcept rfl fun r => .done r rfl

end Plan

/-! ## Judging -/

/-- A plan of each question that a decision asks an image. -/
structure Image.Plans (image : Image σ) (held : List Nat) : Type 1 where
  identity : Plan held held image.reference.identity
  namespaces : Plan held held image.reference.namespaces
  manifestDigest : Plan held held image.manifestDigest
  signatures : Plan held held image.signatures

/-- A plan of each question that a context's check of base layers may be asked. -/
def Context.CheckPlans (c : Context σ) (image : Image σ) (held : List Nat) : Type 1 :=
  ∀ check, c.environment.baseLayerCheck = some check → ∀ identity,
    Plan held held (check identity image)

namespace Plan

variable {held : List Nat}

variable {c : Context σ} {image : Image σ}

def judgeName (rule : MatchRule) (docker : Option Reference) (signed : Text) :
    Plan held held (rule.judge docker signed : Act σ Bool) := by
  unfold MatchRule.judge
  dsimp only
  split
  · exact .bind (.log _ _ _) fun _ => .pure _
  · exact .pure _

def keyMaterial (s : SignedBy) : Plan held held (s.keyMaterial : Act σ Bytes) := by
  unfold SignedBy.keyMaterial
  cases s.keys with
  | data t =>
      dsimp only
      cases t.toUtf8? with
      | none => exact .fail _
      | some bytes => exact .pure _
  | path p =>
      refine .bind .host fun h => ?_
      cases h.disk.read (Path.ofText p) with
      | ok bytes => exact .pure _
      | error why => cases why <;> exact .fail _

def readSignatures (p : Plan held held image.signatures) : Plan held held image.readSignatures := by
  refine .bind p.outcome fun r => ?_
  cases r with
  | ok raws => exact .pure _
  | error f => exact .ite (.fail _) (.bind (.log _ _ _) fun _ => .fail _)

def verified (s : SignedBy) (raw : Bytes) (hc : c.Shipped) (hheld : c.number ∈ held)
    (p : image.Plans held) : Plan held held (s.verified image raw c.environment) := by
  have verify : ∀ material, Plan held held (c.environment.verifier.verify raw material) :=
    fun material => .verify c hc hheld raw material Act.ofExcept rfl fun r => .done r rfl
  refine .bind (.outcome (.bind (keyMaterial s) verify)) fun r => ?_
  cases r with
  | error f => exact .fail _
  | ok signature =>
      dsimp only [Act.pure_bind]
      refine .bind p.manifestDigest.outcome fun r => ?_
      cases r with
      | error f => exact .fail _
      | ok digest =>
          dsimp only [Act.pure_bind]
          exact .ite (.fail _) (.bind (judgeName _ _ _) fun _ => .ite (.pure _) (.fail _))

def judgeSigned (s : SignedBy) (raw : Bytes) (hc : c.Shipped) (hheld : c.number ∈ held)
    (p : image.Plans held) : Plan held held (s.judge image raw c.environment) := by
  refine .bind (verified s raw hc hheld p).outcome fun r => ?_
  cases r with
  | ok signature => exact .pure _
  | error f => exact .ite (.bind (.log _ _ _) fun _ => .pure _) (.fail _)

def judge (r : Requirement) (raw : Bytes) (hc : c.Shipped) (hheld : c.number ∈ held)
    (p : image.Plans held) : Plan held held (r.judge image raw c.environment) :=
  match r with
  | .reject => .pure _
  | .insecureAcceptAnything => .pure _
  | .signedBy s => judgeSigned s raw hc hheld p
  | .signedBaseLayer _ => .pure _

def refusals (s : SignedBy) (hc : c.Shipped) (hheld : c.number ∈ held) (p : image.Plans held) :
    ∀ raws, Plan held held (s.refusals image c.environment raws)
  | [] => .pure _
  | raw :: rest => by
      refine .bind (judgeSigned s raw hc hheld p) fun v => ?_
      cases SignedBy.refusal? v with
      | none => exact .pure _
      | some f => exact .bind (refusals s hc hheld p rest) fun _ => .pure _

def runSigned (s : SignedBy) (hc : c.Shipped) (hheld : c.number ∈ held) (p : image.Plans held) :
    Plan held held (s.run image c.environment) := by
  refine .bind (readSignatures p.signatures).outcome fun r => ?_
  cases r with
  | error f => exact .ite (.pure _) (.fail _)
  | ok raws =>
      cases raws with
      | nil => exact .pure _
      | cons raw raws =>
          refine .bind (refusals s hc hheld p (raw :: raws)) fun r => ?_
          cases r with
          | none => exact .pure _
          | some fs => exact .pure _

def runBaseLayer (identity : MatchRule) (q : c.CheckPlans image held) :
    Plan held held (Requirement.runBaseLayer identity image c.environment) := by
  unfold Requirement.runBaseLayer
  cases hcheck : c.environment.baseLayerCheck with
  | none => exact .pure _
  | some check =>
      refine .bind (q check hcheck identity).outcome fun r => ?_
      cases r with
      | ok d => exact .pure _
      | error f => exact .ite (.pure _) (.fail _)

def run (r : Requirement) (hc : c.Shipped) (hheld : c.number ∈ held) (p : image.Plans held)
    (q : c.CheckPlans image held) : Plan held held (r.run image c.environment) :=
  match r with
  | .reject => .pure _
  | .insecureAcceptAnything => .pure _
  | .signedBy s => runSigned s hc hheld p
  | .signedBaseLayer identity => runBaseLayer identity q

/-! ## Deciding -/

def resolve (policy : Policy) (identity : Text) (namespaces : List Text) :
    Plan held held (policy.resolve identity namespaces : Act σ Policy.Section) := by
  unfold Policy.resolve
  refine .ite (.fail _) ?_
  cases policy.sectionFor identity namespaces with
  | default => exact .bind (.log _ _ _) fun _ => .pure _
  | specific scope =>
      exact .ite (.bind (.log _ _ _) fun _ => .pure _) (.bind (.log _ _ _) fun _ => .pure _)

def requirementsOf (p : image.Plans held) : Plan held held (c.requirementsOf image.reference) := by
  refine .bind (.bind p.identity.outcome fun r => ?_) fun _ => .pure _
  cases r with
  | error f => exact .ite (.fail _) (.fail _)
  | ok identity => exact .ite (.fail _) (.bind p.namespaces fun _ => resolve _ _ _)

def acceptedClaims (raw : Bytes) (hc : c.Shipped) (hheld : c.number ∈ held)
    (p : image.Plans held) :
    ∀ rs found, Plan held held (c.acceptedClaims image raw found rs)
  | [], _ => .pure _
  | r :: rest, found => by
      refine .bind (judge r raw hc hheld p) fun v => ?_
      cases v with
      | accepted s => exact acceptedClaims raw hc hheld p rest _
      | rejected f => exact .bind (.log _ _ _) fun _ => .pure _
      | unknown => exact acceptedClaims raw hc hheld p rest _
      | unnamed t => exact acceptedClaims raw hc hheld p rest _

def acceptedAmong (rs : List Requirement) (hc : c.Shipped) (hheld : c.number ∈ held)
    (p : image.Plans held) : ∀ raws, Plan held held (c.acceptedAmong image rs raws)
  | [] => .pure _
  | raw :: rest => by
      refine .bind (acceptedClaims raw hc hheld p rs none) fun found => ?_
      cases found with
      | none => exact acceptedAmong rs hc hheld p rest
      | some s => exact .bind (acceptedAmong rs hc hheld p rest) fun _ => .pure _

def acceptedSignatures (hc : c.Shipped) (hheld : c.number ∈ held) (p : image.Plans held) :
    Plan held held (c.acceptedSignatures image) := by
  refine .bind (requirementsOf p) fun rs => .bind (readSignatures p.signatures) fun raws => ?_
  exact .ite (.pure _)
    (.bind (acceptedAmong rs hc hheld p raws) fun _ => .bind (.log _ _ _) fun _ => .pure _)

def firstDenial (hc : c.Shipped) (hheld : c.number ∈ held) (p : image.Plans held)
    (q : c.CheckPlans image held) : ∀ rs, Plan held held (c.firstDenial image rs)
  | [] => .pure _
  | r :: rest => by
      refine .bind (run r hc hheld p q) fun d => ?_
      cases d with
      | allow => exact firstDenial hc hheld p q rest
      | deny f => exact .pure _

def runningDecision (hc : c.Shipped) (hheld : c.number ∈ held) (p : image.Plans held)
    (q : c.CheckPlans image held) : Plan held held (c.runningDecision image) :=
  .bind (requirementsOf p) fun rs => .ite (.pure _) (firstDenial hc hheld p q rs)

/-! ## The operations of a context -/

def signatures (hc : c.Shipped) (p : image.Plans (c.number :: held)) :
    Plan held held (c.signaturesWithAcceptedAuthor image) :=
  .checkedOut c (acceptedSignatures hc List.mem_cons_self p)

def running (hc : c.Shipped) (p : image.Plans (c.number :: held))
    (q : c.CheckPlans image (c.number :: held)) : Plan held held (c.isRunningAllowed image) := by
  have body := runningDecision hc List.mem_cons_self p q
  refine .bind (Plan.checkedOut c body).outcome fun r => ?_
  cases r with
  | ok d => cases d <;> exact .bind (.log _ _ _) fun _ => .pure _
  | error f => exact .ite (.bind (.log _ _ _) fun _ => .pure _) (.fail _)

end Plan

end ImageTrust
