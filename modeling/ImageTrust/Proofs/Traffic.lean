/-
# Traffic — callers taking turns

A caller is an action that uses contexts by their operations only: it asks for signatures
with an accepted author, for permission to run, destroys contexts, and does other things in
between that leave stages and verifiers alone (`Caller`).  The images it hands over and the
checks of base layers are callers themselves, so a decision may begin another one on any
context, its own included.

Any number of callers share a host.  A run starts callers at any time and advances one of
them by one step at a time, in any order; what happens to contexts on the way is the list
of its events (`Run`).

  began, ended       a check-out and a check-in
  refused            a check-out or a destruction that the context was not ready for
  lost               a check-in that came too late
  verified           the context's verifier was asked
  retired, closed    the two halves of a destruction, with time for others in between

A step takes its part out of the caller's action and leaves the rest (`Thread.action_of_step`),
so that a caller that is advanced alone comes to what its action comes to (`Thread.alone`).
-/
import ImageTrust.Proofs.Plan

namespace ImageTrust

variable {σ : Type}

/-! ## Callers -/

/-- The actions that use contexts by their operations only. -/
inductive Caller : {α : Type} → Act σ α → Type 1
  | quiet {α : Type} {x : Act σ α} (hx : x.Innocent) : Caller x
  | bind {α β : Type} {x : Act σ α} {f : α → Act σ β} (first : Caller x)
      (next : ∀ a, Caller (f a)) : Caller (x >>= f)
  | outcome {α : Type} {x : Act σ α} (inner : Caller x) : Caller (Act.outcome x)
  | signatures {c : Context σ} {image : Image σ} (hc : c.Shipped)
      (identity : Caller image.reference.identity) (namespaces : Caller image.reference.namespaces)
      (manifestDigest : Caller image.manifestDigest) (stored : Caller image.signatures) :
      Caller (c.signaturesWithAcceptedAuthor image)
  | running {c : Context σ} {image : Image σ} (hc : c.Shipped)
      (identity : Caller image.reference.identity) (namespaces : Caller image.reference.namespaces)
      (manifestDigest : Caller image.manifestDigest) (stored : Caller image.signatures)
      (check : ∀ f, c.environment.baseLayerCheck = some f → ∀ rule, Caller (f rule image)) :
      Caller (c.isRunningAllowed image)
  | destroy {c : Context σ} (hc : c.Shipped) : Caller c.destroy

namespace Caller

/-- An action after which a context is destroyed in any case. -/
def disposing {α : Type} {x : Act σ α} {c : Context σ} (hc : c.Shipped) (body : Caller x) :
    Caller (c.disposing x) :=
  .bind body.outcome fun _ => .bind (.destroy hc) fun _ => .quiet fun _ => ⟨rfl, rfl⟩

/-- A caller falls apart into steps whatever is checked out around it. -/
def plan : {α : Type} → {x : Act σ α} → Caller x → (held : List Nat) → Plan held held x
  | _, _, .quiet hx, _ => .act hx
  | _, _, .bind first next, held => .bind (first.plan held) fun a => (next a).plan held
  | _, _, .outcome inner, held => (inner.plan held).outcome
  | _, _, .signatures hc identity namespaces manifestDigest stored, _ =>
    .signatures hc ⟨identity.plan _, namespaces.plan _, manifestDigest.plan _, stored.plan _⟩
  | _, _, .running hc identity namespaces manifestDigest stored check, _ =>
    .running hc ⟨identity.plan _, namespaces.plan _, manifestDigest.plan _, stored.plan _⟩
      fun f hf rule => (check f hf rule).plan _
  | _, _, .destroy hc, _ => .destroyed _ hc

end Caller

/-! ## Threads -/

/-- What happens to the context with this number. -/
inductive Event where
  | quiet
  | began (n : Nat)
  | ended (n : Nat)
  | refused (n : Nat) (why : Fault)
  | lost (n : Nat) (why : Fault)
  | verified (n : Nat)
  | retired (n : Nat)
  | closed (n : Nat)
deriving DecidableEq

/-- The rest of a caller: a plan, or the second half of a destruction and a plan after it. -/
inductive Thread (σ α : Type) : Type 1
  | going (held : List Nat) {last : List Nat} {x : Act σ α} (plan : Plan held last x)
  | closing (held : List Nat) {last : List Nat} (c : Context σ) (hc : c.Shipped)
      (k : Except Fault Unit → Act σ α) (next : ∀ r, Plan held last (k r))

namespace Thread

variable {α : Type}

/-- The contexts that the thread has checked out. -/
def held : Thread σ α → List Nat
  | .going held _ => held
  | .closing held .. => held

/-- The contexts whose verifiers the thread still has to close; there is one at most. -/
def closings : Thread σ α → List Nat
  | .going .. => []
  | .closing _ c .. => [c.number]

/-- What is left of the thread's action. -/
def action : Thread σ α → Act σ α
  | .going (x := x) .. => x
  | .closing _ c _ k _ => Act.outcome c.environment.verifier.close >>= k

/-- One step of a thread, unless it is done: what happens, and the host and the thread
afterwards. -/
def step (h : Host σ) : Thread σ α → Option (Event × Host σ × Thread σ α)
  | .going _ (.done ..) => none
  | .going held (.quiet y _ _ _ next) =>
    let (r, h) := y h
    some (.quiet, h, .going held (next r))
  | .going held (.verify c _ _ raw material _ _ next) =>
    let (r, h) := c.environment.verifier.verify raw material h
    some (.verified c.number, h, .going held (next r))
  | .going held (.checkOut c _ _ next refused) =>
    match c.changeStage .ready .inUse h with
    | (.ok (), h) => some (.began c.number, h, .going (c.number :: held) next)
    | (.error f, h) => some (.refused c.number f, h, .going held (refused f))
  | .going _ (.checkIn c _ _ next) =>
    match c.changeStage .inUse .ready h with
    | (.ok (), h) => some (.ended c.number, h, .going _ (next (.ok ())))
    | (.error f, h) => some (.lost c.number f, h, .going _ (next (.error f)))
  | .going held (.destroy c hc k _ next) =>
    match c.changeStage .ready .destroyed h with
    | (.ok (), h) => some (.retired c.number, h, .closing held c hc k next)
    | (.error f, h) => some (.refused c.number f, h, .going held (next (.error f)))
  | .closing held c _ _ next =>
    let (r, h) := c.environment.verifier.close h
    some (.closed c.number, h, .going held (next r))

/-- A step takes its part out of the thread's action and leaves the rest. -/
theorem action_of_step {h h' : Host σ} {t t' : Thread σ α} {e : Event}
    (hstep : t.step h = some (e, h', t')) : t.action h = t'.action h' := by
  cases t with
  | closing held c hc k next =>
      simp only [step, Option.some.injEq, Prod.mk.injEq] at hstep
      obtain ⟨rfl, rfl, rfl⟩ := hstep
      rfl
  | going held plan =>
      cases plan with
      | done r hx => simp only [step, reduceCtorEq] at hstep
      | quiet y hy k hx next =>
          simp only [step, Option.some.injEq, Prod.mk.injEq] at hstep
          obtain ⟨rfl, rfl, rfl⟩ := hstep
          exact congrFun hx h
      | verify c hc hheld raw material k hx next =>
          simp only [step, Option.some.injEq, Prod.mk.injEq] at hstep
          obtain ⟨rfl, rfl, rfl⟩ := hstep
          exact congrFun hx h
      | checkOut c k hx next refused =>
          simp only [step] at hstep
          rw [action, hx, Act.outcome_bind_apply]
          split at hstep <;> rename_i hout <;> cases hstep <;> rw [hout] <;> rfl
      | checkIn c k hx next =>
          simp only [step] at hstep
          rw [action, hx, Act.outcome_bind_apply]
          split at hstep <;> rename_i hin <;> cases hstep <;> rw [hin] <;> rfl
      | destroy c hc k hx next =>
          simp only [step] at hstep
          rw [action, hx, Act.outcome_bind_apply]
          split at hstep <;> rename_i hout <;> cases hstep
          · rw [Context.destroy, Act.bind_ok hout]
            rfl
          · rw [Context.destroy, Act.bind_error hout]
            rfl

end Thread

/-! ## Runs -/

/-- The callers under way. -/
abbrev Pool (σ : Type) : Type 1 := List ((α : Type) × Thread σ α)

/-- One of the callers does a step. -/
inductive Turn : Host σ → Pool σ → Event → Host σ → Pool σ → Prop
  | step {h h' : Host σ} {e : Event} (before after : Pool σ) {α : Type} {t t' : Thread σ α}
      (hstep : t.step h = some (e, h', t')) :
      Turn h (before ++ ⟨α, t⟩ :: after) e h' (before ++ ⟨α, t'⟩ :: after)

/-- Callers start and take turns. -/
inductive Run : Host σ → Pool σ → List Event → Host σ → Pool σ → Prop
  | rest {h : Host σ} {ts : Pool σ} : Run h ts [] h ts
  | call {h h' : Host σ} {ts ts' : Pool σ} {events : List Event} {α : Type} {x : Act σ α}
      (caller : Caller x) (more : Run h (⟨α, .going [] (caller.plan [])⟩ :: ts) events h' ts') :
      Run h ts events h' ts'
  | turn {h h' h'' : Host σ} {ts ts' ts'' : Pool σ} {e : Event} {events : List Event}
      (first : Turn h ts e h' ts') (more : Run h' ts' events h'' ts'') :
      Run h ts (e :: events) h'' ts''

/-- A step of a thread that is alone, and a run of the rest up to what its action comes to. -/
theorem Run.of_step {h h' : Host σ} {α : Type} {last : List Nat} {t t' : Thread σ α} {e : Event}
    (hstep : t.step h = some (e, h', t'))
    (hrest : ∃ events, Run h' [⟨α, t'⟩] events (t'.action h').2
      [⟨α, .going last (.done (t'.action h').1 rfl)⟩]) :
    ∃ events, Run h [⟨α, t⟩] events (t.action h).2
      [⟨α, .going last (.done (t.action h).1 rfl)⟩] := by
  rw [Thread.action_of_step hstep]
  obtain ⟨events, more⟩ := hrest
  exact ⟨e :: events, .turn (.step [] [] hstep) more⟩

/-- A thread that takes all the turns ends with what its action comes to. -/
theorem Thread.alone {α : Type} : {held last : List Nat} → {x : Act σ α} →
    (plan : Plan held last x) → (h : Host σ) →
      ∃ events, Run h [⟨α, .going held plan⟩] events (x h).2
        [⟨α, .going last (.done (x h).1 rfl)⟩]
  | _, _, _, .done r rfl, h => ⟨[], .rest⟩
  | _, _, _, .quiet y hy k hx next, h => Run.of_step rfl (alone (next (y h).1) (y h).2)
  | _, _, _, .verify c hc hheld raw material k hx next, h =>
    Run.of_step rfl (alone (next _) (c.environment.verifier.verify raw material h).2)
  | _, _, _, .checkOut c k hx next refused, h => by
      cases hout : c.changeStage .ready .inUse h with
      | mk r h' =>
          cases r with
          | ok _ => exact Run.of_step (by rw [step, hout]) (alone next h')
          | error f => exact Run.of_step (by rw [step, hout]) (alone (refused f) h')
  | _, _, _, .checkIn c k hx next, h => by
      cases hin : c.changeStage .inUse .ready h with
      | mk r h' =>
          cases r with
          | ok _ => exact Run.of_step (by rw [step, hin]) (alone (next (.ok ())) h')
          | error f => exact Run.of_step (by rw [step, hin]) (alone (next (.error f)) h')
  | _, _, _, .destroy c hc k hx next, h => by
      cases hout : c.changeStage .ready .destroyed h with
      | mk r h' =>
          cases r with
          | ok _ =>
              -- Two steps, between which a caller that is not alone could be interrupted.
              refine Run.of_step (by rw [step, hout]) ?_
              exact Run.of_step rfl (alone (next _) (c.environment.verifier.close h').2)
          | error f => exact Run.of_step (by rw [step, hout]) (alone (next (.error f)) h')

end ImageTrust
