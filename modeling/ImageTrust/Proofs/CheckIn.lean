/-
# Check-in — what a decision comes to when its context was moved

A decision gives its context back when it has been evaluated, and the context may have been
moved by then: the image, the verifier and the check of base layers are asked meanwhile, and any
of them may try to move it, by a decision that it begins itself or directly.

    evaluated, context in use        the outcome of the evaluation; the context is ready
    evaluated, context at stage s    the fault of the check-in; the context stays at s

That the evaluation has come to a list, to a permission or to a fault of its own does not count
in the second line (`check_in_decides`).  Asked for signatures, the context fails there; asked
for permission, it denies, as a fault of a check-in is of the policy's own kind.

Which line it is follows from the attempts to move the context (`Context.Tries`).  An attempt
that fails changes nothing, so the stage is what is left when they are made in a row
(`Context.Tries.stage_eq`), and a decision inside of another is two attempts more than its
evaluation, or one if it is refused.
-/
import ImageTrust.Proofs.ShortCircuit

namespace ImageTrust

variable {σ α : Type}

/-! ## Attempts -/

/-- An attempt to move a context: the stage it has to be in, and the one it is moved to. -/
structure Move where
  expected : Stage
  new : Stage
deriving DecidableEq

/-- The stage after an attempt. -/
def Stage.moved (s : Stage) (m : Move) : Stage := if s = m.expected then m.new else s

/-- The stage after these attempts, one after the other. -/
def Stage.afterAll (s : Stage) (ms : List Move) : Stage := ms.foldl Stage.moved s

@[simp] theorem Stage.afterAll_nil (s : Stage) : s.afterAll [] = s := rfl

@[simp] theorem Stage.afterAll_cons (s : Stage) (m : Move) (ms : List Move) :
    s.afterAll (m :: ms) = (s.moved m).afterAll ms := rfl

theorem Stage.afterAll_append (s : Stage) (ms ms' : List Move) :
    s.afterAll (ms ++ ms') = (s.afterAll ms).afterAll ms' := List.foldl_append

namespace Context

/-- Why a check-in fails at this stage. -/
def lost (s : Stage) : Fault := .contextState Stage.inUse.name s.name Stage.ready.name

theorem changeStage_eq_error_iff (c : Context σ) {expected new : Stage} {h h' : Host σ}
    {f : Fault} :
    c.changeStage expected new h = (.error f, h') ↔
      h.stages c.number ≠ expected ∧
        f = .contextState expected.name (h.stages c.number).name new.name ∧ h' = h := by
  rw [changeStage_apply]
  by_cases hstage : h.stages c.number = expected
  · simp [hstage]
  · simp [hstage, eq_comm]

theorem changeStage_stages (c : Context σ) (m : Move) (h : Host σ) :
    (c.changeStage m.expected m.new h).2.stages c.number = (h.stages c.number).moved m := by
  rw [changeStage_apply, Stage.moved]
  split
  · exact Host.moved_stage h c.number m.new
  · rfl

/-- From this host, the action tries to move the context in these ways and in this order, and
leaves its stage alone between the attempts.  It may go by what an attempt came to. -/
inductive Tries (c : Context σ) : {α : Type} → Act σ α → Host σ → List Move → Prop
  | quiet {α : Type} {x : Act σ α} {h : Host σ}
      (still : (x h).2.stages c.number = h.stages c.number) : Tries c x h []
  | attempt {c' : Context σ} (same : c'.number = c.number) (m : Move) (h : Host σ) :
      Tries c (c'.changeStage m.expected m.new) h [m]
  | outcome {α : Type} {x : Act σ α} {h : Host σ} {ms : List Move} (tried : Tries c x h ms) :
      Tries c (Act.outcome x) h ms
  | bind_ok {α β : Type} {x : Act σ α} {f : α → Act σ β} {h h' : Host σ} {a : α}
      {ms ms' : List Move} (first : Tries c x h ms) (done : x h = (.ok a, h'))
      (next : Tries c (f a) h' ms') : Tries c (x >>= f) h (ms ++ ms')
  | bind_error {α β : Type} {x : Act σ α} {f : α → Act σ β} {h h' : Host σ} {e : Fault}
      {ms : List Move} (first : Tries c x h ms) (failed : x h = (.error e, h')) :
      Tries c (x >>= f) h ms

namespace Tries

variable {c c' : Context σ} {x : Act σ α} {body : Act σ α} {h : Host σ} {ms : List Move}

theorem stage_eq (hx : c.Tries x h ms) :
    (x h).2.stages c.number = (h.stages c.number).afterAll ms := by
  induction hx with
  | quiet still => exact still
  | @attempt c' same m h => rw [← same, changeStage_stages, Stage.afterAll_cons, Stage.afterAll_nil]
  | outcome _ ih => exact ih
  | bind_ok _ done _ ih ih' =>
      rw [Act.bind_ok done, ih', Stage.afterAll_append, ← ih, done]
  | bind_error _ failed ih =>
      rw [Act.bind_error failed, ← ih, failed]

/-- A decision on a context that is not ready tries to check it out, and that is all. -/
theorem checkedOut_of_not_ready (same : c'.number = c.number)
    (hstage : h.stages c.number ≠ .ready) :
    c.Tries (c'.checkedOut body) h [⟨.ready, .inUse⟩] := by
  have hrefused : c'.changeStage .ready .inUse h =
      (.error (.contextState Stage.ready.name (h.stages c.number).name Stage.inUse.name), h) := by
    rw [changeStage_apply, same, if_neg hstage]
  exact .bind_error (.attempt same ⟨.ready, .inUse⟩ h) hrefused

/-- A decision on a ready context tries to check it in after all that its evaluation tries. -/
theorem checkedOut_of_ready (same : c'.number = c.number) (hready : h.stages c.number = .ready)
    (hbody : c.Tries body (h.moved c.number .inUse) ms) :
    c.Tries (c'.checkedOut body) h ([⟨.ready, .inUse⟩] ++ (ms ++ [⟨.inUse, .ready⟩])) := by
  have hout : c'.changeStage .ready .inUse h = (.ok (), h.moved c.number .inUse) := by
    rw [changeStage_apply, same, if_pos hready]
  refine .bind_ok (.attempt same ⟨.ready, .inUse⟩ h) hout ?_
  refine .bind_ok hbody.outcome rfl ?_
  -- What follows the check-in only passes the outcome on.
  have hin : c.Tries (c'.changeStage .inUse .ready) (body (h.moved c.number .inUse)).2
      [⟨.inUse, .ready⟩] := .attempt same ⟨.inUse, .ready⟩ _
  cases hdone : c'.changeStage .inUse .ready (body (h.moved c.number .inUse)).2 with
  | mk result h' =>
      cases result with
      | ok done =>
          have hrest : c.Tries (Act.ofExcept (body (h.moved c.number .inUse)).1) h' [] := .quiet rfl
          exact hin.bind_ok hdone hrest
      | error f => exact .bind_error hin hdone

end Tries

/-! ## Operations -/

section Operations

variable {c : Context σ} {image : Image σ} {h h' : Host σ} {body : Act σ α}
  {r : Except Fault α} {s : Stage}

theorem checkedOut_of_inUse (hready : h.stages c.number = .ready)
    (hbody : body (h.moved c.number .inUse) = (r, h')) (hstage : h'.stages c.number = .inUse) :
    c.checkedOut body h = (r, h'.moved c.number .ready) := by
  rw [Context.checkedOut_of_ready c body hready, hbody]
  exact if_pos hstage

theorem checkedOut_of_lost (hready : h.stages c.number = .ready)
    (hbody : body (h.moved c.number .inUse) = (r, h')) (hstage : h'.stages c.number = s)
    (hs : s ≠ .inUse) : c.checkedOut body h = (.error (lost s), h') := by
  subst hstage
  rw [Context.checkedOut_of_ready c body hready, hbody]
  exact if_neg hs

end Operations

/-- A decision on a ready context is evaluated with the context in use, and what comes of it is
settled by the stage after that.  If the context is still in use, or again, the operation has
the outcome of the evaluation, a fault of the policy's own kind told as a denial where it is
about running, and the context is ready.  Otherwise the outcome is lost, whatever it was: there
is the fault of the check-in, or the denial for it, and the context stays where it is.  An
attempt to move a context that fails leaves the whole host as it was, so that stage is what the
attempts come to that were made one after the other. -/
theorem check_in_decides (c : Context σ) (image : Image σ) {h : Host σ}
    (hready : h.stages c.number = .ready) :
    (∀ r h', c.acceptedSignatures image (h.moved c.number .inUse) = (r, h') →
      (h'.stages c.number = .inUse →
        c.signaturesWithAcceptedAuthor image h = (r, h'.moved c.number .ready)) ∧
      ∀ s, h'.stages c.number = s → s ≠ .inUse →
        c.signaturesWithAcceptedAuthor image h = (.error (lost s), h')) ∧
    (∀ r h', c.runningDecision image (h.moved c.number .inUse) = (r, h') →
      (h'.stages c.number = .inUse →
        (∀ d, r = .ok d → c.isRunningAllowed image h = (.ok d, c.ended image d h')) ∧
        (∀ f, r = .error f → f.isA .imagePolicy →
          c.isRunningAllowed image h = (.ok (.deny f), c.ended image (.deny f) h')) ∧
        ∀ f, r = .error f → ¬ f.isA .imagePolicy →
          c.isRunningAllowed image h = (.error f, h'.moved c.number .ready)) ∧
      ∀ s, h'.stages c.number = s → s ≠ .inUse →
        c.isRunningAllowed image h = (.ok (.deny (lost s)),
          { h' with journal := h'.journal ++ [image.report (.deny (lost s))] })) ∧
    (∀ (expected new : Stage) (h₁ h₂ : Host σ) (f : Fault),
      c.changeStage expected new h₁ = (.error f, h₂) ↔
        h₁.stages c.number ≠ expected ∧
          f = .contextState expected.name (h₁.stages c.number).name new.name ∧ h₂ = h₁) ∧
    ∀ {α : Type} (x : Act σ α) (h₁ : Host σ) (ms : List Move), c.Tries x h₁ ms →
      (x h₁).2.stages c.number = (h₁.stages c.number).afterAll ms := by
  refine ⟨fun r h' hbody => ⟨fun hstage => ?_, fun s hstage hs => ?_⟩,
    fun r h' hbody => ⟨fun hstage => ⟨?_, ?_, ?_⟩, fun s hstage hs => ?_⟩,
    fun expected new h₁ h₂ f => c.changeStage_eq_error_iff, fun x h₁ ms => Tries.stage_eq⟩
  · exact checkedOut_of_inUse hready hbody hstage
  · exact checkedOut_of_lost hready hbody hstage hs
  · rintro d rfl
    exact isRunningAllowed_reports (checkedOut_of_inUse hready hbody hstage)
  · rintro f rfl hkind
    exact isRunningAllowed_denies (checkedOut_of_inUse hready hbody hstage) hkind
  · rintro f rfl hkind
    exact isRunningAllowed_raises (checkedOut_of_inUse hready hbody hstage) hkind
  · exact isRunningAllowed_denies (checkedOut_of_lost hready hbody hstage hs) rfl

end Context

namespace Specimen

/-- A check of base layers that gives the context of its own decision back and then has it
destroyed.  Between that it begins two decisions, of which the second gets the context. -/
def usurp (image : Image Unit) : Act Unit Decision := do
  let _ ← Act.outcome (unlayered.signaturesWithAcceptedAuthor image)
  unlayered.changeStage .inUse .ready
  let _ ← Act.outcome (unlayered.signaturesWithAcceptedAuthor image)
  unlayered.changeStage .ready .destroyed
  return .allow

def usurped : Context Unit :=
  ⟨0, ⟨[.signedBaseLayer .exact], []⟩,
    ⟨Verifier.ed25519 .standard 0, some fun _ image => usurp image⟩⟩

/-- An image with an address and without signatures. -/
def plain : Image Unit := ⟨address.toImageReference, pure [], pure []⟩

/-- An image that gives the context back and then fails to fetch its signatures. -/
def hasty : Image Unit :=
  ⟨address.toImageReference, pure [], do
    unlayered.changeStage .inUse .ready
    Act.fail interrupted⟩

/-- What the check tries: the first decision in it is refused, the second is a whole one. -/
def usurpations : List Move :=
  [⟨.ready, .inUse⟩] ++ ([⟨.inUse, .ready⟩] ++
    (([⟨.ready, .inUse⟩] ++ ([] ++ [⟨.inUse, .ready⟩])) ++ ([⟨.ready, .destroyed⟩] ++ [])))

theorem tries_usurp :
    usurped.Tries (usurp plain) (host.moved usurped.number .inUse) usurpations := by
  have hsame : unlayered.number = usurped.number := rfl
  refine .bind_ok (.outcome (.checkedOut_of_not_ready hsame (by decide))) rfl ?_
  refine .bind_ok (.attempt hsame ⟨.inUse, .ready⟩ _) rfl ?_
  refine .bind_ok (.outcome (.checkedOut_of_ready hsame rfl (.quiet rfl))) rfl ?_
  exact .bind_ok (.attempt hsame ⟨.ready, .destroyed⟩ _) rfl (.quiet rfl)

end Specimen

open Specimen in
/-- The check allows the image to run, and the context is destroyed by then; the signatures
cannot be fetched, and the context is ready by then.  Either is told as a lost context. -/
theorem Context.check_in_decides_usurped :
    host.stages usurped.number = .ready ∧
      (usurped.runningDecision plain (host.moved usurped.number .inUse)).1 = .ok .allow ∧
      (usurped.isRunningAllowed plain host).1 =
        .ok (.deny (.contextState "in_use" "destroyed" "ready")) ∧
      (usurped.isRunningAllowed plain host).2.stages usurped.number = .destroyed ∧
      (usurped.signaturesWithAcceptedAuthor hasty host).1 =
        .error (.contextState "in_use" "ready" "ready") ∧
      (usurped.signaturesWithAcceptedAuthor plain host).1 = .ok [] ∧
      (usurp plain (host.moved usurped.number .inUse)).2.stages usurped.number = .destroyed := by
  obtain ⟨hlist, hrun, -, htries⟩ :=
    Context.check_in_decides usurped plain (h := host) rfl
  obtain ⟨hhasty, -⟩ := Context.check_in_decides usurped hasty (h := host) rfl
  have hdenied := (hrun _ _ rfl).2 .destroyed rfl (by decide)
  have hfailed := (hhasty _ _ rfl).2 .ready rfl (by decide)
  have hlisted := (hlist _ _ rfl).1 rfl
  refine ⟨rfl, rfl, ?_, ?_, ?_, ?_, htries _ _ _ tries_usurp⟩
  · rw [hdenied]
    rfl
  · rw [hdenied]
    rfl
  · rw [hfailed]
    rfl
  · rw [hlisted]

end ImageTrust
