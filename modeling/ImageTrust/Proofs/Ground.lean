/-
# Grounds — what a decision stands on

A decision asks collaborators of which nothing is known but what they leave alone.  A
ground is a set of hosts that reporting and remembering keys do not lead out of; an action
keeps a ground if it does not lead out of it either, and it answers on a ground if besides
it comes to the same result from every host there.

Both pass through the ways actions are put together, so that what a whole decision keeps
or answers is read off its parts.  The ground used most is `still`: these files, and one
context in this stage.
-/
import ImageTrust.Proofs.Action

namespace ImageTrust

variable {σ α β : Type}

/-- A set of hosts that neither a report nor another cache of keys leads out of. -/
structure Ground (σ : Type) where
  holds : Host σ → Prop
  report : ∀ {h : Host σ} (j : List Entry), holds h → holds { h with journal := j }
  remember : ∀ {h : Host σ} (k : Nat → KeyCache), holds h → holds { h with caches := k }

namespace Ground

variable {g : Ground σ}

/-- The hosts with these files on which the context with this number is in this stage. -/
def still (n : Nat) (disk : Disk) (s : Stage) : Ground σ where
  holds h := h.disk = disk ∧ h.stages n = s
  report _ hh := hh
  remember _ hh := hh

/-- The action does not lead out of the ground. -/
def Keeps (g : Ground σ) (x : Act σ α) : Prop := ∀ h, g.holds h → g.holds (x h).2

/-- On the ground the action comes to this result, and does not lead out. -/
def Answers (g : Ground σ) (x : Act σ α) (r : Except Fault α) : Prop :=
  ∀ h, g.holds h → (x h).1 = r ∧ g.holds (x h).2

/-! ## Keeping -/

theorem Keeps.log (level : Level) (channel : Channel) (parts : List Text) :
    g.Keeps (Act.log level channel parts : Act σ Unit) := fun _ hh => g.report _ hh

theorem Keeps.bind {x : Act σ α} {f : α → Act σ β} (hx : g.Keeps x) (hf : ∀ a, g.Keeps (f a)) :
    g.Keeps (x >>= f) := by
  intro h hh
  have hkept : g.holds (x h).2 := hx h hh
  rw [Act.bind_apply]
  cases hxh : x h with
  | mk result h' =>
      rw [hxh] at hkept
      cases result with
      | error e => exact hkept
      | ok a => exact hf a h' hkept

theorem Keeps.outcome {x : Act σ α} (hx : g.Keeps x) : g.Keeps (Act.outcome x) :=
  fun h hh => hx h hh

/-! ## Answering -/

theorem Answers.keeps {x : Act σ α} {r : Except Fault α} (hx : g.Answers x r) : g.Keeps x :=
  fun h hh => (hx h hh).2

theorem Answers.pure (a : α) : g.Answers (pure a : Act σ α) (.ok a) := fun _ hh => ⟨rfl, hh⟩

theorem Answers.fail (f : Fault) : g.Answers (Act.fail f : Act σ α) (.error f) :=
  fun _ hh => ⟨rfl, hh⟩

theorem Answers.ofExcept (e : Except Fault α) : g.Answers (Act.ofExcept e) e :=
  fun _ hh => ⟨rfl, hh⟩

theorem Answers.log (level : Level) (channel : Channel) (parts : List Text) :
    g.Answers (Act.log level channel parts : Act σ Unit) (.ok ()) :=
  fun _ hh => ⟨rfl, g.report _ hh⟩

theorem Answers.outcome {x : Act σ α} {r : Except Fault α} (hx : g.Answers x r) :
    g.Answers (Act.outcome x) (.ok r) := fun h hh => ⟨congrArg _ (hx h hh).1, (hx h hh).2⟩

theorem Answers.bind {x : Act σ α} {f : α → Act σ β} {a : α} {r : Except Fault β}
    (hx : g.Answers x (.ok a)) (hf : g.Answers (f a) r) : g.Answers (x >>= f) r := by
  intro h hh
  obtain ⟨hres, hkept⟩ := hx h hh
  rw [Act.bind_ok (Prod.ext hres rfl)]
  exact hf _ hkept

theorem Answers.bind_error {x : Act σ α} {f : α → Act σ β} {e : Fault}
    (hx : g.Answers x (.error e)) : g.Answers (x >>= f) (.error e) := by
  intro h hh
  obtain ⟨hres, hkept⟩ := hx h hh
  rw [Act.bind_error (Prod.ext hres rfl)]
  exact ⟨rfl, hkept⟩

/-- Whatever the first action comes to, the second is asked for what follows from that. -/
theorem Answers.bind_except {x : Act σ α} {f : α → Act σ β} {r : Except Fault α}
    {s : α → Except Fault β} (hx : g.Answers x r) (hf : ∀ a, g.Answers (f a) (s a)) :
    g.Answers (x >>= f) (r >>= s) := by
  cases r with
  | ok a => exact hx.bind (hf a)
  | error e => exact hx.bind_error

end Ground

end ImageTrust
