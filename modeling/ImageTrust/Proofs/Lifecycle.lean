/-
# Lifecycle — one decision at a time, and nothing after the end

Of a whole run only four things matter for a context: its stage, the keys that its verifier
remembers, how many decisions have it checked out, and how many destructions still have to
close its verifier.  A ledger keeps these for all contexts, and each step of a caller changes
it in one of eight ways (`Effect`).

The invariant is that the ledger adds up (`Ledger.Sound`): a context is in use if one
decision has it checked out, and otherwise none has; its verifier has been closed, or is
about to be, once if the context is destroyed, and otherwise not.  Every effect keeps that
up, and so does every run of any callers; from it follows what no run can do
(`lifecycle_safe`).
-/
import Mathlib.Algebra.GroupWithZero.Nat
import ImageTrust.Proofs.Decision
import ImageTrust.Proofs.Traffic

namespace ImageTrust

variable {σ : Type}

/-! ## Ledgers -/

/-- What matters of a host and its callers, for each context. -/
structure Ledger where
  stages : Nat → Stage
  caches : Nat → KeyCache
  flights : Nat → Nat
  closings : Nat → Nat

namespace Ledger

/-- One more at one place. -/
def raise (f : Nat → Nat) (n : Nat) : Nat → Nat := fun m => f m + if n = m then 1 else 0

@[simp] theorem raise_self (f : Nat → Nat) (n : Nat) : raise f n n = f n + 1 := by simp [raise]

theorem raise_other (f : Nat → Nat) {n m : Nat} (hm : m ≠ n) : raise f n m = f m := by
  simp [raise, Ne.symm hm]

section Tallies

variable {stages : Nat → Stage} {n m a : Nat} {s t : Stage}

theorem stage_of_replace (h : Act.replace stages n t m = s) (ht : t ≠ s) : stages m = s := by
  by_cases hmn : m = n
  · subst hmn
    exact absurd (by simpa using h) ht
  · rwa [Act.replace_other _ _ hmn] at h

/-- A context that comes to a stage is counted there. -/
theorem tally_enter (hm : a = if stages m = s then 1 else 0) (hn : stages n ≠ s) :
    (a + if n = m then 1 else 0) = if Act.replace stages n s m = s then 1 else 0 := by
  by_cases hmn : m = n
  · subst hmn
    simpa [hn] using hm
  · simpa [Act.replace_other _ _ hmn, Ne.symm hmn] using hm

/-- A context that leaves a stage is not counted there any more. -/
theorem tally_leave (hm : (a + if n = m then 1 else 0) = if stages m = s then 1 else 0)
    (hn : stages n = s) (ht : t ≠ s) : a = if Act.replace stages n t m = s then 1 else 0 := by
  by_cases hmn : m = n
  · subst hmn
    simpa [hn, ht] using hm
  · simpa [Act.replace_other _ _ hmn, Ne.symm hmn] using hm

/-- A context that passes between other stages does not count. -/
theorem tally_pass (hm : a = if stages m = s then 1 else 0) (hn : stages n ≠ s) (ht : t ≠ s) :
    a = if Act.replace stages n t m = s then 1 else 0 := by
  by_cases hmn : m = n
  · subst hmn
    simpa [hn, ht] using hm
  · simpa [Act.replace_other _ _ hmn] using hm

end Tallies

/-- What an event does to a ledger. -/
inductive Effect : Ledger → Event → Ledger → Prop
  | quiet {l : Ledger} : Effect l .quiet l
  | verified {l : Ledger} (n : Nat) (k : KeyCache) (hn : 0 < l.flights n) :
      Effect l (.verified n) { l with caches := Act.replace l.caches n k }
  | began {l : Ledger} (n : Nat) (hn : l.stages n = .ready) :
      Effect l (.began n)
        { l with stages := Act.replace l.stages n .inUse, flights := raise l.flights n }
  | refused {l : Ledger} (n : Nat) (s : Stage) (hn : l.stages n ≠ .ready) :
      Effect l (.refused n (.contextState Stage.ready.name (l.stages n).name s.name)) l
  | ended {l : Ledger} (n : Nat) (hn : l.stages n = .inUse) :
      Effect { l with flights := raise l.flights n } (.ended n)
        { l with stages := Act.replace l.stages n .ready }
  | lost {l : Ledger} (n : Nat) (f : Fault) (hn : l.stages n ≠ .inUse) :
      Effect { l with flights := raise l.flights n } (.lost n f) l
  | retired {l : Ledger} (n : Nat) (hn : l.stages n = .ready) :
      Effect l (.retired n)
        { l with stages := Act.replace l.stages n .destroyed, closings := raise l.closings n }
  | closed {l : Ledger} (n : Nat) :
      Effect { l with closings := raise l.closings n } (.closed n)
        { l with caches := Act.replace l.caches n (l.caches n).close }

/-- The ledger adds up after these events. -/
structure Sound (l : Ledger) (past : List Event) : Prop where
  flights : ∀ n, l.flights n = if l.stages n = .inUse then 1 else 0
  closings : ∀ n, past.count (.closed n) + l.closings n = if l.stages n = .destroyed then 1 else 0
  forgotten : ∀ n, l.stages n = .destroyed → l.closings n = 0 → (l.caches n).rings = []

variable {l l' : Ledger} {past : List Event} {e : Event}

/-- A verifier is closed when its context is destroyed, and once. -/
theorem Sound.of_closed (hs : l.Sound past) {n : Nat} (hn : .closed n ∈ past) :
    l.stages n = .destroyed ∧ past.count (.closed n) = 1 ∧ l.closings n = 0 := by
  have hcount : 0 < past.count (.closed n) := List.count_pos_iff.mpr hn
  have hclosings := hs.closings n
  by_cases hstage : l.stages n = .destroyed
  · rw [if_pos hstage] at hclosings
    refine ⟨hstage, ?_, ?_⟩ <;> omega
  · rw [if_neg hstage] at hclosings
    omega

theorem Effect.of_refused {n : Nat} {f : Fault} (he : Effect l (.refused n f) l') :
    l.stages n ≠ .ready ∧
      ∃ s : Stage, f = .contextState Stage.ready.name (l.stages n).name s.name := by
  cases he with
  | refused n s hn => exact ⟨hn, s, rfl⟩

theorem Sound.not_lost (hs : l.Sound past) (he : Effect l e l') (n : Nat) (f : Fault) :
    e ≠ .lost n f := by
  rintro rfl
  cases he with
  | lost n f hn =>
      have hflights := hs.flights n
      simp [raise, hn] at hflights

/-- Once destroyed a context stays so, and its verifier is not asked any more. -/
theorem Sound.destroyed_stays (hs : l.Sound past) (he : Effect l e l') {n : Nat}
    (hn : l.stages n = .destroyed) : l'.stages n = .destroyed ∧ e ≠ .verified n := by
  have hflights : l.flights n = 0 := by simpa [hn] using hs.flights n
  have hother : ∀ {m : Nat} {s : Stage}, l.stages m = s → s ≠ .destroyed → n ≠ m := by
    rintro m s hm hne rfl
    exact hne (hm.symm.trans hn)
  cases he with
  | quiet => exact ⟨hn, nofun⟩
  | refused => exact ⟨hn, nofun⟩
  | closed => exact ⟨hn, nofun⟩
  | lost => exact ⟨hn, nofun⟩
  | verified m k hm =>
      refine ⟨hn, ?_⟩
      rintro ⟨⟩
      omega
  | began m hm => exact ⟨by simpa [Act.replace_other _ _ (hother hm nofun)] using hn, nofun⟩
  | ended m hm => exact ⟨by simpa [Act.replace_other _ _ (hother hm nofun)] using hn, nofun⟩
  | retired m hm => exact ⟨by simpa [Act.replace_other _ _ (hother hm nofun)] using hn, nofun⟩

theorem Sound.flights_effect (hs : l.Sound past) (he : Effect l e l') (m : Nat) :
    l'.flights m = if l'.stages m = .inUse then 1 else 0 := by
  have hm := hs.flights m
  cases he with
  | quiet => exact hm
  | refused => exact hm
  | verified => exact hm
  | closed => exact hm
  | began n hn => exact tally_enter hm (by simp [hn])
  | ended n hn => exact tally_leave hm hn nofun
  | retired n hn => exact tally_pass hm (by simp [hn]) nofun
  | lost n f hn => exact absurd rfl (hs.not_lost (.lost n f hn) n f)

theorem Sound.closings_effect (hs : l.Sound past) (he : Effect l e l') (m : Nat) :
    (past ++ [e]).count (.closed m) + l'.closings m =
      if l'.stages m = .destroyed then 1 else 0 := by
  have hm := hs.closings m
  rw [List.count_append, List.count_singleton]
  cases he with
  | quiet => simpa using hm
  | refused => simpa using hm
  | verified => simpa using hm
  | lost => simpa using hm
  | began n hn => simpa using tally_pass (n := n) (t := .inUse) hm (by simp [hn]) nofun
  | ended n hn => simpa using tally_pass (n := n) (t := .ready) hm (by simp [hn]) nofun
  | retired n hn => simpa [raise, Nat.add_assoc] using tally_enter hm (by simp [hn])
  -- What was still to be closed has been closed now; the sum is the same.
  | closed n => simpa [raise, Nat.add_assoc, Nat.add_comm, Nat.add_left_comm] using hm

theorem Sound.forgotten_effect (hs : l.Sound past) (he : Effect l e l') (m : Nat)
    (hstage : l'.stages m = .destroyed) (hclosed : l'.closings m = 0) :
    (l'.caches m).rings = [] := by
  have hm := hs.forgotten m
  cases he with
  | quiet => exact hm hstage hclosed
  | refused => exact hm hstage hclosed
  | lost => exact hm hstage hclosed
  | began n hn => exact hm (stage_of_replace hstage nofun) hclosed
  | ended n hn => exact hm (stage_of_replace hstage nofun) hclosed
  | verified n k hn =>
      have hstage' : l.stages m = .destroyed := hstage
      -- Who asks a verifier has its context checked out, so that one is not destroyed.
      have hmn : m ≠ n := by
        rintro rfl
        have hflights := hs.flights m
        rw [if_neg (by simp [hstage'])] at hflights
        omega
      simpa [Act.replace_other _ _ hmn] using hm hstage' hclosed
  | retired n hn =>
      by_cases hmn : m = n
      · subst hmn
        simp at hclosed
      · exact hm (by simpa [Act.replace_other _ _ hmn] using hstage)
          (by simpa [raise_other _ hmn] using hclosed)
  | closed n =>
      by_cases hmn : m = n
      · subst hmn
        simp [KeyCache.close]
      · simpa [Act.replace_other _ _ hmn] using
          hm hstage (by simpa [raise_other _ hmn] using hclosed)

/-- Every event leaves a ledger that adds up. -/
theorem Sound.effect (hs : l.Sound past) (he : Effect l e l') : l'.Sound (past ++ [e]) :=
  ⟨hs.flights_effect he, hs.closings_effect he, hs.forgotten_effect he⟩

end Ledger

/-! ## Steps and their effects -/

namespace Context

theorem Shipped.close_apply {c : Context σ} (hc : c.Shipped) (h : Host σ) :
    ∃ j, c.environment.verifier.close h =
      (.ok (), { h with
        journal := j, caches := Act.replace h.caches c.number (h.caches c.number).close }) := by
  obtain ⟨room, hverifier⟩ := hc
  rw [hverifier]
  exact ⟨_, rfl⟩

/-- A destruction of a context that is ready succeeds: it moves this context, and closes its
verifier. -/
theorem Shipped.destroy_apply {c : Context σ} (hc : c.Shipped) {h : Host σ}
    (hstage : h.stages c.number = .ready) :
    ∃ j, c.destroy h =
      (.ok (), { h.moved c.number .destroyed with
        journal := j, caches := Act.replace h.caches c.number (h.caches c.number).close }) := by
  have hmoved : c.changeStage .ready .destroyed h = (.ok (), h.moved c.number .destroyed) := by
    rw [changeStage_apply, if_pos hstage]
  obtain ⟨j, hclose⟩ := hc.close_apply (h.moved c.number .destroyed)
  exact ⟨j, (Act.bind_ok hmoved _).trans hclose⟩

/-- Verifying changes at most what this verifier remembers. -/
theorem Shipped.verify_host {c : Context σ} (hc : c.Shipped) (raw material : Bytes) (h : Host σ) :
    ∃ k, (c.environment.verifier.verify raw material h).2 =
      { h with caches := Act.replace h.caches c.number k } := by
  obtain ⟨room, hverifier⟩ := hc
  obtain ⟨k, hverify⟩ := Verifier.verify_apply room c.number raw material h
  refine ⟨k, ?_⟩
  rw [hverifier, hverify]

end Context

namespace Thread

variable {α : Type}

/-- The ledger of a thread beside others that have checked out, and still have to close, this
much. -/
def ledger (h : Host σ) (t : Thread σ α) (flights closings : Nat → Nat) : Ledger where
  stages := h.stages
  caches := h.caches
  flights n := flights n + t.held.count n
  closings n := closings n + t.closings.count n

theorem tally_cons (f : Nat → Nat) (n : Nat) (ns : List Nat) :
    (fun m => f m + (n :: ns).count m) = Ledger.raise (fun m => f m + ns.count m) n := by
  funext m
  simp [Ledger.raise, List.count_cons, Nat.add_assoc]

open Ledger in
theorem effect_of_step {h h' : Host σ} {t t' : Thread σ α} {e : Event}
    (hstep : t.step h = some (e, h', t')) (flights closings : Nat → Nat) :
    Effect (t.ledger h flights closings) e (t'.ledger h' flights closings) := by
  cases t with
  | closing held c hc k next =>
      simp only [step, Option.some.injEq, Prod.mk.injEq] at hstep
      obtain ⟨rfl, rfl, rfl⟩ := hstep
      obtain ⟨j, hclose⟩ := hc.close_apply h
      simp only [hclose, ledger, Thread.closings, Thread.held, tally_cons]
      exact .closed (l := ⟨h.stages, h.caches, _, _⟩) c.number
  | going held plan =>
      cases plan with
      | done r hx => simp only [step, reduceCtorEq] at hstep
      | quiet y hy k hx next =>
          simp only [step, Option.some.injEq, Prod.mk.injEq] at hstep
          obtain ⟨rfl, rfl, rfl⟩ := hstep
          obtain ⟨hstages, hcaches⟩ := hy h
          simp only [ledger, hstages, hcaches]
          exact .quiet
      | verify c hc hheld raw material k hx next =>
          simp only [step, Option.some.injEq, Prod.mk.injEq] at hstep
          obtain ⟨rfl, rfl, rfl⟩ := hstep
          obtain ⟨kept, hverify⟩ := hc.verify_host raw material h
          simp only [hverify, ledger, Thread.closings, Thread.held]
          refine .verified (l := ⟨h.stages, h.caches, _, _⟩) c.number kept ?_
          have hcount := List.count_pos_iff.mpr hheld
          exact Nat.lt_of_lt_of_le hcount (Nat.le_add_left _ _)
      | checkOut c k hx next refused =>
          simp only [step, Context.changeStage_apply] at hstep
          by_cases hn : h.stages c.number = .ready
          · simp only [if_pos hn, Option.some.injEq, Prod.mk.injEq] at hstep
            obtain ⟨rfl, rfl, rfl⟩ := hstep
            simp only [ledger, Thread.closings, Thread.held, tally_cons]
            exact .began (l := ⟨h.stages, h.caches, _, _⟩) c.number hn
          · simp only [if_neg hn, Option.some.injEq, Prod.mk.injEq] at hstep
            obtain ⟨rfl, rfl, rfl⟩ := hstep
            exact .refused (l := ⟨h.stages, h.caches, _, _⟩) c.number .inUse hn
      | checkIn c k hx next =>
          simp only [step, Context.changeStage_apply] at hstep
          by_cases hn : h.stages c.number = .inUse
          · simp only [if_pos hn, Option.some.injEq, Prod.mk.injEq] at hstep
            obtain ⟨rfl, rfl, rfl⟩ := hstep
            simp only [ledger, Thread.closings, Thread.held, tally_cons]
            exact .ended (l := ⟨h.stages, h.caches, _, _⟩) c.number hn
          · simp only [if_neg hn, Option.some.injEq, Prod.mk.injEq] at hstep
            obtain ⟨rfl, rfl, rfl⟩ := hstep
            simp only [ledger, Thread.closings, Thread.held, tally_cons]
            exact .lost (l := ⟨h.stages, h.caches, _, _⟩) c.number _ hn
      | destroy c hc k hx next =>
          simp only [step, Context.changeStage_apply] at hstep
          by_cases hn : h.stages c.number = .ready
          · simp only [if_pos hn, Option.some.injEq, Prod.mk.injEq] at hstep
            obtain ⟨rfl, rfl, rfl⟩ := hstep
            simp only [ledger, Thread.closings, Thread.held, tally_cons]
            exact .retired (l := ⟨h.stages, h.caches, _, _⟩) c.number hn
          · simp only [if_neg hn, Option.some.injEq, Prod.mk.injEq] at hstep
            obtain ⟨rfl, rfl, rfl⟩ := hstep
            exact .refused (l := ⟨h.stages, h.caches, _, _⟩) c.number .destroyed hn

/-- A refusal leaves everything as it was. -/
theorem host_of_refused {h h' : Host σ} {t t' : Thread σ α} {n : Nat} {f : Fault}
    (hstep : t.step h = some (.refused n f, h', t')) : h' = h := by
  cases t with
  | closing held c hc k next =>
      simp only [step, Option.some.injEq, Prod.mk.injEq, reduceCtorEq, false_and] at hstep
  | going held plan =>
      cases plan with
      | done r hx => simp [step] at hstep
      | quiet y hy k hx next => simp [step] at hstep
      | verify c hc hheld raw material k hx next => simp [step] at hstep
      | checkOut c k hx next refused =>
          by_cases hn : h.stages c.number = .ready
          · simp [step, Context.changeStage_apply, hn] at hstep
          · simp only [step, Context.changeStage_apply, if_neg hn, Option.some.injEq,
              Prod.mk.injEq] at hstep
            exact hstep.2.1.symm
      | checkIn c k hx next =>
          by_cases hn : h.stages c.number = .inUse
          · simp [step, Context.changeStage_apply, hn] at hstep
          · simp [step, Context.changeStage_apply, hn] at hstep
      | destroy c hc k hx next =>
          by_cases hn : h.stages c.number = .ready
          · simp [step, Context.changeStage_apply, hn] at hstep
          · simp only [step, Context.changeStage_apply, if_neg hn, Option.some.injEq,
              Prod.mk.injEq] at hstep
            exact hstep.2.1.symm

end Thread

/-! ## Runs -/

namespace Pool

/-- How many decisions have the context with this number checked out. -/
def flights (ts : Pool σ) (n : Nat) : Nat := (ts.map fun t => t.2.held.count n).sum

/-- How many destructions still have to close the verifier with this number. -/
def closings (ts : Pool σ) (n : Nat) : Nat := (ts.map fun t => t.2.closings.count n).sum

def ledger (h : Host σ) (ts : Pool σ) : Ledger := ⟨h.stages, h.caches, ts.flights, ts.closings⟩

theorem ledger_insert (h : Host σ) (before after : Pool σ) {α : Type} (t : Thread σ α) :
    Pool.ledger h (before ++ ⟨α, t⟩ :: after) =
      t.ledger h (flights (before ++ after)) (closings (before ++ after)) := by
  unfold Pool.ledger Thread.ledger
  congr 1 <;> funext n <;>
    simp only [flights, closings, List.map_append, List.map_cons, List.sum_append, List.sum_cons] <;>
    omega

theorem ledger_call (h : Host σ) (ts : Pool σ) {α : Type} {last : List Nat} {x : Act σ α}
    (plan : Plan [] last x) : Pool.ledger h (⟨α, .going [] plan⟩ :: ts) = Pool.ledger h ts := by
  unfold Pool.ledger
  congr 1 <;> funext n <;> simp [flights, closings, Thread.held, Thread.closings]

end Pool

variable {h h' : Host σ} {ts ts' : Pool σ} {e : Event} {events past : List Event}

theorem Turn.effect (hturn : Turn h ts e h' ts') :
    Ledger.Effect (Pool.ledger h ts) e (Pool.ledger h' ts') := by
  cases hturn with
  | step before after hstep =>
      rw [Pool.ledger_insert, Pool.ledger_insert]
      exact Thread.effect_of_step hstep _ _

/-- A refusal says what the context was and was to become, and leaves everything alone. -/
theorem Turn.refused {n : Nat} {f : Fault} (hturn : Turn h ts (.refused n f) h' ts') :
    h' = h ∧ h.stages n ≠ .ready ∧
      ∃ s : Stage, f = .contextState Stage.ready.name (h.stages n).name s.name := by
  refine ⟨?_, hturn.effect.of_refused⟩
  cases hturn with
  | step before after hstep => exact Thread.host_of_refused hstep

namespace Run

/-- A ledger that adds up does so after every run. -/
theorem sound (hrun : Run h ts events h' ts') (hs : (Pool.ledger h ts).Sound past) :
    (Pool.ledger h' ts').Sound (past ++ events) := by
  induction hrun generalizing past with
  | rest => rwa [List.append_nil]
  | call caller more ih => exact ih (by rwa [Pool.ledger_call])
  | turn first more ih =>
      rw [List.append_cons]
      exact ih (hs.effect first.effect)

theorem not_lost (hrun : Run h ts events h' ts') (hs : (Pool.ledger h ts).Sound past) (n : Nat)
    (f : Fault) : .lost n f ∉ events := by
  induction hrun generalizing past with
  | rest => exact List.not_mem_nil
  | call caller more ih => exact ih (by rwa [Pool.ledger_call])
  | turn first more ih =>
      rw [List.mem_cons, not_or]
      exact ⟨Ne.symm (hs.not_lost first.effect n f), ih (hs.effect first.effect)⟩

theorem destroyed_stays (hrun : Run h ts events h' ts') (hs : (Pool.ledger h ts).Sound past)
    {n : Nat} (hn : h.stages n = .destroyed) :
    h'.stages n = .destroyed ∧ .verified n ∉ events := by
  induction hrun generalizing past with
  | rest => exact ⟨hn, List.not_mem_nil⟩
  | call caller more ih => exact ih (by rwa [Pool.ledger_call]) hn
  | turn first more ih =>
      obtain ⟨hstays, hasked⟩ := hs.destroyed_stays first.effect hn
      obtain ⟨hend, hnever⟩ := ih (hs.effect first.effect) hstays
      rw [List.mem_cons, not_or]
      exact ⟨hend, Ne.symm hasked, hnever⟩

end Run

/-! ## What no run can do -/

namespace Context

/-- A context that is not ready denies, with the fault of a check-out, and asks nobody. -/
theorem isRunningAllowed_of_not_ready (c : Context σ) (image : Image σ) {h : Host σ}
    (hstage : h.stages c.number ≠ .ready) :
    ∃ report : Entry, c.isRunningAllowed image h =
      (.ok (.deny (.contextState Stage.ready.name (h.stages c.number).name Stage.inUse.name)),
        { h with journal := h.journal ++ [report] }) :=
  ⟨_, isRunningAllowed_denies (c.checkedOut_of_not_ready _ hstage) rfl⟩

end Context

/-- Of any callers on new contexts, after any run and before any other: each context has one
decision in flight while it is in use and none at other times; a call that it is not ready
for is refused and leaves it alone; a destruction that it is ready for destroys it, closes its
verifier and leaves all else alone; no check-in fails; what is destroyed stays so, is closed
once, and is not asked any more. -/
theorem lifecycle_safe {h₀ h h' : Host σ} {ts ts' : Pool σ} {past later : List Event}
    (hnew : ∀ n, h₀.stages n = .ready) (hpast : Run h₀ [] past h ts)
    (hlater : Run h ts later h' ts') :
    (∀ n, ts.flights n ≤ 1 ∧ (h.stages n = .inUse ↔ ts.flights n = 1)) ∧
    (∀ n f h₁ ts₁, Turn h ts (.refused n f) h₁ ts₁ → h₁ = h ∧ h.stages n ≠ .ready ∧
      ∃ s : Stage, f = .contextState Stage.ready.name (h.stages n).name s.name) ∧
    (∀ c : Context σ, h.stages c.number ≠ .ready →
      (∀ image, c.signaturesWithAcceptedAuthor image h =
        (.error (.contextState Stage.ready.name (h.stages c.number).name Stage.inUse.name), h)) ∧
      (∀ image, ∃ report : Entry, c.isRunningAllowed image h =
        (.ok (.deny (.contextState Stage.ready.name (h.stages c.number).name Stage.inUse.name)),
          { h with journal := h.journal ++ [report] })) ∧
      c.destroy h =
        (.error (.contextState Stage.ready.name (h.stages c.number).name Stage.destroyed.name),
          h)) ∧
    (∀ c : Context σ, c.Shipped → h.stages c.number = .ready →
      ∃ j, c.destroy h = (.ok (), { h.moved c.number .destroyed with
        journal := j, caches := Act.replace h.caches c.number (h.caches c.number).close })) ∧
    (∀ n f, .lost n f ∉ past) ∧
    (∀ n, h.stages n = .destroyed → h'.stages n = .destroyed ∧ .verified n ∉ later) ∧
    (∀ n, past.count (.closed n) + ts.closings n = if h.stages n = .destroyed then 1 else 0) ∧
    (∀ n, .closed n ∈ past → .verified n ∉ later ∧ .closed n ∉ later ∧
      (h.caches n).rings = []) := by
  have hstart : (Pool.ledger h₀ []).Sound [] := by
    refine ⟨fun n => ?_, fun n => ?_, fun n hn => ?_⟩
    · simp [Pool.ledger, Pool.flights, hnew n]
    · simp [Pool.ledger, Pool.closings, hnew n]
    · exact absurd ((hnew n).symm.trans hn) nofun
  have hs : (Pool.ledger h ts).Sound past := hpast.sound hstart
  have hflights : ∀ n, ts.flights n = if h.stages n = .inUse then 1 else 0 := hs.flights
  have hclosings : ∀ n, past.count (.closed n) + ts.closings n =
      if h.stages n = .destroyed then 1 else 0 := hs.closings
  have hdestroyed : ∀ n, h.stages n = .destroyed →
      h'.stages n = .destroyed ∧ .verified n ∉ later := fun n => hlater.destroyed_stays hs
  refine ⟨fun n => ?_, fun n f h₁ ts₁ hturn => hturn.refused, fun c hc => ⟨fun image => ?_,
    fun image => c.isRunningAllowed_of_not_ready image hc, c.destroy_of_not_ready hc⟩,
    fun c hc hready => hc.destroy_apply hready,
    fun n f => hpast.not_lost hstart n f, hdestroyed, hclosings, fun n hn => ?_⟩
  · rw [hflights n]
    split <;> simp_all
  · exact c.checkedOut_of_not_ready _ hc
  · obtain ⟨hstage, hcount, hnone⟩ := hs.of_closed hn
    refine ⟨(hdestroyed n hstage).2, fun hagain => ?_, hs.forgotten n hstage hnone⟩
    -- The invariant holds after both runs, and there the two closings would count.
    have hcount' : 0 < later.count (.closed n) := List.count_pos_iff.mpr hagain
    obtain ⟨-, hend, -⟩ := (hlater.sound hs).of_closed (List.mem_append_left later hn)
    rw [List.count_append] at hend
    omega

namespace Overlap

/-- The contexts that share a policy without requirements. -/
def sharing (n : Nat) : Context Unit := ⟨n, ⟨[], []⟩, ⟨Verifier.ed25519 .standard n, none⟩⟩

/-- An image with nothing to it. -/
def bare : Image Unit := ⟨⟨none, pure [], pure [], []⟩, pure [], pure []⟩

def start : Host Unit := Host.fresh Disk.empty ()

theorem innocent_pure {α : Type} (a : α) : (pure a : Act Unit α).Innocent := fun _ => ⟨rfl, rfl⟩

def decision : Caller ((sharing 0).signaturesWithAcceptedAuthor bare) :=
  .signatures ⟨_, rfl⟩ (.quiet (innocent_pure _)) (.quiet (innocent_pure _))
    (.quiet (innocent_pure _)) (.quiet (innocent_pure _))

def destruction (n : Nat) : Caller (sharing n).destroy := .destroy ⟨_, rfl⟩

end Overlap

open Overlap in
/-- A decision begins on one context; another context is destroyed, while the first one
cannot be; and the other cannot be destroyed again, but a third one can. -/
theorem lifecycle_safe_overlap :
    ∃ (h h' : Host Unit) (ts ts' : Pool Unit) (f f' : Fault),
      (∀ n, start.stages n = .ready) ∧
      Run start [] [.began 0, .retired 1, .refused 0 f, .closed 1] h ts ∧
      Run h ts [.refused 1 f'] h' ts' ∧
      ts.flights 0 = 1 ∧ h'.stages 1 = .destroyed ∧
      ((sharing 2).destroy h).1 = .ok () ∧ ((sharing 2).destroy h).2.stages 2 = .destroyed := by
  obtain ⟨h, h', ts, ts', f, f', hpast, hlater, hin, hgone, hready⟩ :
      ∃ (h h' : Host Unit) (ts ts' : Pool Unit) (f f' : Fault),
        Run start [] [.began 0, .retired 1, .refused 0 f, .closed 1] h ts ∧
        Run h ts [.refused 1 f'] h' ts' ∧ h.stages 0 = .inUse ∧ h.stages 1 = .destroyed ∧
          h.stages 2 = .ready :=
    ⟨_, _, _, _, _, _, .call (destruction 0) <| .call (destruction 1) <| .call decision <|
      .turn (.step [] [_, _] rfl) <| .turn (.step [_] [_] rfl) <| .turn (.step [_, _] [] rfl) <|
        .turn (.step [_] [_] rfl) .rest,
      .call (destruction 1) <| .turn (.step [] [_, _, _] rfl) .rest, rfl, rfl, rfl⟩
  obtain ⟨hflights, -, -, hdestroys, -, hstays, -, -⟩ :=
    lifecycle_safe (fun _ => rfl) hpast hlater
  obtain ⟨j, hdestroyed⟩ := hdestroys (sharing 2) ⟨_, rfl⟩ hready
  refine ⟨h, h', ts, ts', f, f', fun _ => rfl, hpast, hlater, (hflights 0).2.mp hin,
    (hstays 1 hgone).1, ?_, ?_⟩
  · rw [hdestroyed]
  · rw [hdestroyed]
    exact Host.moved_stage h 2 .destroyed

end ImageTrust
