/-
# Attempts — how often a call is made, and how long the waits are

What a retry does can be kept in a record: the calls with their arguments, and the waits with
their lengths, one after the other.  Against a function that gives any row of outcomes
(`Backoff.Recorded`) the record and the result of a retry are settled by one number, that of
its last call:

    the last one allowed,  or
    the first one that is not tried again,  or
    the first one whose delay has no value

whichever comes first (`Recorded.attempt_ends`), as long as the clock can show the delays
before it.  Between whole numbers every delay has a value, and the third case is none
(`run_follows_outcomes`); but such a delay can be longer than any clock shows, and then the
wait fails and the retry with it (`run_outwaits`).  A delay that is a double has a value
after 1024 failures at most, however low the cap is, so a retry of more than 1025 attempts
ends with a fault of its own, in place of the last failure (`run_exhausts`, `run_overflows`).
-/
import Mathlib.Data.Nat.Find
import Mathlib.Order.Bounds.Basic
import ImageTrust.Proofs.Retry

namespace ImageTrust

variable {σ α γ : Type}

namespace Backoff

/-! ## Delays -/

/-- The delay after this many failures, if it has a value. -/
def pause (b : Backoff) (failures : Nat) : Number :=
  match b.base with
  | .whole i => (Number.whole (i * 2 ^ (failures - 1))).least b.cap
  | .binary x => (Number.binary (x.scale (failures - 1))).least b.cap

theorem delay_of_whole {b : Backoff} {i : Int} (hbase : b.base = .whole i) (failures : Nat) :
    b.delay failures = .ok (b.pause failures) := by
  simp only [delay, grown, pause, hbase]
  rfl

theorem delay_of_binary {b : Backoff} {x : Binary64} (hbase : b.base = .binary x)
    (failures : Nat) :
    b.delay failures =
      if 1024 ≤ failures - 1 then .error .delayTooLarge else .ok (b.pause failures) := by
  simp only [delay, grown, pause, hbase]
  split <;> rfl

/-- A delay that has a value has this one. -/
theorem eq_pause_of_delay {b : Backoff} {failures : Nat} {d : Number}
    (hd : b.delay failures = .ok d) : d = b.pause failures := by
  cases hbase : b.base with
  | whole i =>
      rw [delay_of_whole hbase, Except.ok.injEq] at hd
      exact hd.symm
  | binary x =>
      rw [delay_of_binary hbase, Result.ite_error_eq_ok_iff, Except.ok.injEq] at hd
      exact hd.2.symm

theorem least_whole (i j : Int) : (Number.whole i).least (.whole j) = .whole (min i j) := by
  simp only [Number.least, Number.lt, decide_eq_true_eq]
  split
  · rw [min_eq_right (by omega)]
  · rw [min_eq_left (by omega)]

theorem count_of_none {attempts : Int} (hnone : attempts < 1) :
    count (.whole attempts) = .error (.noAttempts (.whole attempts)) := by
  have hlt : Number.lt (.whole attempts) (.whole 1) = true := decide_eq_true hnone
  simp only [count, hlt, if_true]

/-! ## Waits -/

/-- What comes of a wait, by the clock. The clock shows doubles, so that a whole number which is
none has no end to wait for; and a delay that is not above zero is over at once. -/
def clock (d : Number) : Except Fault Unit :=
  if (Number.whole 0).lt d && d.toBinary64?.isNone then .error .delayTooLarge else .ok ()

/-- A whole number of seconds can be waited for if it is over at once, or has a double. -/
theorem clock_whole_eq_ok_iff {i : Int} :
    clock (.whole i) = .ok () ↔ i ≤ 0 ∨ ∃ x, (Number.whole i).toBinary64? = some x := by
  have hpositive : (Number.whole 0).lt (.whole i) = decide (0 < i) := rfl
  unfold clock
  rw [hpositive, ← Option.isSome_iff_exists]
  cases hdouble : (Number.whole i).toBinary64? with
  | none =>
      simp only [Option.isNone_none, Bool.and_true, decide_eq_true_eq, Result.ite_error_eq_ok_iff,
        Int.not_lt, Option.isSome_none, Bool.false_eq_true, or_false, and_true]
  | some x => simp

theorem clock_binary (x : Binary64) : clock (.binary x) = .ok () := by
  simp [clock, Number.toBinary64?]

/-- Between doubles the clock shows every delay. -/
theorem clock_pause {b : Backoff} {x y : Binary64} (hbase : b.base = .binary x)
    (hcap : b.cap = .binary y) (failures : Nat) : clock (b.pause failures) = .ok () := by
  unfold pause Number.least
  rw [hbase, hcap]
  dsimp only
  split <;> exact clock_binary _

/-! ## What one attempt does -/

/-- The outcome is a failure of a kind that passes. -/
def Retried (passes : FaultKind → Bool) (outcome : Except Fault α) : Prop :=
  ∃ f, outcome = .error f ∧ passes f.kind = true

section Attempt

variable {b : Backoff} {total number more : Nat} {sleep : Number → Act σ Unit}
  {passes : FaultKind → Bool} {call : Act σ α} {h h' : Host σ} {f e : Fault}

/-- A call that is not to be made again is the last one. -/
theorem attempt_stops (hstop : ¬ Retried passes (call h).1) :
    b.attempt total sleep passes call number more h = call h := by
  cases hcall : call h with
  | mk r h' =>
      rw [hcall] at hstop
      cases r with
      | ok a => exact attempt_answered hcall
      | error f =>
          have hno : ¬ passes f.kind = true := fun hp => hstop ⟨f, rfl, hp⟩
          cases more with
          | zero =>
              rw [attempt, Act.outcome_bind_apply, hcall]
              simp only [if_neg hno]
              rfl
          | succ more =>
              rw [attempt, Act.outcome_bind_apply, hcall]
              simp only [if_neg hno]
              rfl

/-- Where the delay has no value, that is the fault. -/
theorem attempt_cut (hcall : call h = (.error f, h')) (hpasses : passes f.kind = true)
    (hdelay : b.delay number = .error e) :
    b.attempt total sleep passes call number (more + 1) h = (.error e, h') := by
  rw [attempt, Act.outcome_bind_apply, hcall]
  simp only [if_pos hpasses, hdelay]
  rfl

/-- Where the wait fails, its fault is the result. -/
theorem attempt_outwaits {d : Number} (hcall : call h = (.error f, h'))
    (hpasses : passes f.kind = true) (hdelay : b.delay number = .ok d)
    (hsleep : ∀ h, sleep d h = (.error e, h)) :
    ∃ j, b.attempt total sleep passes call number (more + 1) h =
      (.error e, { h' with journal := j }) := by
  obtain ⟨j, hpaused⟩ := attempt_paused hcall hpasses hdelay
  exact ⟨j, hpaused.trans (Act.bind_error (hsleep _) _)⟩

end Attempt

/-! ## The loop as a row of numbers -/

/-- The attempts with these numbers, one after the other, where `last` is the number of the last
one that is allowed; and behind all of them something else. -/
def inTurn (b : Backoff) (last : Nat) (sleep : Number → Act σ Unit) (passes : FaultKind → Bool)
    (call : Act σ α) (behind : Act σ α) : List Nat → Act σ α
  | [] => behind
  | number :: rest => do
    match ← Act.outcome call with
    | .ok a => return a
    | .error f =>
      if passes f.kind then
        if number = last then
          Act.log .error .retry
            ["Giving up after ", Text.decimal number, " attempts: ", f.message]
          Act.fail f
        else
          let d ← Act.ofExcept (b.delay number)
          report last number f d
          sleep d
          inTurn b last sleep passes call behind rest
      else Act.fail f

/-- What stands behind the last attempt is never come to. -/
theorem attempt_eq_inTurn (b : Backoff) (sleep : Number → Act σ Unit) (passes : FaultKind → Bool)
    (call behind : Act σ α) {last : Nat} :
    ∀ more number : Nat, number + more = last →
      b.attempt last sleep passes call number more =
        b.inTurn last sleep passes call behind (List.range' number (more + 1)) := by
  intro more
  induction more with
  | zero =>
      rintro number rfl
      funext h
      simp only [attempt, inTurn, List.range'_succ, Act.outcome_bind_apply]
      cases (call h).1 with
      | ok a => rfl
      | error f =>
          by_cases hpasses : passes f.kind
          · simp only [if_pos hpasses, Nat.add_zero, if_true]
          · simp only [if_neg hpasses]
  | succ more ih =>
      intro number hlast
      have hbefore : number ≠ last := by omega
      have hrest : number + 1 + more = last := by omega
      rw [List.range'_succ]
      funext h
      simp only [attempt, inTurn, Act.outcome_bind_apply, if_neg hbefore]
      cases (call h).1 with
      | ok a => rfl
      | error f =>
          by_cases hpasses : passes f.kind
          · simp only [if_pos hpasses, ih (number + 1) hrest]
          · simp only [if_neg hpasses]

/-! ## The record of a retry -/

/-- What a retry does: a call with these arguments, or a wait of this length. -/
inductive Deed (γ : Type) where
  | call (args : γ)
  | wait (delay : Number)
deriving DecidableEq

namespace Deed

def isCall : Deed γ → Bool
  | .call _ => true
  | .wait _ => false

/-- How many of these are calls. -/
def calls (deeds : List (Deed γ)) : Nat := deeds.countP isCall

/-- A call with these arguments, and `more` times a wait and the call again; the waits are
numbered from `first` on. -/
def row (args : γ) (length : Nat → Number) (first more : Nat) : List (Deed γ) :=
  .call args :: (List.range' first more).flatMap fun i => [.wait (length i), .call args]

theorem row_succ (args : γ) (length : Nat → Number) (first more : Nat) :
    row args length first (more + 1) =
      [.call args] ++ [.wait (length first)] ++ row args length (first + 1) more := by
  simp only [row, List.range'_succ, List.flatMap_cons]
  rfl

theorem calls_append_call (deeds : List (Deed γ)) (args : γ) :
    calls (deeds ++ [.call args]) = calls deeds + 1 := by
  simp [calls, List.countP_append, isCall]

theorem calls_append_wait (deeds : List (Deed γ)) (d : Number) :
    calls (deeds ++ [.wait d]) = calls deeds := by
  simp [calls, List.countP_append, isCall]

theorem calls_row (args : γ) (length : Nat → Number) (first more : Nat) :
    calls (row args length first more) = more + 1 := by
  induction more generalizing first with
  | zero => rfl
  | succ more ih =>
      have hrow : calls (row args length first (more + 1)) =
          calls (row args length (first + 1) more) + 1 := by
        simp [row_succ, calls, List.countP_cons, isCall]
      rw [hrow, ih]

end Deed

open Deed

/-- The function gives these outcomes, the first call the first one.  It and the waits are kept
in a record, to which nothing else is added, and a wait comes to its end if the clock can show
how long it is. -/
structure Recorded (fn : γ → Act σ α) (sleep : Number → Act σ Unit)
    (outcome : Nat → Except Fault α) (done : σ → List (Deed γ)) : Prop where
  call_outcome : ∀ args h, (fn args h).1 = outcome (calls (done h.beyond) + 1)
  call_done : ∀ args h, done (fn args h).2.beyond = done h.beyond ++ [.call args]
  sleep_outcome : ∀ d, clock d = .ok () → ∀ h, (sleep d h).1 = .ok ()
  sleep_done : ∀ d, clock d = .ok () → ∀ h,
    done (sleep d h).2.beyond = done h.beyond ++ [.wait d]

/-- No further call follows the one with this number. -/
def Ends (b : Backoff) (passes : FaultKind → Bool) (outcome : Nat → Except Fault α)
    (last number : Nat) : Prop :=
  number = last ∨ ¬ Retried passes (outcome number) ∨ ∃ e, b.delay number = .error e

/-- There is a call that no further one follows: the last one allowed, if no other. -/
theorem exists_isLeast_ends (b : Backoff) (passes : FaultKind → Bool)
    (outcome : Nat → Except Fault α) {last first : Nat} (hfirst : first ≤ last) :
    ∃ c, IsLeast {i | first ≤ i ∧ b.Ends passes outcome last i} c := by
  classical
  have hlast : ∃ i, first ≤ i ∧ b.Ends passes outcome last i := ⟨last, hfirst, .inl rfl⟩
  exact ⟨Nat.find hlast, Nat.find_spec hlast, fun i hi => Nat.find_min' hlast hi⟩

/-- From number `first` on, the clock can show every delay before the last call. -/
def Timed (b : Backoff) (passes : FaultKind → Bool) (outcome : Nat → Except Fault α)
    (last first : Nat) : Prop :=
  ∀ i, first ≤ i → (∀ j, first ≤ j → j ≤ i → ¬ b.Ends passes outcome last j) →
    clock (b.pause i) = .ok ()

/-- From number `first` on, the call with number `c` is the last one, and this is the result. -/
structure Settled (b : Backoff) (passes : FaultKind → Bool) (outcome : Nat → Except Fault α)
    (last first c : Nat) (result : Except Fault α) : Prop where
  least : IsLeast {i | first ≤ i ∧ b.Ends passes outcome last i} c
  own : c = last ∨ ¬ Retried passes (outcome c) → result = outcome c
  cut : c ≠ last → Retried passes (outcome c) → ∀ e, b.delay c = .error e → result = .error e

/-- What is settled behind a call that is made again is settled from that one on. -/
theorem Settled.of_succ {b : Backoff} {passes : FaultKind → Bool} {outcome : Nat → Except Fault α}
    {last first c : Nat} {result : Except Fault α} (hfirst : ¬ b.Ends passes outcome last first)
    (hs : b.Settled passes outcome last (first + 1) c result) :
    b.Settled passes outcome last first c result := by
  refine ⟨⟨⟨Nat.le_of_succ_le hs.least.1.1, hs.least.1.2⟩, ?_⟩, hs.own, hs.cut⟩
  intro i hi
  have hne : first ≠ i := by
    rintro rfl
    exact hfirst hi.2
  exact hs.least.2 ⟨Nat.lt_of_le_of_ne hi.1 hne, hi.2⟩

theorem Timed.clock_first {b : Backoff} {passes : FaultKind → Bool}
    {outcome : Nat → Except Fault α} {last first : Nat} (ht : b.Timed passes outcome last first)
    (hfirst : ¬ b.Ends passes outcome last first) : clock (b.pause first) = .ok () := by
  refine ht first (Nat.le_refl first) fun i hi hi' => ?_
  obtain rfl := Nat.le_antisymm hi hi'
  exact hfirst

/-- Behind a call that is made again the clock can still show every delay. -/
theorem Timed.succ {b : Backoff} {passes : FaultKind → Bool} {outcome : Nat → Except Fault α}
    {last first : Nat} (hfirst : ¬ b.Ends passes outcome last first)
    (ht : b.Timed passes outcome last first) : b.Timed passes outcome last (first + 1) := by
  intro i hi hmore
  refine ht i (Nat.le_of_succ_le hi) fun j hj hji => ?_
  rcases Nat.eq_or_lt_of_le hj with rfl | hlater
  · exact hfirst
  · exact hmore j hlater hji

namespace Recorded

variable {b : Backoff} {fn : γ → Act σ α} {sleep : Number → Act σ Unit}
  {outcome : Nat → Except Fault α} {done : σ → List (Deed γ)} {passes : FaultKind → Bool}
  {args : γ} {number more : Nat} {h : Host σ}

theorem call_apply (hr : Recorded fn sleep outcome done) (args : γ)
    (hnumber : number = calls (done h.beyond) + 1) :
    ∃ h', fn args h = (outcome number, h') ∧ done h'.beyond = done h.beyond ++ [.call args] :=
  ⟨(fn args h).2, Prod.ext (hnumber ▸ hr.call_outcome args h) rfl, hr.call_done args h⟩

theorem sleep_apply (hr : Recorded fn sleep outcome done) {d : Number} (hd : clock d = .ok ())
    (h : Host σ) :
    ∃ h', sleep d h = (.ok (), h') ∧ done h'.beyond = done h.beyond ++ [.wait d] :=
  ⟨(sleep d h).2, Prod.ext (hr.sleep_outcome d hd h) rfl, hr.sleep_done d hd h⟩

/-- An attempt that no further one follows. -/
theorem attempt_ends_here (hr : Recorded fn sleep outcome done) (args : γ) (total : Nat)
    (hnumber : number = calls (done h.beyond) + 1)
    (hends : b.Ends passes outcome (number + more) number) :
    b.Settled passes outcome (number + more) number number
        (b.attempt total sleep passes (fn args) number more h).1 ∧
      done (b.attempt total sleep passes (fn args) number more h).2.beyond =
        done h.beyond ++ [.call args] := by
  obtain ⟨h', hcall, hdone⟩ := hr.call_apply args hnumber
  have hleast : IsLeast {i | number ≤ i ∧ b.Ends passes outcome (number + more) i} number :=
    ⟨⟨Nat.le_refl number, hends⟩, fun _ hi => hi.1⟩
  by_cases hretried : Retried passes (outcome number)
  · obtain ⟨f, hf, hpasses⟩ := hretried
    rw [hf] at hcall
    cases more with
    | zero =>
        obtain ⟨j, hlast⟩ := attempt_last hcall hpasses
        rw [hlast]
        exact ⟨⟨hleast, fun _ => hf.symm, fun hno => absurd rfl hno⟩, hdone⟩
    | succ more =>
        obtain ⟨e, he⟩ : ∃ e, b.delay number = .error e := by
          rcases hends with hlast | hno | hdelay
          · omega
          · exact absurd ⟨f, hf, hpasses⟩ hno
          · exact hdelay
        rw [attempt_cut hcall hpasses he]
        refine ⟨⟨hleast, ?_, ?_⟩, hdone⟩
        · rintro (hlast | hno)
          · omega
          · exact absurd ⟨f, hf, hpasses⟩ hno
        · intro _ _ e' he'
          rw [he, Except.error.injEq] at he'
          rw [he']
  · have hstop : ¬ Retried passes (fn args h).1 := by rwa [hcall]
    rw [attempt_stops hstop, hcall]
    exact ⟨⟨hleast, fun _ => rfl, fun _ hyes => absurd hyes hretried⟩, hdone⟩

/-- An attempt that a further one follows: a call and a wait are behind it. -/
theorem attempt_goes_on (hr : Recorded fn sleep outcome done) (args : γ) (total : Nat)
    {last : Nat} (hnumber : number = calls (done h.beyond) + 1)
    (hmore : ¬ b.Ends passes outcome last number) (hclock : clock (b.pause number) = .ok ()) :
    ∃ h', b.attempt total sleep passes (fn args) number (more + 1) h =
        b.attempt total sleep passes (fn args) (number + 1) more h' ∧
      done h'.beyond = done h.beyond ++ [.call args] ++ [.wait (b.pause number)] ∧
      number + 1 = calls (done h'.beyond) + 1 := by
  simp only [Ends, not_or, not_not, not_exists] at hmore
  obtain ⟨-, ⟨f, hf, hpasses⟩, hdelay⟩ := hmore
  obtain ⟨h₁, hcall, hcalled⟩ := hr.call_apply args hnumber
  rw [hf] at hcall
  obtain ⟨d, hd⟩ : ∃ d, b.delay number = .ok d := by
    cases hvalue : b.delay number with
    | ok d => exact ⟨d, rfl⟩
    | error e => exact absurd hvalue (hdelay e)
  obtain ⟨j, hpaused⟩ := attempt_paused hcall hpasses hd
  obtain rfl := eq_pause_of_delay hd
  obtain ⟨h₂, hsleep, hslept⟩ := hr.sleep_apply hclock { h₁ with journal := j }
  have hdone : done h₂.beyond = done h.beyond ++ [.call args] ++ [.wait (b.pause number)] := by
    rw [hslept, ← hcalled]
  refine ⟨h₂, hpaused.trans (Act.bind_ok hsleep _), hdone, ?_⟩
  rw [hdone, calls_append_wait, calls_append_call, hnumber]

/-- The attempts from one number on: which call is the last one, what comes of it, and what the
record has of them all. -/
theorem attempt_ends (hr : Recorded fn sleep outcome done) (b : Backoff)
    (passes : FaultKind → Bool) (args : γ) (total : Nat) :
    ∀ (more number : Nat) (h : Host σ), number = calls (done h.beyond) + 1 →
      b.Timed passes outcome (number + more) number →
      ∃ c, b.Settled passes outcome (number + more) number c
          (b.attempt total sleep passes (fn args) number more h).1 ∧
        done (b.attempt total sleep passes (fn args) number more h).2.beyond =
          done h.beyond ++ row args b.pause number (c - number) := by
  intro more
  -- By induction on the attempts behind this one; the record says which outcome is next.
  induction more with
  | zero =>
      intro number h hnumber _
      have hends : b.Ends passes outcome (number + 0) number := .inl rfl
      obtain ⟨hsettled, hdone⟩ := hr.attempt_ends_here args total hnumber hends
      refine ⟨number, hsettled, ?_⟩
      rw [hdone, Nat.sub_self]
      rfl
  | succ more ih =>
      intro number h hnumber htimed
      by_cases hends : b.Ends passes outcome (number + (more + 1)) number
      · obtain ⟨hsettled, hdone⟩ := hr.attempt_ends_here args total hnumber hends
        refine ⟨number, hsettled, ?_⟩
        rw [hdone, Nat.sub_self]
        rfl
      · have hclock := htimed.clock_first hends
        obtain ⟨h', hrest, hdone, hnext⟩ := hr.attempt_goes_on args total hnumber hends hclock
        have hlast : number + 1 + more = number + (more + 1) := by omega
        obtain ⟨c, hsettled, hrow⟩ := ih (number + 1) h' hnext (hlast ▸ htimed.succ hends)
        rw [hlast] at hsettled
        have hlater : c - number = c - (number + 1) + 1 := by
          have hle := hsettled.least.1.1
          omega
        rw [hrest]
        refine ⟨c, hsettled.of_succ hends, ?_⟩
        rw [hrow, hdone, hlater, row_succ]
        simp only [List.append_assoc]

end Recorded

/-! ## Retries -/

theorem run_of_count (b : Backoff) (sleep : Number → Act σ Unit) (passes : FaultKind → Bool)
    (call : Act σ α) {more : Nat} (hattempts : b.attempts = .whole (more + 1 : Nat)) :
    b.run sleep passes call = b.attempt (more + 1) sleep passes call 1 more := by
  have hcount := count_whole (Nat.le_add_left 1 more)
  simp only [run, hattempts, hcount]
  rfl

section Run

variable {fn : γ → Act σ α} {sleep : Number → Act σ Unit} {outcome : Nat → Except Fault α}
  {done : σ → List (Deed γ)} {h : Host σ}

/-- A whole retry, on an empty record. -/
theorem Recorded.run_ends (hr : Recorded fn sleep outcome done) {b : Backoff} {attempts : Nat}
    (hattempts : b.attempts = .whole attempts) (hone : 1 ≤ attempts) (passes : FaultKind → Bool)
    (args : γ) (htimed : b.Timed passes outcome attempts 1) (hnew : done h.beyond = []) :
    ∃ c, b.Settled passes outcome attempts 1 c (b.run sleep passes (fn args) h).1 ∧
      done (b.run sleep passes (fn args) h).2.beyond = row args b.pause 1 (c - 1) := by
  obtain ⟨more, rfl⟩ := Nat.exists_eq_add_one.mpr hone
  have hfirst : 1 = calls (done h.beyond) + 1 := by
    rw [hnew]
    rfl
  rw [← Nat.add_comm 1 more] at htimed
  obtain ⟨c, hsettled, hdone⟩ := hr.attempt_ends b passes args (more + 1) more 1 h hfirst htimed
  rw [hnew, List.nil_append] at hdone
  rw [Nat.add_comm 1 more] at hsettled
  rw [run_of_count b sleep passes (fn args) hattempts]
  exact ⟨c, hsettled, hdone⟩

/-- Between whole numbers, a call is made until one is not to be made again, or as often as is
allowed.  If the clock can show the waits before it, which double up to the cap, it is the last
call that is made, all calls have the same arguments, and its outcome is the result.  The attempts
never run out behind the last one, and without any attempt nothing is called. -/
theorem run_follows_outcomes (hr : Recorded fn sleep outcome done) (passes : FaultKind → Bool)
    (args : γ) (base cap : Int) (hnew : done h.beyond = []) :
    (∀ attempts : Nat, 1 ≤ attempts →
      let b : Backoff := ⟨.whole attempts, .whole base, .whole cap⟩
      let length (i : Nat) : Int := min (base * 2 ^ (i - 1)) cap
      (∃ c, IsLeast {i | 1 ≤ i ∧ (i = attempts ∨ ¬ Retried passes (outcome i))} c ∧
        ((∀ i, 1 ≤ i → i < c → length i ≤ 0 ∨ ∃ x, (Number.whole (length i)).toBinary64? = some x) →
          (b.run sleep passes (fn args) h).1 = outcome c ∧
          calls (done (b.run sleep passes (fn args) h).2.beyond) = c ∧
          done (b.run sleep passes (fn args) h).2.beyond =
            row args (fun i => .whole (length i)) 1 (c - 1))) ∧
      ∀ behind, b.run sleep passes (fn args) =
        b.inTurn attempts sleep passes (fn args) behind (List.range' 1 attempts)) ∧
    ∀ attempts : Int, attempts < 1 →
      (⟨.whole attempts, .whole base, .whole cap⟩ : Backoff).run sleep passes (fn args) h =
        (.error (.noAttempts (.whole attempts)), h) ∧
      (Fault.noAttempts (.whole attempts)).kind = .value := by
  constructor
  · intro attempts hone b length
    have hdelay : ∀ i, b.delay i = .ok (b.pause i) := delay_of_whole rfl
    have hpause : b.pause = fun i => .whole (length i) := by
      funext i
      exact least_whole _ _
    have hends : ∀ i, b.Ends passes outcome attempts i ↔
        i = attempts ∨ ¬ Retried passes (outcome i) := by
      intro i
      simp only [Ends, hdelay, reduceCtorEq, exists_false, or_false]
    constructor
    · obtain ⟨c, hleast⟩ := b.exists_isLeast_ends passes outcome hone
      simp only [hends] at hleast
      refine ⟨c, hleast, fun hshown => ?_⟩
      have htimed : b.Timed passes outcome attempts 1 := by
        intro i hi hmore
        rw [hpause, clock_whole_eq_ok_iff]
        refine hshown i hi (Nat.lt_of_not_le fun hc => ?_)
        exact hmore c hleast.1.1 hc ((hends c).mpr hleast.1.2)
      obtain ⟨c', hsettled, hdone⟩ := hr.run_ends (b := b) rfl hone passes args htimed hnew
      have hleast' := hsettled.least
      simp only [hends] at hleast'
      obtain rfl := hleast.unique hleast'
      have hcalls : c - 1 + 1 = c := Nat.sub_add_cancel hleast.1.1
      refine ⟨hsettled.own hleast.1.2, ?_, hpause ▸ hdone⟩
      rw [hdone, calls_row, hcalls]
    · intro behind
      obtain ⟨more, rfl⟩ := Nat.exists_eq_add_one.mpr hone
      rw [run_of_count b sleep passes (fn args) rfl]
      exact attempt_eq_inTurn b sleep passes (fn args) behind more 1 (Nat.add_comm 1 more)
  · intro attempts hnone
    refine ⟨?_, rfl⟩
    simp only [run, count_of_none hnone]
    rfl

end Run

/-- A function that plays a row of outcomes and keeps the record of its calls. -/
def played (outcome : Nat → Except Fault α) (args : γ) : Act (List (Deed γ)) α := fun h =>
  (outcome (calls h.beyond + 1), { h with beyond := h.beyond ++ [.call args] })

/-- A wait that is only put down, if the clock can show how long it is. -/
def waited (d : Number) : Act (List (Deed γ)) Unit := fun h =>
  match clock d with
  | .ok () => (.ok (), { h with beyond := h.beyond ++ [.wait d] })
  | .error e => (.error e, h)

theorem played_recorded (outcome : Nat → Except Fault α) :
    Recorded (γ := γ) (played outcome) waited outcome id where
  call_outcome _ _ := rfl
  call_done _ _ := rfl
  sleep_outcome _ hd _ := by
    unfold waited
    rw [hd]
  sleep_done _ hd _ := by
    unfold waited
    rw [hd]
    rfl

/-- Two failures, and then the number of the call. -/
def thirdTime : Nat → Except Fault Nat
  | 1 | 2 => .error (.given .connectError "refused")
  | i => .ok i

/-- Of four attempts three are made, as the third one is answered; without any there is none. -/
theorem run_follows_outcomes_third :
    let start : Host (List (Deed Text)) := Host.fresh Disk.empty []
    let retry (attempts : Int) := (⟨.whole attempts, .whole 3, .whole 5⟩ : Backoff).run waited
      (·.isA .transport) (played thirdTime ("busybox" : Text)) start
    (retry 4).1 = .ok 3 ∧
      (retry 4).2.beyond =
        [.call "busybox", .wait (.whole 3), .call "busybox", .wait (.whole 5), .call "busybox"] ∧
      retry 0 = (.error (.noAttempts (.whole 0)), start) := by
  intro start retry
  obtain ⟨hruns, hnone⟩ := run_follows_outcomes (played_recorded thirdTime) (·.isA .transport)
    ("busybox" : Text) 3 5 (h := start) rfl
  obtain ⟨⟨c, hleast, hfollows⟩, -⟩ := hruns 4 (by decide)
  have hthird : IsLeast {i | 1 ≤ i ∧ (i = 4 ∨ ¬ Retried (·.isA .transport) (thirdTime i))} 3 := by
    refine ⟨⟨by decide, .inr ?_⟩, ?_⟩
    · rintro ⟨f, hf, -⟩
      cases hf
    · rintro i ⟨hi, hends⟩
      by_contra hlt
      obtain rfl | rfl : i = 1 ∨ i = 2 := by omega
      · exact hends.elim nofun fun hno => hno ⟨_, rfl, rfl⟩
      · exact hends.elim nofun fun hno => hno ⟨_, rfl, rfl⟩
  obtain rfl := hleast.unique hthird
  obtain ⟨hresult, -, hdone⟩ := hfollows fun i hi hlt => by
    obtain rfl | rfl : i = 1 ∨ i = 2 := by omega
    · exact .inr ⟨_, rfl⟩
    · exact .inr ⟨_, rfl⟩
  exact ⟨hresult, hdone, (hnone 0 (by decide)).1⟩

/-- Of two attempts the second call would be the last one. But a wait of `16 ^ 256` seconds is
longer than any clock shows, so after the first call the retry ends with a fault of its own. -/
theorem run_outwaits :
    let start : Host (List (Deed Unit)) := Host.fresh Disk.empty []
    let refused (_ : Nat) : Except Fault Unit := .error (.given .connectError "boom")
    let retry := (⟨.whole 2, .whole (16 ^ 256), .whole (16 ^ 256)⟩ : Backoff).run waited
      (·.isA .transport) (played refused ()) start
    IsLeast {i | 1 ≤ i ∧ (i = 2 ∨ ¬ Retried (·.isA .transport) (refused i))} 2 ∧
      retry.1 = .error .delayTooLarge ∧ retry.1 ≠ refused 2 ∧
      retry.2.beyond = [.call ()] := by
  intro start refused retry
  have hleast : IsLeast {i | 1 ≤ i ∧ (i = 2 ∨ ¬ Retried (·.isA .transport) (refused i))} 2 := by
    refine ⟨⟨by decide, .inl rfl⟩, ?_⟩
    rintro i ⟨-, hlast | hno⟩
    · exact Nat.le_of_eq hlast.symm
    · exact absurd ⟨_, rfl, rfl⟩ hno
  obtain ⟨h, hfails, hdone⟩ : ∃ h, retry = (.error .delayTooLarge, h) ∧ h.beyond = [.call ()] := by
    let b : Backoff := ⟨.whole 2, .whole (16 ^ 256), .whole (16 ^ 256)⟩
    have hclock : clock (.whole (16 ^ 256)) = .error .delayTooLarge := by decide +kernel
    have hdelay : b.delay 1 = .ok (.whole (16 ^ 256)) := by decide +kernel
    have hrun : retry = b.attempt 2 waited (·.isA .transport) (played refused ()) 1 1 start :=
      congrFun (run_of_count b waited _ (played refused ()) rfl) start
    have hcall : played refused () start =
        (.error (.given .connectError "boom"), { start with beyond := [.call ()] }) := rfl
    have hwaited : ∀ h, waited (γ := Unit) (.whole (16 ^ 256)) h = (.error .delayTooLarge, h) := by
      intro h
      unfold waited
      rw [hclock]
    obtain ⟨j, hcut⟩ : ∃ j, b.attempt 2 waited (·.isA .transport) (played refused ()) 1 1 start =
        (.error .delayTooLarge, { start with beyond := [.call ()], journal := j }) :=
      attempt_outwaits hcall rfl hdelay hwaited
    exact ⟨_, hrun.trans hcut, rfl⟩
  rw [hfails]
  exact ⟨hleast, rfl, nofun, hdone⟩

/-! ## Delays that are doubles -/

theorem delay_eq_error_iff {b : Backoff} {x : Binary64} (hbase : b.base = .binary x)
    (failures : Nat) : (∃ e, b.delay failures = .error e) ↔ 1025 ≤ failures := by
  rw [delay_of_binary hbase]
  split
  · rename_i hlarge
    exact ⟨fun _ => by omega, fun _ => ⟨_, rfl⟩⟩
  · rename_i hsmall
    exact ⟨fun hvalue => absurd hvalue (by simp), fun hge => absurd hge (by omega)⟩

/-- If every failure passes, the last call is the last one allowed, or the last one with a delay
before it. -/
theorem Settled.eq_min {b : Backoff} {x : Binary64} {passes : FaultKind → Bool}
    {outcome : Nat → Except Fault α} {attempts c : Nat} {result : Except Fault α}
    (hbase : b.base = .binary x) (hfails : ∀ i, 1 ≤ i → Retried passes (outcome i))
    (hone : 1 ≤ attempts) (hs : b.Settled passes outcome attempts 1 c result) :
    c = min attempts 1025 := by
  have hends : ∀ i, 1 ≤ i → (b.Ends passes outcome attempts i ↔ i = attempts ∨ 1025 ≤ i) := by
    intro i hi
    simp only [Ends, delay_eq_error_iff hbase, hfails i hi, not_true, false_or]
  obtain ⟨hpos, hc⟩ := hs.least.1
  have hall : c ≤ attempts := hs.least.2 ⟨hone, .inl rfl⟩
  have hfew : c ≤ 1025 := hs.least.2 ⟨by decide, (hends 1025 (by decide)).mpr (.inr (by decide))⟩
  rw [hends c hpos] at hc
  omega

section Exhausted

variable {fn : γ → Act σ α} {sleep : Number → Act σ Unit} {outcome : Nat → Except Fault α}
  {done : σ → List (Deed γ)} {h : Host σ} {passes : FaultKind → Bool} {attempts : Nat}

/-- A retry that no call ends, with the delays that are doubles. -/
theorem Recorded.run_all_fail (hr : Recorded fn sleep outcome done)
    (hfails : ∀ i, 1 ≤ i → Retried passes (outcome i)) {b : Backoff} {x : Binary64}
    {y : Binary64} (hbase : b.base = .binary x) (hcap : b.cap = .binary y)
    (hattempts : b.attempts = .whole attempts) (hone : 1 ≤ attempts) (args : γ)
    (hnew : done h.beyond = []) :
    (b.run sleep passes (fn args) h).1 =
        (if attempts ≤ 1025 then outcome attempts else .error .delayTooLarge) ∧
      calls (done (b.run sleep passes (fn args) h).2.beyond) = min attempts 1025 ∧
      done (b.run sleep passes (fn args) h).2.beyond =
        row args b.pause 1 (min attempts 1025 - 1) := by
  obtain ⟨c, hsettled, hdone⟩ := hr.run_ends hattempts hone passes args
    (fun i _ _ => clock_pause hbase hcap i) hnew
  have hc := hsettled.eq_min hbase hfails hone
  refine ⟨?_, ?_, hc ▸ hdone⟩
  · by_cases hfew : attempts ≤ 1025
    · rw [min_eq_left hfew] at hc
      rw [if_pos hfew, hsettled.own (.inl hc), hc]
    · rw [min_eq_right (by omega)] at hc
      rw [if_neg hfew]
      refine hsettled.cut (by omega) (hfails c (by omega)) _ ?_
      rw [delay_of_binary hbase, hc]
      rfl
  · rw [hdone, calls_row, hc]
    omega

/-- If every call fails for a reason that passes and the delays are doubles, whatever they are, up
to 1025 attempts are made as allowed and the last failure is the result.  Of more, 1025 are made,
and the result is a fault of the retry's own: of the delay after them, which has no value, as none
has after 1025 failures or more, whatever the cap is. -/
theorem run_exhausts (hr : Recorded fn sleep outcome done)
    (hfails : ∀ i, 1 ≤ i → Retried passes (outcome i)) (args : γ) (base cap : Binary64)
    (hone : 1 ≤ attempts) (hnew : done h.beyond = []) :
    let b : Backoff := ⟨.whole attempts, .binary base, .binary cap⟩
    (attempts ≤ 1025 → (b.run sleep passes (fn args) h).1 = outcome attempts ∧
        calls (done (b.run sleep passes (fn args) h).2.beyond) = attempts) ∧
      (1025 < attempts → (b.run sleep passes (fn args) h).1 = .error .delayTooLarge ∧
        Fault.delayTooLarge.kind = .overflow ∧
        calls (done (b.run sleep passes (fn args) h).2.beyond) = 1025) ∧
      done (b.run sleep passes (fn args) h).2.beyond =
        row args b.pause 1 (min attempts 1025 - 1) ∧
      ∀ failures, (∃ f, b.delay failures = .error f) ↔ 1025 ≤ failures := by
  intro b
  obtain ⟨hresult, hcalls, hdone⟩ := hr.run_all_fail hfails (b := b) rfl rfl rfl hone args hnew
  refine ⟨fun hfew => ?_, fun hmany => ?_, hdone, delay_eq_error_iff rfl⟩
  · rw [hresult, hcalls, if_pos hfew, min_eq_left hfew]
    exact ⟨rfl, rfl⟩
  · rw [hresult, hcalls, if_neg (by omega), min_eq_right (by omega)]
    exact ⟨rfl, rfl, rfl⟩

end Exhausted

/-- Every call fails, and says which one it was. -/
def refusing (i : Nat) : Except Fault Unit := .error (.given .readTimeout (Text.decimal i))

theorem refusing_retried (i : Nat) : Retried (·.isA .transport) (refusing i) := ⟨_, rfl, rfl⟩

/-- A retry with the standard delays and this many attempts, of which every one fails. -/
def persisting (attempts : Nat) : Except Fault Unit × Host (List (Deed Unit)) :=
  Backoff.run ⟨.whole attempts, .binary (Binary64.ofDecimal false 5 (-1)), .binary (Binary64.ofInt 8)⟩
    waited (·.isA .transport) (played refusing ()) (Host.fresh Disk.empty [])

/-- The last failure is that of call 1025, if so many are allowed; one more is not made. -/
theorem run_exhausts_limit :
    (persisting 1025).1 = refusing 1025 ∧ calls (persisting 1025).2.beyond = 1025 ∧
      (persisting 1026).1 = .error .delayTooLarge ∧ calls (persisting 1026).2.beyond = 1025 := by
  have hlimit : ∀ attempts, 1 ≤ attempts →
      (attempts ≤ 1025 → (persisting attempts).1 = refusing attempts ∧
        calls (persisting attempts).2.beyond = attempts) ∧
      (1025 < attempts → (persisting attempts).1 = .error .delayTooLarge ∧
        calls (persisting attempts).2.beyond = 1025) := by
    intro attempts hone
    obtain ⟨hfew, hmany, -⟩ := run_exhausts (played_recorded refusing)
      (fun i _ => refusing_retried i) () (Binary64.ofDecimal false 5 (-1)) (Binary64.ofInt 8)
      (h := Host.fresh Disk.empty []) hone rfl
    exact ⟨hfew, fun hlarge => ⟨(hmany hlarge).1, (hmany hlarge).2.2⟩⟩
  obtain ⟨hlast, hall⟩ := (hlimit 1025 (by decide)).1 (by decide)
  obtain ⟨hfault, hbut⟩ := (hlimit 1026 (by decide)).2 (by decide)
  exact ⟨hlast, hall, hfault, hbut⟩

/-- Of 1026 attempts the last one is not made, and what comes out is none of the failures. -/
theorem run_overflows :
    (persisting 1026).1 = .error .delayTooLarge ∧ calls (persisting 1026).2.beyond = 1025 ∧
      ∀ i, refusing i ≠ .error .delayTooLarge := by
  have hall : ∀ attempts, 1025 < attempts → (persisting attempts).1 = .error .delayTooLarge ∧
      calls (persisting attempts).2.beyond = 1025 := by
    intro attempts hmany
    obtain ⟨hresult, hcalls, -⟩ := (played_recorded refusing).run_all_fail
      (b := ⟨.whole attempts, .binary (Binary64.ofDecimal false 5 (-1)), .binary (Binary64.ofInt 8)⟩)
      (h := Host.fresh Disk.empty []) (fun i _ => refusing_retried i) rfl rfl rfl (by omega) () rfl
    rw [if_neg (by omega)] at hresult
    rw [min_eq_right (by omega)] at hcalls
    exact ⟨hresult, hcalls⟩
  obtain ⟨hfault, hbut⟩ := hall 1026 (by decide)
  exact ⟨hfault, hbut, nofun⟩

end Backoff

end ImageTrust
